import Mathlib.Data.Finmap
import MinIODB.Service.Store

/-!
# The records of a compaction

A flush writes the columns `id`, `timestamp` and `table_name` and one column for every field of
the user. A compaction reads a file through the four columns of `GenericRecord`, which are `id`,
`timestamp`, `payload` and `table`, turns every record into a map and back, and writes files with
these four columns. So a row comes out as it went in only if it had these columns and no others,
and only if its payload survives being taken for JSON.

JSON is a parameter. NULL and a column that a file does not have are the same to a view, which
puts its files together by column names.
-/
namespace MinIODB.Compaction
open Service List

inductive Cell where
  | text (s : String)
  | int64 (n : Int64)
  | double (x : ℚ)
  | boolean (b : Bool)
  deriving DecidableEq

abbrev Columns := Finmap (fun _ : String => Cell)

def flushColumns (table : String) (fields : Columns) : Columns := fields.insert "table_name" (.text table)

structure GenericRecord where
  id : String
  timestamp : Int64
  payload : String
  table : String

inductive Value (ν : Type*) where
  | text (s : String)
  | bytes (s : String)
  | int64 (n : Int64)
  | time (micros : Int64)
  | json (v : ν)

abbrev Record (ν : Type*) := String → Option (Value ν)

structure Json (ν : Type*) where
  unmarshal : String → Option (Value ν)
  marshal : Value ν → Option String
  marshalRecord : Record ν → Option String

variable {ν : Type*} (json : Json ν)

def textOf : Option Cell → String
  | some (.text s) => s
  | _ => ""

def genericRecord (r : StoredRow Columns) : GenericRecord :=
  ⟨r.id.getD "", r.timestamp, textOf (r.fields.lookup "payload"), textOf (r.fields.lookup "table")⟩

def recordMap (rec : GenericRecord) : Record ν := fun key =>
  if key = "id" then some (.text rec.id)
  else if key = "timestamp" then some (.int64 rec.timestamp)
  else if key = "table" then some (.text rec.table)
  else if key = "payload" ∧ rec.payload ≠ "" then
    some ((json.unmarshal rec.payload).getD (.text rec.payload))
  else none

def readFile (rows : List (StoredRow Columns)) : List (Record ν) :=
  rows.map (fun r => recordMap json (genericRecord r))

def payloadText : Value ν → String
  | .bytes s | .text s => s
  | v => (json.marshal v).getD ""

def convertToGenericRecord (now : Int64) (record : Record ν) : GenericRecord where
  id :=
    match record "id" with
    | some (.text id) => id
    | _ => ""
  timestamp :=
    match record "timestamp" with
    | some (.time micros) => micros
    | some (.int64 n) => n
    | _ => now
  payload :=
    match record "payload" with
    | some raw => payloadText json raw
    | none =>
      match record "data" with
      | some raw => payloadText json raw
      | none => (json.marshalRecord record).getD ""
  table :=
    match record "table" with
    | some (.text table) => table
    | _ => ""

def writeFiles (maxRowsPerFile : ℕ) : List GenericRecord → List GenericRecord → List (List GenericRecord)
  | current, [] => [current]
  | current, rec :: records =>
    if maxRowsPerFile ≤ (current ++ [rec]).length then
      (current ++ [rec]) :: writeFiles maxRowsPerFile [] records
    else writeFiles maxRowsPerFile (current ++ [rec]) records

lemma flatten_writeFiles (maxRowsPerFile : ℕ) (current records : List GenericRecord) :
    (writeFiles maxRowsPerFile current records).flatten = current ++ records := by
  induction records generalizing current with
  | nil => simp [writeFiles]
  | cons rec records ih =>
    rw [writeFiles]
    split
    · rw [flatten_cons, ih, nil_append, append_assoc, singleton_append]
    · rw [ih, append_assoc, singleton_append]

def genericColumns (payload table : String) : Columns :=
  ((∅ : Columns).insert "table" (.text table)).insert "payload" (.text payload)

def writtenRow (rec : GenericRecord) : StoredRow Columns :=
  ⟨some rec.id, rec.timestamp, genericColumns rec.payload rec.table, 0⟩

abbrev Content := Option String × Int64 × Columns

def content (r : StoredRow Columns) : Content := (r.id, r.timestamp, r.fields)

def KeepsText (payload : String) : Prop :=
  payload ≠ "" ∧ ∀ v, json.unmarshal payload = some v → payloadText json v = payload

instance (payload : String) : Decidable (KeepsText json payload) :=
  inferInstanceAs (Decidable (payload ≠ "" ∧ ∀ v ∈ json.unmarshal payload, payloadText json v = payload))

structure Stable (r : StoredRow Columns) : Prop where
  id : r.id ≠ none
  layout : r.fields = genericColumns (genericRecord r).payload (genericRecord r).table
  payload : KeepsText json (genericRecord r).payload

instance (r : StoredRow Columns) : Decidable (Stable json r) :=
  decidable_of_iff (r.id ≠ none ∧ r.fields = genericColumns (genericRecord r).payload (genericRecord r).table ∧
    KeepsText json (genericRecord r).payload) ⟨fun h => ⟨h.1, h.2.1, h.2.2⟩, fun h => ⟨h.id, h.layout, h.payload⟩⟩

variable {json}

lemma payload_of_keepsText {now : Int64} {rec : GenericRecord} (h : KeepsText json rec.payload) :
    (convertToGenericRecord json now (recordMap json rec)).payload = rec.payload := by
  obtain ⟨hne, hkeeps⟩ := h
  have hmap : recordMap json rec "payload" =
      some ((json.unmarshal rec.payload).getD (.text rec.payload)) := by
    simp [recordMap, hne]
  simp only [convertToGenericRecord, hmap]
  cases hvalue : json.unmarshal rec.payload with
  | none => rfl
  | some v => exact hkeeps v hvalue

lemma convert_recordMap (now : Int64) (rec : GenericRecord) :
    convertToGenericRecord json now (recordMap json rec) =
      { rec with payload := (convertToGenericRecord json now (recordMap json rec)).payload } := by
  simp [convertToGenericRecord, recordMap]

lemma Stable.content_written {r : StoredRow Columns} (h : Stable json r) (now : Int64) :
    content (writtenRow (convertToGenericRecord json now (recordMap json (genericRecord r)))) =
      content r := by
  obtain ⟨id, hid⟩ := Option.ne_none_iff_exists'.mp h.id
  rw [convert_recordMap, payload_of_keepsText h.payload]
  simp only [content, writtenRow, Prod.mk.injEq]
  refine ⟨?_, rfl, h.layout.symm⟩
  simp [genericRecord, hid]

end MinIODB.Compaction
