import MinIODB.Buffer.Memory

/-!
# Column names of the fields of a row

A worker writes the rows of a buffer to one file. The fields of all rows get their column names
together: a key is made safe, and a safe name that was used before, or that is the name of a
system column, gets a number. The number is counted for each safe name apart, so a name that is
made with a number may be a name that another key has already.
-/
namespace MinIODB.Buffer
open List AList

variable {ν : Type*}

abbrev Fields (ν : Type*) := AList (fun _ : String => ν)

def Fields.rebuild (g : String → ν → ν) (fields : Fields ν) : Fields ν :=
  fields.entries.foldl (fun result field => result.insert field.1 (g field.1 field.2)) ∅

def isSafe (c : Char) : Bool := c.isAlphanum || c = '_'

def sanitizeColumnName (name : String) : String :=
  match name.toList.map (fun c => if isSafe c then c else '_') with
  | [] => "_col"
  | c :: safe =>
    String.ofList ((if c.isDigit then '_' :: c :: safe else c :: safe).map Char.toLower)

def systemColumnNames : List String := ["id", "timestamp", "table_name"]

def finalName (safe : String) (count : ℕ) : String :=
  if count = 0 then safe else safe ++ "_" ++ toString (count + 1)

structure Naming where
  seen : String → ℕ := fun _ => 0
  result : AList (fun _ : String => String) := ∅

namespace Naming

def count (s : Naming) (safe : String) : ℕ :=
  if safe ∈ systemColumnNames ∧ s.seen safe = 0 then 1 else s.seen safe

def add (s : Naming) (k : String) : Naming where
  seen := Function.update s.seen (sanitizeColumnName k) (s.count (sanitizeColumnName k) + 1)
  result := s.result.insert k (finalName (sanitizeColumnName k) (s.count (sanitizeColumnName k)))

end Naming

def buildGlobalFieldMapping (keys : List String) : AList (fun _ : String => String) :=
  ((keys.insertionSort (· ≤ ·)).foldl Naming.add {}).result

def allFieldKeys (rows : List (DataRow (Fields ν))) : List String := (rows.flatMap (·.fields.keys)).dedup

def setColumn (mapping : AList (fun _ : String => String)) (m : Fields ν) (field : Σ _ : String, ν) :
    Fields ν :=
  match mapping.lookup field.1 with
  | some colName => m.insert colName field.2
  | none => m

structure SystemValues (ν : Type*) where
  text : String → ν
  time : Int64 → ν

def marshalRowToJSONWithMapping (sys : SystemValues ν) (row : DataRow (Fields ν))
    (mapping : AList (fun _ : String => String)) : Fields ν :=
  (((row.fields.entries.foldl (setColumn mapping) ∅).insert "id" (sys.text row.id)).insert
    "timestamp" (sys.time row.timestamp)).insert "table_name" (sys.text row.table)

def writeParquetFile (sys : SystemValues ν) (rows : List (DataRow (Fields ν))) : List (Fields ν) :=
  rows.map (fun row =>
    marshalRowToJSONWithMapping sys row (buildGlobalFieldMapping (allFieldKeys rows)))

variable {entries : List (Σ _ : String, ν)} {m : Fields ν} {k safe colName : String} {v : ν}

section
variable (g : String → ν → ν)

lemma lookup_foldl_insert_of_notMem (h : k ∉ entries.keys) :
    (entries.foldl (fun result field => result.insert field.1 (g field.1 field.2)) m).lookup k =
      m.lookup k := by
  induction entries generalizing m with
  | nil => rfl
  | cons e entries ih =>
    rw [keys_cons, mem_cons, not_or] at h
    rw [foldl_cons, ih h.2, lookup_insert_ne h.1]

lemma lookup_foldl_insert (hnodup : entries.NodupKeys) (hm : k ∉ m) :
    (entries.foldl (fun result field => result.insert field.1 (g field.1 field.2)) m).lookup k =
      (entries.dlookup k).map (g k) := by
  induction entries generalizing m with
  | nil => exact lookup_eq_none.mpr hm
  | cons e entries ih =>
    rw [nodupKeys_cons] at hnodup
    rw [foldl_cons]
    by_cases hk : k = e.1
    · subst hk
      rw [lookup_foldl_insert_of_notMem g hnodup.1, lookup_insert, dlookup_cons_eq]
      rfl
    · rw [ih hnodup.2 (by simp [mem_insert, hk, hm]), dlookup_cons_ne _ _ hk]

lemma Fields.lookup_rebuild (fields : Fields ν) (k : String) :
    (fields.rebuild g).lookup k = (fields.lookup k).map (g k) :=
  lookup_foldl_insert g fields.nodupKeys (notMem_empty k)

end

/-! ## The names -/

lemma finalName_notMem_systemColumnNames {count : ℕ}
    (h : count = 0 → safe ∉ systemColumnNames) : finalName safe count ∉ systemColumnNames := by
  unfold finalName
  split
  case isTrue hzero => exact h hzero
  case isFalse hpos =>
    intro hmem
    obtain ⟨d, hd⟩ := exists_mem_of_ne_nil _ (@Nat.toDigits_ne_nil (count + 1) 10)
    have hname : d ∈ (safe ++ "_" ++ toString (count + 1)).toList := by simp [hd]
    have hnodigit : ∀ name ∈ systemColumnNames, name.toList.all (fun c => !c.isDigit) = true := by decide
    have hdigit := Nat.isDigit_of_mem_toDigits (by omega) (by omega) hd
    have hnot := all_eq_true.mp (hnodigit _ hmem) d hname
    rw [hdigit] at hnot
    cases hnot

lemma Naming.count_ne_zero {s : Naming} (h : safe ∈ systemColumnNames) : s.count safe ≠ 0 := by
  unfold count
  split
  case isTrue => exact one_ne_zero
  case isFalse hseen => exact fun hzero => hseen ⟨h, hzero⟩

lemma Naming.lookup_foldl (keys : List String) (s : Naming)
    (hs : ∀ k colName, s.result.lookup k = some colName → colName ∉ systemColumnNames)
    (hk : k ∈ keys ∨ k ∈ s.result) :
    ∃ colName, (keys.foldl Naming.add s).result.lookup k = some colName ∧
      colName ∉ systemColumnNames := by
  induction keys generalizing s with
  | nil =>
    obtain ⟨colName, hcol⟩ := Option.isSome_iff_exists.mp
      (lookup_isSome.mpr (hk.resolve_left not_mem_nil))
    exact ⟨colName, hcol, hs k colName hcol⟩
  | cons key keys ih =>
    refine ih (s.add key) ?_ ?_
    · intro k' colName hcol
      by_cases hkey : k' = key
      · rw [hkey, Naming.add, lookup_insert, Option.some.injEq] at hcol
        rw [← hcol]
        exact finalName_notMem_systemColumnNames (fun hzero hmem => count_ne_zero hmem hzero)
      · rw [Naming.add, lookup_insert_ne hkey] at hcol
        exact hs k' colName hcol
    · rw [Naming.add, mem_insert]
      obtain hk | hk := hk
      · obtain rfl | hk := mem_cons.mp hk
        · exact .inr (.inl rfl)
        · exact .inl hk
      · exact .inr (.inr hk)

lemma lookup_buildGlobalFieldMapping {keys : List String} (hk : k ∈ keys) :
    ∃ colName, (buildGlobalFieldMapping keys).lookup k = some colName ∧
      colName ∉ systemColumnNames :=
  Naming.lookup_foldl _ _ (fun _ _ h => by cases h) (.inl ((mem_insertionSort _).mpr hk))

/-! ## The columns of a row -/

variable {sys : SystemValues ν} {mapping : AList (fun _ : String => String)}

lemma lookup_foldl_setColumn_of_notMem (h : ∀ e ∈ entries, mapping.lookup e.1 ≠ some colName) :
    (entries.foldl (setColumn mapping) m).lookup colName = m.lookup colName := by
  induction entries generalizing m with
  | nil => rfl
  | cons e entries ih =>
    rw [foldl_cons, ih (fun e' he' => h e' (mem_cons_of_mem _ he')), setColumn]
    split
    case h_1 other hother =>
      refine lookup_insert_ne (fun heq => h e (.head _) ?_)
      rw [hother, heq]
    case h_2 => rfl

lemma lookup_foldl_setColumn (hnodup : entries.NodupKeys) (hfield : ⟨k, v⟩ ∈ entries)
    (hcol : mapping.lookup k = some colName)
    (hdistinct : ∀ e ∈ entries, mapping.lookup e.1 = some colName → e.1 = k) :
    (entries.foldl (setColumn mapping) m).lookup colName = some v := by
  induction entries generalizing m with
  | nil => cases hfield
  | cons e entries ih =>
    rw [nodupKeys_cons] at hnodup
    rw [foldl_cons]
    obtain rfl | hrest := mem_cons.mp hfield
    · rw [lookup_foldl_setColumn_of_notMem, setColumn]
      · simp only [hcol]
        exact lookup_insert _
      · intro e he hsame
        refine hnodup.1 (List.mem_keys.mpr ⟨e.2, ?_⟩)
        rw [← hdistinct e (mem_cons_of_mem _ he) hsame]
        exact he
    · exact ih hnodup.2 hrest (fun e' he' => hdistinct e' (.tail _ he'))

lemma lookup_marshalRowToJSONWithMapping {row : DataRow (Fields ν)}
    (hfield : row.fields.lookup k = some v) (hcol : mapping.lookup k = some colName)
    (hsystem : colName ∉ systemColumnNames)
    (hdistinct : ∀ k' ∈ row.fields.keys, mapping.lookup k' = some colName → k' = k) :
    (marshalRowToJSONWithMapping sys row mapping).lookup colName = some v := by
  simp only [systemColumnNames, mem_cons, not_mem_nil, or_false, not_or] at hsystem
  rw [marshalRowToJSONWithMapping, lookup_insert_ne hsystem.2.2,
    lookup_insert_ne hsystem.2.1, lookup_insert_ne hsystem.1]
  refine lookup_foldl_setColumn row.fields.nodupKeys (of_mem_dlookup hfield) hcol ?_
  intro e he
  exact hdistinct e.1 (mem_map.mpr ⟨e, he, rfl⟩)

/-! ## The schema -/

/-- The types that `inferParquetType` tells apart; `Int64` reads a number of `encoding/json` or not. -/
inductive Kind where
  | null | bool | int | float | other
  | number (int64 : Bool)

inductive ParquetType where
  | boolean | int64 | double | utf8
  deriving DecidableEq

def inferParquetType : Kind → ParquetType
  | .bool => .boolean
  | .int | .number true => .int64
  | .float | .number false => .double
  | .null | .other => .utf8

section
variable (kind : ν → Kind) (rows : List (DataRow (Fields ν)))

def buildParquetSchemaJSONFromMapping (mapping : AList (fun _ : String => String))
    (fields : String → Option ν) : List (String × ParquetType) :=
  [("id", .utf8), ("timestamp", .int64), ("table_name", .utf8)] ++ mapping.entries.map (fun e =>
    (e.2, inferParquetType ((fields e.1).elim .null kind)))

def keyToColName : AList (fun _ : String => String) := buildGlobalFieldMapping (allFieldKeys rows)

/-- A field has the type of its value in the first row that has it. -/
def schema : List (String × ParquetType) :=
  buildParquetSchemaJSONFromMapping kind (keyToColName rows)
    (fun k => rows.findSome? (·.fields.lookup k))

end

def oneField (kinds : List Kind) : List (DataRow (Fields Kind)) :=
  kinds.map (⟨"", 0, "", singleton "a" ·⟩)

end MinIODB.Buffer
