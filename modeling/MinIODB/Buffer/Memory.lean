import MinIODB.Library.RowMap

/-!
# The buffer in memory

Rows wait in a map from buffer keys `table/id/day` to row lists, next to a counter of
pending writes and the last log number of every key. Each definition below is one
section of the source that runs under the buffer's mutex.

The sections only look at a row's table and id, so they are stated for any type of
rows that carries a `DataRow`; the payload of a row is arbitrary as well.
-/
namespace MinIODB.Buffer

structure DataRow (φ : Type*) where
  id : String
  timestamp : Int64
  table : String
  fields : φ
  deriving DecidableEq

structure AppConfig where
  defaultTable : String

def AppConfig.getDefaultTableName (c : AppConfig) : String :=
  if c.defaultTable = "" then "default" else c.defaultTable

structure Config where
  bufferSize : ℕ
  workerPoolSize : ℕ
  taskQueueSize : ℕ
  maxRetries : ℕ
  walEnabled : Bool
  appConfig : Option AppConfig
  dayStr : Int64 → String

def Config.default (appConfig : Option AppConfig) (dayStr : Int64 → String) : Config :=
  ⟨1000, 10, 100, 3, true, appConfig, dayStr⟩

def oneDay : Config := Config.default (some ⟨""⟩) (fun _ => "2024-01-01")

def emptyIDPlaceholder : String := "_"

def walFailThreshold : ℕ := 3

section
variable {φ : Type*} (cfg : Config) (row : DataRow φ)

def tableName : String :=
  if row.table = "" then
    match cfg.appConfig with
    | some appConfig => appConfig.getDefaultTableName
    | none => "default_table"
  else row.table

def idPart : String := if row.id = "" then emptyIDPlaceholder else row.id

def bufferKey : String := tableName cfg row ++ "/" ++ idPart row ++ "/" ++ cfg.dayStr row.timestamp

end

def inTable (table key : String) : Bool := (table ++ "/").toList.isPrefixOf key.toList

lemma inTable_bufferKey {φ : Type*} (cfg : Config) (row : DataRow φ) :
    inTable (tableName cfg row) (bufferKey cfg row) := by
  rw [inTable, List.isPrefixOf_iff_prefix]
  refine ⟨(idPart row ++ "/" ++ cfg.dayStr row.timestamp).toList, ?_⟩
  simp [bufferKey]

structure Mem (ρ : Type*) where
  buffer : RowMap String ρ
  pendingWrites : ℤ
  lastFlushedSeq : String → ℕ

namespace Mem

section
variable {ρ : Type*}

def empty : Mem ρ := ⟨RowMap.empty, 0, fun _ => 0⟩

def insert (m : Mem ρ) (key : String) (r : ρ) : Mem ρ :=
  { m with
    buffer := m.buffer.set key (m.buffer.get key ++ [r])
    pendingWrites := m.pendingWrites + 1 }

def rollback (m : Mem ρ) (key : String) (insertIdx : ℕ) : Mem ρ :=
  { m with
    buffer :=
      if insertIdx < (m.buffer.get key).length then
        m.buffer.set key ((m.buffer.get key).eraseIdx insertIdx)
      else m.buffer
    pendingWrites := m.pendingWrites - 1 }

def recordSeq (m : Mem ρ) (key : String) (seqNum : ℕ) : Mem ρ :=
  { m with lastFlushedSeq := Function.update m.lastFlushedSeq key seqNum }

def takeRows (m : Mem ρ) (key : String) : Mem ρ :=
  { m with
    buffer := m.buffer.set key []
    pendingWrites := m.pendingWrites - (m.buffer.get key).length }

def clearTable (m : Mem ρ) (table : String) : Mem ρ × ℕ :=
  ({ buffer := m.buffer.filterRows (inTable table) (fun _ => false)
     pendingWrites := m.pendingWrites - m.buffer.dropped (inTable table) (fun _ => false)
     lastFlushedSeq := fun key =>
       if key ∈ m.buffer.keys ∧ inTable table key = true then 0 else m.lastFlushedSeq key },
    m.buffer.dropped (inTable table) (fun _ => false))

def getTableKeys (m : Mem ρ) (table : String) : List String :=
  m.buffer.keys.filter (fun key => decide ((table ++ "/").length < key.length) && inTable table key)

section
variable (m : Mem ρ)

@[simp] theorem get_insert (key k : String) (r : ρ) : (m.insert key r).buffer.get k =
      if k = key then m.buffer.get key ++ [r] else m.buffer.get k := by
  simp [insert, RowMap.get_set]

@[simp] theorem get_rollback (key k : String) (insertIdx : ℕ) :
    (m.rollback key insertIdx).buffer.get k =
      if k = key then (m.buffer.get key).eraseIdx insertIdx else m.buffer.get k := by
  by_cases hlt : insertIdx < (m.buffer.get key).length
  · simp [rollback, hlt, RowMap.get_set]
  · rw [List.eraseIdx_of_length_le (not_lt.mp hlt)]
    simp only [rollback, if_neg hlt]
    split
    · rename_i heq
      rw [heq]
    · rfl

@[simp] theorem get_takeRows (key k : String) :
    (m.takeRows key).buffer.get k = if k = key then [] else m.buffer.get k := by
  simp [takeRows, RowMap.get_set]

@[simp] theorem get_clearTable (table k : String) :
    (m.clearTable table).1.buffer.get k = if inTable table k then [] else m.buffer.get k := by
  simp [clearTable, RowMap.get_filterRows]

end

end

variable {φ ρ : Type*} (row : ρ → DataRow φ)

def remove (m : Mem ρ) (table id : String) : Mem ρ × ℕ :=
  ({ m with
     buffer := m.buffer.filterRows (inTable table) (fun r => (row r).id != id)
     pendingWrites := m.pendingWrites -
       m.buffer.dropped (inTable table) (fun r => (row r).id != id) },
    m.buffer.dropped (inTable table) (fun r => (row r).id != id))

@[simp] theorem get_remove (m : Mem ρ) (table id k : String) :
    (m.remove row table id).1.buffer.get k =
      if inTable table k then (m.buffer.get k).filter (fun r => (row r).id != id)
      else m.buffer.get k := by
  simp [remove, RowMap.get_filterRows]

lemma remove_count_eq_zero (m : Mem ρ) (table id : String) : (m.remove row table id).2 = 0 ↔
      ∀ k, inTable table k → ∀ r ∈ m.buffer.get k, (row r).id ≠ id := by
  simp [remove, RowMap.dropped_eq_zero]

end Mem
end MinIODB.Buffer
