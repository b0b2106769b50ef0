import MinIODB.Buffer.Memory
import MinIODB.Wal.Records

/-!
# Recovery from the log

`recoverFromWAL` replays the records of all files into an empty buffer. A tombstone
deletes the matching rows replayed so far, by the same scan as `Remove`, and its key
`table/id` suppresses every later data record with that table and id.
-/
namespace MinIODB.Buffer
open Wal List

lemma concat_eq_split {α : Type*} {l before after : List α} {a x : α} :
    l ++ [a] = before ++ x :: after ↔
      (after = [] ∧ before = l ∧ x = a) ∨ ∃ rest, after = rest ++ [a] ∧ l = before ++ x :: rest := by
  rcases eq_nil_or_concat after with rfl | ⟨rest, b, rfl⟩
  · constructor
    · intro h
      obtain ⟨hl, ha⟩ := append_inj' h rfl
      exact .inl ⟨rfl, hl.symm, (singleton_inj.mp ha).symm⟩
    · rintro (⟨_, rfl, rfl⟩ | ⟨rest, hrest, _⟩)
      · rfl
      · simp at hrest
  · rw [concat_eq_append]
    constructor
    · intro h
      have h' : l ++ [a] = (before ++ x :: rest) ++ [b] := by simpa using h
      obtain ⟨hl, ha⟩ := append_inj' h' rfl
      exact .inr ⟨rest, by rw [singleton_inj.mp ha], hl⟩
    · rintro (⟨hnil, _⟩ | ⟨rest', heq, rfl⟩)
      · simp at hnil
      · obtain ⟨rfl, hb⟩ := append_inj' heq rfl
        rw [hb]
        simp

inductive Payload (ρ : Type*) where
  | data (bufferKey : String) (row : ρ)
  | tombstone (table id : String)
  | other

def encoded {φ : Type*} (json : φ → Option φ) (r : DataRow φ) : Option (DataRow φ) :=
  (json r.fields).map (fun fields => { r with fields := fields })

section
variable {φ : Type*} {cfg : Config} {json : φ → Option φ}

def DataRow.Alike (r r' : DataRow φ) : Prop :=
  r.id = r'.id ∧ r.timestamp = r'.timestamp ∧ r.table = r'.table

lemma DataRow.Alike.tableName_eq {r r' : DataRow φ} (h : r.Alike r') :
    tableName cfg r = tableName cfg r' := by
  simp [tableName, h.2.2]

lemma DataRow.Alike.bufferKey_eq {r r' : DataRow φ} (h : r.Alike r') :
    bufferKey cfg r = bufferKey cfg r' := by
  simp [bufferKey, idPart, h.tableName_eq, h.1, h.2.1]

lemma alike_of_encoded {r r' : DataRow φ} (h : encoded json r = some r') : r'.Alike r := by
  obtain ⟨fields, _, rfl⟩ := Option.map_eq_some_iff.mp h
  exact ⟨rfl, rfl, rfl⟩

end

structure Recovery (ρ : Type*) where
  buffer : RowMap String ρ
  lastFlushedSeq : String → ℕ
  tombstones : List String
  recoveredCount : ℕ
  tombstoneCount : ℕ
  maxSeqNum : ℕ

namespace Recovery

variable {φ ρ : Type*} (row : ρ → DataRow φ)

def start : Recovery ρ := ⟨RowMap.empty, fun _ => 0, [], 0, 0, 0⟩

def tombstoneKey (table id : String) : String := table ++ "/" ++ id

def replayData (c : Recovery ρ) (seqNum : ℕ) (key : String) (r : ρ) : Recovery ρ :=
  if tombstoneKey (row r).table (row r).id ∈ c.tombstones then c
  else
    { c with
      buffer := c.buffer.set key (c.buffer.get key ++ [r])
      lastFlushedSeq :=
        if c.lastFlushedSeq key < seqNum then Function.update c.lastFlushedSeq key seqNum
        else c.lastFlushedSeq
      recoveredCount := c.recoveredCount + 1 }

def replayTombstone (c : Recovery ρ) (table id : String) : Recovery ρ :=
  { c with
    tombstones := tombstoneKey table id :: c.tombstones
    buffer := c.buffer.filterRows (inTable table) (fun r => (row r).id != id)
    tombstoneCount := c.tombstoneCount + 1 }

def replayRecord (c : Recovery ρ) (record : LogRecord (Payload ρ)) : Recovery ρ :=
  match record.body with
  | .data key r =>
    replayData row { c with maxSeqNum := max c.maxSeqNum record.seqNum } record.seqNum key r
  | .tombstone table id =>
    replayTombstone row { c with maxSeqNum := max c.maxSeqNum record.seqNum } table id
  | .other => { c with maxSeqNum := max c.maxSeqNum record.seqNum }

end Recovery

variable {φ ρ : Type*} (row : ρ → DataRow φ)

open Recovery

def recoverFromWAL (records : List (LogRecord (Payload ρ))) : Recovery ρ :=
  records.foldl (replayRecord row) Recovery.start

def Recovery.mem (c : Recovery ρ) : Mem ρ := ⟨c.buffer, c.recoveredCount, c.lastFlushedSeq⟩

def Recovery.recoveryMaxSeqNum (c : Recovery ρ) : ℕ :=
  if 0 < c.recoveredCount ∨ 0 < c.tombstoneCount then c.maxSeqNum else 0

@[simp] theorem recoverFromWAL_nil : recoverFromWAL row [] = Recovery.start := rfl

lemma recoverFromWAL_concat (records : List (LogRecord (Payload ρ)))
    (record : LogRecord (Payload ρ)) :
    recoverFromWAL row (records ++ [record]) = replayRecord row (recoverFromWAL row records) record := by
  simp [recoverFromWAL]

section
variable (c : Recovery ρ)

lemma get_replayData (seqNum : ℕ) (key k : String) (r : ρ) :
    (replayData row c seqNum key r).buffer.get k =
      if tombstoneKey (row r).table (row r).id ∉ c.tombstones ∧ k = key then c.buffer.get key ++ [r]
      else c.buffer.get k := by
  unfold replayData
  split
  · rename_i hdel
    simp [hdel]
  · rename_i hdel
    simp [hdel, RowMap.get_set]

lemma get_replayTombstone (table id k : String) :
    (replayTombstone row c table id).buffer.get k =
      if inTable table k then (c.buffer.get k).filter (fun r => (row r).id != id)
      else c.buffer.get k :=
  RowMap.get_filterRows _ _ _ _

@[simp] theorem tombstones_replayData (seqNum : ℕ) (key : String) (r : ρ) :
    (replayData row c seqNum key r).tombstones = c.tombstones := by
  unfold replayData
  split <;> rfl

lemma mem_tombstones_replayRecord (record : LogRecord (Payload ρ)) (key : String) :
    key ∈ (replayRecord row c record).tombstones ↔ key ∈ c.tombstones ∨
      ∃ table id, record.body = .tombstone table id ∧ tombstoneKey table id = key := by
  rw [replayRecord]
  cases hbody : record.body with
  | data | other => simp
  | tombstone table id =>
    simp only [replayTombstone, mem_cons, Payload.tombstone.injEq]
    constructor
    · rintro (rfl | hmem)
      · exact .inr ⟨table, id, ⟨rfl, rfl⟩, rfl⟩
      · exact .inl hmem
    · rintro (hmem | ⟨_, _, ⟨rfl, rfl⟩, hkey⟩)
      · exact .inr hmem
      · exact .inl hkey.symm

end

lemma mem_tombstones (records : List (LogRecord (Payload ρ))) (key : String) :
    key ∈ (recoverFromWAL row records).tombstones ↔
      ∃ record ∈ records, ∃ table id, record.body = .tombstone table id ∧
        tombstoneKey table id = key := by
  induction records using reverseRecOn with
  | nil => simp [Recovery.start]
  | append_singleton records last ih =>
    rw [recoverFromWAL_concat, mem_tombstones_replayRecord, ih]
    simp [or_and_right, exists_or]

def deletes (key : String) (r : ρ) (record : LogRecord (Payload ρ)) : Prop :=
  ∃ table, record.body = .tombstone table (row r).id ∧ inTable table key = true

def Replayed (records : List (LogRecord (Payload ρ))) (key : String) (r : ρ) : Prop :=
  ∃ before record after, records = before ++ record :: after ∧ record.body = .data key r ∧
    (∀ earlier ∈ before, ∀ table id, earlier.body = .tombstone table id →
      tombstoneKey table id ≠ tombstoneKey (row r).table (row r).id) ∧
    ∀ later ∈ after, ¬deletes row key r later

lemma replayed_concat (records : List (LogRecord (Payload ρ))) (last : LogRecord (Payload ρ))
    (key : String) (r : ρ) : Replayed row (records ++ [last]) key r ↔ (last.body = .data key r ∧
        tombstoneKey (row r).table (row r).id ∉ (recoverFromWAL row records).tombstones) ∨
      (Replayed row records key r ∧ ¬deletes row key r last) := by
  rw [mem_tombstones]
  constructor
  · rintro ⟨before, record, after, heq, hbody, hbefore, hafter⟩
    rcases concat_eq_split.mp heq with ⟨rfl, rfl, rfl⟩ | ⟨rest, rfl, rfl⟩
    · refine .inl ⟨hbody, ?_⟩
      rintro ⟨earlier, hmem, table, id, htomb, hkey⟩
      exact hbefore earlier hmem table id htomb hkey
    · refine .inr ⟨⟨before, record, rest, rfl, hbody, hbefore, ?_⟩, hafter last (by simp)⟩
      exact fun later hlater => hafter later (by simp [hlater])
  · rintro (⟨hbody, hnot⟩ | ⟨⟨before, record, after, rfl, hbody, hbefore, hafter⟩, hlast⟩)
    · refine ⟨records, last, [], rfl, hbody, ?_, by simp⟩
      exact fun earlier hmem table id htomb hkey => hnot ⟨earlier, hmem, table, id, htomb, hkey⟩
    · refine ⟨before, record, after ++ [last], by simp, hbody, hbefore, fun later hlater => ?_⟩
      rcases mem_append.mp hlater with hlater | hlater
      · exact hafter later hlater
      · rw [mem_singleton.mp hlater]
        exact hlast

lemma mem_replayRecord (c : Recovery ρ) (record : LogRecord (Payload ρ)) (key : String) (r : ρ) :
    r ∈ (replayRecord row c record).buffer.get key ↔
      (record.body = .data key r ∧ tombstoneKey (row r).table (row r).id ∉ c.tombstones) ∨
      (r ∈ c.buffer.get key ∧ ¬deletes row key r record) := by
  rw [replayRecord, deletes]
  cases hbody : record.body with
  | data key' r' =>
    dsimp only
    rw [get_replayData]
    simp only [Payload.data.injEq, reduceCtorEq, false_and, exists_false, not_false_eq_true, and_true]
    by_cases hnew : tombstoneKey (row r').table (row r').id ∉ c.tombstones ∧ key = key'
    · obtain ⟨hnot, rfl⟩ := hnew
      rw [if_pos ⟨hnot, rfl⟩, mem_append, mem_singleton]
      constructor
      · rintro (hr | rfl)
        · exact .inr hr
        · exact .inl ⟨⟨rfl, rfl⟩, hnot⟩
      · rintro (⟨⟨_, rfl⟩, _⟩ | hr)
        · exact .inr rfl
        · exact .inl hr
    · rw [if_neg hnew]
      constructor
      · exact .inr
      · rintro (⟨⟨rfl, rfl⟩, hnot⟩ | hr)
        · exact absurd ⟨hnot, rfl⟩ hnew
        · exact hr
  | tombstone table id =>
    dsimp only
    rw [get_replayTombstone]
    simp only [Payload.tombstone.injEq, reduceCtorEq, false_and, false_or]
    by_cases hin : inTable table key
    · have hid : (row r).id ≠ id ↔ ¬∃ table', (table = table' ∧ id = (row r).id) ∧
          inTable table' key = true := by
        constructor
        · rintro hne ⟨_, ⟨_, rfl⟩, _⟩
          exact hne rfl
        · rintro hnot rfl
          exact hnot ⟨table, ⟨rfl, rfl⟩, hin⟩
      rw [if_pos hin, mem_filter, bne_iff_ne, hid]
    · simp [hin]
  | other => simp

lemma mem_recoverFromWAL (records : List (LogRecord (Payload ρ))) (key : String) (r : ρ) :
    r ∈ (recoverFromWAL row records).buffer.get key ↔ Replayed row records key r := by
  induction records using reverseRecOn generalizing key with
  | nil => simp [Recovery.start, Replayed]
  | append_singleton records last ih =>
    rw [recoverFromWAL_concat, mem_replayRecord, replayed_concat, ih]

end MinIODB.Buffer
