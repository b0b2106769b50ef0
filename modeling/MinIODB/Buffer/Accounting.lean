import MinIODB.Buffer.Machine

/-!
# The counter of pending writes

`pendingWrites` follows the number of buffered rows through inserts, flushes and
deletions. Two places can leave it wrong: a rollback counts down even when it finds no
row at its index, and a recovery counts replayed rows that a tombstone deletes again.
The distance between counter and buffer, the drift, shows which steps are at fault.
-/
namespace MinIODB.Buffer
open Wal Transition List State

namespace Mem

variable {ρ φ : Type*}

def drift (m : Mem ρ) : ℤ := m.pendingWrites - m.buffer.total

lemma drift_insert (m : Mem ρ) (key : String) (r : ρ) : (m.insert key r).drift = m.drift := by
  have htotal := m.buffer.total_set key (m.buffer.get key ++ [r])
  rw [length_append, length_singleton] at htotal
  simp only [drift, insert]
  omega

lemma drift_takeRows (m : Mem ρ) (key : String) : (m.takeRows key).drift = m.drift := by
  have htotal := m.buffer.total_set key []
  rw [length_nil] at htotal
  simp only [drift, takeRows]
  omega

lemma drift_remove (row : ρ → DataRow φ) (m : Mem ρ) (table id : String) :
    (m.remove row table id).1.drift = m.drift := by
  have htotal := m.buffer.total_filterRows (inTable table) (fun r => (row r).id != id)
  simp only [drift, remove]
  omega

lemma drift_clearTable (m : Mem ρ) (table : String) : (m.clearTable table).1.drift = m.drift := by
  have htotal := m.buffer.total_filterRows (inTable table) (fun _ => false)
  simp only [drift, clearTable]
  omega

lemma drift_rollback (m : Mem ρ) (key : String) (insertIdx : ℕ) :
    (m.rollback key insertIdx).drift =
      if insertIdx < (m.buffer.get key).length then m.drift else m.drift - 1 := by
  simp only [drift, rollback]
  split
  · rename_i hlt
    have htotal := m.buffer.total_set key ((m.buffer.get key).eraseIdx insertIdx)
    have hlen := length_eraseIdx_of_lt hlt
    omega
  · omega

end Mem

section
variable {φ ρ : Type*} (row : ρ → DataRow φ)

open Recovery

def NoRowDeleted (records : List (LogRecord (Payload ρ))) : Prop :=
  ∀ before record after, records = before ++ record :: after →
    ∀ key r, Replayed row before key r → ¬deletes row key r record

lemma recoveredCount_eq_total {records : List (LogRecord (Payload ρ))}
    (h : NoRowDeleted row records) :
    (recoverFromWAL row records).recoveredCount = (recoverFromWAL row records).buffer.total := by
  induction records using reverseRecOn with
  | nil => rfl
  | append_singleton records last ih =>
    have hinit : NoRowDeleted row records := by
      intro before record after heq
      exact h before record (after ++ [last]) (by simp [heq])
    have ih := ih hinit
    rw [recoverFromWAL_concat, replayRecord]
    split
    · rename_i key r hbody
      rw [replayData]
      split
      · exact ih
      · have htotal := (recoverFromWAL row records).buffer.total_set key
          ((recoverFromWAL row records).buffer.get key ++ [r])
        rw [length_append, length_singleton] at htotal
        dsimp only
        omega
    · rename_i table id hbody
      have hzero : (recoverFromWAL row records).buffer.dropped (inTable table)
          (fun r => (row r).id != id) = 0 := by
        rw [RowMap.dropped_eq_zero]
        intro key hin r hr
        have hnot := h records last [] rfl key r ((mem_recoverFromWAL row records key r).mp hr)
        rw [bne_iff_ne]
        rintro rfl
        exact hnot ⟨table, hbody, hin⟩
      have htotal := (recoverFromWAL row records).buffer.total_filterRows (inTable table)
        (fun r => (row r).id != id)
      rw [replayTombstone]
      dsimp only
      omega
    · exact ih

lemma drift_recovered {records : List (LogRecord (Payload ρ))} (h : NoRowDeleted row records) :
    (recoverFromWAL row records).mem.drift = 0 := by
  have hcount := recoveredCount_eq_total row h
  simp only [Mem.drift, Recovery.mem]
  omega

end

section
variable {φ : Type*} (cfg : Config) (json : φ → Option φ)

def CleanLog (dir : Directory (LogRecord (Payload (Entry φ)))) (name : ℕ) : Prop :=
  cfg.walEnabled = true → NoRowDeleted Entry.row (replay (RecordLog.new dir name).dir)

def Counted (s : State φ) : Action φ → Prop
  | .addRollback i => ∀ call, s.adds[i]? = some call →
      call.insertIdx < (s.mem.buffer.get call.key).length
  | .restart name => CleanLog cfg s.log.dir name
  | _ => True

variable {cfg json}

lemma drift_triggerFlush (s : State φ) (key : String) :
    (s.triggerFlush cfg key).1.mem.drift = s.mem.drift := by
  unfold triggerFlush
  split
  · rfl
  · exact s.mem.drift_takeRows key

lemma drift_restart {s : State φ} {name : ℕ} (h : CleanLog cfg s.log.dir name) :
    (s.restart cfg name).mem.drift = 0 := by
  simp only [State.restart, recovery]
  split
  · rename_i hwal
    exact drift_recovered Entry.row (h hwal)
  · rfl

lemma drift_step {s t : State φ} {a : Action φ} (h : s.mem.drift = 0) (hg : Counted cfg s a)
    (hs : Step cfg json s a t) : t.mem.drift = 0 := by
  cases hs with
  | addInsert => exact (s.mem.drift_insert _ _).trans h
  | addAppend | addAppendFail | addRecord | addReturn | pool | attemptOk | truncate | tombstone
  | tombstoneFail | recoveryCheck | recoveryTruncate | stop => exact h
  | addRollback i call hcall =>
    have hmem : (s.addRollback i call).mem = s.mem.rollback call.key call.insertIdx := rfl
    rw [hmem, Mem.drift_rollback, if_pos (hg call hcall)]
    exact h
  | addFlush i call => exact (drift_triggerFlush s call.key).trans h
  | flush key | stopFlush key => exact (drift_triggerFlush s key).trans h
  | remove table id =>
    unfold remove
    split <;> exact (s.mem.drift_remove Entry.row table id).trans h
  | clearTable table => exact (s.mem.drift_clearTable table).trans h
  | restart => exact drift_restart hg

variable (cfg json)

/-- Accounting: from any log directory and through every run whose recoveries find a
clean log and whose rollbacks find a row, the counter is the number of rows. -/
theorem pendingWrites_eq_total {dir : Directory (LogRecord (Payload (Entry φ)))} {name : ℕ}
    {as : List (Action φ)} {s : State φ} (hlog : CleanLog cfg dir name)
    (hg : Guarded (State.step cfg json) (Counted cfg) (State.boot cfg dir name) as)
    (hrun : exec (State.step cfg json) (State.boot cfg dir name) as = some s) :
    s.mem.pendingWrites = s.mem.buffer.total := by
  have hstart : (boot cfg dir name).mem.drift = 0 := by
    unfold boot
    exact drift_restart hlog
  have hdrift : s.mem.drift = 0 :=
    exec_invariant (fun s : State φ => s.mem.drift = 0)
      (fun _ _ _ h hg hs => drift_step h hg (Step.of_step hs)) hstart hg hrun
  exact sub_eq_zero.mp hdrift

end

def countedCheck (s : State Unit) : Action Unit → Bool
  | .addRollback i =>
    s.adds[i]?.all (fun call => decide (call.insertIdx < (s.mem.buffer.get call.key).length))
  | .restart _ => false
  | _ => true

lemma counted_of_check (s : State Unit) (a : Action Unit) (h : countedCheck s a) :
    Counted oneDay s a := by
  cases a with
  | addRollback =>
    intro call hcall
    simpa [countedCheck, hcall] using h
  | restart => cases h
  | _ => trivial

lemma cleanLog_empty (cfg : Config) (name : ℕ) :
    CleanLog cfg (Directory.empty : Directory (LogRecord (Payload (Entry Unit)))) name := by
  intro _ before record after heq
  have hnil : replay (RecordLog.new (Directory.empty :
      Directory (LogRecord (Payload (Entry Unit)))) name).dir = [] :=
    RecordLog.replay_new (by simp [Directory.Newest])
  rw [hnil] at heq
  simp at heq

/-- The third of three failed calls rolls back: two rows stay, and two are counted. -/
theorem pendingWrites_eq_total_rollback :
    (exec (State.step oneDay some) (State.boot oneDay Directory.empty 1)
        (threeFailures ++ [.addRollback 2])).map (fun s => s.mem.buffer.total) = some 2 ∧
    ∀ s, exec (State.step oneDay some) (State.boot oneDay Directory.empty 1)
        (threeFailures ++ [.addRollback 2]) = some s →
      s.mem.pendingWrites = s.mem.buffer.total := by
  have hcheck : Guarded (step oneDay some) (fun s a => countedCheck s a = true)
      (boot oneDay Directory.empty 1) (threeFailures ++ [.addRollback 2]) := by decide
  exact ⟨by decide, fun s hrun => pendingWrites_eq_total oneDay some (cleanLog_empty oneDay 1)
    (hcheck.mono counted_of_check) hrun⟩

/-- Without the condition both faults show: after a flush between insert and rollback
the counter is negative, and after the recovery of a deleted row it counts a row that
is not there. -/
theorem pendingWrites_ne_total :
    (exec (State.step oneDay some) (State.boot oneDay Directory.empty 1)
        (threeFailures ++ [.flush "orders/u1/2024-01-01", .addRollback 2])).map
      (fun s => (s.mem.pendingWrites, s.mem.buffer.total)) = some (-1, 0) ∧
    (exec (State.step oneDay some) (State.boot oneDay Directory.empty 1)
        (addOk 0 (order "u1") none ++
          [.remove "orders" "u1", .tombstone "orders" "u1" none, .restart 2])).map
      (fun s => (s.mem.pendingWrites, s.mem.buffer.total)) = some (1, 0) := by
  decide

end MinIODB.Buffer
