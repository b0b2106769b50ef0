import MinIODB.Buffer.Identity

/-!
# The rollback of a failed `Add`

A call saves the index at which it inserted its row in one section and deletes the row
at that index in a later one. In between, flushes, deletions and other rollbacks move
rows. The rollback deletes its own row, and nothing else, exactly when that row is still
at the saved index or the index has fallen off the end of the list.
-/
namespace MinIODB.Buffer
open Wal Transition List State

section
variable {φ : Type*}

lemma eraseIdx_eq_filter_iff {rows : List (Entry φ)} {i : ℕ} (idx : ℕ)
    (hcount : rows.countP (fun e => e.tag = i) ≤ 1) :
    rows.eraseIdx idx = rows.filter (fun e => e.tag ≠ i) ↔
      (∃ e, rows[idx]? = some e ∧ e.tag = i) ∨ ((∀ e ∈ rows, e.tag ≠ i) ∧ rows.length ≤ idx) := by
  induction rows generalizing idx with
  | nil => simp
  | cons e rows ih =>
    by_cases he : e.tag = i
    · -- the one entry of `i` is in front, so the filter keeps the others
      rw [countP_cons_of_pos (by simpa using he)] at hcount
      have hothers : ∀ e ∈ rows, e.tag ≠ i := by
        simpa using countP_eq_zero.mp (Nat.le_zero.mp (Nat.le_of_succ_le_succ hcount))
      have hfilter : (e :: rows).filter (fun e => e.tag ≠ i) = rows := by
        simpa [he] using hothers
      rw [hfilter]
      cases idx with
      | zero => simp [he]
      | succ idx =>
        have hne : e :: rows.eraseIdx idx ≠ rows := fun heq => hothers e (heq ▸ .head _) he
        simpa [hne, he] using fun e' he' => hothers e' (mem_of_getElem? he')
    · rw [countP_cons_of_neg (by simpa using he)] at hcount
      cases idx with
      | zero =>
        have hne : rows ≠ e :: rows.filter (fun e => e.tag ≠ i) := by
          intro heq
          have hall : ∀ e' ∈ rows, e'.tag ≠ i := by
            rw [heq]
            simp [he]
          rw [filter_eq_self.mpr (by simpa using hall)] at heq
          exact cons_ne_self e rows heq.symm
        simpa [he] using hne
      | succ idx => simpa [he] using ih idx hcount

end

section
variable {φ : Type*} (cfg : Config) (json : φ → Option φ)

def SlotKept (s : State φ) (i : ℕ) (call : AddCall φ) : Prop :=
  (∃ e, (s.mem.buffer.get call.key)[call.insertIdx]? = some e ∧ e.tag = i) ∨
    ((∀ e ∈ s.mem.buffer.get call.key, e.tag ≠ i) ∧
      (s.mem.buffer.get call.key).length ≤ call.insertIdx)

/-- In every reachable state in which a call is about to roll back, the rollback takes
its own row out of the buffer and changes nothing else exactly when the slot is kept. -/
theorem rollback_exact_iff {name : ℕ} {as : List (Action φ)} {s : State φ}
    (hrun : exec (State.step cfg json) (State.boot cfg Directory.empty name) as = some s)
    {i : ℕ} {call : AddCall φ} (hcall : s.adds[i]? = some call)
    (hphase : call.phase = .rollingBack) : (∀ key, (s.addRollback i call).mem.buffer.get key =
      (s.mem.buffer.get key).filter (fun e => e.tag ≠ i)) ↔ SlotKept s i call := by
  have hinv : TagInv cfg s :=
    exec_preserves (fun _ _ _ h hs => h.step (Step.of_step hs)) (tagInv_boot cfg name) hrun
  have hlist := eraseIdx_eq_filter_iff call.insertIdx (hinv.unique i call hcall (.inr hphase))
  constructor
  · intro hall
    have hkey := hall call.key
    rw [addRollback, Mem.get_rollback, if_pos rfl] at hkey
    exact hlist.mp hkey
  · intro hslot key
    rw [addRollback, Mem.get_rollback]
    split
    · rename_i hkey
      rw [hkey]
      exact hlist.mpr hslot
    · rename_i hkey
      -- rows of the call stand under its own key only
      refine (filter_eq_self.mpr (fun e he => ?_)).symm
      obtain ⟨call', hcall', hkey', _⟩ := hinv.buffer key e he
      rw [decide_eq_true_eq]
      rintro rfl
      rw [hcall] at hcall'
      cases hcall'
      exact hkey hkey'.symm

end

/-- The third of three failed calls still finds its row at index two. -/
theorem rollback_exact_iff_third :
    ∃ s call, exec (State.step oneDay some) (State.boot oneDay Directory.empty 1) threeFailures = some s ∧
      s.adds[2]? = some call ∧ ((∀ key, (s.addRollback 2 call).mem.buffer.get key =
        (s.mem.buffer.get key).filter (fun e => e.tag ≠ 2)) ↔ SlotKept s 2 call) := by
  have hphase : ((exec (step oneDay some) (boot oneDay Directory.empty 1)
      threeFailures).bind (fun s => s.adds[2]?)).map AddCall.phase = some .rollingBack := by decide
  obtain ⟨call, hcall, hphase⟩ := Option.map_eq_some_iff.mp hphase
  obtain ⟨s, hrun, hcall⟩ := Option.bind_eq_some_iff.mp hcall
  exact ⟨s, call, hrun, hcall, rollback_exact_iff oneDay some hrun hcall hphase⟩

def rollbackAfterFlush : List (Action Unit) :=
  threeFailures ++ [.flush "orders/u1/2024-01-01"] ++ addOk 3 (order "u1") none ++
    addOk 4 (order "u1") none ++ addOk 5 (order "u1") none

theorem rollback_deletes_other_row :
    (exec (State.step oneDay some) (State.boot oneDay Directory.empty 1) rollbackAfterFlush).map
      (fun s => ((s.mem.buffer.get "orders/u1/2024-01-01").map Entry.tag, s.adds[5]?.map AddCall.phase)) =
        some ([3, 4, 5], some .returned) ∧
    (exec (State.step oneDay some) (State.boot oneDay Directory.empty 1)
        (rollbackAfterFlush ++ [.addRollback 2])).map
      (fun s => (s.mem.buffer.get "orders/u1/2024-01-01").map Entry.tag) = some [3, 4] := by
  decide

end MinIODB.Buffer
