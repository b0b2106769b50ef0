import MinIODB.Buffer.Rollback

/-!
# What queries see

A query reads the rows of the buffer, through the keys of its table, and the objects
that the index lists. `triggerFlush` takes rows out of the buffer before they are
uploaded, so a row can be in neither place. It is then in a flush task: no run without
deletions and without misplaced rollbacks loses it from all three.
-/
namespace MinIODB.Buffer
open Wal Transition List State

section
variable {φ : Type*} {cfg : Config} {json : φ → Option φ}

def Visible (s : State φ) (table : String) (i : ℕ) : Prop :=
  (∃ key ∈ s.mem.getTableKeys table, ∃ e ∈ s.mem.buffer.get key, e.tag = i) ∨
    ∃ object ∈ s.index, inTable table object.bufferKey = true ∧ ∃ e ∈ object.rows, e.tag = i

instance (s : State φ) (table : String) (i : ℕ) : Decidable (Visible s table i) :=
  inferInstanceAs (Decidable (_ ∨ _))

def Located (s : State φ) (key : String) (i : ℕ) : Prop :=
  (∃ e ∈ s.mem.buffer.get key, e.tag = i) ∨
    (∃ object ∈ s.index, object.bufferKey = key ∧ ∃ e ∈ object.rows, e.tag = i) ∨
    s.pool.Holds key (fun e => e.tag = i)

variable {s t : State φ} {a : Action φ} {key : String} {i : ℕ}

lemma Located.keep (h : Located s key i)
    (hbuffer : ∀ e ∈ s.mem.buffer.get key, e.tag = i → e ∈ t.mem.buffer.get key)
    (hindex : ∀ object ∈ s.index, object ∈ t.index)
    (hpool : s.pool.Holds key (fun e => e.tag = i) → t.pool.Holds key (fun e => e.tag = i)) :
    Located t key i := by
  rcases h with ⟨e, he, htag⟩ | ⟨object, hobject, hrow⟩ | hholds
  · exact .inl ⟨e, hbuffer e he htag, htag⟩
  · exact .inr (.inl ⟨object, hindex object hobject, hrow⟩)
  · exact .inr (.inr (hpool hholds))

lemma Located.triggerFlush (h : Located s key i) (k : String) :
    Located (s.triggerFlush cfg k).1 key i := by
  rcases s.triggerFlush_tasks cfg k with ⟨hnil, hpool⟩ | ⟨task, hkey, hrows, hstatus, hpool⟩
  · refine h.keep (fun e he _ => ?_) (by simp) (by rw [hpool]; exact fun hh => hh)
    rw [get_triggerFlush, if_neg]
    · exact he
    · rintro rfl
      rw [hnil] at he
      simp at he
  · rcases h with ⟨e, he, htag⟩ | ⟨object, hobject, hrow⟩ | ⟨j, task', htask', hst, hrow⟩
    · by_cases hk : key = k
      · refine .inr (.inr ⟨s.pool.tasks.length, task, ?_, ?_, hkey.trans hk.symm, e, ?_, htag⟩)
        · rw [hpool]
          exact getElem?_concat_length
        · rw [hstatus]
          rfl
        · rw [hrows, ← hk]
          exact he
      · refine .inl ⟨e, ?_, htag⟩
        rw [get_triggerFlush, if_neg hk]
        exact he
    · exact .inr (.inl ⟨object, by simpa using hobject, hrow⟩)
    · have hlt := (List.getElem?_eq_some_iff.mp htask').1
      refine .inr (.inr ⟨j, task', ?_, hst, hrow⟩)
      rw [hpool, getElem?_append_left hlt]
      exact htask'

variable {n j : ℕ} {task : FlushTask (Entry φ)} {p : Pool (Entry φ)} {call : AddCall φ}

lemma Located.attemptOk (h : Located s key i) (hpool : s.pool.attemptOk n = some (task, p)) :
    Located { s with pool := p, index := s.index ++ [task] } key i := by
  obtain ⟨holder, htask, _, rfl⟩ := Pool.attemptOk_eq hpool
  rcases h with hbuffer | ⟨object, hobject, hrow⟩ | ⟨j, task', htask', hst, hrow⟩
  · exact .inl hbuffer
  · exact .inr (.inl ⟨object, by simp [hobject], hrow⟩)
  · by_cases hj : n = j
    · subst hj
      cases htask.symm.trans htask'
      exact .inr (.inl ⟨task, by simp, hrow⟩)
    · exact .inr (.inr ⟨j, task', by simp [hj, htask'], hst, hrow⟩)

lemma Located.finish (h : Located s key i) (hpool : s.pool.finish n = some (task, p))
    (log : RecordLog (Payload (Entry φ))) : Located { s with pool := p, log := log } key i := by
  obtain ⟨holder, htask, hstatus, rfl⟩ := Pool.finish_eq hpool
  refine h.keep (fun _ he _ => he) (fun _ => id) ?_
  rintro ⟨j, task', htask', hst, hrow⟩
  have hj : n ≠ j := by
    rintro rfl
    cases htask.symm.trans htask'
    rw [hstatus] at hst
    cases hst
  exact ⟨j, task', by simp [hj, htask'], hst, hrow⟩

lemma Located.addRollback (h : Located s key i) (hinv : TagInv cfg s)
    (hcall : s.adds[j]? = some call) (hphase : call.phase = .rollingBack)
    (hslot : SlotKept s j call) (hij : i ≠ j) : Located (s.addRollback j call) key i := by
  refine h.keep (fun e he htag => ?_) (fun _ => id) (fun hh => hh)
  rw [State.addRollback, Mem.get_rollback]
  split
  · rename_i hkey
    have hunique := hinv.unique j call hcall (.inr hphase)
    rw [(eraseIdx_eq_filter_iff call.insertIdx hunique).mpr hslot]
    exact mem_filter.mpr ⟨hkey ▸ he, by simpa [htag] using hij⟩
  · exact he

def NoLoss (s : State φ) : Action φ → Prop
  | .addRollback i => ∀ call, s.adds[i]? = some call → SlotKept s i call
  | .remove _ _ | .clearTable _ | .restart _ => False
  | _ => True

def AllLocated (s : State φ) : Prop :=
  ∀ (i : ℕ) (call : AddCall φ), s.adds[i]? = some call → call.phase ≠ .failed →
    Located s call.key i

lemma AllLocated.set {call' c : AddCall φ} (h : AllLocated s)
    (hcall : s.adds[i]? = some call) (hphase : call.phase ≠ .failed)
    (hc : (s.adds.set i call')[j]? = some c) (hcphase : c.phase ≠ .failed)
    (hkey : call'.key = call.key) : Located s c.key j := by
  rcases getElem?_set_cases hc with ⟨rfl, rfl⟩ | ⟨-, hc⟩
  · rw [hkey]
    exact h i call hcall hphase
  · exact h j c hc hcphase

lemma AllLocated.addInsert (h : AllLocated s) (row : DataRow φ) :
    AllLocated (s.addInsert cfg json row) := by
  intro i call hcall hphase
  rw [State.addInsert] at hcall
  rcases getElem?_concat_cases hcall with hcall | ⟨rfl, rfl⟩
  · refine (h i call hcall hphase).keep (fun e he _ => ?_) (fun _ => id) (fun hh => hh)
    rw [State.addInsert, Mem.get_insert]
    split
    · rename_i hkey
      exact mem_append_left _ (hkey ▸ he)
    · exact he
  · exact .inl ⟨⟨s.adds.length, row⟩, by simp [State.addInsert], rfl⟩

lemma AllLocated.step (h : AllLocated s) (hinv : TagInv cfg s) (hg : NoLoss s a)
    (hs : Step cfg json s a t) : AllLocated t := by
  cases hs with
  | addInsert row => exact h.addInsert row
  | addAppend i rotate call row hcall hphase | addAppendFail i o call row hcall hphase
  | addRecord i call hcall hphase =>
    exact fun j c hc hcp => h.set hcall (by simp [hphase]) hc hcp rfl
  | addRollback i call hcall hphase =>
    intro j c hc hcp
    have hj : j ≠ i := by
      rintro rfl
      cases (getElem?_set_of_some hcall).symm.trans hc
      exact hcp rfl
    exact (h.set hcall (by simp [hphase]) hc hcp rfl).addRollback hinv hcall hphase (hg call hcall) hj
  | addFlush i call hcall hphase =>
    exact fun j c hc hcp => (h.set hcall (by simp [hphase]) hc hcp rfl).triggerFlush call.key
  | addReturn i call hcall hready =>
    have hphase : call.phase ≠ .failed := by
      intro hfailed
      simp [readyToReturn, hfailed] at hready
    exact fun j c hc hcp => h.set hcall hphase hc hcp rfl
  | flush key => exact fun j c hc hcp => (h j c (by simpa using hc) hcp).triggerFlush key
  | pool a p hpool =>
    intro j c hc hcp
    exact (h j c hc hcp).keep (fun _ he _ => he) (fun _ => id)
      (fun hh => hh.step (PoolStep.of_step hpool))
  | attemptOk n task p hpool => exact fun j c hc hcp => (h j c hc hcp).attemptOk hpool
  | truncate n removable task p hpool => exact fun j c hc hcp => (h j c hc hcp).finish hpool _
  | remove | clearTable | restart => exact hg.elim
  | tombstone | tombstoneFail | recoveryCheck | recoveryTruncate | stop =>
    exact fun j c hc hcp => h j c hc hcp
  | stopFlush key =>
    intro j c hc hcp
    have hflushed : Located (s.triggerFlush cfg key).1 c.key j :=
      (h j c (by simpa [stopFlush] using hc) hcp).triggerFlush key
    exact hflushed.keep (fun _ he _ => he) (fun _ => id) (fun hh => hh.of_tasks rfl)

lemma mem_getTableKeys {row : DataRow φ} {e : Entry φ}
    (he : e ∈ s.mem.buffer.get (bufferKey cfg row)) :
    bufferKey cfg row ∈ s.mem.getTableKeys (tableName cfg row) := by
  rw [Mem.getTableKeys, mem_filter, RowMap.mem_keys, Bool.and_eq_true, decide_eq_true_eq]
  refine ⟨ne_nil_of_mem he, ?_, inTable_bufferKey cfg row⟩
  simp only [bufferKey, String.length_append]
  have hslash : "/".length = 1 := rfl
  omega

variable (cfg json)

/-- In every run without deletions, crashes and misplaced rollbacks, a row whose `Add`
returned nil is visible, or it is in a task whose rows have not been uploaded yet. -/
theorem returned_row_visible_or_in_task {name : ℕ} {as : List (Action φ)} {s : State φ}
    (hg : Guarded (State.step cfg json) NoLoss (State.boot cfg Directory.empty name) as)
    (hrun : exec (State.step cfg json) (State.boot cfg Directory.empty name) as = some s)
    {i : ℕ} {call : AddCall φ} (hcall : s.adds[i]? = some call) (hphase : call.phase = .returned) :
    Visible s (tableName cfg call.row) i ∨ s.pool.Holds call.key (fun e => e.tag = i) := by
  have hstart : AllLocated (boot cfg Directory.empty name : State φ) := by
    intro i call hcall
    simp [boot, State.restart] at hcall
  obtain ⟨hinv, hall⟩ : TagInv cfg s ∧ AllLocated s :=
    exec_invariant (fun s => TagInv cfg s ∧ AllLocated s)
      (fun _ _ _ h hg hs => ⟨h.1.step (Step.of_step hs), h.2.step h.1 hg (Step.of_step hs)⟩)
      ⟨tagInv_boot cfg name, hstart⟩ hg hrun
  have hkey := hinv.calls i call hcall
  rcases hall i call hcall (by simp [hphase]) with ⟨e, he, htag⟩ | ⟨object, hobject, hof, hrow⟩ | hholds
  · rw [hkey] at he
    exact .inl (.inl ⟨_, mem_getTableKeys he, e, he, htag⟩)
  · refine .inl (.inr ⟨object, hobject, ?_, hrow⟩)
    rw [hof, hkey]
    exact inTable_bufferKey cfg call.row
  · exact .inr hholds

end

def noLossCheck (_ : State Unit) : Action Unit → Bool
  | .addRollback _ | .remove _ _ | .clearTable _ | .restart _ => false
  | _ => true

lemma noLoss_of_check (s : State Unit) (a : Action Unit) (h : noLossCheck s a) : NoLoss s a := by
  cases a with
  | addRollback | remove | clearTable | restart => cases h
  | _ => trivial

/-- The row of a call that returned is taken out by a flush, and stays in its task. -/
theorem returned_row_in_task : (exec (State.step oneDay some) (State.boot oneDay Directory.empty 1)
        (addOk 0 (order "u1") none ++ [.flush "orders/u1/2024-01-01"])).map
      (fun s => s.adds[0]?.map AddCall.phase) = some (some .returned) ∧
    ∀ s call, exec (State.step oneDay some) (State.boot oneDay Directory.empty 1)
        (addOk 0 (order "u1") none ++ [.flush "orders/u1/2024-01-01"]) = some s →
      s.adds[0]? = some call → call.phase = .returned →
      Visible s (tableName oneDay call.row) 0 ∨ s.pool.Holds call.key (fun e => e.tag = 0) := by
  have hcheck : Guarded (step oneDay some) (fun s a => noLossCheck s a = true)
      (boot oneDay Directory.empty 1)
      (addOk 0 (order "u1") none ++ [.flush "orders/u1/2024-01-01"]) := by decide
  exact ⟨by decide, fun s call hrun hcall hphase => returned_row_visible_or_in_task oneDay some
    (hcheck.mono noLoss_of_check) hrun hcall hphase⟩

/-- In that state no query finds the row, although its `Add` returned nil. -/
theorem returned_row_not_visible :
    (exec (State.step oneDay some) (State.boot oneDay Directory.empty 1)
        (addOk 0 (order "u1") none ++ [.flush "orders/u1/2024-01-01"])).map
      (fun s => (s.adds[0]?.map AddCall.phase, decide (Visible s "orders" 0))) =
    some (some .returned, false) := by
  decide

end MinIODB.Buffer
