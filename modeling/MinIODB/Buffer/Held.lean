import MinIODB.Buffer.Pending

/-!
# Rows that are not lost on their way

As long as nothing fails, a row in the buffer stays there until a flush moves it to a task,
and the task may be uploaded until its attempt succeeds.
-/
namespace MinIODB.Buffer
open Wal List

def PoolAction.lossless : PoolAction → Bool
  | .waitShutdown _ | .waitTimeout _ | .attemptFailed _ | .retryAbandon _ => false
  | _ => true

def Action.lossless {φ : Type*} : Action φ → Bool
  | .addAppendFail _ _ | .addRollback _ | .attemptOk _ | .remove _ _ | .clearTable _ | .restart _ => false
  | .pool a => a.lossless
  | _ => true

section
variable {ρ : Type*} {cfg : Config} {p p' : Pool ρ}

def Pool.ActiveKept (p p' : Pool ρ) : Prop :=
  ∀ (j : ℕ) (task : FlushTask ρ), p.tasks[j]? = some task → task.status.active = true →
    ∃ task', p'.tasks[j]? = some task' ∧ task'.status.active = true ∧
      task'.bufferKey = task.bufferKey ∧ task'.rows = task.rows

lemma Pool.ActiveKept.of_tasks (h : p'.tasks = p.tasks) : p.ActiveKept p' := by
  intro j task htask hactive
  exact ⟨task, by rw [h]; exact htask, hactive, rfl, rfl⟩

lemma Pool.ActiveKept.of_append {tasks : List (FlushTask ρ)} (h : p'.tasks = p.tasks ++ tasks) :
    p.ActiveKept p' := by
  intro j task htask hactive
  refine ⟨task, ?_, hactive, rfl, rfl⟩
  rw [h, getElem?_append_left (List.getElem?_eq_some_iff.mp htask).1]
  exact htask

open Buffer.Pool

lemma Pool.ActiveKept.setStatus {t : ℕ} {old : TaskStatus} (status : TaskStatus)
    (hold : p.statusOf t = some old) (hactive : old.active → status.active) :
    p.ActiveKept (p.setStatus t status) := by
  obtain ⟨task, htask, rfl⟩ := statusOf_eq_some hold
  intro j other hother hstatus
  by_cases htj : t = j
  · subst htj
    cases htask.symm.trans hother
    exact ⟨{ task with status := status }, by simp [htask], hactive hstatus, rfl, rfl⟩
  · exact ⟨other, by simp [htj, hother], hstatus, rfl, rfl⟩

lemma Pool.ActiveKept.step {a : PoolAction} (hs : PoolStep cfg p a p') (ha : a.lossless) :
    p.ActiveKept p' := by
  cases hs with
  | submit t hstatus =>
    rcases hstatus with hstatus | hstatus <;> exact Pool.ActiveKept.setStatus .queued hstatus (fun _ => rfl)
  | flushInline t hstatus | wait t hstatus => exact Pool.ActiveKept.setStatus _ hstatus (fun _ => rfl)
  | take w t =>
    intro j task htask hactive
    by_cases htj : t = j
    · exact ⟨{ task with status := .running (.worker w) }, by simp [setWorker, htj, htask], rfl, rfl, rfl⟩
    · exact ⟨task, by simp [setWorker, htj, htask], hactive, rfl, rfl⟩
  | retrySend t hstatus => exact Pool.ActiveKept.setStatus .queued hstatus (fun _ => rfl)
  | waitShutdown | waitTimeout | retry | exhaust | retryAbandon => cases ha
  | submitPanic | retryPanic | workerShutdown | workerExit | signal | closeQueue | stopReturn =>
    exact Pool.ActiveKept.of_tasks rfl

lemma Pool.ActiveKept.finish {t : ℕ} {task : FlushTask ρ} (h : p.finish t = some (task, p')) :
    p.ActiveKept p' := by
  obtain ⟨holder, htask, hstatus, rfl⟩ := finish_eq h
  intro j other hother hactive
  rw [release_tasks]
  exact Pool.ActiveKept.setStatus .done (statusOf_of_task htask hstatus) (fun h => by cases h)
    j other hother hactive

end

variable {φ : Type*} {cfg : Config} {json : φ → Option φ} {s s' : State φ} {a : Action φ}

def Held (s : State φ) (key : String) (e : Entry φ) : Prop :=
  e ∈ s.mem.buffer.get key ∨
    ∃ (j : ℕ) (task : FlushTask (Entry φ)), s.pool.tasks[j]? = some task ∧ task.status.active = true ∧
      task.bufferKey = key ∧ e ∈ task.rows

variable {key : String} {e : Entry φ}

lemma Held.keep (h : Held s key e) (hmem : e ∈ s.mem.buffer.get key → e ∈ s'.mem.buffer.get key)
    (hpool : s.pool.ActiveKept s'.pool) : Held s' key e := by
  rcases h with he | ⟨j, task, htask, hactive, hkey, he⟩
  · exact .inl (hmem he)
  · obtain ⟨task', htask', hactive', hkey', hrows⟩ := hpool j task htask hactive
    exact .inr ⟨j, task', htask', hactive', hkey'.trans hkey, hrows ▸ he⟩

lemma Held.triggerFlush (flushed : String) (h : Held s key e) :
    Held (s.triggerFlush cfg flushed).1 key e := by
  rcases s.triggerFlush_tasks cfg flushed with ⟨hnil, hpool⟩ | ⟨task, hkey, hrows, hstatus, hpool⟩
  · refine h.keep (fun he => ?_) (Pool.ActiveKept.of_tasks (congrArg Pool.tasks hpool))
    rw [State.get_triggerFlush, if_neg]
    · exact he
    · rintro rfl
      rw [hnil] at he
      exact not_mem_nil he
  · by_cases heq : key = flushed
    · rcases h with he | ⟨j, other, hother, hactive, hother_key, he⟩
      · refine .inr ⟨s.pool.tasks.length, task, by simp [hpool], by rw [hstatus]; rfl, hkey.trans heq.symm, ?_⟩
        rw [hrows, ← heq]
        exact he
      · refine .inr ⟨j, other, ?_, hactive, hother_key, he⟩
        rw [hpool, getElem?_append_left (List.getElem?_eq_some_iff.mp hother).1]
        exact hother
    · refine h.keep (fun he => ?_) (Pool.ActiveKept.of_append (congrArg Pool.tasks hpool))
      rw [State.get_triggerFlush, if_neg heq]
      exact he

lemma Held.step (h : Held s key e) (hs : Step cfg json s a s') (ha : a.lossless) :
    Held s' key e := by
  cases hs with
  | addInsert row =>
    refine h.keep (fun he => ?_) (Pool.ActiveKept.of_tasks rfl)
    rw [State.addInsert, Mem.get_insert]
    split
    · rename_i heq
      exact mem_append_left _ (heq ▸ he)
    · exact he
  | addFlush i call => exact h.triggerFlush call.key
  | flush flushed | stopFlush flushed => exact h.triggerFlush flushed
  | pool a p hpool => exact h.keep id (Pool.ActiveKept.step (PoolStep.of_step hpool) ha)
  | truncate t removable task p hpool => exact h.keep id (Pool.ActiveKept.finish hpool)
  | addAppendFail | addRollback | attemptOk | remove | clearTable | restart => cases ha
  | addAppend | addRecord | addReturn | tombstone | tombstoneFail | recoveryCheck | recoveryTruncate
  | stop => exact h.keep id (Pool.ActiveKept.of_tasks rfl)

lemma Held.attemptOk {t : ℕ} (h : Held s key e) (hs : Step cfg json s (.attemptOk t) s') :
    Held s' key e ∨ ∃ task, s.pool.tasks[t]? = some task ∧ task.bufferKey = key ∧ e ∈ task.rows := by
  cases hs with
  | attemptOk _ task p hpool =>
    obtain ⟨holder, htask, hstatus, rfl⟩ := Pool.attemptOk_eq hpool
    rcases h with he | ⟨j, other, hother, hactive, hkey, he⟩
    · exact .inl (.inl he)
    · by_cases htj : t = j
      · subst htj
        exact .inr ⟨other, hother, hkey, he⟩
      · exact .inl (.inr ⟨j, other, by simp [htj, hother], hactive, hkey, he⟩)

end MinIODB.Buffer
