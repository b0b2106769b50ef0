import MinIODB.Buffer.Machine
import MinIODB.Buffer.Workers

/-!
# Rows on their way to an object

A row that waits in the buffer, or in a task that may still be uploaded, can appear in an
object later. New rows get on their way only by the insertion of an `Add` or by a restart.
-/
namespace MinIODB.Buffer
open Wal List State

def TaskStatus.active : TaskStatus → Bool
  | .selecting | .waiting | .queued | .running _ | .retrying => true
  | _ => false

section
variable {ρ : Type*} {cfg : Config} {p p' : Pool ρ}

def Pool.ActiveSub (p p' : Pool ρ) : Prop :=
  ∀ (j : ℕ) (task' : FlushTask ρ), p'.tasks[j]? = some task' → task'.status.active = true →
    ∃ task, p.tasks[j]? = some task ∧ task.status.active = true ∧
      task.bufferKey = task'.bufferKey ∧ task.rows = task'.rows

lemma Pool.ActiveSub.of_tasks (h : p'.tasks = p.tasks) : p.ActiveSub p' := by
  intro j task' htask' hactive
  exact ⟨task', h ▸ htask', hactive, rfl, rfl⟩

variable {t : ℕ} {task : FlushTask ρ}

lemma Pool.ActiveSub.setTask (task' : FlushTask ρ) (htask : p.tasks[t]? = some task)
    (hactive : task'.status.active → task.status.active)
    (hkey : task.bufferKey = task'.bufferKey) (hrows : task.rows = task'.rows) :
    p.ActiveSub (p.setTask t task') := by
  intro j other hother hstatus
  rcases Transition.getElem?_set_cases hother with ⟨rfl, rfl⟩ | ⟨-, hother⟩
  · exact ⟨task, htask, hactive hstatus, hkey, hrows⟩
  · exact ⟨other, hother, hstatus, rfl, rfl⟩

open Buffer.Pool

lemma Pool.ActiveSub.setStatus {old : TaskStatus} (status : TaskStatus)
    (hold : p.statusOf t = some old) (hactive : status.active → old.active) :
    p.ActiveSub (p.setStatus t status) := by
  obtain ⟨task, htask, rfl⟩ := statusOf_eq_some hold
  rw [setStatus_eq status htask]
  exact Pool.ActiveSub.setTask _ htask hactive rfl rfl

lemma Pool.ActiveSub.step {a : PoolAction} (hinv : p.HoldInv) (hs : PoolStep cfg p a p') :
    p.ActiveSub p' := by
  cases hs with
  | submit t hstatus =>
    rcases hstatus with hstatus | hstatus <;> exact Pool.ActiveSub.setStatus .queued hstatus (fun _ => rfl)
  | flushInline t hstatus | wait t hstatus | waitShutdown t hstatus | retryAbandon t hstatus =>
    exact Pool.ActiveSub.setStatus _ hstatus (fun _ => rfl)
  | waitTimeout t hstatus => exact Pool.ActiveSub.setStatus .dropped hstatus (fun _ => rfl)
  | take w t queue before after hqueue =>
    -- what is in the queue has the status `queued`
    have hstatus := (hinv.queue t).mp (hqueue ▸ mem_cons_self)
    exact Pool.ActiveSub.setStatus (.running (.worker w)) hstatus (fun _ => rfl)
  | retry t task holder htask hstatus =>
    intro j task' htask' hactive
    rw [release_tasks] at htask'
    exact Pool.ActiveSub.setTask { task with
      retries := task.retries + 1, priority := task.priority + 1, status := .retrying }
      htask (fun _ => by rw [hstatus]; rfl) rfl rfl j task' htask' hactive
  | exhaust t task holder htask =>
    intro j task' htask' hactive
    rw [release_tasks] at htask'
    exact Pool.ActiveSub.setTask { task with status := .exhausted } htask (fun h => by cases h) rfl rfl
      j task' htask' hactive
  | retrySend t hstatus => exact Pool.ActiveSub.setStatus .queued hstatus (fun _ => rfl)
  | submitPanic | retryPanic | workerShutdown | workerExit | signal | closeQueue | stopReturn =>
    exact Pool.ActiveSub.of_tasks rfl

lemma Pool.ActiveSub.attemptOk (h : p.attemptOk t = some (task, p')) : p.ActiveSub p' := by
  obtain ⟨holder, htask, hstatus, rfl⟩ := attemptOk_eq h
  exact Pool.ActiveSub.setStatus _ (statusOf_of_task htask hstatus) (fun _ => rfl)

lemma Pool.ActiveSub.finish (h : p.finish t = some (task, p')) : p.ActiveSub p' := by
  obtain ⟨holder, htask, hstatus, rfl⟩ := finish_eq h
  intro j task' htask' hactive
  rw [release_tasks] at htask'
  exact Pool.ActiveSub.setStatus .done (statusOf_of_task htask hstatus) (fun h => by cases h)
    j task' htask' hactive

structure Pool.Continues (p p' : Pool ρ) : Prop where
  length : p.tasks.length ≤ p'.tasks.length
  old : ∀ (j : ℕ) (task' : FlushTask ρ), j < p.tasks.length → p'.tasks[j]? = some task' →
    task'.status.active = true → ∃ task, p.tasks[j]? = some task ∧ task.status.active = true ∧
      task.bufferKey = task'.bufferKey ∧ task.rows = task'.rows

lemma Pool.ActiveSub.continues (h : p.ActiveSub p') (hlength : p'.tasks.length = p.tasks.length) :
    p.Continues p' :=
  ⟨hlength.ge, fun j task' _ => h j task'⟩

lemma Pool.length_step {a : PoolAction} (hs : PoolStep cfg p a p') :
    p'.tasks.length = p.tasks.length := by
  cases hs <;> simp [setStatus, setTask, setWorker]

end

variable {φ : Type*} {cfg : Config} {json : φ → Option φ} {s s' : State φ} {a : Action φ}

def Pending (s : State φ) (table : String) (e : Entry φ) : Prop :=
  (∃ k, inTable table k = true ∧ e ∈ s.mem.buffer.get k) ∨
    ∃ (j : ℕ) (task : FlushTask (Entry φ)), s.pool.tasks[j]? = some task ∧ task.status.active = true ∧
      inTable table task.bufferKey = true ∧ e ∈ task.rows

variable {table : String} {e : Entry φ}

lemma Pending.of_sub (h : Pending s' table e)
    (hmem : ∀ k, ∀ e ∈ s'.mem.buffer.get k, e ∈ s.mem.buffer.get k)
    (hpool : s.pool.ActiveSub s'.pool) : Pending s table e := by
  rcases h with ⟨k, hk, he⟩ | ⟨j, task', htask', hactive', hk, he⟩
  · exact .inl ⟨k, hk, hmem k e he⟩
  · obtain ⟨task, htask, hactive, hkey, hrows⟩ := hpool j task' htask' hactive'
    exact .inr ⟨j, task, htask, hactive, hkey ▸ hk, hrows ▸ he⟩

lemma Pending.of_triggerFlush (key : String) (h : Pending (s.triggerFlush cfg key).1 table e) :
    Pending s table e := by
  have hmem : ∀ k, e ∈ (s.triggerFlush cfg key).1.mem.buffer.get k → e ∈ s.mem.buffer.get k := by
    intro k he
    rw [get_triggerFlush] at he
    split at he
    · cases he
    · exact he
  rcases h with ⟨k, hk, he⟩ | ⟨j, task', htask', hactive, hk, he⟩
  · exact .inl ⟨k, hk, hmem k he⟩
  · rcases s.triggerFlush_tasks cfg key with ⟨-, hpool⟩ | ⟨task, hkey, hrows, -, hpool⟩
    · rw [hpool] at htask'
      exact .inr ⟨j, task', htask', hactive, hk, he⟩
    · rw [hpool] at htask'
      rcases Transition.getElem?_concat_cases htask' with htask' | ⟨-, rfl⟩
      · exact .inr ⟨j, task', htask', hactive, hk, he⟩
      · exact .inl ⟨key, hkey ▸ hk, hrows ▸ he⟩

lemma Pending.of_step (hinv : s.pool.HoldInv) (hs : Step cfg json s a s')
    (hno : ∀ name, a ≠ .restart name) (h : Pending s' table e) :
    Pending s table e ∨ ∃ row, a = .addInsert row ∧ e = ⟨s.adds.length, row⟩ ∧
      inTable table (bufferKey cfg row) := by
  cases hs with
  | addInsert row =>
    rcases h with ⟨k, hk, he⟩ | htask
    · rw [addInsert, Mem.get_insert] at he
      split at he
      · rename_i heq
        rcases mem_append.mp he with he | he
        · exact .inl (.inl ⟨_, heq ▸ hk, he⟩)
        · exact .inr ⟨row, rfl, mem_singleton.mp he, heq ▸ hk⟩
      · exact .inl (.inl ⟨k, hk, he⟩)
    · exact .inl (.inr htask)
  | addRollback i call hcall hphase =>
    refine .inl (h.of_sub (fun k e he => ?_) (Pool.ActiveSub.of_tasks rfl))
    rw [addRollback, Mem.get_rollback] at he
    split at he
    · rename_i heq
      exact heq ▸ mem_of_mem_eraseIdx he
    · exact he
  | addFlush i call => exact .inl (Pending.of_triggerFlush call.key h)
  | flush key | stopFlush key => exact .inl (Pending.of_triggerFlush key h)
  | pool a p hpool =>
    exact .inl (h.of_sub (fun _ _ => id) (Pool.ActiveSub.step hinv (PoolStep.of_step hpool)))
  | attemptOk t task p hpool => exact .inl (h.of_sub (fun _ _ => id) (Pool.ActiveSub.attemptOk hpool))
  | truncate t removable task p hpool =>
    exact .inl (h.of_sub (fun _ _ => id) (Pool.ActiveSub.finish hpool))
  | remove =>
    refine .inl (h.of_sub (fun k e he => ?_) (Pool.ActiveSub.of_tasks ?_))
    · rw [remove_mem, Mem.get_remove] at he
      split at he
      · exact mem_of_mem_filter he
      · exact he
    · unfold remove
      split <;> rfl
  | clearTable =>
    refine .inl (h.of_sub (fun k e he => ?_) (Pool.ActiveSub.of_tasks rfl))
    rw [clearTable, Mem.get_clearTable] at he
    split at he
    · cases he
    · exact he
  | restart name => exact absurd rfl (hno name)
  | addAppend | addAppendFail | addRecord | addReturn | tombstone | tombstoneFail | recoveryCheck
  | recoveryTruncate | stop => exact .inl (h.of_sub (fun _ _ => id) (Pool.ActiveSub.of_tasks rfl))

open Buffer.Pool

lemma continues_of_step (hinv : s.pool.HoldInv) (hs : Step cfg json s a s')
    (hno : ∀ name, a ≠ .restart name) : s.pool.Continues s'.pool := by
  have hflush : ∀ (key : String) (p : Pool (Entry φ)),
      p.tasks = (s.triggerFlush cfg key).1.pool.tasks → s.pool.Continues p := by
    intro key p hp
    rcases s.triggerFlush_tasks cfg key with ⟨-, hpool⟩ | ⟨task, -, -, -, hpool⟩
    · rw [hpool] at hp
      exact (Pool.ActiveSub.of_tasks hp).continues (congrArg List.length hp)
    · rw [hpool] at hp
      refine ⟨by simp [hp], fun j task' hj htask' hactive => ?_⟩
      rw [hp, getElem?_append_left hj] at htask'
      exact ⟨task', htask', hactive, rfl, rfl⟩
  cases hs with
  | addFlush i call => exact hflush call.key _ rfl
  | flush key | stopFlush key => exact hflush key _ rfl
  | pool a p hpool =>
    exact (Pool.ActiveSub.step hinv (PoolStep.of_step hpool)).continues
      (length_step (PoolStep.of_step hpool))
  | attemptOk t task p hpool =>
    refine (Pool.ActiveSub.attemptOk hpool).continues ?_
    obtain ⟨holder, -, -, rfl⟩ := attemptOk_eq hpool
    simp [setStatus]
  | truncate t removable task p hpool =>
    refine (Pool.ActiveSub.finish hpool).continues ?_
    obtain ⟨holder, -, -, rfl⟩ := finish_eq hpool
    simp [setStatus]
  | remove t id =>
    have hpool : (s.remove cfg t id).pool = s.pool := by
      unfold remove
      split <;> rfl
    rw [hpool]
    exact (Pool.ActiveSub.of_tasks rfl).continues rfl
  | restart name => exact absurd rfl (hno name)
  | stop =>
    exact Pool.ActiveSub.continues (p := s.pool) (Pool.ActiveSub.of_tasks rfl) rfl
  | addInsert | addAppend | addAppendFail | addRecord | addRollback | addReturn | tombstone
  | tombstoneFail | clearTable | recoveryCheck | recoveryTruncate =>
    exact (Pool.ActiveSub.of_tasks rfl).continues rfl

lemma holdInv_step (hinv : s.pool.HoldInv) (hs : Step cfg json s a s') : s'.pool.HoldInv := by
  have hflush : ∀ key, (s.triggerFlush cfg key).1.pool.HoldInv := by
    intro key
    unfold triggerFlush
    split
    · exact hinv
    · exact hinv.newTask _ _ _
  cases hs with
  | addFlush i call => exact hflush call.key
  | flush key => exact hflush key
  | stopFlush key => exact (hflush key).keep rfl rfl (fun _ => Iff.rfl) (fun _ _ => id)
  | pool a p hpool => exact hinv.step (PoolStep.of_step hpool)
  | attemptOk t task p hpool => exact hinv.attemptOk hpool
  | truncate t removable task p hpool => exact hinv.finish hpool
  | remove =>
    unfold remove
    split <;> exact hinv
  | restart => exact holdInv_init cfg
  | stop => exact hinv.keep rfl rfl (fun _ => Iff.rfl) (fun _ _ => id)
  | addInsert | addAppend | addAppendFail | addRecord | addRollback | addReturn | tombstone
  | tombstoneFail | clearTable | recoveryCheck | recoveryTruncate => exact hinv

end MinIODB.Buffer
