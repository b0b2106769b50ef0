import MinIODB.Buffer.Memory
import MinIODB.Library.Transition

/-!
# Flush tasks and workers

The rows that `triggerFlush` takes out of the buffer travel as tasks: from the select
that submits them, possibly through the back-pressure wait, into the bounded queue, to
a worker, and after a failed attempt through a retry goroutine back into the queue.
`Stop` signals the shutdown, waits for the workers and closes the queue.

Every step is one communication of a goroutine. A `select` with several ready branches
may take any of them; a send on the closed queue panics.
-/
namespace MinIODB.Buffer
open Option

inductive Holder where
  | worker (w : ℕ)
  | caller
  deriving DecidableEq

/-- Where a task is. The last five are final: flushed and truncated, given up after
`MaxRetries`, and discarded by a retry goroutine, by the back-pressure timeout and by
the shutdown during back-pressure. -/
inductive TaskStatus where
  | selecting
  | waiting
  | queued
  | running (h : Holder)
  | flushed (h : Holder)
  | retrying
  | done
  | exhausted
  | abandoned
  | dropped
  | discarded
  deriving DecidableEq

def TaskStatus.completed : TaskStatus → Bool
  | .flushed _ | .done => true
  | _ => false

structure FlushTask (ρ : Type*) where
  bufferKey : String
  rows : List ρ
  priority : ℕ
  retries : ℕ
  maxSeqNum : ℕ
  status : TaskStatus

inductive WorkerState where
  | idle
  | busy
  | draining
  | drainBusy
  | exited
  deriving DecidableEq

inductive StopPhase where
  | running
  | flushing (keys : List String) (task : Option ℕ)
  | signalled
  | closed
  | returned
  deriving DecidableEq

structure Pool (ρ : Type*) where
  tasks : List (FlushTask ρ)
  queue : List ℕ
  workers : List WorkerState
  shutdown : Bool
  queueClosed : Bool
  panicked : Bool
  failedTasks : ℕ
  stop : StopPhase

inductive PoolAction where
  | submit (t : ℕ)
  | flushInline (t : ℕ)
  | wait (t : ℕ)
  | waitShutdown (t : ℕ)
  | waitTimeout (t : ℕ)
  | take (w : ℕ)
  | attemptFailed (t : ℕ)
  | retrySend (t : ℕ)
  | retryAbandon (t : ℕ)
  | workerShutdown (w : ℕ)
  | workerExit (w : ℕ)
  | signal
  | closeQueue
  | stopReturn

namespace Pool

variable {ρ : Type*}

def init (cfg : Config) : Pool ρ :=
  ⟨[], [], List.replicate cfg.workerPoolSize .idle, false, false, false, 0, .running⟩

def statusOf (p : Pool ρ) (t : ℕ) : Option TaskStatus := p.tasks[t]?.map FlushTask.status

def setStatus (p : Pool ρ) (t : ℕ) (status : TaskStatus) : Pool ρ :=
  { p with tasks := p.tasks.modify t (fun task => { task with status := status }) }

def setTask (p : Pool ρ) (t : ℕ) (task : FlushTask ρ) : Pool ρ :=
  { p with tasks := p.tasks.set t task }

def setWorker (p : Pool ρ) (w : ℕ) (state : WorkerState) : Pool ρ :=
  { p with workers := p.workers.set w state }

def newTask (p : Pool ρ) (key : String) (rows : List ρ) (maxSeqNum : ℕ) : Pool ρ :=
  { p with tasks := p.tasks ++ [⟨key, rows, 0, 0, maxSeqNum, .selecting⟩] }

def send (cfg : Config) (p : Pool ρ) (t : ℕ) : Option (Pool ρ) :=
  if p.queueClosed then some { p with panicked := true }
  else if p.queue.length < cfg.taskQueueSize then
    some { p.setStatus t .queued with queue := p.queue ++ [t] }
  else none

def release (p : Pool ρ) : Holder → Pool ρ
  | .caller => p
  | .worker w =>
    match p.workers[w]? with
    | some .busy => p.setWorker w .idle
    | some .drainBusy => p.setWorker w .draining
    | _ => p

def settled (p : Pool ρ) : Option ℕ → Bool
  | none => true
  | some t =>
    match p.statusOf t with
    | some .selecting | some .waiting | some (.running .caller) | some (.flushed .caller) => false
    | _ => true

def attemptFailed (cfg : Config) (p : Pool ρ) (t : ℕ) (task : FlushTask ρ) (h : Holder) : Pool ρ :=
  if task.retries < cfg.maxRetries then
    (p.setTask t { task with
      retries := task.retries + 1, priority := task.priority + 1, status := .retrying }).release h
  else
    { p.setTask t { task with status := .exhausted } with
      failedTasks := p.failedTasks + 1 }.release h

def take (p : Pool ρ) (w : ℕ) : Option (Pool ρ) :=
  match p.queue, p.workers[w]? with
  | t :: queue, some .idle =>
    some ({ p.setStatus t (.running (.worker w)) with queue := queue }.setWorker w .busy)
  | t :: queue, some .draining =>
    some ({ p.setStatus t (.running (.worker w)) with queue := queue }.setWorker w .drainBusy)
  | _, _ => none

def step (cfg : Config) (p : Pool ρ) : PoolAction → Option (Pool ρ)
  | .submit t =>
    if p.statusOf t = some .selecting ∨ p.statusOf t = some .waiting then p.send cfg t else none
  | .flushInline t =>
    if p.statusOf t = some .selecting ∧ p.shutdown = true then
      some (p.setStatus t (.running .caller))
    else none
  | .wait t =>
    -- the default branch is only taken when no other is ready
    if p.statusOf t = some .selecting ∧ p.shutdown = false ∧ p.queueClosed = false ∧
        cfg.taskQueueSize ≤ p.queue.length then
      some (p.setStatus t .waiting)
    else none
  | .waitShutdown t =>
    if p.statusOf t = some .waiting ∧ p.shutdown = true then some (p.setStatus t .discarded)
    else none
  | .waitTimeout t =>
    if p.statusOf t = some .waiting then
      some { p.setStatus t .dropped with failedTasks := p.failedTasks + 1 }
    else none
  | .take w => p.take w
  | .attemptFailed t =>
    p.tasks[t]?.bind (fun task =>
      match task.status with
      | .running h => some (p.attemptFailed cfg t task h)
      | _ => none)
  | .retrySend t => if p.statusOf t = some .retrying then p.send cfg t else none
  | .retryAbandon t =>
    if p.statusOf t = some .retrying ∧ p.shutdown = true then some (p.setStatus t .abandoned)
    else none
  | .workerShutdown w =>
    if p.workers[w]? = some .idle ∧ p.shutdown = true then some (p.setWorker w .draining) else none
  | .workerExit w =>
    if p.workers[w]? = some .draining ∧ p.queue = [] then some (p.setWorker w .exited) else none
  | .signal =>
    match p.stop with
    | .flushing [] task =>
      if p.settled task then some { p with shutdown := true, stop := .signalled } else none
    | _ => none
  | .closeQueue =>
    if p.stop = .signalled ∧ ∀ w ∈ p.workers, w = .exited then
      some { p with queueClosed := true, stop := .closed }
    else none
  | .stopReturn => if p.stop = .closed then some { p with stop := .returned } else none

def attemptOk (p : Pool ρ) (t : ℕ) : Option (FlushTask ρ × Pool ρ) :=
  p.tasks[t]?.bind (fun task =>
    match task.status with
    | .running h => some (task, p.setStatus t (.flushed h))
    | _ => none)

def finish (p : Pool ρ) (t : ℕ) : Option (FlushTask ρ × Pool ρ) :=
  p.tasks[t]?.bind (fun task =>
    match task.status with
    | .flushed h => some (task, (p.setStatus t .done).release h)
    | _ => none)

@[simp] theorem release_tasks (p : Pool ρ) (h : Holder) : (p.release h).tasks = p.tasks := by
  cases h with
  | caller => rfl
  | worker =>
    simp only [release]
    split <;> rfl

@[simp] theorem getElem?_setStatus (p : Pool ρ) (t j : ℕ) (status : TaskStatus) :
    (p.setStatus t status).tasks[j]? =
      if t = j then p.tasks[j]?.map (fun task => { task with status := status })
      else p.tasks[j]? := by
  rw [setStatus, List.getElem?_modify]
  by_cases htj : t = j
  · simp [htj]
  · simp [htj]

variable {p p' : Pool ρ} {t : ℕ} {task : FlushTask ρ} {status : TaskStatus}

lemma statusOf_of_task (htask : p.tasks[t]? = some task) (hstatus : task.status = status) :
    p.statusOf t = some status := by
  rw [statusOf, htask, map_some, hstatus]

lemma statusOf_eq_some
    (h : p.statusOf t = some status) : ∃ task, p.tasks[t]? = some task ∧ task.status = status :=
  map_eq_some_iff.mp h

lemma attemptOk_eq (h : p.attemptOk t = some (task, p')) :
    ∃ holder, p.tasks[t]? = some task ∧ task.status = .running holder ∧
      p' = p.setStatus t (.flushed holder) := by
  obtain ⟨task', htask, h⟩ := bind_eq_some_iff.mp h
  split at h <;> cases h
  · rename_i holder hstatus
    exact ⟨holder, htask, hstatus, rfl⟩

lemma finish_eq (h : p.finish t = some (task, p')) :
    ∃ holder, p.tasks[t]? = some task ∧ task.status = .flushed holder ∧
      p' = (p.setStatus t .done).release holder := by
  obtain ⟨task', htask, h⟩ := bind_eq_some_iff.mp h
  split at h <;> cases h
  · rename_i holder hstatus
    exact ⟨holder, htask, hstatus, rfl⟩

end Pool

variable {ρ : Type*} (cfg : Config)

inductive PoolStep : Pool ρ → PoolAction → Pool ρ → Prop where
  | submit (p t) (hstatus : p.statusOf t = some .selecting ∨ p.statusOf t = some .waiting)
      (hopen : p.queueClosed = false) :
      PoolStep p (.submit t) { p.setStatus t .queued with queue := p.queue ++ [t] }
  | submitPanic (p t) (hstatus : p.statusOf t = some .selecting ∨ p.statusOf t = some .waiting)
      (hclosed : p.queueClosed = true) : PoolStep p (.submit t) { p with panicked := true }
  | flushInline (p t) (hstatus : p.statusOf t = some .selecting) (hshut : p.shutdown = true) :
      PoolStep p (.flushInline t) (p.setStatus t (.running .caller))
  | wait (p t) (hstatus : p.statusOf t = some .selecting) (hshut : p.shutdown = false) :
      PoolStep p (.wait t) (p.setStatus t .waiting)
  | waitShutdown (p t) (hstatus : p.statusOf t = some .waiting) (hshut : p.shutdown = true) :
      PoolStep p (.waitShutdown t) (p.setStatus t .discarded)
  | waitTimeout (p t) (hstatus : p.statusOf t = some .waiting) :
      PoolStep p (.waitTimeout t)
        { p.setStatus t .dropped with failedTasks := p.failedTasks + 1 }
  | take (p w t queue before after) (hqueue : p.queue = t :: queue)
      (hworker : p.workers[w]? = some before)
      (hstate : before = .idle ∧ after = .busy ∨ before = .draining ∧ after = .drainBusy) :
      PoolStep p (.take w)
        ({ p.setStatus t (.running (.worker w)) with queue := queue }.setWorker w after)
  | retry (p t task h) (htask : p.tasks[t]? = some task) (hstatus : task.status = .running h)
      (hretries : task.retries < cfg.maxRetries) :
      PoolStep p (.attemptFailed t)
        ((p.setTask t { task with
          retries := task.retries + 1, priority := task.priority + 1, status := .retrying }).release h)
  | exhaust (p t task h) (htask : p.tasks[t]? = some task) (hstatus : task.status = .running h)
      (hretries : cfg.maxRetries ≤ task.retries) :
      PoolStep p (.attemptFailed t)
        ({ p.setTask t { task with status := .exhausted } with
          failedTasks := p.failedTasks + 1 }.release h)
  | retrySend (p t) (hstatus : p.statusOf t = some .retrying) (hopen : p.queueClosed = false) :
      PoolStep p (.retrySend t) { p.setStatus t .queued with queue := p.queue ++ [t] }
  | retryPanic (p t) (hstatus : p.statusOf t = some .retrying) (hclosed : p.queueClosed = true) :
      PoolStep p (.retrySend t) { p with panicked := true }
  | retryAbandon (p t) (hstatus : p.statusOf t = some .retrying) (hshut : p.shutdown = true) :
      PoolStep p (.retryAbandon t) (p.setStatus t .abandoned)
  | workerShutdown (p w) (hworker : p.workers[w]? = some .idle) (hshut : p.shutdown = true) :
      PoolStep p (.workerShutdown w) (p.setWorker w .draining)
  | workerExit (p w) (hworker : p.workers[w]? = some .draining) (hqueue : p.queue = []) :
      PoolStep p (.workerExit w) (p.setWorker w .exited)
  | signal (p task) (hstop : p.stop = .flushing [] task) (hsettled : p.settled task = true) :
      PoolStep p .signal { p with shutdown := true, stop := .signalled }
  | closeQueue (p) (hstop : p.stop = .signalled) (hexited : ∀ w ∈ p.workers, w = .exited) :
      PoolStep p .closeQueue { p with queueClosed := true, stop := .closed }
  | stopReturn (p) (hstop : p.stop = .closed) : PoolStep p .stopReturn { p with stop := .returned }

variable {cfg}

variable {p p' : Pool ρ} {t : ℕ} {a : PoolAction}

lemma Pool.send_cases (h : p.send cfg t = some p') :
    (p.queueClosed ∧ p' = { p with panicked := true }) ∨
      (p.queueClosed = false ∧ p' = { p.setStatus t .queued with queue := p.queue ++ [t] }) := by
  unfold Pool.send at h
  split at h
  · rename_i hclosed
    cases h
    exact .inl ⟨hclosed, rfl⟩
  · rename_i hclosed
    obtain ⟨_, rfl⟩ := ite_some_none_eq_some.mp h
    exact .inr ⟨by simpa using hclosed, rfl⟩

lemma PoolStep.of_step (h : p.step cfg a = some p') : PoolStep cfg p a p' := by
  cases a with
    simp only [Pool.step, ite_none_right_eq_some, some.injEq] at h
  | submit t =>
    obtain ⟨hstatus, h⟩ := h
    rcases Pool.send_cases h with ⟨hclosed, rfl⟩ | ⟨hopen, rfl⟩
    · exact .submitPanic p t hstatus hclosed
    · exact .submit p t hstatus hopen
  | flushInline t =>
    obtain ⟨⟨hstatus, hshut⟩, rfl⟩ := h
    exact .flushInline p t hstatus hshut
  | wait t =>
    obtain ⟨⟨hstatus, hshut, _⟩, rfl⟩ := h
    exact .wait p t hstatus hshut
  | waitShutdown t =>
    obtain ⟨⟨hstatus, hshut⟩, rfl⟩ := h
    exact .waitShutdown p t hstatus hshut
  | waitTimeout t =>
    obtain ⟨hstatus, rfl⟩ := h
    exact .waitTimeout p t hstatus
  | take w =>
    simp only [Pool.take] at h
    split at h <;> cases h
    · rename_i t queue hqueue hworker
      exact .take p w t queue _ _ hqueue hworker (.inl ⟨rfl, rfl⟩)
    · rename_i t queue hqueue hworker
      exact .take p w t queue _ _ hqueue hworker (.inr ⟨rfl, rfl⟩)
  | attemptFailed t =>
    obtain ⟨task, htask, h⟩ := bind_eq_some_iff.mp h
    split at h <;> cases h
    · rename_i holder hstatus
      unfold Pool.attemptFailed
      split
      · rename_i hretries
        exact .retry p t task holder htask hstatus hretries
      · rename_i hretries
        exact .exhaust p t task holder htask hstatus (not_lt.mp hretries)
  | retrySend t =>
    obtain ⟨hstatus, h⟩ := h
    rcases Pool.send_cases h with ⟨hclosed, rfl⟩ | ⟨hopen, rfl⟩
    · exact .retryPanic p t hstatus hclosed
    · exact .retrySend p t hstatus hopen
  | retryAbandon t =>
    obtain ⟨⟨hstatus, hshut⟩, rfl⟩ := h
    exact .retryAbandon p t hstatus hshut
  | workerShutdown w =>
    obtain ⟨⟨hworker, hshut⟩, rfl⟩ := h
    exact .workerShutdown p w hworker hshut
  | workerExit w =>
    obtain ⟨⟨hworker, hqueue⟩, rfl⟩ := h
    exact .workerExit p w hworker hqueue
  | signal =>
    split at h
    · rename_i task hstop
      obtain ⟨hsettled, rfl⟩ := ite_some_none_eq_some.mp h
      exact .signal p task hstop hsettled
    · cases h
  | closeQueue =>
    obtain ⟨⟨hstop, hexited⟩, rfl⟩ := h
    exact .closeQueue p hstop hexited
  | stopReturn =>
    obtain ⟨hstop, rfl⟩ := h
    exact .stopReturn p hstop

def Pool.Holds (p : Pool ρ) (key : String) (q : ρ → Prop) : Prop :=
  ∃ (j : ℕ) (task : FlushTask ρ), p.tasks[j]? = some task ∧ task.status.completed = false ∧
    task.bufferKey = key ∧ ∃ r ∈ task.rows, q r

variable {key : String} {q : ρ → Prop}

lemma Pool.Holds.of_tasks (h : p.Holds key q) (htasks : p'.tasks = p.tasks) : p'.Holds key q := by
  obtain ⟨j, task, htask, hstatus, hrow⟩ := h
  exact ⟨j, task, htasks ▸ htask, hstatus, hrow⟩

lemma Pool.Holds.setStatus (h : p.Holds key q) (t : ℕ) (status : TaskStatus)
    (hstatus : status.completed = false) : (p.setStatus t status).Holds key q := by
  obtain ⟨j, task, htask, hold, hrow⟩ := h
  by_cases htj : t = j
  · exact ⟨j, { task with status := status }, by simp [htj, htask], hstatus, hrow⟩
  · exact ⟨j, task, by simp [htj, htask], hold, hrow⟩

lemma Pool.Holds.setTask (h : p.Holds key q) {task : FlushTask ρ}
    (task' : FlushTask ρ) (htask : p.tasks[t]? = some task)
    (hkey : task'.bufferKey = task.bufferKey) (hrows : task'.rows = task.rows)
    (hstatus : task'.status.completed = false) : (p.setTask t task').Holds key q := by
  refine Transition.exists_getElem?_set h htask (fun hold => ⟨hstatus, ?_⟩)
  rw [hkey, hrows]
  exact hold.2

lemma Pool.Holds.step (h : p.Holds key q) (hs : PoolStep cfg p a p') : p'.Holds key q := by
  cases hs with
  | submit t | retrySend t => exact (h.setStatus t .queued rfl).of_tasks rfl
  | submitPanic | retryPanic | workerShutdown | workerExit | signal | closeQueue | stopReturn =>
    exact h
  | flushInline t | wait t | waitShutdown t | retryAbandon t => exact h.setStatus t _ rfl
  | waitTimeout t => exact (h.setStatus t .dropped rfl).of_tasks rfl
  | take w t => exact (h.setStatus t (.running (.worker w)) rfl).of_tasks rfl
  | retry t task holder htask =>
    exact (h.setTask { task with
      retries := task.retries + 1, priority := task.priority + 1, status := .retrying }
      htask rfl rfl rfl).of_tasks (by simp)
  | exhaust t task holder htask =>
    exact (h.setTask { task with status := .exhausted } htask rfl rfl rfl).of_tasks (by simp)

end MinIODB.Buffer
