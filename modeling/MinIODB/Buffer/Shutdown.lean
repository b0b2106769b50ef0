import MinIODB.Buffer.Workers
import MinIODB.Buffer.Machine

/-!
# Graceful shutdown

`Stop` flushes the buffer, signals the shutdown, waits for the workers and closes the
queue. The workers empty the queue before they exit, but nobody waits for the calls of
`triggerFlush` and for the retry goroutines. Everything is drained when none of those is
on its way at the signal and none starts afterwards; otherwise a task can be discarded,
or sent on the closed queue.

The flush goes over the keys one by one or, with batching, in batches of `BatchFlushSize`, which no
check of the configuration reads.
-/
namespace MinIODB.Buffer
open Wal Transition List State

def TaskStatus.orderly (shutdown : Bool) : TaskStatus → Bool
  | .selecting | .waiting | .retrying => !shutdown
  | .queued | .running (.worker _) | .flushed (.worker _) | .done | .exhausted => true
  | _ => false

def TaskStatus.sending : TaskStatus → Bool
  | .selecting | .waiting | .retrying => true
  | _ => false

lemma TaskStatus.orderly_of_not_sending {status : TaskStatus} {shutdown : Bool}
    (h : status.orderly shutdown) (hnot : status.sending = false) : status.orderly true = true := by
  cases status with
  | selecting | waiting | retrying => cases hnot
  | running holder | flushed holder =>
    cases holder with
    | worker => rfl
    | caller => cases h
  | _ => exact h

section
variable {ρ : Type*} {cfg : Config} {p p' : Pool ρ}

variable (cfg) in
def Pool.Polite (p : Pool ρ) : PoolAction → Prop
  | .signal => ∀ task ∈ p.tasks, task.status.sending = false
  | .attemptFailed t => p.shutdown = true → ∀ task, p.tasks[t]? = some task →
      cfg.maxRetries ≤ task.retries
  | .waitTimeout _ => False
  | _ => True

def Pool.exhaustedTasks (p : Pool ρ) : ℕ := p.tasks.countP (fun task => task.status = .exhausted)

variable (cfg) in
structure Pool.DrainInv (p : Pool ρ) : Prop where
  hold : p.HoldInv
  phase : p.PhaseInv cfg
  statuses : ∀ t status, p.statusOf t = some status → status.orderly p.shutdown = true
  drained : .exited ∈ p.workers → p.queue = []
  calm : p.panicked = false
  failed : p.failedTasks = p.exhaustedTasks

open Buffer.Pool

lemma Pool.exhaustedTasks_setTask {t : ℕ} {task : FlushTask ρ} (task' : FlushTask ρ)
    (htask : p.tasks[t]? = some task) (hold : task.status ≠ .exhausted) :
    (p.setTask t task').exhaustedTasks =
      p.exhaustedTasks + if task'.status = .exhausted then 1 else 0 := by
  obtain ⟨hlt, rfl⟩ := List.getElem?_eq_some_iff.mp htask
  rw [exhaustedTasks, setTask, countP_set hlt]
  simp [hold, exhaustedTasks]

lemma Pool.exhaustedTasks_setStatus {t : ℕ} {old status : TaskStatus}
    (hold : p.statusOf t = some old) (hne : old ≠ .exhausted) (hstatus : status ≠ .exhausted) :
    (p.setStatus t status).exhaustedTasks = p.exhaustedTasks := by
  obtain ⟨task, htask, rfl⟩ := statusOf_eq_some hold
  rw [setStatus_eq status htask, exhaustedTasks_setTask _ htask hne]
  simp [hstatus]

@[simp] theorem Pool.exhaustedTasks_release (p : Pool ρ) (h : Holder) :
    (p.release h).exhaustedTasks = p.exhaustedTasks := by
  simp [exhaustedTasks]

namespace Pool.DrainInv

variable {status : TaskStatus} {task : FlushTask ρ} {a : PoolAction} {t : ℕ}

lemma no_sender (h : p.DrainInv cfg)
    (hstatus : p.statusOf t = some status) (hsending : status.sending) : p.shutdown = false := by
  have horderly := h.statuses t status hstatus
  cases status with
  | selecting | waiting | retrying => simpa [TaskStatus.orderly] using horderly
  | _ => cases hsending

lemma statuses_move (h : p.DrainInv cfg)
    (hm : p.Moves p' t status) (hshutdown : p'.shutdown = p.shutdown)
    (hstatus : status.orderly p.shutdown) :
    ∀ j st, p'.statusOf j = some st → st.orderly p'.shutdown := by
  intro j st hj
  rw [hshutdown]
  rw [hm j] at hj
  split at hj
  · cases hj
    exact hstatus
  · exact h.statuses j st hj

lemma not_exited (h : p.DrainInv cfg) (hshutdown : p.shutdown = false) : .exited ∉ p.workers := by
  intro hmem
  have hsignal := h.phase.leaving _ hmem rfl
  rw [hshutdown] at hsignal
  cases hsignal

lemma send (h : p.DrainInv cfg) {old : TaskStatus}
    (hold : p.statusOf t = some old) (hsending : old.sending)
    (hs : PoolStep cfg p a { p.setStatus t .queued with queue := p.queue ++ [t] }) :
    Pool.DrainInv cfg { p.setStatus t .queued with queue := p.queue ++ [t] } := by
  have hshutdown := h.no_sender hold hsending
  have hne : old ≠ .exhausted := by
    rintro rfl
    cases hsending
  refine ⟨h.hold.step hs, h.phase.step hs, ?_, fun hexited => ?_, h.calm, ?_⟩
  · exact h.statuses_move (moves_setStatus .queued hold) rfl rfl
  · exact absurd hexited (h.not_exited hshutdown)
  · exact h.failed.trans (exhaustedTasks_setStatus hold hne (by simp)).symm

lemma release (h : p.DrainInv cfg) {n : ℕ} {holder : Holder}
    (task' : FlushTask ρ) (htask : p.tasks[t]? = some task) (hold : task.status ≠ .exhausted)
    (hhold : (({ p.setTask t task' with failedTasks := n } : Pool ρ).release holder).HoldInv)
    (horderly : task'.status.orderly p.shutdown)
    (hfailed : n = p.failedTasks + if task'.status = .exhausted then 1 else 0) :
    (({ p.setTask t task' with failedTasks := n } : Pool ρ).release holder).DrainInv cfg := by
  have hphase : ({ p.setTask t task' with failedTasks := n } : Pool ρ).PhaseInv cfg :=
    h.phase.same rfl rfl rfl rfl
  refine ⟨hhold, hphase.release holder, ?_, fun hexited => ?_, ?_, ?_⟩
  · intro j st hj
    rw [statusOf_release] at hj
    simp only [release_frame]
    exact h.statuses_move (moves_setTask task' htask) rfl horderly j st hj
  · simp only [release_frame]
    rcases mem_release _ holder hexited with hmem | ⟨heq, _⟩ | ⟨heq, _⟩
    · exact h.drained hmem
    · cases heq
    · cases heq
  · simp only [release_frame]
    exact h.calm
  · simp only [release_frame, exhaustedTasks_release]
    change n = (p.setTask t task').exhaustedTasks
    rw [exhaustedTasks_setTask task' htask hold, hfailed, h.failed]

lemma setWorker (h : p.DrainInv cfg) {w : ℕ} (after : WorkerState)
    (hs : PoolStep cfg p a (p.setWorker w after)) (hqueue : after = .exited → p.queue = []) :
    (p.setWorker w after).DrainInv cfg := by
  refine ⟨h.hold.step hs, h.phase.step hs, h.statuses, fun hexited => ?_, h.calm, h.failed⟩
  rcases mem_or_eq_of_mem_set hexited with hmem | heq
  · exact h.drained hmem
  · exact hqueue heq.symm

lemma step (h : p.DrainInv cfg) (hg : p.Polite cfg a)
    (hs : PoolStep cfg p a p') : p'.DrainInv cfg := by
  have hcontra : ∀ {t : ℕ} {status : TaskStatus}, p.statusOf t = some status →
      status.sending = true → p.shutdown = true → False := by
    intro t status hstatus hsending hshut
    rw [h.no_sender hstatus hsending] at hshut
    cases hshut
  cases hs with
  | submit t hstatus hopen =>
    rcases hstatus with hstatus | hstatus
    · exact h.send hstatus rfl (.submit p t (.inl hstatus) hopen)
    · exact h.send hstatus rfl (.submit p t (.inr hstatus) hopen)
  | submitPanic t hstatus hclosed =>
    rcases hstatus with hstatus | hstatus <;>
      exact (hcontra hstatus rfl (h.phase.shutdown_of_closed hclosed)).elim
  | flushInline t hstatus hshut | waitShutdown t hstatus hshut | retryAbandon t hstatus hshut =>
    exact (hcontra hstatus rfl hshut).elim
  | wait t hstatus hshut =>
    have hs : PoolStep cfg p (.wait t) _ := PoolStep.wait p t hstatus hshut
    refine ⟨h.hold.step hs, h.phase.step hs, ?_, h.drained, h.calm, ?_⟩
    · exact h.statuses_move (moves_setStatus .waiting hstatus) rfl (by simp [TaskStatus.orderly, hshut])
    · exact h.failed.trans (exhaustedTasks_setStatus hstatus (by simp) (by simp)).symm
  | waitTimeout => exact hg.elim
  | take w t queue before after hqueue hworker hstate =>
    have hs : PoolStep cfg p (.take w) _ := PoolStep.take p w t queue before after hqueue hworker hstate
    have hqueued : p.statusOf t = some .queued := (h.hold.queue t).mp (by simp [hqueue])
    refine ⟨h.hold.step hs, h.phase.step hs, ?_, fun hexited => ?_, h.calm, ?_⟩
    · exact h.statuses_move (moves_setStatus (.running (.worker w)) hqueued) rfl rfl
    · rcases mem_or_eq_of_mem_set hexited with hmem | heq
      · have hnil := h.drained hmem
        rw [hqueue] at hnil
        cases hnil
      · rcases hstate with ⟨_, rfl⟩ | ⟨_, rfl⟩ <;> cases heq
    · exact h.failed.trans (exhaustedTasks_setStatus hqueued (by simp) (by simp)).symm
  | retry t task holder htask hstatus hretries =>
    have hs : PoolStep cfg p (.attemptFailed t) _ := PoolStep.retry p t task holder htask hstatus hretries
    have hrunning : p.shutdown = false := by
      by_contra hshut
      exact absurd (hg (by simpa using hshut) task htask) (not_le.mpr hretries)
    exact h.release _ htask (by simp [hstatus]) (h.hold.step hs)
      (by simp [TaskStatus.orderly, hrunning]) (by simp)
  | exhaust t task holder htask hstatus hretries =>
    have hs : PoolStep cfg p (.attemptFailed t) _ := PoolStep.exhaust p t task holder htask hstatus hretries
    exact h.release _ htask (by simp [hstatus]) (h.hold.step hs) rfl (by simp)
  | retrySend t hstatus hopen => exact h.send hstatus rfl (.retrySend p t hstatus hopen)
  | retryPanic t hstatus hclosed => exact (hcontra hstatus rfl (h.phase.shutdown_of_closed hclosed)).elim
  | workerShutdown w hworker hshut =>
    exact h.setWorker .draining (.workerShutdown p w hworker hshut) (by simp)
  | workerExit w hworker hqueue =>
    exact h.setWorker .exited (.workerExit p w hworker hqueue) (fun _ => hqueue)
  | signal task hstop hsettled =>
    have hs : PoolStep cfg p .signal _ := PoolStep.signal p task hstop hsettled
    refine ⟨h.hold.step hs, h.phase.step hs, fun t status hstatus => ?_, h.drained, h.calm, h.failed⟩
    obtain ⟨task', htask', rfl⟩ := statusOf_eq_some hstatus
    exact TaskStatus.orderly_of_not_sending (h.statuses t _ hstatus)
      (hg task' (mem_of_getElem? htask'))
  | closeQueue hstop hexited =>
    have hs : PoolStep cfg p .closeQueue _ := PoolStep.closeQueue p hstop hexited
    exact ⟨h.hold.step hs, h.phase.step hs, h.statuses, h.drained, h.calm, h.failed⟩
  | stopReturn hstop =>
    have hs : PoolStep cfg p .stopReturn _ := PoolStep.stopReturn p hstop
    exact ⟨h.hold.step hs, h.phase.step hs, h.statuses, h.drained, h.calm, h.failed⟩

section
variable (h : p.DrainInv cfg)
include h

lemma attemptOk (hs : p.attemptOk t = some (task, p')) : p'.DrainInv cfg := by
  have hhold := h.hold.attemptOk hs
  obtain ⟨holder, htask, hstatus, rfl⟩ := attemptOk_eq hs
  have hold := statusOf_of_task htask hstatus
  refine ⟨hhold, h.phase.same rfl rfl rfl rfl, ?_, h.drained, h.calm, ?_⟩
  · refine h.statuses_move (moves_setStatus (.flushed holder) hold) rfl ?_
    have hbefore := h.statuses t _ hold
    cases holder with
    | worker => rfl
    | caller => cases hbefore
  · exact h.failed.trans (exhaustedTasks_setStatus hold (by simp) (by simp)).symm

lemma finish (hs : p.finish t = some (task, p')) : p'.DrainInv cfg := by
  have hhold := h.hold.finish hs
  obtain ⟨holder, htask, hstatus, rfl⟩ := finish_eq hs
  rw [setStatus_eq .done htask] at hhold ⊢
  exact h.release { task with status := .done } htask (by simp [hstatus]) hhold rfl (by simp)

lemma newTask (key : String) (rows : List ρ) (n : ℕ)
    (hshutdown : p.shutdown = false) : (p.newTask key rows n).DrainInv cfg := by
  refine ⟨h.hold.newTask key rows n, h.phase.same rfl rfl rfl rfl, fun t status hstatus => ?_,
    h.drained, h.calm, ?_⟩
  · rw [statusOf_newTask] at hstatus
    split at hstatus
    · cases hstatus
      change (!p.shutdown) = true
      rw [hshutdown]
      rfl
    · exact h.statuses t status hstatus
  · rw [Pool.exhaustedTasks, Pool.newTask, countP_append]
    exact h.failed

lemma setStop (stop : StopPhase) (hold : p.stop.hasSignalled = false)
    (hnew : stop.hasSignalled = false) : ({ p with stop := stop } : Pool ρ).DrainInv cfg := by
  have hnotClosed : ∀ {x : StopPhase}, x.hasSignalled = false → x.hasClosed = false := by
    intro x hx
    by_contra hclosed
    have hsignalled := StopPhase.hasSignalled_of_hasClosed (Bool.eq_true_of_not_eq_false hclosed)
    rw [hx] at hsignalled
    cases hsignalled
  refine ⟨⟨h.hold.queue, h.hold.nodup, h.hold.held, h.hold.alone⟩,
    ⟨h.phase.workers, ?_, ?_, h.phase.leaving, h.phase.exited⟩, h.statuses, h.drained, h.calm, h.failed⟩
  · change p.shutdown = stop.hasSignalled
    rw [h.phase.shutdown, hold, hnew]
  · change p.queueClosed = stop.hasClosed
    rw [h.phase.closed, hnotClosed hold, hnotClosed hnew]

end

end Pool.DrainInv

variable (cfg) in
lemma Pool.drainInv_init : (init cfg : Pool ρ).DrainInv cfg := by
  refine ⟨holdInv_init cfg, phaseInv_init cfg, fun t status hstatus => ?_, fun _ => rfl,
    rfl, rfl⟩
  cases hstatus

lemma Pool.DrainInv.finished (h : p.DrainInv cfg) (hpool : 0 < cfg.workerPoolSize)
    (hclosed : p.queueClosed) :
    p.queue = [] ∧ ∀ task ∈ p.tasks, task.status = .done ∨ task.status = .exhausted := by
  have hexited := h.phase.exited hclosed
  have hsignalled := h.phase.shutdown_of_closed hclosed
  have hqueue : p.queue = [] := by
    obtain ⟨state, hstate⟩ := exists_mem_of_length_pos (h.phase.workers ▸ hpool)
    exact h.drained (hexited state hstate ▸ hstate)
  have hnotHeld : ∀ t w, ¬p.HeldBy t w := by
    intro t w hheld
    rcases h.hold.held t w hheld with hw | hw
    all_goals cases hexited _ (mem_of_getElem? hw)
  refine ⟨hqueue, fun task hmem => ?_⟩
  obtain ⟨t, htask⟩ := mem_iff_getElem?.mp hmem
  have hstatusOf := statusOf_of_task htask rfl
  have horderly := h.statuses t _ hstatusOf
  rw [hsignalled] at horderly
  cases hstatus : task.status with
  | done => exact .inl rfl
  | exhausted => exact .inr rfl
  | queued =>
    have hmem := (h.hold.queue t).mpr (hstatus ▸ hstatusOf)
    simp [hqueue] at hmem
  | running holder =>
    cases holder with
    | worker w => exact absurd (.inl (hstatus ▸ hstatusOf)) (hnotHeld t w)
    | caller =>
      rw [hstatus] at horderly
      cases horderly
  | flushed holder =>
    cases holder with
    | worker w => exact absurd (.inr (hstatus ▸ hstatusOf)) (hnotHeld t w)
    | caller =>
      rw [hstatus] at horderly
      cases horderly
  | _ =>
    rw [hstatus] at horderly
    cases horderly

end

section
variable {φ : Type*} {cfg : Config} {json : φ → Option φ} {s t : State φ} {a : Action φ}

variable (cfg) in
def OrderlyStop (s : State φ) : Action φ → Prop
  | .pool a => s.pool.Polite cfg a
  | .flush key => s.pool.shutdown = true → s.mem.buffer.get key = []
  | .addFlush i => s.pool.shutdown = true → ∀ call, s.adds[i]? = some call →
      s.mem.buffer.get call.key = []
  | _ => True

lemma drainInv_triggerFlush (h : s.pool.DrainInv cfg) {key : String}
    (hg : s.pool.shutdown → s.mem.buffer.get key = []) :
    (s.triggerFlush cfg key).1.pool.DrainInv cfg := by
  unfold triggerFlush
  split
  · exact h
  · rename_i hrows
    refine h.newTask key _ _ ?_
    by_contra hshut
    exact hrows (hg (by simpa using hshut))

lemma drainInv_step (h : s.pool.DrainInv cfg) (hg : OrderlyStop cfg s a)
    (hs : Step cfg json s a t) : t.pool.DrainInv cfg := by
  cases hs with
  | addInsert | addAppend | addAppendFail | addRecord | addRollback | addReturn | tombstone
  | tombstoneFail | clearTable | recoveryCheck | recoveryTruncate => exact h
  | addFlush i call hcall => exact drainInv_triggerFlush h (fun hshut => hg hshut call hcall)
  | flush => exact drainInv_triggerFlush h hg
  | pool a p hpool => exact h.step hg (PoolStep.of_step hpool)
  | attemptOk n task p hpool => exact h.attemptOk hpool
  | truncate n removable task p hpool => exact h.finish hpool
  | remove =>
    unfold remove
    split <;> exact h
  | stop keys hstop => exact h.setStop (.flushing keys none) (by rw [hstop]; rfl) rfl
  | stopFlush key keys task hstop =>
    have hrunning : s.pool.shutdown = false := by
      rw [h.phase.shutdown, hstop]
      rfl
    have hflush : (s.triggerFlush cfg key).1.pool.DrainInv cfg :=
      drainInv_triggerFlush h (fun hshut => by rw [hrunning] at hshut; cases hshut)
    have hstop' : (s.triggerFlush cfg key).1.pool.stop = s.pool.stop := by
      unfold triggerFlush
      split <;> rfl
    exact hflush.setStop (.flushing keys (s.triggerFlush cfg key).2) (by rw [hstop', hstop]; rfl) rfl
  | restart => exact Pool.drainInv_init cfg

variable (cfg json)

/-- In every run whose steps meet the condition, nothing is sent on the closed queue and
nobody is about to, and when `Stop` has returned the queue is empty and every task was
flushed, or given up after its last retry and counted. -/
theorem stop_drains_tasks {dir : Directory (LogRecord (Payload (Entry φ)))} {name : ℕ}
    {as : List (Action φ)} {s : State φ} (hpool : 0 < cfg.workerPoolSize)
    (hg : Guarded (State.step cfg json) (OrderlyStop cfg) (State.boot cfg dir name) as)
    (hrun : exec (State.step cfg json) (State.boot cfg dir name) as = some s) :
    s.pool.panicked = false ∧
    (s.pool.queueClosed = true → ∀ task ∈ s.pool.tasks, task.status.sending = false) ∧
    (s.pool.stop = .returned → s.pool.queue = [] ∧
      (∀ task ∈ s.pool.tasks, task.status = .done ∨ task.status = .exhausted) ∧
      s.pool.failedTasks = s.pool.exhaustedTasks) := by
  have hinv : s.pool.DrainInv cfg :=
    exec_invariant (fun s => s.pool.DrainInv cfg)
      (fun _ _ _ h hg hs => drainInv_step h hg (Step.of_step hs)) (Pool.drainInv_init cfg) hg hrun
  refine ⟨hinv.calm, fun hclosed task hmem => ?_, fun hstop => ?_⟩
  · rcases (hinv.finished hpool hclosed).2 task hmem with hstatus | hstatus <;> rw [hstatus] <;> rfl
  · have hclosed : s.pool.queueClosed := by
      rw [hinv.phase.closed, hstop]
      rfl
    exact ⟨(hinv.finished hpool hclosed).1, (hinv.finished hpool hclosed).2, hinv.failed⟩

end

def orderlyStopCheck (s : State Unit) : Action Unit → Bool
  | .pool .signal => s.pool.tasks.all (fun task => !task.status.sending)
  | .pool (.attemptFailed _) | .flush _ | .addFlush _ => !s.pool.shutdown
  | .pool (.waitTimeout _) => false
  | _ => true

lemma orderlyStop_of_check (s : State Unit) (a : Action Unit) (h : orderlyStopCheck s a) :
    OrderlyStop oneDay s a := by
  have hcontra : (!s.pool.shutdown) = true → s.pool.shutdown → False := by
    intro hnot hshut
    rw [hshut] at hnot
    cases hnot
  cases a with
  | pool a =>
    cases a with
    | signal => exact fun task hmem => Bool.not_eq_true' _ ▸ all_eq_true.mp h task hmem
    | attemptFailed => exact fun hshut => (hcontra h hshut).elim
    | waitTimeout => cases h
    | _ => trivial
  | flush | addFlush => exact fun hshut => (hcontra h hshut).elim
  | _ => trivial

def stopWithOneTask : List (Action Unit) :=
  addOk 0 (order "u1") none ++ [.stop, .stopFlush, .pool (.submit 0), .pool (.take 0)]

def finishStop : List (Action Unit) :=
  [.pool .signal] ++
    (List.range 10).flatMap (fun w => [.pool (.workerShutdown w), .pool (.workerExit w)]) ++
    [.pool .closeQueue, .pool .stopReturn]

/-- The task is flushed before the signal: `Stop` returns with everything drained. -/
theorem stop_drains_tasks_flushed :
    (exec (State.step oneDay some) (State.boot oneDay Directory.empty 1)
        (stopWithOneTask ++ [.attemptOk 0, .truncate 0 (fun _ => true)] ++ finishStop)).map
      (fun s => s.pool.stop) = some .returned ∧
    ∀ s, exec (State.step oneDay some) (State.boot oneDay Directory.empty 1)
        (stopWithOneTask ++ [.attemptOk 0, .truncate 0 (fun _ => true)] ++ finishStop) = some s →
      s.pool.panicked = false ∧
      (s.pool.queueClosed = true → ∀ task ∈ s.pool.tasks, task.status.sending = false) ∧
      (s.pool.stop = .returned → s.pool.queue = [] ∧
        (∀ task ∈ s.pool.tasks, task.status = .done ∨ task.status = .exhausted) ∧
        s.pool.failedTasks = s.pool.exhaustedTasks) := by
  have hcheck : Guarded (step oneDay some) (fun s a => orderlyStopCheck s a = true)
      (boot oneDay Directory.empty 1)
      (stopWithOneTask ++ [.attemptOk 0, .truncate 0 (fun _ => true)] ++ finishStop) := by decide
  exact ⟨by decide, fun s hrun => stop_drains_tasks oneDay some (by decide)
    (hcheck.mono orderlyStop_of_check) hrun⟩

/-- `Stop` returns while a failed task waits for its retry, neither flushed nor counted, and the
retry goroutine then sends on the closed queue or gives the task up. -/
theorem stop_returns_before_retry :
    (exec (State.step oneDay some) (State.boot oneDay Directory.empty 1)
        (stopWithOneTask ++ [.pool (.attemptFailed 0)] ++ finishStop)).map
      (fun s => (s.pool.stop, s.pool.statusOf 0, s.pool.failedTasks)) =
        some (.returned, some .retrying, 0) ∧
    (exec (State.step oneDay some) (State.boot oneDay Directory.empty 1)
        (stopWithOneTask ++ [.pool (.attemptFailed 0)] ++ finishStop ++ [.pool (.retrySend 0)])).map
      (fun s => s.pool.panicked) = some true ∧
    (exec (State.step oneDay some) (State.boot oneDay Directory.empty 1)
        (stopWithOneTask ++ [.pool (.attemptFailed 0)] ++ finishStop ++
          [.pool (.retryAbandon 0)])).map
      (fun s => (s.pool.statusOf 0, s.pool.failedTasks)) = some (some .abandoned, 0) := by
  decide

/-- One iteration of the loop in `batchFlush`: a batch and the next position. -/
def batchStep (batchFlushSize : ℤ) (keys : List String) (i : ℤ) : Except String (Option (List String × ℤ)) :=
  if i < keys.length then
    let stop := min (i + batchFlushSize) keys.length
    if 0 ≤ i ∧ i ≤ stop then .ok (some ((keys.take stop.toNat).drop i.toNat, i + batchFlushSize))
    else .error "slice bounds out of range"
  else .ok none

/-- The keys for which `triggerFlush` is called from a position on. -/
def batchFlush (batchFlushSize : ℤ) (keys : List String) : ℕ → ℤ → Option (Except String (List String))
  | 0, _ => none
  | fuel + 1, i =>
    match batchStep batchFlushSize keys i with
    | .error e => some (.error e)
    | .ok none => some (.ok [])
    | .ok (some (batch, next)) => (batchFlush batchFlushSize keys fuel next).map (Except.map (batch ++ ·))

def flushAllBuffers (enableBatching : Bool) (batchFlushSize : ℤ) (fuel : ℕ) (keys : List String) :
    Option (Except String (List String)) :=
  if enableBatching = true ∧ batchFlushSize < keys.length then batchFlush batchFlushSize keys fuel 0
  else some (.ok keys)

variable {keys : List String} {fuel : ℕ}

lemma batchFlush_eq {size i : ℕ} (hsize : 0 < size) (hfuel : keys.length - i < fuel) :
    batchFlush size keys fuel i = some (.ok (keys.drop i)) := by
  induction fuel generalizing i with
  | zero => omega
  | succ fuel ih =>
    by_cases hi : i < keys.length
    · have htake : keys.take (min (i + size : ℤ) keys.length).toNat = keys.take (i + size) :=
        take_eq_take_iff.mpr (by omega)
      have hstep : batchStep size keys i = .ok (some ((keys.take (i + size)).drop i, (i + size : ℕ))) := by
        rw [batchStep, if_pos (by omega), if_pos (by omega), htake]
        rfl
      have hnext : batchFlush size keys fuel (i + size : ℕ) = _ := ih (by omega)
      simp only [batchFlush, hstep, hnext, drop_take, ← drop_drop, Nat.add_sub_cancel_left, Option.map_some,
        Except.map, take_append_drop]
    · have hstep : batchStep size keys i = .ok none := if_neg (by omega)
      rw [batchFlush, hstep, drop_eq_nil_of_le (not_lt.mp hi)]

end MinIODB.Buffer
