import MinIODB.Buffer.Pool

/-!
# Who has which task

Two invariants of the pool that hold in every run. The queue holds exactly the tasks
that are queued, and a task in the hands of a worker is the only one that worker has
while it is busy. The signal and the closing of the queue follow the steps of `Stop`,
and workers leave their main loop only after the signal.
-/
namespace MinIODB.Buffer
open List

def StopPhase.hasSignalled : StopPhase → Bool
  | .signalled | .closed | .returned => true
  | _ => false

def StopPhase.hasClosed : StopPhase → Bool
  | .closed | .returned => true
  | _ => false

lemma StopPhase.hasSignalled_of_hasClosed {stop : StopPhase} (h : stop.hasClosed) :
    stop.hasSignalled = true := by
  cases stop with
  | closed | returned => rfl
  | _ => cases h

def WorkerState.leaving : WorkerState → Bool
  | .draining | .drainBusy | .exited => true
  | _ => false

variable {ρ : Type*} {cfg : Config} {p p' : Pool ρ}

def Pool.HeldBy (p : Pool ρ) (t w : ℕ) : Prop :=
  p.statusOf t = some (.running (.worker w)) ∨ p.statusOf t = some (.flushed (.worker w))

def Pool.Moves (p p' : Pool ρ) (t : ℕ) (status : TaskStatus) : Prop :=
  ∀ j, p'.statusOf j = if j = t then some status else p.statusOf j

variable {t : ℕ} {task : FlushTask ρ} {status : TaskStatus}

lemma Pool.moves_setTask (task' : FlushTask ρ)
    (h : p.tasks[t]? = some task) : p.Moves (p.setTask t task') t task'.status := by
  have hlt := (List.getElem?_eq_some_iff.mp h).1
  intro j
  rw [Pool.statusOf, Pool.setTask]
  by_cases hj : j = t
  · rw [hj, getElem?_set_self hlt]
    simp
  · rw [getElem?_set_ne (Ne.symm hj), if_neg hj, Pool.statusOf]

lemma Pool.setStatus_eq (status : TaskStatus) (h : p.tasks[t]? = some task) :
    p.setStatus t status = p.setTask t { task with status := status } := by
  rw [Pool.setStatus, Pool.setTask]
  congr 1
  apply ext_getElem?
  intro j
  have hlt := (List.getElem?_eq_some_iff.mp h).1
  rw [getElem?_modify]
  by_cases hj : t = j
  · subst hj
    rw [getElem?_set_self hlt, h]
    simp
  · rw [getElem?_set_ne hj]
    simp [hj]

lemma Pool.moves_setStatus {old : TaskStatus} (status : TaskStatus)
    (h : p.statusOf t = some old) : p.Moves (p.setStatus t status) t status := by
  obtain ⟨task, htask, _⟩ := Pool.statusOf_eq_some h
  rw [Pool.setStatus_eq status htask]
  exact Pool.moves_setTask _ htask

lemma Pool.statusOf_newTask (p : Pool ρ) (key : String) (rows : List ρ) (n j : ℕ) :
    (p.newTask key rows n).statusOf j =
      if j = p.tasks.length then some .selecting else p.statusOf j := by
  rw [Pool.statusOf, Pool.newTask]
  by_cases hj : j = p.tasks.length
  · rw [hj, getElem?_concat_length]
    simp
  · rw [if_neg hj, Pool.statusOf]
    rcases lt_or_gt_of_ne hj with hlt | hgt
    · rw [getElem?_append_left hlt]
    · rw [getElem?_eq_none (by simp; omega), getElem?_eq_none hgt.le]

section
variable (p) (h : Holder)

lemma Pool.release_eq : p.release h = { p with workers := (p.release h).workers } := by
  cases h with
  | caller => rfl
  | worker =>
    simp only [Pool.release]
    split <;> rfl

@[simp] theorem Pool.release_frame : (p.release h).queue = p.queue ∧ (p.release h).shutdown = p.shutdown ∧
    (p.release h).queueClosed = p.queueClosed ∧ (p.release h).panicked = p.panicked ∧
      (p.release h).failedTasks = p.failedTasks ∧ (p.release h).stop = p.stop := by
  rw [p.release_eq h]
  exact ⟨rfl, rfl, rfl, rfl, rfl, rfl⟩

@[simp] theorem Pool.release_length : (p.release h).workers.length = p.workers.length := by
  cases h with
  | caller => rfl
  | worker =>
    simp only [Pool.release]
    split <;> simp [Pool.setWorker]

@[simp] theorem Pool.statusOf_release (t : ℕ) : (p.release h).statusOf t = p.statusOf t := by
  simp [Pool.statusOf]

lemma Pool.getElem?_release {w : ℕ} (hw : h ≠ .worker w) :
    (p.release h).workers[w]? = p.workers[w]? := by
  cases h with
  | caller => rfl
  | worker w' =>
    have hne : w' ≠ w := fun heq => hw (heq ▸ rfl)
    simp only [Pool.release]
    split
    · exact getElem?_set_ne hne
    · exact getElem?_set_ne hne
    · rfl

lemma Pool.mem_release {state : WorkerState} (hmem : state ∈ (p.release h).workers) :
    state ∈ p.workers ∨ (state = .idle ∧ .busy ∈ p.workers) ∨
      (state = .draining ∧ .drainBusy ∈ p.workers) := by
  cases h with
  | caller => exact .inl hmem
  | worker w =>
    simp only [Pool.release] at hmem
    split at hmem
    · rename_i hbusy
      rcases mem_or_eq_of_mem_set hmem with hmem | rfl
      · exact .inl hmem
      · exact .inr (.inl ⟨rfl, mem_of_getElem? hbusy⟩)
    · rename_i hbusy
      rcases mem_or_eq_of_mem_set hmem with hmem | rfl
      · exact .inl hmem
      · exact .inr (.inr ⟨rfl, mem_of_getElem? hbusy⟩)
    · exact .inl hmem

end

structure Pool.HoldInv (p : Pool ρ) : Prop where
  queue : ∀ t, t ∈ p.queue ↔ p.statusOf t = some .queued
  nodup : p.queue.Nodup
  held : ∀ t w, p.HeldBy t w →
    p.workers[w]? = some .busy ∨ p.workers[w]? = some .drainBusy
  alone : ∀ t t' w, p.HeldBy t w → p.HeldBy t' w → t = t'

def TaskStatus.free : TaskStatus → Bool
  | .queued | .running (.worker _) | .flushed (.worker _) => false
  | _ => true

lemma Pool.Moves.heldBy_of_free (hm : p.Moves p' t status)
    (hfree : status.free) {j w : ℕ} (h : p'.HeldBy j w) : j ≠ t ∧ p.HeldBy j w := by
  have hj : j ≠ t := by
    rintro rfl
    rcases h with h | h
    all_goals
      rw [hm j, if_pos rfl] at h
      cases h
      cases hfree
  refine ⟨hj, ?_⟩
  unfold Pool.HeldBy at h
  rwa [hm j, if_neg hj] at h

lemma Pool.Moves.queued_iff (hm : p.Moves p' t status)
    (hstatus : status ≠ .queued) (hold : p.statusOf t ≠ some .queued) (j : ℕ) :
    p'.statusOf j = some .queued ↔ p.statusOf j = some .queued := by
  rw [hm j]
  split
  · rename_i hj
    subst hj
    simp [hstatus, hold]
  · rfl

namespace Pool.HoldInv

lemma keep (h : p.HoldInv) (hqueue : p'.queue = p.queue) (hworkers : p'.workers = p.workers)
    (hqueued : ∀ j, p'.statusOf j = some .queued ↔ p.statusOf j = some .queued)
    (hheld : ∀ j w, p'.HeldBy j w → p.HeldBy j w) : p'.HoldInv := by
  refine ⟨fun j => ?_, hqueue ▸ h.nodup, fun j w hj => hworkers ▸ h.held j w (hheld j w hj),
    fun j j' w hj hj' => h.alone j j' w (hheld j w hj) (hheld j' w hj')⟩
  rw [hqueue, h.queue, hqueued]

variable {t w : ℕ} {status : TaskStatus} {holder : Holder} {before : WorkerState}
    {task : FlushTask ρ}

lemma move (h : p.HoldInv) (hm : p.Moves p' t status)
    (hold : p.statusOf t ≠ some .queued) (hfree : status.free)
    (hqueue : p'.queue = p.queue) (hworkers : p'.workers = p.workers) : p'.HoldInv := by
  have hstatus : status ≠ .queued := by
    rintro rfl
    cases hfree
  exact h.keep hqueue hworkers (hm.queued_iff hstatus hold)
    (fun j w hj => (hm.heldBy_of_free hfree hj).2)

lemma flushed (h : p.HoldInv) (hm : p.Moves p' t (.flushed holder))
    (hold : p.statusOf t = some (.running holder)) (hqueue : p'.queue = p.queue)
    (hworkers : p'.workers = p.workers) : p'.HoldInv := by
  refine h.keep hqueue hworkers (hm.queued_iff (by simp) (by simp [hold])) (fun j w hj => ?_)
  unfold Pool.HeldBy at hj
  rw [hm j] at hj
  split at hj
  · rename_i hjt
    rcases hj with hj | hj
    · cases hj
    · cases hj
      exact .inl (hjt ▸ hold)
  · exact hj

lemma enqueue (h : p.HoldInv) (hm : p.Moves p' t .queued)
    (hold : p.statusOf t ≠ some .queued) (hqueue : p'.queue = p.queue ++ [t])
    (hworkers : p'.workers = p.workers) : p'.HoldInv := by
  have hheld : ∀ {j w : ℕ}, p'.HeldBy j w → p.HeldBy j w := by
    intro j w hj
    unfold Pool.HeldBy at hj ⊢
    rw [hm j] at hj
    split at hj
    · rcases hj with hj | hj <;> cases hj
    · exact hj
  refine ⟨fun j => ?_, ?_, fun j w hj => hworkers ▸ h.held j w (hheld hj),
    fun j j' w hj hj' => h.alone j j' w (hheld hj) (hheld hj')⟩
  · rw [hqueue, hm j, mem_append, mem_singleton, h.queue]
    by_cases hj : j = t
    · simp [hj]
    · simp [hj]
  · rw [hqueue]
    refine nodup_append'.mpr ⟨h.nodup, nodup_singleton t, fun j hj hjt => ?_⟩
    rw [mem_singleton.mp hjt, h.queue] at hj
    exact hold hj

lemma not_heldBy {state : WorkerState} (h : p.HoldInv) (hstate : p.workers[w]? = some state)
    (hidle : state ≠ .busy ∧ state ≠ .drainBusy) (j : ℕ) : ¬p.HeldBy j w := by
  intro hj
  rcases h.held j w hj with hw | hw
  · exact hidle.1 (Option.some.inj (hstate.symm.trans hw))
  · exact hidle.2 (Option.some.inj (hstate.symm.trans hw))

lemma take {queue : List ℕ} {after : WorkerState} (h : p.HoldInv)
    (hm : p.Moves p' t (.running (.worker w))) (hqueue : p.queue = t :: queue)
    (hqueue' : p'.queue = queue) (hworkers : p'.workers = p.workers.set w after)
    (hbefore : p.workers[w]? = some before) (hidle : before ≠ .busy ∧ before ≠ .drainBusy)
    (hbusy : after = .busy ∨ after = .drainBusy) : p'.HoldInv := by
  have hnodup := h.nodup
  rw [hqueue, nodup_cons] at hnodup
  have hheld : ∀ {j w' : ℕ}, p'.HeldBy j w' → (j = t ∧ w' = w) ∨ (w' ≠ w ∧ p.HeldBy j w') := by
    intro j w' hj
    unfold Pool.HeldBy at hj
    rw [hm j] at hj
    split at hj
    · rename_i hjt
      rcases hj with hj | hj
      · cases hj
        exact .inl ⟨hjt, rfl⟩
      · cases hj
    · refine .inr ⟨?_, hj⟩
      rintro rfl
      exact h.not_heldBy hbefore hidle j hj
  have hlt := (List.getElem?_eq_some_iff.mp hbefore).1
  refine ⟨fun j => ?_, hqueue' ▸ hnodup.2, fun j w' hj => ?_, fun j j' w' hj hj' => ?_⟩
  · rw [hqueue', hm j]
    split
    · rename_i hj
      subst hj
      simp [hnodup.1]
    · rename_i hj
      rw [← h.queue, hqueue]
      simp [hj]
  · rcases hheld hj with ⟨_, rfl⟩ | ⟨hne, hold⟩
    · rw [hworkers, getElem?_set_self hlt]
      rcases hbusy with rfl | rfl
      · exact .inl rfl
      · exact .inr rfl
    · rw [hworkers, getElem?_set_ne (Ne.symm hne)]
      exact h.held j w' hold
  · rcases hheld hj with ⟨rfl, rfl⟩ | ⟨hne, hold⟩
    · rcases hheld hj' with ⟨rfl, _⟩ | ⟨hne, _⟩
      · rfl
      · exact absurd rfl hne
    · rcases hheld hj' with ⟨_, rfl⟩ | ⟨_, hold'⟩
      · exact absurd rfl hne
      · exact h.alone j j' w' hold hold'

lemma release (h : p.HoldInv) (hm : p.Moves p' t status) (hfree : status.free)
    (hholder : p.statusOf t = some (.running holder) ∨ p.statusOf t = some (.flushed holder))
    (hqueue : p'.queue = p.queue) (hworkers : p'.workers = p.workers) :
    (p'.release holder).HoldInv := by
  have hstatus : status ≠ .queued := by
    rintro rfl
    cases hfree
  have hold : p.statusOf t ≠ some .queued := by
    rcases hholder with hh | hh <;> simp [hh]
  have hheld : ∀ {j w : ℕ}, (p'.release holder).HeldBy j w → j ≠ t ∧ p.HeldBy j w := by
    intro j w hj
    unfold Pool.HeldBy at hj
    rw [Pool.statusOf_release] at hj
    exact hm.heldBy_of_free hfree hj
  refine ⟨fun j => ?_, by simpa [hqueue] using h.nodup, fun j w hj => ?_,
    fun j j' w hj hj' => h.alone j j' w (hheld hj).2 (hheld hj').2⟩
  · rw [(Pool.release_frame ..).1, Pool.statusOf_release, hqueue, h.queue, hm.queued_iff hstatus hold]
  · obtain ⟨hne, hold⟩ := hheld hj
    -- another task of the same worker would be this one
    have hother : holder ≠ .worker w := by
      rintro rfl
      exact hne (h.alone j t w hold hholder)
    rw [Pool.getElem?_release _ _ hother, hworkers]
    exact h.held j w hold

lemma setWorker (h : p.HoldInv) (after : WorkerState)
    (hbefore : p.workers[w]? = some before) (hidle : before ≠ .busy ∧ before ≠ .drainBusy) :
    (p.setWorker w after).HoldInv := by
  refine ⟨h.queue, h.nodup, fun j w' hj => ?_, h.alone⟩
  have hne : w ≠ w' := by
    rintro rfl
    exact h.not_heldBy hbefore hidle j hj
  rw [Pool.setWorker, getElem?_set_ne hne]
  exact h.held j w' hj

lemma newTask (h : p.HoldInv) (key : String) (rows : List ρ) (n : ℕ) :
    (p.newTask key rows n).HoldInv := by
  have hnone : p.statusOf p.tasks.length = none := by
    simp [Pool.statusOf]
  refine h.keep rfl rfl (fun j => ?_) (fun j w hj => ?_)
  · rw [Pool.statusOf_newTask]
    split
    · rename_i hj
      simp [hj, hnone]
    · rfl
  · unfold Pool.HeldBy at hj
    rw [Pool.statusOf_newTask] at hj
    split at hj
    · rcases hj with hj | hj <;> cases hj
    · exact hj

lemma step {a : PoolAction} (h : p.HoldInv) (hs : PoolStep cfg p a p') : p'.HoldInv := by
  cases hs with
  | submit t hstatus =>
    rcases hstatus with hstatus | hstatus
    all_goals
      exact h.enqueue (Pool.moves_setStatus .queued hstatus) (by simp [hstatus]) rfl rfl
  | submitPanic | retryPanic | signal | closeQueue | stopReturn =>
    exact h.keep rfl rfl (fun _ => Iff.rfl) (fun _ _ => id)
  | flushInline t hstatus | wait t hstatus | waitShutdown t hstatus | retryAbandon t hstatus =>
    exact h.move (Pool.moves_setStatus _ hstatus) (by simp [hstatus]) rfl rfl rfl
  | waitTimeout t hstatus =>
    exact h.move (Pool.moves_setStatus .dropped hstatus) (by simp [hstatus]) rfl rfl rfl
  | take w t queue before after hqueue hworker hstate =>
    have hqueued : p.statusOf t = some .queued := (h.queue t).mp (by simp [hqueue])
    refine h.take (Pool.moves_setStatus (.running (.worker w)) hqueued) hqueue rfl rfl hworker ?_ ?_
    · rcases hstate with ⟨rfl, _⟩ | ⟨rfl, _⟩ <;> simp
    · rcases hstate with ⟨_, rfl⟩ | ⟨_, rfl⟩ <;> simp
  | retry t task holder htask hstatus | exhaust t task holder htask hstatus =>
    exact h.release (Pool.moves_setTask _ htask) rfl (.inl (Pool.statusOf_of_task htask hstatus)) rfl
      rfl
  | retrySend t hstatus =>
    exact h.enqueue (Pool.moves_setStatus .queued hstatus) (by simp [hstatus]) rfl rfl
  | workerShutdown w hworker => exact h.setWorker .draining hworker (by simp)
  | workerExit w hworker => exact h.setWorker .exited hworker (by simp)

lemma attemptOk (h : p.HoldInv) (hs : p.attemptOk t = some (task, p')) : p'.HoldInv := by
  obtain ⟨holder, htask, hstatus, rfl⟩ := Pool.attemptOk_eq hs
  have hold := Pool.statusOf_of_task htask hstatus
  exact h.flushed (Pool.moves_setStatus _ hold) hold rfl rfl

lemma finish (h : p.HoldInv) (hs : p.finish t = some (task, p')) : p'.HoldInv := by
  obtain ⟨holder, htask, hstatus, rfl⟩ := Pool.finish_eq hs
  have hold := Pool.statusOf_of_task htask hstatus
  exact h.release (Pool.moves_setStatus .done hold) rfl (.inr hold) rfl rfl

end Pool.HoldInv

variable (cfg) in
structure Pool.PhaseInv (p : Pool ρ) : Prop where
  workers : p.workers.length = cfg.workerPoolSize
  shutdown : p.shutdown = p.stop.hasSignalled
  closed : p.queueClosed = p.stop.hasClosed
  leaving : ∀ state ∈ p.workers, state.leaving = true → p.shutdown = true
  exited : p.queueClosed = true → ∀ state ∈ p.workers, state = .exited

namespace Pool.PhaseInv

lemma shutdown_of_closed (h : p.PhaseInv cfg) (hclosed : p.queueClosed) : p.shutdown = true := by
  rw [h.closed] at hclosed
  rw [h.shutdown]
  exact StopPhase.hasSignalled_of_hasClosed hclosed

lemma keep (h : p.PhaseInv cfg) (hlength : p'.workers.length = p.workers.length)
    (hshutdown : p'.shutdown = p.shutdown) (hclosed : p'.queueClosed = p.queueClosed)
    (hstop : p'.stop = p.stop) (hworkers : ∀ state ∈ p'.workers, state ∈ p.workers ∨
      ∃ before ∈ p.workers, before ≠ .exited ∧ (state.leaving → p.shutdown)) : p'.PhaseInv cfg := by
  refine ⟨hlength.trans h.workers, ?_, ?_, fun state hmem hleaving => ?_, fun hqueue state hmem => ?_⟩
  · rw [hshutdown, hstop, h.shutdown]
  · rw [hclosed, hstop, h.closed]
  · rw [hshutdown]
    rcases hworkers state hmem with hmem | ⟨_, _, _, hsignal⟩
    · exact h.leaving state hmem hleaving
    · exact hsignal hleaving
  · rw [hclosed] at hqueue
    rcases hworkers state hmem with hmem | ⟨before, hbefore, hne, _⟩
    · exact h.exited hqueue state hmem
    · exact absurd (h.exited hqueue before hbefore) hne

lemma same (h : p.PhaseInv cfg) (hworkers : p'.workers = p.workers)
    (hshutdown : p'.shutdown = p.shutdown) (hclosed : p'.queueClosed = p.queueClosed)
    (hstop : p'.stop = p.stop) : p'.PhaseInv cfg :=
  h.keep (hworkers ▸ rfl) hshutdown hclosed hstop (fun _ hmem => .inl (hworkers ▸ hmem))

lemma release (h : p.PhaseInv cfg) (holder : Holder) : (p.release holder).PhaseInv cfg := by
  refine h.keep (by simp) (by simp) (by simp) (by simp) (fun state hmem => ?_)
  rcases p.mem_release holder hmem with hmem | ⟨rfl, hbusy⟩ | ⟨rfl, hbusy⟩
  · exact .inl hmem
  · exact .inr ⟨_, hbusy, by simp, fun hleaving => by cases hleaving⟩
  · exact .inr ⟨_, hbusy, by simp, fun _ => h.leaving _ hbusy rfl⟩

lemma setWorker {w : ℕ} {before : WorkerState} (h : p.PhaseInv cfg) (after : WorkerState)
    (hbefore : p.workers[w]? = some before) (hne : before ≠ .exited)
    (hleaving : after.leaving → p.shutdown) : (p.setWorker w after).PhaseInv cfg := by
  refine h.keep (by simp [Pool.setWorker]) rfl rfl rfl (fun state hmem => ?_)
  rcases mem_or_eq_of_mem_set hmem with hmem | rfl
  · exact .inl hmem
  · exact .inr ⟨before, mem_of_getElem? hbefore, hne, hleaving⟩

lemma step {a : PoolAction} (h : p.PhaseInv cfg) (hs : PoolStep cfg p a p') :
    p'.PhaseInv cfg := by
  cases hs with
  | submit | submitPanic | flushInline | wait | waitShutdown | waitTimeout | retrySend
  | retryPanic | retryAbandon => exact h.same rfl rfl rfl rfl
  | take w t queue before after hqueue hworker hstate =>
    have htaken : ({ p.setStatus t (.running (.worker w)) with queue := queue } : Pool ρ).PhaseInv cfg :=
      h.same rfl rfl rfl rfl
    refine htaken.setWorker after hworker ?_ ?_
    · rcases hstate with ⟨rfl, _⟩ | ⟨rfl, _⟩ <;> simp
    · rcases hstate with ⟨_, rfl⟩ | ⟨rfl, _⟩
      · exact fun hleaving => by cases hleaving
      · exact fun _ => h.leaving _ (mem_of_getElem? hworker) rfl
  | retry t task holder | exhaust t task holder =>
    refine release ?_ holder
    exact h.same rfl rfl rfl rfl
  | workerShutdown w hworker hshut => exact h.setWorker .draining hworker (by simp) (fun _ => hshut)
  | workerExit w hworker =>
    exact h.setWorker .exited hworker (by simp)
      (fun _ => h.leaving _ (mem_of_getElem? hworker) rfl)
  | signal task hstop =>
    have hopen : p.queueClosed = false := by
      rw [h.closed, hstop]
      rfl
    exact ⟨h.workers, rfl, hopen, fun _ _ _ => rfl,
      fun hclosed => absurd (hopen.symm.trans hclosed) (by simp)⟩
  | closeQueue hstop hexited =>
    refine ⟨h.workers, ?_, rfl, h.leaving, fun _ => hexited⟩
    rw [h.shutdown, hstop]
    rfl
  | stopReturn hstop =>
    refine ⟨h.workers, ?_, ?_, h.leaving, h.exited⟩
    · rw [h.shutdown, hstop]
      rfl
    · rw [h.closed, hstop]
      rfl

end Pool.PhaseInv

variable (cfg) in
lemma Pool.holdInv_init : (Pool.init cfg : Pool ρ).HoldInv := by
  have hnone : ∀ t, (Pool.init cfg : Pool ρ).statusOf t = none := fun t => rfl
  refine ⟨fun t => ?_, nodup_nil, fun t w hheld => ?_, fun t t' w hheld => ?_⟩
  · rw [hnone]
    simp [Pool.init]
  all_goals rcases hheld with hheld | hheld <;> cases hheld

variable (cfg) in
lemma Pool.phaseInv_init : (Pool.init cfg : Pool ρ).PhaseInv cfg := by
  refine ⟨by simp [Pool.init], rfl, rfl, fun state hmem hleaving => ?_, fun hclosed => by cases hclosed⟩
  rw [eq_of_mem_replicate hmem] at hleaving
  cases hleaving

end MinIODB.Buffer
