import MinIODB.Library.Transition

/-!
# The circuit breaker

An `Execute` call has a section that admits it and a section that processes its outcome, and
the operation runs in between; sections of different calls come in any order. All states share
the counters. The log records, newest first, every section with the state before and after it.
-/
namespace MinIODB.Retry
open Transition

structure CircuitBreakerConfig where
  failureThreshold : ℤ
  recoveryTimeout : ℤ
  successThreshold : ℤ
  requestVolumeThreshold : ℤ

inductive CircuitBreakerState where
  | closed
  | opened
  | halfOpen
  deriving DecidableEq

structure CircuitBreaker where
  state : CircuitBreakerState
  failures : ℕ
  successes : ℕ
  requests : ℕ
  lastFailTime : ℤ

variable (cfg : CircuitBreakerConfig)

/-- The first section of `Execute`, and whether it starts the operation. -/
def CircuitBreaker.enter (cb : CircuitBreaker) (now : ℤ) : CircuitBreaker × Bool :=
  if cb.state = .opened then
    if cfg.recoveryTimeout < now - cb.lastFailTime then
      ({ cb with state := .halfOpen, successes := 0, requests := cb.requests + 1 }, true)
    else (cb, false)
  else ({ cb with requests := cb.requests + 1 }, true)

def CircuitBreaker.onFailure (cb : CircuitBreaker) (now : ℤ) : CircuitBreaker :=
  { cb with
    failures := cb.failures + 1
    lastFailTime := now
    state :=
      match cb.state with
      | .closed =>
        if cfg.requestVolumeThreshold ≤ cb.requests ∧ cfg.failureThreshold ≤ cb.failures + 1 then
          .opened
        else .closed
      | .halfOpen | .opened => .opened }

def CircuitBreaker.onSuccess (cb : CircuitBreaker) : CircuitBreaker :=
  match cb.state with
  | .halfOpen =>
    if cfg.successThreshold ≤ cb.successes + 1 then
      { cb with state := .closed, failures := 0, requests := 0, successes := cb.successes + 1 }
    else { cb with successes := cb.successes + 1 }
  | .closed => { cb with failures := 0 }
  | .opened => cb

inductive Section where
  | entered (now : ℤ) (started : Bool)
  | failed (now : ℤ)
  | succeeded
  | reset

structure Entry where
  what : Section
  before : CircuitBreakerState
  after : CircuitBreakerState

structure System where
  breaker : CircuitBreaker
  running : ℕ
  log : List Entry

inductive Action where
  | enter (now : ℤ)
  | complete (err : Bool) (now : ℤ)
  | reset

def System.record (s : System) (cb : CircuitBreaker) (running : ℕ) (e : Section) : System :=
  ⟨cb, running, ⟨e, s.breaker.state, cb.state⟩ :: s.log⟩

def System.step (s : System) : Action → Option System
  | .enter now =>
    let (cb, started) := s.breaker.enter cfg now
    some (s.record cb (if started then s.running + 1 else s.running) (.entered now started))
  | .complete err now =>
    if s.running = 0 then none
    else if err then some (s.record (s.breaker.onFailure cfg now) (s.running - 1) (.failed now))
    else some (s.record (s.breaker.onSuccess cfg) (s.running - 1) .succeeded)
  | .reset => some (s.record ⟨.closed, 0, 0, 0, s.breaker.lastFailTime⟩ s.running .reset)

def newSystem : System := ⟨⟨.closed, 0, 0, 0, 0⟩, 0, []⟩

/-- The closed state is entered, or set by `Reset`. -/
def Entry.closes (e : Entry) : Bool :=
  match e.what with
  | .reset => true
  | _ => e.before != .closed && e.after == .closed

/-- The failures processed in the closed state since a success in it or since it was entered. -/
def failuresSince : List Entry → ℕ
  | [] => 0
  | e :: log =>
    if e.closes then 0
    else match e.what, e.before with
      | .succeeded, .closed => 0
      | .failed _, .closed => failuresSince log + 1
      | _, _ => failuresSince log

def admissionsSince : List Entry → ℕ
  | [] => 0
  | e :: log =>
    if e.closes then 0
    else match e.what with
      | .entered _ true => admissionsSince log + 1
      | _ => admissionsSince log

def lastFailure : List Entry → Option ℤ
  | [] => none
  | ⟨.failed now, _, _⟩ :: _ => some now
  | _ :: log => lastFailure log

/-- What a section may do, by the sections before it. -/
structure Rule (e : Entry) (earlier : List Entry) : Prop where
  starts : ∀ now, e.what = .entered now true → e.before = .opened →
    ∃ t ∈ lastFailure earlier, cfg.recoveryTimeout < now - t
  opens : e.before = .closed → (e.after = .opened ↔ (∃ now, e.what = .failed now) ∧
    cfg.requestVolumeThreshold ≤ admissionsSince earlier ∧
    cfg.failureThreshold ≤ failuresSince (e :: earlier))
  reopens : ∀ now, e.what = .failed now → e.before = .halfOpen → e.after = .opened

structure System.Inv (s : System) : Prop where
  counters : s.breaker.state = .closed →
    s.breaker.failures = failuresSince s.log ∧ s.breaker.requests = admissionsSince s.log
  last : ∀ t ∈ lastFailure s.log, s.breaker.lastFailTime = t
  failed : s.breaker.state = .opened → lastFailure s.log ≠ none
  rules : ∀ e earlier, e :: earlier <:+ s.log → Rule cfg e earlier

variable {cfg}
open CircuitBreaker

lemma System.Inv.record {s : System} {cb : CircuitBreaker} {running : ℕ} {e : Section}
    (h : s.Inv cfg) (hrule : Rule cfg ⟨e, s.breaker.state, cb.state⟩ s.log)
    (hcounters : cb.state = .closed → cb.failures = failuresSince (s.record cb running e).log ∧
      cb.requests = admissionsSince (s.record cb running e).log)
    (hlast : ∀ t ∈ lastFailure (s.record cb running e).log, cb.lastFailTime = t)
    (hfailed : cb.state = .opened → lastFailure (s.record cb running e).log ≠ none) :
    (s.record cb running e).Inv cfg := by
  refine ⟨hcounters, hlast, hfailed, fun e' earlier hsuffix => ?_⟩
  obtain heq | hsuffix := List.suffix_cons_iff.mp hsuffix
  · cases heq
    exact hrule
  · exact h.rules e' earlier hsuffix

open CircuitBreaker

lemma System.Inv.step {s s' : System} {a : Action} (h : s.Inv cfg)
    (hs : s.step cfg a = some s') : s'.Inv cfg := by
  obtain ⟨hcount, hlast, hfailed, -⟩ := id h
  cases a with
  | enter now =>
    simp only [System.step, enter] at hs
    split at hs
    · rename_i hopen
      split at hs <;> cases hs
      · rename_i htime
        obtain ⟨t, ht⟩ := Option.ne_none_iff_exists'.mp (hfailed hopen)
        refine h.record ⟨?_, by simp [hopen], nofun⟩ nofun hlast nofun
        rintro _ ⟨⟩ -
        exact ⟨t, ht, hlast t ht ▸ htime⟩
      · exact h.record ⟨nofun, by simp [hopen], nofun⟩ (by simp [hopen]) hlast hfailed
    · rename_i hopen
      cases hs
      refine h.record ⟨by simp [hopen], by simp +contextual, nofun⟩ (fun hclosed => ?_) hlast
        (fun h => (hopen h).elim)
      replace hclosed : s.breaker.state = .closed := hclosed
      simp [System.record, failuresSince, admissionsSince, Entry.closes, hclosed, hcount]
  | complete err now =>
    simp only [System.step] at hs
    split at hs
    · cases hs
    split at hs <;> cases hs
    · refine h.record ⟨nofun, ?_, ?_⟩ ?_ (by simp [System.record, lastFailure, onFailure])
          (by simp [System.record, lastFailure]) <;>
        cases hstate : s.breaker.state <;>
        simp [onFailure, hstate, System.record, failuresSince, admissionsSince, Entry.closes, hcount]
    · refine h.record ⟨nofun, ?_, nofun⟩ ?_ ?_ ?_ <;> simp only [onSuccess] <;> split <;>
        rename_i hstate <;> try split
      all_goals simp_all [System.record, lastFailure, failuresSince, admissionsSince, Entry.closes]
  | reset =>
    cases hs
    exact h.record ⟨nofun, by simp, nofun⟩ (fun _ => ⟨rfl, rfl⟩) hlast nofun

/-- Over every run, whatever the clock reads: an operation starts in the open state only later
than the recovery timeout after the last failure, the closed state opens exactly at a failure
that makes both counts reach their thresholds, and a failure in the half-open state opens. -/
theorem breaker_opens_by_rule {as : List Action} {s : System} {e : Entry} {earlier : List Entry}
    (hrun : exec (System.step cfg) newSystem as = some s) (he : e :: earlier <:+ s.log) :
    Rule cfg e earlier := by
  have hinit : newSystem.Inv cfg := ⟨fun _ => ⟨rfl, rfl⟩, nofun, nofun, by simp [newSystem]⟩
  exact (exec_preserves (fun _ _ _ h hs => h.step hs) hinit hrun).rules e earlier he

theorem breaker_opens_by_rule_one :
    Rule ⟨1, 5, 1, 1⟩ ⟨.failed 3, .closed, .opened⟩ [⟨.entered 2 true, .closed, .closed⟩] :=
  breaker_opens_by_rule
    (show exec (System.step _) newSystem [.enter 2, .complete true 3] = some _ from rfl)
    (List.suffix_refl _)

/-! ## Probes -/

/-- The breaker, the number of its half-open periods so far, the period in which each running operation
was admitted (if half-open), and the outcomes of those that were admitted in the last period. -/
structure Probing where
  breaker : CircuitBreaker
  period : ℕ
  running : List (Option ℕ)
  succeeded : ℕ
  failed : ℕ

inductive ProbeAction where
  | enter (now : ℤ)
  | complete (i : ℕ) (err : Bool) (now : ℤ)

namespace Probing
open CircuitBreaker

def new : Probing := ⟨newSystem.breaker, 0, [], 0, 0⟩

def step (cfg : CircuitBreakerConfig) (s : Probing) : ProbeAction → Option Probing
  | .enter now =>
    let (cb, started) := s.breaker.enter cfg now
    if started = false then some { s with breaker := cb }
    else if s.breaker.state = .opened then some ⟨cb, s.period + 1, some (s.period + 1) :: s.running, 0, 0⟩
    else
      let admitted := if cb.state = .halfOpen then some s.period else none
      some { s with breaker := cb, running := admitted :: s.running }
  | .complete i err now =>
    s.running[i]?.map (fun admitted =>
      let probes := if admitted = some s.period then 1 else 0
      let s := { s with running := s.running.eraseIdx i }
      if err then { s with breaker := s.breaker.onFailure cfg now, failed := s.failed + probes }
      else { s with breaker := s.breaker.onSuccess cfg, succeeded := s.succeeded + probes })

/-- An operation that succeeds in the half-open state was admitted in the same period. -/
def Punctual (s : Probing) : ProbeAction → Prop
  | .enter _ => True
  | .complete i err _ => err = false → s.breaker.state = .halfOpen → s.running[i]? = some (some s.period)

instance (s : Probing) : ∀ a, Decidable (s.Punctual a)
  | .enter _ => isTrue trivial
  | .complete _ _ _ => inferInstanceAs (Decidable (_ → _ → _))

def Counted (s : Probing) : Prop :=
  s.breaker.state = .halfOpen → s.breaker.successes = s.succeeded ∧ s.failed = 0

variable {s s' : Probing} {a : ProbeAction}

lemma Counted.step (h : s.Counted) (ha : s.Punctual a) (hs : s.step cfg a = some s') :
    s'.Counted ∧ (s.breaker.state = .halfOpen → s'.breaker.state = .closed →
      cfg.successThreshold ≤ s'.succeeded ∧ s'.failed = 0) := by
  cases a with
  | enter now =>
    by_cases hopen : s.breaker.state = .opened
    · by_cases htime : cfg.recoveryTimeout < now - s.breaker.lastFailTime
      · simp only [Probing.step, enter, hopen, htime, if_true] at hs
        cases hs
        exact ⟨fun _ => ⟨rfl, rfl⟩, by simp [hopen]⟩
      · simp only [Probing.step, enter, hopen, htime, if_true, if_false] at hs
        cases hs
        exact ⟨h, by simp [hopen]⟩
    · simp only [Probing.step, enter, hopen, if_false] at hs
      cases hs
      exact ⟨h, fun hhalf hclosed => absurd (hhalf.symm.trans hclosed) nofun⟩
  | complete i err now =>
    obtain ⟨admitted, hi, rfl⟩ := Option.map_eq_some_iff.mp hs
    cases hstate : s.breaker.state with
    | closed | opened => cases err <;> simp [Counted, onFailure, onSuccess, hstate] <;> split <;> simp
    | halfOpen =>
      obtain ⟨hsuccesses, hfailed⟩ := h hstate
      cases err with
      | true => simp [Counted, onFailure, hstate]
      | false =>
        cases hi.symm.trans (ha rfl hstate)
        by_cases hlast : cfg.successThreshold ≤ s.succeeded + 1 <;>
          simp [Counted, onSuccess, hstate, hsuccesses, hlast, hfailed]

/-- If only probes of the same period succeed in the half-open state, the breaker closes after enough
of them have succeeded and none has failed. -/
theorem closes_on_probes {as : List ProbeAction} (hrun : exec (step cfg) new as = some s)
    (hpunctual : Guarded (step cfg) Punctual new as) (ha : s.Punctual a) (hs : s.step cfg a = some s')
    (hhalf : s.breaker.state = .halfOpen) (hclosed : s'.breaker.state = .closed) :
    cfg.successThreshold ≤ s'.succeeded ∧ s'.failed = 0 := by
  have hcounted := exec_invariant _ (fun _ _ _ h ha hs => (h.step ha hs).1) (show new.Counted from nofun)
    hpunctual hrun
  exact (hcounted.step ha hs).2 hhalf hclosed

theorem closes_on_probes_one : ∃ s, exec (step ⟨1, 5, 1, 1⟩) new
      [.enter 0, .complete 0 true 1, .enter 10, .complete 0 false 11] = some s ∧ (1 : ℤ) ≤ s.succeeded :=
  ⟨_, rfl, (closes_on_probes
    (show exec (step ⟨1, 5, 1, 1⟩) new [.enter 0, .complete 0 true 1, .enter 10] = some _ from rfl)
    (by decide) (show Punctual _ (.complete 0 false 11) from fun _ _ => rfl) rfl rfl rfl).1⟩

/-- An operation that was admitted before the breaker opened closes it while the probe is running. -/
theorem closes_late :
    (exec (step ⟨1, 5, 1, 1⟩) new [.enter 0, .enter 0, .complete 0 true 1, .enter 10]).map
      (fun s => (s.breaker.state, (s.step ⟨1, 5, 1, 1⟩ (.complete 1 false 11)).map
        (fun s' => (s'.breaker.state, s'.succeeded)))) = some (.halfOpen, some (.closed, 0)) := by decide

end Probing

end MinIODB.Retry
