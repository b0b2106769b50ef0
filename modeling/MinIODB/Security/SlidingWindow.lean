import MinIODB.Library.Transition

/-!
# The sliding-window rate limiters

The gRPC interceptor and the REST middleware keep, for each client, the times of its requests of
the last minute. A request reads the clock, finds or creates the data of its client under the lock
of the map, and then works on this data under the lock of the data. In between the cleanup may take
the data out of the map, and other requests may have worked with later times.

The state is that of one client; clients do not share data. The last two fields record history: the
times of the admitted requests, and the latest time that the data was filtered with.
-/
namespace MinIODB.Security
open Transition List

def minute : ℕ := 60 * 10 ^ 9

inductive LimitPhase where
  | looking | missing | holding (data : ℕ) | admitted | rejected
  deriving DecidableEq

def LimitPhase.held : LimitPhase → Option ℕ
  | .holding data => some data
  | _ => none

structure LimitRequest where
  now : ℕ
  phase : LimitPhase
  deriving DecidableEq

structure WindowState where
  clock : ℕ
  entry : Option ℕ
  data : List (List ℕ)
  requests : List LimitRequest
  log : List ℕ
  latest : ℕ
  deriving DecidableEq

inductive WindowAction where
  | tick (duration : ℕ)
  | arrive
  | step (i : ℕ)
  | cleanup

def validRequests (now : ℕ) (requests : List ℕ) : List ℕ := requests.filter (fun t => now < t + minute)

namespace WindowState
variable (limit : ℤ) (s : WindowState)

def new : WindowState := ⟨0, none, [], [], [], 0⟩

def setPhase (i : ℕ) (r : LimitRequest) (phase : LimitPhase) : WindowState :=
  { s with requests := s.requests.set i { r with phase := phase } }

def times (d : ℕ) : List ℕ := s.data[d]?.getD []

def checkRateLimit (i : ℕ) (r : LimitRequest) : Option WindowState :=
  match r.phase with
  | .looking => some (s.setPhase i r (s.entry.elim .missing .holding))
  | .missing =>
    match s.entry with
    | some d => some (s.setPhase i r (.holding d))
    | none => some { s.setPhase i r (.holding s.data.length) with
        entry := some s.data.length, data := s.data ++ [[]] }
  | .holding d =>
    let valid := validRequests r.now (s.times d)
    if limit ≤ valid.length then
      some { s.setPhase i r .rejected with data := s.data.set d valid, latest := max s.latest r.now }
    else
      some { s.setPhase i r .admitted with
        data := s.data.set d (valid ++ [r.now]), log := s.log ++ [r.now], latest := max s.latest r.now }
  | _ => none

def cleanupRateLimitData : WindowState :=
  match s.entry with
  | none => s
  | some d =>
    let valid := validRequests s.clock (s.times d)
    if valid = [] then { s with entry := none, latest := max s.latest s.clock }
    else { s with data := s.data.set d valid, latest := max s.latest s.clock }

def step : WindowAction → Option WindowState
  | .tick duration => some { s with clock := s.clock + duration }
  | .arrive =>
    if limit ≤ 0 then
      some { s with requests := s.requests ++ [⟨s.clock, .admitted⟩], log := s.log ++ [s.clock] }
    else some { s with requests := s.requests ++ [⟨s.clock, .looking⟩] }
  | .step i => s.requests[i]?.bind (fun r => s.checkRateLimit limit i r)
  | .cleanup => some s.cleanupRateLimitData

def admittedFrom (start : ℕ) : ℕ := (s.log.filter (fun t => start ≤ t ∧ t < start + minute)).length

end WindowState

variable {limit : ℤ} {s s' : WindowState} {a : WindowAction} {now now' d : ℕ} {times : List ℕ}

/-- A request works on the data that is in the map, and with a time that is not older than those
that the data was filtered with before. -/
def Timely (s : WindowState) : WindowAction → Prop
  | .step i => ∀ r ∈ s.requests[i]?, ∀ d ∈ r.phase.held, s.entry = some d ∧ s.latest ≤ r.now
  | _ => True

instance : ∀ a, Decidable (Timely s a)
  | .step i => inferInstanceAs (Decidable (∀ r ∈ s.requests[i]?, ∀ d ∈ r.phase.held, _ ∧ _))
  | .tick _ | .arrive | .cleanup => inferInstanceAs (Decidable True)

/-- The data of the client has all admitted times that may still count. -/
structure WindowInv (limit : ℤ) (s : WindowState) : Prop where
  clock : s.latest ≤ s.clock
  stored : ∀ d, s.entry = some d → d < s.data.length ∧
    validRequests s.latest (s.times d) = validRequests s.latest s.log
  forgotten : s.entry = none → validRequests s.latest s.log = []
  requests : ∀ r ∈ s.requests, r.now ≤ s.clock
  bounded : ∀ start, (s.admittedFrom start : ℤ) ≤ limit

lemma validRequests_validRequests (h : now ≤ now') :
    validRequests now' (validRequests now times) = validRequests now' times := by
  rw [validRequests, validRequests, filter_filter]
  refine filter_congr (fun t _ => ?_)
  simp only [Bool.and_eq_left_iff_imp, decide_eq_true_eq]
  omega

lemma validRequests_append (times' : List ℕ) :
    validRequests now (times ++ times') = validRequests now times ++ validRequests now times' :=
  filter_append ..

lemma validRequests_eq (h : validRequests now times = validRequests now s.log) (hnow : now ≤ now') :
    validRequests now' times = validRequests now' s.log := by
  rw [← validRequests_validRequests hnow, h, validRequests_validRequests hnow]

open WindowState

/-- The windows that end after an admission have, besides it, only requests that the filter keeps. -/
lemma admittedFrom_append (start : ℕ) (h : (validRequests now s.log).length < limit)
    (hbounded : (s.admittedFrom start : ℤ) ≤ limit) :
    (({ s with log := s.log ++ [now] } : WindowState).admittedFrom start : ℤ) ≤ limit := by
  rw [admittedFrom, filter_append, length_append]
  by_cases hin : start ≤ now ∧ now < start + minute
  · have hsub : (s.log.filter (fun t => start ≤ t ∧ t < start + minute)).length ≤
        (validRequests now s.log).length := by
      refine (monotone_filter_right _ (fun t ht => ?_)).length_le
      simp only [decide_eq_true_eq] at ht ⊢
      omega
    simp only [filter_cons, hin, and_self, decide_true, if_true, filter_nil, length_singleton]
    omega
  · rw [admittedFrom] at hbounded
    simpa [hin] using hbounded

namespace WindowInv
variable {i : ℕ} {r : LimitRequest}

lemma new (hlimit : 0 < limit) : WindowInv limit .new where
  clock := le_rfl
  stored := nofun
  forgotten := fun _ => rfl
  requests := nofun
  bounded := fun _ => hlimit.le

lemma setPhase (h : WindowInv limit s) (hr : s.requests[i]? = some r) (phase : LimitPhase) :
    WindowInv limit (s.setPhase i r phase) := by
  refine ⟨h.clock, h.stored, h.forgotten, fun r' hr' => ?_, h.bounded⟩
  rcases mem_or_eq_of_mem_set hr' with hr' | rfl
  · exact h.requests r' hr'
  · exact h.requests r (mem_of_getElem? hr)

lemma create (h : WindowInv limit s) (hentry : s.entry = none) :
    WindowInv limit { s with entry := some s.data.length, data := s.data ++ [[]] } where
  clock := h.clock
  stored := by
    rintro d ⟨⟩
    refine ⟨by simp, ?_⟩
    rw [h.forgotten hentry]
    simp [times, validRequests]
  forgotten := nofun
  requests := h.requests
  bounded := h.bounded

/-- The filtered times are stored back, with the time of a request that is admitted. -/
lemma set (h : WindowInv limit s) (hentry : s.entry = some d) (hlatest : s.latest ≤ now) (hclock : now ≤ s.clock)
    (more : List ℕ) (hbounded : validRequests now (s.times d) = validRequests now s.log →
      ∀ start, (WindowState.admittedFrom { s with log := s.log ++ more } start : ℤ) ≤ limit) :
    WindowInv limit { s with
      data := s.data.set d (validRequests now (s.times d) ++ more), log := s.log ++ more,
      latest := max s.latest now } := by
  obtain ⟨hd, hstored⟩ := h.stored d hentry
  have hvalid := validRequests_eq hstored hlatest
  rw [max_eq_right hlatest]
  refine ⟨hclock, fun d' hd' => ?_, fun hnone => ?_, h.requests, hbounded hvalid⟩
  · obtain rfl : d = d' := Option.some.inj (hentry.symm.trans hd')
    simp only [times, getElem?_set_self hd, Option.getD_some]
    refine ⟨by simpa using hd, ?_⟩
    rw [validRequests_append, validRequests_append, validRequests_validRequests le_rfl, ← hvalid]
    rfl
  · cases hentry.symm.trans hnone

lemma filter (h : WindowInv limit s) (hentry : s.entry = some d) (hlatest : s.latest ≤ now) (hclock : now ≤ s.clock) :
    WindowInv limit { s with data := s.data.set d (validRequests now (s.times d)), latest := max s.latest now } := by
  simpa using h.set hentry hlatest hclock [] (fun _ => by simpa using h.bounded)

lemma cleanup (h : WindowInv limit s) : WindowInv limit s.cleanupRateLimitData := by
  rw [cleanupRateLimitData]
  split
  · exact h
  · rename_i d hentry
    obtain ⟨-, hstored⟩ := h.stored d hentry
    dsimp only
    split
    · rename_i hnone
      rw [max_eq_right h.clock]
      refine ⟨le_rfl, nofun, fun _ => ?_, h.requests, h.bounded⟩
      exact (validRequests_eq hstored h.clock).symm.trans hnone
    · exact h.filter hentry h.clock le_rfl

lemma checkRateLimit (h : WindowInv limit s) (hr : s.requests[i]? = some r) (hg : Timely s (.step i))
    (hs : s.checkRateLimit limit i r = some s') : WindowInv limit s' := by
  unfold WindowState.checkRateLimit at hs
  split at hs
  · cases hs
    exact h.setPhase hr _
  · split at hs <;> cases hs
    · exact h.setPhase hr _
    · rename_i hentry
      exact (h.setPhase hr _).create hentry
  · rename_i d hphase
    obtain ⟨hentry, hlatest⟩ := hg r hr d (by rw [hphase]; rfl)
    have hclock := h.requests r (mem_of_getElem? hr)
    dsimp only at hs
    split at hs <;> cases hs
    · exact (h.setPhase hr .rejected).filter hentry hlatest hclock
    · rename_i hlength
      exact (h.setPhase hr .admitted).set hentry hlatest hclock [r.now] (fun hvalid start =>
        admittedFrom_append start (hvalid ▸ not_le.mp hlength) (h.bounded start))
  · cases hs

lemma step (hlimit : 0 < limit) (h : WindowInv limit s) (hg : Timely s a) (hs : s.step limit a = some s') :
    WindowInv limit s' := by
  cases a with
  | tick =>
    cases hs
    refine ⟨h.clock.trans (Nat.le_add_right _ _), h.stored, h.forgotten, fun r hr => ?_, h.bounded⟩
    exact (h.requests r hr).trans (Nat.le_add_right _ _)
  | arrive =>
    rw [step, if_neg (not_le.mpr hlimit)] at hs
    cases hs
    refine ⟨h.clock, h.stored, h.forgotten, fun r hr => ?_, h.bounded⟩
    rcases mem_append.mp hr with hr | hr
    · exact h.requests r hr
    · rw [mem_singleton.mp hr]
  | step =>
    obtain ⟨r, hr, hs⟩ := Option.bind_eq_some_iff.mp hs
    exact h.checkRateLimit hr hg hs
  | cleanup =>
    cases hs
    exact h.cleanup

end WindowInv

/-- In every run in which the requests work on the data of the map and in the order of their times,
no minute has more admitted requests than the limit. -/
theorem window_bounded {as : List WindowAction} (hlimit : 0 < limit)
    (hg : Guarded (fun (s : WindowState) a => s.step limit a) Timely .new as)
    (hrun : exec (fun (s : WindowState) a => s.step limit a) .new as = some s) (start : ℕ) :
    (s.admittedFrom start : ℤ) ≤ limit :=
  (exec_invariant (WindowInv limit) (fun _ _ _ h hg hs => h.step hlimit hg hs) (.new hlimit) hg hrun).bounded start

def admittedAfter (limit : ℤ) (as : List WindowAction) (start : ℕ) : Option ℕ :=
  (exec (fun (s : WindowState) a => s.step limit a) .new as).map (fun s => s.admittedFrom start)

def firstRequest : List WindowAction := [.arrive, .step 0, .step 0, .step 0]

def cleanedUp : List WindowAction := firstRequest ++ [.tick minute, .cleanup, .arrive, .step 1, .step 1, .step 1]

theorem window_bounded_cleanedUp : admittedAfter 1 cleanedUp minute = some 1 ∧
    ∀ s, exec (fun (s : WindowState) a => s.step 1 a) .new cleanedUp = some s →
      ∀ start, (s.admittedFrom start : ℤ) ≤ 1 :=
  ⟨by decide +kernel, fun _ hrun => window_bounded (by decide) (by decide +kernel) hrun⟩

/-- The data is cleaned up after the second request has found it. -/
def orphanedData : List WindowAction :=
  firstRequest ++ [.tick minute, .arrive, .step 1, .cleanup, .step 1, .arrive, .step 2, .step 2, .step 2]

/-- The third request goes on after the fourth, which is half a minute younger. -/
def delayedRequest : List WindowAction :=
  firstRequest ++ [.arrive, .step 1, .step 1, .tick (30 * 10 ^ 9), .arrive, .step 2, .tick (30 * 10 ^ 9), .arrive,
    .step 3, .step 3, .step 2]

theorem window_exceeded :
    admittedAfter 1 orphanedData minute = some 2 ∧ admittedAfter 2 delayedRequest 0 = some 3 := by
  decide +kernel

end MinIODB.Security
