import MinIODB.Library.Transition

/-!
# Failover between two object pools

One flag says which pool is active. `Execute` reads the flag, runs its operation, reads the flag
again after an error, switches to the backup pool and reads the flag a third time before it
retries. Each of these is a step of its own, so other calls and the health check run in
between. A call that loses the race for the switch returns the error of the primary pool.
-/
namespace MinIODB.Pool
open Transition List Option

inductive PoolName where
  | primary
  | backup
  deriving DecidableEq

structure Pools where
  minioPool : Bool
  backupPool : Bool

def activePool (usingBackup : Bool) : PoolName := if usingBackup then .backup else .primary

inductive ExecutePhase where
  | started
  | running (pool : PoolName)
  | failed (err : String)
  | switching (err : String)
  | retrying (err : String)
  | rerunning (err : String) (pool : PoolName)
  | returned (err : Option String)
  deriving DecidableEq

structure ExecuteEnv where
  operation : Option String
  healthy : Bool

def backupFailed (err retryErr : String) : String :=
  "primary failed: " ++ err ++ ", backup also failed: " ++ retryErr

def switchToBackup (pools : Pools) (e : ExecuteEnv) (usingBackup : Bool) : Bool × Bool :=
  if usingBackup then (true, false)
  else if pools.backupPool && e.healthy then (true, true)
  else (false, false)

def ExecutePhase.step (pools : Pools) (usingBackup : Bool) (e : ExecuteEnv) :
    ExecutePhase → Option (Bool × ExecutePhase)
  | .started => some (usingBackup, .running (activePool usingBackup))
  | .running _ =>
    match e.operation with
    | none => some (usingBackup, .returned none)
    | some err => some (usingBackup, .failed err)
  | .failed err =>
    if usingBackup then some (usingBackup, .returned (some err)) else some (usingBackup, .switching err)
  | .switching err =>
    match switchToBackup pools e usingBackup with
    | (flag, true) => some (flag, .retrying err)
    | (flag, false) => some (flag, .returned (some err))
  | .retrying err => some (usingBackup, .rerunning err (activePool usingBackup))
  | .rerunning err _ => some (usingBackup, .returned (e.operation.map (backupFailed err)))
  | .returned _ => none

def checkAndRecover (pools : Pools) (primaryHealthy usingBackup : Bool) : Bool :=
  usingBackup && !(pools.minioPool && primaryHealthy)

structure FailoverManager where
  usingBackup : Bool
  calls : List ExecutePhase
  deriving DecidableEq

inductive FailoverAction where
  | execute
  | step (i : ℕ) (e : ExecuteEnv)
  | checkAndRecover (primaryHealthy : Bool)

namespace FailoverManager

def start (usingBackup : Bool) : FailoverManager := ⟨usingBackup, []⟩

def step (pools : Pools) (m : FailoverManager) : FailoverAction → Option FailoverManager
  | .execute => some { m with calls := m.calls ++ [.started] }
  | .step i e => do
    let c ← m.calls[i]?
    let (flag, c') ← c.step pools m.usingBackup e
    return ⟨flag, m.calls.set i c'⟩
  | .checkAndRecover healthy =>
    some { m with usingBackup := Pool.checkAndRecover pools healthy m.usingBackup }

end FailoverManager

def ExecutePhase.remaining : ExecutePhase → ℕ
  | .started => 6
  | .running _ => 5
  | .failed _ => 4
  | .switching _ => 3
  | .retrying _ => 2
  | .rerunning _ _ => 1
  | .returned _ => 0

def ExecutePhase.reliesOn : ExecutePhase → Option Bool
  | .running .primary | .failed _ | .switching _ => some false
  | .retrying _ => some true
  | _ => none

section
variable (pools : Pools)

def BackupWorks (m : FailoverManager) : FailoverAction → Prop
  | .step i e => e.healthy = true ∧ ∀ c, m.calls[i]? = some c →
      (c = .running .backup ∨ ∃ err, c = .rerunning err .backup) → e.operation = none
  | _ => True

def KeepsFlag (m : FailoverManager) (act : FailoverAction) : Prop :=
  ∀ m', m.step pools act = some m' → ∀ (i : ℕ) c flag, m.calls[i]? = some c → c.reliesOn = some flag →
    (∀ e, act ≠ .step i e) → m'.usingBackup = flag

end

section
variable {pools : Pools} {m m' : FailoverManager} {act : FailoverAction} {i : ℕ}

lemma FailoverManager.step_cases (h : m.step pools act = some m') :
    (act = .execute ∧ m' = { m with calls := m.calls ++ [.started] }) ∨
    (∃ i e c flag c', act = .step i e ∧ m.calls[i]? = some c ∧
      c.step pools m.usingBackup e = some (flag, c') ∧ m' = ⟨flag, m.calls.set i c'⟩) ∨
    ∃ healthy, act = .checkAndRecover healthy ∧
      m' = { m with usingBackup := Pool.checkAndRecover pools healthy m.usingBackup } := by
  cases act with
  | execute => exact .inl ⟨rfl, (Option.some.inj h).symm⟩
  | checkAndRecover healthy => exact .inr (.inr ⟨healthy, rfl, (Option.some.inj h).symm⟩)
  | step i e =>
    obtain ⟨c, hc, h⟩ := bind_eq_some_iff.mp h
    obtain ⟨⟨flag, c'⟩, hstep, h⟩ := bind_eq_some_iff.mp h
    exact .inr (.inl ⟨i, e, c, flag, c', rfl, hc, hstep, (Option.some.inj h).symm⟩)

structure OnCourse (usingBackup : Bool) (c : ExecutePhase) : Prop where
  relies : ∀ flag, c.reliesOn = some flag → usingBackup = flag
  reruns : ∀ err pool, c = .rerunning err pool → pool = .backup
  returns : ∀ err, c = .returned err → err = none

lemma OnCourse.step {usingBackup flag : Bool} {c c' : ExecutePhase} {e : ExecuteEnv}
    (h : OnCourse usingBackup c) (hbackup : pools.backupPool) (hhealthy : e.healthy)
    (hworks : (c = .running .backup ∨ ∃ err, c = .rerunning err .backup) → e.operation = none)
    (hs : c.step pools usingBackup e = some (flag, c')) : OnCourse flag c' := by
  cases c with
  | started =>
    cases hs
    cases usingBackup with
    | false => exact ⟨by rintro _ ⟨⟩; rfl, nofun, nofun⟩
    | true => exact ⟨nofun, nofun, nofun⟩
  | running pool =>
    cases hop : e.operation with
    | none =>
      simp only [ExecutePhase.step, hop] at hs
      cases hs
      exact ⟨nofun, nofun, by rintro _ ⟨⟩; rfl⟩
    | some =>
      -- only the primary pool can have failed
      cases pool with
      | backup =>
        rw [hworks (.inl rfl)] at hop
        cases hop
      | primary =>
        simp only [ExecutePhase.step, hop] at hs
        cases hs
        exact ⟨by rintro _ ⟨⟩; exact h.relies false rfl, nofun, nofun⟩
  | failed =>
    have hflag : usingBackup = false := h.relies false rfl
    subst hflag
    cases hs
    exact ⟨by rintro _ ⟨⟩; rfl, nofun, nofun⟩
  | switching =>
    have hflag : usingBackup = false := h.relies false rfl
    subst hflag
    simp only [ExecutePhase.step, switchToBackup, hbackup, hhealthy, Bool.and_self, if_true,
      Bool.false_eq_true, if_false] at hs
    cases hs
    exact ⟨by rintro _ ⟨⟩; rfl, nofun, nofun⟩
  | retrying =>
    have hflag : usingBackup := h.relies true rfl
    subst hflag
    cases hs
    exact ⟨nofun, by rintro _ _ ⟨⟩; rfl, nofun⟩
  | rerunning err pool =>
    have hpool : pool = .backup := h.reruns err pool rfl
    subst hpool
    simp only [ExecutePhase.step, hworks (.inr ⟨err, rfl⟩)] at hs
    cases hs
    exact ⟨nofun, nofun, by rintro _ ⟨⟩; rfl⟩
  | returned => cases hs

lemma OnCourse.others {usingBackup flag : Bool} {c : ExecutePhase} (h : OnCourse usingBackup c)
    (hkeeps : ∀ b, c.reliesOn = some b → flag = b) : OnCourse flag c :=
  ⟨hkeeps, h.reruns, h.returns⟩

lemma onCourse_step (hbackup : pools.backupPool)
    (h : ∀ (i : ℕ) c, m.calls[i]? = some c → OnCourse m.usingBackup c)
    (hworks : BackupWorks m act) (hkeeps : KeepsFlag pools m act) (hs : m.step pools act = some m') :
    ∀ (i : ℕ) c, m'.calls[i]? = some c → OnCourse m'.usingBackup c := by
  have hkeeps := hkeeps m' hs
  intro i c hc
  rcases FailoverManager.step_cases hs with ⟨rfl, rfl⟩ | ⟨j, e, d, flag, d', rfl, hd, hstep, rfl⟩ |
    ⟨healthy, rfl, rfl⟩
  · rcases getElem?_concat_cases hc with hc | ⟨-, rfl⟩
    · exact h i c hc
    · exact ⟨nofun, nofun, nofun⟩
  · rcases getElem?_set_cases hc with ⟨rfl, rfl⟩ | ⟨hij, hc⟩
    · exact (h j d hd).step hbackup hworks.1 (hworks.2 d hd) hstep
    · refine (h i c hc).others (fun b hb => hkeeps i c b hc hb ?_)
      rintro e' ⟨⟩
      exact hij rfl
  · exact (h i c hc).others (fun b hb => hkeeps i c b hc hb (by rintro e ⟨⟩))

lemma remaining_step {c : ExecutePhase} (hc : m.calls[i]? = some c) (hleft : ∀ err, c ≠ .returned err)
    (e : ExecuteEnv) : ∃ m' c', m.step pools (.step i e) = some m' ∧ m'.calls[i]? = some c' ∧
      c'.remaining < c.remaining := by
  have hsome : ∃ flag c', c.step pools m.usingBackup e = some (flag, c') ∧ c'.remaining < c.remaining := by
    cases c with
    | started => exact ⟨_, _, rfl, Nat.lt_succ_self 5⟩
    | running =>
      cases hop : e.operation with
      | none => exact ⟨m.usingBackup, .returned none, by simp only [ExecutePhase.step, hop], by simp [ExecutePhase.remaining]⟩
      | some err => exact ⟨m.usingBackup, .failed err, by simp only [ExecutePhase.step, hop], by simp [ExecutePhase.remaining]⟩
    | failed =>
      simp only [ExecutePhase.step]
      split
      · exact ⟨_, _, rfl, Nat.succ_pos 3⟩
      · exact ⟨_, _, rfl, Nat.lt_succ_self 3⟩
    | switching =>
      simp only [ExecutePhase.step]
      split
      · exact ⟨_, _, rfl, Nat.lt_succ_self 2⟩
      · exact ⟨_, _, rfl, Nat.succ_pos 2⟩
    | retrying => exact ⟨_, _, rfl, Nat.lt_succ_self 1⟩
    | rerunning => exact ⟨_, _, rfl, Nat.lt_succ_self 0⟩
    | returned err => exact absurd rfl (hleft err)
  obtain ⟨flag, c', hstep, hlt⟩ := hsome
  refine ⟨⟨flag, m.calls.set i c'⟩, c', ?_, getElem?_set_of_some hc, hlt⟩
  simp only [FailoverManager.step, hc, hstep, bind_eq_bind, bind_some]
  rfl

/-- In every run in which the backup pool works and nobody changes the flag under a call that
relies on it, no call returns an error, and every call returns after at most six steps. -/
theorem execute_returns_nil (hbackup : pools.backupPool = true) {usingBackup : Bool}
    {as : List FailoverAction} {c : ExecutePhase}
    (hg : Guarded (FailoverManager.step pools) (fun m act => BackupWorks m act ∧ KeepsFlag pools m act)
      (.start usingBackup) as)
    (hrun : exec (FailoverManager.step pools) (.start usingBackup) as = some m) (hc : m.calls[i]? = some c) :
    (∀ err, c = .returned err → err = none) ∧ c.remaining ≤ 6 ∧
      ((∀ err, c ≠ .returned err) → ∀ e, ∃ m' c', m.step pools (.step i e) = some m' ∧
        m'.calls[i]? = some c' ∧ c'.remaining < c.remaining) := by
  have hcourse := exec_invariant
    (fun m : FailoverManager => ∀ (i : ℕ) c, m.calls[i]? = some c → OnCourse m.usingBackup c)
    (fun m act m' h hg hs => onCourse_step hbackup h hg.1 hg.2 hs) (by rintro i c ⟨⟩) hg hrun
  refine ⟨(hcourse i c hc).returns, ?_, fun hleft e => remaining_step hc hleft e⟩
  cases c <;> simp [ExecutePhase.remaining]

end

def bothPools : Pools := ⟨true, true⟩

def fine : ExecuteEnv := ⟨none, true⟩

def down : ExecuteEnv := ⟨some "connection refused", true⟩

def backupWorksCheck (m : FailoverManager) : FailoverAction → Bool
  | .step i e => e.healthy && (m.calls[i]?.all (fun c =>
      match c with
      | .running .backup | .rerunning _ .backup => e.operation.isNone
      | _ => true))
  | _ => true

def keepsFlagCheck (pools : Pools) (m : FailoverManager) (act : FailoverAction) : Bool :=
  (m.step pools act).all (fun m' => (List.range m.calls.length).all (fun i =>
    (match act with
      | .step j _ => i == j
      | _ => false) ||
      (m.calls[i]?.bind ExecutePhase.reliesOn).all (fun flag => m'.usingBackup == flag)))

lemma backupWorks_of_check {m : FailoverManager} {act : FailoverAction}
    (h : backupWorksCheck m act) : BackupWorks m act := by
  cases act with
  | execute | checkAndRecover => trivial
  | step =>
    obtain ⟨hhealthy, hcall⟩ := (Bool.and_eq_true _ _).mp h
    refine ⟨hhealthy, ?_⟩
    rintro c hc (rfl | ⟨err, rfl⟩) <;> rw [hc] at hcall <;> simpa using hcall

lemma keepsFlag_of_check {pools : Pools} {m : FailoverManager} {act : FailoverAction}
    (h : keepsFlagCheck pools m act) : KeepsFlag pools m act := by
  intro m' hm' i c flag hc hrelies hact
  rw [keepsFlagCheck, hm', all_some, List.all_eq_true] at h
  have hi := h i (mem_range.mpr (List.getElem?_eq_some_iff.mp hc).1)
  rw [hc, bind_some, hrelies, all_some, Bool.or_eq_true] at hi
  rcases hi with hi | hi
  · cases act with
    | execute | checkAndRecover => cases hi
    | step j e =>
      have hij : i = j := by simpa using hi
      exact absurd (hij ▸ rfl) (hact e)
  · simpa using hi

def failoverRun : List FailoverAction :=
  [.execute, .execute, .step 0 fine, .step 0 down, .step 0 fine, .step 0 fine, .step 0 fine, .step 1 fine,
    .step 0 fine, .step 1 fine, .checkAndRecover true]

theorem execute_returns_nil_switch :
    exec (FailoverManager.step bothPools) (.start false) failoverRun =
      some ⟨false, [.returned none, .returned none]⟩ ∧
    ∀ m, exec (FailoverManager.step bothPools) (.start false) failoverRun = some m →
      ∀ err, m.calls[0]? = some (.returned err) → err = none := by
  have hcheck : Guarded (FailoverManager.step bothPools)
      (fun m act => backupWorksCheck m act = true ∧ keepsFlagCheck bothPools m act = true)
      (.start false) failoverRun := by decide +kernel
  refine ⟨by decide +kernel, fun m hrun err hc => ?_⟩
  exact (execute_returns_nil rfl
    (hcheck.mono (fun _ _ h => ⟨backupWorks_of_check h.1, keepsFlag_of_check h.2⟩)) hrun hc).1 err rfl

def lostRun : List FailoverAction :=
  [.execute, .execute, .step 0 fine, .step 1 fine, .step 0 down, .step 1 down, .step 0 fine, .step 0 fine,
    .step 1 fine]

def lateRun : List FailoverAction :=
  [.execute, .execute, .step 0 fine, .step 1 fine, .step 0 down, .step 1 down, .step 0 fine, .step 1 fine,
    .step 0 fine, .step 1 fine]

def recoveredRun : List FailoverAction :=
  [.execute, .step 0 fine, .step 0 down, .step 0 fine, .step 0 fine, .checkAndRecover true, .step 0 fine,
    .step 0 down]

/-- Three ways to get the error of the primary pool although the backup pool works. -/
theorem execute_returns_error :
    (Guarded (FailoverManager.step bothPools) (fun m act => backupWorksCheck m act = true)
        (.start false) lostRun ∧ exec (FailoverManager.step bothPools) (.start false) lostRun =
        some ⟨true, [.retrying "connection refused", .returned (some "connection refused")]⟩) ∧
    (Guarded (FailoverManager.step bothPools) (fun m act => backupWorksCheck m act = true)
        (.start false) lateRun ∧ exec (FailoverManager.step bothPools) (.start false) lateRun =
        some ⟨true, [.retrying "connection refused", .returned (some "connection refused")]⟩) ∧
    (Guarded (FailoverManager.step bothPools) (fun m act => backupWorksCheck m act = true)
        (.start false) recoveredRun ∧
      exec (FailoverManager.step bothPools) (.start false) recoveredRun =
        some ⟨false, [.returned (some
          "primary failed: connection refused, backup also failed: connection refused")]⟩) := by
  decide +kernel

end MinIODB.Pool
