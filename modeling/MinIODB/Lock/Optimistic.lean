import MinIODB.Library.Transition

/-!
# The local lock

A step is one operation on the map or one clock read, of any call; `Lock` is a row of `TryLock`
calls. Tokens are counted, so entries are equal exactly when their pointers are.
-/
namespace MinIODB.Lock
open Transition List

structure LockEntry where
  token : ℕ
  expiresAt : ℤ
  deriving DecidableEq

/-- What a call does next. -/
inductive Call where
  | loadOrStore (key : String) (entry : LockEntry)
  | checkExpiry (key : String) (entry existing : LockEntry)
  | compareAndSwap (key : String) (entry existing : LockEntry)
  | load (key : String) (token : ℕ)
  | compareAndDelete (key : String) (entry : LockEntry)
  | range (now : ℤ)
  | delete (now : ℤ) (key : String) (seen : LockEntry)
  | returned

/-- `granted` holds the entries that were granted and not unlocked. -/
structure OptimisticLocker where
  clock : ℤ
  locks : String → Option LockEntry
  tokens : ℕ
  calls : List Call
  granted : List (String × LockEntry)

inductive Action where
  | tick (d : ℕ)
  | tryLock (key : String) (ttl : ℤ)
  | unlock (key : String) (token : ℕ)
  | cleanupExpired
  | step (i : ℕ) (visited : Option String)

namespace OptimisticLocker
variable (o : OptimisticLocker) (key : String)

def put (entry : Option LockEntry) : OptimisticLocker :=
  { o with locks := Function.update o.locks key entry }

def grant (entry : LockEntry) : OptimisticLocker :=
  { o.put key (some entry) with granted := (key, entry) :: o.granted }

def stepCall (visited : Option String) : Call → OptimisticLocker × Call
  | .loadOrStore key entry =>
    match o.locks key with
    | none => (o.grant key entry, .returned)
    | some existing => (o, .checkExpiry key entry existing)
  | .checkExpiry key entry existing =>
    (o, if o.clock < existing.expiresAt then .returned else .compareAndSwap key entry existing)
  | .compareAndSwap key entry existing =>
    (if o.locks key = some existing then o.grant key entry else o, .returned)
  | .load key token =>
    match o.locks key with
    | none => (o, .returned)
    | some entry => (o, if entry.token = token then .compareAndDelete key entry else .returned)
  | .compareAndDelete key entry =>
    (if o.locks key = some entry then
      { o.put key none with granted := o.granted.filter (· ≠ (key, entry)) } else o, .returned)
  | .range now =>
    match visited with
    | none => (o, .returned)
    | some key =>
      match o.locks key with
      | none => (o, .range now)
      | some entry => (o, if entry.expiresAt ≤ now then .delete now key entry else .range now)
  | .delete now key _ => (o.put key none, .range now)
  | .returned => (o, .returned)

def step : Action → Option OptimisticLocker
  | .tick d => some { o with clock := o.clock + d }
  | .tryLock key ttl =>
    let entry := ⟨o.tokens, o.clock + ttl⟩
    some { o with tokens := o.tokens + 1, calls := o.calls ++ [.loadOrStore key entry] }
  | .unlock key token => some { o with calls := o.calls ++ [.load key token] }
  | .cleanupExpired => some { o with calls := o.calls ++ [.range o.clock] }
  | .step i visited => do
    let c ← o.calls[i]?
    let (o', c') := o.stepCall visited c
    return { o' with calls := o.calls.set i c' }

def new : OptimisticLocker := ⟨0, fun _ => none, 0, [], []⟩

/-- Where `CleanupExpired` deletes a key, the key still has the entry that was found expired. -/
def deletesSeen : Action → Bool
  | .step i _ =>
    match o.calls[i]? with
    | some (.delete _ key seen) => (o.locks key).all (· = seen)
    | _ => true
  | _ => true

variable {o key} {o' : OptimisticLocker} {entry : LockEntry} {c : Call}

/-- What a call has found expired. -/
def Past (clock : ℤ) : Call → Prop
  | .compareAndSwap _ _ existing => existing.expiresAt ≤ clock
  | .range now => now ≤ clock
  | .delete now _ seen => seen.expiresAt ≤ now ∧ now ≤ clock
  | _ => True

def Stored (o : OptimisticLocker) : Prop :=
  ∀ key e, (key, e) ∈ o.granted → o.clock < e.expiresAt → o.locks key = some e

lemma Past.mono {clock : ℤ} (d : ℕ) (h : Past clock c) : Past (clock + d) c := by
  cases c <;> simp only [Past] at h ⊢ <;> omega

lemma Stored.put (h : o.Stored) {v : Option LockEntry} {granted : List (String × LockEntry)}
    (hold : ∀ p ∈ granted, p ∈ o.granted ∨ p.1 = key ∧ v = some p.2)
    (hfree : ∀ e, o.locks key = some e → (key, e) ∈ granted → e.expiresAt ≤ o.clock) :
    Stored { o.put key v with granted := granted } := by
  intro key' e hmem hlive
  rcases hold _ hmem with hmem' | ⟨rfl, rfl⟩
  · have hlock := h key' e hmem' hlive
    have hne : key' ≠ key := by
      rintro rfl
      exact absurd hlive (hfree e hlock hmem).not_gt
    simpa [OptimisticLocker.put, hne] using hlock
  · simp [OptimisticLocker.put]

lemma Stored.grant (h : o.Stored) (hfree : ∀ e, o.locks key = some e → e.expiresAt ≤ o.clock) :
    (o.grant key entry).Stored :=
  h.put (fun p hp => (mem_cons.mp hp).symm.imp_right fun h => by simp [h])
    (fun e he _ => hfree e he)

lemma Stored.next (visited : Option String) (h : o.Stored) (hpast : Past o.clock c)
    (hseen : ∀ now key seen, c = .delete now key seen → (o.locks key).all (· = seen) = true) :
    (o.stepCall visited c).1.Stored ∧ (o.stepCall visited c).1.clock = o.clock ∧
      Past o.clock (o.stepCall visited c).2 := by
  cases c with
  | loadOrStore key entry =>
    simp only [stepCall]
    split
    · rename_i hnone
      exact ⟨h.grant (by simp [hnone]), rfl, trivial⟩
    · exact ⟨h, rfl, trivial⟩
  | checkExpiry key entry existing =>
    refine ⟨h, rfl, ?_⟩
    simp only [stepCall]
    split
    · trivial
    · rename_i hpassed
      exact not_lt.mp hpassed
  | compareAndSwap key entry existing =>
    simp only [stepCall]
    split
    · rename_i hsame
      exact ⟨h.grant fun e he => Option.some.inj (hsame.symm.trans he) ▸ hpast, rfl, trivial⟩
    · exact ⟨h, rfl, trivial⟩
  | load key token =>
    simp only [stepCall]
    split
    · exact ⟨h, rfl, trivial⟩
    · refine ⟨h, rfl, ?_⟩
      split <;> trivial
  | compareAndDelete key entry =>
    simp only [stepCall]
    split
    · rename_i hsame
      exact ⟨h.put (fun p hp => .inl (mem_of_mem_filter hp)) (by simp +contextual [hsame]),
        rfl, trivial⟩
    · exact ⟨h, rfl, trivial⟩
  | range now =>
    simp only [stepCall]
    split
    · exact ⟨h, rfl, trivial⟩
    · split
      · exact ⟨h, rfl, hpast⟩
      · refine ⟨h, rfl, ?_⟩
        split
        · rename_i hexpired
          exact ⟨hexpired, hpast⟩
        · exact hpast
  | delete now key seen =>
    refine ⟨h.put (fun p hp => .inl hp) fun e he _ => ?_, rfl, hpast.2⟩
    have heq : e = seen := by simpa [he] using hseen now key seen rfl
    exact heq ▸ hpast.1.trans hpast.2
  | returned => exact ⟨h, rfl, trivial⟩

structure Inv (o : OptimisticLocker) : Prop where
  stored : o.Stored
  past : ∀ c ∈ o.calls, Past o.clock c

lemma Inv.step {a : Action} (h : o.Inv) (hg : o.deletesSeen a) (hs : o.step a = some o') :
    o'.Inv := by
  cases a with
  | tick d =>
    cases hs
    refine ⟨fun key e hmem hlive => h.stored key e hmem ?_, fun c hc => (h.past c hc).mono d⟩
    simp only at hlive
    omega
  | tryLock | unlock | cleanupExpired =>
    cases hs
    refine ⟨h.stored, fun c hc => ?_⟩
    rcases mem_append.mp hc with hc | hc
    · exact h.past c hc
    · simp [mem_singleton.mp hc, Past]
  | step i visited =>
    obtain ⟨c, hc, hs⟩ := Option.bind_eq_some_iff.mp hs
    cases hs
    have hpast := h.past c (mem_of_getElem? hc)
    obtain ⟨hstored, hclock, hpast'⟩ := h.stored.next visited hpast
      (fun now key seen heq => by simpa [deletesSeen, hc, heq] using hg)
    refine ⟨hstored, fun c' hc' => ?_⟩
    change Past (o.stepCall visited c).1.clock c'
    rw [hclock]
    rcases mem_or_eq_of_mem_set hc' with hc' | rfl
    · exact h.past c' hc'
    · exact hpast'

/-- At most one token of a key is live, and a cleanup deletes only an expired entry. -/
structure Exclusive (o : OptimisticLocker) : Prop where
  one : ∀ key e e', (key, e) ∈ o.granted → (key, e') ∈ o.granted → o.clock < e.expiresAt →
    o.clock < e'.expiresAt → e = e'
  cleanup : ∀ i visited now key seen e, o.calls[i]? = some (.delete now key seen) →
    o.deletesSeen (.step i visited) = true → o.locks key = some e → e.expiresAt ≤ o.clock

theorem local_lock_excludes {as : List Action} (hrun : exec step new as = some o)
    (hg : Guarded step (fun o a => o.deletesSeen a = true) new as) : o.Exclusive := by
  have hinit : new.Inv := ⟨nofun, nofun⟩
  have h := exec_invariant Inv (fun _ _ _ h hg hs => h.step hg hs) hinit hg hrun
  refine ⟨fun key e e' he he' hlive hlive' => ?_, fun i visited now key seen e hc hsame he => ?_⟩
  · exact Option.some.inj ((h.stored key e he hlive).symm.trans (h.stored key e' he' hlive'))
  · have hpast := h.past _ (mem_of_getElem? hc)
    have heq : e = seen := by simpa [deletesSeen, hc, he] using hsame
    exact heq ▸ hpast.1.trans hpast.2

def cleanedRun : List Action :=
  [.tryLock "k" 1, .step 0 none, .tick 1, .cleanupExpired, .step 1 (some "k"), .step 1 none]

theorem local_lock_excludes_cleanedRun : ∃ o, exec step new cleanedRun = some o ∧ o.Exclusive :=
  ⟨_, rfl, local_lock_excludes (show exec step new cleanedRun = _ from rfl) (by decide)⟩

/-- A cleanup finds the first entry expired, the second takes the key over, the cleanup deletes
the second, and a third is granted while the second is live. -/
theorem cleanup_deletes_live_lock : (exec step new [.tryLock "k" 1, .step 0 none, .tick 1,
      .cleanupExpired, .step 1 (some "k"), .tryLock "k" 9, .step 2 none, .step 2 none, .step 2 none,
      .step 1 none, .tryLock "k" 9, .step 3 none]).map (fun o => (o.clock, o.granted)) =
    some (1, [("k", ⟨2, 10⟩), ("k", ⟨1, 10⟩), ("k", ⟨0, 1⟩)]) := by
  decide

end OptimisticLocker
end MinIODB.Lock
