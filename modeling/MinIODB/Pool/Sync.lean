import MinIODB.Pool.Failover

/-!
# Flushed objects across failovers

A flush writes a temporary file, puts it into the active pool and queues a task that copies the
file to the backup pool. The file is removed when the flush returns, whether the task has run
or not. Nothing is ever copied to the primary pool. So an object is found in the active pool
after every switch when its copy was made before its file was removed, and when no flush went
to the backup pool before a switch back.

Object names and file names carry a time in nanoseconds; no two flushes have one in common.
-/
namespace MinIODB.Pool
open Transition List Option Bool

structure SyncTask where
  objectName : String
  filePath : String
  deriving DecidableEq

inductive FlushPhase where
  | uploading (call : ExecutePhase)
  | enqueuing (landed : PoolName)
  | indexing (landed : PoolName)
  | rollingBack
  | removing (success : Option PoolName)
  | returned (success : Option PoolName)
  deriving DecidableEq

structure Flush where
  objectName : String
  localFilePath : String
  phase : FlushPhase

def Flush.task (f : Flush) : SyncTask := ⟨f.objectName, f.localFilePath⟩

structure FlushEnv where
  execute : ExecuteEnv
  enqueued : Bool
  indexed : Bool
  rolledBack : Bool

structure SyncState where
  usingBackup : Bool
  primary : List String
  backup : List String
  files : List String
  syncQueue : List SyncTask
  performing : List (SyncTask × ℕ)
  flushes : List Flush

inductive SyncAction where
  | flush (objectName localFilePath : String)
  | step (i : ℕ) (e : FlushEnv)
  | take
  | attempt (k : ℕ) (ok : Bool)
  | checkAndRecover (primaryHealthy : Bool)

def ExecutePhase.target : ExecutePhase → PoolName
  | .running pool | .rerunning _ pool => pool
  | _ => .primary

namespace SyncState

def objects (s : SyncState) : PoolName → List String
  | .primary => s.primary
  | .backup => s.backup

def putObject (s : SyncState) (objectName : String) : PoolName → SyncState
  | .primary => { s with primary := objectName :: s.primary }
  | .backup => { s with backup := objectName :: s.backup }

def upload (pools : Pools) (s : SyncState) (f : Flush) (call : ExecutePhase) (e : ExecuteEnv) :
    Option (SyncState × FlushPhase) := do
  let (flag, call') ← call.step pools s.usingBackup e
  match call' with
  | .returned none =>
    return ({ s with usingBackup := flag }.putObject f.objectName call.target, .enqueuing call.target)
  | .returned (some _) => return ({ s with usingBackup := flag }, .removing none)
  | _ => return ({ s with usingBackup := flag }, .uploading call')

def stepFlush (pools : Pools) (s : SyncState) (f : Flush) (e : FlushEnv) : Option (SyncState × FlushPhase) :=
  match f.phase with
  | .uploading call => s.upload pools f call e.execute
  | .enqueuing landed =>
    -- an error of the queue is dropped
    some (if e.enqueued then { s with syncQueue := s.syncQueue ++ [f.task] } else s, .indexing landed)
  | .indexing landed => some (s, if e.indexed then .removing (some landed) else .rollingBack)
  | .rollingBack =>
    some (if pools.minioPool && e.rolledBack then { s with primary := s.primary.filter (· ≠ f.objectName) } else s,
      .removing none)
  | .removing success => some ({ s with files := s.files.filter (· ≠ f.localFilePath) }, .returned success)
  | .returned _ => none

def performAttempt (pools : Pools) (retryTimes : ℕ) (s : SyncState) (k : ℕ) (task : SyncTask) (failures : ℕ)
    (ok : Bool) : SyncState :=
  if !pools.backupPool then { s with performing := s.performing.eraseIdx k }
  else if ok && task.filePath ∈ s.files then
    { s with performing := s.performing.eraseIdx k, backup := task.objectName :: s.backup }
  else if failures < retryTimes then { s with performing := s.performing.set k (task, failures + 1) }
  else { s with performing := s.performing.eraseIdx k }

def step (pools : Pools) (retryTimes : ℕ) (s : SyncState) : SyncAction → Option SyncState
  | .flush objectName localFilePath =>
    if s.flushes.all (fun f => f.objectName ≠ objectName ∧ f.localFilePath ≠ localFilePath) then
      some { s with
        files := localFilePath :: s.files
        flushes := s.flushes ++ [⟨objectName, localFilePath, .uploading .started⟩] }
    else none
  | .step i e => do
    let f ← s.flushes[i]?
    let (s', phase) ← s.stepFlush pools f e
    return { s' with flushes := s.flushes.set i { f with phase := phase } }
  | .take =>
    match s.syncQueue with
    | [] => none
    | task :: rest => some { s with syncQueue := rest, performing := s.performing ++ [(task, 0)] }
  | .attempt k ok => do
    let (task, failures) ← s.performing[k]?
    return s.performAttempt pools retryTimes k task failures ok
  | .checkAndRecover healthy =>
    some { s with usingBackup := Pool.checkAndRecover pools healthy s.usingBackup }

def start (usingBackup : Bool) : SyncState := ⟨usingBackup, [], [], [], [], [], []⟩

def Pending (s : SyncState) (task : SyncTask) : Prop :=
  task ∈ s.syncQueue ∨ ∃ failures, (task, failures) ∈ s.performing

end SyncState

def FlushPhase.onBackup : FlushPhase → Bool
  | .uploading call => call.target == .backup
  | .enqueuing landed | .indexing landed => landed == .backup
  | .removing success | .returned success => success == some .backup
  | .rollingBack => false

section
variable (pools : Pools)

def BackupTakesCopies : SyncAction → Prop
  | .attempt _ ok => ok = true
  | _ => True

/-- The copy of an object that the primary pool has taken is queued, and made before its file is
removed; and the primary pool becomes active again only when no flush has gone to the
backup pool. -/
def CopiesInTime (s : SyncState) : SyncAction → Prop
  | .step i e => ∀ f, s.flushes[i]? = some f →
      (f.phase = .enqueuing .primary → e.enqueued = true) ∧
      (f.phase = .removing (some .primary) → ¬ s.Pending f.task)
  | .checkAndRecover healthy => checkAndRecover pools healthy s.usingBackup ≠ s.usingBackup →
      ∀ f ∈ s.flushes, f.phase.onBackup = false
  | _ => True

end

section
open SyncState
variable {pools : Pools} {retryTimes : ℕ} {s s' : SyncState} {act : SyncAction}

def Copied (s : SyncState) (f : Flush) : Prop :=
  f.objectName ∈ s.backup ∨ s.Pending f.task ∧ f.localFilePath ∈ s.files

def Placed (s : SyncState) (f : Flush) : Prop :=
  match f.phase with
  | .uploading call => f.localFilePath ∈ s.files ∧ (call.target = .backup → s.usingBackup = true)
  | .enqueuing .primary => f.localFilePath ∈ s.files ∧ f.objectName ∈ s.primary
  | .indexing .primary | .removing (some .primary) => f.objectName ∈ s.primary ∧ Copied s f
  | .returned (some .primary) => f.objectName ∈ s.primary ∧ f.objectName ∈ s.backup
  | .enqueuing .backup | .indexing .backup | .removing (some .backup) | .returned (some .backup) =>
    f.objectName ∈ s.backup ∧ s.usingBackup = true
  | .rollingBack | .removing none | .returned none => True

def Apart (f g : Flush) : Prop := f.objectName ≠ g.objectName ∧ f.localFilePath ≠ g.localFilePath

structure SyncInv (s : SyncState) : Prop where
  distinct : ∀ (i j : ℕ) f g, i ≠ j → s.flushes[i]? = some f → s.flushes[j]? = some g → Apart f g
  placed : ∀ f ∈ s.flushes, Placed s f

structure Keeps (f : Flush) (s s' : SyncState) : Prop where
  primary : f.objectName ∈ s.primary → f.objectName ∈ s'.primary
  backup : f.objectName ∈ s.backup → f.objectName ∈ s'.backup
  files : f.localFilePath ∈ s.files → f.localFilePath ∈ s'.files
  copied : s.Pending f.task → f.localFilePath ∈ s.files → Copied s' f
  usingBackup : f.phase.onBackup = true → s.usingBackup = true → s'.usingBackup = true

lemma Keeps.copy {f : Flush} (hk : Keeps f s s') (h : Copied s f) : Copied s' f :=
  h.elim (fun h => .inl (hk.backup h)) (fun h => hk.copied h.1 h.2)

lemma Placed.keep {f : Flush} (h : Placed s f) (hk : Keeps f s s') : Placed s' f := by
  have husing := hk.usingBackup
  obtain ⟨objectName, localFilePath, phase⟩ := f
  cases phase with
  | uploading =>
    exact ⟨hk.files h.1, fun htarget => husing (by simpa [FlushPhase.onBackup] using htarget) (h.2 htarget)⟩
  | enqueuing landed =>
    cases landed with
    | primary => exact ⟨hk.files h.1, hk.primary h.2⟩
    | backup => exact ⟨hk.backup h.1, husing rfl h.2⟩
  | indexing landed =>
    cases landed with
    | primary => exact ⟨hk.primary h.1, hk.copy h.2⟩
    | backup => exact ⟨hk.backup h.1, husing rfl h.2⟩
  | rollingBack => trivial
  | removing success =>
    match success with
    | none => trivial
    | some .primary => exact ⟨hk.primary h.1, hk.copy h.2⟩
    | some .backup => exact ⟨hk.backup h.1, husing rfl h.2⟩
  | returned success =>
    match success with
    | none => trivial
    | some .primary => exact ⟨hk.primary h.1, hk.backup h.2⟩
    | some .backup => exact ⟨hk.backup h.1, husing rfl h.2⟩

variable {call' call : ExecutePhase} {usingBackup flag : Bool} {e : ExecuteEnv}

section
variable (h : call.step pools usingBackup e = some (flag, call'))
include h

lemma usingBackup_of_execute
    (hu : usingBackup) : flag := by
  subst hu
  cases call with
  | running =>
    simp only [ExecutePhase.step] at h
    split at h <;> cases h <;> rfl
  | returned => cases h
  | _ =>
    cases h
    rfl

lemma target_of_execute
    (htarget : call'.target = .backup) :
    flag = true := by
  have hactive : ∀ b : Bool, activePool b = .backup → b := by decide
  cases call with
  | started | retrying _ =>
    cases h
    exact hactive _ htarget
  | running | failed | switching =>
    simp only [ExecutePhase.step] at h
    split at h <;> cases h <;> cases htarget
  | rerunning =>
    cases h
    cases htarget
  | returned => cases h

end

section
variable {f g : Flush} {phase : FlushPhase}

lemma Keeps.refl : Keeps g s s := ⟨id, id, id, fun hp hf => Or.inr ⟨hp, hf⟩, fun _ h => h⟩

lemma Keeps.of_usingBackup {flag : Bool} (h : s.usingBackup → flag) :
    Keeps g s { s with usingBackup := flag } :=
  ⟨id, id, id, fun hp hf => .inr ⟨hp, hf⟩, fun _ => h⟩

lemma Keeps.putObject (objectName : String) (pool : PoolName) :
    Keeps g s (s.putObject objectName pool) := by
  cases pool with
  | primary => exact ⟨.tail _, id, id, fun hp hf => .inr ⟨hp, hf⟩, fun _ h => h⟩
  | backup => exact ⟨id, .tail _, id, fun hp hf => .inr ⟨hp, hf⟩, fun _ h => h⟩

lemma Keeps.trans {s'' : SyncState} (h : Keeps g s s') (h' : Keeps g s' s'') : Keeps g s s'' where
  primary := h'.primary ∘ h.primary
  backup := h'.backup ∘ h.backup
  files := h'.files ∘ h.files
  copied hp hf := h'.copy (h.copied hp hf)
  usingBackup hb hu := h'.usingBackup hb (h.usingBackup hb hu)

lemma upload_spec {call : ExecutePhase} {e : ExecuteEnv} (hphase : f.phase = .uploading call)
    (h : Placed s f) (hs : s.upload pools f call e = some (s', phase)) :
    Placed s' { f with phase := phase } ∧ ∀ g, Keeps g s s' := by
  rw [Placed, hphase] at h
  obtain ⟨⟨flag, call'⟩, hstep, hs⟩ := bind_eq_some_iff.mp hs
  have hup := usingBackup_of_execute hstep
  dsimp only at hs
  split at hs <;> cases hs
  · refine ⟨?_, fun g => (Keeps.of_usingBackup hup).trans (.putObject _ _)⟩
    cases htarget : call.target with
    | primary => exact ⟨h.1, mem_cons_self⟩
    | backup => exact ⟨mem_cons_self, hup (h.2 htarget)⟩
  · exact ⟨trivial, fun g => .of_usingBackup hup⟩
  · exact ⟨⟨h.1, target_of_execute hstep⟩, fun g => .of_usingBackup hup⟩

open SyncState

lemma stepFlush_spec {e : FlushEnv} (h : Placed s f)
    (henqueued : f.phase = .enqueuing .primary → e.enqueued)
    (hremoved : f.phase = .removing (some .primary) → ¬ s.Pending f.task)
    (hs : s.stepFlush pools f e = some (s', phase)) :
    Placed s' { f with phase := phase } ∧ ∀ g, Apart f g → Keeps g s s' := by
  unfold stepFlush at hs
  obtain ⟨objectName, localFilePath, phase⟩ := f
  cases phase with
  | uploading =>
    obtain ⟨hplaced, hkeeps⟩ := upload_spec rfl h hs
    exact ⟨hplaced, fun g _ => hkeeps g⟩
  | enqueuing landed =>
    cases hs
    constructor
    · cases landed with
      | primary =>
        rw [if_pos (henqueued rfl)]
        exact ⟨h.2, .inr ⟨.inl (mem_append_right _ (mem_singleton.mpr rfl)), h.1⟩⟩
      | backup => split <;> exact h
    · intro g _
      split
      · refine ⟨id, id, id, fun hp hf => .inr ⟨?_, hf⟩, fun _ h => h⟩
        exact hp.imp_left (mem_append_left _)
      · exact .refl
  | indexing landed =>
    cases hs
    refine ⟨?_, fun g _ => .refl⟩
    split
    · cases landed <;> exact h
    · trivial
  | rollingBack =>
    cases hs
    refine ⟨trivial, fun g hg => ?_⟩
    split
    · refine ⟨fun hmem => ?_, id, id, fun hp hf => .inr ⟨hp, hf⟩, fun _ h => h⟩
      exact mem_filter.mpr ⟨hmem, by simpa using hg.1.symm⟩
    · exact .refl
  | removing success =>
    cases hs
    constructor
    · match success with
      | none => trivial
      | some .primary => exact ⟨h.1, h.2.resolve_right (fun hp => hremoved rfl hp.1)⟩
      | some .backup => exact h
    · intro g hg
      have hfile : g.localFilePath ∈ s.files → g.localFilePath ∈ s.files.filter (· ≠ localFilePath) :=
        fun hmem => mem_filter.mpr ⟨hmem, by simpa using hg.2.symm⟩
      exact ⟨id, id, hfile, fun hp hf => .inr ⟨hp, hfile hf⟩, fun _ h => h⟩
  | returned => cases hs

lemma keeps_take {task : SyncTask} {rest : List SyncTask} (hqueue : s.syncQueue = task :: rest) :
    Keeps g s { s with syncQueue := rest, performing := s.performing ++ [(task, 0)] } := by
  refine ⟨id, id, id, fun hp hf => .inr ⟨?_, hf⟩, fun _ h => h⟩
  rcases hp with hp | ⟨failures, hp⟩
  · rw [hqueue] at hp
    rcases mem_cons.mp hp with rfl | hp
    · exact .inr ⟨0, mem_append_right _ (mem_singleton.mpr rfl)⟩
    · exact .inl hp
  · exact .inr ⟨failures, mem_append_left _ hp⟩

lemma keeps_attempt {k failures : ℕ} {task : SyncTask} (hbackup : pools.backupPool)
    (htask : s.performing[k]? = some (task, failures)) :
    Keeps g s (s.performAttempt pools retryTimes k task failures true) := by
  have hother : ∀ {n}, (g.task, n) ∈ s.performing → g.task ≠ task →
      ∃ j, j ≠ k ∧ s.performing[j]? = some (g.task, n) := by
    intro n hmem hne
    obtain ⟨j, hj⟩ := mem_iff_getElem?.mp hmem
    refine ⟨j, ?_, hj⟩
    rintro rfl
    rw [htask] at hj
    cases hj
    exact hne rfl
  unfold performAttempt
  rw [hbackup]
  simp only [Bool.not_true, Bool.false_eq_true, if_false, Bool.true_and, decide_eq_true_eq]
  by_cases hfile : task.filePath ∈ s.files
  · rw [if_pos hfile]
    refine ⟨id, .tail _, id, fun hp hf => ?_, fun _ h => h⟩
    by_cases heq : g.task = task
    · left
      rw [← heq]
      exact .head _
    · refine .inr ⟨hp.imp_right ?_, hf⟩
      rintro ⟨n, hn⟩
      exact ⟨n, mem_eraseIdx_iff_getElem?.mpr (hother hn heq)⟩
  · rw [if_neg hfile]
    have hne : g.localFilePath ∈ s.files → g.task ≠ task := by
      rintro hf rfl
      exact hfile hf
    split
    · refine ⟨id, id, id, fun hp hf => .inr ⟨hp.imp_right ?_, hf⟩, fun _ h => h⟩
      rintro ⟨n, hn⟩
      obtain ⟨j, hjk, hj⟩ := hother hn (hne hf)
      exact ⟨n, mem_of_getElem? ((getElem?_set_ne hjk.symm).trans hj)⟩
    · refine ⟨id, id, id, fun hp hf => .inr ⟨hp.imp_right ?_, hf⟩, fun _ h => h⟩
      rintro ⟨n, hn⟩
      exact ⟨n, mem_eraseIdx_iff_getElem?.mpr (hother hn (hne hf))⟩

lemma keeps_recover {healthy : Bool}
    (h : checkAndRecover pools healthy s.usingBackup ≠ s.usingBackup → g.phase.onBackup = false) :
    Keeps g s { s with usingBackup := checkAndRecover pools healthy s.usingBackup } := by
  refine ⟨id, id, id, fun hp hf => .inr ⟨hp, hf⟩, fun hback husing => ?_⟩
  by_contra hswitched
  rw [h (fun heq => hswitched (heq.trans husing))] at hback
  cases hback

end

lemma names_of_set {fs : List Flush} {i j : ℕ} {f g : Flush} {phase : FlushPhase} (hf : fs[i]? = some f)
    (hg : (fs.set i { f with phase := phase })[j]? = some g) :
    ∃ g₀, fs[j]? = some g₀ ∧ g₀.objectName = g.objectName ∧ g₀.localFilePath = g.localFilePath := by
  rcases getElem?_set_cases hg with ⟨rfl, rfl⟩ | ⟨-, hg⟩
  · exact ⟨f, hf, rfl, rfl⟩
  · exact ⟨g, hg, rfl, rfl⟩

lemma SyncInv.step (hbackup : pools.backupPool) (h : SyncInv s) (htakes : BackupTakesCopies act)
    (htime : CopiesInTime pools s act) (hs : s.step pools retryTimes act = some s') : SyncInv s' := by
  -- a step that adds no flush and moves none
  have hkeeps : (∀ g ∈ s.flushes, Keeps g s s') → s'.flushes = s.flushes → SyncInv s' := by
    intro hk heq
    refine ⟨heq ▸ h.distinct, fun g hg => ?_⟩
    rw [heq] at hg
    exact (h.placed g hg).keep (hk g hg)
  cases act with
  | flush objectName localFilePath =>
    obtain ⟨hnew, rfl⟩ := ite_some_none_eq_some.mp hs
    rw [List.all_eq_true] at hnew
    constructor
    · have hapart : ∀ f ∈ s.flushes, f.objectName ≠ objectName ∧ f.localFilePath ≠ localFilePath :=
        fun f hf => by simpa using hnew f hf
      intro i j f g hij hf hg
      rcases getElem?_concat_cases hf with hf | ⟨hi, rfl⟩
      · rcases getElem?_concat_cases hg with hg | ⟨-, rfl⟩
        · exact h.distinct i j f g hij hf hg
        · exact hapart f (mem_of_getElem? hf)
      · rcases getElem?_concat_cases hg with hg | ⟨hj, -⟩
        · have hne := hapart g (mem_of_getElem? hg)
          exact ⟨hne.1.symm, hne.2.symm⟩
        · exact absurd (hi.trans hj.symm) hij
    · intro f hf
      rcases mem_append.mp hf with hf | hf
      · refine (h.placed f hf).keep ⟨id, id, .tail _, fun hp hfile => ?_, fun _ h => h⟩
        exact .inr ⟨hp, .tail _ hfile⟩
      · rw [mem_singleton.mp hf]
        exact ⟨mem_cons_self, by rintro ⟨⟩⟩
  | step i =>
    obtain ⟨f, hf, hs⟩ := bind_eq_some_iff.mp hs
    obtain ⟨⟨s₁, phase⟩, hstep, hs⟩ := bind_eq_some_iff.mp hs
    cases hs
    obtain ⟨henqueued, hremoved⟩ := htime f hf
    obtain ⟨hplaced, hothers⟩ := stepFlush_spec (h.placed f (mem_of_getElem? hf)) henqueued hremoved hstep
    constructor
    · intro j k g g' hjk hg hg'
      obtain ⟨g₀, hg₀, hname, hfile⟩ := names_of_set hf hg
      obtain ⟨g₁, hg₁, hname', hfile'⟩ := names_of_set hf hg'
      have hapart := h.distinct j k g₀ g₁ hjk hg₀ hg₁
      rw [Apart, hname, hname', hfile, hfile'] at hapart
      exact hapart
    · intro g hg
      obtain ⟨j, hj⟩ := mem_iff_getElem?.mp hg
      rcases getElem?_set_cases hj with ⟨rfl, rfl⟩ | ⟨hij, hj⟩
      · exact hplaced
      · have hkept := (h.placed g (mem_of_getElem? hj)).keep (hothers g (h.distinct i j f g hij hf hj))
        exact hkept
  | take =>
    simp only [step] at hs
    split at hs <;> cases hs
    · rename_i task rest hqueue
      exact hkeeps (fun g _ => keeps_take hqueue) rfl
  | attempt =>
    obtain ⟨⟨task, failures⟩, htask, hs⟩ := bind_eq_some_iff.mp hs
    cases hs
    cases htakes
    refine hkeeps (fun g _ => keeps_attempt hbackup htask) ?_
    unfold performAttempt
    split
    · rfl
    · split
      · rfl
      · split <;> rfl
  | checkAndRecover =>
    cases hs
    exact hkeeps (fun g hg => keeps_recover (fun hne => htime hne g hg)) rfl

/-- In every run in which copies are made in time, every object whose flush has succeeded is in
the active pool, whichever switches there have been. -/
theorem flushed_object_in_active_pool (hbackup : pools.backupPool = true) {usingBackup : Bool}
    {as : List SyncAction} (hg : Guarded (SyncState.step pools retryTimes)
      (fun s act => BackupTakesCopies act ∧ CopiesInTime pools s act) (.start usingBackup) as)
    (hrun : exec (SyncState.step pools retryTimes) (.start usingBackup) as = some s)
    {f : Flush} {landed : PoolName} (hf : f ∈ s.flushes) (hphase : f.phase = .returned (some landed)) :
    f.objectName ∈ s.objects (activePool s.usingBackup) := by
  have hinv : SyncInv s := exec_invariant SyncInv
    (fun s act s' h hg hs => h.step hbackup hg.1 hg.2 hs)
    ⟨by rintro _ _ _ _ _ ⟨⟩, by rintro _ ⟨⟩⟩ hg hrun
  have hplaced := hinv.placed f hf
  rw [Placed, hphase] at hplaced
  cases landed with
  | primary =>
    cases s.usingBackup with
    | false => exact hplaced.1
    | true => exact hplaced.2
  | backup =>
    rw [hplaced.2]
    exact hplaced.1

end

def good : FlushEnv := ⟨fine, true, true, true⟩

def primaryDown : FlushEnv := ⟨down, true, true, true⟩

def takesCopiesCheck : SyncAction → Bool
  | .attempt _ ok => ok
  | _ => true

def copiesInTimeCheck (pools : Pools) (s : SyncState) : SyncAction → Bool
  | .step i e => s.flushes[i]?.all (fun f =>
      (f.phase != .enqueuing .primary || e.enqueued) &&
      (f.phase != .removing (some .primary) ||
        !(s.syncQueue.contains f.task || s.performing.any (fun p => p.1 == f.task))))
  | .checkAndRecover healthy => checkAndRecover pools healthy s.usingBackup == s.usingBackup ||
      s.flushes.all (fun f => !f.phase.onBackup)
  | _ => true

lemma takesCopies_of_check {act : SyncAction} (h : takesCopiesCheck act) : BackupTakesCopies act := by
  cases act with
  | attempt => exact h
  | _ => trivial

lemma copiesInTime_of_check {pools : Pools} {s : SyncState} {act : SyncAction}
    (h : copiesInTimeCheck pools s act) : CopiesInTime pools s act := by
  cases act with
  | flush | take | attempt => trivial
  | step =>
    intro f hf
    simp only [copiesInTimeCheck, hf, all_some, and_eq_true, or_eq_true, bne_iff_ne,
      not_eq_true', or_eq_false_iff] at h
    refine ⟨fun hphase => h.1.resolve_left (fun hne => hne hphase), fun hphase hp => ?_⟩
    obtain ⟨hqueue, hbusy⟩ := h.2.resolve_left (fun hne => hne hphase)
    rcases hp with hp | ⟨failures, hp⟩
    · simp [hp] at hqueue
    · simp only [List.any_eq_false] at hbusy
      exact hbusy _ hp (beq_self_eq_true f.task)
  | checkAndRecover =>
    intro hne f hf
    simp only [copiesInTimeCheck, or_eq_true, beq_iff_eq, List.all_eq_true, not_eq_true'] at h
    exact h.resolve_left hne f hf

def switchRun : List SyncAction :=
  [.flush "orders/1" "tmp/1", .step 0 good, .step 0 good, .step 0 good, .take, .attempt 0 true, .step 0 good,
    .step 0 good, .flush "orders/2" "tmp/2", .step 1 good, .step 1 primaryDown, .step 1 good, .step 1 good,
    .step 1 good, .step 1 good, .step 1 good, .step 1 good, .step 1 good]

theorem flushed_object_in_active_pool_switch :
    (exec (SyncState.step bothPools 3) (.start false) switchRun).map (fun s =>
      (s.usingBackup, s.backup, s.flushes.map Flush.phase)) =
      some (true, ["orders/2", "orders/1"], [.returned (some .primary), .returned (some .backup)]) ∧
    ∀ s, exec (SyncState.step bothPools 3) (.start false) switchRun = some s → ∀ f ∈ s.flushes,
      f.phase = .returned (some .primary) → f.objectName ∈ s.objects (activePool s.usingBackup) := by
  have hcheck : Guarded (SyncState.step bothPools 3)
      (fun s act => takesCopiesCheck act = true ∧ copiesInTimeCheck bothPools s act = true)
      (.start false) switchRun := by decide +kernel
  refine ⟨by decide +kernel, fun s hrun f hf hphase => ?_⟩
  exact flushed_object_in_active_pool rfl
    (hcheck.mono (fun _ _ h => ⟨takesCopies_of_check h.1, copiesInTime_of_check h.2⟩)) hrun hf hphase

def lateCopyRun : List SyncAction :=
  [.flush "orders/1" "tmp/1", .step 0 good, .step 0 good, .step 0 good, .step 0 good, .step 0 good, .take,
    .attempt 0 true, .attempt 0 true, .attempt 0 true, .attempt 0 true, .flush "orders/2" "tmp/2", .step 1 good,
    .step 1 primaryDown, .step 1 good, .step 1 good]

def switchBackRun : List SyncAction :=
  [.flush "orders/1" "tmp/1", .step 0 good, .step 0 primaryDown, .step 0 good, .step 0 good, .step 0 good,
    .step 0 good, .step 0 good, .take, .attempt 0 true, .step 0 good, .step 0 good, .checkAndRecover true]

def activeObjects (s : SyncState) : List String × ℕ × List FlushPhase :=
  (s.objects (activePool s.usingBackup), s.syncQueue.length + s.performing.length, s.flushes.map Flush.phase)

/-- An object is missing right after the switch to the backup pool, and one right after the
switch back, with no task left and the backup pool healthy all the time. -/
theorem flushed_object_missing :
    (Guarded (SyncState.step bothPools 3) (fun _ act => takesCopiesCheck act = true) (.start false) lateCopyRun ∧
      (exec (SyncState.step bothPools 3) (.start false) lateCopyRun).map activeObjects =
        some ([], 0, [.returned (some .primary), .uploading (.retrying "connection refused")])) ∧
    (Guarded (SyncState.step bothPools 3) (fun _ act => takesCopiesCheck act = true) (.start false)
        switchBackRun ∧
      (exec (SyncState.step bothPools 3) (.start false) switchBackRun).map activeObjects =
        some ([], 0, [.returned (some .backup)])) := by
  decide +kernel

end MinIODB.Pool
