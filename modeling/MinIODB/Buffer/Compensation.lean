import MinIODB.Buffer.Upload
import MinIODB.Library.Transition

/-!
# What a failed upload leaves behind

When the index update fails, `rollbackMinIOUpload` takes the data object out of the
primary pool. The other effects of the call are not undone: an object that failed over to
the backup pool, the task that copies it to the backup, its metadata in Redis and its
sidecar. A failed attempt leaves nothing exactly when none of these effects happened, and
then a later successful attempt of the same task is the only one that queries see.
-/
namespace MinIODB.Buffer
open Transition List

def performSync (pm : PoolManager) (s : Storage) : Storage :=
  match s.syncQueue.getLast? with
  | none => s
  | some object =>
    { s with
      syncQueue := s.syncQueue.dropLast
      backup := if pm.backupPool then object :: s.backup else s.backup }

def checkAndRecover (healthy : Bool) (s : Storage) : Storage :=
  { s with usingBackup := s.usingBackup && !healthy }

namespace Uploader

def sidecarOf (object : ObjectName) : ObjectName := (object.1, object.2 ++ ".meta.json")

def metaKey (u : Uploader) (object : ObjectName) : String :=
  (match u.appConfig with
    | some app => if app.keyPrefix ≠ "" then app.keyPrefix else "file_meta:"
    | none => "file_meta:") ++ object.2

def landsOnPrimary (e : UploadEnv) (pm : PoolManager) (s : Storage) : Bool :=
  e.putObject.isNone && !(pm.failoverManager && s.usingBackup)

def metaStored (e : UploadEnv) (pm : PoolManager) : Bool :=
  e.readMetadata.isNone && pm.redisPool && e.hset.isNone

def sidecarStored (e : UploadEnv) (pm : PoolManager) : Bool :=
  e.readMetadata.isNone && pm.minioPool && e.putSidecar.isNone

structure NothingLeft (u : Uploader) (pm : PoolManager) (object : ObjectName) (s : Storage) : Prop where
  primary : object ∉ s.primary
  sidecar : sidecarOf object ∉ s.primary
  fileMeta : u.metaKey object ∉ s.fileMeta
  synced : ∀ n, object ∉ ((performSync pm)^[n] s).backup

/-- The servers have never heard of the object. -/
structure Unknown (u : Uploader) (s : Storage) (object : ObjectName) : Prop where
  primary : object ∉ s.primary
  sidecar : sidecarOf object ∉ s.primary
  backup : object ∉ s.backup
  syncQueue : object ∉ s.syncQueue
  fileMeta : u.metaKey object ∉ s.fileMeta
  index : ∀ key, (key, object.2) ∉ s.index

def CleanFailure (e : UploadEnv) (pm : PoolManager) (object : ObjectName) (s : Storage) : Prop :=
  (executeWithFailover e pm object s).1 ≠ none ∨
    (landsOnPrimary e pm s = true ∧ (pm.failoverManager && e.enqueued) = false ∧
      metaStored e pm = false ∧ sidecarStored e pm = false)

variable {u : Uploader} {e : UploadEnv} {pm : PoolManager} {s : Storage} {object : ObjectName}
  {bufferKey : String}

lemma sidecarOf_ne (object : ObjectName) : sidecarOf object ≠ object := by
  intro heq
  have hlen := congrArg (fun o : ObjectName => o.2.length) heq
  simp [sidecarOf] at hlen

lemma objectOf_ne_sidecarOf (u : Uploader) (bufferKey : String) (n m : ℕ) :
    u.objectOf bufferKey n ≠ sidecarOf (u.objectOf bufferKey m) := by
  have hsnd : ∀ object : ObjectName, (sidecarOf object).2 = object.2 ++ ".meta.json" := fun _ => rfl
  intro heq
  have hname := congrArg Prod.snd heq
  rw [hsnd] at hname
  exact objectOf_ne_sidecar u bufferKey n m hname

lemma extractAndStoreFileMetadata_snd (u : Uploader) (e : UploadEnv) (pm : PoolManager)
    (object : ObjectName) (s : Storage) :
    (u.extractAndStoreFileMetadata e pm object s).2 =
      { s with
        fileMeta := if metaStored e pm then u.metaKey object :: s.fileMeta else s.fileMeta
        primary := if sidecarStored e pm then sidecarOf object :: s.primary else s.primary } := by
  unfold extractAndStoreFileMetadata storeMetadataToRedis storeMetadataToMinIOSidecar
    metaStored sidecarStored metaKey sidecarOf
  cases e.readMetadata <;> cases e.hset <;> cases e.putSidecar <;> cases pm.redisPool <;>
    cases pm.minioPool <;> rfl

lemma executeWithFailover_snd (h : (executeWithFailover e pm object s).1 = none) :
    ∃ b, (executeWithFailover e pm object s).2 =
      if landsOnPrimary e pm s then { s with primary := object :: s.primary }
      else { s with usingBackup := b, backup := object :: s.backup } := by
  unfold executeWithFailover at h ⊢
  unfold landsOnPrimary
  cases hput : e.putObject with
  | none =>
    refine ⟨s.usingBackup, ?_⟩
    cases hback : (pm.failoverManager && s.usingBackup) with
    | true | false => simp
  | some err =>
    simp only [hput] at h ⊢
    split at h
    · rename_i hswitch
      cases hbackup : e.putBackup with
      | none =>
        refine ⟨true, ?_⟩
        rw [if_pos hswitch]
        simp
      | some =>
        rw [hbackup] at h
        cases h
    · cases h

lemma executeWithFailover_failed (h : (executeWithFailover e pm object s).1 ≠ none) :
    ∃ b, (executeWithFailover e pm object s).2 = { s with usingBackup := b } := by
  unfold executeWithFailover at h ⊢
  cases hput : e.putObject with
  | none =>
    rw [hput] at h
    exact absurd rfl h
  | some err =>
    simp only [hput] at h ⊢
    split
    · rename_i hswitch
      rw [if_pos hswitch] at h
      cases hbackup : e.putBackup with
      | none =>
        rw [hbackup] at h
        exact absurd rfl h
      | some => exact ⟨true, rfl⟩
    · exact ⟨s.usingBackup, rfl⟩

lemma updateRedisIndex_failed {bufferKey : String}
    (h : (u.updateRedisIndex e pm bufferKey object s).1 ≠ none) :
    (u.updateRedisIndex e pm bufferKey object s).2 = s := by
  unfold updateRedisIndex at h ⊢
  split
  · rename_i hredis
    rw [if_pos hredis] at h
    split
    · rename_i heq
      simp only [heq] at h
      cases hsadd : e.saddIndex with
      | none =>
        rw [hsadd] at h
        exact absurd rfl h
      | some => rfl
    · rfl
  · rfl

lemma uploadToStorage_failed (hu : u.poolManager = some pm) (hminio : pm.minioPool)
    {bufferKey : String} (herror : (u.uploadToStorage e bufferKey s).1 ≠ none) :
    ((executeWithFailover e pm (u.objectOf bufferKey e.now) s).1 ≠ none ∧
      (u.uploadToStorage e bufferKey s).2 =
        (executeWithFailover e pm (u.objectOf bufferKey e.now) s).2) ∨
    ((executeWithFailover e pm (u.objectOf bufferKey e.now) s).1 = none ∧
      (u.uploadToStorage e bufferKey s).2 = rollbackMinIOUpload e pm (u.objectOf bufferKey e.now)
          (u.beforeIndex e pm (u.objectOf bufferKey e.now) s)) := by
  by_cases hput : (executeWithFailover e pm (u.objectOf bufferKey e.now) s).1 = none
  · refine .inr ⟨hput, ?_⟩
    rw [uploadToStorage_eq hu hminio hput] at herror ⊢
    have hsame := @updateRedisIndex_failed u e pm (u.beforeIndex e pm (u.objectOf bufferKey e.now) s)
      (u.objectOf bufferKey e.now) bufferKey
    rcases hcase : u.updateRedisIndex e pm bufferKey (u.objectOf bufferKey e.now)
      (u.beforeIndex e pm (u.objectOf bufferKey e.now) s) with ⟨r, s'⟩
    rw [hcase] at herror hsame
    cases r with
    | none => exact absurd rfl herror
    | some =>
      dsimp only at hsame ⊢
      rw [hsame (by simp)]
  · refine .inl ⟨hput, ?_⟩
    rw [uploadToStorage, hu]
    simp only [hminio, if_true]
    split
    · rename_i heq
      rw [heq]
    · rename_i heq
      exact absurd (congrArg Prod.fst heq) hput

lemma beforeIndex_eq (hput : (executeWithFailover e pm object s).1 = none) :
    ∃ b, u.beforeIndex e pm object s = { s with
        primary :=
          (if sidecarStored e pm then [sidecarOf object] else []) ++
            ((if landsOnPrimary e pm s then [object] else []) ++ s.primary)
        backup := (if landsOnPrimary e pm s then [] else [object]) ++ s.backup
        usingBackup := b
        syncQueue := (if pm.failoverManager && e.enqueued then [object] else []) ++ s.syncQueue
        fileMeta := (if metaStored e pm then [u.metaKey object] else []) ++ s.fileMeta } := by
  obtain ⟨b, hb⟩ := executeWithFailover_snd hput
  refine ⟨(executeWithFailover e pm object s).2.usingBackup, ?_⟩
  simp only [beforeIndex, extractAndStoreFileMetadata_snd, hb]
  cases landsOnPrimary e pm s <;> cases (pm.failoverManager && e.enqueued) <;>
    cases metaStored e pm <;> cases sidecarStored e pm <;> rfl

lemma synced_iff (pm : PoolManager) (object : ObjectName) (s : Storage) :
    (∀ n, object ∉ ((performSync pm)^[n] s).backup) ↔
      object ∉ s.backup ∧ (pm.backupPool → object ∉ s.syncQueue) := by
  have hstep : ∀ s : Storage, object ∉ s.backup ∧ (pm.backupPool → object ∉ s.syncQueue) →
      object ∉ (performSync pm s).backup ∧
        (pm.backupPool = true → object ∉ (performSync pm s).syncQueue) := by
    rintro s ⟨hbackup, hqueue⟩
    unfold performSync
    split
    · exact ⟨hbackup, hqueue⟩
    · rename_i o ho
      refine ⟨?_, fun hp hmem => hqueue hp (mem_of_mem_dropLast hmem)⟩
      dsimp only
      split
      · rename_i hp
        rw [mem_cons, not_or]
        refine ⟨?_, hbackup⟩
        rintro rfl
        exact hqueue hp (mem_of_getLast? ho)
      · exact hbackup
  constructor
  · intro h
    refine ⟨h 0, fun hp hmem => ?_⟩
    -- the workers reach the object after as many tasks as wait in front of it
    have hreach : ∀ (before after : List ObjectName) (s : Storage),
        s.syncQueue = before ++ object :: after →
        object ∈ ((performSync pm)^[after.length + 1] s).backup := by
      intro before after
      induction after using reverseRecOn with
      | nil =>
        intro s hs
        simp [performSync, hs, hp]
      | append_singleton after last ih =>
        intro s hs
        rw [length_append, length_singleton, Function.iterate_succ_apply]
        refine ih _ ?_
        have hqueue : s.syncQueue = (before ++ object :: after) ++ [last] := by
          rw [hs, append_assoc, cons_append]
        simp only [performSync, hqueue, getLast?_concat, dropLast_concat]
    obtain ⟨before, after, hs⟩ := append_of_mem hmem
    exact h _ (hreach before after s hs)
  · intro h n
    induction n generalizing s with
    | zero => exact h.1
    | succ n ih =>
      rw [Function.iterate_succ_apply]
      exact ih _ (hstep s h)

section
variable (hfresh : Unknown u s (u.objectOf bufferKey e.now))
include hfresh

lemma uploadToStorage_clean (hu : u.poolManager = some pm) (hminio : pm.minioPool) (hremove : e.removeObject = none)
    (herror : (u.uploadToStorage e bufferKey s).1 ≠ none)
    (hclean : CleanFailure e pm (u.objectOf bufferKey e.now) s) :
    ∃ b, (u.uploadToStorage e bufferKey s).2 = { s with usingBackup := b } := by
  rcases uploadToStorage_failed hu hminio herror with ⟨hput, heq⟩ | ⟨hput, heq⟩
  · obtain ⟨b, hb⟩ := executeWithFailover_failed hput
    exact ⟨b, heq.trans hb⟩
  · obtain ⟨b, hb⟩ := @beforeIndex_eq u e pm s (u.objectOf bufferKey e.now) hput
    obtain ⟨hlands, henqueued, hmeta, hsidecar⟩ := hclean.resolve_left (not_not.mpr hput)
    refine ⟨b, ?_⟩
    rw [heq, rollbackMinIOUpload, if_pos ⟨hminio, hremove⟩, hb]
    have hkeep : s.primary.filter (fun o => o ≠ u.objectOf bufferKey e.now) = s.primary := by
      refine filter_eq_self.mpr (fun o ho => decide_eq_true ?_)
      rintro rfl
      exact hfresh.primary ho
    simp only [hlands, henqueued, hmeta, hsidecar, Bool.false_eq_true, if_true, if_false,
      nil_append, singleton_append]
    rw [filter_cons_of_neg (by simp), hkeep]

lemma nothingLeft_iff (hu : u.poolManager = some pm) (hminio : pm.minioPool)
    (hbackup : pm.failoverManager → pm.backupPool)
    (hremove : e.removeObject = none) (herror : (u.uploadToStorage e bufferKey s).1 ≠ none) :
    NothingLeft u pm (u.objectOf bufferKey e.now) (u.uploadToStorage e bufferKey s).2 ↔
      CleanFailure e pm (u.objectOf bufferKey e.now) s := by
  constructor
  · intro h
    rcases uploadToStorage_failed hu hminio herror with ⟨hput, -⟩ | ⟨hput, heq⟩
    · exact .inl hput
    · obtain ⟨b, hb⟩ := @beforeIndex_eq u e pm s (u.objectOf bufferKey e.now) hput
      rw [heq, rollbackMinIOUpload, if_pos ⟨hminio, hremove⟩, hb] at h
      have hsync := (synced_iff pm _ _).mp h.synced
      refine .inr ⟨?_, ?_, ?_, ?_⟩
      · by_contra hlands
        exact hsync.1 (by simp [hlands])
      · by_contra henqueued
        have hboth := (Bool.and_eq_true _ _).mp (Bool.eq_true_of_not_eq_false henqueued)
        exact hsync.2 (hbackup hboth.1) (by simp [hboth.1, hboth.2])
      · by_contra hmeta
        exact h.fileMeta (by simp [hmeta])
      · by_contra hsidecar
        exact h.sidecar (by simp [hsidecar, sidecarOf_ne])
  · intro hclean
    obtain ⟨b, hb⟩ := uploadToStorage_clean hfresh hu hminio hremove herror hclean
    rw [hb]
    exact ⟨hfresh.primary, hfresh.sidecar, hfresh.fileMeta,
      (synced_iff pm _ _).mpr ⟨hfresh.backup, fun _ => hfresh.syncQueue⟩⟩

end

lemma updateRedisIndex_succeeded (h : (u.updateRedisIndex e pm bufferKey object s).1 = none) :
    ∃ key nodeData, (u.updateRedisIndex e pm bufferKey object s).2 =
      { s with index := (key, object.2) :: s.index, nodeData := nodeData } := by
  unfold updateRedisIndex at h ⊢
  split at h
  · rename_i hredis
    rw [if_pos hredis]
    split at h
    · dsimp only at h ⊢
      cases hsadd : e.saddIndex with
      | none => exact ⟨_, _, rfl⟩
      | some =>
        rw [hsadd] at h
        cases h
    · cases h
  · cases h

lemma uploadToStorage_succeeded (hu : u.poolManager = some pm) (hminio : pm.minioPool)
    (hok : (u.uploadToStorage e bufferKey s).1 = none) (hlands : landsOnPrimary e pm s) :
    (u.uploadToStorage e bufferKey s).2.primary =
        (if sidecarStored e pm then [sidecarOf (u.objectOf bufferKey e.now)] else []) ++
          u.objectOf bufferKey e.now :: s.primary ∧
      ∃ key, (u.uploadToStorage e bufferKey s).2.index =
        (key, (u.objectOf bufferKey e.now).2) :: s.index := by
  have hput : (executeWithFailover e pm (u.objectOf bufferKey e.now) s).1 = none := by
    by_contra hput
    rw [uploadToStorage, hu] at hok
    simp only [hminio, if_true] at hok
    split at hok
    · cases hok
    · rename_i heq
      exact hput (congrArg Prod.fst heq)
  rw [uploadToStorage_eq hu hminio hput] at hok ⊢
  obtain ⟨b, hbefore⟩ := @beforeIndex_eq u e pm s (u.objectOf bufferKey e.now) hput
  have hindex := @updateRedisIndex_succeeded u e pm (u.beforeIndex e pm (u.objectOf bufferKey e.now) s)
    (u.objectOf bufferKey e.now) bufferKey
  rcases hcase : u.updateRedisIndex e pm bufferKey (u.objectOf bufferKey e.now)
    (u.beforeIndex e pm (u.objectOf bufferKey e.now) s) with ⟨r, s'⟩
  rw [hcase] at hok hindex
  cases r with
  | none =>
    obtain ⟨key, nodeData, hs'⟩ := hindex rfl
    dsimp only at hs' ⊢
    rw [hs', hbefore]
    exact ⟨by simp [hlands], key, rfl⟩
  | some => cases hok

section

def attempt (u : Uploader) (bufferKey : String) (s : Storage) (a : Bool × UploadEnv) :
    Option String × Storage :=
  u.uploadToStorage a.2 bufferKey (checkAndRecover a.1 s)

def nextAttempt (u : Uploader) (bufferKey : String) (s : Storage) (a : Bool × UploadEnv) :
    Option Storage :=
  some (u.attempt bufferKey s a).2

def FailsCleanly (u : Uploader) (pm : PoolManager) (bufferKey : String) (s : Storage)
    (a : Bool × UploadEnv) : Prop :=
  (u.attempt bufferKey s a).1 ≠ none ∧ a.2.removeObject = none ∧
    CleanFailure a.2 pm (u.objectOf bufferKey a.2.now) (checkAndRecover a.1 s)

variable {t : Storage} {attempts : List (Bool × UploadEnv)} {last : Bool × UploadEnv}

lemma Unknown.usingBackup (h : Unknown u s object) (b : Bool) :
    Unknown u { s with usingBackup := b } object :=
  ⟨h.primary, h.sidecar, h.backup, h.syncQueue, h.fileMeta, h.index⟩

lemma attempts_clean (hu : u.poolManager = some pm) (hminio : pm.minioPool)
    (hfresh : ∀ a ∈ attempts, Unknown u s (u.objectOf bufferKey a.2.now))
    (hfails : Guarded (u.nextAttempt bufferKey) (FailsCleanly u pm bufferKey) s attempts)
    (hrun : exec (u.nextAttempt bufferKey) s attempts = some t) :
    ∃ b, t = { s with usingBackup := b } := by
  induction attempts generalizing s with
  | nil =>
    cases hrun
    exact ⟨t.usingBackup, rfl⟩
  | cons a attempts ih =>
    obtain ⟨s', hs', hrest⟩ := exec_cons hrun
    cases hs'
    obtain ⟨herror, hremove, hclean⟩ := hfails.1
    have hhead : Unknown u (checkAndRecover a.1 s) (u.objectOf bufferKey a.2.now) :=
      (hfresh a (.head _)).usingBackup _
    obtain ⟨b, hb⟩ := uploadToStorage_clean hhead hu hminio hremove herror hclean
    have htail := hfails.2 _ rfl
    rw [attempt, hb] at hrest htail
    exact ih (s := { checkAndRecover a.1 s with usingBackup := b })
      (fun a' ha' => (hfresh a' (.tail _ ha')).usingBackup b) htail hrest

lemma last_attempt_visible (hu : u.poolManager = some pm) (hminio : pm.minioPool)
    (hfresh : ∀ a ∈ attempts ++ [last], Unknown u s (u.objectOf bufferKey a.2.now))
    (hfails : Guarded (u.nextAttempt bufferKey) (FailsCleanly u pm bufferKey) s attempts)
    (hrun : exec (u.nextAttempt bufferKey) s attempts = some t)
    (hok : (u.attempt bufferKey t last).1 = none)
    (hlands : landsOnPrimary last.2 pm (checkAndRecover last.1 t)) :
    ∀ a ∈ attempts ++ [last],
      (u.objectOf bufferKey a.2.now ∈ (u.attempt bufferKey t last).2.primary ↔
        a.2.now = last.2.now) ∧
      ((∃ key, (key, (u.objectOf bufferKey a.2.now).2) ∈ (u.attempt bufferKey t last).2.index) ↔
        a.2.now = last.2.now) := by
  intro a ha
  obtain ⟨b, ht⟩ := attempts_clean hu hminio
    (fun a ha => hfresh a (mem_append_left _ ha)) hfails hrun
  have hunknown : Unknown u t (u.objectOf bufferKey a.2.now) := by
    rw [ht]
    exact (hfresh a ha).usingBackup b
  rw [attempt] at hok ⊢
  obtain ⟨hprimary, key, hindex⟩ := uploadToStorage_succeeded hu hminio hok hlands
  rw [hprimary, hindex, ← (objectOf_injective u bufferKey).eq_iff]
  constructor
  · constructor
    · intro hmem
      rcases mem_append.mp hmem with hmem | hmem
      · split at hmem
        · exact absurd (mem_singleton.mp hmem) (objectOf_ne_sidecarOf u bufferKey _ _)
        · cases hmem
      · exact (mem_cons.mp hmem).resolve_right hunknown.primary
    · intro heq
      exact mem_append_right _ (mem_cons.mpr (.inl heq))
  · constructor
    · rintro ⟨k, hmem⟩
      rcases mem_cons.mp hmem with heq | hmem
      · exact Prod.ext rfl (Prod.mk.inj heq).2
      · exact absurd hmem (hunknown.index k)
    · intro heq
      exact ⟨key, mem_cons.mpr (.inl (by rw [heq]))⟩

end

lemma backupPool_newPoolManager {config : PoolManagerConfig} {conn : ConnectEnv}
    (h : newPoolManager config conn = some pm) (hfailover : pm.failoverManager) :
    pm.backupPool = true := by
  obtain ⟨_, rfl⟩ := Option.ite_some_none_eq_some.mp h
  simp only [Bool.and_eq_true] at hfailover ⊢
  exact hfailover.1.2

lemma unknown_empty (u : Uploader) (object : ObjectName) : Unknown u Storage.empty object :=
  ⟨not_mem_nil, not_mem_nil, not_mem_nil, not_mem_nil, not_mem_nil,
    fun _ => not_mem_nil⟩

end Uploader
open Uploader

/-- In every deployment that `NewPoolManager` sets up, an upload of a fresh object that fails with
a working rollback leaves nothing behind exactly when its failure is clean. After clean failures
and a success on the primary pool, the last object is the only one of the task to be seen. -/
theorem failed_upload_leaves_nothing (u : Uploader) {config : PoolManagerConfig} {conn : ConnectEnv}
    {pm : PoolManager} (hpm : newPoolManager config conn = some pm) (hu : u.poolManager = some pm)
    (bufferKey : String) (s : Storage) :
    (∀ e : UploadEnv, Unknown u s (u.objectOf bufferKey e.now) → e.removeObject = none →
      (u.uploadToStorage e bufferKey s).1 ≠ none →
      (NothingLeft u pm (u.objectOf bufferKey e.now) (u.uploadToStorage e bufferKey s).2 ↔
        CleanFailure e pm (u.objectOf bufferKey e.now) s)) ∧
    ∀ (attempts : List (Bool × UploadEnv)) (last : Bool × UploadEnv) (t : Storage),
      (∀ a ∈ attempts ++ [last], Unknown u s (u.objectOf bufferKey a.2.now)) →
      Guarded (u.nextAttempt bufferKey) (FailsCleanly u pm bufferKey) s attempts →
      exec (u.nextAttempt bufferKey) s attempts = some t → (u.attempt bufferKey t last).1 = none →
      landsOnPrimary last.2 pm (checkAndRecover last.1 t) = true → ∀ a ∈ attempts ++ [last],
        (u.objectOf bufferKey a.2.now ∈ (u.attempt bufferKey t last).2.primary ↔
          a.2.now = last.2.now) ∧
        ((∃ key, (key, (u.objectOf bufferKey a.2.now).2) ∈ (u.attempt bufferKey t last).2.index) ↔
          a.2.now = last.2.now) := by
  have hminio := minioPool_newPoolManager hpm
  refine ⟨fun e hfresh hremove herror => ?_, fun attempts last t hfresh hfails hrun hok hlands => ?_⟩
  · exact nothingLeft_iff hfresh hu hminio (backupPool_newPoolManager hpm) hremove herror
  · exact last_attempt_visible hu hminio hfresh hfails hrun hok hlands

def unreadable : UploadEnv :=
  { UploadEnv.allSucceed 7 with readMetadata := some "unexpected EOF", saddIndex := some "READONLY" }

/-- Such an attempt leaves nothing, and a retry a moment later is the only one in sight. -/
theorem failed_upload_leaves_nothing_retry :
    NothingLeft (uploaderOf true) ⟨true, true, false, false⟩
      ((uploaderOf true).objectOf "orders/u1/2024-01-01" 7)
      ((uploaderOf true).uploadToStorage unreadable "orders/u1/2024-01-01" Storage.empty).2 ∧
    ∀ a ∈ [(false, unreadable)] ++ [(false, UploadEnv.allSucceed 8)],
      ((uploaderOf true).objectOf "orders/u1/2024-01-01" a.2.now ∈
          ((uploaderOf true).attempt "orders/u1/2024-01-01"
            ((uploaderOf true).attempt "orders/u1/2024-01-01" Storage.empty (false, unreadable)).2
            (false, UploadEnv.allSucceed 8)).2.primary ↔ a.2.now = 8) ∧
      ((∃ key, (key, ((uploaderOf true).objectOf "orders/u1/2024-01-01" a.2.now).2) ∈
          ((uploaderOf true).attempt "orders/u1/2024-01-01"
            ((uploaderOf true).attempt "orders/u1/2024-01-01" Storage.empty (false, unreadable)).2
            (false, UploadEnv.allSucceed 8)).2.index) ↔ a.2.now = 8) := by
  have hpm : newPoolManager ⟨true, false, false⟩ ⟨true, true, true, true⟩ =
      some ⟨true, true, false, false⟩ := rfl
  have hclean : CleanFailure unreadable ⟨true, true, false, false⟩
      ((uploaderOf true).objectOf "orders/u1/2024-01-01" 7) Storage.empty :=
    Or.inr ⟨rfl, rfl, rfl, rfl⟩
  have herror : ((uploaderOf true).uploadToStorage unreadable "orders/u1/2024-01-01"
      Storage.empty).1 ≠ none := by decide
  have hboth := failed_upload_leaves_nothing (uploaderOf true) hpm rfl "orders/u1/2024-01-01"
    Storage.empty
  refine ⟨(hboth.1 unreadable (unknown_empty _ _) rfl herror).mpr hclean, ?_⟩
  exact hboth.2 [(false, unreadable)] (false, UploadEnv.allSucceed 8) _
    (fun _ _ => unknown_empty _ _) ⟨⟨herror, rfl, hclean⟩, fun _ _ => trivial⟩ rfl (by decide) (by decide)

def failedOver : UploadEnv :=
  { UploadEnv.allSucceed 7 with putObject := some "timeout", saddIndex := some "READONLY" }

/-- A failed index update alone leaves the sidecar and the metadata. After a failover, the
object stays in the backup pool as well, and its copy is queued. -/
theorem failed_upload_leaves_traces :
    ((uploaderOf true).uploadToStorage
        { UploadEnv.allSucceed 7 with saddIndex := some "READONLY" } "orders/u1/2024-01-01"
        Storage.empty) =
      (some "failed to update metadata, upload rolled back: failed to update redis index: READONLY",
        { Storage.empty with
          primary := [("miniodb-data", "orders/u1/2024-01-01/7.parquet.meta.json")]
          fileMeta := ["file_meta:orders/u1/2024-01-01/7.parquet"] }) ∧
    (Uploader.uploadToStorage ⟨newPoolManager ⟨true, true, true⟩ ⟨true, true, true, true⟩, none, "node1"⟩
        failedOver "orders/u1/2024-01-01" Storage.empty) =
      (some "failed to update metadata, upload rolled back: failed to update redis index: READONLY",
        { Storage.empty with
          primary := [("miniodb-data", "orders/u1/2024-01-01/7.parquet.meta.json")]
          backup := [("miniodb-data", "orders/u1/2024-01-01/7.parquet")]
          usingBackup := true
          syncQueue := [("miniodb-data", "orders/u1/2024-01-01/7.parquet")]
          fileMeta := ["file_meta:orders/u1/2024-01-01/7.parquet"] }) := by
  decide

end MinIODB.Buffer
