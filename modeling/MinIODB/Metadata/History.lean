import MinIODB.Backup.Retention
import MinIODB.Metadata.Listing
import MinIODB.Metadata.RoundTrip
import MinIODB.Metadata.Startup

/-!
# Histories of a node and its metadata backups

Clients write to Redis, time passes, backups are taken and cleaned up, the mode is changed and
processes are restarted and synchronise. In every history the newest full backup of each identifier
is in the bucket until the retention has passed, and it is the first one that is listed for it.
-/
namespace MinIODB.Metadata

open MinIODB.Backup (Bucket Object CleanupEnv ObjectInfo startsWith startsWith_iff cutStart cutStart_append
  firstElement firstElement_append cutoff isBefore lookup_foldl_erase)

variable (cfg : Setup)

inductive Action
  | advance (t : Int)
  | write (f : Redis → Redis)
  | setMode (mode : BackupMode)
  | backup (env : SyncEnv)
  | forceFull (env : SyncEnv)
  | cleanup (env : CleanupEnv)
  | restart
  | sync (env : SyncEnv)

def expiredBackups (w : World) : List ObjectInfo :=
  (w.bucket.listRecursive (nodeStart w.nodeID)).filter (fun info =>
    isBefore info.lastModified
      (cutoff w.now cfg.backup.retentionDays))

def cleanupOldBackups (env : CleanupEnv) (w : World) : World :=
  let bucket := (expiredBackups cfg w).foldl
    (fun b info => if env.removeOk info.name then b.erase info.name else b) w.bucket
  if env.listOk then { w with bucket := bucket } else w

def step (w : World) : Action → Option World
  | .advance t => if w.now ≤ t ∧ ShortTime t then some { w with now := t } else none
  | .write f => some { w with redis := f w.redis }
  | .setMode mode => some { w with mode := mode }
  | .backup env => some (w.backup cfg env).1
  | .forceFull env =>
    let o := World.backup cfg { w with mode := .full } env
    some { o.1 with mode := w.mode }
  | .cleanup env => some (cleanupOldBackups cfg env w)
  | .restart =>
    some { w with nodeID := generateNodeID cfg w.now, mode := cfg.backup.backupMode }
  | .sync env => some (performStartupSync cfg env w).1

def World.start (now : Int) : World :=
  { nodeID := generateNodeID cfg now, mode := cfg.backup.backupMode, now := now }

lemma slash_notMem_generateNodeID (now : Int) : '/' ∉ (generateNodeID cfg now).toList := by
  rw [generateNodeID, String.toList_ofList]
  intro h
  rcases List.mem_append.mp (List.mem_of_mem_take h) with h | h
  · exact absurd h (by decide)
  · exact absurd (cfg.md5_hex _ _ h) (by decide)

variable {id nodeID : String} {t now : Int} {bcfg : BackupConfig} {r : Redis} {b : Bucket Stored}

lemma firstElement_objectName (hid : '/' ∉ id.toList) (mode : BackupMode) (t : Int) :
    firstElement (cutStart "metadata-backup/" (objectName id mode t)) = id := by
  have hname : objectName id mode t = "metadata-backup/" ++ (id ++ "/" ++
      (formatTime dateLayout t ++ "/" ++ fileStart mode ++ formatTime stampLayout t ++ ".json")) := by
    refine String.toList_inj.mp ?_
    delta objectName nodeStart
    simp
  rw [hname, cutStart_append, firstElement_append _ hid]

lemma eq_of_startsWith_objectName {id' : String} {mode : BackupMode}
    (hid : '/' ∉ id.toList) (hid' : '/' ∉ id'.toList)
    (h : startsWith (nodeStart id) (objectName id' mode t)) : id' = id := by
  obtain ⟨rest, hrest⟩ := startsWith_iff.mp h
  have hname : objectName id' mode t = "metadata-backup/" ++ (id ++ "/" ++ rest) := by
    rw [hrest]
    delta nodeStart
    simp only [String.append_assoc]
  rw [← firstElement_objectName hid' mode t, hname, cutStart_append,
    firstElement_append _ hid]

structure FullStored (w : World) (id : String) (rf : Redis) (tf : Int) : Prop where
  noSlash : '/' ∉ id.toList
  past : tf ≤ w.now
  short : ShortTime tf
  stored : w.now - cfg.backup.retentionDays * day ≤ tf →
    ∃ stored s, w.bucket.lookup (objectName id .full tf) = some ⟨stored, tf⟩ ∧
      encrypt cfg.backup s = some stored ∧ s.backupMode = .full ∧ s.entries = collectMetadata rf tf

structure Inv (w : World) : Prop where
  clock : ShortTime w.now
  noSlash : '/' ∉ w.nodeID.toList
  objects : ∀ name o, w.bucket.lookup name = some o → ∃ id mode t,
    name = objectName id mode t ∧ '/' ∉ id.toList ∧ ShortTime t ∧
      (mode = .full → ∃ rf tf, w.newestFull id = some (rf, tf) ∧ t ≤ tf)
  newest : ∀ id rf tf, w.newestFull id = some (rf, tf) → FullStored cfg w id rf tf
  last : ∀ id rf tf, w.lastFull = some (id, rf, tf) → w.newestFull id = some (rf, tf)

variable {cfg} {w w' : World}

open World AList

lemma inv_start (h : ShortTime now) : Inv cfg (start cfg now) where
  clock := h
  noSlash := slash_notMem_generateNodeID cfg now
  objects := by
    intro name o ho
    cases ho
  newest := by
    intro id rf tf hn
    cases hn
  last := by
    intro id rf tf hn
    cases hn

section
variable (h : Inv cfg w)
include h

lemma Inv.congr (hid : '/' ∉ w'.nodeID.toList) (hbucket : w'.bucket = w.bucket)
    (hnow : w'.now = w.now) (hnewest : w'.newestFull = w.newestFull)
    (hlast : w'.lastFull = w.lastFull) : Inv cfg w' where
  clock := hnow ▸ h.clock
  noSlash := hid
  objects := by
    rw [hbucket, hnewest]
    exact h.objects
  newest := by
    intro id rf tf hn
    rw [hnewest] at hn
    obtain ⟨hslash, hpast, hshort, hstored⟩ := h.newest id rf tf hn
    refine ⟨hslash, hnow ▸ hpast, hshort, ?_⟩
    rw [hbucket, hnow]
    exact hstored
  last := by
    rw [hlast, hnewest]
    exact h.last

lemma Inv.setRedis (r : Redis) : Inv cfg { w with redis := r } :=
  h.congr h.noSlash rfl rfl rfl rfl

lemma Inv.setMode (mode : BackupMode) : Inv cfg { w with mode := mode } :=
  h.congr h.noSlash rfl rfl rfl rfl

lemma Inv.advance (ht : w.now ≤ t) (hshort : ShortTime t) :
    Inv cfg { w with now := t } where
  clock := hshort
  noSlash := h.noSlash
  objects := h.objects
  newest := by
    intro id rf tf hn
    obtain ⟨hslash, hpast, hshort, hstored⟩ := h.newest id rf tf hn
    exact ⟨hslash, hpast.trans ht, hshort, fun hrecent => hstored (by simp only at hrecent; omega)⟩
  last := h.last

end

lemma performBackup_error {env : BackupEnv}
    {e : BackupError} (h : (performBackup bcfg nodeID env r b).result = .error e) :
    (performBackup bcfg nodeID env r b).bucket = b := by
  unfold performBackup at h ⊢
  simp only at h ⊢
  cases hstored : encrypt bcfg (takeSnapshot bcfg nodeID env r) with
  | none => rfl
  | some =>
    simp only [hstored] at h ⊢
    cases hupload : env.uploadOk with
    | false => rfl
    | true =>
      simp only [hupload, if_true] at h
      cases h

lemma backup_cases (w : World) (env : SyncEnv) :
    (∃ e r, w.backup cfg env = ({ w with redis := r }, .error e)) ∨
      ∃ mode r stored s, s = takeSnapshot (w.config cfg) w.nodeID (w.backupEnv env) w.redis ∧
        mode = s.backupMode ∧ encrypt cfg.backup s = some stored ∧ w.backup cfg env =
          (w.record mode r (w.bucket.insert (objectName w.nodeID mode w.now) ⟨stored, w.now⟩),
            .ok mode) := by
  simp only [backup]
  split
  case h_1 e he =>
    rw [performBackup_error he]
    exact .inl ⟨e, _, rfl⟩
  case h_2 mode hmode =>
    obtain ⟨hmode', stored, hstored, -, hbucket⟩ := performBackup_ok hmode
    rw [hbucket]
    exact .inr ⟨mode, _, stored, _, rfl, hmode', hstored, rfl⟩

lemma Inv.record_incremental (h : Inv cfg w) (r : Redis) (stored : Stored) :
    Inv cfg (w.record .incremental r
      (w.bucket.insert (objectName w.nodeID .incremental w.now) ⟨stored, w.now⟩)) where
  clock := h.clock
  noSlash := h.noSlash
  objects := by
    intro name o ho
    by_cases hname : name = objectName w.nodeID .incremental w.now
    · exact ⟨w.nodeID, .incremental, w.now, hname, h.noSlash, h.clock, fun hmode => by cases hmode⟩
    · simp only [record, lookup_insert_ne hname] at ho
      exact h.objects name o ho
  newest := by
    intro id rf tf hn
    obtain ⟨hslash, hpast, hshort, hstored⟩ := h.newest id rf tf hn
    refine ⟨hslash, hpast, hshort, fun hrecent => ?_⟩
    simp only [record, lookup_insert_ne (objectName_ne hshort h.clock)]
    exact hstored hrecent
  last := h.last

lemma Inv.record_full (h : Inv cfg w) (r : Redis) {stored : Stored} {s : BackupSnapshot}
    (hstored : encrypt cfg.backup s = some stored) (hmode : s.backupMode = .full)
    (hentries : s.entries = collectMetadata w.redis w.now) : Inv cfg (w.record .full r
      (w.bucket.insert (objectName w.nodeID .full w.now) ⟨stored, w.now⟩)) where
  clock := h.clock
  noSlash := h.noSlash
  objects := by
    intro name o ho
    by_cases hname : name = objectName w.nodeID .full w.now
    · exact ⟨w.nodeID, .full, w.now, hname, h.noSlash, h.clock,
        fun _ => ⟨w.redis, w.now, Function.update_self _ _ _, le_refl _⟩⟩
    · simp only [record, lookup_insert_ne hname] at ho
      obtain ⟨id, mode, t, hobject, hslash, hshort, hfull⟩ := h.objects name o ho
      refine ⟨id, mode, t, hobject, hslash, hshort, fun hmode => ?_⟩
      obtain ⟨rf, tf, hn, ht⟩ := hfull hmode
      by_cases hid : id = w.nodeID
      · exact ⟨w.redis, w.now, by rw [hid]; exact Function.update_self _ _ _,
          ht.trans (h.newest id rf tf hn).past⟩
      · exact ⟨rf, tf, (Function.update_of_ne hid _ _).trans hn, ht⟩
  newest := by
    intro id rf tf hn
    by_cases hid : id = w.nodeID
    · subst hid
      obtain ⟨rfl, rfl⟩ : w.redis = rf ∧ w.now = tf := by
        simpa [record] using hn
      exact ⟨h.noSlash, le_refl _, h.clock,
        fun _ => ⟨stored, s, lookup_insert _, hstored, hmode, hentries⟩⟩
    · rw [record] at hn
      simp only [Function.update_of_ne hid] at hn
      obtain ⟨hslash, hpast, hshort, hold⟩ := h.newest id rf tf hn
      refine ⟨hslash, hpast, hshort, fun hrecent => ?_⟩
      have hne : objectName id .full tf ≠ objectName w.nodeID .full w.now := by
        intro heq
        have hstart : startsWith (nodeStart id) (objectName id .full tf) := startsWith_objectName
        rw [heq] at hstart
        exact hid (eq_of_startsWith_objectName hslash h.noSlash hstart).symm
      simp only [record, lookup_insert_ne hne]
      exact hold hrecent
  last := by
    intro id rf tf hlast
    simp only [record, Option.some.injEq, Prod.mk.injEq] at hlast
    obtain ⟨rfl, rfl, rfl⟩ := hlast
    exact Function.update_self _ _ _

lemma Inv.backup (h : Inv cfg w) (env : SyncEnv) : Inv cfg (w.backup cfg env).1 := by
  rcases backup_cases w env with ⟨e, r, heq⟩ | ⟨mode, r, stored, s, hs, hmode, hstored, heq⟩
  · rw [heq]
    exact h.setRedis r
  · rw [heq]
    cases mode with
    | incremental => exact h.record_incremental r stored
    | full =>
      subst hs
      exact h.record_full r hstored hmode.symm (collectForBackup_full hmode.symm)

lemma lookup_of_lookup_foldl_erase {env : CleanupEnv}
    {infos : List ObjectInfo} {name : String} {o : Object Stored}
    (h : (infos.foldl (fun b info => if env.removeOk info.name then b.erase info.name else b)
      b).lookup name = some o) : b.lookup name = some o := by
  induction infos generalizing b with
  | nil => exact h
  | cons info infos ih =>
    have hrest := ih h
    dsimp only at hrest
    split at hrest
    case isFalse => exact hrest
    case isTrue =>
      by_cases hname : name = info.name
      · rw [hname, lookup_erase] at hrest
        cases hrest
      · rwa [lookup_erase_ne hname] at hrest

lemma Inv.cleanup (h : Inv cfg w) (env : CleanupEnv) :
    Inv cfg (cleanupOldBackups cfg env w) := by
  unfold cleanupOldBackups
  simp only
  split
  case isFalse => exact h
  case isTrue =>
    refine ⟨h.clock, h.noSlash, ?_, ?_, h.last⟩
    · intro name o ho
      exact h.objects name o (lookup_of_lookup_foldl_erase ho)
    · intro id rf tf hn
      obtain ⟨hslash, hpast, hshort, hstored⟩ := h.newest id rf tf hn
      refine ⟨hslash, hpast, hshort, fun hrecent => ?_⟩
      obtain ⟨stored, s, hlookup, hrest⟩ := hstored hrecent
      refine ⟨stored, s, ?_, hrest⟩
      rcases lookup_foldl_erase (expiredBackups cfg w) w.bucket
        (objectName id .full tf) with hsame | ⟨info, hinfo, hname⟩
      · exact hsame.trans hlookup
      · -- an expired object is older than the retention
        obtain ⟨hlisted, hexpired⟩ := List.mem_filter.mp hinfo
        obtain ⟨-, o, ho, hmodified⟩ := Bucket.mem_listRecursive.mp hlisted
        rw [hname, hlookup, Option.some.injEq] at ho
        rw [hmodified, ← ho] at hexpired
        have hold : tf < cutoff w.now cfg.backup.retentionDays :=
          of_decide_eq_true hexpired
        simp only [cutoff, day, second] at hold hrecent
        omega

variable (cfg) in
inductive Changes (env : SyncEnv) : World → World → Prop
  | redis (w : World) (r : Redis) : Changes env w { w with redis := r }
  | backup (w : World) : Changes env w (w.backup cfg env).1
  | trans {w₁ w₂ w₃ : World} : Changes env w₁ w₂ → Changes env w₂ w₃ → Changes env w₁ w₃

lemma Inv.changes {env : SyncEnv} (h : Inv cfg w) (hc : Changes cfg env w w') : Inv cfg w' := by
  induction hc with
  | redis w r => exact h.setRedis r
  | backup => exact h.backup env
  | trans _ _ ih₁ ih₂ => exact ih₂ (ih₁ h)

section

variable (env : SyncEnv) (info : VersionInfo)

lemma changes_getEnhancedVersionInfo (w : World) : Changes cfg env w (getEnhancedVersionInfo env w).2 := by
  unfold getEnhancedVersionInfo
  simp only
  split <;> exact .redis w _

lemma changes_performSafeBackup (w : World) :
    Changes cfg env w (performSafeBackup cfg env w info).1 := by
  have hfirst : Changes cfg env w _ := changes_getEnhancedVersionInfo env w
  have hbackup := hfirst.trans (.backup (getEnhancedVersionInfo env w).2)
  unfold performSafeBackup
  simp only
  split
  case isTrue => exact hfirst
  case isFalse =>
    split
    case h_1 w' e heq =>
      rw [heq] at hbackup
      exact hbackup
    case h_2 w' m heq =>
      rw [heq] at hbackup
      exact hbackup

lemma changes_setCurrentVersion {version : String} (h : setCurrentVersion env w version = some w') :
    Changes cfg env w w' := by
  unfold setCurrentVersion at h
  obtain ⟨-, rfl⟩ := Option.ite_some_none_eq_some.mp h
  exact .redis w _

lemma changes_performSafeRecovery (w : World) :
    Changes cfg env w (performSafeRecovery cfg env w info).1 := by
  unfold performSafeRecovery
  split
  case isTrue => exact .redis w w.redis
  case isFalse =>
    simp only
    split
    case isTrue => exact .redis w _
    case isFalse =>
      split
      case isTrue => exact .redis w _
      case isFalse =>
        have hfirst : Changes cfg env w (w.recovered cfg env info.backupObjectName) := .redis w _
        refine hfirst.trans ?_
        cases hset : setCurrentVersion env (w.recovered cfg env info.backupObjectName)
            info.backupVersion with
        | none => exact .redis _ _
        | some w' => exact changes_setCurrentVersion env hset

lemma changes_synchronise (w : World) : Changes cfg env w (synchronise cfg env w).1 := by
  refine (changes_getEnhancedVersionInfo env w).trans ?_
  unfold synchronise
  simp only
  split
  case h_1 => exact changes_performSafeBackup env _ _
  case h_2 => exact changes_performSafeRecovery env _ _
  case h_3 =>
    unfold performEnhancedConsistencyCheck
    split
    case h_1 => exact .redis _ _
    case h_2 =>
      split
      case isTrue => exact changes_performSafeRecovery env _ _
      case isFalse => exact .redis _ _
  case h_4 =>
    unfold handleVersionConflict
    split
    case isFalse => exact .redis _ _
    case isTrue =>
      split
      case isTrue => exact changes_performSafeRecovery env _ _
      case isFalse => exact changes_performSafeBackup env _ _
  case h_5 =>
    unfold recoverVersionFromBackup
    split
    case isTrue =>
      split
      case h_1 => exact .redis _ _
      case h_2 hset => exact changes_setCurrentVersion env hset
    case isFalse =>
      split
      case h_1 => exact .redis _ _
      case h_2 hset => exact (changes_setCurrentVersion env hset).trans (.redis _ _)

lemma changes_performStartupSync (w : World) :
    Changes cfg env w (performStartupSync cfg env w).1 := by
  unfold performStartupSync
  split
  case isTrue => exact .redis w w.redis
  case isFalse =>
    split
    case isTrue => exact .redis w w.redis
    case isFalse =>
      have hlocked : Changes cfg env w w.locked := .redis w _
      refine hlocked.trans ((changes_synchronise env w.locked).trans ?_)
      simp only [releaseLock]
      split
      case isTrue => exact .redis _ _
      case isFalse => exact .redis _ _

end

lemma Inv.step {a : Action} (h : Inv cfg w) (hstep : step cfg w a = some w') : Inv cfg w' := by
  cases a with
  | advance =>
    obtain ⟨⟨hle, hshort⟩, rfl⟩ := Option.ite_some_none_eq_some.mp hstep
    exact h.advance hle hshort
  | write f =>
    cases hstep
    exact h.setRedis (f w.redis)
  | setMode mode =>
    cases hstep
    exact h.setMode mode
  | backup env =>
    cases hstep
    exact h.backup env
  | forceFull env =>
    cases hstep
    exact ((h.setMode .full).backup env).setMode w.mode
  | cleanup env =>
    cases hstep
    exact h.cleanup env
  | restart =>
    cases hstep
    exact h.congr (slash_notMem_generateNodeID cfg w.now) rfl rfl rfl rfl
  | sync env =>
    cases hstep
    exact h.changes (changes_performStartupSync env w)

lemma inv_exec {actions : List Action} (hnow : ShortTime now)
    (h : Transition.exec (Metadata.step cfg) (start cfg now) actions = some w) : Inv cfg w :=
  Transition.exec_preserves (fun _ _ _ hinv hstep => hinv.step hstep) (inv_start hnow) h

lemma Inv.newest_listed (h : Inv cfg w) {rf : Redis} {tf : Int} {days : Nat}
    (hlast : w.lastFull = some (w.nodeID, rf, tf)) (hdays : w.now - days * day ≤ tf)
    (hretention : w.now - cfg.backup.retentionDays * day ≤ tf) :
    ∃ rest stored s, listBackups w.nodeID w.bucket w.now days =
        ⟨objectName w.nodeID .full tf, tf / second * second⟩ :: rest ∧
      w.bucket.lookup (objectName w.nodeID .full tf) = some ⟨stored, tf⟩ ∧
      encrypt cfg.backup s = some stored ∧ s.backupMode = .full ∧
      s.entries = collectMetadata rf tf := by
  have hnewest := h.last _ _ _ hlast
  have hstored := h.newest _ _ _ hnewest
  obtain ⟨stored, s, hlookup, hs⟩ := hstored.stored hretention
  have hobjects : BackupsUpTo w.nodeID w.bucket tf := by
    intro name o ho hstart
    obtain ⟨id, mode, t, rfl, hslash, hshort, hfull⟩ := h.objects name o ho
    obtain rfl := eq_of_startsWith_objectName h.noSlash hslash hstart
    refine ⟨mode, t, rfl, hshort, fun hmode => ?_⟩
    obtain ⟨rf', tf', hn, ht⟩ := hfull hmode
    rw [hnewest, Option.some.injEq, Prod.mk.injEq] at hn
    rwa [hn.2]
  obtain ⟨rest, hlist⟩ := listBackups_newest hobjects hstored.short hlookup hdays
  exact ⟨rest, stored, s, hlist, hlookup, hs⟩

end MinIODB.Metadata
