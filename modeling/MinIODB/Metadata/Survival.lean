import MinIODB.Metadata.Incremental

/-!
# Metadata after the loss of Redis

The synchronisation at the start of a process recovers the entries of the newest backup only if
that backup was made under the identifier that the process has drawn, if it is not encrypted, and
if Redis already holds a version again that is smaller than the backup's.
-/
namespace MinIODB.Metadata
open Option Progress

open MinIODB.Backup (Bucket Object)

def SameMetadata (r r' : Redis) : Prop :=
  ∀ key, HasPrefixIn metadataStarts key → r'.value key = r.value key

lemma SameMetadata.trans {r₁ r₂ r₃ : Redis} (h : SameMetadata r₁ r₂) (h' : SameMetadata r₂ r₃) :
    SameMetadata r₁ r₃ := fun key hkey => (h' key hkey).trans (h key hkey)

variable {r : Redis} {key : String}

section
variable (hkey : ¬ HasPrefixIn metadataStarts key)
include hkey

lemma sameMetadata_put (item : Item)
    (h : item.value.NonEmpty) : SameMetadata r (r.put key item h) := by
  intro k hk
  have hne : k ≠ key := by
    rintro rfl
    exact hkey hk
  rw [Redis.value_put, if_neg hne]

lemma sameMetadata_setString (s : String) :
    SameMetadata r (r.setString key s) :=
  sameMetadata_put hkey _ _

lemma sameMetadata_del : SameMetadata r (r.del key) :=
  fun _ hk => Redis.value_del_of_ne (fun heq => hkey (heq ▸ hk))

end

lemma versionKey_notMetadata : ¬ HasPrefixIn metadataStarts versionKey := by decide

lemma versionTimestampKey_notMetadata : ¬ HasPrefixIn metadataStarts versionTimestampKey := by decide

lemma syncLockKey_notMetadata : ¬ HasPrefixIn metadataStarts syncLockKey := by decide

variable {cfg : Setup} {env : SyncEnv} {w w' : World} {name v bv : String}

lemma getRedisVersionWithTimestamp_text (hv : r.get versionKey = .text v) (now : Int) :
    ∃ t r', getRedisVersionWithTimestamp r now = (v, t, true, r') ∧ SameMetadata r r' := by
  unfold getRedisVersionWithTimestamp
  rw [hv]
  simp only
  split
  case h_1 => exact ⟨_, r, rfl, fun _ _ => rfl⟩
  case h_2 => exact ⟨now, _, rfl, sameMetadata_setString versionTimestampKey_notMetadata _⟩

lemma getEnhancedVersionInfo_backupNewer {t : Int} {rest : List BackupInfo}
    (hminio : env.minioOk) (hv : w.redis.get versionKey = .text v)
    (hlist : listBackups w.nodeID w.bucket w.now 30 = ⟨name, t⟩ :: rest)
    (hbv : getBackupVersion w.bucket name = some bv) (hne : bv ≠ "")
    (hlt : compareVersions v bv = .lt) :
    ∃ info r, getEnhancedVersionInfo env w = (info, { w with redis := r }) ∧
      SameMetadata w.redis r ∧ info.status = .backupNewer ∧ info.backupObjectName = name := by
  obtain ⟨tr, r, hredis, hsame⟩ := getRedisVersionWithTimestamp_text hv w.now
  have hlatest : getLatestBackupVersionInfo env { w with redis := r } = some (bv, t, name) := by
    simp [getLatestBackupVersionInfo, if_pos hminio, hlist, hbv]
  have hstatus : ∀ info : VersionInfo, info.redisVersion = v → info.backupVersion = bv →
      (analyzeVersionStatus info true).1 = .backupNewer := by
    rintro info rfl rfl
    simp only [analyzeVersionStatus, if_neg hne, hlt, Bool.not_true, Bool.false_eq_true, if_false]
    split <;> rfl
  unfold getEnhancedVersionInfo
  simp only [hredis, hlatest]
  exact ⟨_, r, rfl, hsame, hstatus _ rfl rfl, rfl⟩

lemma entriesError_recoverAll {renv : RecoveryEnv} {options : RecoveryOptions}
    (hover : options.overwrite) (entries : List MetadataEntry) :
    (recoverAll renv options r entries).entriesError = 0 := by
  have hturn : ∀ (p : Progress) (turn : MetadataEntry × Nat),
      (p.recover renv options turn).entriesError = p.entriesError := by
    intro p turn
    have hentry : recoverEntry renv options p.redis turn.2 turn.1 = some .write := if_pos hover
    simp only [recover, hentry]
    split
    case isTrue => exact exec_entriesError
    case isFalse => rfl
  have hloop : ∀ (turns : List (MetadataEntry × Nat)) (p : Progress),
      (turns.foldl (recover renv options) p).entriesError = p.entriesError := by
    intro turns
    induction turns with
    | nil =>
      intro p
      rfl
    | cons turn turns ih =>
      intro p
      rw [List.foldl_cons, ih, hturn]
  unfold recoverAll finish
  split
  case isTrue => rw [exec_entriesError, hloop]
  case isFalse => rw [hloop]

lemma setCurrentVersion_same {version : String} (h : setCurrentVersion env w version = some w') :
    SameMetadata w.redis w'.redis ∧ w'.nodeID = w.nodeID := by
  unfold setCurrentVersion at h
  obtain ⟨-, rfl⟩ := ite_some_none_eq_some.mp h
  exact ⟨(sameMetadata_setString versionKey_notMetadata _).trans
    (sameMetadata_setString versionTimestampKey_notMetadata _), rfl⟩

lemma performSafeRecovery_same {info : VersionInfo} {s : BackupSnapshot}
    (hminio : env.minioOk) (hclient : env.recovery.clientOk)
    (hname : info.backupObjectName = name) (hempty : name ≠ "")
    (hversion : (getBackupVersion w.bucket name).isSome)
    (hdownload : downloadBackup (w.config cfg) w.bucket name = some s) :
    ∃ w', performSafeRecovery cfg env w info = (w', none) ∧
      SameMetadata (w.recover cfg env name).redis w'.redis := by
  subst hname
  have hvalid : validateBackupIntegrity env w info.backupObjectName := by
    simp [validateBackupIntegrity, hempty, hminio, hversion]
  have hrun := @recoverFromBackup_run env.recovery safeRecoveryOptions w.redis s.entries (by decide)
    hclient
  have hrecover : w.recover cfg env info.backupObjectName =
      recoverFromBackup env.recovery safeRecoveryOptions w.redis (some s.entries) := by
    rw [World.recover, recoverBackup, hdownload, map_some]
  have herror : (w.recover cfg env info.backupObjectName).error = none := by rw [hrecover, hrun]
  have hcount : (w.recover cfg env info.backupObjectName).result.entriesError = 0 := by
    rw [hrecover, hrun]
    exact entriesError_recoverAll rfl _
  have hsuccess : (w.recover cfg env info.backupObjectName).result.success := by
    rw [hrecover, hrun]
    exact decide_eq_true (entriesError_recoverAll rfl _)
  unfold performSafeRecovery
  simp only [hvalid, herror, hcount, hsuccess]
  cases hset : setCurrentVersion env (w.recovered cfg env info.backupObjectName) info.backupVersion with
  | none => exact ⟨_, rfl, fun _ _ => rfl⟩
  | some w' => exact ⟨w', rfl, (setCurrentVersion_same hset).1⟩

lemma locked_same (w : World) : SameMetadata w.redis w.locked.redis :=
  sameMetadata_put syncLockKey_notMetadata ⟨.string w.nodeID, 30⟩ trivial

lemma get_versionKey_locked (w : World) : w.locked.redis.get versionKey = w.redis.get versionKey := by
  have hvalue : w.locked.redis.value versionKey = w.redis.value versionKey :=
    (Redis.value_put syncLockKey versionKey ⟨.string w.nodeID, 30⟩ trivial).trans
      (if_neg (by decide))
  rw [Redis.get, hvalue, Redis.get]

lemma releaseLock_same (w : World) : SameMetadata w.redis (releaseLock w).redis := by
  unfold releaseLock
  split
  case isTrue => exact sameMetadata_del syncLockKey_notMetadata
  case isFalse => exact fun _ _ => rfl

def failedUpload : List Action :=
  [.write (·.setString "table:a" "1"), .backup {}, .advance (60 * second), .backup {},
    .write (fun _ => .empty), .backup { minioOk := false }, .restart]

def afterFailedUpload : World :=
  (Transition.exec (step plainSetup) (World.start plainSetup 0) failedUpload).get
    (by decide +kernel)

lemma isSome_lastFull_afterFailedUpload : afterFailedUpload.lastFull.isSome := by
  decide +kernel

lemma collectMetadata_afterFailedUpload :
    collectMetadata (afterFailedUpload.lastFull.get isSome_lastFull_afterFailedUpload).2.1
      (afterFailedUpload.lastFull.get isSome_lastFull_afterFailedUpload).2.2 =
    [{ type := .dataIndex, key := "table:a", value := .text "1", timestamp := 60 * second }] := by
  decide +kernel

def lostRedis : List Action :=
  [.write (·.setString "table:a" "1"), .backup {}, .advance (60 * second + 5),
    .write (fun _ => .empty), .restart]

def lossOutcome (cfg : Setup) :
    Option (List String × Option SyncError × Option String × Option String) :=
  (Transition.exec (step cfg) (World.start cfg 0) lostRedis).map (fun w =>
    let o := performStartupSync cfg {} w
    ((listBackups w.nodeID w.bucket w.now 30).map (·.objectName), o.2,
      o.1.redis.getString "table:a", o.1.redis.getString versionKey))

def hashedSetup : Setup where
  backup := { retentionDays := 7 }
  md5 := fun s => s.toList.reverse.filter Char.isAlphanum
  md5_hex := fun _ _ hc => (List.mem_filter.mp hc).2

def encryptedSetup : Setup :=
  { plainSetup with backup :=
      { retentionDays := 7, encryptionEnabled := true, encryptionKey := List.replicate 32 1 } }

end MinIODB.Metadata
