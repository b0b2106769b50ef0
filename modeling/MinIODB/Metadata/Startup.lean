import MinIODB.Metadata.Snapshot

/-!
# The synchronisation at start

A process draws its node identifier from the clock. At its start it compares the version in Redis
with that of the newest backup stored under this identifier. A backup is read for its version
without being decrypted. A version that is missing in Redis is set again from the backup; the
entries of the backup are only recovered if the version in Redis is smaller.
-/
namespace MinIODB.Metadata

open MinIODB.Backup (Bucket Object)

/-- Redis, the bucket of backups and the running process. The last three fields record the past:
for each identifier its newest full backup, the newest full backup of all, and Redis at the last
backup. A full backup is recorded as its time and the Redis it was taken from. -/
structure World where
  redis : Redis := .empty
  bucket : Bucket Stored := ∅
  nodeID : String
  mode : BackupMode := .full
  now : Int := 0
  newestFull : String → Option (Redis × Int) := fun _ => none
  lastFull : Option (String × Redis × Int) := none
  lastBackup : Option Redis := none

structure Setup where
  backup : BackupConfig := {}
  autoRepair : Bool := false
  md5 : String → List Char
  md5_hex : ∀ s, ∀ c ∈ md5 s, c.isAlphanum = true
  hostname : String := "localhost"
  sprintf : EntryValue → String := fun _ => ""

variable (cfg : Setup)

def generateNodeID (now : Int) : String :=
  String.ofList (("node-".toList ++ cfg.md5 (cfg.hostname ++ "-" ++ toString now)).take 12)

structure SyncEnv where
  minioOk : Bool := true
  lockOk : Bool := true
  setVersionOk : Bool := true
  idle : String → Option Nat := fun _ => some 0
  recovery : RecoveryEnv := {}

def World.config (w : World) : BackupConfig := { cfg.backup with backupMode := w.mode }

def World.record (w : World) (mode : BackupMode) (redis : Redis) (bucket : Bucket Stored) : World :=
  match mode with
  | .incremental => { w with redis := redis, bucket := bucket, lastBackup := some w.redis }
  | .full =>
    { w with
      redis := redis
      bucket := bucket
      newestFull := Function.update w.newestFull w.nodeID (some (w.redis, w.now))
      lastFull := some (w.nodeID, w.redis, w.now)
      lastBackup := some w.redis }

def World.backupEnv (w : World) (env : SyncEnv) : BackupEnv :=
  { now := w.now, idle := env.idle, uploadOk := env.minioOk }

def World.backup (w : World) (env : SyncEnv) : World × Except BackupError BackupMode :=
  let o := performBackup (w.config cfg) w.nodeID (w.backupEnv env) w.redis w.bucket
  match o.result with
  | .error e => ({ w with redis := o.redis, bucket := o.bucket }, .error e)
  | .ok mode => (w.record mode o.redis o.bucket, .ok mode)

def compareParts (x y : List Char) : Ordering :=
  match Query.parseInt x, Query.parseInt y with
  | some m, some n => compare m n
  | _, _ => compareOfLessAndEq (String.ofList x) (String.ofList y)

def compareVersions (v₁ v₂ : String) : Ordering :=
  let parts₁ := versionParts v₁
  let parts₂ := versionParts v₂
  ((compareParts (parts₁.getD 0 []) (parts₂.getD 0 [])).then
    (compareParts (parts₁.getD 1 []) (parts₂.getD 1 []))).then
    (compareParts (parts₁.getD 2 []) (parts₂.getD 2 []))

inductive VersionStatus
  | redisNewer
  | backupNewer
  | versionsEqual
  | versionConflict
  | redisVersionLost
  deriving DecidableEq

structure VersionInfo where
  redisVersion : String
  backupVersion : String := ""
  redisTimestamp : Int
  backupTimestamp : Int := zeroTime
  status : VersionStatus := .redisNewer
  backupObjectName : String := ""
  confidence : Nat := 10

def versionTimestampKey : String := "metadata:version:timestamp"

def getRedisVersionWithTimestamp (r : Redis) (now : Int) : String × Int × Bool × Redis :=
  match r.get versionKey with
  | .wrongType => ("1.0.0", now, false, r)
  | .missing => ("1.0.0", timestamp, false, r)
  | .text v =>
    match r.get versionTimestampKey with
    | .text _ => (v, timestamp, true, r)
    | _ => (v, now, true, r.setString versionTimestampKey (formatTime rfc3339 now))
where
  timestamp : Int := (r.getTime versionTimestampKey).getD now

def getBackupVersion (b : Bucket Stored) (name : String) : Option String :=
  ((b.lookup name).bind (fun o => o.content.parse)).map (·.version)

def getLatestBackupVersionInfo (env : SyncEnv) (w : World) : Option (String × Int × String) :=
  if env.minioOk then
    match listBackups w.nodeID w.bucket w.now 30 with
    | [] => some ("", zeroTime, "")
    | latest :: _ =>
      (getBackupVersion w.bucket latest.objectName).map
        (fun version => (version, latest.timestamp, latest.objectName))
  else none

def analyzeVersionStatus (info : VersionInfo) (redisVersionExists : Bool) :
    VersionStatus × Nat :=
  if !redisVersionExists then
    if info.backupVersion ≠ "" then (.redisVersionLost, info.confidence)
    else (.redisNewer, info.confidence)
  else if info.backupVersion = "" then (.redisNewer, info.confidence)
  else
    let timeDiff := info.redisTimestamp - info.backupTimestamp
    match compareVersions info.redisVersion info.backupVersion with
    | .gt =>
      if timeDiff < -(3600 * second) then (.versionConflict, 5) else (.redisNewer, info.confidence)
    | .lt => if timeDiff < 0 then (.backupNewer, info.confidence) else (.backupNewer, 7)
    | .eq => (.versionsEqual, info.confidence)

def getEnhancedVersionInfo (env : SyncEnv) (w : World) : VersionInfo × World :=
  let (version, timestamp, found, redis) := getRedisVersionWithTimestamp w.redis w.now
  let info : VersionInfo := { redisVersion := version, redisTimestamp := timestamp }
  let w := { w with redis := redis }
  match getLatestBackupVersionInfo env w with
  | none => (info, w)
  | some (backupVersion, backupTimestamp, name) =>
    let info := { info with
      backupVersion := backupVersion, backupTimestamp := backupTimestamp, backupObjectName := name }
    let analysis := analyzeVersionStatus info found
    ({ info with status := analysis.1, confidence := analysis.2 }, w)

inductive SyncError
  | lock
  | statusChanged
  | backupFailed
  | validation
  | integrity
  | recoveryFailed
  | recoveryErrors
  | setVersion
  | syncCheck
  deriving DecidableEq

def setCurrentVersion (env : SyncEnv) (w : World) (version : String) : Option World :=
  let redis := (w.redis.setString versionKey version).setString versionTimestampKey
    (formatTime rfc3339 w.now)
  if env.setVersionOk then some { w with redis := redis } else none

def validateBackupSuccess (env : SyncEnv) (w : World) : Bool :=
  env.minioOk &&
    match listBackups w.nodeID w.bucket w.now 1 with
    | [] => false
    | latest :: _ => decide (w.now - latest.timestamp ≤ 300 * second)

def performSafeBackup (env : SyncEnv) (w : World) (info : VersionInfo) :
    World × Option SyncError :=
  let (current, w) := getEnhancedVersionInfo env w
  if current.status ≠ info.status then (w, some .statusChanged)
  else
    match w.backup cfg env with
    | (w, .error _) => (w, some .backupFailed)
    | (w, .ok _) => (w, if validateBackupSuccess env w then none else some .validation)

def validateBackupIntegrity (env : SyncEnv) (w : World) (name : String) : Bool :=
  name ≠ "" && env.minioOk && (getBackupVersion w.bucket name).isSome

def safeRecoveryOptions : RecoveryOptions := { mode := .complete, overwrite := true }

def World.recover (w : World) (env : SyncEnv) (name : String) : RecoveryOutcome :=
  recoverBackup (w.config cfg) env.recovery safeRecoveryOptions w.redis w.bucket name

def World.recovered (w : World) (env : SyncEnv) (name : String) : World :=
  { w with redis := (w.recover cfg env name).redis }

def performSafeRecovery (env : SyncEnv) (w : World) (info : VersionInfo) :
    World × Option SyncError :=
  if !validateBackupIntegrity env w info.backupObjectName then (w, some .integrity)
  else
    let o := w.recover cfg env info.backupObjectName
    let w := w.recovered cfg env info.backupObjectName
    if o.error ≠ none then (w, some .recoveryFailed)
    else if !o.result.success || decide (0 < o.result.entriesError) then (w, some .recoveryErrors)
    else ((setCurrentVersion env w info.backupVersion).getD w, none)

def entryOf (entries : List MetadataEntry) (key : String) : Option MetadataEntry :=
  entries.reverse.find? (fun e => e.key = key)

def inconsistent (current backup : List MetadataEntry) : Bool :=
  backup.any (fun e => (entryOf current e.key).map (fun e => cfg.sprintf e.value) ≠
      (entryOf backup e.key).map (fun e => cfg.sprintf e.value)) ||
    current.any (fun e => entryOf backup e.key = none)

def performEnhancedConsistencyCheck (env : SyncEnv) (w : World) (info : VersionInfo) :
    World × Option SyncError :=
  match if env.minioOk then (w.bucket.lookup info.backupObjectName).bind (fun o => o.content.parse)
      else none with
  | none => (w, some .syncCheck)
  | some snapshot =>
    if inconsistent cfg (collectMetadata w.redis w.now) snapshot.entries && cfg.autoRepair then
      performSafeRecovery cfg env w info
    else (w, none)

def handleVersionConflict (env : SyncEnv) (w : World) (info : VersionInfo) :
    World × Option SyncError :=
  if 7 ≤ info.confidence then
    if info.redisTimestamp < info.backupTimestamp then performSafeRecovery cfg env w info
    else performSafeBackup cfg env w info
  else (w, none)

def recoverVersionFromBackup (env : SyncEnv) (w : World) (info : VersionInfo) :
    World × Option SyncError :=
  if info.backupVersion = "" then
    match setCurrentVersion env w "1.0.0" with
    | none => (w, some .setVersion)
    | some w => (w, none)
  else
    match setCurrentVersion env w info.backupVersion with
    | none => (w, some .setVersion)
    | some w =>
      let time := formatTime rfc3339 info.backupTimestamp
      ({ w with redis := w.redis.setString versionTimestampKey time }, none)

def syncLockKey : String := "metadata:sync:lock"

def synchronise (env : SyncEnv) (w : World) : World × Option SyncError :=
  let (info, w) := getEnhancedVersionInfo env w
  match info.status with
  | .redisNewer => performSafeBackup cfg env w info
  | .backupNewer => performSafeRecovery cfg env w info
  | .versionsEqual => performEnhancedConsistencyCheck cfg env w info
  | .versionConflict => handleVersionConflict cfg env w info
  | .redisVersionLost => recoverVersionFromBackup env w info

def World.locked (w : World) : World :=
  { w with redis := w.redis.put syncLockKey ⟨.string w.nodeID, 30⟩ trivial }

def releaseLock (w : World) : World :=
  if w.redis.get syncLockKey = .text w.nodeID then { w with redis := w.redis.del syncLockKey } else w

def performStartupSync (env : SyncEnv) (w : World) : World × Option SyncError :=
  if !env.lockOk then (w, some .lock)
  else if (w.redis.value syncLockKey).isSome then (w, none)
  else
    let o := synchronise cfg env w.locked
    (releaseLock o.1, o.2)

end MinIODB.Metadata
