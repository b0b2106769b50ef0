import MinIODB.Backup.ObjectStore
import MinIODB.Library.Timestamp
import MinIODB.Metadata.Recovery
import MinIODB.Query.Pruning

/-!
# Metadata backups in the object store

A backup is a snapshot of the collected entries that is stored under the node's identifier and
the time at which it began. With encryption a snapshot can only be read with its key. The name of an
incremental backup has another beginning than that of a full one, and only full backups
are listed. Times are in nanoseconds since 1970 and the local time is UTC.
-/
namespace MinIODB.Metadata

open MinIODB.Backup (Bucket Object startsWith cutStart)

inductive BackupMode
  | full
  | incremental
  deriving DecidableEq

structure BackupSnapshot where
  nodeID : String
  timestamp : Int
  version : String
  entries : List MetadataEntry
  backupMode : BackupMode
  baseVersion : String
  deriving DecidableEq

inductive Stored
  | plain (s : BackupSnapshot)
  | encrypted (key : List UInt8) (s : BackupSnapshot)
  deriving DecidableEq

structure BackupConfig where
  retentionDays : Nat := 0
  encryptionEnabled : Bool := false
  encryptionKey : List UInt8 := []
  backupMode : BackupMode := .full

def keyLength : Nat := 32

def encrypt (cfg : BackupConfig) (s : BackupSnapshot) : Option Stored :=
  if !cfg.encryptionEnabled || cfg.encryptionKey.isEmpty then some (.plain s)
  else if cfg.encryptionKey.length = keyLength then some (.encrypted cfg.encryptionKey s)
  else none

def Stored.parse : Stored → Option BackupSnapshot
  | .plain s => some s
  | .encrypted _ _ => none

def Stored.decrypt (cfg : BackupConfig) : Stored → Option BackupSnapshot
  | .plain s => some s
  | .encrypted key s =>
    if cfg.encryptionEnabled && decide (key = cfg.encryptionKey) then some s else none

def second : Int := 1000000000

def day : Int := 86400 * second

open Timestamp in
def stampLayout : Layout :=
  [.slot .year, .slot .month, .slot .day, .lit '_', .slot .hour, .slot .minute, .slot .second]

open Timestamp in
def dateLayout : Layout := [.slot .year, .lit '/', .slot .month, .lit '/', .slot .day]

open Timestamp in
def rfc3339 : Layout :=
  [.slot .year, .lit '-', .slot .month, .lit '-', .slot .day, .lit 'T', .slot .hour, .lit ':',
    .slot .minute, .lit ':', .slot .second, .lit 'Z']

def formatTime (layout : Timestamp.Layout) (t : Int) : String :=
  String.ofList (Timestamp.format layout (t / second))

def parseTime (layout : Timestamp.Layout) (text : String) : Option Int :=
  (Timestamp.parse layout text.toList).map (· * second)

def nodeStart (nodeID : String) : String := "metadata-backup/" ++ nodeID ++ "/"

def fileStart : BackupMode → String
  | .full => "backup_"
  | .incremental => "incremental_"

def objectName (nodeID : String) (mode : BackupMode) (startTime : Int) : String :=
  nodeStart nodeID ++ formatTime dateLayout startTime ++ "/" ++ fileStart mode ++
    formatTime stampLayout startTime ++ ".json"

def fileName (path : String) : String :=
  String.ofList (path.toList.reverse.takeWhile (· ≠ '/')).reverse

def parseBackupTimestamp (name : String) : Option Int :=
  let file := (fileName name).toList
  if name.toList.count '/' + 1 < 4 then none
  else if !"backup_".toList.isPrefixOf file || !".json".toList.isSuffixOf file then none
  else parseTime stampLayout (String.ofList ((file.drop 7).take (file.length - 7 - 5)))

def versionKey : String := "metadata:version"

def backupStateKey : String := "metadata:backup:state"

def backupLastFullTimeKey : String := "metadata:backup:last_full_time"

def backupLastFullVersion : String := "metadata:backup:last_full_version"

def backupIncrementalCount : String := "metadata:backup:incremental_count"

def Redis.setString (r : Redis) (key value : String) : Redis :=
  r.put key { value := .string value } trivial

inductive Reply
  | missing
  | text (s : String)
  | wrongType
  deriving DecidableEq

def Redis.get (r : Redis) (key : String) : Reply :=
  match r.value key with
  | none => .missing
  | some (.string s) => .text s
  | some _ => .wrongType

def versionParts (version : String) : List (List Char) :=
  let parts := version.toList.splitOn '.'
  parts ++ List.replicate (3 - parts.length) ['0']

def incrementVersion (version : String) : String :=
  let parts := versionParts version
  let patch := match Query.parseInt (parts.getD 2 []) with
    | some n => (toString ((n + 1).bmod (2 ^ 64))).toList
    | none => ['1']
  String.ofList (['.'].intercalate (parts.set 2 patch))

def getCurrentAndIncrementVersion (r : Redis) : Redis × Option String :=
  match r.get versionKey with
  | .missing =>
    (r.setString versionKey (incrementVersion "1.0.0"), some (incrementVersion "1.0.0"))
  | .text v => (r.setString versionKey (incrementVersion v), some (incrementVersion v))
  | .wrongType => (r, none)

def Redis.getTime (r : Redis) (key : String) : Option Int :=
  match r.get key with
  | .text s => parseTime rfc3339 s
  | _ => none

def zeroTime : Int := -62135596800 * second

def determineBackupMode (cfg : BackupConfig) (r : Redis) : BackupMode :=
  match cfg.backupMode with
  | .full => .full
  | .incremental =>
    match r.getTime backupLastFullTimeKey with
    | some t => if t = zeroTime then .full else .incremental
    | none => .full

def Redis.incr (r : Redis) (key : String) : Redis :=
  match r.get key with
  | .missing => r.setString key "1"
  | .text s =>
    match Query.parseInt s.toList with
    | some n => if n + 1 < 2 ^ 63 then r.setString key (toString (n + 1)) else r
    | none => r
  | .wrongType => r

def updateBackupState (r : Redis) (mode : BackupMode) (backupTime : Int) (version : String) :
    Redis :=
  let r := r.setString backupStateKey (formatTime rfc3339 backupTime)
  match mode with
  | .full =>
    ((r.setString backupLastFullTimeKey (formatTime rfc3339 backupTime)).setString
      backupLastFullVersion version).setString backupIncrementalCount "0"
  | .incremental => r.incr backupIncrementalCount

structure BackupEnv where
  now : Int
  idle : String → Option Nat := fun _ => some 0
  uploadOk : Bool := true

def saturate (d : Int) : Int := max (-2 ^ 63) (min d (2 ^ 63 - 1))

def changedSince (env : BackupEnv) (since : Int) (key : String) : Bool :=
  match env.idle key with
  | none => true
  | some seconds =>
    !decide (saturate (env.now - since) < (seconds * second * second).bmod (2 ^ 64))

def collectMetadataIncremental (env : BackupEnv) (r : Redis) (since : Int) : List MetadataEntry :=
  collectSelected r (changedSince env since) env.now

def collectForBackup (cfg : BackupConfig) (env : BackupEnv) (r : Redis) :
    BackupMode × List MetadataEntry :=
  match determineBackupMode cfg r with
  | .full => (.full, collectMetadata r env.now)
  | .incremental =>
    match r.getTime backupStateKey with
    | none => (.full, collectMetadata r env.now)
    | some since =>
      let entries := collectMetadataIncremental env r since
      (.incremental, if entries.isEmpty then collectMetadata r env.now else entries)

inductive BackupError
  | encrypt
  | upload
  deriving DecidableEq

structure BackupOutcome where
  redis : Redis
  bucket : Bucket Stored
  result : Except BackupError BackupMode

def baseVersion (r : Redis) : BackupMode → String
  | .full => ""
  | .incremental =>
    match r.get backupLastFullVersion with
    | .text v => v
    | _ => ""

def takeSnapshot (cfg : BackupConfig) (nodeID : String) (env : BackupEnv) (r : Redis) :
    BackupSnapshot :=
  let collected := collectForBackup cfg env r
  let versioned := getCurrentAndIncrementVersion r
  { nodeID := nodeID
    timestamp := env.now
    version := versioned.2.getD "1.0.0"
    entries := collected.2
    backupMode := collected.1
    baseVersion := baseVersion versioned.1 collected.1 }

def performBackup (cfg : BackupConfig) (nodeID : String) (env : BackupEnv) (r : Redis)
    (b : Bucket Stored) : BackupOutcome :=
  let snapshot := takeSnapshot cfg nodeID env r
  let r := (getCurrentAndIncrementVersion r).1
  match encrypt cfg snapshot with
  | none => { redis := r, bucket := b, result := .error .encrypt }
  | some stored =>
    if env.uploadOk then
      { redis := updateBackupState r snapshot.backupMode env.now snapshot.version
        bucket := b.insert (objectName nodeID snapshot.backupMode env.now) ⟨stored, env.now⟩
        result := .ok snapshot.backupMode }
    else { redis := r, bucket := b, result := .error .upload }

lemma performBackup_ok {cfg : BackupConfig} {nodeID : String} {env : BackupEnv} {r : Redis}
    {b : Bucket Stored} {mode : BackupMode}
    (h : (performBackup cfg nodeID env r b).result = .ok mode) :
    let snapshot := takeSnapshot cfg nodeID env r
    mode = snapshot.backupMode ∧ ∃ stored, encrypt cfg snapshot = some stored ∧
      (performBackup cfg nodeID env r b).redis =
        updateBackupState (getCurrentAndIncrementVersion r).1 mode env.now snapshot.version ∧
      (performBackup cfg nodeID env r b).bucket =
        b.insert (objectName nodeID mode env.now) ⟨stored, env.now⟩ := by
  unfold performBackup at h ⊢
  simp only at h ⊢
  cases hstored : encrypt cfg (takeSnapshot cfg nodeID env r) with
  | none =>
    simp only [hstored] at h
    cases h
  | some stored =>
    simp only [hstored] at h ⊢
    cases hupload : env.uploadOk with
    | false =>
      simp only [hupload] at h
      cases h
    | true =>
      simp only [hupload, if_true] at h ⊢
      cases h
      exact ⟨rfl, stored, rfl, rfl, rfl⟩

structure BackupInfo where
  objectName : String
  timestamp : Int

def BackupInfo.NotOlder (x y : BackupInfo) : Prop := y.timestamp ≤ x.timestamp

instance : DecidableRel BackupInfo.NotOlder := fun x y =>
  inferInstanceAs (Decidable (y.timestamp ≤ x.timestamp))

def listBackups (nodeID : String) (b : Bucket Stored) (now : Int) (days : Nat) : List BackupInfo :=
  ((b.listRecursive (nodeStart nodeID)).filterMap (fun info =>
    match info.lastModified with
    | none => none
    | some modified =>
      if modified < now - days * day then none
      else (parseBackupTimestamp info.name).map (fun t => ⟨info.name, t⟩))).insertionSort
    BackupInfo.NotOlder

def downloadBackup (cfg : BackupConfig) (b : Bucket Stored) (name : String) :
    Option BackupSnapshot :=
  (b.lookup name).bind (fun o => o.content.decrypt cfg)

def recoverBackup (cfg : BackupConfig) (env : RecoveryEnv) (options : RecoveryOptions) (r : Redis)
    (b : Bucket Stored) (name : String) : RecoveryOutcome :=
  recoverFromBackup env options r ((downloadBackup cfg b name).map (·.entries))

end MinIODB.Metadata
