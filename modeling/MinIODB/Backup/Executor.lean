import MinIODB.Backup.Retention

/-!
# Backups and their restoration

The executor copies the objects of tables from the primary store to directories of the backup
store and back. Every copy is a server-side copy on the server it writes to, so it reads a
bucket of that same server. The two stores are different servers.

Goroutines that work on different tables write different objects; they are modelled one after
the other. Which requests fail is chosen by the environment with every call. Sizes, durations
and the records of executions are left out.
-/
namespace MinIODB.Backup

variable {δ : Type*}

inductive Status
  | completed
  | incomplete
  | failed
  deriving DecidableEq

structure TableManifest where
  tableName : String
  objectCount : Nat
  status : Status
  failedCount : Nat
  deriving DecidableEq

structure FullBackupManifest where
  backupID : String
  type : BackupType
  nodeID : String
  timestamp : Int
  tables : List TableManifest
  metadataBackup : String
  status : Status
  failedCount : Nat
  deriving DecidableEq

structure TableBackupManifest where
  backupID : String
  tableName : String
  nodeID : String
  timestamp : Int
  objectCount : Nat
  status : Status
  failedCount : Nat
  deriving DecidableEq

inductive Content (δ : Type*)
  | data (d : δ)
  | fullManifest (m : FullBackupManifest)
  | tableManifest (m : TableBackupManifest)
  | document (text : String)
  deriving DecidableEq

def Content.asFullManifest : Content δ → Option FullBackupManifest
  | .fullManifest m => some m
  | .tableManifest m =>
    some { backupID := m.backupID
           type := .table
           nodeID := m.nodeID
           timestamp := m.timestamp
           tables := []
           metadataBackup := ""
           status := m.status
           failedCount := m.failedCount }
  | _ => none

structure ExecutorConfig where
  primaryBucket : String
  backupBucket : String
  nodeID : String := "unknown"
  hasMetadata : Bool := false
  retentionDays : Int := 0

structure Stores (δ : Type*) where
  primary : Server (Content δ)
  backup : Server (Content δ)

inductive Issue
  | metadata
  | table (name : String)
  | document (name : String)
  deriving DecidableEq

inductive ExecutorError
  | ensureBucket
  | listTables
  | listObjects
  | tableNameRequired
  | uploadManifest
  | backupIDRequired
  | readManifest
  | parseManifest
  | metadataUnavailable
  | metadataFailed
  deriving DecidableEq

structure BackupResult where
  backupID : String
  type : BackupType
  status : Status
  objectCount : Nat
  failedCount : Nat
  errors : List Issue
  deriving DecidableEq

structure RestoreResult where
  backupID : String
  status : Status
  objectCount : Nat
  errors : List Issue
  deriving DecidableEq

structure BackupEnv where
  now : Int := 0
  ensureOk : Bool := true
  metadataOk : Bool := true
  listTablesOk : Bool := true
  listOk : String → Bool := fun _ => true
  copyOk : String → Bool := fun _ => true
  putOk : String → Bool := fun _ => true
  documents : List (String × String) := []
  cleanup : CleanupEnv := {}

structure RestoreEnv where
  now : Int := 0
  recoverOk : String → Bool := fun _ => true
  listOk : String → Bool := fun _ => true
  copyOk : String → Bool := fun _ => true

structure Copying (δ : Type*) where
  server : Server (Content δ)
  copied : Nat := 0
  failed : Nat := 0

def copyStep (now : Int) (copyOk : String → Bool) (srcBucket dstBucket : String) (c : Copying δ)
    (job : String × String) : Copying δ :=
  match if copyOk job.1 then c.server.copyObject now srcBucket job.1 dstBucket job.2 else none with
  | some server => { c with server := server, copied := c.copied + 1 }
  | none => { c with failed := c.failed + 1 }

def copyAll (now : Int) (copyOk : String → Bool) (srcBucket dstBucket : String) (c : Copying δ)
    (jobs : List (String × String)) : Copying δ :=
  jobs.foldl (copyStep now copyOk srcBucket dstBucket) c

def backupStart (backupID : String) : String := "backups/" ++ backupID ++ "/"

def dataStart (backupID : String) : String := backupStart backupID ++ "data/"

def manifestKey (backupID : String) : String := backupStart backupID ++ "manifest.json"

variable (cfg : ExecutorConfig)

def listTables (b : Bucket (Content δ)) : List String :=
  ((b.listShallow "").filterMap (fun info =>
    if '/' ∈ info.name.toList then some (firstElement info.name) else none)).dedup

def backupJobs (b : Bucket (Content δ)) (table backupID : String) : List (String × String) :=
  (b.listRecursive (table ++ "/")).map (fun info => (info.name, dataStart backupID ++ info.name))

def backupTable (env : BackupEnv) (w : Stores δ) (table backupID : String) :
    Stores δ × Except ExecutorError TableManifest :=
  match if env.listOk table then w.primary.lookup cfg.primaryBucket else none with
  | none => (w, .error .listObjects)
  | some b =>
    let c := copyAll env.now env.copyOk cfg.primaryBucket cfg.backupBucket
      { server := w.backup } (backupJobs b table backupID)
    ({ w with backup := c.server },
      .ok { tableName := table
            objectCount := c.copied
            status := if 0 < c.failed then .incomplete else .completed
            failedCount := c.failed })

structure FullProgress (δ : Type*) where
  stores : Stores δ
  tables : List TableManifest := []
  objects : Nat := 0
  failed : Nat := 0
  errors : List Issue := []

def fullStep (env : BackupEnv) (backupID : String) (p : FullProgress δ) (table : String) :
    FullProgress δ :=
  match backupTable cfg env p.stores table backupID with
  | (w, .ok m) =>
    { p with
      stores := w
      tables := p.tables ++ [m]
      objects := p.objects + m.objectCount
      failed := p.failed + m.failedCount }
  | (w, .error _) =>
    { p with
      stores := w
      tables := p.tables ++ [⟨table, 0, .failed, 0⟩]
      errors := p.errors ++ [.table table] }

def unixSeconds (now : Int) : Int := now / 1000000000

def Stores.cleanUp (w : Stores δ) (f : Bucket (Content δ) → Bucket (Content δ)) : Stores δ :=
  match w.backup.lookup cfg.backupBucket with
  | none => w
  | some b => { w with backup := w.backup.insert cfg.backupBucket (f b) }

def fullBackupID (env : BackupEnv) (backupID : String) : String :=
  if backupID = "" then "full-" ++ cfg.nodeID ++ "-" ++ toString (unixSeconds env.now)
  else backupID

def metadataBackupID (env : BackupEnv) : String :=
  if cfg.hasMetadata && env.metadataOk then
    "metadata-" ++ cfg.nodeID ++ "-" ++ toString (unixSeconds env.now)
  else ""

def fullTables (env : BackupEnv) (w : Stores δ) (backupID : String) (tables : List String) :
    FullProgress δ :=
  tables.foldl (fullStep cfg env backupID)
    { stores := w, errors := if cfg.hasMetadata && !env.metadataOk then [.metadata] else [] }

def FullProgress.status (p : FullProgress δ) : Status :=
  if p.errors ≠ [] ∨ 0 < p.failed then .incomplete else .completed

def FullProgress.manifest (env : BackupEnv) (backupID : String) (p : FullProgress δ) :
    FullBackupManifest where
  backupID := backupID
  type := .full
  nodeID := cfg.nodeID
  timestamp := env.now
  tables := p.tables
  metadataBackup := metadataBackupID cfg env
  status := p.status
  failedCount := p.failed

def finishFull (env : BackupEnv) (backupID : String) (p : FullProgress δ) :
    Stores δ × Except ExecutorError BackupResult :=
  match if env.putOk (manifestKey backupID) then
      p.stores.backup.put cfg.backupBucket (manifestKey backupID)
        ⟨.fullManifest (p.manifest cfg env backupID), env.now⟩
    else none with
  | none => (p.stores, .error .uploadManifest)
  | some server =>
    (Stores.cleanUp cfg { p.stores with backup := server }
        (fun b => cleanupExpiredBackups env.cleanup b env.now cfg.retentionDays),
      .ok { backupID := backupID
            type := .full
            status := p.status
            objectCount := p.objects
            failedCount := p.failed
            errors := p.errors })

def fullBackup (env : BackupEnv) (w : Stores δ) (backupID : String) :
    Stores δ × Except ExecutorError BackupResult :=
  if env.ensureOk then
    let w := { w with backup := w.backup.ensureBucket cfg.backupBucket }
    match if env.listTablesOk then w.primary.lookup cfg.primaryBucket else none with
    | none => (w, .error .listTables)
    | some b =>
      let id := fullBackupID cfg env backupID
      finishFull cfg env id (fullTables cfg env w id (listTables b))
  else (w, .error .ensureBucket)

def putDocuments (env : BackupEnv) (backupID : String) (server : Server (Content δ)) :
    Server (Content δ) × List Issue :=
  env.documents.foldl (fun acc doc =>
    match if env.putOk (backupStart backupID ++ doc.1) then
        acc.1.put cfg.backupBucket (backupStart backupID ++ doc.1) ⟨.document doc.2, env.now⟩
      else none with
    | some server => (server, acc.2)
    | none => (acc.1, acc.2 ++ [.document doc.1])) (server, [])

def tableBackup (env : BackupEnv) (w : Stores δ) (table : String) :
    Stores δ × Except ExecutorError BackupResult :=
  let id := "table-" ++ table ++ "-" ++ cfg.nodeID ++ "-" ++ toString (unixSeconds env.now)
  if table = "" then (w, .error .tableNameRequired)
  else if env.ensureOk then
    let w := { w with backup := w.backup.ensureBucket cfg.backupBucket }
    match backupTable cfg env w table id with
    | (w, .error err) => (w, .error err)
    | (w, .ok m) =>
      let documents := putDocuments cfg env id w.backup
      let manifest : TableBackupManifest :=
        { backupID := id
          tableName := table
          nodeID := cfg.nodeID
          timestamp := env.now
          objectCount := m.objectCount
          status := m.status
          failedCount := m.failedCount }
      match if env.putOk (manifestKey id) then
          documents.1.put cfg.backupBucket (manifestKey id) ⟨.tableManifest manifest, env.now⟩
        else none with
      | none => ({ w with backup := documents.1 }, .error .uploadManifest)
      | some server =>
        (Stores.cleanUp cfg { w with backup := server }
            (fun b => cleanupExpiredTableBackups env.cleanup b table env.now cfg.retentionDays),
          .ok { backupID := id
                type := .table
                status := m.status
                objectCount := m.objectCount
                failedCount := m.failedCount
                errors := documents.2 })
  else (w, .error .ensureBucket)

def metadataBackup (env : BackupEnv) (w : Stores δ) :
    Stores δ × Except ExecutorError BackupResult :=
  let id := "metadata-" ++ cfg.nodeID ++ "-" ++ toString (unixSeconds env.now)
  if cfg.hasMetadata then
    if env.ensureOk then
      let w := { w with backup := w.backup.ensureBucket cfg.backupBucket }
      if env.metadataOk then
        (w, .ok { backupID := id
                  type := .metadata
                  status := .completed
                  objectCount := 0
                  failedCount := 0
                  errors := [] })
      else (w, .error .metadataFailed)
    else (w, .error .ensureBucket)
  else (w, .error .metadataUnavailable)

inductive BackupKind
  | full (backupID : String)
  | table (name : String)
  | metadata

def performBackup (env : BackupEnv) (w : Stores δ) :
    BackupKind → Stores δ × Except ExecutorError BackupResult
  | .full backupID => fullBackup cfg env w backupID
  | .table name => tableBackup cfg env w name
  | .metadata => metadataBackup cfg env w

def restoreJobs (b : Bucket (Content δ)) (table backupID : String) : List (String × String) :=
  (b.listRecursive (dataStart backupID ++ table ++ "/")).map
    (fun info => (info.name, cutStart (dataStart backupID) info.name))

def restoreTable (env : RestoreEnv) (w : Stores δ) (table backupID : String) :
    Stores δ × Except ExecutorError Nat :=
  match if env.listOk table then w.backup.lookup cfg.backupBucket else none with
  | none => (w, .error .listObjects)
  | some b =>
    let c := copyAll env.now env.copyOk cfg.backupBucket cfg.primaryBucket
      { server := w.primary } (restoreJobs b table backupID)
    ({ w with primary := c.server }, .ok c.copied)

structure RestoreProgress (δ : Type*) where
  stores : Stores δ
  objects : Nat := 0
  errors : List Issue := []

def RestoreProgress.status (p : RestoreProgress δ) : Status :=
  if p.errors ≠ [] then .incomplete else .completed

def restoreStep (env : RestoreEnv) (backupID : String) (p : RestoreProgress δ)
    (m : TableManifest) : RestoreProgress δ :=
  if m.status = .failed then p
  else
    match restoreTable cfg env p.stores m.tableName backupID with
    | (w, .ok count) => { p with stores := w, objects := p.objects + count }
    | (w, .error _) => { p with stores := w, errors := p.errors ++ [.table m.tableName] }

def restore (env : RestoreEnv) (w : Stores δ) (backupID : String) :
    Stores δ × Except ExecutorError RestoreResult :=
  if backupID = "" then (w, .error .backupIDRequired)
  else
    match w.backup.get cfg.backupBucket (manifestKey backupID) with
    | none => (w, .error .readManifest)
    | some o =>
      match o.content.asFullManifest with
      | none => (w, .error .parseManifest)
      | some manifest =>
        let lost := manifest.metadataBackup ≠ "" ∧ cfg.hasMetadata = true ∧
          env.recoverOk manifest.metadataBackup = false
        let p := manifest.tables.foldl (restoreStep cfg env backupID)
          { stores := w, errors := if lost then [.metadata] else [] }
        (p.stores,
          .ok { backupID := backupID
                status := p.status
                objectCount := p.objects
                errors := p.errors })

end MinIODB.Backup
