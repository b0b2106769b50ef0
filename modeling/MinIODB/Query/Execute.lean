import MinIODB.Query.Files

/-!
# Query execution

A query makes a view over local files for each of its tables, in the DuckDB connection it
was given, and is then run by DuckDB. Views and local files outlive the query, and with
Redis the answer is stored under a key made from the text of the query.

DuckDB and the parsing of queries are parameters. The rows behind the keys of the buffer
and the objects do not change while a query runs.
-/
namespace MinIODB.Query

structure Relation (ρ : Type*) where
  columns : Option (List String)
  rows : Multiset ρ

structure View where
  columns : Option (List String)
  files : List DataFile

structure Engine (ρ : Type*) where
  validateSelectQuery : String → Option String
  extractTableNames : String → List String
  validateTableNames : List String → List String
  generateCacheKey : String → List String → String
  extractRequiredColumns : String → Option (List String)
  formats : Formats
  named : String → List String
  query : String → (String → Option (Relation ρ)) → Except String String
  query_congr : ∀ sql v v', (∀ t ∈ named sql, v t = v' t) → query sql v = query sql v'

structure Querier (ρ : Type*) where
  views : ℕ → String → Option View
  viewCache : ℕ → String → Option (Multiset DataFile)
  disk : DataFile → Option (List ρ)
  queryCache : String → Option String

structure TableEnv where
  first : ReadEnv
  again : ReadEnv
  dropped : Bool
  created : Option String
  verified : Option String

structure QueryEnv (ρ : Type*) where
  contents : Contents ρ
  connection : Except String ℕ
  cacheRead : Bool
  cacheWritten : Bool
  tables : String → TableEnv

inductive PrepareError where
  | noDataFiles
  | storageUnavailable
  | other (msg : String)

def errStorageUnavailable : String :=
  "storage unavailable: failed to read data files (check MinIO credentials and endpoint)"

variable {ρ : Type*}

def writeAll (disk : DataFile → Option (List ρ)) (writes : List (DataFile × List ρ)) :
    DataFile → Option (List ρ) :=
  writes.foldl (fun disk w => Function.update disk w.1 (some w.2)) disk

def bufferWrites (c : Contents ρ) (e : ReadEnv) : List (DataFile × List ρ) :=
  (writtenKeys c e).map (fun k => (.buffer (createTempFilePath k), c.buffer k))

def objectWrites (c : Contents ρ) (e : ReadEnv) (files : List FileMetadata) :
    List (DataFile × List ρ) :=
  (files.filter (fun file => (e.fetch file.filePath).isNone)).map (fun file =>
    (.object file.filePath, c.object file.filePath))

def Querier.write (q : Querier ρ) (writes : List (DataFile × List ρ)) : Querier ρ :=
  { q with disk := writeAll q.disk writes }

def Querier.setView (q : Querier ρ) (conn : ℕ) (tableName : String) (view : Option View) : Querier ρ :=
  { q with views := fun c t => if c = conn ∧ t = tableName then view else q.views c t }

def Querier.makeView (q : Querier ρ) (conn : ℕ) (tableName : String) (e : TableEnv) (view : View)
    (createMsg verifyMsg : String) : Except PrepareError Unit × Querier ρ :=
  let q := if e.dropped then q.setView conn tableName none else q
  match e.created with
  | some err => (.error (.other (createMsg ++ tableName ++ ": " ++ err)), q)
  | none =>
    match e.verified with
    | some err =>
      (.error (.other (verifyMsg ++ tableName ++ ": " ++ err)), q.setView conn tableName (some view))
    | none => (.ok (), q.setView conn tableName (some view))

def createTableViewWithDBWithColumnPruning (eng : Engine ρ) (q : Querier ρ) (conn : ℕ)
    (tableName : String) (e : TableEnv) (files : List DataFile) (sql : String) :
    Except PrepareError Unit × Querier ρ :=
  q.makeView conn tableName e ⟨eng.extractRequiredColumns sql, files⟩
    "failed to create optimized view for table " "optimized view creation verification failed for table "

def createTableViewWithDB (q : Querier ρ) (conn : ℕ) (tableName : String) (e : TableEnv)
    (files : List DataFile) : Except PrepareError Unit × Querier ρ :=
  if q.viewCache conn tableName = some ↑files then (.ok (), q)
  else
    match q.makeView conn tableName e ⟨none, files⟩ "failed to create view for table "
      "view creation verification failed for table " with
    | (.error err, q) => (.error err, q)
    | (.ok (), q) =>
      (.ok (), { q with viewCache := fun c t =>
        if c = conn ∧ t = tableName then some ↑files else q.viewCache c t })

def prepareTableDataWithCacheAndDB (redisPool : Bool) (c : Contents ρ) (q : Querier ρ) (conn : ℕ)
    (tableName : String) (e : TableEnv) : Except PrepareError Unit × Querier ρ :=
  let q := q.write (bufferWrites c e.again)
  match getStorageFilesMetadata e.again redisPool with
  | none => (.error (.other "failed to get storage files: failed to get file index keys"), q)
  | some metadata =>
    let q := q.write (objectWrites c e.again metadata)
    let files := getBufferFilesForTable c e.again ++ fetchFiles e.again metadata
    if files = [] then (.ok (), q)
    else createTableViewWithDB q conn tableName e files

def prepareTableDataWithPruning (eng : Engine ρ) (redisPool : Bool) (c : Contents ρ) (q : Querier ρ)
    (conn : ℕ) (tableName sql : String) (e : TableEnv) : Except PrepareError Unit × Querier ρ :=
  let q := q.write (bufferWrites c e.first)
  match getStorageFilesMetadata e.first redisPool with
  | none => prepareTableDataWithCacheAndDB redisPool c q conn tableName e
  | some metadata =>
    let selectedFiles := optimizeQuery eng.formats sql metadata
    let q := q.write (objectWrites c e.first selectedFiles)
    let files := allFiles c e.first eng.formats sql metadata
    if files = [] then
      if 0 < otherErrorCount e.first selectedFiles then (.error .storageUnavailable, q)
      else (.error .noDataFiles, q)
    else createTableViewWithDBWithColumnPruning eng q conn tableName e files sql

def prepareTables (eng : Engine ρ) (redisPool : Bool) (e : QueryEnv ρ) (conn : ℕ) (sql : String) :
    List String → Querier ρ → Option (Except String String) × Querier ρ
  | [], q => (none, q)
  | t :: ts, q =>
    match prepareTableDataWithPruning eng redisPool e.contents q conn t sql (e.tables t) with
    | (.ok (), q) => prepareTables eng redisPool e conn sql ts q
    | (.error .noDataFiles, q) => (some (.ok "[]"), q)
    | (.error .storageUnavailable, q) => (some (.error errStorageUnavailable), q)
    | (.error (.other msg), q) =>
      (some (.error ("failed to prepare data for table " ++ t ++ ": " ++ msg)), q)

def Querier.relation (q : Querier ρ) (conn : ℕ) (t : String) : Option (Relation ρ) :=
  (q.views conn t).bind (fun view =>
    if view.files.all (fun file => (q.disk file).isSome) then
      some ⟨view.columns, ↑(view.files.flatMap (fun file => (q.disk file).getD []))⟩
    else none)

def Engine.cacheKey (eng : Engine ρ) (sql : String) : String :=
  eng.generateCacheKey sql (eng.validateTableNames (eng.extractTableNames sql))

def Querier.cacheAnswer (q : Querier ρ) (key answer : String) : Querier ρ :=
  { q with queryCache := Function.update q.queryCache key (some answer) }

def runQuery (eng : Engine ρ) (redisPool : Bool) (e : QueryEnv ρ) (conn : ℕ) (sql : String)
    (q : Querier ρ) : Except String String × Querier ρ :=
  match eng.query sql (q.relation conn) with
  | .error err => (.error ("query execution failed: " ++ err), q)
  | .ok answer =>
    (.ok answer,
      if redisPool && e.cacheWritten then q.cacheAnswer (eng.cacheKey sql) answer else q)

def executeQuery (eng : Engine ρ) (redisPool : Bool) (e : QueryEnv ρ) (sql : String) (q : Querier ρ) :
    Except String String × Querier ρ :=
  match eng.validateSelectQuery sql with
  | some err => (.error ("SQL query validation failed: " ++ err), q)
  | none =>
    let tables := eng.extractTableNames sql
    if tables = [] then (.error "no valid table names found in query", q)
    else
      let validTables := eng.validateTableNames tables
      if validTables = [] then (.error "no valid table names found after validation", q)
      else
        match if redisPool && e.cacheRead then q.queryCache (eng.cacheKey sql) else none with
        | some answer => (.ok answer, q)
        | none =>
          match e.connection with
          | .error err => (.error ("failed to get database connection: " ++ err), q)
          | .ok conn =>
            match prepareTables eng redisPool e conn sql validTables q with
            | (some answer, q) => (answer, q)
            | (none, q) => runQuery eng redisPool e conn sql q

end MinIODB.Query
