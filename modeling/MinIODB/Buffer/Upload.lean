import Mathlib.Data.List.DropRight
import MinIODB.Buffer.Memory

/-!
# The upload of a flushed file

`uploadToStorage` puts the file of a task into MinIO, possibly failing over to the backup
pool, queues its copy to the backup, stores its metadata in Redis and in a sidecar
object, and enters it into the Redis index under a key made of the three parts of the
buffer key. When the index update fails, the object is removed again from the primary
pool.

Every call to a server has an outcome in the environment: none for success, or the text
of its error. Pools are kept as the sets of the objects in them.
-/
namespace MinIODB.Buffer
open List String

def splitSlash (s : String) : List String := (s.toList.splitOn '/').map String.ofList

def cleanElement (rooted : Bool) (stack : List String) (element : String) : List String :=
  if element = "" ∨ element = "." then stack
  else if element = ".." then
    match stack with
    | [] => if rooted then [] else [".."]
    | top :: rest => if top = ".." then ".." :: top :: rest else rest
  else element :: stack

def pathClean (key : String) : String :=
  let rooted := key.toList.head? == some '/'
  let body := "/".intercalate ((splitSlash key).foldl (cleanElement rooted) []).reverse
  if rooted then "/" ++ body else if body = "" then "." else body

def normalizeObjectKey (key : String) : String :=
  String.ofList (((pathClean key).toList.dropWhile (· == '/')).rdropWhile (· == '/'))

structure PoolManagerConfig where
  redis : Bool
  backupMinIO : Bool
  failoverEnabled : Bool

structure ConnectEnv where
  redis : Bool
  minio : Bool
  backupMinIO : Bool
  failoverStart : Bool

structure PoolManager where
  redisPool : Bool
  minioPool : Bool
  backupPool : Bool
  failoverManager : Bool

def newPoolManager (config : PoolManagerConfig) (e : ConnectEnv) : Option PoolManager :=
  if e.minio then
    some
      { redisPool := config.redis && e.redis
        minioPool := true
        backupPool := config.backupMinIO && e.backupMinIO
        failoverManager := config.failoverEnabled && (config.redis && e.redis) &&
          (config.backupMinIO && e.backupMinIO) && e.failoverStart }
  else none

structure StorageConfig where
  defaultBucket : String
  minioBucket : String
  keyPrefix : String

structure Uploader where
  poolManager : Option PoolManager
  appConfig : Option StorageConfig
  nodeID : String

abbrev ObjectName := String × String

structure Storage where
  primary : List ObjectName
  backup : List ObjectName
  usingBackup : Bool
  syncQueue : List ObjectName
  fileMeta : List String
  index : List (String × String)
  nodeData : List (String × String)
  deriving DecidableEq

structure UploadEnv where
  now : ℕ
  putObject : Option String
  backupHealth : Option String
  putBackup : Option String
  enqueued : Bool
  readMetadata : Option String
  hset : Option String
  putSidecar : Option String
  saddIndex : Option String
  saddNode : Option String
  removeObject : Option String

def UploadEnv.allSucceed (now : ℕ) : UploadEnv :=
  ⟨now, none, none, none, true, none, none, none, none, none, none⟩

namespace Uploader

variable (u : Uploader) (e : UploadEnv)

def primaryBucket : String :=
  match u.appConfig with
  | some app =>
    if app.defaultBucket ≠ "" then app.defaultBucket
    else if app.minioBucket ≠ "" then app.minioBucket
    else "miniodb-data"
  | none => "miniodb-data"

def objectOf (bufferKey : String) (now : ℕ) : ObjectName :=
  (u.primaryBucket, normalizeObjectKey (bufferKey ++ "/" ++ toString now ++ ".parquet"))

def executeWithFailover (pm : PoolManager) (object : ObjectName) (s : Storage) :
    Option String × Storage :=
  match e.putObject with
  | none =>
    (none, if pm.failoverManager && s.usingBackup then { s with backup := object :: s.backup }
      else { s with primary := object :: s.primary })
  | some err =>
    if pm.failoverManager = true ∧ s.usingBackup = false ∧ pm.backupPool = true ∧
        e.backupHealth = none then
      match e.putBackup with
      | none => (none, { s with usingBackup := true, backup := object :: s.backup })
      | some retryErr =>
        (some ("primary failed: " ++ err ++ ", backup also failed: " ++ retryErr),
          { s with usingBackup := true })
    else (some err, s)

def storeMetadataToRedis (object : ObjectName) (s : Storage) : Option String × Storage :=
  match e.hset with
  | some err => (some ("failed to store metadata in Redis: " ++ err), s)
  | none =>
    let keyPrefix :=
      match u.appConfig with
      | some app => if app.keyPrefix ≠ "" then app.keyPrefix else "file_meta:"
      | none => "file_meta:"
    (none, { s with fileMeta := (keyPrefix ++ object.2) :: s.fileMeta })

def storeMetadataToMinIOSidecar (object : ObjectName) (s : Storage) : Option String × Storage :=
  match e.putSidecar with
  | some err => (some err, s)
  | none => (none, { s with primary := (object.1, object.2 ++ ".meta.json") :: s.primary })

def extractAndStoreFileMetadata (pm : PoolManager) (object : ObjectName) (s : Storage) :
    Option String × Storage :=
  match e.readMetadata with
  | some err => (some ("failed to extract parquet metadata: " ++ err), s)
  | none =>
    let redis := if pm.redisPool then u.storeMetadataToRedis e object s else (none, s)
    let sidecar := if pm.minioPool then storeMetadataToMinIOSidecar e object redis.2 else (none, redis.2)
    let storedToRedis := pm.redisPool && redis.1.isNone
    let storedToMinIO := pm.minioPool && sidecar.1.isNone
    (if storedToRedis || storedToMinIO then none else sidecar.1.or redis.1, sidecar.2)

def updateRedisIndex (pm : PoolManager) (bufferKey : String) (object : ObjectName) (s : Storage) :
    Option String × Storage :=
  if pm.redisPool then
    match splitSlash bufferKey with
    | [tableName, id, day] =>
      let redisKey := "index:table:" ++ tableName ++ ":id:" ++ id ++ ":" ++ day
      match e.saddIndex with
      | some err => (some ("failed to update redis index: " ++ err), s)
      | none =>
        (none, { s with
          index := (redisKey, object.2) :: s.index
          nodeData :=
            if u.nodeID ≠ "" ∧ e.saddNode = none then ("node:data:" ++ u.nodeID, redisKey) :: s.nodeData
            else s.nodeData })
    | _ =>
      (some ("invalid buffer key format: " ++ bufferKey ++ ", expected format: table/id/date"), s)
  else (some "Redis pool not available", s)

def rollbackMinIOUpload (pm : PoolManager) (object : ObjectName) (s : Storage) : Storage :=
  if pm.minioPool = true ∧ e.removeObject = none then
    { s with primary := s.primary.filter (fun o => o ≠ object) }
  else s

def uploadToStorage (bufferKey : String) (s : Storage) : Option String × Storage :=
  match u.poolManager with
  | none => (none, s)
  | some pm =>
    if pm.minioPool then
      let object := u.objectOf bufferKey e.now
      match executeWithFailover e pm object s with
      | (some err, s) => (some ("failed to upload to MinIO: " ++ err), s)
      | (none, s) =>
        let s := if pm.failoverManager && e.enqueued then { s with syncQueue := object :: s.syncQueue } else s
        let s := (u.extractAndStoreFileMetadata e pm object s).2
        match u.updateRedisIndex e pm bufferKey object s with
        | (some err, s) =>
          (some ("failed to update metadata, upload rolled back: " ++ err),
            rollbackMinIOUpload e pm object s)
        | (none, s) => (none, s)
    else (some "MinIO pool not available", s)

end Uploader

lemma splitSlash_concat (key : String) {x : String} (hx : '/' ∉ x.toList) :
    splitSlash (key ++ "/" ++ x) = splitSlash key ++ [x] := by
  have hslash : (key ++ "/" ++ x).toList = key.toList ++ '/' :: x.toList := by
    simp
  rw [splitSlash, hslash, splitOn_append_cons_self, splitOn_eq_singleton hx, map_append]
  simp [splitSlash]

lemma normalizeObjectKey_concat (key : String) :
    ∃ before : List Char, ∀ x : String, '/' ∉ x.toList → x ≠ "" → x ≠ "." → x ≠ ".." →
      (normalizeObjectKey (key ++ "/" ++ x)).toList = before ++ x.toList := by
  let rooted := (key ++ "/").toList.head? == some '/'
  let stack := ((splitSlash key).foldl (cleanElement rooted) []).reverse
  let path := (if rooted then "/" else "") ++
    (if stack = [] then "" else "/".intercalate stack ++ "/")
  refine ⟨path.toList.dropWhile (· == '/'), fun x hslash hempty hdot hdots => ?_⟩
  have hrooted : ((key ++ "/" ++ x).toList.head? == some '/') = rooted := by
    simp [rooted, head?_append]
  have hstack : ((splitSlash (key ++ "/" ++ x)).foldl (cleanElement rooted) []).reverse =
      stack ++ [x] := by
    rw [splitSlash_concat key hslash, foldl_append]
    simp [cleanElement, hempty, hdot, hdots, stack]
  have hbody : "/".intercalate (stack ++ [x]) =
      (if stack = [] then "" else "/".intercalate stack ++ "/") ++ x := by
    by_cases hnil : stack = []
    · simp [hnil]
    · rw [if_neg hnil, intercalate_append_of_ne_nil hnil (by simp), String.intercalate_singleton]
  have hclean : pathClean (key ++ "/" ++ x) = path ++ x := by
    unfold pathClean
    simp only [hrooted, hstack, hbody]
    have hne : (if stack = [] then "" else "/".intercalate stack ++ "/") ++ x ≠ "" := by
      simp [hempty]
    rw [if_neg hne]
    by_cases hr : rooted
    · simp [hr, path, String.append_assoc]
    · simp [hr, path]
  have hhead : ∀ c ∈ x.toList, c ≠ '/' := by
    rintro c hc rfl
    exact hslash hc
  have hnone : x.toList.dropWhile (· == '/') = x.toList := by
    rw [dropWhile_eq_self_iff]
    intro hpos
    simpa using hhead _ (getElem_mem hpos)
  have hdrop : (path.toList ++ x.toList).dropWhile (· == '/') =
      path.toList.dropWhile (· == '/') ++ x.toList := by
    rw [dropWhile_append, hnone]
    split
    · rename_i hnil
      rw [List.isEmpty_iff.mp hnil, nil_append]
    · rfl
  rw [normalizeObjectKey, hclean, toList_append, hdrop, toList_ofList, rdropWhile_eq_self_iff]
  intro hne
  have hxne : x.toList ≠ [] := by simpa using hempty
  rw [getLast_append_of_ne_nil _ hxne]
  simpa using hhead _ (getLast_mem hxne)

lemma notMem_toString (n : ℕ) {c : Char} (hc : c.isDigit = false) : c ∉ (toString n).toList := by
  intro hmem
  have hdigit := Nat.isDigit_of_mem_toDigits (b := 10) (n := n) (by decide) (by decide)
    (by simpa [Nat.repr] using hmem)
  rw [hc] at hdigit
  cases hdigit

lemma fileName_ne (now : ℕ) {x : String} (hx : x.length < 8) : toString now ++ ".parquet" ≠ x := by
  rintro rfl
  rw [String.length_append] at hx
  exact absurd hx (not_lt.mpr (Nat.le_add_left _ _))

lemma notMem_fileName (now : ℕ) {c : Char} (hc : c.isDigit = false) (hend : c ∉ ".parquet".toList) :
    c ∉ (toString now ++ ".parquet").toList := by
  rw [toList_append, mem_append, not_or]
  exact ⟨notMem_toString now hc, hend⟩

lemma objectOf_name (u : Uploader) (bufferKey : String) : ∃ before : List Char, ∀ now : ℕ,
      (u.objectOf bufferKey now).2.toList = before ++ (toString now ++ ".parquet").toList := by
  obtain ⟨before, hbefore⟩ := normalizeObjectKey_concat bufferKey
  refine ⟨before, fun now => ?_⟩
  have hassoc : bufferKey ++ "/" ++ toString now ++ ".parquet" =
      bufferKey ++ "/" ++ (toString now ++ ".parquet") := String.append_assoc
  rw [Uploader.objectOf, hassoc]
  exact hbefore _ (notMem_fileName now (by decide) (by decide)) (fileName_ne now (by decide))
    (fileName_ne now (by decide)) (fileName_ne now (by decide))

lemma objectOf_injective (u : Uploader) (bufferKey : String) :
    Function.Injective (u.objectOf bufferKey) := by
  obtain ⟨before, hbefore⟩ := objectOf_name u bufferKey
  intro n m heq
  have hnames := (hbefore n).symm.trans ((congrArg (fun o => o.2.toList) heq).trans (hbefore m))
  rw [append_cancel_left_eq, toList_append, toList_append, append_cancel_right_eq,
    Nat.toString_eq_repr, Nat.toString_eq_repr, Nat.toList_repr, Nat.toList_repr] at hnames
  rw [← @Nat.ofDigitChars_ten_toDigits n, hnames, Nat.ofDigitChars_ten_toDigits]

lemma objectOf_ne_sidecar (u : Uploader) (bufferKey : String) (n m : ℕ) :
    (u.objectOf bufferKey n).2 ≠ (u.objectOf bufferKey m).2 ++ ".meta.json" := by
  obtain ⟨before, hbefore⟩ := objectOf_name u bufferKey
  intro heq
  have hlists := congrArg (fun s : String => s.toList.getLast?) heq
  simp [hbefore] at hlists

section

lemma length_splitOn (l : List Char) (c : Char) : (l.splitOn c).length = l.count c + 1 := by
  rw [splitOn_eq_splitOnP]
  induction l with
  | nil => simp
  | cons x l ih =>
    rw [splitOnP_cons_eq_if_modifyHead, count_cons]
    split
    · rw [length_cons, ih]
    · rw [length_modifyHead, ih]

variable {φ : Type*} (cfg : Config) (row : DataRow φ)

lemma length_splitSlash_bufferKey (hday : '/' ∉ (cfg.dayStr row.timestamp).toList) :
    (splitSlash (bufferKey cfg row)).length = 3 ↔
      '/' ∉ (tableName cfg row).toList ∧ '/' ∉ row.id.toList := by
  have hid : '/' ∉ (idPart row).toList ↔ '/' ∉ row.id.toList := by
    unfold idPart
    split
    · rename_i hempty
      simp [hempty, emptyIDPlaceholder]
    · rfl
  have hcount : (bufferKey cfg row).toList.count '/' =
      (tableName cfg row).toList.count '/' + (idPart row).toList.count '/' + 2 := by
    have hslash : "/".toList.count '/' = 1 := rfl
    simp only [bufferKey, toList_append, count_append, hslash, count_eq_zero.mpr hday]
    omega
  rw [splitSlash, List.length_map, length_splitOn, hcount, ← hid, ← count_eq_zero, ← count_eq_zero]
  omega

end

namespace Uploader

variable {u : Uploader} {e : UploadEnv} {pm : PoolManager} {s : Storage} {object : ObjectName}

def Stored (s : Storage) (object : ObjectName) : Prop := object ∈ s.primary ∨ object ∈ s.backup

variable {bufferKey : String}

variable (u e object s) in
lemma updateRedisIndex_error (h : ¬(pm.redisPool ∧ (splitSlash bufferKey).length = 3)) :
    (u.updateRedisIndex e pm bufferKey object s).1 ≠ none := by
  unfold updateRedisIndex
  split
  · rename_i hredis
    split
    · rename_i heq
      exact absurd ⟨hredis, by rw [heq]; rfl⟩ h
    · simp
  · simp

variable (u e object s) in
lemma updateRedisIndex_ok (hredis : pm.redisPool)
    (hparts : (splitSlash bufferKey).length = 3) (hsadd : e.saddIndex = none) :
    (u.updateRedisIndex e pm bufferKey object s).1 = none ∧
      (u.updateRedisIndex e pm bufferKey object s).2.primary = s.primary ∧
      (u.updateRedisIndex e pm bufferKey object s).2.backup = s.backup := by
  obtain ⟨table, id, day, heq⟩ := length_eq_three.mp hparts
  simp [updateRedisIndex, hredis, heq, hsadd]

lemma stored_executeWithFailover (h : (executeWithFailover e pm object s).1 = none) :
    Stored (executeWithFailover e pm object s).2 object := by
  unfold executeWithFailover at h ⊢
  cases hput : e.putObject with
  | none =>
    dsimp only
    split
    · exact .inr (.head _)
    · exact .inl (.head _)
  | some err =>
    simp only [hput] at h ⊢
    split at h
    · cases hbackup : e.putBackup with
      | none =>
        rename_i hswitch
        rw [if_pos hswitch]
        exact .inr (.head _)
      | some =>
        rw [hbackup] at h
        cases h
    · cases h

lemma stored_extractAndStoreFileMetadata (h : Stored s object) (object' : ObjectName) :
    Stored (u.extractAndStoreFileMetadata e pm object' s).2 object := by
  have hredis : ∀ s : Storage, (u.storeMetadataToRedis e object' s).2.primary = s.primary ∧
      (u.storeMetadataToRedis e object' s).2.backup = s.backup := by
    intro s
    unfold storeMetadataToRedis
    split <;> exact ⟨rfl, rfl⟩
  have hsidecar : ∀ s : Storage, Stored s object →
      Stored (storeMetadataToMinIOSidecar e object' s).2 object := by
    intro s hs
    unfold storeMetadataToMinIOSidecar
    split
    · exact hs
    · exact hs.imp (fun hmem => .tail _ hmem) (fun hmem => hmem)
  have hfirst : Stored (if pm.redisPool then u.storeMetadataToRedis e object' s else (none, s)).2
      object := by
    split
    · rw [Stored, (hredis s).1, (hredis s).2]
      exact h
    · exact h
  unfold extractAndStoreFileMetadata
  split
  · exact h
  · dsimp only
    split
    · exact hsidecar _ hfirst
    · exact hfirst

def beforeIndex (u : Uploader) (e : UploadEnv) (pm : PoolManager) (object : ObjectName) (s : Storage) :
    Storage :=
  let s := (executeWithFailover e pm object s).2
  let s := if pm.failoverManager && e.enqueued then { s with syncQueue := object :: s.syncQueue } else s
  (u.extractAndStoreFileMetadata e pm object s).2

lemma uploadToStorage_eq (hu : u.poolManager = some pm) (hminio : pm.minioPool)
    (hput : (executeWithFailover e pm (u.objectOf bufferKey e.now) s).1 = none) :
    u.uploadToStorage e bufferKey s =
      match u.updateRedisIndex e pm bufferKey (u.objectOf bufferKey e.now)
        (u.beforeIndex e pm (u.objectOf bufferKey e.now) s) with
      | (some err, s) => (some ("failed to update metadata, upload rolled back: " ++ err),
          rollbackMinIOUpload e pm (u.objectOf bufferKey e.now) s)
      | (none, s) => (none, s) := by
  rw [uploadToStorage, hu]
  simp only [hminio, if_true]
  rcases hcase : executeWithFailover e pm (u.objectOf bufferKey e.now) s with ⟨r, s'⟩
  rw [hcase] at hput
  cases hput
  simp [beforeIndex, hcase]

lemma stored_beforeIndex (hput : (executeWithFailover e pm object s).1 = none) :
    Stored (u.beforeIndex e pm object s) object := by
  refine stored_extractAndStoreFileMetadata ?_ object
  split
  · exact stored_executeWithFailover hput
  · exact stored_executeWithFailover hput

lemma uploadToStorage_error (hu : u.poolManager = some pm)
    (h : ¬(pm.redisPool ∧ (splitSlash bufferKey).length = 3)) :
    (u.uploadToStorage e bufferKey s).1 ≠ none := by
  by_cases hminio : pm.minioPool
  · by_cases hput : (executeWithFailover e pm (u.objectOf bufferKey e.now) s).1 = none
    · rw [uploadToStorage_eq hu hminio hput]
      have herror := updateRedisIndex_error u e (u.beforeIndex e pm (u.objectOf bufferKey e.now) s)
        (u.objectOf bufferKey e.now) h
      split
      · simp
      · rename_i heq
        exact absurd (congrArg Prod.fst heq) herror
    · rw [uploadToStorage, hu]
      simp only [hminio, if_true]
      split
      · simp
      · rename_i heq
        exact absurd (congrArg Prod.fst heq) hput
  · rw [uploadToStorage, hu]
    simp [hminio]

lemma uploadToStorage_ok (hu : u.poolManager = some pm) (hminio : pm.minioPool)
    (hredis : pm.redisPool) (hparts : (splitSlash bufferKey).length = 3)
    (hput : (executeWithFailover e pm (u.objectOf bufferKey e.now) s).1 = none)
    (hsadd : e.saddIndex = none) : (u.uploadToStorage e bufferKey s).1 = none ∧
      Stored (u.uploadToStorage e bufferKey s).2 (u.objectOf bufferKey e.now) := by
  have hstored : Stored (u.beforeIndex e pm (u.objectOf bufferKey e.now) s)
      (u.objectOf bufferKey e.now) := stored_beforeIndex hput
  have hindex := updateRedisIndex_ok u e (u.beforeIndex e pm (u.objectOf bufferKey e.now) s)
    (u.objectOf bufferKey e.now) hredis hparts hsadd
  rw [uploadToStorage_eq hu hminio hput]
  rcases hcase : u.updateRedisIndex e pm bufferKey (u.objectOf bufferKey e.now)
    (u.beforeIndex e pm (u.objectOf bufferKey e.now) s) with ⟨r, s'⟩
  rw [hcase] at hindex
  obtain ⟨hok, hprimary, hbackup⟩ := hindex
  cases hok
  refine ⟨rfl, ?_⟩
  rw [Stored, hprimary, hbackup]
  exact hstored

lemma minioPool_newPoolManager {config : PoolManagerConfig} {conn : ConnectEnv}
    (h : newPoolManager config conn = some pm) : pm.minioPool := by
  obtain ⟨_, rfl⟩ := Option.ite_some_none_eq_some.mp h
  rfl

end Uploader

section
variable {φ : Type*} (cfg : Config) (row : DataRow φ)

/-- In every deployment that `NewPoolManager` sets up, and when all calls succeed, the
flush of a row's key succeeds and leaves its object in place exactly when there is a
Redis pool and neither the table nor the id of the row contains a slash. -/
theorem upload_succeeds_iff (u : Uploader) {config : PoolManagerConfig} {conn : ConnectEnv}
    {pm : PoolManager} (hpm : newPoolManager config conn = some pm)
    (hu : u.poolManager = some pm) (hday : '/' ∉ (cfg.dayStr row.timestamp).toList)
    (now : ℕ) (s : Storage) :
    ((u.uploadToStorage (.allSucceed now) (bufferKey cfg row) s).1 = none ∧
      Uploader.Stored (u.uploadToStorage (.allSucceed now) (bufferKey cfg row) s).2
        (u.objectOf (bufferKey cfg row) now)) ↔
    pm.redisPool = true ∧ '/' ∉ (tableName cfg row).toList ∧ '/' ∉ row.id.toList := by
  rw [← length_splitSlash_bufferKey cfg row hday]
  constructor
  · rintro ⟨hok, _⟩
    by_contra hnot
    exact Uploader.uploadToStorage_error hu hnot hok
  · rintro ⟨hredis, hparts⟩
    exact Uploader.uploadToStorage_ok hu (Uploader.minioPool_newPoolManager hpm) hredis hparts
      rfl rfl

end

def Storage.empty : Storage := ⟨[], [], false, [], [], [], []⟩

def uploaderOf (redis : Bool) : Uploader :=
  ⟨newPoolManager ⟨redis, false, false⟩ ⟨true, true, true, true⟩, none, "node1"⟩

/-- With Redis, the flush of an ordinary row succeeds. -/
theorem upload_succeeds_redis : ((uploaderOf true).uploadToStorage (.allSucceed 7)
        (bufferKey oneDay (⟨"u1", 0, "orders", ()⟩ : DataRow Unit)) Storage.empty).1 = none ∧
      Uploader.Stored ((uploaderOf true).uploadToStorage (.allSucceed 7)
          (bufferKey oneDay (⟨"u1", 0, "orders", ()⟩ : DataRow Unit)) Storage.empty).2
        ((uploaderOf true).objectOf
          (bufferKey oneDay (⟨"u1", 0, "orders", ()⟩ : DataRow Unit)) 7) := by
  have hpm : newPoolManager ⟨true, false, false⟩ ⟨true, true, true, true⟩ =
      some ⟨true, true, false, false⟩ := rfl
  exact (upload_succeeds_iff oneDay (⟨"u1", 0, "orders", ()⟩ : DataRow Unit) (uploaderOf true) hpm rfl
    (by decide) 7 Storage.empty).mpr (by decide)

/-- Standalone, the upload of the same row fails although every call succeeds, and its
object is removed; with Redis, so does the upload of a row whose id contains a slash. -/
theorem upload_fails_standalone : ((uploaderOf false).uploadToStorage (.allSucceed 7)
        (bufferKey oneDay (⟨"u1", 0, "orders", ()⟩ : DataRow Unit)) Storage.empty) =
      (some "failed to update metadata, upload rolled back: Redis pool not available",
        { Storage.empty with
          primary := [("miniodb-data", "orders/u1/2024-01-01/7.parquet.meta.json")] }) ∧
    ((uploaderOf true).uploadToStorage (.allSucceed 7)
        (bufferKey oneDay (⟨"eu/u1", 0, "orders", ()⟩ : DataRow Unit)) Storage.empty).1 =
      some ("failed to update metadata, upload rolled back: invalid buffer key format: " ++
        "orders/eu/u1/2024-01-01, expected format: table/id/date") := by
  decide

end MinIODB.Buffer
