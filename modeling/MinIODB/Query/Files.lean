import MinIODB.Library.Glob
import MinIODB.Query.Pruning
import MinIODB.Buffer.Upload

/-!
# The files of a query

The view of a table is built from a list of local files: one file for each key of the
table in the buffer, and a copy of each stored object. With Redis the objects come from
the index, whose keys are found by SCAN; without it they come from a listing of the
bucket. A file that cannot be written or fetched is left out of the list.

SCAN promises each key at least once, and nothing on the way to the view removes an
object that was found twice.
-/
namespace MinIODB.Query
open List
open Buffer (pathClean)

inductive DataFile where
  | buffer (path : String)
  | object (name : String)
  deriving DecidableEq

inductive FetchError where
  | notFound
  | other
  deriving DecidableEq

structure Contents (ρ : Type*) where
  buffer : String → List ρ
  object : String → List ρ

structure ReadEnv where
  bufferKeys : List String
  written : String → Bool
  scanPages : List (Option (List String))
  smembers : String → Option (List String)
  listing : List (Option String)
  metadata : String → FileMetadata
  fetch : String → Option FetchError

def scanKeys : List (Option (List String)) → Option (List String)
  | [] => some []
  | none :: _ => none
  | some keys :: pages => (scanKeys pages).map (fun more => keys ++ more)

def createTempFilePath (bufferKey : String) : String := "buffer_" ++ pathClean bufferKey ++ ".parquet"

def isParquet (name : String) : Bool := ".parquet".toList.isSuffixOf name.toList

section

variable {ρ : Type*} (c : Contents ρ) (e : ReadEnv)

def writtenKeys : List String :=
  e.bufferKeys.filter (fun k => decide ((c.buffer k).length > 0) && e.written k)

def getBufferFilesForTable : List DataFile :=
  (writtenKeys c e).map (fun k => .buffer (createTempFilePath k))

def membersOf (key : String) : List String := (e.smembers key).getD []

def storageObjects (redisPool : Bool) : Option (List String) :=
  if redisPool then (scanKeys e.scanPages).map (fun keys => keys.flatMap (membersOf e))
  else some ((e.listing.filterMap id).filter isParquet)

def getStorageFilesMetadata (redisPool : Bool) : Option (List FileMetadata) :=
  (storageObjects e redisPool).map (fun names => names.map e.metadata)

def fetchFiles (files : List FileMetadata) : List DataFile :=
  (files.filter (fun file => (e.fetch file.filePath).isNone)).map (fun file => .object file.filePath)

def otherErrorCount (files : List FileMetadata) : ℕ :=
  files.countP (fun file => decide (e.fetch file.filePath = some .other))

def allFiles (fmt : Formats) (sql : String) (metadata : List FileMetadata) : List DataFile :=
  getBufferFilesForTable c e ++ fetchFiles e (optimizeQuery fmt sql metadata)

def storedRows (files : List DataFile) : List ρ :=
  files.flatMap (fun file =>
    match file with
    | .object name => c.object name
    | .buffer _ => [])

end

abbrev Index := List (String × String)

def tablePattern (tableName : String) : String := "index:table:" ++ tableName ++ ":id:" ++ "*"

def ScanOf (index : Index) (pattern : String) (keys : List String) : Prop :=
  ∀ k, k ∈ keys ↔ (∃ m, (k, m) ∈ index) ∧ Glob.isMatch pattern k = true

def Indexed (index : Index) (tableName name : String) : Prop :=
  ∃ k, (k, name) ∈ index ∧ Glob.isMatch (tablePattern tableName) k = true

structure Answers (e : ReadEnv) (index : Index) (tableName : String) (keys : List String) : Prop where
  scan : scanKeys e.scanPages = some keys
  found : ScanOf index (tablePattern tableName) keys
  members : ∀ k ∈ keys, ∃ ms, e.smembers k = some ms ∧ ms.Nodup ∧ ∀ m, m ∈ ms ↔ (k, m) ∈ index
  metadata : ∀ name, (e.metadata name).filePath = name

variable {e : ReadEnv} {index : Index} {tableName : String} {keys : List String}

def timesListed (index : Index) (keys : List String) (name : String) : ℕ :=
  keys.countP (fun k => index.contains (k, name))

lemma count_members (h : Answers e index tableName keys) (name : String) :
    (keys.flatMap (membersOf e)).count name = timesListed index keys name := by
  have hmembers := h.members
  clear h
  induction keys with
  | nil => rfl
  | cons k keys ih =>
    obtain ⟨ms, hms, hnodup, hmem⟩ := hmembers k (.head _)
    have hrest := ih (fun k' hk' => hmembers k' (mem_cons_of_mem k hk'))
    rw [flatMap_cons, count_append, hrest, timesListed, timesListed, countP_cons,
      membersOf, hms, Option.getD_some, add_comm]
    congr 1
    by_cases hin : (k, name) ∈ index
    · rw [count_eq_one_of_mem hnodup ((hmem name).mpr hin), if_pos (contains_iff_mem.mpr hin)]
    · rw [count_eq_zero_of_not_mem (fun hname => hin ((hmem name).mp hname)), if_neg]
      exact fun hdec => hin (contains_iff_mem.mp hdec)

lemma indexed_iff_timesListed (h : Answers e index tableName keys) (name : String) :
    Indexed index tableName name ↔ timesListed index keys name ≠ 0 := by
  rw [timesListed, Nat.ne_zero_iff_zero_lt, countP_pos_iff]
  constructor
  · rintro ⟨k, hk, hmatch⟩
    exact ⟨k, (h.found k).mpr ⟨⟨name, hk⟩, hmatch⟩, contains_iff_mem.mpr hk⟩
  · rintro ⟨k, hk, hdec⟩
    exact ⟨k, contains_iff_mem.mp hdec, ((h.found k).mp hk).2⟩

lemma fetchFiles_optimizeQuery {fmt : Formats} {sql : String} {names : List String}
    (hpath : ∀ name, (e.metadata name).filePath = name)
    (hfetch : ∀ name ∈ names, selected fmt sql (e.metadata name) → e.fetch name = none) :
    fetchFiles e (optimizeQuery fmt sql (names.map e.metadata)) =
      (names.filter (fun name => selected fmt sql (e.metadata name))).map .object := by
  rw [optimizeQuery_eq_filter]
  induction names with
  | nil => rfl
  | cons name names ih =>
    have hrest := ih (fun n hn => hfetch n (mem_cons_of_mem name hn))
    cases hsel : selected fmt sql (e.metadata name) with
    | false => simpa [hsel] using hrest
    | true =>
      have hnone := hfetch name mem_cons_self hsel
      simp only [map_cons, filter_cons, hsel, if_true]
      rw [← hrest]
      simp [fetchFiles, hpath, hnone]

section
variable (h : Answers e index tableName keys)
include h

lemma count_filter_selected {fmt : Formats} {sql name : String}
    (hsel : selected fmt sql (e.metadata name)) :
    ((keys.flatMap (membersOf e)).filter (fun n => selected fmt sql (e.metadata n))).count name =
      timesListed index keys name := by
  rw [count_filter (p := fun n => selected fmt sql (e.metadata n)) hsel, count_members h]

lemma mem_storageObjects (name : String) :
    name ∈ keys.flatMap (membersOf e) ↔ Indexed index tableName name := by
  rw [indexed_iff_timesListed h, ← count_members h, Nat.ne_zero_iff_zero_lt, count_pos_iff]

lemma nodup_selected_iff (fmt : Formats) (sql : String) :
    ((keys.flatMap (membersOf e)).filter (fun n => selected fmt sql (e.metadata n))).Nodup ↔
      ∀ name, Indexed index tableName name → selected fmt sql (e.metadata name) →
        timesListed index keys name = 1 := by
  have hmem : ∀ name, name ∈ (keys.flatMap (membersOf e)).filter
      (fun n => selected fmt sql (e.metadata n)) ↔
        Indexed index tableName name ∧ selected fmt sql (e.metadata name) = true := by
    intro name
    rw [mem_filter, mem_storageObjects h]
  constructor
  · intro hnodup name hin hsel
    rw [← count_filter_selected h hsel]
    exact count_eq_one_of_mem hnodup ((hmem name).mpr ⟨hin, hsel⟩)
  · intro honce
    refine nodup_iff_count_le_one.mpr (fun name => ?_)
    by_cases hname : name ∈ (keys.flatMap (membersOf e)).filter
        (fun n => selected fmt sql (e.metadata n))
    · obtain ⟨hin, hsel⟩ := (hmem name).mp hname
      rw [count_filter_selected h hsel, honce name hin hsel]
    · rw [count_eq_zero_of_not_mem hname]
      exact Nat.zero_le 1

end

/-- An object is read as often as the keys that SCAN returned name it. So each selected
object of the index is read exactly once if and only if exactly one key that names it was
returned, and was returned once. -/
theorem stored_objects_read_once {ρ : Type*} (c : Contents ρ) (h : Answers e index tableName keys)
    (fmt : Formats) (sql : String)
    (hfetch : ∀ name, Indexed index tableName name → e.fetch name = none) :
    ∃ metadata, getStorageFilesMetadata e true = some metadata ∧
      ((∀ name, Indexed index tableName name → selected fmt sql (e.metadata name) = true →
          timesListed index keys name = 1) ↔ ∃ objects : List String, objects.Nodup ∧
          (∀ name, name ∈ objects ↔
            Indexed index tableName name ∧ selected fmt sql (e.metadata name) = true) ∧
          (fetchFiles e (optimizeQuery fmt sql metadata)).Perm (objects.map .object) ∧
          (storedRows c (fetchFiles e (optimizeQuery fmt sql metadata))).Perm
            (objects.flatMap c.object)) := by
  have hfiles : fetchFiles e (optimizeQuery fmt sql ((keys.flatMap (membersOf e)).map e.metadata)) =
      ((keys.flatMap (membersOf e)).filter (fun n => selected fmt sql (e.metadata n))).map .object :=
    fetchFiles_optimizeQuery h.metadata
      (fun name hname _ => hfetch name ((mem_storageObjects h name).mp hname))
  refine ⟨(keys.flatMap (membersOf e)).map e.metadata, ?_, ?_⟩
  · rw [getStorageFilesMetadata, storageObjects, if_pos rfl, h.scan]
    rfl
  rw [← nodup_selected_iff h, hfiles]
  constructor
  · intro hnodup
    refine ⟨_, hnodup, fun name => ?_, List.Perm.refl _, ?_⟩
    · rw [mem_filter, mem_storageObjects h]
    · rw [storedRows, flatMap_map]
  · rintro ⟨objects, hnodup, -, hperm, -⟩
    have hinj : Function.Injective DataFile.object := fun a b hab => DataFile.object.inj hab
    exact (hperm.nodup_iff.mpr (hnodup.map hinj)).of_map _

def ordersKey : String := "index:table:orders:id:u1:2024-01-01"
def ordersObject : String := "orders/u1/2024-01-01/7.parquet"

def ordersRows : Contents ℕ := ⟨fun _ => [], fun _ => [1, 2]⟩

def ordersEnv (pages : List (Option (List String))) : ReadEnv where
  bufferKeys := []
  written := fun _ => true
  scanPages := pages
  smembers := fun k => if k = ordersKey then some [ordersObject] else some []
  listing := []
  metadata := fun name => ⟨name, fun _ => none, fun _ => none⟩
  fetch := fun _ => none

lemma answers_ordersEnv {pages : List (Option (List String))} {keys : List String}
    (hpages : scanKeys pages = some keys) (hkeys : ∀ k, k ∈ keys ↔ k = ordersKey) :
    Answers (ordersEnv pages) [(ordersKey, ordersObject)] "orders" keys where
  scan := hpages
  found := by
    have hmatch : Glob.isMatch (tablePattern "orders") ordersKey := by decide +kernel
    intro k
    rw [hkeys]
    constructor
    · rintro rfl
      exact ⟨⟨ordersObject, mem_singleton.mpr rfl⟩, hmatch⟩
    · rintro ⟨⟨m, hm⟩, -⟩
      exact (Prod.mk.inj (mem_singleton.mp hm)).1
  members := by
    intro k hk
    rw [hkeys] at hk
    refine ⟨[ordersObject], if_pos hk, nodup_singleton _, fun m => ?_⟩
    rw [hk, mem_singleton, mem_singleton, Prod.mk.injEq]
    simp
  metadata := fun _ => rfl

/-- When SCAN returns the key once, its object is read once. -/
theorem stored_objects_read_once_orders :
    ∃ metadata, getStorageFilesMetadata (ordersEnv [some [ordersKey]]) true = some metadata ∧
      ∃ objects : List String, objects.Nodup ∧
        (∀ name, name ∈ objects ↔ Indexed [(ordersKey, ordersObject)] "orders" name ∧
          selected plainFormats "SELECT * FROM orders"
            ((ordersEnv [some [ordersKey]]).metadata name) = true) ∧
        (fetchFiles (ordersEnv [some [ordersKey]])
          (optimizeQuery plainFormats "SELECT * FROM orders" metadata)).Perm (objects.map .object) ∧
        (storedRows ordersRows (fetchFiles (ordersEnv [some [ordersKey]])
          (optimizeQuery plainFormats "SELECT * FROM orders" metadata))).Perm
            (objects.flatMap ordersRows.object) := by
  have hanswers : Answers (ordersEnv [some [ordersKey]]) [(ordersKey, ordersObject)] "orders" [ordersKey] :=
    answers_ordersEnv rfl (fun _ => mem_singleton)
  obtain ⟨metadata, hmetadata, honce⟩ := stored_objects_read_once ordersRows hanswers plainFormats
    "SELECT * FROM orders" (fun _ _ => rfl)
  refine ⟨metadata, hmetadata, honce.mp (fun name hin _ => ?_)⟩
  obtain ⟨k, hk, -⟩ := hin
  rw [(Prod.mk.inj (mem_singleton.mp hk)).2]
  decide +kernel

/-- SCAN may return a key on two of its pages. Its object is then twice in the list, and
every row of it is read twice. -/
theorem stored_object_read_twice :
    Answers (ordersEnv [some [ordersKey], some [ordersKey]]) [(ordersKey, ordersObject)] "orders"
      [ordersKey, ordersKey] ∧
    (getStorageFilesMetadata (ordersEnv [some [ordersKey], some [ordersKey]]) true).map (fun metadata =>
      allFiles ordersRows (ordersEnv [some [ordersKey], some [ordersKey]]) plainFormats
        "SELECT * FROM orders" metadata) = some [.object ordersObject, .object ordersObject] ∧
    storedRows ordersRows [.object ordersObject, .object ordersObject] = [1, 2, 1, 2] :=
  ⟨answers_ordersEnv rfl (fun k => by simp), by decide +kernel, rfl⟩

end MinIODB.Query
