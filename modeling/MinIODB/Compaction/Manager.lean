import MinIODB.Compaction.Records
import MinIODB.Library.Ranking
import MinIODB.Service.Steps

/-!
# The compaction manager

The manager lists the objects of a table, selects candidates and runs one compaction after the
other. `compactFiles` and `compactTieredFiles` differ in the names of the objects they write. Each
downloads and reads its files one by one, writes all records to new files, uploads these, and then
removes the objects it started from. Only the failure of a remove and of a stat is not the end of
a compaction. The Redis index is never touched.

Every call to the server or to the file system is one step. Between two steps the steps of
`DeleteData` calls may be taken.
-/
namespace MinIODB.Compaction
open Service Buffer Query Ranking List

section

structure FileInfo where
  path : String
  size : ℤ
  modTime : ℤ

structure CompactionLevel where
  name : String
  maxFileSize : ℤ
  minFilesToMerge : ℕ
  cooldownPeriod : ℤ

structure TieredCompactionConfig where
  enabled : Bool
  levels : List CompactionLevel
  maxFilesToMerge : ℕ
  maxRowsPerFile : ℤ

structure Config where
  targetFileSize : ℤ
  minFilesToCompact : ℕ
  maxFilesToCompact : ℕ
  cooldownPeriod : ℤ
  maxRowsPerFile : ℤ
  tieredConfig : Option TieredCompactionConfig

structure Job where
  nextLevel : String
  maxRowsPerFile : ℕ
  files : List String

def listed (table name : String) : Bool := inTable table name && isParquet name

def select (sort : SliceSort FileInfo) (keep : FileInfo → Bool) (less : FileInfo → FileInfo → Bool)
    (limit : ℕ) (files : List FileInfo) : List FileInfo :=
  (sort.sort less (files.filter keep)).take limit

def olderFirst (a b : FileInfo) : Bool := decide (a.modTime < b.modTime)

def smallerFirst (a b : FileInfo) : Bool :=
  if a.size ≠ b.size then decide (a.size < b.size) else decide (a.modTime < b.modTime)

def selectCompactionCandidates (cfg : Config) (sort : SliceSort FileInfo) (now : ℤ) :
    List FileInfo → List FileInfo :=
  select sort (fun f => decide (cfg.cooldownPeriod ≤ now - f.modTime) && decide (f.size < cfg.targetFileSize))
    olderFirst cfg.maxFilesToCompact

def selectTieredCompactionCandidates (cfg : TieredCompactionConfig) (sort : SliceSort FileInfo) (now : ℤ)
    (level : CompactionLevel) : List FileInfo → List FileInfo :=
  select sort (fun f => decide (level.cooldownPeriod ≤ now - f.modTime) && decide (f.size ≤ level.maxFileSize))
    smallerFirst cfg.maxFilesToMerge

def getFileLevel (cfg : TieredCompactionConfig) (size : ℤ) : String :=
  match cfg.levels.find? (fun level => decide (size ≤ level.maxFileSize)) with
  | some level => level.name
  | none => (cfg.levels.getLast?.map CompactionLevel.name).getD ""

def levelFiles (cfg : TieredCompactionConfig) (level : CompactionLevel) (files : List FileInfo) : List FileInfo :=
  files.filter (fun f => decide (getFileLevel cfg f.size ≠ "") && decide (getFileLevel cfg f.size = level.name))

def rowLimit (maxRowsPerFile : ℤ) : ℕ := if maxRowsPerFile ≤ 0 then 1000000 else maxRowsPerFile.toNat

def tieredJob (cfg : TieredCompactionConfig) (sort : SliceSort FileInfo) (now : ℤ) (files : List FileInfo)
    (level : CompactionLevel) (i : ℕ) : Option Job :=
  if (levelFiles cfg level files).length < level.minFilesToMerge then none
  else if (selectTieredCompactionCandidates cfg sort now level (levelFiles cfg level files)).length <
      level.minFilesToMerge then none
  else some
    { nextLevel := (cfg.levels[i + 1]?.map CompactionLevel.name).getD ""
      maxRowsPerFile := rowLimit cfg.maxRowsPerFile
      files := (selectTieredCompactionCandidates cfg sort now level (levelFiles cfg level files)).map
        FileInfo.path }

def compactTable (cfg : Config) (sort : SliceSort FileInfo) (now : ℕ → ℤ) (files : List FileInfo) : List Job :=
  match cfg.tieredConfig.filter TieredCompactionConfig.enabled with
  | some tiered => tiered.levels.zipIdx.filterMap (fun p => tieredJob tiered sort (now p.2) files p.1 p.2)
  | none =>
    if (selectCompactionCandidates cfg sort (now 0) files).length < cfg.minFilesToCompact then []
    else
      [{ nextLevel := ""
         maxRowsPerFile := rowLimit cfg.maxRowsPerFile
         files := (selectCompactionCandidates cfg sort (now 0) files).map FileInfo.path }]

def Job.Valid (table : String) (job : Job) : Prop :=
  job.files.Nodup ∧ ∀ name ∈ job.files, listed table name = true

instance (table : String) (job : Job) : Decidable (job.Valid table) :=
  inferInstanceAs (Decidable (job.files.Nodup ∧ ∀ name ∈ job.files, listed table name = true))

variable {table : String} {sort : SliceSort FileInfo} {files : List FileInfo}

lemma select_subperm {keep : FileInfo → Bool} {less : FileInfo → FileInfo → Bool} {limit : ℕ}
    (hless : StrictWeakOn less (files.filter keep)) : (select sort keep less limit files).Subperm files := by
  have hsorted : (sort.sort less (files.filter keep)).Subperm files :=
    (sort.perm less _ hless).subperm.trans filter_sublist.subperm
  exact (take_sublist _ _).subperm.trans hsorted

open FileInfo

lemma olderFirst_strictWeak (files : List FileInfo) : StrictWeakOn olderFirst files :=
  StrictWeakOn.of_key modTime (fun a _ b _ => by simp [olderFirst])

lemma smallerFirst_strictWeak (files : List FileInfo) : StrictWeakOn smallerFirst files := by
  refine StrictWeakOn.of_key (fun f => toLex (f.size, f.modTime)) (fun a _ b _ => ?_)
  rw [Prod.Lex.toLex_lt_toLex, smallerFirst]
  split
  · rename_i hne
    simp [hne]
  · rename_i heq
    simp [not_not.mp heq]

variable {chosen : List FileInfo}

lemma nodup_paths (h : chosen.Subperm files) (hnodup : (files.map path).Nodup) : (chosen.map path).Nodup := by
  obtain ⟨l, hperm, hsub⟩ := h
  exact ((hperm.map _).nodup_iff).mp ((hsub.map path).nodup hnodup)

lemma valid_of_subperm {nextLevel : String} {maxRowsPerFile : ℕ} (h : chosen.Subperm files) (hnodup : (files.map path).Nodup)
    (hlisted : ∀ f ∈ files, listed table f.path) :
    Job.Valid table ⟨nextLevel, maxRowsPerFile, chosen.map path⟩ := by
  refine ⟨nodup_paths h hnodup, fun name hname => ?_⟩
  obtain ⟨f, hf, rfl⟩ := mem_map.mp hname
  exact hlisted f (h.subset hf)

/-- The level for files of a size: the first one with room for them, or the last one. -/
def levelOf (levels : List CompactionLevel) (size : ℤ) : Option CompactionLevel :=
  (levels.find? (fun level => decide (size ≤ level.maxFileSize))).or levels.getLast?

variable {cfg : TieredCompactionConfig}

lemma exists_levelOf (hlevels : cfg.levels ≠ []) (size : ℤ) :
    ∃ level ∈ cfg.levels, levelOf cfg.levels size = some level ∧ getFileLevel cfg size = level.name := by
  unfold levelOf getFileLevel
  cases hfind : cfg.levels.find? (fun level => decide (size ≤ level.maxFileSize)) with
  | some level => exact ⟨level, mem_of_find?_eq_some hfind, rfl, rfl⟩
  | none =>
    rw [getLast?_eq_some_getLast hlevels]
    exact ⟨_, getLast_mem hlevels, rfl, rfl⟩

lemma mem_levelFiles {level : CompactionLevel} {f : FileInfo} (hnames : (cfg.levels.map CompactionLevel.name).Nodup)
    (hlevel : level ∈ cfg.levels) (hnamed : level.name ≠ "") :
    f ∈ levelFiles cfg level files ↔ f ∈ files ∧ levelOf cfg.levels f.size = some level := by
  obtain ⟨level', hmem, hlevelOf, hname⟩ := exists_levelOf (ne_nil_of_mem hlevel) f.size
  rw [levelFiles, mem_filter, hlevelOf, hname, Option.some_inj]
  refine and_congr_right (fun _ => ⟨fun h => ?_, ?_⟩)
  · exact inj_on_of_nodup_map hnames hmem hlevel (of_decide_eq_true (Bool.and_eq_true_iff.mp h).2)
  · rintro rfl
    simp [hnamed]

end

abbrev Output := String × List GenericRecord

inductive Phase (ν : Type*) where
  | downloading (files : List String) (records : List (Record ν))
  | reading (name : String) (rows : List (StoredRow Columns)) (files : List String) (records : List (Record ν))
  | writing (records : List (Record ν))
  | statting (outputs : List Output)
  | uploading (output : Output) (outputs : List Output)
  | removing (files : List String)
  | returned (success : Bool)

structure Call (ν : Type*) where
  job : Job
  phase : Phase ν

structure StepTime where
  ok : Bool
  now : ℕ
  opened : ℕ → ℕ

structure Deletions extends World Columns where
  deletes : List (DeleteCall Columns)

structure System (ν : Type*) extends Deletions where
  compaction : Option (Call ν)

inductive DeleteAction where
  | delete (table id : String)
  | step (i : ℕ) (e : StepEnv)

inductive Action where
  | service (a : DeleteAction)
  | compact (job : Job)
  | step (e : StepTime)

def Action.part : Action → Option DeleteAction
  | .service a => some a
  | _ => none

section
variable {ν : Type*} (svc : ServiceConfig) (decode : Columns → Option Columns) (json : Json ν) (table : String)

def uploadName (job : Job) (now : ℕ) (base : String) : String :=
  if job.nextLevel ≠ "" then
    table ++ "/" ++ job.nextLevel ++ "_promoted_" ++ toString now ++ "_" ++ base
  else table ++ "/compacted_" ++ toString now ++ "_" ++ base

def dataFileName (opened : ℕ → ℕ) (totalFiles : ℕ) : String :=
  "data_" ++ toString (opened totalFiles) ++ "_" ++ toString totalFiles ++ ".parquet"

def outputFiles (maxRowsPerFile : ℕ) (e : StepTime) (records : List (Record ν)) : List Output :=
  (((writeFiles maxRowsPerFile [] (records.map (convertToGenericRecord json (Int64.ofNat (e.now / 1000))))).zipIdx.map
    (fun p => (dataFileName e.opened p.2, p.1))).insertionSort (fun a b => a.1 ≤ b.1))

def Call.step (e : StepTime) (objects : Files Columns) (c : Call ν) : Option (Files Columns × Phase ν) :=
  match c.phase with
  | .downloading [] records => some (objects, .writing records)
  | .downloading (name :: files) records =>
    match objects.lookup name with
    | some rows => some (objects, if e.ok then .reading name rows files records else .returned false)
    | none => some (objects, .returned false)
  | .reading _ rows files records =>
    some (objects,
      if e.ok then .downloading files (records ++ readFile json rows) else .returned false)
  | .writing records =>
    some (objects,
      if e.ok then .statting (outputFiles json c.job.maxRowsPerFile e records) else .returned false)
  | .statting [] => some (objects, .removing c.job.files)
  | .statting (output :: outputs) =>
    -- a file that cannot be examined is left out
    some (objects, if e.ok then .uploading output outputs else .statting outputs)
  | .uploading output outputs =>
    if e.ok then
      some (objects.insert (uploadName table c.job e.now output.1) (output.2.map writtenRow), .statting outputs)
    else some (objects, .returned false)
  | .removing [] => some (objects, .returned true)
  | .removing (name :: files) =>
    some (if e.ok then objects.erase name else objects, .removing files)
  | .returned _ => none

def Deletions.step (d : Deletions) : DeleteAction → Option Deletions
  | .delete table id =>
    some { d with deletes := d.deletes ++ [⟨table, id, 0, [], [], 0, 0, .started⟩] }
  | .step i e =>
    d.deletes[i]?.bind (fun c =>
      (c.step svc decode e d.toWorld).map (fun r => { toWorld := r.1, deletes := d.deletes.set i r.2 }))

def Idle : Option (Call ν) → Bool
  | none => true
  | some c =>
    match c.phase with
    | .returned _ => true
    | _ => false

def System.step (s : System ν) : Action → Option (System ν)
  | .service a => (s.toDeletions.step svc decode a).map (fun d => { s with toDeletions := d })
  | .compact job =>
    if Idle s.compaction = true ∧ job.Valid table then
      some { s with compaction := some ⟨job, .downloading job.files []⟩ }
    else none
  | .step e =>
    s.compaction.bind (fun c =>
      (c.step json table e s.store.objects).map (fun r =>
        { s with
          store := { s.store with objects := r.1 }
          compaction := some { c with phase := r.2 } }))

end

def seen (redisPool : Bool) (table : String) (store : Store Columns) : Multiset Content :=
  ((store.tableObjects redisPool table).flatMap (fun name =>
    ((store.file redisPool name).getD []).map content) : List Content)

structure Preserved {ν : Type*} (redisPool : Bool) (table : String) (s : System ν) (d : Deletions) : Prop where
  kept : seen redisPool table d.store ≤ seen redisPool table s.store
  known : ∀ r ∈ seen redisPool table s.store, r ∈ seen redisPool table d.store
  returned : Idle s.compaction = true → seen redisPool table s.store = seen redisPool table d.store

end MinIODB.Compaction
