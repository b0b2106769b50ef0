import MinIODB.Query.Execute

/-!
# Complete answers

A read that fails takes its rows out of the answer without an error, unless nothing at all
is left; and a table of which nothing is left ends the query with an empty answer. If all
reads succeed and every table has a file, the answer is the one of DuckDB over all rows of
the buffer and all rows of the selected objects, and only such answers are cached.
-/
namespace MinIODB.Query
open List Function

variable {ρ : Type*}

section

variable {disk : DataFile → Option (List ρ)} {writes : List (DataFile × List ρ)} {file : DataFile}
  {rows : List ρ}

lemma writeAll_apply (hsame : ∀ w ∈ writes, w.1 = file → w.2 = rows)
    (h : disk file = some rows ∨ ∃ w ∈ writes, w.1 = file) : writeAll disk writes file = some rows := by
  induction writes generalizing disk with
  | nil =>
    rcases h with h | ⟨w, hw, -⟩
    · exact h
    · cases hw
  | cons w writes ih =>
    change writeAll (Function.update disk w.1 (some w.2)) writes file = some rows
    refine ih (fun w' hw' => hsame w' (.tail w hw')) ?_
    by_cases hw : w.1 = file
    · left
      rw [hw, update_self, hsame w mem_cons_self hw]
    · rw [update_of_ne (fun h => hw h.symm)]
      rcases h with h | ⟨w', hw', hfile⟩
      · exact .inl h
      · rcases mem_cons.mp hw' with rfl | hmem
        · exact absurd hfile hw
        · exact .inr ⟨w', hmem, hfile⟩

def RightFile (c : Contents ρ) (K : String → Prop) : DataFile → List ρ → Prop
  | .buffer path, rows => ∃ k, K k ∧ path = createTempFilePath k ∧ rows = c.buffer k
  | .object name, rows => rows = c.object name

def OwnFiles (K : String → Prop) : Prop :=
  ∀ k k', K k → K k' → createTempFilePath k = createTempFilePath k' → k = k'

variable {c : Contents ρ} {K : String → Prop}

lemma RightFile.unique (hK : OwnFiles K) {rows' : List ρ} (h : RightFile c K file rows)
    (h' : RightFile c K file rows') : rows = rows' := by
  cases file with
  | buffer =>
    obtain ⟨k, hk, hpath, rfl⟩ := h
    obtain ⟨k', hk', hpath', rfl⟩ := h'
    rw [hK k k' hk hk' (hpath.symm.trans hpath')]
  | object =>
    rw [RightFile] at h h'
    rw [h, h']

def FilesRight (c : Contents ρ) (K : String → Prop) (disk : DataFile → Option (List ρ))
    (files : List DataFile) : Prop :=
  ∀ file ∈ files, ∃ rows, RightFile c K file rows ∧ disk file = some rows

lemma FilesRight.write (hK : OwnFiles K) {files : List DataFile} (h : FilesRight c K disk files)
    (hwrites : ∀ w ∈ writes, RightFile c K w.1 w.2) : FilesRight c K (writeAll disk writes) files := by
  intro file hfile
  obtain ⟨rows, hright, hrows⟩ := h file hfile
  refine ⟨rows, hright, writeAll_apply (fun w hw heq => ?_) (.inl hrows)⟩
  have hw' := hwrites w hw
  rw [heq] at hw'
  exact hw'.unique hK hright

lemma filesRight_writeAll (hK : OwnFiles K) (hwrites : ∀ w ∈ writes, RightFile c K w.1 w.2) :
    FilesRight c K (writeAll disk writes) (writes.map Prod.fst) := by
  intro file hfile
  obtain ⟨w, hw, rfl⟩ := mem_map.mp hfile
  refine ⟨w.2, hwrites w hw, writeAll_apply (fun w' hw' heq => ?_) (.inr ⟨w, hw, rfl⟩)⟩
  have hright := hwrites w' hw'
  rw [heq] at hright
  exact hright.unique hK (hwrites w hw)

lemma bufferWrites_right {e : ReadEnv} (hkeys : ∀ k ∈ e.bufferKeys, K k) :
    ∀ w ∈ bufferWrites c e, RightFile c K w.1 w.2 := by
  intro w hw
  obtain ⟨k, hk, rfl⟩ := mem_map.mp hw
  exact ⟨k, hkeys k (mem_filter.mp hk).1, rfl, rfl⟩

lemma objectWrites_right {e : ReadEnv} {files : List FileMetadata} :
    ∀ w ∈ objectWrites c e files, RightFile c K w.1 w.2 := by
  intro w hw
  obtain ⟨file, -, rfl⟩ := mem_map.mp hw
  rfl

lemma writeAll_append (writes' : List (DataFile × List ρ)) :
    writeAll (writeAll disk writes) writes' = writeAll disk (writes ++ writes') :=
  foldl_append.symm

lemma map_fst_writes (e : ReadEnv) (fmt : Formats) (sql : String) (metadata : List FileMetadata) :
    (bufferWrites c e ++ objectWrites c e (optimizeQuery fmt sql metadata)).map Prod.fst =
      allFiles c e fmt sql metadata := by
  simp [bufferWrites, objectWrites, allFiles, getBufferFilesForTable, fetchFiles, comp_def]

end

section

variable {eng : Engine ρ} {redisPool : Bool} {c : Contents ρ} {q : Querier ρ} {conn : ℕ}
  {tableName sql : String} {e : TableEnv}

section
variable (view : Option View)

@[simp] theorem setView_views (conn' : ℕ) (t : String) :
    (q.setView conn tableName view).views conn' t =
      if conn' = conn ∧ t = tableName then view else q.views conn' t := rfl

@[simp] theorem setView_disk : (q.setView conn tableName view).disk = q.disk := rfl

@[simp] theorem setView_queryCache :
    (q.setView conn tableName view).queryCache = q.queryCache := rfl

end

lemma makeView_spec (q : Querier ρ) (conn : ℕ) (tableName : String) (e : TableEnv) (view : View)
    (createMsg verifyMsg : String) :
    (q.makeView conn tableName e view createMsg verifyMsg).2.disk = q.disk ∧
    (q.makeView conn tableName e view createMsg verifyMsg).2.queryCache = q.queryCache ∧
    (∀ t, t ≠ tableName →
      (q.makeView conn tableName e view createMsg verifyMsg).2.views conn t = q.views conn t) ∧
    ((q.makeView conn tableName e view createMsg verifyMsg).1 = .ok () →
      (q.makeView conn tableName e view createMsg verifyMsg).2.views conn tableName = some view) ∧
    (q.makeView conn tableName e view createMsg verifyMsg).1 ≠ .error .noDataFiles := by
  unfold Querier.makeView
  cases hdrop : e.dropped <;> cases hcreate : e.created <;> cases hverify : e.verified <;>
    simp +contextual

def Ready (eng : Engine ρ) (c : Contents ρ) (K : String → Prop) (sql : String) (conn : ℕ)
    (tableName : String) (e : ReadEnv) (names : List String) (q : Querier ρ) : Prop :=
  q.views conn tableName =
      some ⟨eng.extractRequiredColumns sql, allFiles c e eng.formats sql (names.map e.metadata)⟩ ∧
    FilesRight c K q.disk (allFiles c e eng.formats sql (names.map e.metadata))

lemma prepare_spec (eng : Engine ρ) (redisPool : Bool) (c : Contents ρ) (q : Querier ρ) (conn : ℕ)
    (tableName sql : String) (e : TableEnv) {K : String → Prop} (hK : OwnFiles K) {names : List String}
    (hnames : storageObjects e.first redisPool = some names) (hkeys : ∀ k ∈ e.first.bufferKeys, K k) :
    ((prepareTableDataWithPruning eng redisPool c q conn tableName sql e).1 = .ok () →
      allFiles c e.first eng.formats sql (names.map e.first.metadata) ≠ [] ∧
      Ready eng c K sql conn tableName e.first names
        (prepareTableDataWithPruning eng redisPool c q conn tableName sql e).2) ∧
    ((prepareTableDataWithPruning eng redisPool c q conn tableName sql e).1 = .error .noDataFiles →
      allFiles c e.first eng.formats sql (names.map e.first.metadata) = [] ∧
      otherErrorCount e.first (optimizeQuery eng.formats sql (names.map e.first.metadata)) = 0) ∧
    (∀ files, FilesRight c K q.disk files →
      FilesRight c K (prepareTableDataWithPruning eng redisPool c q conn tableName sql e).2.disk files) ∧
    (∀ t, t ≠ tableName →
      (prepareTableDataWithPruning eng redisPool c q conn tableName sql e).2.views conn t =
        q.views conn t) ∧
    (prepareTableDataWithPruning eng redisPool c q conn tableName sql e).2.queryCache = q.queryCache := by
  have hmetadata : getStorageFilesMetadata e.first redisPool = some (names.map e.first.metadata) := by
    rw [getStorageFilesMetadata, hnames]
    rfl
  have hwrites : ∀ w ∈ bufferWrites c e.first ++
      objectWrites c e.first (optimizeQuery eng.formats sql (names.map e.first.metadata)),
      RightFile c K w.1 w.2 := by
    intro w hw
    rcases mem_append.mp hw with hw | hw
    · exact bufferWrites_right hkeys w hw
    · exact objectWrites_right w hw
  have hdisk : ∀ files, FilesRight c K q.disk files →
      FilesRight c K (writeAll (writeAll q.disk (bufferWrites c e.first))
        (objectWrites c e.first (optimizeQuery eng.formats sql (names.map e.first.metadata)))) files := by
    intro files hfiles
    rw [writeAll_append]
    exact hfiles.write hK hwrites
  unfold prepareTableDataWithPruning
  rw [hmetadata]
  simp only []
  split
  · rename_i hempty
    split
    · exact ⟨fun h => (by cases h), fun h => (by cases h), hdisk, fun _ _ => rfl, rfl⟩
    · rename_i hzero
      exact ⟨fun h => (by cases h), fun _ => ⟨hempty, Nat.eq_zero_of_not_pos hzero⟩, hdisk,
        fun _ _ => rfl, rfl⟩
  · rename_i hfiles
    obtain ⟨hmdisk, hmcache, hmviews, hmok, hmerr⟩ := makeView_spec
      ((q.write (bufferWrites c e.first)).write
        (objectWrites c e.first (optimizeQuery eng.formats sql (names.map e.first.metadata))))
      conn tableName e
      ⟨eng.extractRequiredColumns sql, allFiles c e.first eng.formats sql (names.map e.first.metadata)⟩
      "failed to create optimized view for table "
      "optimized view creation verification failed for table "
    unfold createTableViewWithDBWithColumnPruning
    refine ⟨fun hok => ⟨hfiles, hmok hok, ?_⟩, fun hno => absurd hno hmerr, fun files hfiles => ?_, hmviews, hmcache⟩
    · rw [hmdisk, ← map_fst_writes]
      change FilesRight c K (writeAll (writeAll q.disk _) _) _
      rw [writeAll_append]
      exact filesRight_writeAll hK hwrites
    · rw [hmdisk]
      exact hdisk files hfiles

end

section

structure Servers where
  index : Index
  bucket : List String

def Servers.Stored (s : Servers) (redisPool : Bool) (tableName name : String) : Prop :=
  if redisPool then Indexed s.index tableName name
  else (name ∈ s.bucket ∧ (tableName ++ "/").toList <+: name.toList) ∧ isParquet name = true

structure Honest (s : Servers) (tableName : String) (r : ReadEnv) : Prop where
  scan : ∀ keys, scanKeys r.scanPages = some keys → ScanOf s.index (tablePattern tableName) keys
  members : ∀ k ms, r.smembers k = some ms → ms.Nodup ∧ ∀ m, m ∈ ms ↔ (k, m) ∈ s.index
  listing : (∀ x ∈ r.listing, x.isSome = true) → (r.listing.filterMap id).Nodup ∧
    ∀ name, name ∈ r.listing.filterMap id ↔
      name ∈ s.bucket ∧ (tableName ++ "/").toList <+: name.toList
  metadata : ∀ name, (r.metadata name).filePath = name

structure ReadsAll (redisPool : Bool) (r : ReadEnv) : Prop where
  written : ∀ k ∈ r.bufferKeys, r.written k = true
  index : redisPool = true → ∃ keys, scanKeys r.scanPages = some keys ∧
    ∀ k ∈ keys, (r.smembers k).isSome = true
  listing : redisPool = false → ∀ x ∈ r.listing, x.isSome = true

variable {s : Servers} {redisPool : Bool} {tableName : String} {r : ReadEnv}

lemma Honest.answers (h : Honest s tableName r) {keys : List String}
    (hscan : scanKeys r.scanPages = some keys) (hmembers : ∀ k ∈ keys, (r.smembers k).isSome) :
    Answers r s.index tableName keys where
  scan := hscan
  found := h.scan keys hscan
  members := by
    intro k hk
    obtain ⟨ms, hms⟩ := Option.isSome_iff_exists.mp (hmembers k hk)
    exact ⟨ms, hms, h.members k ms hms⟩
  metadata := h.metadata

lemma storageObjects_of_readsAll (h : Honest s tableName r) (hall : ReadsAll redisPool r) :
    ∃ names, storageObjects r redisPool = some names ∧
      ∀ name, name ∈ names ↔ s.Stored redisPool tableName name := by
  cases redisPool with
  | true =>
    obtain ⟨keys, hscan, hmembers⟩ := hall.index rfl
    refine ⟨keys.flatMap (membersOf r), ?_, fun name => ?_⟩
    · rw [storageObjects, if_pos rfl, hscan]
      rfl
    · exact mem_storageObjects (h.answers hscan hmembers) name
  | false =>
    obtain ⟨-, hlisting⟩ := h.listing (hall.listing rfl)
    refine ⟨_, rfl, fun name => ?_⟩
    rw [mem_filter, hlisting, Servers.Stored, if_neg Bool.false_ne_true]

lemma flatMap_writtenKeys (c : Contents ρ) (hall : ReadsAll redisPool r) :
    (writtenKeys c r).flatMap c.buffer = r.bufferKeys.flatMap c.buffer := by
  have hwritten := hall.written
  unfold writtenKeys
  generalize r.bufferKeys = keys at hwritten
  induction keys with
  | nil => rfl
  | cons k keys ih =>
    have hk := hwritten k mem_cons_self
    have hrest := ih (fun k' hk' => hwritten k' (mem_cons_of_mem k hk'))
    rw [filter_cons, flatMap_cons, ← hrest, hk]
    cases hrows : c.buffer k with
    | nil => simp
    | cons => simp [hrows]

end

section

variable {eng : Engine ρ} {redisPool : Bool} {c : Contents ρ} {K : String → Prop} {q : Querier ρ}
  {conn : ℕ} {tableName sql : String} {r : ReadEnv} {names : List String}

lemma Ready.relation (hK : OwnFiles K) (hkeys : ∀ k ∈ r.bufferKeys, K k)
    (hmetadata : ∀ name, (r.metadata name).filePath = name)
    (hfetch : ∀ name ∈ names, selected eng.formats sql (r.metadata name) → r.fetch name = none)
    (h : Ready eng c K sql conn tableName r names q) :
    q.relation conn tableName = some ⟨eng.extractRequiredColumns sql,
      ↑((writtenKeys c r).flatMap c.buffer ++
        (names.filter (fun n => selected eng.formats sql (r.metadata n))).flatMap c.object)⟩ := by
  obtain ⟨hview, hright⟩ := h
  have hfiles : allFiles c r eng.formats sql (names.map r.metadata) =
      getBufferFilesForTable c r ++
        (names.filter (fun n => selected eng.formats sql (r.metadata n))).map .object := by
    rw [allFiles, fetchFiles_optimizeQuery hmetadata hfetch]
  have hall : (allFiles c r eng.formats sql (names.map r.metadata)).all
      (fun file => (q.disk file).isSome) = true := by
    rw [all_eq_true]
    intro file hfile
    obtain ⟨rows, -, hrows⟩ := hright file hfile
    rw [hrows]
    rfl
  have hbuffer : ∀ k ∈ writtenKeys c r, (q.disk (.buffer (createTempFilePath k))).getD [] = c.buffer k := by
    intro k hk
    obtain ⟨rows, hrows, hdisk⟩ := hright (.buffer (createTempFilePath k)) (by
      rw [hfiles]
      exact mem_append_left _ (mem_map.mpr ⟨k, hk, rfl⟩))
    have hk' : RightFile c K (.buffer (createTempFilePath k)) (c.buffer k) :=
      ⟨k, hkeys k (mem_filter.mp hk).1, rfl, rfl⟩
    rw [hdisk, Option.getD_some, hrows.unique hK hk']
  have hobject : ∀ name ∈ names.filter (fun n => selected eng.formats sql (r.metadata n)),
      (q.disk (.object name)).getD [] = c.object name := by
    intro name hname
    obtain ⟨rows, hrows, hdisk⟩ := hright (.object name) (by
      rw [hfiles]
      exact mem_append_right _ (mem_map.mpr ⟨name, hname, rfl⟩))
    rw [hdisk, Option.getD_some]
    exact hrows
  rw [Querier.relation, hview, Option.bind_some, if_pos hall, hfiles, flatMap_append,
    getBufferFilesForTable, flatMap_map, flatMap_map]
  rw [flatMap_congr hbuffer, flatMap_congr hobject]

end

section

structure Call (ρ : Type*) where
  sql : String
  servers : Servers
  env : QueryEnv ρ
  honest : ∀ t, Honest servers t (env.tables t).first

variable (eng : Engine ρ) (redisPool : Bool)

def Call.tables (p : Call ρ) : List String := eng.validateTableNames (eng.extractTableNames p.sql)

def Call.Keys (p : Call ρ) (k : String) : Prop :=
  ∃ t ∈ p.tables eng, k ∈ (p.env.tables t).first.bufferKeys

def Call.Selects (p : Call ρ) (t name : String) : Prop :=
  p.servers.Stored redisPool t name ∧
    selected eng.formats p.sql ((p.env.tables t).first.metadata name) = true

def Call.FetchesAll (p : Call ρ) (t : String) : Prop :=
  ((∃ k ∈ (p.env.tables t).first.bufferKeys, p.env.contents.buffer k ≠ []) ∨
      ∃ name, p.Selects eng redisPool t name) ∧
    ∀ name, p.Selects eng redisPool t name → (p.env.tables t).first.fetch name = none

def Call.FetchesNone (p : Call ρ) (t : String) : Prop :=
  (∀ k ∈ (p.env.tables t).first.bufferKeys, p.env.contents.buffer k = []) ∧
    (∀ name, p.Selects eng redisPool t name → (p.env.tables t).first.fetch name ≠ none) ∧
    ∃ name, p.Selects eng redisPool t name ∧ (p.env.tables t).first.fetch name = some .other

/-- Of each table, everything is read or nothing. -/
structure Call.Undisturbed (p : Call ρ) : Prop where
  extracted : ∀ t ∈ eng.named p.sql, t ∈ p.tables eng
  ownFiles : OwnFiles (p.Keys eng)
  reads : ∀ t ∈ p.tables eng, ReadsAll redisPool (p.env.tables t).first
  fetches : ∀ t ∈ p.tables eng, p.FetchesAll eng redisPool t ∨ p.FetchesNone eng redisPool t

variable {eng redisPool} {p : Call ρ} {q : Querier ρ} {conn : ℕ} {t : String}

lemma Call.Undisturbed.names (h : p.Undisturbed eng redisPool) (ht : t ∈ p.tables eng) :
    ∃ names, storageObjects (p.env.tables t).first redisPool = some names ∧
      ∀ name, name ∈ names ↔ p.servers.Stored redisPool t name :=
  storageObjects_of_readsAll (p.honest t) (h.reads t ht)

lemma mem_fetchFiles {r : ReadEnv} {fmt : Formats} {sql : String} {names : List String}
    (hmetadata : ∀ name, (r.metadata name).filePath = name) {file : DataFile} :
    file ∈ fetchFiles r (optimizeQuery fmt sql (names.map r.metadata)) ↔
      ∃ name ∈ names, selected fmt sql (r.metadata name) ∧ r.fetch name = none ∧
        file = .object name := by
  rw [optimizeQuery_eq_filter, fetchFiles, mem_map]
  constructor
  · rintro ⟨m, hm, rfl⟩
    obtain ⟨hm, hfetch⟩ := mem_filter.mp hm
    obtain ⟨hm, hsel⟩ := mem_filter.mp hm
    obtain ⟨name, hname, rfl⟩ := mem_map.mp hm
    rw [hmetadata, Option.isNone_iff_eq_none] at hfetch
    exact ⟨name, hname, hsel, hfetch, by rw [hmetadata]⟩
  · rintro ⟨name, hname, hsel, hfetch, rfl⟩
    refine ⟨r.metadata name, mem_filter.mpr ⟨mem_filter.mpr
      ⟨mem_map.mpr ⟨name, hname, rfl⟩, hsel⟩, ?_⟩, by rw [hmetadata]⟩
    rw [hmetadata, hfetch]
    rfl

lemma Call.FetchesAll.files_ne_nil (h : p.FetchesAll eng redisPool t)
    (hall : ReadsAll redisPool (p.env.tables t).first) {names : List String}
    (hnames : ∀ name, name ∈ names ↔ p.servers.Stored redisPool t name) :
    allFiles p.env.contents (p.env.tables t).first eng.formats p.sql
      (names.map (p.env.tables t).first.metadata) ≠ [] := by
  obtain ⟨hfile, hfetch⟩ := h
  rcases hfile with ⟨k, hk, hrows⟩ | ⟨name, hname⟩
  · refine ne_nil_of_mem (a := .buffer (createTempFilePath k)) (mem_append_left _ ?_)
    refine mem_map.mpr ⟨k, mem_filter.mpr ⟨hk, ?_⟩, rfl⟩
    rw [Bool.and_eq_true, decide_eq_true_eq]
    exact ⟨length_pos_iff.mpr hrows, hall.written k hk⟩
  · refine ne_nil_of_mem (a := .object name) (mem_append_right _ ?_)
    exact (mem_fetchFiles (p.honest t).metadata).mpr
      ⟨name, (hnames name).mpr hname.1, hname.2, hfetch name hname, rfl⟩

lemma Call.FetchesNone.files_eq_nil (h : p.FetchesNone eng redisPool t) {names : List String}
    (hnames : ∀ name, name ∈ names ↔ p.servers.Stored redisPool t name) :
    allFiles p.env.contents (p.env.tables t).first eng.formats p.sql
        (names.map (p.env.tables t).first.metadata) = [] ∧
      0 < otherErrorCount (p.env.tables t).first
        (optimizeQuery eng.formats p.sql (names.map (p.env.tables t).first.metadata)) := by
  obtain ⟨hbuffer, hnone, name, hname, hother⟩ := h
  constructor
  · refine eq_nil_iff_forall_not_mem.mpr (fun file hfile => ?_)
    rcases mem_append.mp hfile with hfile | hfile
    · obtain ⟨k, hk, -⟩ := mem_map.mp hfile
      obtain ⟨hk, hrows⟩ := mem_filter.mp hk
      rw [hbuffer k hk] at hrows
      simp at hrows
    · obtain ⟨n, hn, hsel, hfetch, -⟩ := (mem_fetchFiles (p.honest t).metadata).mp hfile
      exact hnone n ⟨(hnames n).mp hn, hsel⟩ hfetch
  · rw [otherErrorCount, countP_pos_iff, optimizeQuery_eq_filter]
    refine ⟨(p.env.tables t).first.metadata name, mem_filter.mpr
      ⟨mem_map.mpr ⟨name, (hnames name).mpr hname.1, rfl⟩, hname.2⟩, ?_⟩
    rw [(p.honest t).metadata, hother]
    rfl

def AllReady (eng : Engine ρ) (redisPool : Bool) (p : Call ρ) (conn : ℕ) (q : Querier ρ)
    (ts : List String) : Prop :=
  ∀ t ∈ ts, p.FetchesAll eng redisPool t ∧
    ∃ names, (∀ name, name ∈ names ↔ p.servers.Stored redisPool t name) ∧
      storageObjects (p.env.tables t).first redisPool = some names ∧
      Ready eng p.env.contents (p.Keys eng) p.sql conn t (p.env.tables t).first names q

lemma prepare_allReady (h : p.Undisturbed eng redisPool) (ht : t ∈ p.tables eng) {done : List String}
    (hdone : AllReady eng redisPool p conn q done) :
    (prepareTableDataWithPruning eng redisPool p.env.contents q conn t p.sql (p.env.tables t)).1 ≠
        .error .noDataFiles ∧
      (prepareTableDataWithPruning eng redisPool p.env.contents q conn t p.sql
        (p.env.tables t)).2.queryCache = q.queryCache ∧
      ((prepareTableDataWithPruning eng redisPool p.env.contents q conn t p.sql (p.env.tables t)).1 =
          .ok () →
        AllReady eng redisPool p conn (prepareTableDataWithPruning eng redisPool p.env.contents q conn t
          p.sql (p.env.tables t)).2 (t :: done)) := by
  obtain ⟨names, hobjects, hnames⟩ := h.names ht
  obtain ⟨hok, hno, hdisk, hviews, hcache⟩ := prepare_spec eng redisPool p.env.contents q conn t p.sql
    (p.env.tables t) h.ownFiles hobjects (fun k hk => ⟨t, ht, hk⟩)
  refine ⟨fun hresult => ?_, hcache, fun hresult => ?_⟩
  · obtain ⟨hnil, hzero⟩ := hno hresult
    rcases h.fetches t ht with hall | hnone
    · exact hall.files_ne_nil (h.reads t ht) hnames hnil
    · exact absurd hzero (hnone.files_eq_nil hnames).2.ne'
  · obtain ⟨hne, hready⟩ := hok hresult
    have hall : p.FetchesAll eng redisPool t := by
      rcases h.fetches t ht with hall | hnone
      · exact hall
      · exact absurd (hnone.files_eq_nil hnames).1 hne
    intro t' ht'
    by_cases htt : t' = t
    · rw [htt]
      exact ⟨hall, names, hnames, hobjects, hready⟩
    · have hmem : t' ∈ done := (mem_cons.mp ht').resolve_left htt
      obtain ⟨hall', names', hnames', hobjects', hview, hfiles⟩ := hdone t' hmem
      exact ⟨hall', names', hnames', hobjects', (hviews t' htt).trans hview, hdisk _ hfiles⟩

lemma prepareTables_spec (q : Querier ρ) (conn : ℕ) (ts done : List String)
    (h : p.Undisturbed eng redisPool) (hts : ∀ t ∈ ts, t ∈ p.tables eng) (hdone : AllReady eng redisPool p conn q done) :
    (prepareTables eng redisPool p.env conn p.sql ts q).2.queryCache = q.queryCache ∧
      (∀ result, (prepareTables eng redisPool p.env conn p.sql ts q).1 = some result →
        ∃ err, result = .error err) ∧
      ((prepareTables eng redisPool p.env conn p.sql ts q).1 = none →
        AllReady eng redisPool p conn (prepareTables eng redisPool p.env conn p.sql ts q).2
          (ts ++ done)) := by
  induction ts generalizing q done with
  | nil => exact ⟨rfl, fun result hresult => (by cases hresult), fun _ => hdone⟩
  | cons t ts ih =>
    obtain ⟨hno, hcache, hok⟩ := prepare_allReady h (hts t (.head _)) hdone
    unfold prepareTables
    cases hprepare : prepareTableDataWithPruning eng redisPool p.env.contents q conn t p.sql
        (p.env.tables t) with
    | mk result q' =>
      rw [hprepare] at hno hcache hok
      cases result with
      | ok =>
        obtain ⟨hcache', herr, hready⟩ := ih q' (t :: done)
          (fun t' ht' => hts t' (.tail t ht')) (hok rfl)
        refine ⟨hcache'.trans hcache, herr, fun hnone t' ht' => hready hnone t' ?_⟩
        rcases mem_append.mp ht' with ht' | ht'
        · rcases mem_cons.mp ht' with rfl | ht'
          · exact mem_append_right _ (.head _)
          · exact mem_append_left _ ht'
        · exact mem_append_right _ (.tail t ht')
      | error err =>
        cases err with
        | noDataFiles => exact absurd rfl hno
        | storageUnavailable | other =>
          exact ⟨hcache, fun result hresult => ⟨_, (Option.some.inj hresult).symm⟩, fun hnone => by cases hnone⟩

def Covers (eng : Engine ρ) (redisPool : Bool) (p : Call ρ) (t : String) (r : Relation ρ) : Prop :=
  ∃ objects : List String, objects.Nodup ∧
    (∀ name, name ∈ objects ↔ p.Selects eng redisPool t name) ∧
    (↑((p.env.tables t).first.bufferKeys.flatMap p.env.contents.buffer ++
      objects.flatMap p.env.contents.object) : Multiset ρ) ≤ r.rows

/-- The answer of DuckDB over all rows of every table that the query names. -/
def Complete (eng : Engine ρ) (redisPool : Bool) (p : Call ρ) (answer : String) : Prop :=
  ∃ relations : String → Option (Relation ρ),
    (∀ t ∈ eng.named p.sql, ∃ r, relations t = some r ∧ Covers eng redisPool p t r) ∧
    eng.query p.sql relations = .ok answer

lemma AllReady.covers (h : p.Undisturbed eng redisPool) {ts : List String}
    (hready : AllReady eng redisPool p conn q ts) (hts : t ∈ ts) (ht : t ∈ p.tables eng) :
    ∃ r, q.relation conn t = some r ∧ Covers eng redisPool p t r := by
  obtain ⟨hall, names, hnames, -, hready⟩ := hready t hts
  have hrelation := hready.relation h.ownFiles (fun k hk => ⟨t, ht, hk⟩) (p.honest t).metadata
    (fun name hname hsel => hall.2 name ⟨(hnames name).mp hname, hsel⟩)
  refine ⟨_, hrelation, (names.filter (fun n => selected eng.formats p.sql
    ((p.env.tables t).first.metadata n))).dedup, nodup_dedup _, fun name => ?_, ?_⟩
  · rw [mem_dedup, mem_filter, hnames]
    rfl
  · rw [flatMap_writtenKeys _ (h.reads t ht), Multiset.coe_le]
    refine List.Sublist.subperm ?_
    exact (List.Sublist.refl _).append ((dedup_sublist _).flatMap _)

lemma cacheAnswer_queryCache (q : Querier ρ) (key answer : String) :
    (q.cacheAnswer key answer).queryCache = Function.update q.queryCache key (some answer) := rfl

lemma runQuery_spec (h : p.Undisturbed eng redisPool)
    (hready : AllReady eng redisPool p conn q (p.tables eng)) :
    (∀ answer, (runQuery eng redisPool p.env conn p.sql q).1 = .ok answer →
      Complete eng redisPool p answer) ∧
    ∀ key answer, (runQuery eng redisPool p.env conn p.sql q).2.queryCache key = some answer →
      q.queryCache key = some answer ∨ (key = eng.cacheKey p.sql ∧ Complete eng redisPool p answer) := by
  have hcomplete : ∀ answer, eng.query p.sql (q.relation conn) = .ok answer →
      Complete eng redisPool p answer := by
    intro answer hanswer
    exact ⟨q.relation conn, fun t ht => hready.covers h (h.extracted t ht) (h.extracted t ht), hanswer⟩
  unfold runQuery
  cases hquery : eng.query p.sql (q.relation conn) with
  | error => exact ⟨fun answer hanswer => (by cases hanswer), fun key answer hkey => .inl hkey⟩
  | ok =>
    refine ⟨fun answer hanswer => ?_, fun key answer hkey => ?_⟩
    · cases hanswer
      exact hcomplete _ hquery
    · simp only at hkey
      split at hkey
      · by_cases hk : key = eng.cacheKey p.sql
        · rw [hk, cacheAnswer_queryCache, update_self] at hkey
          cases hkey
          exact .inr ⟨hk, hcomplete _ hquery⟩
        · rw [cacheAnswer_queryCache, update_of_ne hk] at hkey
          exact .inl hkey
      · exact .inl hkey

lemma executeQuery_spec (q : Querier ρ) (h : p.Undisturbed eng redisPool) :
    (∀ answer, (executeQuery eng redisPool p.env p.sql q).1 = .ok answer →
      Complete eng redisPool p answer ∨
        (p.env.cacheRead ∧ q.queryCache (eng.cacheKey p.sql) = some answer)) ∧
    ∀ key answer, (executeQuery eng redisPool p.env p.sql q).2.queryCache key = some answer →
      q.queryCache key = some answer ∨ (key = eng.cacheKey p.sql ∧ Complete eng redisPool p answer) := by
  have hfail : ∀ err : String,
      (∀ answer, (Except.error err : Except String String) = .ok answer →
        Complete eng redisPool p answer ∨
          (p.env.cacheRead = true ∧ q.queryCache (eng.cacheKey p.sql) = some answer)) ∧
      ∀ key answer, q.queryCache key = some answer →
        q.queryCache key = some answer ∨ (key = eng.cacheKey p.sql ∧ Complete eng redisPool p answer) :=
    fun err => ⟨fun answer hanswer => (by cases hanswer), fun key answer hkey => .inl hkey⟩
  unfold executeQuery
  cases eng.validateSelectQuery p.sql with
  | some => exact hfail _
  | none =>
    simp only
    split
    · exact hfail _
    split
    · exact hfail _
    cases hcached : (if redisPool && p.env.cacheRead then q.queryCache (eng.cacheKey p.sql) else none) with
    | some answer =>
      refine ⟨fun answer' hanswer => ?_, fun key answer hkey => .inl hkey⟩
      cases hanswer
      split at hcached
      · rename_i hread
        exact .inr ⟨(Bool.and_eq_true_iff.mp hread).2, hcached⟩
      · cases hcached
    | none =>
      cases p.env.connection with
      | error => exact hfail _
      | ok conn =>
        obtain ⟨hcache, herr, hready⟩ := prepareTables_spec q conn (p.tables eng) [] h
          (fun t ht => ht) (fun t ht => absurd ht not_mem_nil)
        simp only
        cases hprepare : prepareTables eng redisPool p.env conn p.sql (p.tables eng) q with
        | mk result =>
          rw [hprepare] at hcache herr hready
          have htables : p.tables eng = eng.validateTableNames (eng.extractTableNames p.sql) := rfl
          rw [← htables, hprepare]
          cases result with
          | some result =>
            obtain ⟨err, rfl⟩ := herr result rfl
            have := hfail err
            rw [← hcache] at this ⊢
            exact this
          | none =>
            have hready := hready rfl
            rw [append_nil] at hready
            obtain ⟨hanswer, hstored⟩ := runQuery_spec h hready
            refine ⟨fun answer hok => .inl (hanswer answer hok), fun key answer hkey => ?_⟩
            rw [← hcache]
            exact hstored key answer hkey

def Querier.new : Querier ρ := ⟨fun _ _ => none, fun _ _ => none, fun _ => none, fun _ => none⟩

def session (eng : Engine ρ) (redisPool : Bool) (q : Querier ρ) (calls : List (Call ρ)) : Querier ρ :=
  calls.foldl (fun q p => (executeQuery eng redisPool p.env p.sql q).2) q

lemma session_queryCache {calls : List (Call ρ)} (hcalls : ∀ p ∈ calls, p.Undisturbed eng redisPool)
    {key answer : String} (h : (session eng redisPool q calls).queryCache key = some answer) :
    q.queryCache key = some answer ∨
      ∃ p ∈ calls, key = eng.cacheKey p.sql ∧ Complete eng redisPool p answer := by
  induction calls generalizing q with
  | nil => exact .inl h
  | cons p calls ih =>
    rcases ih (fun p' hp' => hcalls p' (.tail p hp')) h with hstored | ⟨p', hp', hkey⟩
    · rcases (executeQuery_spec q (hcalls p (.head _))).2 key answer hstored with hold | hnew
      · exact .inl hold
      · exact .inr ⟨p, mem_cons_self, hnew⟩
    · exact .inr ⟨p', .tail p hp', hkey⟩

end

def countRows (tables : List String) (v : String → Option (Relation ℕ)) : ℕ :=
  (tables.map (fun t => ((v t).map (fun r => Multiset.card r.rows)).getD 0)).sum

def strokes (n : ℕ) : String := "rows: " ++ String.ofList (List.replicate n '1')

lemma strokes_injective {m n : ℕ} (h : strokes m = strokes n) : m = n := by
  have hlength := congrArg (fun s => s.toList.length) h
  simpa [strokes] using hlength

def countEngine (tables counted : List String) (hcounted : ∀ t ∈ counted, t ∈ tables) : Engine ℕ where
  validateSelectQuery := fun _ => none
  extractTableNames := fun _ => tables
  validateTableNames := id
  generateCacheKey := fun sql _ => sql
  extractRequiredColumns := fun _ => none
  formats := plainFormats
  named := fun _ => tables
  query := fun _ v => .ok (strokes (countRows counted v))
  query_congr := by
    intro sql v v' h
    have hmap : counted.map (fun t => ((v t).map (fun r => Multiset.card r.rows)).getD 0) =
        counted.map (fun t => ((v' t).map (fun r => Multiset.card r.rows)).getD 0) :=
      List.map_congr_left (fun t ht => by rw [h t (hcounted t ht)])
    rw [countRows, countRows, hmap]

def unreadableTable : ReadEnv where
  bufferKeys := []
  written := fun _ => false
  scanPages := [none]
  smembers := fun _ => none
  listing := [none]
  metadata := fun name => ⟨name, fun _ => none, fun _ => none⟩
  fetch := fun _ => some .other

lemma honest_unreadableTable (s : Servers) (t : String) : Honest s t unreadableTable where
  scan := fun keys h => by cases h
  members := fun k ms h => by cases h
  listing := fun h => by cases h none (.head _)
  metadata := fun _ => rfl

def ordersTable (objects : List String) (fetch : String → Option FetchError) : ReadEnv where
  bufferKeys := []
  written := fun _ => true
  scanPages := [some (if objects = [] then [] else [ordersKey])]
  smembers := fun k => if k = ordersKey then some objects else none
  listing := []
  metadata := fun name => ⟨name, fun _ => none, fun _ => none⟩
  fetch := fetch

def ordersServers (objects : List String) : Servers := ⟨objects.map (fun o => (ordersKey, o)), []⟩

variable {objects : List String}

lemma mem_ordersServers {k m : String} :
    (k, m) ∈ (ordersServers objects).index ↔ k = ordersKey ∧ m ∈ objects := by
  rw [ordersServers, mem_map]
  constructor
  · rintro ⟨o, ho, heq⟩
    cases heq
    exact ⟨rfl, ho⟩
  · rintro ⟨rfl, hm⟩
    exact ⟨m, hm, rfl⟩

lemma isMatch_ordersKey : Glob.isMatch (tablePattern "orders") ordersKey := by
  decide +kernel

lemma honest_ordersTable (hnodup : objects.Nodup) (fetch : String → Option FetchError) :
    Honest (ordersServers objects) "orders" (ordersTable objects fetch) where
  scan := by
    intro keys hkeys k
    cases hkeys
    change k ∈ (if objects = [] then [] else [ordersKey]) ++ [] ↔ _
    rw [append_nil]
    constructor
    · intro hk
      split at hk
      · cases hk
      · rename_i hne
        obtain ⟨o, ho⟩ := exists_mem_of_ne_nil objects hne
        rw [mem_singleton.mp hk]
        exact ⟨⟨o, mem_ordersServers.mpr ⟨rfl, ho⟩⟩, isMatch_ordersKey⟩
    · rintro ⟨⟨m, hm⟩, -⟩
      obtain ⟨rfl, hobject⟩ := mem_ordersServers.mp hm
      rw [if_neg (ne_nil_of_mem hobject)]
      exact mem_singleton.mpr rfl
  members := by
    intro k ms hms
    simp only [ordersTable] at hms
    split at hms <;> cases hms
    · rename_i hk
      refine ⟨hnodup, fun m => ?_⟩
      rw [mem_ordersServers]
      exact ⟨fun hm => ⟨hk, hm⟩, fun hm => hm.2⟩
  listing := fun _ => ⟨nodup_nil, fun name =>
    ⟨nofun, fun h => absurd h.1 not_mem_nil⟩⟩
  metadata := fun _ => rfl

def ordersTables (objects : List String) (fetch : String → Option FetchError) (t : String) : TableEnv :=
  if t = "orders" then ⟨ordersTable objects fetch, unreadableTable, true, none, none⟩
  else ⟨unreadableTable, unreadableTable, true, none, none⟩

def ordersCall (objects : List String) (hnodup : objects.Nodup) (fetch : String → Option FetchError) :
    Call ℕ where
  sql := "SELECT COUNT(*) FROM orders"
  servers := ordersServers objects
  env := ⟨⟨fun _ => [], fun _ => [1]⟩, .ok 0, true, true, ordersTables objects fetch⟩
  honest := by
    intro t
    change Honest (ordersServers objects) t (ordersTables objects fetch t).first
    rw [ordersTables]
    split
    · rename_i ht
      rw [ht]
      exact honest_ordersTable hnodup fetch
    · exact honest_unreadableTable _ t

def ordersEngine : Engine ℕ := countEngine ["orders"] ["orders"] (fun _ => id)

lemma selects_ordersCall {hnodup : objects.Nodup}
    {fetch : String → Option FetchError} {name : String} :
    (ordersCall objects hnodup fetch).Selects ordersEngine true "orders" name ↔ name ∈ objects := by
  constructor
  · rintro ⟨⟨k, hk, -⟩, -⟩
    exact (mem_ordersServers.mp hk).2
  · intro hname
    have hwhere : whereClause "SELECT COUNT(*) FROM orders" = none := by decide +kernel
    exact ⟨⟨ordersKey, mem_ordersServers.mpr ⟨rfl, hname⟩, isMatch_ordersKey⟩,
      selected_of_no_where hwhere _⟩

lemma undisturbed_ordersCall (hnodup : objects.Nodup) (hne : objects ≠ []) :
    (ordersCall objects hnodup (fun _ => none)).Undisturbed ordersEngine true where
  extracted := fun t ht => ht
  ownFiles := by
    rintro k k' ⟨t, ht, hk⟩ _ _
    rw [mem_singleton.mp ht] at hk
    cases hk
  reads := by
    intro t ht
    rw [mem_singleton.mp ht]
    refine ⟨nofun, fun _ => ⟨_, rfl, fun k hk => ?_⟩, fun h => by cases h⟩
    change k ∈ (if objects = [] then [] else [ordersKey]) ++ [] at hk
    rw [append_nil, if_neg hne] at hk
    rw [mem_singleton.mp hk]
    rfl
  fetches := by
    intro t ht
    rw [mem_singleton.mp ht]
    obtain ⟨o, ho⟩ := exists_mem_of_ne_nil objects hne
    exact .inl ⟨.inr ⟨o, selects_ordersCall.mpr ho⟩, fun name _ => rfl⟩

end MinIODB.Query
