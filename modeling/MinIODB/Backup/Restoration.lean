import MinIODB.Backup.Executor

/-!
# Completed restorations

A loop of copies is described once, for both directions: what it writes under a name is the
content that the source of that name has on the same server. A completed full backup has copied
every object of every table, and a restoration whose copies all succeed copies each of them back.
-/
namespace MinIODB.Backup
open List Option String Server Bucket

variable {δ : Type*}

def Copied (now : Int) (srcBucket dstBucket : String) (source : String → String)
    (s : Server (Content δ)) (dst : String) : Prop :=
  ∃ o o', s.get srcBucket (source dst) = some o ∧ s.get dstBucket dst = some o' ∧
    o'.content = o.content ∧ o'.lastModified = now

section

variable {now : Int} {copyOk : String → Bool} {srcBucket dstBucket : String}
  {source : String → String} {c : Copying δ} {job : String × String}

lemma copyStep_cases (now : Int) (copyOk : String → Bool) (srcBucket dstBucket : String)
    (c : Copying δ) (job : String × String) :
    ((copyStep now copyOk srcBucket dstBucket c job).server = c.server ∧
      (copyStep now copyOk srcBucket dstBucket c job).failed = c.failed + 1 ∧
      (copyOk job.1 → c.server.get srcBucket job.1 = none ∨
        c.server.lookup dstBucket = none)) ∨ ∃ o, c.server.get srcBucket job.1 = some o ∧
      c.server.put dstBucket job.2 { o with lastModified := now } =
        some (copyStep now copyOk srcBucket dstBucket c job).server ∧
      (copyStep now copyOk srcBucket dstBucket c job).failed = c.failed := by
  unfold copyStep
  split
  case h_1 server hserver =>
    split at hserver
    case isFalse => cases hserver
    case isTrue =>
      obtain ⟨o, ho, hput⟩ := bind_eq_some_iff.mp hserver
      exact .inr ⟨o, ho, hput, rfl⟩
  case h_2 hnone =>
    refine .inl ⟨rfl, rfl, fun hok => ?_⟩
    rw [if_pos hok, copyObject] at hnone
    cases hsrc : c.server.get srcBucket job.1 with
    | none => exact .inl rfl
    | some =>
      rw [hsrc, bind_some, put, map_eq_none_iff] at hnone
      exact .inr hnone

lemma copyStep_get (hne : srcBucket ≠ dstBucket) (name : String) :
    (copyStep now copyOk srcBucket dstBucket c job).server.get srcBucket name =
      c.server.get srcBucket name := by
  rcases copyStep_cases now copyOk srcBucket dstBucket c job with ⟨h, -⟩ | ⟨o, -, hput, -⟩
  · rw [h]
  · rw [get_put hput, if_neg (fun h => hne h.1)]

lemma copyStep_lookup_isSome (bucket : String) :
    ((copyStep now copyOk srcBucket dstBucket c job).server.lookup bucket).isSome =
      (c.server.lookup bucket).isSome := by
  rcases copyStep_cases now copyOk srcBucket dstBucket c job with ⟨h, -⟩ | ⟨o, -, hput, -⟩
  · rw [h]
  · exact lookup_isSome_put hput bucket

lemma copyStep_failed_le : c.failed ≤ (copyStep now copyOk srcBucket dstBucket c job).failed := by
  rcases copyStep_cases now copyOk srcBucket dstBucket c job with ⟨-, h, -⟩ | ⟨o, -, -, h⟩ <;> omega

lemma copied_copyStep (hne : srcBucket ≠ dstBucket) (hjob : job.1 = source job.2)
    (hok : (copyStep now copyOk srcBucket dstBucket c job).failed = c.failed) :
    Copied now srcBucket dstBucket source
      (copyStep now copyOk srcBucket dstBucket c job).server job.2 := by
  rcases copyStep_cases now copyOk srcBucket dstBucket c job with ⟨-, hfail, -⟩ | ⟨o, ho, hput, -⟩
  · omega
  · refine ⟨o, { o with lastModified := now }, ?_, ?_, rfl, rfl⟩
    · rw [copyStep_get hne, ← hjob, ho]
    · rw [get_put hput, if_pos ⟨rfl, rfl⟩]

variable {dst : String} {jobs : List (String × String)}

lemma Copied.copyStep (h : Copied now srcBucket dstBucket source c.server dst)
    (hne : srcBucket ≠ dstBucket) (hjob : job.1 = source job.2) :
    Copied now srcBucket dstBucket source
      (Backup.copyStep now copyOk srcBucket dstBucket c job).server dst := by
  rcases copyStep_cases now copyOk srcBucket dstBucket c job with ⟨hsame, -⟩ | ⟨o, ho, hput, hok⟩
  · rwa [hsame]
  · by_cases hdst : dst = job.2
    · subst hdst
      exact copied_copyStep hne hjob hok
    · obtain ⟨a, a', ha, ha', hcontent, htime⟩ := h
      refine ⟨a, a', ?_, ?_, hcontent, htime⟩
      · rw [copyStep_get hne, ha]
      · rw [get_put hput, if_neg (fun h => hdst h.2), ha']

lemma copyAll_get (hne : srcBucket ≠ dstBucket) (jobs : List (String × String)) (name : String) :
    (copyAll now copyOk srcBucket dstBucket c jobs).server.get srcBucket name =
      c.server.get srcBucket name := by
  induction jobs generalizing c with
  | nil => rfl
  | cons job jobs ih =>
    rw [copyAll, foldl_cons, ← copyAll, ih, copyStep_get hne]

lemma copyAll_lookup_isSome (jobs : List (String × String)) (bucket : String) :
    ((copyAll now copyOk srcBucket dstBucket c jobs).server.lookup bucket).isSome =
      (c.server.lookup bucket).isSome := by
  induction jobs generalizing c with
  | nil => rfl
  | cons job jobs ih =>
    rw [copyAll, foldl_cons, ← copyAll, ih, copyStep_lookup_isSome]

lemma copyAll_failed_le (jobs : List (String × String)) :
    c.failed ≤ (copyAll now copyOk srcBucket dstBucket c jobs).failed := by
  induction jobs generalizing c with
  | nil => exact le_rfl
  | cons job jobs ih =>
    rw [copyAll, foldl_cons, ← copyAll]
    exact copyStep_failed_le.trans ih

lemma Copied.copyAll
    (h : Copied now srcBucket dstBucket source c.server dst) (hne : srcBucket ≠ dstBucket)
    (hjobs : ∀ job ∈ jobs, job.1 = source job.2) : Copied now srcBucket dstBucket source
      (Backup.copyAll now copyOk srcBucket dstBucket c jobs).server dst := by
  induction jobs generalizing c with
  | nil => exact h
  | cons job jobs ih =>
    rw [Backup.copyAll, foldl_cons, ← Backup.copyAll]
    exact ih (h.copyStep hne (hjobs job (.head _)))
      (fun j hj => hjobs j (.tail _ hj))

lemma copied_copyAll (hne : srcBucket ≠ dstBucket) (hjobs : ∀ job ∈ jobs, job.1 = source job.2)
    (hok : (copyAll now copyOk srcBucket dstBucket c jobs).failed = c.failed) :
    ∀ job ∈ jobs, Copied now srcBucket dstBucket source
      (copyAll now copyOk srcBucket dstBucket c jobs).server job.2 := by
  induction jobs generalizing c with
  | nil => exact nofun
  | cons first jobs ih =>
    rw [copyAll, foldl_cons, ← copyAll] at hok ⊢
    have hrest := fun j hj => hjobs j (mem_cons_of_mem first hj)
    have hle : (copyStep now copyOk srcBucket dstBucket c first).failed ≤
        (copyAll now copyOk srcBucket dstBucket
          (copyStep now copyOk srcBucket dstBucket c first) jobs).failed := copyAll_failed_le jobs
    have hfirst : (copyStep now copyOk srcBucket dstBucket c first).failed = c.failed :=
      le_antisymm (hok ▸ hle) copyStep_failed_le
    intro job hjob
    rcases mem_cons.mp hjob with rfl | hjob
    · exact (copied_copyStep hne (hjobs job (.head _)) hfirst).copyAll hne hrest
    · exact ih hrest (hok.trans hfirst.symm) job hjob

lemma copyAll_failed (hne : srcBucket ≠ dstBucket)
    (hok : ∀ name, copyOk name) (hdst : (c.server.lookup dstBucket).isSome)
    (hsrc : ∀ job ∈ jobs, c.server.get srcBucket job.1 ≠ none) :
    (copyAll now copyOk srcBucket dstBucket c jobs).failed = c.failed := by
  induction jobs generalizing c with
  | nil => rfl
  | cons job jobs ih =>
    rw [copyAll, foldl_cons, ← copyAll]
    have hfirst : (copyStep now copyOk srcBucket dstBucket c job).failed = c.failed := by
      rcases copyStep_cases now copyOk srcBucket dstBucket c job with ⟨-, -, hwhy⟩ | ⟨o, -, -, h⟩
      · rcases hwhy (hok job.1) with h | h
        · exact absurd h (hsrc job (.head _))
        · rw [h] at hdst
          cases hdst
      · exact h
    rw [ih, hfirst]
    · rw [copyStep_lookup_isSome, hdst]
    · intro j hj
      rw [copyStep_get hne]
      exact hsrc j (.tail _ hj)

end

section

variable {cfg : ExecutorConfig} {env : BackupEnv} {w w' : Stores δ} {id table name : String}

def tableObjects (cfg : ExecutorConfig) (w : Stores δ) (table name : String) : Prop :=
  startsWith (table ++ "/") name = true ∧ w.primary.get cfg.primaryBucket name ≠ none

def BackedUp (cfg : ExecutorConfig) (env : BackupEnv) (id : String) (w : Stores δ)
    (name : String) : Prop :=
  Copied env.now cfg.primaryBucket cfg.backupBucket (cutStart (dataStart id)) w.backup
    (dataStart id ++ name)

structure TableBackedUp (cfg : ExecutorConfig) (env : BackupEnv) (id table : String)
    (w w' : Stores δ) (m : TableManifest) : Prop where
  tableName : m.tableName = table
  completed : m.failedCount = 0 → m.status = .completed
  backedUp : m.failedCount = 0 → ∀ name, tableObjects cfg w table name → BackedUp cfg env id w' name

structure KeepsBackups (cfg : ExecutorConfig) (env : BackupEnv) (id : String) (w w' : Stores δ) :
    Prop where
  primary : w'.primary = w.primary
  source : ∀ name, w'.backup.get cfg.primaryBucket name = w.backup.get cfg.primaryBucket name
  backedUp : ∀ name, BackedUp cfg env id w name → BackedUp cfg env id w' name

lemma backupTable_spec (hne : cfg.primaryBucket ≠ cfg.backupBucket) (env : BackupEnv)
    (w : Stores δ) (table id : String) :
    KeepsBackups cfg env id w (backupTable cfg env w table id).1 ∧
      ∀ m, (backupTable cfg env w table id).2 = .ok m →
        TableBackedUp cfg env id table w (backupTable cfg env w table id).1 m := by
  unfold backupTable
  split
  case h_1 => exact ⟨⟨rfl, fun _ => rfl, fun _ h => h⟩, fun m hm => by cases hm⟩
  case h_2 b hb =>
    have hlookup : w.primary.lookup cfg.primaryBucket = some b := by
      split at hb
      case isTrue => exact hb
      case isFalse => cases hb
    have hjobs : ∀ job ∈ backupJobs b table id, job.1 = cutStart (dataStart id) job.2 := by
      intro job hjob
      obtain ⟨info, -, rfl⟩ := List.mem_map.mp hjob
      simp
    refine ⟨⟨rfl, fun name => copyAll_get hne _ name, fun name h => ?_⟩, ?_⟩
    · exact Copied.copyAll (c := { server := w.backup }) h hne hjobs
    intro m hm
    cases hm
    refine ⟨rfl, fun hzero => ?_, fun hzero name hname => ?_⟩
    · simp only at hzero ⊢
      rw [hzero]
      rfl
    · obtain ⟨o, ho⟩ := ne_none_iff_exists'.mp hname.2
      rw [Server.get, hlookup, bind_some] at ho
      refine copied_copyAll hne hjobs hzero (name, dataStart id ++ name) (List.mem_map.mpr ?_)
      exact ⟨⟨name, some o.lastModified⟩, mem_listRecursive.mpr ⟨hname.1, o, ho, rfl⟩, rfl⟩

structure AllBackedUp (cfg : ExecutorConfig) (env : BackupEnv) (id : String) (w : Stores δ)
    (tables : List String) (p : FullProgress δ) : Prop where
  keeps : KeepsBackups cfg env id w p.stores
  listed : ∀ table ∈ tables, ∃ m ∈ p.tables, m.tableName = table ∧ m.status = .completed
  backedUp : ∀ table ∈ tables, ∀ name, tableObjects cfg w table name →
    BackedUp cfg env id p.stores name

lemma KeepsBackups.trans {w'' : Stores δ} (h : KeepsBackups cfg env id w w')
    (h' : KeepsBackups cfg env id w' w'') : KeepsBackups cfg env id w w'' where
  primary := h'.primary.trans h.primary
  source name := (h'.source name).trans (h.source name)
  backedUp name hname := h'.backedUp name (h.backedUp name hname)

lemma fullTables_spec (hne : cfg.primaryBucket ≠ cfg.backupBucket) (w : Stores δ)
    (tables : List String) : KeepsBackups cfg env id w (fullTables cfg env w id tables).stores ∧
      ((fullTables cfg env w id tables).errors = [] → (fullTables cfg env w id tables).failed = 0 →
        AllBackedUp cfg env id w tables (fullTables cfg env w id tables)) := by
  induction tables using reverseRecOn with
  | nil =>
    have hrefl : KeepsBackups cfg env id w w := ⟨rfl, fun _ => rfl, fun _ h => h⟩
    exact ⟨hrefl, fun _ _ => ⟨hrefl, nofun, nofun⟩⟩
  | append_singleton tables table ih =>
    have hlast : fullTables cfg env w id (tables ++ [table]) =
        fullStep cfg env id (fullTables cfg env w id tables) table := by
      rw [fullTables, foldl_append, ← fullTables]
      rfl
    obtain ⟨hkeeps, hspec⟩ := backupTable_spec hne env
      (fullTables cfg env w id tables).stores table id
    rw [hlast, fullStep]
    split
    case h_2 w' err heq =>
      rw [heq] at hkeeps
      exact ⟨ih.1.trans hkeeps, fun herr => absurd herr (by simp)⟩
    case h_1 w' m heq =>
      rw [heq] at hkeeps hspec
      obtain ⟨htable, hcompleted, hcopied⟩ := hspec m rfl
      refine ⟨ih.1.trans hkeeps, fun herr hfailed => ?_⟩
      simp only at herr hfailed
      obtain ⟨hzero, hm⟩ : (fullTables cfg env w id tables).failed = 0 ∧ m.failedCount = 0 := by
        omega
      have hdone := ih.2 herr hzero
      refine ⟨ih.1.trans hkeeps, fun t ht => ?_, fun t ht name hname => ?_⟩
      · rcases mem_append.mp ht with ht | ht
        · obtain ⟨m', hm', hrest⟩ := hdone.listed t ht
          exact ⟨m', mem_append_left _ hm', hrest⟩
        · rw [mem_singleton.mp ht]
          exact ⟨m, by simp, htable, hcompleted hm⟩
      · rcases mem_append.mp ht with ht | ht
        · exact hkeeps.backedUp name (hdone.backedUp t ht name hname)
        · rw [mem_singleton.mp ht] at hname
          refine hcopied hm name ⟨hname.1, ?_⟩
          rw [hdone.keeps.primary]
          exact hname.2

lemma mem_listTables {b : Bucket (Content δ)} {o : Object (Content δ)}
    (hname : b.lookup name = some o) (hslash : '/' ∈ name.toList) :
    firstElement name ∈ listTables b := by
  have hcut : cutStart "" name = name := by simp [cutStart]
  have hentry : shallowEntry "" ⟨name, some o.lastModified⟩ =
      ⟨firstElement name ++ "/", none⟩ := by
    simp [shallowEntry, hcut, hslash]
  have hlisted : (⟨firstElement name ++ "/", none⟩ : ObjectInfo) ∈ b.listShallow "" := by
    rw [listShallow, mem_dedup, List.mem_map]
    refine ⟨⟨name, some o.lastModified⟩, mem_listRecursive.mpr ⟨?_, o, hname, rfl⟩, hentry⟩
    exact startsWith_iff.mpr ⟨name, by simp⟩
  rw [listTables, mem_dedup, mem_filterMap]
  refine ⟨_, hlisted, ?_⟩
  have hfirst := firstElement_append "" (not_mem_firstElement name)
  rw [append_empty] at hfirst
  simp [hfirst]

lemma startsWith_firstElement (hslash : '/' ∈ name.toList) :
    startsWith (firstElement name ++ "/") name = true := by
  rw [startsWith, isPrefixOf_iff_prefix]
  obtain ⟨before, rest, hsplit, hbefore⟩ := eq_append_cons_of_mem hslash
  have hfirst : firstElement name = ofList before := by
    have hname : name = ofList before ++ "/" ++ ofList rest :=
      toList_inj.mp (by simp [hsplit])
    rw [hname]
    exact firstElement_append _ (by simpa using hbefore)
  exact ⟨rest, by simp [hfirst, hsplit]⟩

lemma get_cleanUp_full {o : Object (Content δ)}
    (ho : w.backup.get cfg.backupBucket name = some o) (hnow : o.lastModified = env.now) :
    (Stores.cleanUp cfg w (fun b =>
      cleanupExpiredBackups env.cleanup b env.now cfg.retentionDays)).backup.get
        cfg.backupBucket name = some o := by
  obtain ⟨b, hb, hlookup⟩ := bind_eq_some_iff.mp ho
  rw [Stores.cleanUp, hb]
  simp only [Server.get, AList.lookup_insert, bind_some]
  have hcases : (cleanupExpiredBackups env.cleanup b env.now cfg.retentionDays).lookup name =
      b.lookup name ∨ (startsWith "backups/" name = true ∧
        o.lastModified < cutoff env.now cfg.retentionDays) := lookup_cleanupExpiredBackups hlookup
  rcases hcases with h | ⟨-, hold⟩
  · rw [h, hlookup]
  · by_cases hdays : cfg.retentionDays ≤ 0
    · rw [cleanupExpiredBackups, if_pos (.inl hdays), hlookup]
    · rw [hnow, cutoff] at hold
      omega

lemma manifestKey_ne_dataStart (id name : String) : dataStart id ++ name ≠ manifestKey id := by
  intro h
  have hrest : "data/" ++ name = "manifest.json" := by
    have hcut := congrArg (cutStart (backupStart id)) h
    rwa [dataStart, manifestKey, String.append_assoc, cutStart_append, cutStart_append] at hcut
  have hfirst := congrArg (fun s => s.toList.head?) hrest
  simp at hfirst

lemma finishFull_completed {p : FullProgress δ} {r : BackupResult}
    (hfinish : finishFull cfg env id p = (w', .ok r)) (hdone : r.status = .completed) :
    r.backupID = id ∧ p.errors = [] ∧ p.failed = 0 ∧
      (w'.backup.get cfg.backupBucket (manifestKey id)).map (·.content) =
        some (.fullManifest (p.manifest cfg env id)) ∧ ∀ name, BackedUp cfg env id p.stores name →
        ∃ o, w'.backup.get cfg.backupBucket (dataStart id ++ name) = some o ∧
          (p.stores.backup.get cfg.primaryBucket name).map (·.content) = some o.content := by
  unfold finishFull at hfinish
  split at hfinish
  case h_1 => cases hfinish
  case h_2 server hserver =>
    obtain ⟨rfl, rfl⟩ : _ ∧ _ := by simpa using hfinish
    have hput := (ite_none_right_eq_some.mp hserver).2
    obtain ⟨herr, hfailed⟩ : p.errors = [] ∧ p.failed = 0 := by
      simp only [FullProgress.status] at hdone
      split at hdone
      case isTrue => cases hdone
      case isFalse hnot => simpa [not_or] using hnot
    refine ⟨rfl, herr, hfailed, ?_, fun name hname => ?_⟩
    · have hmanifest := get_put hput cfg.backupBucket (manifestKey id)
      rw [if_pos ⟨rfl, rfl⟩] at hmanifest
      rw [get_cleanUp_full hmanifest rfl]
      rfl
    · obtain ⟨o, o', ho, ho', hcontent, htime⟩ := hname
      have hkept := get_put hput cfg.backupBucket (dataStart id ++ name)
      rw [if_neg (fun h => manifestKey_ne_dataStart id name h.2), ho'] at hkept
      refine ⟨o', get_cleanUp_full hkept htime, ?_⟩
      rw [cutStart_append] at ho
      rw [ho, hcontent]
      rfl

lemma fullBackup_completed {backupID : String} {r : BackupResult}
    (hne : cfg.primaryBucket ≠ cfg.backupBucket)
    (hbackup : fullBackup cfg env w backupID = (w', .ok r)) (hdone : r.status = .completed) :
    ∃ m, (w'.backup.get cfg.backupBucket (manifestKey r.backupID)).map (·.content) =
        some (.fullManifest m) ∧
      ∀ name o, '/' ∈ name.toList → w.primary.get cfg.primaryBucket name = some o →
        (∃ t ∈ m.tables, t.status = .completed ∧ startsWith (t.tableName ++ "/") name) ∧
        ∃ o', w'.backup.get cfg.backupBucket (dataStart r.backupID ++ name) = some o' ∧
          (w.backup.get cfg.primaryBucket name).map (·.content) = some o'.content := by
  unfold fullBackup at hbackup
  split at hbackup
  case isFalse => cases hbackup
  case isTrue =>
    simp only at hbackup
    split at hbackup
    case h_1 => cases hbackup
    case h_2 b hb =>
      have hlookup := (ite_none_right_eq_some.mp hb).2
      obtain ⟨hid, herr, hfailed, hmanifest, hwritten⟩ := finishFull_completed hbackup hdone
      rw [hid]
      have hall := (fullTables_spec hne _ _).2 herr hfailed
      refine ⟨_, hmanifest, fun name o hslash ho => ?_⟩
      have hlookupName : b.lookup name = some o := by
        rwa [Server.get, hlookup, bind_some] at ho
      have htable := mem_listTables hlookupName hslash
      have hstart := startsWith_firstElement hslash
      constructor
      · obtain ⟨t, ht, htname, hstatus⟩ := hall.listed _ htable
        exact ⟨t, ht, hstatus, by rwa [htname]⟩
      · have hobject : tableObjects cfg { w with backup := w.backup.ensureBucket cfg.backupBucket }
            (firstElement name) name := ⟨hstart, by rw [ho]; simp⟩
        obtain ⟨o', ho', hcontent⟩ := hwritten name (hall.backedUp _ htable name hobject)
        refine ⟨o', ho', ?_⟩
        rw [← hcontent, hall.keeps.source, get_ensureBucket]

end

section

variable {cfg : ExecutorConfig} {env : RestoreEnv} {w w' : Stores δ} {id name : String}

def Restored (cfg : ExecutorConfig) (env : RestoreEnv) (id : String) (w : Stores δ)
    (name : String) : Prop :=
  Copied env.now cfg.backupBucket cfg.primaryBucket (fun name => dataStart id ++ name) w.primary
    name

structure Restorable (cfg : ExecutorConfig) (env : RestoreEnv) (id : String) (w : Stores δ) :
    Prop where
  copyOk : ∀ name, env.copyOk name = true
  bucket : (w.primary.lookup cfg.primaryBucket).isSome = true
  source : ∀ name, startsWith (dataStart id) name = true →
    w.backup.get cfg.backupBucket name ≠ none → w.primary.get cfg.backupBucket name ≠ none

structure KeepsRestored (cfg : ExecutorConfig) (env : RestoreEnv) (id : String)
    (w w' : Stores δ) : Prop where
  backup : w'.backup = w.backup
  source : ∀ name, w'.primary.get cfg.backupBucket name = w.primary.get cfg.backupBucket name
  bucket : (w'.primary.lookup cfg.primaryBucket).isSome =
    (w.primary.lookup cfg.primaryBucket).isSome
  restored : ∀ name, Restored cfg env id w name → Restored cfg env id w' name

lemma KeepsRestored.refl (w : Stores δ) : KeepsRestored cfg env id w w :=
  ⟨rfl, fun _ => rfl, rfl, fun _ h => h⟩

lemma KeepsRestored.trans {w'' : Stores δ} (h : KeepsRestored cfg env id w w')
    (h' : KeepsRestored cfg env id w' w'') : KeepsRestored cfg env id w w'' where
  backup := h'.backup.trans h.backup
  source name := (h'.source name).trans (h.source name)
  bucket := h'.bucket.trans h.bucket
  restored name hname := h'.restored name (h.restored name hname)

lemma Restorable.keeps (h : Restorable cfg env id w) (hk : KeepsRestored cfg env id w w') :
    Restorable cfg env id w' where
  copyOk := h.copyOk
  bucket := hk.bucket.trans h.bucket
  source name hname hbackup := by
    rw [hk.source]
    rw [hk.backup] at hbackup
    exact h.source name hname hbackup

lemma startsWith_trans {a rest : String} (h : startsWith (a ++ rest) name) :
    startsWith a name = true := by
  obtain ⟨more, rfl⟩ := startsWith_iff.mp h
  rw [String.append_assoc, startsWith_append]

section
variable (hne : cfg.primaryBucket ≠ cfg.backupBucket)
include hne

lemma restoreTable_spec (table : String)
    (h : Restorable cfg env id w) : KeepsRestored cfg env id w (restoreTable cfg env w table id).1 ∧
      ∀ count, (restoreTable cfg env w table id).2 = .ok count →
        ∀ name, startsWith (table ++ "/") name →
          w.backup.get cfg.backupBucket (dataStart id ++ name) ≠ none →
          Restored cfg env id (restoreTable cfg env w table id).1 name := by
  unfold restoreTable
  split
  case h_1 => exact ⟨.refl w, fun count hcount => by cases hcount⟩
  case h_2 b hb =>
    have hlookup := (ite_none_right_eq_some.mp hb).2
    have hlisted : ∀ info ∈ b.listRecursive (dataStart id ++ table ++ "/"),
        startsWith (dataStart id) info.name = true ∧
          w.backup.get cfg.backupBucket info.name ≠ none := by
      intro info hinfo
      obtain ⟨hstart, o, ho, -⟩ := mem_listRecursive.mp hinfo
      rw [String.append_assoc] at hstart
      refine ⟨startsWith_trans hstart, ?_⟩
      rw [Server.get, hlookup, bind_some, ho]
      simp
    have hjobs : ∀ job ∈ restoreJobs b table id, job.1 = dataStart id ++ job.2 := by
      intro job hjob
      obtain ⟨info, hinfo, rfl⟩ := List.mem_map.mp hjob
      obtain ⟨rest, hrest⟩ := startsWith_iff.mp (hlisted info hinfo).1
      simp [hrest]
    have hfailed : (copyAll env.now env.copyOk cfg.backupBucket cfg.primaryBucket
        { server := w.primary } (restoreJobs b table id)).failed = 0 := by
      refine copyAll_failed (c := { server := w.primary }) (Ne.symm hne) h.copyOk h.bucket ?_
      intro job hjob
      obtain ⟨info, hinfo, rfl⟩ := List.mem_map.mp hjob
      exact h.source info.name (hlisted info hinfo).1 (hlisted info hinfo).2
    refine ⟨⟨rfl, fun name => copyAll_get (Ne.symm hne) _ name, copyAll_lookup_isSome _ _,
      fun name hname => ?_⟩, ?_⟩
    · exact Copied.copyAll (c := { server := w.primary }) hname (Ne.symm hne) hjobs
    · intro count _ name hname hbackup
      obtain ⟨o, ho⟩ := ne_none_iff_exists'.mp hbackup
      rw [Server.get, hlookup, bind_some] at ho
      refine copied_copyAll (Ne.symm hne) hjobs hfailed (dataStart id ++ name, name)
        (List.mem_map.mpr ⟨⟨dataStart id ++ name, some o.lastModified⟩, ?_, by simp⟩)
      refine mem_listRecursive.mpr ⟨?_, o, ho, rfl⟩
      obtain ⟨rest, rfl⟩ := startsWith_iff.mp hname
      exact startsWith_iff.mpr ⟨rest, by simp only [String.append_assoc]⟩

lemma restoreTables_spec (h : Restorable cfg env id w) (tables : List TableManifest) (errors : List Issue) :
    let p := tables.foldl (restoreStep cfg env id) { stores := w, errors := errors }
    KeepsRestored cfg env id w p.stores ∧ (p.errors = [] → ∀ m ∈ tables, m.status ≠ .failed →
        ∀ name, startsWith (m.tableName ++ "/") name →
          w.backup.get cfg.backupBucket (dataStart id ++ name) ≠ none →
          Restored cfg env id p.stores name) := by
  induction tables using reverseRecOn with
  | nil => exact ⟨.refl w, nofun⟩
  | append_singleton tables last ih =>
    obtain ⟨hkeeps, hrestored⟩ := ih
    simp only [foldl_append, foldl_cons, foldl_nil]
    obtain ⟨hstep, hcopied⟩ := restoreTable_spec hne last.tableName (h.keeps hkeeps)
    rw [restoreStep]
    split
    case isTrue hfailed =>
      refine ⟨hkeeps, fun herr m hm hstatus => ?_⟩
      rcases mem_append.mp hm with hm | hm
      · exact hrestored herr m hm hstatus
      · rw [mem_singleton.mp hm] at hstatus
        exact absurd hfailed hstatus
    case isFalse =>
      split
      case h_2 w' err heq =>
        rw [heq] at hstep
        exact ⟨hkeeps.trans hstep, fun herr => absurd herr (by simp)⟩
      case h_1 w' count heq =>
        rw [heq] at hstep hcopied
        refine ⟨hkeeps.trans hstep, fun herr m hm hstatus name hname hbackup => ?_⟩
        rcases mem_append.mp hm with hm | hm
        · exact hstep.restored name (hrestored herr m hm hstatus name hname hbackup)
        · rw [mem_singleton.mp hm] at hname
          rw [← hkeeps.backup] at hbackup
          exact hcopied count rfl name hname hbackup

end

end

/-- Two servers hold the same content under the given names of a bucket. -/
def SameContent (s s' : Server (Content δ)) (bucket : String) (names : String → Prop) : Prop :=
  ∀ name, names name →
    (s.get bucket name).map (·.content) = (s'.get bucket name).map (·.content)

lemma metadataBackup_get {cfg : ExecutorConfig} {env : BackupEnv} {w w' : Stores δ}
    {r : BackupResult} (h : metadataBackup cfg env w = (w', .ok r)) (bucket name : String) :
    w'.backup.get bucket name = w.backup.get bucket name := by
  unfold metadataBackup at h
  simp only at h
  split at h
  case isFalse => cases h
  case isTrue =>
    split at h
    case isFalse => cases h
    case isTrue =>
      split at h
      case isFalse => cases h
      case isTrue =>
        obtain ⟨rfl, -⟩ : _ ∧ _ := by simpa using h
        exact get_ensureBucket _ _ _ _

lemma restore_completed {cfg : ExecutorConfig} {env : RestoreEnv} {w w' : Stores δ}
    {id : String} {r : RestoreResult} (h : restore cfg env w id = (w', .ok r))
    (hdone : r.status = .completed) :
    ∃ o m errors, w.backup.get cfg.backupBucket (manifestKey id) = some o ∧
      o.content.asFullManifest = some m ∧
      (m.tables.foldl (restoreStep cfg env id) { stores := w, errors := errors }).errors = [] ∧
      w' = (m.tables.foldl (restoreStep cfg env id) { stores := w, errors := errors }).stores := by
  unfold restore at h
  split at h
  case isTrue => cases h
  case isFalse =>
    split at h
    case h_1 => cases h
    case h_2 o ho =>
      split at h
      case h_1 => cases h
      case h_2 m hm =>
        obtain ⟨rfl, rfl⟩ : _ ∧ _ := by simpa using h
        refine ⟨o, m, _, ho, hm, ?_, rfl⟩
        simp only [RestoreProgress.status] at hdone
        by_contra herrors
        rw [if_pos herrors] at hdone
        cases hdone

def twoBuckets : ExecutorConfig := { primaryBucket := "data", backupBucket := "backups" }

def oneOrder : Server (Content Nat) :=
  AList.insert "data" (AList.insert "orders/f.parquet" ⟨.data 7, 1⟩ ∅) ∅

def replicated : Stores Nat := { primary := oneOrder, backup := oneOrder }

def dataLost (w : Stores Nat) (mirrored : Bool) : Stores Nat where
  primary := (if mirrored then w.backup else ∅).insert "data" ∅
  backup := w.backup

def backupOf (kind : BackupKind) : Stores Nat × Except ExecutorError BackupResult :=
  performBackup twoBuckets { now := 5 } replicated kind

def restoreLost (kind : BackupKind) (mirrored : Bool) (backupID : String) :
    Stores Nat × Except ExecutorError RestoreResult :=
  restore twoBuckets { now := 9 } (dataLost (backupOf kind).1 mirrored) backupID

def roundTrip (kind : BackupKind) (mirrored : Bool) :
    Option (Status × Status × Nat) × Option (Content Nat) :=
  match (backupOf kind).2 with
  | .error _ => (none, none)
  | .ok r =>
    let back := restoreLost kind mirrored r.backupID
    (back.2.toOption.map (fun r' => (r.status, r'.status, r'.objectCount)),
      (back.1.primary.get "data" "orders/f.parquet").map (·.content))

end MinIODB.Backup
