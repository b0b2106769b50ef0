import MinIODB.Backup.ObjectStore
import MinIODB.Backup.Scheduler
import MinIODB.Buffer.Upload

/-!
# Retention of backups

After a plan has run, `CleanupByPlan` removes expired backups from the bucket of backups.
Full and metadata plans share one routine, which looks at every directory below `backups/` and
compares its newest object with the cutoff. The routine for a table compares the entries of a
listing that is not recursive, and those are directories without a modification time.
-/
namespace MinIODB.Backup
open List AList

variable {δ : Type*}

structure CleanupEnv where
  listOk : Bool := true
  listDirectoryOk : String → Bool := fun _ => true
  removeOk : String → Bool := fun _ => true

variable (env : CleanupEnv)

def cutoff (now retentionDays : Int) : Int := now - retentionDays * 86400000000000

def isBefore (t : Option Int) (cutoff : Int) : Bool := t.all (fun t => decide (t < cutoff))

def isAfter (t u : Option Int) : Bool :=
  match t, u with
  | some t, some u => decide (u < t)
  | some _, none => true
  | none, _ => false

def removeBackupDirectory (b : Bucket δ) (start : String) : Bucket δ :=
  if env.listDirectoryOk start then
    (b.listRecursive start).foldl
      (fun b info => if env.removeOk info.name then b.erase info.name else b) b
  else b

def removeAll (b : Bucket δ) (starts : List String) : Bucket δ :=
  starts.foldl (removeBackupDirectory env) b

def backupDir (name : String) : Option String :=
  match Buffer.splitSlash name with
  | first :: second :: _ => some (first ++ "/" ++ second)
  | _ => none

def noteNewest (dirs : AList (fun _ : String => Option Int)) (info : ObjectInfo) :
    AList (fun _ : String => Option Int) :=
  match backupDir info.name with
  | none => dirs
  | some dir =>
    if (dirs.lookup dir).all (isAfter info.lastModified) then dirs.insert dir info.lastModified
    else dirs

def newestPerDir (objects : List ObjectInfo) : AList (fun _ : String => Option Int) :=
  objects.foldl noteNewest ∅

def cleanupExpiredBackups (b : Bucket δ) (now retentionDays : Int) : Bucket δ :=
  if retentionDays ≤ 0 ∨ env.listOk = false then b
  else
    let dirs := (newestPerDir (b.listRecursive "backups/")).entries
    removeAll env b
      ((dirs.filter (fun d => isBefore d.2 (cutoff now retentionDays))).map (fun d => d.1 ++ "/"))

def tableStart (table : String) : String := "backups/table-" ++ table ++ "-"

def cleanupExpiredTableBackups (b : Bucket δ) (table : String) (now retentionDays : Int) :
    Bucket δ :=
  if retentionDays ≤ 0 ∨ env.listOk = false then b
  else
    removeAll env b
      (((b.listShallow (tableStart table)).filter
        (fun info => isBefore info.lastModified (cutoff now retentionDays))).map (·.name))

def cleanupByPlan (b : Bucket δ) (backupType : BackupType) (tables : List String)
    (now retentionDays : Int) : Bucket δ :=
  if retentionDays ≤ 0 then b
  else
    match backupType with
    | .full => cleanupExpiredBackups env b now retentionDays
    | .table =>
      tables.foldl (fun b table => cleanupExpiredTableBackups env b table now retentionDays) b
    | .metadata => cleanupExpiredBackups env b now retentionDays
    | .other _ => b

variable {env} {b : Bucket δ} {name : String}

lemma lookup_foldl_erase (infos : List ObjectInfo) (b : Bucket δ) (name : String) :
    (infos.foldl (fun b info => if env.removeOk info.name then b.erase info.name else b) b).lookup
        name = b.lookup name ∨ ∃ info ∈ infos, info.name = name := by
  induction infos generalizing b with
  | nil => exact .inl rfl
  | cons info infos ih =>
    by_cases hname : info.name = name
    · exact .inr ⟨info, mem_cons_self, hname⟩
    · rw [foldl_cons]
      rcases ih (if env.removeOk info.name then b.erase info.name else b) with h | ⟨i, hi, hin⟩
      · left
        rw [h]
        split
        case isTrue => exact lookup_erase_ne (Ne.symm hname)
        case isFalse => rfl
      · exact .inr ⟨i, .tail _ hi, hin⟩

variable (env) in
lemma lookup_removeBackupDirectory (b : Bucket δ) (start name : String) :
    (removeBackupDirectory env b start).lookup name = b.lookup name ∨ startsWith start name := by
  unfold removeBackupDirectory
  split
  case isFalse => exact .inl rfl
  case isTrue =>
    refine (lookup_foldl_erase _ b name).imp_right ?_
    rintro ⟨info, hinfo, rfl⟩
    exact (Bucket.mem_listRecursive.mp hinfo).1

lemma lookup_foldl {f : Bucket δ → String → Bucket δ} {p : String → Prop} {name : String}
    (hf : ∀ b x, (f b x).lookup name = b.lookup name ∨ p x) (l : List String) (b : Bucket δ) :
    (l.foldl f b).lookup name = b.lookup name ∨ ∃ x ∈ l, p x := by
  induction l generalizing b with
  | nil => exact .inl rfl
  | cons x l ih =>
    rcases ih (f b x) with h | ⟨y, hy, hp⟩
    · exact (hf b x).imp h.trans (fun hp => ⟨x, .head _, hp⟩)
    · exact .inr ⟨y, .tail _ hy, hp⟩

variable (env) in
lemma lookup_removeAll (starts : List String) (b : Bucket δ) (name : String) :
    (removeAll env b starts).lookup name = b.lookup name ∨ ∃ start ∈ starts, startsWith start name :=
  lookup_foldl (fun b start => lookup_removeBackupDirectory env b start name) starts b

lemma splitOn_eq_takeWhile (l : List Char) :
    ∃ more, l.splitOn '/' = l.takeWhile (fun c => decide (c ≠ '/')) :: more := by
  by_cases h : '/' ∈ l
  · obtain ⟨before, rest, rfl, hbefore⟩ := eq_append_cons_of_mem h
    refine ⟨rest.splitOn '/', ?_⟩
    rw [splitOn_append_cons_self_of_not_mem hbefore, takeWhile_append_of_pos]
    · simp
    · intro c hc
      exact decide_eq_true (fun heq => hbefore (heq ▸ hc))
  · refine ⟨[], ?_⟩
    rw [splitOn_eq_singleton h, takeWhile_eq_self_iff.mpr]
    intro c hc
    exact decide_eq_true (fun heq => h (heq ▸ hc))

lemma backupDir_append (rest : String) :
    backupDir ("backups/" ++ rest) = some ("backups/" ++ firstElement rest) := by
  obtain ⟨more, hmore⟩ := splitOn_eq_takeWhile rest.toList
  have hsplit : Buffer.splitSlash ("backups/" ++ rest) =
      "backups" :: firstElement rest :: more.map String.ofList := by
    have hlist : ("backups/" ++ rest).toList = "backups".toList ++ '/' :: rest.toList := by simp
    rw [Buffer.splitSlash, hlist, splitOn_append_cons_self_of_not_mem (by decide), hmore]
    simp [firstElement]
  rw [backupDir, hsplit]
  simp

lemma isAfter_trans {t u v : Option Int} (htu : isAfter t u = false) (hvu : isAfter v u) :
    isAfter t v = false := by
  cases t with
  | none => rfl
  | some =>
    cases u with
    | none => cases htu
    | some =>
      cases v with
      | none => cases hvu
      | some =>
        simp only [isAfter, decide_eq_false_iff_not, decide_eq_true_eq] at *
        omega

lemma isAfter_self (t : Option Int) : isAfter t t = false := by
  cases t <;> simp [isAfter]

lemma newestPerDir_newest {objects : List ObjectInfo} {info : ObjectInfo} {dir : String}
    (hinfo : info ∈ objects) (hdir : backupDir info.name = some dir) :
    ∃ t, (newestPerDir objects).lookup dir = some t ∧ isAfter info.lastModified t = false := by
  induction objects using reverseRecOn with
  | nil => cases hinfo
  | append_singleton objects last ih =>
    rw [newestPerDir, foldl_append, ← newestPerDir, foldl_cons, foldl_nil, noteNewest]
    cases hlast : backupDir last.name with
    | none =>
      refine ih ((mem_append.mp hinfo).resolve_right (fun hmem => ?_))
      rw [mem_singleton.mp hmem, hlast] at hdir
      cases hdir
    | some lastDir =>
      simp only
      rcases mem_append.mp hinfo with hold | hnew
      · obtain ⟨t, ht, hafter⟩ := ih hold
        split
        case isFalse => exact ⟨t, ht, hafter⟩
        case isTrue hnewer =>
          by_cases hsame : dir = lastDir
          · subst hsame
            refine ⟨_, lookup_insert _, isAfter_trans hafter ?_⟩
            simpa [ht] using hnewer
          · exact ⟨t, by rwa [lookup_insert_ne hsame], hafter⟩
      · obtain rfl := mem_singleton.mp hnew
        obtain rfl : lastDir = dir := by rw [hlast] at hdir; exact Option.some.inj hdir
        split
        case isTrue => exact ⟨_, lookup_insert _, isAfter_self _⟩
        case isFalse hnot =>
          cases hlookup : (newestPerDir objects).lookup lastDir with
          | none => simp [hlookup] at hnot
          | some t => exact ⟨t, rfl, by simpa [hlookup] using hnot⟩

lemma exists_of_mem_newestPerDir {objects : List ObjectInfo} {dir : String}
    (hdir : dir ∈ newestPerDir objects) : ∃ info ∈ objects, backupDir info.name = some dir := by
  induction objects using reverseRecOn with
  | nil => cases hdir
  | append_singleton objects last ih =>
    rw [newestPerDir, foldl_append, ← newestPerDir, foldl_cons, foldl_nil, noteNewest] at hdir
    have hlift : dir ∈ newestPerDir objects →
        ∃ info ∈ objects ++ [last], backupDir info.name = some dir := by
      intro hmem
      obtain ⟨info, hinfo, hname⟩ := ih hmem
      exact ⟨info, mem_append_left _ hinfo, hname⟩
    split at hdir
    case h_1 => exact hlift hdir
    case h_2 lastDir hlast =>
      split at hdir
      case isFalse => exact hlift hdir
      case isTrue =>
        rcases (mem_insert _).mp hdir with rfl | hmem
        · exact ⟨last, by simp, hlast⟩
        · exact hlift hmem

lemma lookup_cleanupExpiredBackups {now retentionDays : Int} {o : Object δ}
    (ho : b.lookup name = some o) :
    (cleanupExpiredBackups env b now retentionDays).lookup name = b.lookup name ∨
      (startsWith "backups/" name ∧ o.lastModified < cutoff now retentionDays) := by
  unfold cleanupExpiredBackups
  split
  case isTrue => exact .inl rfl
  case isFalse =>
    refine (lookup_removeAll env _ b name).imp_right ?_
    rintro ⟨start, hstart, hname⟩
    obtain ⟨d, hd, rfl⟩ := mem_map.mp hstart
    obtain ⟨hmem, hexpired⟩ := mem_filter.mp hd
    have hlookup := mem_lookup_iff.mpr hmem
    -- the directory is that of some object, so it reads `backups/` and one more element
    obtain ⟨info, hinfo, hdir⟩ :=
      exists_of_mem_newestPerDir (lookup_isSome.mp (Option.isSome_of_mem hlookup))
    obtain ⟨path, hpath⟩ := startsWith_iff.mp (Bucket.mem_listRecursive.mp hinfo).1
    rw [hpath, backupDir_append] at hdir
    have hd1 : d.1 = "backups/" ++ firstElement path := (Option.some.inj hdir).symm
    obtain ⟨rest, rfl⟩ := startsWith_iff.mp hname
    have hshape : d.1 ++ "/" ++ rest = "backups/" ++ (firstElement path ++ "/" ++ rest) := by
      rw [hd1]
      simp only [String.append_assoc]
    have hbackups : startsWith "backups/" (d.1 ++ "/" ++ rest) := by
      rw [hshape, startsWith_append]
    refine ⟨hbackups, ?_⟩
    have hlisted : (⟨d.1 ++ "/" ++ rest, some o.lastModified⟩ : ObjectInfo) ∈
        b.listRecursive "backups/" := Bucket.mem_listRecursive.mpr ⟨hbackups, o, ho, rfl⟩
    have howner : backupDir (d.1 ++ "/" ++ rest) = some d.1 := by
      rw [hshape, backupDir_append, firstElement_append rest (not_mem_firstElement path), hd1]
    obtain ⟨t, ht, hnewest⟩ := newestPerDir_newest hlisted howner
    obtain rfl : d.2 = t := Option.some.inj (hlookup.symm.trans ht)
    cases ht2 : d.2 with
    | none => simp [ht2, isAfter] at hnewest
    | some =>
      simp only [ht2, isAfter, isBefore, Option.all_some, decide_eq_true_eq,
        decide_eq_false_iff_not, not_lt] at hnewest hexpired
      exact lt_of_le_of_lt hnewest hexpired

variable (env) in
lemma lookup_cleanupExpiredTableBackups (b : Bucket δ) (table name : String)
    (now retentionDays : Int) :
    (cleanupExpiredTableBackups env b table now retentionDays).lookup name = b.lookup name ∨
      startsWith (tableStart table) name := by
  unfold cleanupExpiredTableBackups
  split
  case isTrue => exact .inl rfl
  case isFalse =>
    refine (lookup_removeAll env _ b name).imp_right ?_
    rintro ⟨start, hstart, hname⟩
    obtain ⟨info, hinfo, rfl⟩ := mem_map.mp hstart
    obtain ⟨e, he, rfl⟩ := mem_map.mp (mem_dedup.mp (mem_of_mem_filter hinfo))
    have hentry := Bucket.startsWith_shallowEntry (Bucket.mem_listRecursive.mp he).1
    obtain ⟨rest, hrest⟩ := startsWith_iff.mp hname
    obtain ⟨more, hmore⟩ := startsWith_iff.mp hentry
    rw [hrest, hmore, String.append_assoc, startsWith_append]

structure StoredBackup where
  id : String
  type : BackupType
  createdAt : Int

def StoredBackup.directory (k : StoredBackup) : String :=
  match k.type with
  | .metadata => "metadata-backup/" ++ k.id
  | _ => "backups/" ++ k.id ++ "/"

def InScope (backupType : BackupType) (tables : List String) (name : String) : Prop :=
  match backupType with
  | .full => startsWith "backups/" name = true
  | .metadata => startsWith "backups/" name = true
  | .table => ∃ table ∈ tables, startsWith (tableStart table) name = true
  | .other _ => False

def Written (b : Bucket δ) (backups : List StoredBackup) : Prop :=
  ∀ k ∈ backups, ∀ name o, b.lookup name = some o → startsWith k.directory name = true →
    k.createdAt ≤ o.lastModified

def OwnTerritory (b : Bucket δ) (backups : List StoredBackup) (backupType : BackupType)
    (tables : List String) (cutoff : Int) : Prop :=
  ∀ k ∈ backups, ∀ name o, b.lookup name = some o → startsWith k.directory name = true →
    InScope backupType tables name →
      k.type = backupType ∧ (backupType = .table → k.createdAt < cutoff)

def day (n : Int) : Int := n * 86400000000000

def bucketOf (backups : List StoredBackup) : Bucket Unit :=
  backups.foldl (fun b k =>
    (b.insert (k.directory ++ "data/orders/f.parquet") ⟨(), k.createdAt⟩).insert
      (k.directory ++ "manifest.json") ⟨(), k.createdAt⟩) ∅

def oldFull : StoredBackup := ⟨"full-n-1", .full, day 1⟩

def newFull : StoredBackup := ⟨"full-n-29", .full, day 29⟩

def oldTable : StoredBackup := ⟨"table-orders-n-1", .table, day 1⟩

def newTable : StoredBackup := ⟨"table-orders-n-29", .table, day 29⟩

def objectsLeft (b : Bucket Unit) (backups : List StoredBackup) : List Nat :=
  backups.map (fun k => (b.listRecursive k.directory).length)

end MinIODB.Backup
