import MinIODB.Metadata.Snapshot

/-!
# The backups that are listed

The time in the name of a full backup is read back, to the second. The name of an incremental
backup is not that of a backup. The first backup of a listing is therefore the newest full one.
-/
namespace MinIODB.Metadata

open List
open String hiding startsWith
open MinIODB.Backup (Bucket Object startsWith startsWith_append)

def ShortTime (t : Int) : Prop := Calendar.ShortYear (t / second / 86400)

instance : DecidablePred ShortTime := fun t =>
  inferInstanceAs (Decidable (Calendar.ShortYear (t / second / 86400)))

variable {t : Int} {nodeID : String} {mode : BackupMode}

variable {layout : Timestamp.Layout} {file : List Char} {t' now : Int} {b : Bucket Stored}
    {days : Nat}

lemma mem_format_of_shortTime (h : ShortTime t) {c : Char}
    (hc : c ∈ (formatTime layout t).toList) : c.isDigit ∨ Timestamp.Field.lit c ∈ layout := by
  rw [formatTime, toList_ofList] at hc
  obtain ⟨field, hfield, hc⟩ := mem_flatMap.mp hc
  cases field with
  | lit =>
    rw [Timestamp.write, mem_singleton] at hc
    exact .inr (hc ▸ hfield)
  | slot =>
    rw [Timestamp.write_slot h] at hc
    exact .inl (Calendar.isDigit_of_mem_digits hc)

def backupFile (mode : BackupMode) (t : Int) : List Char :=
  (fileStart mode).toList ++ (formatTime stampLayout t).toList ++ ".json".toList

lemma slash_notMem_backupFile (h : ShortTime t) (mode : BackupMode) :
    '/' ∉ backupFile mode t := by
  have hstamp : '/' ∉ (formatTime stampLayout t).toList := by
    intro hc
    rcases mem_format_of_shortTime h hc with hdigit | hlit
    · exact absurd hdigit (by decide)
    · exact absurd hlit (by decide)
  have hstart : '/' ∉ (fileStart mode).toList := by cases mode <;> decide
  simp only [backupFile, mem_append, not_or]
  exact ⟨⟨hstart, hstamp⟩, by decide⟩

lemma fileName_append {dir : List Char} (h : '/' ∉ file) :
    fileName (String.ofList (dir ++ '/' :: file)) = String.ofList file := by
  have hall : ∀ c ∈ file.reverse, decide (c ≠ '/') = true := by
    intro c hc
    exact decide_eq_true (fun heq => h (heq ▸ List.mem_reverse.mp hc))
  rw [fileName, String.toList_ofList, List.reverse_append, List.reverse_cons, List.append_assoc,
    List.takeWhile_append_of_pos hall]
  simp

lemma objectName_eq (nodeID : String) (mode : BackupMode) (t : Int) :
    objectName nodeID mode t = ofList ((nodeStart nodeID ++ formatTime dateLayout t).toList ++
      '/' :: backupFile mode t) := by
  refine toList_inj.mp ?_
  simp [objectName, backupFile]

lemma fileName_objectName (h : ShortTime t) :
    fileName (objectName nodeID mode t) = ofList (backupFile mode t) := by
  rw [objectName_eq, fileName_append (slash_notMem_backupFile h mode)]

lemma count_slash_objectName (nodeID : String) (mode : BackupMode) (t : Int) :
    3 ≤ (objectName nodeID mode t).toList.count '/' := by
  delta objectName nodeStart
  simp only [toList_append, count_append]
  have hbegin : "metadata-backup/".toList.count '/' = 1 := by decide
  have hslash : "/".toList.count '/' = 1 := by decide
  omega

lemma parseTime_formatTime (hlayout : ∀ s, Timestamp.Field.slot s ∈ layout) (h : ShortTime t) :
    parseTime layout (formatTime layout t) = some (t / second * second) := by
  rw [parseTime, formatTime, toList_ofList, Timestamp.parse_format hlayout h,
    Option.map_some]

lemma parseBackupTimestamp_of_file {name : String} (hfile : (fileName name).toList = file) :
    parseBackupTimestamp name = if name.toList.count '/' + 1 < 4 then none
      else if !"backup_".toList.isPrefixOf file || !".json".toList.isSuffixOf file then none
      else parseTime stampLayout (ofList ((file.drop 7).take (file.length - 7 - 5))) := by
  rw [← hfile]
  rfl

lemma parseBackupTimestamp_full (h : ShortTime t) :
    parseBackupTimestamp (objectName nodeID .full t) = some (t / second * second) := by
  have hcount := count_slash_objectName nodeID .full t
  have hcut : ((backupFile .full t).drop 7).take ((backupFile .full t).length - 7 - 5) =
      (formatTime stampLayout t).toList := by
    have hlength : "backup_".toList.length = 7 := by decide
    have hjson : ".json".toList.length = 5 := by decide
    rw [backupFile, fileStart, List.append_assoc, List.drop_left' hlength, List.length_append,
      List.length_append, hlength, hjson]
    exact List.take_left' (by omega)
  have hbegin : "backup_".toList.isPrefixOf (backupFile .full t) := by
    rw [List.isPrefixOf_iff_prefix, backupFile, fileStart, List.append_assoc]
    exact List.prefix_append _ _
  have hend : ".json".toList.isSuffixOf (backupFile .full t) := by
    rw [isSuffixOf_iff_suffix, backupFile]
    exact suffix_append _ _
  rw [parseBackupTimestamp_of_file (by rw [fileName_objectName h, toList_ofList]),
    if_neg (by omega), hbegin, hend, hcut, if_neg (by decide), ofList_toList]
  exact parseTime_formatTime (fun s => by cases s <;> decide) h

lemma parseBackupTimestamp_incremental (h : ShortTime t) :
    parseBackupTimestamp (objectName nodeID .incremental t) = none := by
  have hbegin : "backup_".toList.isPrefixOf (backupFile .incremental t) = false := rfl
  rw [parseBackupTimestamp_of_file (by rw [fileName_objectName h, toList_ofList]), hbegin]
  split
  case isTrue => rfl
  case isFalse => rfl

lemma objectName_ne {nodeID' : String} (h : ShortTime t) (h' : ShortTime t') :
    objectName nodeID .full t ≠ objectName nodeID' .incremental t' := by
  intro heq
  have hparse : parseBackupTimestamp (objectName nodeID .full t) = some (t / second * second) :=
    parseBackupTimestamp_full h
  rw [heq, parseBackupTimestamp_incremental h'] at hparse
  cases hparse

lemma objectName_congr (h : t / second = t' / second) :
    objectName nodeID mode t = objectName nodeID mode t' := by
  simp [objectName, formatTime, h]

lemma startsWith_objectName : startsWith (nodeStart nodeID) (objectName nodeID mode t) := by
  simp only [objectName, String.append_assoc]
  exact startsWith_append _ _

instance : Std.Total BackupInfo.NotOlder where
  total x y := le_total y.timestamp x.timestamp

instance : IsTrans BackupInfo BackupInfo.NotOlder where
  trans _ _ _ hxy hyz := le_trans hyz hxy

def BackupsUpTo (nodeID : String) (b : Bucket Stored) (tf : Int) : Prop :=
  ∀ name o, b.lookup name = some o → startsWith (nodeStart nodeID) name = true →
    ∃ mode t, name = objectName nodeID mode t ∧ ShortTime t ∧ (mode = .full → t ≤ tf)

lemma mem_listBackups {info : BackupInfo} : info ∈ listBackups nodeID b now days ↔
      startsWith (nodeStart nodeID) info.objectName ∧
      parseBackupTimestamp info.objectName = some info.timestamp ∧
      ∃ o, b.lookup info.objectName = some o ∧ ¬ o.lastModified < now - days * day := by
  rw [listBackups, mem_insertionSort, mem_filterMap]
  constructor
  · rintro ⟨entry, hentry, hinfo⟩
    obtain ⟨hstart, o, ho, hmodified⟩ := MinIODB.Backup.Bucket.mem_listRecursive.mp hentry
    simp only [hmodified] at hinfo
    split at hinfo
    case isTrue => cases hinfo
    case isFalse hrecent =>
      obtain ⟨time, htime, rfl⟩ := Option.map_eq_some_iff.mp hinfo
      exact ⟨hstart, htime, o, ho, hrecent⟩
  · rintro ⟨hstart, htime, o, ho, hrecent⟩
    refine ⟨⟨info.objectName, some o.lastModified⟩,
      MinIODB.Backup.Bucket.mem_listRecursive.mpr ⟨hstart, o, ho, rfl⟩, ?_⟩
    simp only [if_neg hrecent, htime, Option.map_some]

lemma listBackups_newest {tf : Int} {o : Object Stored}
    (hobjects : BackupsUpTo nodeID b tf) (htf : ShortTime tf)
    (ho : b.lookup (objectName nodeID .full tf) = some o)
    (hrecent : now - days * day ≤ o.lastModified) : ∃ rest, listBackups nodeID b now days =
      ⟨objectName nodeID .full tf, tf / second * second⟩ :: rest := by
  have hmem : (⟨objectName nodeID .full tf, tf / second * second⟩ : BackupInfo) ∈
      listBackups nodeID b now days :=
    mem_listBackups.mpr ⟨startsWith_objectName, parseBackupTimestamp_full htf, o, ho, by omega⟩
  have hsorted : (listBackups nodeID b now days).Pairwise BackupInfo.NotOlder :=
    pairwise_insertionSort _ _
  cases hlist : listBackups nodeID b now days with
  | nil =>
    rw [hlist] at hmem
    cases hmem
  | cons first rest =>
    refine ⟨rest, ?_⟩
    have hfirst : first ∈ listBackups nodeID b now days := by
      rw [hlist]
      exact .head _
    obtain ⟨hstart, htime, o', ho', -⟩ := mem_listBackups.mp hfirst
    obtain ⟨mode, t, hname, ht, hfull⟩ := hobjects _ _ ho' hstart
    -- the first entry is not older than the newest backup
    have hnewest : tf / second * second ≤ first.timestamp := by
      rw [hlist] at hmem hsorted
      rcases mem_cons.mp hmem with heq | htail
      · rw [← heq]
      · exact (pairwise_cons.mp hsorted).1 _ htail
    cases mode with
    | incremental =>
      rw [hname, parseBackupTimestamp_incremental ht] at htime
      cases htime
    | full =>
      rw [hname, parseBackupTimestamp_full ht, Option.some.injEq] at htime
      have hle : t ≤ tf := hfull rfl
      have hsecond : t / second = tf / second := by
        simp only [second] at *
        omega
      have heq : first = ⟨objectName nodeID .full tf, tf / second * second⟩ := by
        rw [← objectName_congr hsecond, ← hname, ← hsecond, htime]
      rw [heq]

end MinIODB.Metadata
