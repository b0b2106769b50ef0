import MinIODB.Buffer.Upload
import MinIODB.Library.Calendar
import MinIODB.Query.Pruning

/-!
# The day in the name of an object

A row is buffered under the day of its timestamp in the time zone of the process, and the key
becomes the head of the name of the object that the row is stored in. The pruner takes the first
element of the name that is a date, and takes it as a day of UTC. The two agree on a row if its
day is the same in both zones, and if neither its table nor its id is a date.
-/
namespace MinIODB.Query

open MinIODB.Buffer List String Calendar

section

structure IsElement (x : String) : Prop where
  nonempty : x ≠ ""
  dot : x ≠ "."
  dots : x ≠ ".."
  slash : '/' ∉ x.toList
  backslash : backslash ∉ x.toList

variable {xs : List String}

lemma foldl_cleanElement (rooted : Bool) (h : ∀ x ∈ xs, IsElement x) (stack : List String) :
    xs.foldl (cleanElement rooted) stack = xs.reverse ++ stack := by
  induction xs generalizing stack with
  | nil => rfl
  | cons x xs ih =>
    have hx := h x mem_cons_self
    have hclean : cleanElement rooted stack x = x :: stack := by
      simp [cleanElement, hx.nonempty, hx.dot, hx.dots]
    rw [foldl_cons, hclean, ih (fun y hy => h y (mem_cons_of_mem _ hy))]
    simp

lemma toList_intercalate_slash (xs : List String) :
    ("/".intercalate xs).toList = ['/'].intercalate (xs.map toList) := by
  rw [toList_intercalate]
  rfl

lemma splitOn_path (hne : xs ≠ []) (h : ∀ x ∈ xs, IsElement x) :
    ("/".intercalate xs).toList.splitOn '/' = xs.map toList := by
  rw [toList_intercalate_slash]
  refine splitOn_intercalate '/' ?_ (by simpa using hne)
  intro part hpart
  obtain ⟨x, hx, rfl⟩ := mem_map.mp hpart
  exact (h x hx).slash

lemma IsElement.head_ne {x : String} (h : IsElement x) (rest : List Char) :
    ∃ c cs, c ≠ '/' ∧ x.toList ++ rest = c :: cs := by
  cases hx : x.toList with
  | nil => exact absurd (toList_eq_nil_iff.mp hx) h.nonempty
  | cons c cs =>
    refine ⟨c, cs ++ rest, ?_, rfl⟩
    rintro rfl
    exact h.slash (by rw [hx]; exact mem_cons_self)

lemma head_path (hne : xs ≠ []) (h : ∀ x ∈ xs, IsElement x) :
    ∃ c cs, c ≠ '/' ∧ ("/".intercalate xs).toList = c :: cs := by
  rw [toList_intercalate_slash]
  cases xs with
  | nil => exact absurd rfl hne
  | cons x xs =>
    have hx := h x mem_cons_self
    cases xs with
    | nil => simpa using hx.head_ne []
    | cons =>
      rw [map_cons, map_cons, List.intercalate_cons_cons, List.append_assoc]
      exact hx.head_ne _

lemma getLast_path (hne : xs ≠ []) (h : ∀ x ∈ xs, IsElement x) :
    ∃ cs c, c ≠ '/' ∧ ("/".intercalate xs).toList = cs ++ [c] := by
  induction xs with
  | nil => exact absurd rfl hne
  | cons x xs ih =>
    cases xs with
    | nil =>
      have hx := h x mem_cons_self
      have hnil : x.toList ≠ [] := fun heq => hx.nonempty (toList_eq_nil_iff.mp heq)
      refine ⟨x.toList.dropLast, x.toList.getLast hnil, ?_, ?_⟩
      swap
      · rw [dropLast_concat_getLast hnil, String.intercalate_singleton]
      intro heq
      exact hx.slash (heq ▸ getLast_mem hnil)
    | cons =>
      obtain ⟨cs, c, hc, heq⟩ := ih (cons_ne_nil _ _) (fun z hz => h z (.tail _ hz))
      refine ⟨x.toList ++ '/' :: cs, c, hc, ?_⟩
      rw [toList_intercalate_slash] at heq ⊢
      rw [map_cons, map_cons, List.intercalate_cons_cons, ← map_cons, heq]
      simp

lemma normalizeObjectKey_path (hne : xs ≠ []) (h : ∀ x ∈ xs, IsElement x) :
    normalizeObjectKey ("/".intercalate xs) = "/".intercalate xs := by
  obtain ⟨c, cs, hc, hhead⟩ := head_path hne h
  obtain ⟨ds, d, hd, hlast⟩ := getLast_path hne h
  have hrooted : (("/".intercalate xs).toList.head? == some '/') = false := by
    rw [hhead]
    simpa using hc
  have hsplit : splitSlash ("/".intercalate xs) = xs := by
    rw [splitSlash, splitOn_path hne h, List.map_map]
    simp [Function.comp_def]
  have hbody : "/".intercalate xs ≠ "" := by
    intro heq
    rw [heq] at hhead
    cases hhead
  have hclean : pathClean ("/".intercalate xs) = "/".intercalate xs := by
    unfold pathClean
    simp only [hrooted, hsplit, foldl_cleanElement false h, append_nil, reverse_reverse,
      if_neg hbody, Bool.false_eq_true, if_false]
  have hdrop : ("/".intercalate xs).toList.dropWhile (· == '/') = ("/".intercalate xs).toList := by
    rw [hhead, dropWhile_cons_of_neg (by simpa using hc)]
  have hrdrop : ("/".intercalate xs).toList.rdropWhile (· == '/') = ("/".intercalate xs).toList := by
    rw [hlast, rdropWhile_concat_neg _ _ _ (by simpa using hd)]
  rw [normalizeObjectKey, hclean, hdrop, hrdrop, ofList_toList]

end

def elementDate (fmt : Formats) (x : String) : Option ℤ :=
  (datePartitions x.toList).findSome? (fun p => fmt.timeParse p.1 p.2)

lemma backslash_not_mem_path {xs : List String} (h : ∀ x ∈ xs, IsElement x) :
    backslash ∉ ("/".intercalate xs).toList := by
  rw [toList_intercalate_slash]
  induction xs with
  | nil => simp
  | cons x xs ih =>
    have hx := (h x mem_cons_self).backslash
    have hrest := ih (fun y hy => h y (mem_cons_of_mem _ hy))
    cases xs with
    | nil => simpa using hx
    | cons =>
      rw [map_cons, map_cons, List.intercalate_cons_cons, ← map_cons]
      simp only [mem_append, mem_singleton, not_or]
      exact ⟨⟨hx, by decide⟩, hrest⟩

lemma extractPartitionTimeFromPath_path (fmt : Formats) {xs : List String} (hne : xs ≠ [])
    (h : ∀ x ∈ xs, IsElement x) :
    extractPartitionTimeFromPath fmt ("/".intercalate xs) = xs.findSome? (elementDate fmt) := by
  have hslashes : ("/".intercalate xs).toList.map (fun c => if c = backslash then '/' else c) =
      ("/".intercalate xs).toList := by
    refine (map_congr_left (fun c hc => if_neg ?_)).trans (List.map_id _)
    rintro rfl
    exact backslash_not_mem_path h hc
  rw [extractPartitionTimeFromPath, hslashes, splitOn_path hne h, findSome?_map]
  rfl

lemma isDashedDate_spec {part : List Char} (h : isDashedDate part) :
    part.length = 10 ∧ ∀ c ∈ part, c.isDigit ∨ c = '-' := by
  unfold isDashedDate at h
  split at h
  · simp only [all_cons, all_nil, Bool.and_eq_true, beq_iff_eq, Bool.and_true] at h
    refine ⟨rfl, ?_⟩
    simp only [forall_mem_cons]
    simp [h]
  · cases h

lemma datePartitions_of_not_mem {part : List Char} (h : 'd' ∉ part) : datePartitions part =
      (if isDashedDate part then [("2006-01-02", String.ofList part)] else []) ++
        (if isPlainDate part then [("20060102", String.ofList part)] else []) := by
  have hhead : "date=".toList.isPrefixOf part = false := by
    rw [Bool.eq_false_iff]
    intro hpre
    exact h ((List.isPrefixOf_iff_prefix.mp hpre).subset (by decide))
  simp only [datePartitions, hhead, Bool.false_and, Bool.false_eq_true, if_false, append_nil]

section

def microsPerDay : ℤ := 86400000000

abbrev Zone := ℤ → ℤ

def localDay (zone : Zone) (t : ℤ) : ℤ := (t + 1000000 * zone t) / microsPerDay

def utcDay (t : ℤ) : ℤ := t / microsPerDay

def dayStr (zone : Zone) (timestamp : Int64) : String :=
  String.ofList (Calendar.format (localDay zone timestamp.toInt))

/-- `time.Parse` reads a date as the start of its day in UTC. -/
def ParsesDates (fmt : Formats) : Prop :=
  ∀ part, isDashedDate part = true →
    fmt.timeParse "2006-01-02" (String.ofList part) = (Calendar.parse part).map (· * nanosPerDay)

variable {fmt : Formats}

lemma not_mem_format {z : ℤ} {c : Char} (hdigit : c.isDigit = false) (hdash : c ≠ '-') :
    c ∉ format z := by
  intro h
  obtain h | h := mem_format h
  · rw [hdigit] at h
    cases h
  · exact hdash h

lemma isElement_format (z : ℤ) : IsElement (String.ofList (format z)) := by
  have hlength : 10 ≤ (String.ofList (format z)).length := by
    rw [length_ofList]
    exact le_length_format z
  have hne : ∀ x : String, x.length < 10 → String.ofList (format z) ≠ x := by
    rintro x hx rfl
    omega
  refine ⟨hne _ (by decide), hne _ (by decide), hne _ (by decide), ?_, ?_⟩
  all_goals
    rw [toList_ofList]
    exact not_mem_format (by decide) (by decide)

lemma isElement_file (now : ℕ) : IsElement (toString now ++ ".parquet") where
  nonempty := fileName_ne now (by decide)
  dot := fileName_ne now (by decide)
  dots := fileName_ne now (by decide)
  slash := notMem_fileName now (by decide) (by decide)
  backslash := notMem_fileName now (by decide) (by decide)

lemma elementDate_file (now : ℕ) : elementDate fmt (toString now ++ ".parquet") = none := by
  have hd : 'd' ∉ (toString now ++ ".parquet").toList := notMem_fileName now (by decide) (by decide)
  have hdot : '.' ∈ (toString now ++ ".parquet").toList := by
    rw [toList_append, mem_append]
    exact .inr (by decide)
  have hdashed : ¬ isDashedDate (toString now ++ ".parquet").toList :=
    fun h => absurd ((isDashedDate_spec h).2 '.' hdot) (by decide)
  have hplain : ¬ isPlainDate (toString now ++ ".parquet").toList := by
    intro h
    rw [isPlainDate, Bool.and_eq_true, all_eq_true] at h
    exact absurd (h.2 '.' hdot) (by decide)
  rw [elementDate, datePartitions_of_not_mem hd, if_neg hdashed, if_neg hplain]
  rfl

lemma elementDate_format_short (hfmt : ParsesDates fmt) {z : ℤ} (h : Calendar.ShortYear z) :
    elementDate fmt (String.ofList (format z)) = some (z * nanosPerDay) := by
  have hdashed : isDashedDate (format z) := by
    rw [format_of_shortYear h]
    simp [digits, isDashedDate, Nat.isDigit_digitChar, Nat.mod_lt]
  rw [elementDate, toList_ofList,
    datePartitions_of_not_mem (not_mem_format (by decide) (by decide)), if_pos hdashed]
  simp [hfmt _ hdashed, parse_format h]

lemma elementDate_format_long {z : ℤ} (h : ¬ Calendar.ShortYear z) :
    elementDate fmt (String.ofList (format z)) = none := by
  have hlength := length_format_of_not_shortYear h
  have hdashed : ¬ isDashedDate (format z) := by
    intro hd
    have := (isDashedDate_spec hd).1
    omega
  have hplain : ¬ isPlainDate (format z) := by
    intro hp
    rw [isPlainDate, Bool.and_eq_true, beq_iff_eq] at hp
    omega
  rw [elementDate, toList_ofList,
    datePartitions_of_not_mem (not_mem_format (by decide) (by decide)), if_neg hdashed, if_neg hplain]
  rfl

end

section
variable {φ : Type*} (cfg : Config) (row : DataRow φ)

def instant : ℤ := row.timestamp.toInt * 1000

structure NamesNoDate (fmt : Formats) : Prop where
  table : IsElement (tableName cfg row)
  id : IsElement (idPart row)
  tableDate : elementDate fmt (tableName cfg row) = none
  idDate : elementDate fmt (idPart row) = none

variable {cfg row}

lemma extractPartitionTimeFromPath_objectOf {fmt : Formats} (u : Uploader) (now : ℕ) {zone : Zone}
    (hday : cfg.dayStr = dayStr zone) (hnames : NamesNoDate cfg row fmt) :
    extractPartitionTimeFromPath fmt (u.objectOf (bufferKey cfg row) now).2 =
      elementDate fmt (dayStr zone row.timestamp) := by
  have helements : ∀ x ∈ [tableName cfg row, idPart row, dayStr zone row.timestamp,
      toString now ++ ".parquet"], IsElement x := by
    simp only [forall_mem_cons]
    exact ⟨hnames.table, hnames.id, isElement_format _, isElement_file now, by simp⟩
  have hname : bufferKey cfg row ++ "/" ++ toString now ++ ".parquet" =
      "/".intercalate [tableName cfg row, idPart row, dayStr zone row.timestamp,
        toString now ++ ".parquet"] := by
    simp [bufferKey, hday, String.intercalate_cons_cons, String.append_assoc]
  rw [Uploader.objectOf, hname, normalizeObjectKey_path (by simp) helements,
    extractPartitionTimeFromPath_path fmt (by simp) helements]
  simp only [findSome?_cons, hnames.tableDate, hnames.idDate, elementDate_file, findSome?_nil]
  cases elementDate fmt (dayStr zone row.timestamp) <;> rfl

def TimeRange.Contains (range : TimeRange) (t : ℤ) : Prop :=
  (∀ lo, range.minTime = some lo → lo ≤ t) ∧ ∀ hi, range.maxTime = some hi → t ≤ hi

lemma shouldScanPartition_iff {range : TimeRange} {day : ℤ} :
    shouldScanPartition range (day * nanosPerDay) ↔
      (∀ lo, range.minTime = some lo → lo < day * nanosPerDay + nanosPerDay) ∧
        ∀ hi, range.maxTime = some hi → day * nanosPerDay ≤ hi := by
  have hstart : getStartOfDay (day * nanosPerDay) = day * nanosPerDay := by
    rw [getStartOfDay, Int.mul_emod_left, sub_zero]
  have hday : 0 < nanosPerDay := by decide
  simp only [shouldScanPartition, getEndOfDay, hstart]
  cases range.minTime <;> cases range.maxTime <;> simp <;> omega

lemma shouldScanPartition_of_contains {range : TimeRange} {day t : ℤ} (hrange : range.Contains t)
    (hlo : day * nanosPerDay ≤ t) (hhi : t < day * nanosPerDay + nanosPerDay) :
    shouldScanPartition range (day * nanosPerDay) = true :=
  shouldScanPartition_iff.mpr
    ⟨fun lo h => (hrange.1 lo h).trans_lt hhi, fun hi h => hlo.trans (hrange.2 hi h)⟩

end

def dateFormats : Formats :=
  ⟨fun _ => none, fun _ => "9.5", fun layout value =>
    if layout = "2006-01-02" then (Calendar.parse value.toList).map (· * nanosPerDay) else none⟩

lemma parsesDates_dateFormats : ParsesDates dateFormats := by
  intro part _
  simp [dateFormats]

def dayRead (zone : Zone) (row : DataRow Unit) : Option ℤ :=
  extractPartitionTimeFromPath dateFormats
    ((Uploader.mk none none "n1").objectOf (bufferKey (Config.default none (dayStr zone)) row) 7).2

def eveningRow (id : String) : DataRow Unit := ⟨id, 1704139200000000, "orders", ()⟩

def newYearRange : TimeRange :=
  extractTimeRange dateFormats "SELECT * FROM orders WHERE timestamp = '2024-01-01'"

section
variable (fmt : Formats) (filePath : String) (range : TimeRange) (day : ℤ)

/-- `time.Parse` reads a date of either layout as the start of a day of UTC. -/
def ReadsDays : Prop :=
  ∀ layout ∈ ["2006-01-02", "20060102"], ∀ value p, fmt.timeParse layout value = some p →
    ∃ day, p = day * nanosPerDay

def components : List (List Char) :=
  (filePath.toList.map (fun c => if c = backslash then '/' else c)).splitOn '/'

def partDate (part : List Char) : Option ℤ :=
  (datePartitions part).findSome? (fun p => fmt.timeParse p.1 p.2)

/-- The first component of the path that is read as a date is the given day. -/
def FirstDay : Prop :=
  ∃ xs part ys, components filePath = xs ++ part :: ys ∧
    partDate fmt part = some (day * nanosPerDay) ∧ ∀ x ∈ xs, partDate fmt x = none

def Overlaps : Prop :=
  ∃ t, day * nanosPerDay ≤ t ∧ t < day * nanosPerDay + nanosPerDay ∧ range.Contains t

variable {fmt filePath range day}

lemma firstDay_iff : FirstDay fmt filePath day ↔
    extractPartitionTimeFromPath fmt filePath = some (day * nanosPerDay) :=
  findSome?_eq_some_iff.symm

lemma exists_firstDay (hfmt : ReadsDays fmt) {p : ℤ}
    (h : extractPartitionTimeFromPath fmt filePath = some p) :
    ∃ day, p = day * nanosPerDay ∧ FirstDay fmt filePath day := by
  obtain ⟨part, -, hpart⟩ := exists_of_findSome?_eq_some h
  obtain ⟨⟨layout, value⟩, hmem, hparse⟩ := exists_of_findSome?_eq_some hpart
  have hlayout : layout ∈ ["2006-01-02", "20060102"] := by
    simp only [datePartitions, mem_append, mem_ite_nil_right, mem_singleton, Prod.mk.injEq] at hmem
    simp only [mem_cons, not_mem_nil, or_false]
    tauto
  obtain ⟨day, rfl⟩ := hfmt layout hlayout value p hparse
  exact ⟨day, rfl, firstDay_iff.mpr h⟩

lemma shouldScanPartition_iff_overlaps
    (hordered : ∀ lo hi, range.minTime = some lo → range.maxTime = some hi → lo ≤ hi) :
    shouldScanPartition range (day * nanosPerDay) = true ↔ Overlaps range day := by
  constructor
  · intro h
    obtain ⟨hmin, hmax⟩ := shouldScanPartition_iff.mp h
    have hday : 0 < nanosPerDay := by decide
    -- the later of the start of the day and the start of the range
    refine ⟨max (day * nanosPerDay) (range.minTime.getD (day * nanosPerDay)), le_max_left _ _, ?_, ?_⟩
    · cases hlo : range.minTime with
      | none => simpa using hday
      | some lo => exact max_lt (by omega) (hmin lo hlo)
    · refine ⟨fun lo hlo => by simp [hlo], fun hi hhi => max_le (hmax hi hhi) ?_⟩
      cases hlo : range.minTime with
      | none => exact hmax hi hhi
      | some lo => exact hordered lo hi hlo hhi
  · rintro ⟨t, hlo, hhi, hrange⟩
    exact shouldScanPartition_of_contains hrange hlo hhi

end

def newYearFile : FileMetadata := ⟨"orders/a/2024-01-01/7.parquet", fun _ => none, fun _ => none⟩

end MinIODB.Query
