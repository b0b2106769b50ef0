import MinIODB.Library.Matching

/-!
# File pruning

Before a query is run, the files of a table are narrowed down twice. Conditions on
well-known time columns are compared with a date in the path of the file, and
comparisons of columns with literals are compared with the smallest and the largest
value of the column in the file.

Both kinds of condition are found by regular expressions in the lower-cased text after
`where`. The character classes that follow one another in these expressions are
disjoint, so that a greedy match is the only one and `takeWhile` computes it.
-/
namespace MinIODB.Query
open Matching List String

inductive Value where
  | int (n : ℤ)
  | dec (q : ℚ)
  | str (s : String)
  deriving DecidableEq

structure Formats where
  parseFloat : String → Option ℚ
  formatFloat : ℚ → String
  timeParse : (layout value : String) → Option ℤ

inductive Operator where
  | ge
  | le
  | gt
  | lt
  | eq
  deriving DecidableEq

def Operator.text : Operator → List Char
  | .ge => ['>', '=']
  | .le => ['<', '=']
  | .gt => ['>']
  | .lt => ['<']
  | .eq => ['=']

structure Predicate where
  column : String
  operator : Operator
  value : Value
  deriving DecidableEq

structure FileMetadata where
  filePath : String
  minValues : String → Option Value
  maxValues : String → Option Value

def quote : Char := Char.ofNat 39

def isWord (c : Char) : Bool := c.isAlphanum || c == '_'

def isSpace (c : Char) : Bool :=
  c == ' ' || c == '\t' || c == '\n' || c == '\r' || c == Char.ofNat 12

def toLower (l : List Char) : List Char := l.map Char.toLower

def whereClause (sql : String) : Option (List Char) :=
  (after "where".toList (toLower sql.toList)).map (fun clause =>
    [" group ", " order ", " limit ", " having "].foldl (fun clause kw => before kw.toList clause)
      clause)

section

def matchValue (quoted : Bool) (l : List Char) : Option (List Char × List Char) :=
  if quoted then
    if l.head? = some quote then
      if (l.tail.dropWhile (· != quote)).head? = some quote then
        some (l.tail.takeWhile (· != quote), (l.tail.dropWhile (· != quote)).tail)
      else none
    else none
  else if l.takeWhile Char.isDigit = [] then none
  else some (l.takeWhile Char.isDigit, l.dropWhile Char.isDigit)

def matchCondition (operator : Operator) (quoted : Bool) (l : List Char) :
    Option (List Char × List Char) :=
  if operator.text.isPrefixOf (l.dropWhile isSpace) then
    matchValue quoted (((l.dropWhile isSpace).drop operator.text.length).dropWhile isSpace)
  else none

def matchComparison (operator : Operator) (quoted : Bool) (l : List Char) :
    Option ((List Char × List Char) × List Char) :=
  if l.takeWhile isWord = [] then none
  else (matchCondition operator quoted (l.dropWhile isWord)).map (fun p =>
    ((l.takeWhile isWord, p.1), p.2))

def comparisonPatterns : List (Operator × Bool) :=
  [(.ge, true), (.le, true), (.gt, true), (.lt, true), (.eq, true),
    (.ge, false), (.le, false), (.gt, false), (.lt, false), (.eq, false)]

def parseDigits (digits : List Char) : Option ℕ :=
  if digits ≠ [] ∧ digits.all Char.isDigit then some (Nat.ofDigitChars 10 digits 0) else none

def parseInt (value : List Char) : Option ℤ :=
  (match value with
    | '-' :: digits => (parseDigits digits).map (fun n => -(n : ℤ))
    | '+' :: digits => (parseDigits digits).map (fun n => (n : ℤ))
    | digits => (parseDigits digits).map (fun n => (n : ℤ))).filter
      (fun n => decide (-2 ^ 63 ≤ n ∧ n < 2 ^ 63))

variable (fmt : Formats)

def typedValue (value : List Char) : Value :=
  match parseInt value with
  | some n => .int n
  | none =>
    match fmt.parseFloat (String.ofList value) with
    | some q => .dec q
    | none => .str (String.ofList value)

def parseSimplePredicates (clause : List Char) : List Predicate :=
  comparisonPatterns.flatMap (fun p =>
    (findAll (matchComparison p.1 p.2) clause).map (fun found =>
      ⟨String.ofList found.1, p.1, typedValue fmt found.2⟩))

def extractPredicates (sql : String) : List Predicate :=
  match whereClause sql with
  | none => []
  | some clause => parseSimplePredicates fmt clause

def printed : Value → String
  | .int n => toString n
  | .dec q => fmt.formatFloat q
  | .str s => s

def compareValues : Value → Value → Ordering
  | .int a, .int b => cmp a b
  | .dec a, .dec b => cmp a b
  | .str a, .str b => cmp a b
  | a, b => cmp (printed fmt a) (printed fmt b)

lemma compareValues_str (s : String) (v : Value) :
    compareValues fmt (.str s) v = cmp s (printed fmt v) := by
  cases v <;> rfl

def Operator.admits (operator : Operator) (lower upper : Ordering) : Bool :=
  match operator with
  | .gt => upper == .gt
  | .ge => upper != .lt
  | .lt => lower == .lt
  | .le => lower != .gt
  | .eq => lower != .gt && upper != .lt

def rangeMatchesPredicate (minVal maxVal : Value) (pred : Predicate) : Bool :=
  pred.operator.admits (compareValues fmt minVal pred.value) (compareValues fmt maxVal pred.value)

def fileMatchesPredicates (file : FileMetadata) (predicates : List Predicate) : Bool :=
  predicates.all (fun pred =>
    match file.minValues pred.column, file.maxValues pred.column with
    | some minVal, some maxVal => rangeMatchesPredicate fmt minVal maxVal pred
    | _, _ => true)

def pruneFiles (files : List FileMetadata) (predicates : List Predicate) : List FileMetadata :=
  if predicates = [] then files
  else files.filter (fun file => fileMatchesPredicates fmt file predicates)

end

section

structure TimeRange where
  minTime : Option ℤ
  maxTime : Option ℤ
  deriving DecidableEq

def timeFormats : List String :=
  ["2006-01-02 15:04:05", "2006-01-02T15:04:05", "2006-01-02T15:04:05Z",
    "2006-01-02T15:04:05.999Z", "2006-01-02", "2006-01-02T15:04:05Z07:00",
    "2006-01-02T15:04:05.999999999Z07:00"]

def timeColumns : List String :=
  ["timestamp", "time", "created_at", "updated_at", "date", "datetime", "event_time",
    "occurred_at"]

def isTrimmed (c : Char) : Bool :=
  c == ' ' || (9 ≤ c.toNat && c.toNat ≤ 13) || c.toNat == 0x85 || c.toNat == 0xA0 ||
    c.toNat == 0x1680 || (0x2000 ≤ c.toNat && c.toNat ≤ 0x200A) || c.toNat == 0x2028 ||
    c.toNat == 0x2029 || c.toNat == 0x202F || c.toNat == 0x205F || c.toNat == 0x3000

lemma of_isSpace {p : Char → Prop} {c : Char} (h : isSpace c)
    (hall : p ' ' ∧ p '\t' ∧ p '\n' ∧ p '\r' ∧ p (Char.ofNat 12)) : p c := by
  simp only [isSpace, Bool.or_eq_true, beq_iff_eq] at h
  obtain ⟨hspace, htab, hnewline, hreturn, hfeed⟩ := hall
  rcases h with (((rfl | rfl) | rfl) | rfl) | rfl <;> assumption

lemma isSpace_trimmed {c : Char} (h : isSpace c) : isTrimmed c :=
  of_isSpace (p := fun c => isTrimmed c) h (by decide)

def trimSpace (l : List Char) : List Char :=
  ((l.dropWhile isTrimmed).reverse.dropWhile isTrimmed).reverse

def matchTimeCondition (columnName : String) (operator : Operator) (l : List Char) :
    Option (List Char × List Char) :=
  if columnName.toList.isPrefixOf l then
    matchCondition operator true (l.drop columnName.toList.length)
  else none

variable (fmt : Formats)

def parseTime (value : List Char) : Option ℤ :=
  timeFormats.findSome? (fun layout => fmt.timeParse layout (String.ofList (trimSpace value)))

def nanosPerSecond : ℤ := 1000000000
def nanosPerDay : ℤ := 24 * 3600 * nanosPerSecond

def timeCondition (clause : List Char) (columnName : String) (operator : Operator) :
    Option (List Char × ℤ) :=
  (findFirst (matchTimeCondition columnName operator) clause).bind (fun value =>
    (parseTime fmt value).map (fun t => (value, t)))

def TimeRange.set (range : TimeRange) (operator : Operator) (value : List Char) (t : ℤ) : TimeRange :=
  match operator with
  | .ge => { range with minTime := some t }
  | .gt => { range with minTime := some (t + 1) }
  | .le => { range with maxTime := some t }
  | .lt => { range with maxTime := some (t - 1) }
  | .eq =>
    if (String.ofList value).utf8ByteSize ≤ 10 then
      ⟨some t, some (t + (nanosPerDay - nanosPerSecond))⟩
    else ⟨some t, some t⟩

def extractTimeConditions (clause : List Char) (columnName : String) (range : TimeRange) : TimeRange :=
  [Operator.ge, .gt, .le, .lt, .eq].foldl (fun range operator =>
    match timeCondition fmt clause columnName operator with
    | none => range
    | some (value, t) => range.set operator value t) range

def timeRangeOf (clause : List Char) : List String → TimeRange → TimeRange
  | [], range => range
  | col :: cols, range =>
    if (extractTimeConditions fmt clause col range).minTime.isSome ||
        (extractTimeConditions fmt clause col range).maxTime.isSome then
      extractTimeConditions fmt clause col range
    else timeRangeOf clause cols (extractTimeConditions fmt clause col range)

def extractTimeRange (sql : String) : TimeRange :=
  match whereClause sql with
  | none => ⟨none, none⟩
  | some clause => timeRangeOf fmt clause timeColumns ⟨none, none⟩

def getStartOfDay (t : ℤ) : ℤ := t - t % nanosPerDay
def getEndOfDay (t : ℤ) : ℤ := getStartOfDay t + (nanosPerDay - 1)

def shouldScanPartition (range : TimeRange) (partitionTime : ℤ) : Bool :=
  !(range.minTime.any (fun t => decide (partitionTime < t) && decide (getEndOfDay partitionTime < t))) &&
    !(range.maxTime.any (fun t => decide (t < partitionTime) && decide (t < getStartOfDay partitionTime)))

def isDashedDate (part : List Char) : Bool :=
  match part with
  | [a, b, c, d, h, e, f, h', g, i] =>
    [a, b, c, d, e, f, g, i].all Char.isDigit && h == '-' && h' == '-'
  | _ => false

def isPlainDate (part : List Char) : Bool :=
  part.length == 8 && part.all Char.isDigit

def datePartitions (part : List Char) : List (String × String) :=
  (if isDashedDate part then [("2006-01-02", String.ofList part)] else []) ++
    (if "date=".toList.isPrefixOf part && isDashedDate (part.drop 5) then
      [("2006-01-02", String.ofList (part.drop 5))] else []) ++
    (if isPlainDate part then [("20060102", String.ofList part)] else []) ++
    (if "date=".toList.isPrefixOf part && isPlainDate (part.drop 5) then
      [("20060102", String.ofList (part.drop 5))] else [])

def backslash : Char := Char.ofNat 92

def extractPartitionTimeFromPath (filePath : String) : Option ℤ :=
  ((filePath.toList.map (fun c => if c = backslash then '/' else c)).splitOn '/').findSome?
    (fun part => (datePartitions part).findSome? (fun p => fmt.timeParse p.1 p.2))

def pruneFilesByTimePartition (range : TimeRange) (files : List FileMetadata) : List FileMetadata :=
  if range.minTime.isNone && range.maxTime.isNone then files
  else files.filter (fun file =>
    match extractPartitionTimeFromPath fmt file.filePath with
    | none => true
    | some partitionTime => shouldScanPartition range partitionTime)

def optimizeQuery (sql : String) (files : List FileMetadata) : List FileMetadata :=
  pruneFiles fmt (pruneFilesByTimePartition fmt (extractTimeRange fmt sql) files)
    (extractPredicates fmt sql)

end

def plainFormats : Formats := ⟨fun _ => none, fun _ => "9.5", fun _ _ => none⟩

def selected (fmt : Formats) (sql : String) (file : FileMetadata) : Bool :=
  (match extractPartitionTimeFromPath fmt file.filePath with
    | none => true
    | some partitionTime => shouldScanPartition (extractTimeRange fmt sql) partitionTime) &&
    fileMatchesPredicates fmt file (extractPredicates fmt sql)

lemma pruneFiles_eq_filter (fmt : Formats) (files : List FileMetadata)
    (predicates : List Predicate) : pruneFiles fmt files predicates =
      files.filter (fun file => fileMatchesPredicates fmt file predicates) := by
  unfold pruneFiles
  split
  · rename_i h
    rw [h]
    exact (filter_eq_self.mpr (fun _ _ => rfl)).symm
  · rfl

lemma pruneFilesByTimePartition_eq_filter (fmt : Formats) (range : TimeRange)
    (files : List FileMetadata) :
    pruneFilesByTimePartition fmt range files = files.filter (fun file =>
      match extractPartitionTimeFromPath fmt file.filePath with
      | none => true
      | some partitionTime => shouldScanPartition range partitionTime) := by
  unfold pruneFilesByTimePartition
  split
  · rename_i h
    rw [Bool.and_eq_true, Option.isNone_iff_eq_none, Option.isNone_iff_eq_none] at h
    refine (filter_eq_self.mpr (fun file _ => ?_)).symm
    cases extractPartitionTimeFromPath fmt file.filePath with
    | none => rfl
    | some => simp [shouldScanPartition, h.1, h.2]
  · rfl

lemma optimizeQuery_eq_filter (fmt : Formats) (sql : String) (files : List FileMetadata) :
    optimizeQuery fmt sql files = files.filter (selected fmt sql) := by
  unfold optimizeQuery
  rw [pruneFiles_eq_filter, pruneFilesByTimePartition_eq_filter, filter_filter]
  refine filter_congr (fun file _ => ?_)
  exact Bool.and_comm _ _

lemma selected_of_no_where {fmt : Formats} {sql : String} (h : whereClause sql = none)
    (file : FileMetadata) : selected fmt sql file := by
  rw [selected, extractTimeRange, extractPredicates, h]
  cases extractPartitionTimeFromPath fmt file.filePath <;> rfl

lemma flatMap_filter_of_nil {α β : Type*} {p : α → Bool} {f : α → List β} {l : List α}
    (h : ∀ a ∈ l, p a = false → f a = []) : (l.filter p).flatMap f = l.flatMap f := by
  induction l with
  | nil => rfl
  | cons a l ih =>
    have hrest := ih (fun b hb => h b (mem_cons_of_mem a hb))
    cases hp : p a with
    | true => rw [filter_cons_of_pos hp, flatMap_cons, flatMap_cons, hrest]
    | false =>
      rw [filter_cons_of_neg (by simp [hp]), flatMap_cons, h a (.head _) hp, hrest]
      rfl

end MinIODB.Query
