import MinIODB.Query.WhereClause

/-!
# Table names found in a statement

`ExtractTableNames` cleans the text of a statement and then looks for names after the words
`from`, `join`, `update`, `insert into` and `delete from`, and for the first name after `from` in
each subquery. Its patterns start at the beginning of a word or at a parenthesis, and consist of
whole words, runs of white space and single characters, so they are given here over a text that
is already cut into these.
-/
namespace MinIODB.Query.TableExtractor
open Matching List

def reSingleLineComment (l : List Char) : Option (List Char × List Char) :=
  if "--".toList.isPrefixOf l && !l.contains '\n' then some ([], []) else none

def reMultiLineComment (l : List Char) : Option (List Char × List Char) :=
  if "/*".toList.isPrefixOf l then (after "*/".toList (l.drop 2)).map (fun rest => ([], rest)) else none

def reQuotedIdent (mark : Char) (l : List Char) : Option (List Char × List Char) :=
  if l.head? = some mark ∧ l.tail.takeWhile isWord ≠ [] ∧
      (l.tail.dropWhile isWord).head? = some mark then
    some (l.tail.takeWhile isWord, (l.tail.dropWhile isWord).tail)
  else none

def doubleQuote : Char := Char.ofNat 34
def backtick : Char := Char.ofNat 96

def reDoubleQuotedIdent : List Char → Option (List Char × List Char) := reQuotedIdent doubleQuote
def reBacktickIdent : List Char → Option (List Char × List Char) := reQuotedIdent backtick

def reWhitespace (l : List Char) : Option (List Char × List Char) :=
  if l.takeWhile isSpace = [] then none else some ([' '], l.dropWhile isSpace)

def cleanSQL (sql : List Char) : List Char :=
  let sql := replaceAll reSingleLineComment sql
  let sql := replaceAll reMultiLineComment sql
  let sql := replaceAll reDoubleQuotedIdent sql
  let sql := replaceAll reBacktickIdent sql
  replaceAll reWhitespace (trimSpace sql)

inductive Part where
  | word (w : List Char)
  | space
  | other (c : Char)
  deriving DecidableEq

def consWord (c : Char) : List Part → List Part
  | .word w :: ps => .word (c :: w) :: ps
  | ps => .word [c] :: ps

def consSpace : List Part → List Part
  | .space :: ps => .space :: ps
  | ps => .space :: ps

def parts : List Char → List Part
  | [] => []
  | c :: l =>
    if isWord c then consWord c (parts l)
    else if isSpace c then consSpace (parts l)
    else .other c :: parts l

section
variable {l u v : List Char}

variable {c : Char} {qs ps : List Part}

lemma parts_cons_word (h : isWord c) : parts (c :: l) = consWord c (parts l) := by
  rw [parts, if_pos h]

lemma parts_cons_space (h : isSpace c) : parts (c :: l) = consSpace (parts l) := by
  rw [parts, if_neg (by simp [isSpace_not_word h]), if_pos h]

lemma parts_cons_other (hw : isWord c = false) (hs : isSpace c = false) :
    parts (c :: l) = .other c :: parts l := by
  rw [parts, if_neg (by simp [hw]), if_neg (by simp [hs])]

lemma parts_ne_nil (h : l ≠ []) : parts l ≠ [] := by
  obtain ⟨c, l, rfl⟩ := exists_cons_of_ne_nil h
  unfold parts consWord consSpace
  split_ifs
  · split <;> simp
  · split <;> simp
  · simp

@[simp] theorem consSpace_consSpace (ps : List Part) : consSpace (consSpace ps) = consSpace ps := by
  cases ps with
  | nil => rfl
  | cons p => cases p <;> rfl

lemma consWord_append (h : ps ≠ []) : consWord c (ps ++ qs) = consWord c ps ++ qs := by
  obtain ⟨p, ps, rfl⟩ := exists_cons_of_ne_nil h
  cases p <;> rfl

lemma consSpace_append (h : ps ≠ []) : consSpace (ps ++ qs) = consSpace ps ++ qs := by
  obtain ⟨p, ps, rfl⟩ := exists_cons_of_ne_nil h
  cases p <;> rfl

lemma parts_spaces (hne : u ≠ []) (h : ∀ c ∈ u, isSpace c) :
    parts (u ++ v) = consSpace (parts v) := by
  induction u with
  | nil => exact absurd rfl hne
  | cons c u ih =>
    rw [forall_mem_cons] at h
    rw [cons_append, parts_cons_space h.1]
    cases u with
    | nil => rfl
    | cons d u => rw [ih (cons_ne_nil d u) h.2, consSpace_consSpace]

lemma parts_whitespace (l : List Char) : parts (replaceAll reWhitespace l) = parts l := by
  induction hn : l.length using Nat.strong_induction_on generalizing l with
  | _ n ih =>
    cases l with
    | nil => rfl
    | cons c l =>
      by_cases hspace : isSpace c
      · have hsplit := takeWhile_append_dropWhile (p := isSpace) (l := c :: l)
        have hne : (c :: l).takeWhile isSpace ≠ [] := by
          rw [takeWhile_cons_of_pos hspace]
          exact cons_ne_nil c _
        have hshort : ((c :: l).dropWhile isSpace).length < n := by
          rw [dropWhile_cons_of_pos hspace, ← hn]
          exact Nat.lt_succ_of_le (dropWhile_suffix isSpace).length_le
        have hmatch : reWhitespace ((c :: l).takeWhile isSpace ++ (c :: l).dropWhile isSpace) =
            some ([' '], (c :: l).dropWhile isSpace) := by
          rw [hsplit, reWhitespace, if_neg hne]
        have hparts := replaceAll_append_of_match hne hmatch
        rw [hsplit] at hparts
        rw [hparts, singleton_append, parts_cons_space (by decide), ih _ hshort _ rfl,
          ← parts_spaces hne (fun d hd => mem_takeWhile_imp hd), hsplit]
      · have hnone : reWhitespace (c :: l) = none := by
          rw [reWhitespace, if_pos (takeWhile_cons_of_neg hspace)]
        have hstep : replaceAll reWhitespace (c :: l) = c :: replaceAll reWhitespace l := by
          simp [replaceAll, replaceAllFrom, hnone]
        have hrest := ih l.length (by rw [← hn]; exact Nat.lt_succ_self _) l rfl
        rw [hstep, parts, parts, hrest]

lemma parts_not_word (h : ∀ b ∈ v.head?, isWord b = false) (w : List Char) (ps : List Part) :
    parts v ≠ .word w :: ps := by
  cases v with
  | nil => simp [parts]
  | cons b =>
    have hb := h b rfl
    by_cases hspace : isSpace b
    · rw [parts_cons_space hspace]
      unfold consSpace
      split <;> simp
    · rw [parts_cons_other hb (by simpa using hspace)]
      simp

lemma consWord_of_not_word (h : ∀ w qs, ps ≠ .word w :: qs) :
    consWord c ps = .word [c] :: ps := by
  unfold consWord
  split
  · exact absurd rfl (h _ _)
  · rfl

lemma parts_not_space (h : ∀ b ∈ v.head?, isSpace b = false) (ps : List Part) :
    parts v ≠ .space :: ps := by
  cases v with
  | nil => simp [parts]
  | cons b =>
    by_cases hword : isWord b
    · rw [parts_cons_word hword]
      unfold consWord
      split <;> simp
    · rw [parts_cons_other (by simpa using hword) (h b rfl)]
      simp

lemma consSpace_of_not_space (h : ∀ qs, ps ≠ .space :: qs) : consSpace ps = .space :: ps := by
  unfold consSpace
  split
  · exact absurd rfl (h _)
  · rfl

lemma parts_append (hword : ∀ a ∈ u.getLast?, ∀ b ∈ v.head?, isWord a → isWord b = false)
    (hspace : ∀ a ∈ u.getLast?, ∀ b ∈ v.head?, isSpace a → isSpace b = false) :
    parts (u ++ v) = parts u ++ parts v := by
  induction u with
  | nil => rfl
  | cons c u ih =>
    cases u with
    | nil =>
      rw [singleton_append]
      by_cases hw : isWord c
      · rw [parts_cons_word hw, consWord_of_not_word (parts_not_word (fun b hb => hword c rfl b hb hw)),
          parts_cons_word hw]
        rfl
      · rw [Bool.not_eq_true] at hw
        by_cases hs : isSpace c
        · rw [parts_cons_space hs,
            consSpace_of_not_space (parts_not_space (fun b hb => hspace c rfl b hb hs)), parts_cons_space hs]
          rfl
        · rw [Bool.not_eq_true] at hs
          rw [parts_cons_other hw hs, parts_cons_other hw hs]
          rfl
    | cons d u =>
      have ih := ih hword hspace
      have hne := parts_ne_nil (cons_ne_nil d u)
      rw [cons_append]
      by_cases hw : isWord c
      · rw [parts_cons_word hw, ih, consWord_append hne, parts_cons_word hw]
      · rw [Bool.not_eq_true] at hw
        by_cases hs : isSpace c
        · rw [parts_cons_space hs, ih, consSpace_append hne, parts_cons_space hs]
        · rw [Bool.not_eq_true] at hs
          rw [parts_cons_other hw hs, ih, parts_cons_other hw hs]
          rfl

lemma parts_word {w : List Char} (hne : w ≠ []) (h : ∀ c ∈ w, isWord c) : parts w = [.word w] := by
  induction w with
  | nil => exact absurd rfl hne
  | cons c w ih =>
    rw [forall_mem_cons] at h
    rw [parts_cons_word h.1]
    cases w with
    | nil => rfl
    | cons d w =>
      rw [ih (cons_ne_nil d w) h.2]
      rfl

end

def afterWord (kw : String) : List Part → Option (List Part)
  | .word w :: .space :: ps => if toLower w = kw.toList then some ps else none
  | _ => none

def tableName : List Part → Option (List Char × List Part)
  | .word schema :: .other c :: .word name :: ps =>
    if c = '.' then some (name, ps) else some (schema, .other c :: .word name :: ps)
  | .word name :: ps => some (name, ps)
  | _ => none

def afterAlias : List Part → List Part
  | .space :: .word a :: .space :: .word x :: ps =>
    if toLower a = "as".toList then ps else .space :: .word x :: ps
  | .space :: .word _ :: ps => ps
  | ps => ps

def aliasedTable (ps : List Part) : Option (List Char × List Part) :=
  (tableName ps).map (fun p => (p.1, afterAlias p.2))

def fromRegex (ps : List Part) : Option (List Char × List Part) :=
  (afterWord "from" ps).bind aliasedTable

def optionalWord (kw : String) (ps : List Part) : List Part := (afterWord kw ps).getD ps

def joinKind (ps : List Part) : List Part :=
  match afterWord "inner" ps with
  | some ps => ps
  | none =>
    match ["left", "right", "full"].findSome? (fun side => afterWord side ps) with
    | some ps => optionalWord "outer" ps
    | none => optionalWord "cross" ps

def joinRegex (ps : List Part) : Option (List Char × List Part) :=
  (afterWord "join" (joinKind ps)).bind aliasedTable

def updateRegex (ps : List Part) : Option (List Char × List Part) :=
  (afterWord "update" ps).bind aliasedTable

def insertRegex (ps : List Part) : Option (List Char × List Part) :=
  ((afterWord "insert" ps).bind (afterWord "into")).bind tableName

def deleteRegex (ps : List Part) : Option (List Char × List Part) :=
  ((afterWord "delete" ps).bind (afterWord "from")).bind aliasedTable

def fromWord (ps : List Part) : Option (List Char × List Part) :=
  (afterWord "from" ps).bind (fun ps =>
    match ps with
    | .word name :: ps => some (name, ps)
    | _ => none)

def firstFromWord : List Part → Option (List Char × List Part)
  | [] => none
  | p :: ps => (fromWord (p :: ps)).or (firstFromWord ps)

def skipSpace : List Part → List Part
  | .space :: ps => ps
  | ps => ps

def subqueryRegex : List Part → Option (List Char × List Part)
  | .other c :: ps => if c = '(' then (afterWord "select" (skipSpace ps)).bind firstFromWord else none
  | _ => none

def keywords : List String :=
  ["select", "from", "where", "join", "inner", "left", "right", "outer", "on", "as", "and", "or",
    "not", "in", "exists", "between", "like", "is", "null", "true", "false", "union", "group", "by",
    "having", "order", "limit", "offset", "distinct", "count", "sum", "avg", "max", "min", "case",
    "when", "then", "else", "end", "insert", "update", "delete", "create", "drop", "alter", "table",
    "index", "view", "database", "schema"]

def isValidTableName (name : List Char) : Bool :=
  !keywords.contains (String.ofList (toLower name)) &&
    name.head?.any (fun c => isWord c && !c.isDigit) && name.all isWord

def extractTables (regex : List Part → Option (List Char × List Part)) (sql : List Part) :
    List (List Char) :=
  (findAll regex sql).filter isValidTableName

def extractFromTables : List Part → List (List Char) := extractTables fromRegex
def extractJoinTables : List Part → List (List Char) := extractTables joinRegex
def extractUpdateTables : List Part → List (List Char) := extractTables updateRegex
def extractInsertTables : List Part → List (List Char) := extractTables insertRegex
def extractDeleteTables : List Part → List (List Char) := extractTables deleteRegex
def extractSubqueryTables : List Part → List (List Char) := extractTables subqueryRegex

def uniqueStrings (input : List (List Char)) : List (List Char) :=
  (input.filter (· ≠ [])).eraseDups

def extractTableNames (sql : String) : List String :=
  let cleaned := cleanSQL sql.toList
  if cleaned = [] then []
  else
    let ps := parts cleaned
    (uniqueStrings (extractFromTables ps ++ extractJoinTables ps ++ extractUpdateTables ps ++
      extractInsertTables ps ++ extractDeleteTables ps ++ extractSubqueryTables ps)).map String.ofList

example : extractTableNames "SELECT o.id FROM main.orders AS o LEFT JOIN \"users\" u ON o.u = u.id" =
    ["orders", "users"] := by decide +kernel

end MinIODB.Query.TableExtractor
