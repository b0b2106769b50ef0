import Mathlib.Tactic

/-!
# Glob patterns

The patterns of Redis: `*` stands for any text, `?` for one character, `[...]` for one
character of a class, which may be negated by `^` and hold ranges, and a backslash takes
the meaning from the next character. A pattern is read into tokens, and the tokens are
matched against a non-empty text.
-/
namespace MinIODB.Glob
open List String

def backslash : Char := Char.ofNat 92

/-- A part of a class: the characters between two bounds, in either order. -/
structure Range where
  first : Char
  last : Char
  deriving DecidableEq

def Range.contains (r : Range) (c : Char) : Bool :=
  (r.first ≤ c && c ≤ r.last) || (r.last ≤ c && c ≤ r.first)

inductive Token where
  | many
  | one
  | oneOf (negated : Bool) (ranges : List Range)
  | literal (c : Char)
  deriving DecidableEq

/-- The ranges of a class up to its bracket, and the pattern after it. A class that is
not closed ends with the pattern. -/
def readRanges : List Char → List Range × List Char
  | [] => ([], [])
  | [c] => if c = ']' then ([], []) else ([⟨c, c⟩], [])
  | [c, d] =>
    if c = backslash then ([⟨d, d⟩], [])
    else if c = ']' then ([], [d])
    else (⟨c, c⟩ :: (readRanges [d]).1, (readRanges [d]).2)
  | c :: d :: e :: rest =>
    if c = backslash then (⟨d, d⟩ :: (readRanges (e :: rest)).1, (readRanges (e :: rest)).2)
    else if c = ']' then ([], d :: e :: rest)
    else if d = '-' then (⟨c, e⟩ :: (readRanges rest).1, (readRanges rest).2)
    else (⟨c, c⟩ :: (readRanges (d :: e :: rest)).1, (readRanges (d :: e :: rest)).2)

def readClass (p : List Char) : Token × List Char :=
  if p.head? = some '^' then (.oneOf true (readRanges p.tail).1, (readRanges p.tail).2)
  else (.oneOf false (readRanges p).1, (readRanges p).2)

/-- The tokens of a pattern. Every token takes at least one character, which the first
argument counts down. -/
def readTokens : ℕ → List Char → List Token
  | 0, _ => []
  | _, [] => []
  | fuel + 1, c :: p =>
    if c = '*' then .many :: readTokens fuel p
    else if c = '?' then .one :: readTokens fuel p
    else if c = '[' then (readClass p).1 :: readTokens fuel (readClass p).2
    else if c = backslash then
      match p with
      | [] => [.literal c]
      | d :: p => .literal d :: readTokens fuel p
    else .literal c :: readTokens fuel p

def tokens (p : List Char) : List Token := readTokens p.length p

def matchTokens : List Token → List Char → Bool
  | [], s => s.isEmpty
  | .many :: ts, s => s.tails.any (matchTokens ts)
  | .one :: ts, s =>
    match s with
    | [] => false
    | _ :: s => matchTokens ts s
  | .oneOf negated ranges :: ts, s =>
    match s with
    | [] => false
    | c :: s => (negated ^^ ranges.any (fun r => r.contains c)) && matchTokens ts s
  | .literal d :: ts, s =>
    match s with
    | [] => false
    | c :: s => d == c && matchTokens ts s

/-- Whether a text matches a pattern. -/
def isMatch (pattern text : String) : Bool := matchTokens (tokens pattern.toList) text.toList

/-- A character with no meaning of its own. -/
def isPlain (c : Char) : Bool := c != '*' && c != '?' && c != '[' && c != backslash

lemma readTokens_plain {l : List Char} (h : ∀ c ∈ l, isPlain c) (p : List Char) {fuel : ℕ}
    (hfuel : l.length ≤ fuel) :
    readTokens fuel (l ++ p) = l.map .literal ++ readTokens (fuel - l.length) p := by
  induction l generalizing fuel with
  | nil => rfl
  | cons c l ih =>
    cases fuel with
    | zero => exact absurd hfuel (by simp)
    | succ =>
      have hc := h c mem_cons_self
      simp only [isPlain, Bool.and_eq_true, bne_iff_ne] at hc
      have hrest := ih (fun d hd => h d (mem_cons_of_mem c hd)) (Nat.le_of_succ_le_succ hfuel)
      simp [readTokens, hc, hrest]

lemma matchTokens_literals (l : List Char) (ts : List Token) (s : List Char) :
    matchTokens (l.map .literal ++ ts) s ↔ ∃ rest, s = l ++ rest ∧ matchTokens ts rest := by
  induction l generalizing s with
  | nil => simp
  | cons c l ih =>
    cases s with
    | nil => simp [matchTokens]
    | cons =>
      simp only [map_cons, cons_append, matchTokens, Bool.and_eq_true, beq_iff_eq, ih,
        List.cons.injEq]
      constructor
      · rintro ⟨rfl, rest, rfl, h⟩
        exact ⟨rest, ⟨rfl, rfl⟩, h⟩
      · rintro ⟨rest, ⟨rfl, rfl⟩, h⟩
        exact ⟨rfl, rest, rfl, h⟩

lemma matchTokens_many_end (s : List Char) : matchTokens [.many] s := by
  simp only [matchTokens, any_eq_true, mem_tails]
  exact ⟨[], nil_suffix, rfl⟩

/-- A plain text followed by a star matches the texts that begin with it. -/
lemma isMatch_plain_star {pre text : String} (h : ∀ c ∈ pre.toList, isPlain c) :
    isMatch (pre ++ "*") text = true ↔ pre.toList <+: text.toList := by
  have htokens : tokens (pre ++ "*").toList = pre.toList.map .literal ++ [.many] := by
    have hlength : (pre ++ "*").toList.length - pre.toList.length = 1 := by
      simp [toList_append]
    rw [tokens, toList_append, readTokens_plain h _ (by simp)]
    rw [toList_append] at hlength
    rw [hlength]
    rfl
  rw [isMatch, htokens, matchTokens_literals]
  constructor
  · rintro ⟨rest, hrest, -⟩
    exact ⟨rest, hrest.symm⟩
  · rintro ⟨rest, hrest⟩
    exact ⟨rest, hrest.symm, matchTokens_many_end rest⟩

end MinIODB.Glob
