import Mathlib
import MinIODB.Query.Pruning

/-!
# WHERE clauses and what the patterns find in them

A clause is a boolean combination of comparisons, with the three-valued meaning of SQL,
and `Renders` says which texts stand for it. The patterns of file pruning do not see
this structure: to them a text is a sequence of comparisons with other text in between.
For texts of that shape (`Flat`) the predicates found are exactly the comparisons, in
the order of the patterns.
-/
namespace MinIODB.Query
open Matching List Bool

inductive Comparator where
  | of (operator : Operator)
  | ne (bang : Bool)
  deriving DecidableEq

def Comparator.text : Comparator → List Char
  | .of operator => operator.text
  | .ne true => ['!', '=']
  | .ne false => ['<', '>']

def Operator.holds (operator : Operator) (o : Ordering) : Bool :=
  match operator with
  | .ge => o != .lt
  | .le => o != .gt
  | .gt => o == .gt
  | .lt => o == .lt
  | .eq => o == .eq

def Comparator.holds : Comparator → Ordering → Bool
  | .of operator, o => operator.holds o
  | .ne _, o => o != .eq

inductive Literal where
  | quoted (s : List Char)
  | number (negative : Bool) (digits : List Char) (fraction : Option (List Char))

structure Comparison where
  column : List Char
  comparator : Comparator
  literal : Literal

inductive Clause where
  | compare (c : Comparison)
  | and (a b : Clause)
  | or (a b : Clause)
  | not (a : Clause)

section

/-- A row by the names of its columns, which are lower-case; a missing value is NULL. -/
abbrev Row := String → Option Value

def Comparison.columnName (c : Comparison) : String := String.ofList (toLower c.column)

def fractionOf (fraction : Option (List Char)) : ℚ :=
  fraction.elim 0 (fun f => (Nat.ofDigitChars 10 f 0 : ℚ) / 10 ^ f.length)

def magnitude (digits : List Char) (fraction : Option (List Char)) : ℚ :=
  (Nat.ofDigitChars 10 digits 0 : ℚ) + fractionOf fraction

variable (fmt : Formats)

def compareLiteral : Value → Literal → Option Ordering
  | .int n, .quoted s => (parseInt s).map (fun l => cmp n l)
  | .dec q, .quoted s =>
    match typedValue fmt s with
    | .int l => some (cmp q l)
    | .dec l => some (cmp q l)
    | .str _ => none
  | .str t, .quoted s => some (cmp t (String.ofList s))
  | .int n, .number negative digits fraction =>
    some (cmp (n : ℚ) (if negative then -magnitude digits fraction else magnitude digits fraction))
  | .dec q, .number negative digits fraction =>
    some (cmp q (if negative then -magnitude digits fraction else magnitude digits fraction))
  | .str _, .number _ _ _ => none

def Comparison.eval (row : Row) (c : Comparison) : Option Bool :=
  (row c.columnName).bind (fun v => (compareLiteral fmt v c.literal).map c.comparator.holds)

def kleeneAnd : Option Bool → Option Bool → Option Bool
  | some false, _ => some false
  | _, some false => some false
  | some true, some true => some true
  | _, _ => none

def kleeneOr (a b : Option Bool) : Option Bool :=
  (kleeneAnd (a.map not) (b.map not)).map not

def Clause.eval (row : Row) : Clause → Option Bool
  | .compare c => c.eval fmt row
  | .and a b => kleeneAnd (a.eval row) (b.eval row)
  | .or a b => kleeneOr (a.eval row) (b.eval row)
  | .not a => (a.eval row).map Bool.not

def Clause.comparisons : Clause → List Comparison
  | .compare c => [c]
  | .and a b => a.comparisons ++ b.comparisons
  | .or a b => a.comparisons ++ b.comparisons
  | .not a => a.comparisons

def Clause.isConjunction : Clause → Bool
  | .compare _ => true
  | .and a b => a.isConjunction && b.isConjunction
  | .or _ _ => false
  | .not _ => false

lemma kleeneAnd_eq_true {a b : Option Bool} :
    kleeneAnd a b = some true ↔ a = some true ∧ b = some true := by
  cases a with
  | none => cases b with
    | none => decide
    | some b => cases b <;> decide
  | some a => cases b with
    | none => cases a <;> decide
    | some b => cases a <;> cases b <;> decide

lemma Clause.eval_of_conjunction {fmt : Formats} {row : Row} {w : Clause}
    (hw : w.isConjunction) (h : w.eval fmt row = some true) :
    ∀ c ∈ w.comparisons, c.eval fmt row = some true := by
  induction w with
  | compare =>
    intro c' hc'
    rw [mem_singleton.mp hc']
    exact h
  | and a b iha ihb =>
    rw [Clause.isConjunction, Bool.and_eq_true] at hw
    rw [Clause.eval, kleeneAnd_eq_true] at h
    intro c hc
    rcases mem_append.mp hc with ha | hb
    · exact iha hw.1 h.1 c ha
    · exact ihb hw.2 h.2 c hb
  | or | not => cases hw

end

section

def Spaces (l : List Char) : Prop := ∀ c ∈ l, isSpace c = true

def Boundary (x y : List Char) : Prop :=
  ∀ a ∈ x.getLast?, ∀ b ∈ y.head?, isWord a = true → isWord b = false

def escape (s : List Char) : List Char :=
  s.flatMap (fun c => if c = quote then [quote, quote] else [c])

def Literal.text : Literal → List Char
  | .quoted s => quote :: (escape s ++ [quote])
  | .number negative digits fraction =>
    (if negative then ['-'] else []) ++ digits ++ fraction.elim [] (fun f => '.' :: f)

def Literal.WellFormed : Literal → Prop
  | .quoted _ => True
  | .number _ digits fraction =>
    digits ≠ [] ∧ (∀ c ∈ digits, c.isDigit = true) ∧
      ∀ f ∈ fraction, ∀ c ∈ f, c.isDigit = true

structure AtomText (c : Comparison) (u : List Char) : Prop where
  column : c.column ≠ [] ∧ ∀ a ∈ c.column, isWord a = true
  literal : c.literal.WellFormed
  split : ∃ l r, Spaces l ∧ Spaces r ∧
    u = c.column ++ (l ++ (c.comparator.text ++ (r ++ c.literal.text)))

structure Connective (word : String) (s w t : List Char) : Prop where
  split : ∃ l kw r, Spaces l ∧ toLower kw = word.toList ∧ Spaces r ∧ w = l ++ (kw ++ r)
  left : Boundary s w
  right : Boundary w t

inductive Renders : ℕ → Clause → List Char → Prop
  | compare {c : Comparison} {u : List Char} (h : AtomText c u) : Renders 3 (.compare c) u
  | paren {e : Clause} {t l r : List Char} (h : Renders 0 e t) (hl : Spaces l) (hr : Spaces r) :
      Renders 3 e ('(' :: (l ++ (t ++ (r ++ [')']))))
  | looser {k : ℕ} {e : Clause} {t : List Char} (h : Renders (k + 1) e t) : Renders k e t
  | not {e : Clause} {t w : List Char} (h : Renders 2 e t) (hw : Connective "not" [] w t) :
      Renders 2 (.not e) (w ++ t)
  | and {a b : Clause} {s t w : List Char} (ha : Renders 1 a s) (hb : Renders 2 b t)
      (hw : Connective "and" s w t) : Renders 1 (.and a b) (s ++ (w ++ t))
  | or {a b : Clause} {s t w : List Char} (ha : Renders 0 a s) (hb : Renders 1 b t)
      (hw : Connective "or" s w t) : Renders 0 (.or a b) (s ++ (w ++ t))

def isOperator (c : Char) : Bool := c == '<' || c == '>' || c == '='

def OperatorFree (l : List Char) : Prop := ∀ c ∈ l, isOperator c = false

inductive Flat : List Comparison → List Char → Prop
  | done {f : List Char} (hf : OperatorFree f) : Flat [] f
  | atom {c : Comparison} {cs : List Comparison} {f u rest : List Char} (hf : OperatorFree f)
      (hu : AtomText c u) (hfu : Boundary f u) (hrest : Boundary u rest) (h : Flat cs rest) :
      Flat (c :: cs) (f ++ (u ++ rest))

variable {y x x' y' t : List Char} {cs : List Comparison}

lemma boundary_nil_left : Boundary [] y := by
  intro a ha
  cases ha

lemma boundary_nil_right : Boundary x [] := by
  intro a _ b hb
  cases hb

lemma boundary_append_left (h : Boundary x' y) (h' : x' = [] → Boundary x y) :
    Boundary (x ++ x') y := by
  intro a ha b hb
  cases x' with
  | nil =>
    rw [append_nil] at ha
    exact h' rfl a ha b hb
  | cons c x' =>
    rw [getLast?_append_of_ne_nil _ (cons_ne_nil c x')] at ha
    exact h a ha b hb

lemma boundary_append_right (h : Boundary x y) (h' : y = [] → Boundary x y') :
    Boundary x (y ++ y') := by
  cases y with
  | nil => exact h' rfl
  | cons => exact h

lemma Boundary.of_append_right (h : Boundary x (y ++ y')) : Boundary x y := by
  cases y with
  | nil => exact boundary_nil_right
  | cons => exact h

lemma Boundary.of_append_left (h : Boundary (x ++ x') y) : Boundary x' y := by
  cases x' with
  | nil => exact boundary_nil_left
  | cons c x' =>
    intro a ha
    exact h a (by rw [getLast?_append_of_ne_nil _ (cons_ne_nil c x')]; exact ha)

lemma AtomText.ne_nil {c : Comparison} {u : List Char} (h : AtomText c u) : u ≠ [] := by
  obtain ⟨l, r, -, -, rfl⟩ := h.split
  exact fun hnil => h.column.1 (append_eq_nil_iff.mp hnil).1

lemma Flat.prepend {g : List Char} (hg : OperatorFree g)
    (hgt : Boundary g t) (h : Flat cs t) : Flat cs (g ++ t) := by
  cases h with
  | done hf =>
    refine .done (fun c hc => ?_)
    rcases mem_append.mp hc with hc | hc
    · exact hg c hc
    · exact hf c hc
  | @atom c cs f u rest hf hu hfu hrest h =>
    rw [← append_assoc]
    refine .atom (fun c hc => ?_) hu (boundary_append_left hfu (fun hnil => ?_)) hrest h
    · rcases mem_append.mp hc with hc | hc
      · exact hg c hc
      · exact hf c hc
    · rw [hnil, nil_append] at hgt
      exact hgt.of_append_right

lemma Flat.append {ds : List Comparison} {s : List Char} (hs : Flat cs s) (ht : Flat ds t)
    (hst : Boundary s t) : Flat (cs ++ ds) (s ++ t) := by
  induction hs with
  | done hf => exact ht.prepend hf hst
  | @atom c cs f u rest hf hu hfu hrest h ih =>
    rw [append_assoc, append_assoc]
    have hut : rest = [] → Boundary u t := by
      intro hnil
      rw [hnil, append_nil] at hst
      exact hst.of_append_left
    have hrt : Boundary rest t := hst.of_append_left.of_append_left
    exact .atom hf hu hfu (boundary_append_right hrest hut) (ih hrt)

lemma Spaces.operatorFree {l : List Char} (h : Spaces l) : OperatorFree l := by
  intro c hc
  exact of_isSpace (p := fun c => isOperator c = false) (h c hc) (by decide)

end

variable {c : Char}

lemma isDigit_word (h : c.isDigit) : isWord c := by
  simp [isWord, Char.isAlphanum, h]

lemma isWord_not_operator (h : isWord c) : isOperator c = false := by
  rw [eq_false_iff]
  intro hop
  simp only [isOperator, or_eq_true, beq_iff_eq] at hop
  rcases hop with (rfl | rfl) | rfl <;> exact absurd h (by decide)

lemma isSpace_not_word (h : isSpace c) : isWord c = false :=
  of_isSpace (p := fun c => isWord c = false) h (by decide)

lemma isWord_not_space (h : isWord c) : isSpace c = false := by
  rw [eq_false_iff]
  intro hspace
  rw [isSpace_not_word hspace] at h
  cases h

lemma isOperator_not_word (h : isOperator c) : isWord c = false := by
  rw [eq_false_iff]
  intro hword
  rw [isWord_not_operator hword] at h
  cases h

lemma isOperator_not_space (h : isOperator c) : isSpace c = false := by
  simp only [isOperator, or_eq_true, beq_iff_eq] at h
  rcases h with (rfl | rfl) | rfl <;> decide

lemma isWord_not_trimmed (h : isWord c) : isTrimmed c = false := by
  have hrange : c.toNat = 95 ∨ 48 ≤ c.toNat ∧ c.toNat ≤ 57 ∨ 65 ≤ c.toNat ∧ c.toNat ≤ 90 ∨
      97 ≤ c.toNat ∧ c.toNat ≤ 122 := by
    simp only [isWord, Char.isAlphanum, Char.isAlpha, Char.isUpper, Char.isLower, Char.isDigit,
      or_eq_true, and_eq_true, decide_eq_true_eq, beq_iff_eq, ge_iff_le,
      UInt32.le_iff_toNat_le] at h
    rcases h with ((h | h) | h) | rfl
    · exact .inr (.inr (.inl h))
    · exact .inr (.inr (.inr h))
    · exact .inr (.inl h)
    · exact .inl rfl
  have hblank : c ≠ ' ' := by
    rintro rfl
    exact absurd h (by decide)
  simp only [isTrimmed, or_eq_false_iff, and_eq_false_iff, beq_eq_false_iff_ne,
    decide_eq_false_iff_not]
  refine ⟨⟨⟨⟨⟨⟨⟨⟨⟨⟨hblank, ?_⟩, ?_⟩, ?_⟩, ?_⟩, ?_⟩, ?_⟩, ?_⟩, ?_⟩, ?_⟩, ?_⟩ <;> omega

lemma toLower_eq_or_word (c : Char) : c.toLower = c ∨ (isWord c ∧ isWord c.toLower) := by
  by_cases h : c.isUpper
  · have halpha : c.isAlpha := by simp [Char.isAlpha, h]
    have hlower : c.toLower.isAlpha := by
      rw [Char.isAlpha_toLower_eq_isAlpha]
      exact halpha
    exact .inr ⟨by simp [isWord, Char.isAlphanum, halpha], by simp [isWord, Char.isAlphanum, hlower]⟩
  · exact .inl (Char.toLower_eq_of_not_isUpper h)

lemma toLower_eq_iff {d : Char} (hd : isWord d = false) : c.toLower = d ↔ c = d := by
  have hlower : d.toLower = d := by
    rcases toLower_eq_or_word d with h | ⟨h, -⟩
    · exact h
    · rw [hd] at h
      cases h
  constructor
  · intro h
    rcases toLower_eq_or_word c with hc | ⟨-, hword⟩
    · rw [← hc, h]
    · rw [h, hd] at hword
      cases hword
  · rintro rfl
    exact hlower

@[simp] theorem isTrimmed_toLower (c : Char) : isTrimmed c.toLower = isTrimmed c := by
  rcases toLower_eq_or_word c with h | ⟨h, h'⟩
  · rw [h]
  · rw [isWord_not_trimmed h, isWord_not_trimmed h']

@[simp] theorem isWord_toLower (c : Char) : isWord c.toLower = isWord c := by
  rcases toLower_eq_or_word c with h | ⟨h, h'⟩
  · rw [h]
  · rw [h, h']

@[simp] theorem isSpace_toLower (c : Char) : isSpace c.toLower = isSpace c := by
  rcases toLower_eq_or_word c with h | ⟨h, h'⟩
  · rw [h]
  · rw [isWord_not_space h, isWord_not_space h']

@[simp] theorem isOperator_toLower (c : Char) : isOperator c.toLower = isOperator c := by
  rcases toLower_eq_or_word c with h | ⟨h, h'⟩
  · rw [h]
  · rw [isWord_not_operator h, isWord_not_operator h']

lemma isDigit_toLower (h : c.isDigit) : c.toLower = c := by
  refine Char.toLower_eq_of_not_isUpper (fun hup => ?_)
  simp only [Char.isDigit, Char.isUpper, and_eq_true, decide_eq_true_eq, ge_iff_le,
    UInt32.le_iff_toNat_le] at h hup
  have h9 : '9'.val.toNat = 57 := rfl
  have hA : 'A'.val.toNat = 65 := rfl
  omega

end MinIODB.Query
