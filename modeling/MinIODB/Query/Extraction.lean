import MinIODB.Query.WhereClause

/-!
# The predicates found in a clause

No pattern matches across the text between two comparisons, and inside a comparison
only its own operator and kind of literal match. So the matches of a pattern in a flat
text are the comparisons it fits. The time patterns have no word boundary; still, what
they capture is the literal of one of the comparisons.
-/
namespace MinIODB.Query
open Matching List Literal

def Literal.Plain : Literal → Prop
  | .quoted s => ∀ a ∈ s, a ≠ quote ∧ isOperator a = false
  | .number _ _ _ => True

def Literal.captured : Literal → Bool → Option (List Char)
  | .quoted s, true => some s
  | .number false digits _, false => some digits
  | _, _ => none

def Literal.remainder : Literal → List Char
  | .quoted _ => []
  | .number _ _ fraction => fraction.elim [] (fun f => '.' :: f)

def Comparison.captured (c : Comparison) (operator : Operator) (quoted : Bool) : Option (List Char) :=
  if c.comparator = .of operator then c.literal.captured quoted else none

section

variable (operator : Operator) (quoted : Bool) {l r w x y : List Char}

def Mute (l : List Char) : Prop := ∀ c ∈ (l.dropWhile isSpace).head?, isOperator c = false

lemma matchCondition_of_mute (h : Mute l) : matchCondition operator quoted l = none := by
  unfold matchCondition
  rw [if_neg]
  intro hprefix
  obtain ⟨t, ht⟩ := isPrefixOf_iff_prefix.mp hprefix
  have hhead := h operator.text.head! (by
    rw [← ht]
    cases operator <;> rfl)
  cases operator <;> exact absurd hhead (by decide)

lemma mute_append (hw : OperatorFree w) (hx : Mute x) : Mute (w ++ x) := by
  induction w with
  | nil => exact hx
  | cons c w ih =>
    intro d hd
    rw [cons_append, dropWhile_cons] at hd
    split at hd
    · exact ih (fun a ha => hw a (.tail c ha)) d hd
    · cases hd
      exact hw c (.head _)

lemma mute_of_word {c : Char} (h : isWord c) : Mute (c :: x) := by
  intro d hd
  rw [dropWhile_cons_of_neg (by simp [isWord_not_space h])] at hd
  cases hd
  exact isWord_not_operator h

lemma mute_dropWhile_word (hw : OperatorFree w) (hne : w ≠ []) (hwx : Boundary w x) (hx : Mute x) :
    Mute ((w ++ x).dropWhile isWord) := by
  induction w with
  | nil => exact absurd rfl hne
  | cons c w ih =>
    have hfree : OperatorFree w := fun a ha => hw a (.tail c ha)
    by_cases hc : isWord c
    · rw [cons_append, dropWhile_cons_of_pos hc]
      cases w with
      | nil =>
        cases x with
        | nil => exact hx
        | cons d =>
          have hd : isWord d = false := hwx c rfl d rfl hc
          rw [nil_append, dropWhile_cons_of_neg (by simp [hd])]
          exact hx
      | cons d w =>
        exact ih hfree (cons_ne_nil d w) (Boundary.of_append_left (x := [c]) hwx)
    · rw [cons_append, dropWhile_cons_of_neg hc]
      exact mute_append hw hx

lemma matchComparison_filler (hw : OperatorFree w) (hwx : Boundary w x) (hx : Mute x) :
    Within (fun l => matchComparison operator quoted l = none) w x := by
  intro v w' hsplit hne
  have hfree : OperatorFree w' := fun a ha => hw a (by rw [hsplit]; exact mem_append_right v ha)
  have hmute := mute_dropWhile_word hfree hne (Boundary.of_append_left (hsplit ▸ hwx)) hx
  simp [matchComparison, matchCondition_of_mute operator quoted hmute]

lemma matchComparison_no_word (h : ∀ a ∈ w, isWord a = false) :
    Within (fun l => matchComparison operator quoted l = none) w x := by
  intro v w' hsplit hne
  cases w' with
  | nil => exact absurd rfl hne
  | cons a =>
    have ha : isWord a = false := h a (by rw [hsplit]; exact mem_append_right v mem_cons_self)
    simp [matchComparison, ha]

lemma Comparator.text_not_word (c : Comparator) : ∀ b ∈ c.text, isWord b = false := by
  have h : c.text.all (fun b => !isWord b) = true := by
    cases c with
    | of operator => cases operator <;> rfl
    | ne bang => cases bang <;> rfl
  intro b hb
  rw [all_eq_true] at h
  rw [← Bool.not_eq_true']
  exact h b hb

lemma Comparator.text_not_space (c : Comparator) : ∃ a t, c.text = a :: t ∧ isSpace a = false := by
  cases c with
  | of operator => cases operator <;> exact ⟨_, _, rfl, rfl⟩
  | ne bang => cases bang <;> exact ⟨_, _, rfl, rfl⟩

lemma Spaces.dropWhile (h : Spaces l) (x : List Char) :
    (l ++ x).dropWhile isSpace = x.dropWhile isSpace :=
  dropWhile_append_of_pos h

lemma dropWhile_space_eq_self (h : ∀ c ∈ y.head?, isSpace c = false) :
    y.dropWhile isSpace = y := by
  cases y with
  | nil => rfl
  | cons c =>
    exact dropWhile_cons_of_neg (by simp [h c rfl])

lemma matchValue_of_operator {a : Char} (h : isOperator a) :
    matchValue quoted (a :: x) = none := by
  have hdigit : a.isDigit = false := by
    rw [Bool.eq_false_iff]
    intro hd
    exact absurd (isDigit_word hd) (by simp [isOperator_not_word h])
  have hquote : a ≠ quote := by
    rintro rfl
    exact absurd h (by decide)
  cases quoted <;> simp [matchValue, hdigit, hquote]

lemma Comparator.text_of_isPrefixOf {c : Comparator} (hc : c ≠ .of operator)
    (hx : ∀ b, isOperator b → isPrefixOf [b] x = false)
    (h : operator.text.isPrefixOf (c.text ++ x)) :
    ∃ b, isOperator b ∧ (c.text ++ x).drop operator.text.length = b :: x := by
  have hge : isPrefixOf ['='] x = false := hx '=' rfl
  cases c with
  | of other =>
    cases operator <;> cases other <;>
      first
      | exact absurd rfl hc
      | exact ⟨_, rfl, rfl⟩
      | simp [Comparator.text, Operator.text, isPrefixOf, hge] at h
  | ne bang =>
    cases operator <;> cases bang <;>
      first
      | exact ⟨_, rfl, rfl⟩
      | simp [Comparator.text, Operator.text, isPrefixOf] at h

lemma isPrefixOf_space_append (hr : Spaces r) (hop : ∀ a ∈ y.head?, isOperator a = false)
    {b : Char} (hb : isOperator b) : isPrefixOf [b] (r ++ y) = false := by
  rw [Bool.eq_false_iff]
  intro hprefix
  obtain ⟨z, hz⟩ := isPrefixOf_iff_prefix.mp hprefix
  have hhead : (r ++ y).head? = some b := by
    rw [← hz]
    rfl
  cases r with
  | nil => exact absurd hb (by simp [hop b hhead])
  | cons =>
    cases hhead
    exact absurd (hr b mem_cons_self) (by simp [isOperator_not_space hb])

lemma matchCondition_text (c : Comparator) (hl : Spaces l) (hr : Spaces r)
    (hspace : ∀ a ∈ y.head?, isSpace a = false) (hop : ∀ a ∈ y.head?, isOperator a = false) :
    matchCondition operator quoted (l ++ (c.text ++ (r ++ y))) =
      if c = .of operator then matchValue quoted y else none := by
  obtain ⟨a, t, htext, ha⟩ := c.text_not_space
  have hdrop : (l ++ (c.text ++ (r ++ y))).dropWhile isSpace = c.text ++ (r ++ y) := by
    rw [hl.dropWhile, htext]
    exact dropWhile_space_eq_self (fun b hb => by cases hb; exact ha)
  unfold matchCondition
  rw [hdrop]
  by_cases hc : c = .of operator
  · have hprefix : operator.text.isPrefixOf ((Comparator.of operator).text ++ (r ++ y)) :=
      isPrefixOf_iff_prefix.mpr (prefix_append _ _)
    have hrest : ((Comparator.of operator).text ++ (r ++ y)).drop operator.text.length = r ++ y :=
      drop_left
    rw [if_pos hc, hc, if_pos hprefix, hrest, hr.dropWhile, dropWhile_space_eq_self hspace]
  · rw [if_neg hc]
    split
    · rename_i hprefix
      obtain ⟨b, hb, hdrop⟩ := Comparator.text_of_isPrefixOf operator hc
        (fun b hb => isPrefixOf_space_append hr hop hb) hprefix
      rw [hdrop, dropWhile_space_eq_self (fun d hd => by cases hd; exact isOperator_not_space hb)]
      exact matchValue_of_operator quoted hb
    · rfl

variable {literal : Literal} {digits : List Char}

lemma Literal.text_head (h : literal.WellFormed) :
    ∀ a ∈ (literal.text ++ x).head?, isSpace a = false ∧ isOperator a = false := by
  intro a ha
  cases literal with
  | quoted =>
    cases ha
    decide
  | number negative digits =>
    obtain ⟨hne, hdigits, -⟩ := h
    cases negative with
    | true =>
      cases ha
      decide
    | false =>
      cases digits with
      | nil => exact absurd rfl hne
      | cons =>
        cases ha
        have hword := isDigit_word (hdigits a mem_cons_self)
        exact ⟨isWord_not_space hword, isWord_not_operator hword⟩

lemma escape_eq_self {s : List Char} (h : ∀ a ∈ s, a ≠ quote) : escape s = s := by
  induction s with
  | nil => rfl
  | cons a s ih =>
    have ha : a ≠ quote := h a (.head _)
    have hs := ih (fun b hb => h b (mem_cons_of_mem a hb))
    unfold escape at hs ⊢
    rw [flatMap_cons, if_neg ha, hs]
    rfl

lemma operatorFree_digits (h : ∀ c ∈ digits, c.isDigit) : OperatorFree digits :=
  fun c hc => isWord_not_operator (isDigit_word (h c hc))

lemma OperatorFree.append (hl : OperatorFree l) (hr : OperatorFree r) : OperatorFree (l ++ r) := by
  intro c hc
  rcases mem_append.mp hc with hc | hc
  · exact hl c hc
  · exact hr c hc

lemma Literal.remainder_operatorFree (h : literal.WellFormed) :
    OperatorFree literal.remainder := by
  cases literal with
  | quoted => exact nofun
  | number negative digits fraction =>
    cases fraction with
    | none => exact nofun
    | some f =>
      have hpoint : OperatorFree ['.'] := fun c hc => by rw [mem_singleton.mp hc]; rfl
      exact hpoint.append (operatorFree_digits (h.2.2 f rfl))

lemma Literal.text_operatorFree (h : literal.WellFormed) (hp : literal.Plain) :
    OperatorFree literal.text := by
  have hquote : OperatorFree [quote] := fun c hc => by rw [mem_singleton.mp hc]; rfl
  cases literal with
  | quoted s =>
    have hs : OperatorFree (escape s) := by
      rw [escape_eq_self (fun a ha => (hp a ha).1)]
      exact fun a ha => (hp a ha).2
    exact hquote.append (hs.append hquote)
  | number negative digits fraction =>
    have hsign : OperatorFree (if negative then ['-'] else []) := by
      intro c hc
      cases negative with
      | true => rw [mem_singleton.mp hc]; rfl
      | false => cases hc
    exact (hsign.append (operatorFree_digits h.2.1)).append
      (remainder_operatorFree (show (number negative digits fraction).WellFormed from h))

lemma digits_end {negative : Bool} {fraction : Option (List Char)}
    (h : (number negative digits fraction).WellFormed)
    (hx : Boundary (number negative digits fraction).text x) :
    ∀ a ∈ ((number negative digits fraction).remainder ++ x).head?, a.isDigit = false := by
  intro a ha
  cases fraction with
  | some =>
    cases ha
    decide
  | none =>
    obtain ⟨hne, hdigits, -⟩ := h
    have hlast : digits.getLast hne ∈ digits.getLast? := getLast?_eq_getLast_of_ne_nil hne
    have hword := isDigit_word (hdigits _ (getLast_mem hne))
    have hbound : Boundary digits x := by
      have htext : (number negative digits none).text =
          (if negative then ['-'] else []) ++ digits := append_nil _
      rw [htext] at hx
      exact hx.of_append_left
    rw [Bool.eq_false_iff]
    intro hdigit
    have := hbound _ hlast a ha hword
    rw [isDigit_word hdigit] at this
    cases this

lemma takeWhile_append_of_head {p : Char → Bool} (hl : ∀ a ∈ l, p a)
    (hx : ∀ a ∈ x.head?, p a = false) : (l ++ x).takeWhile p = l ∧ (l ++ x).dropWhile p = x := by
  rw [takeWhile_append_of_pos hl, dropWhile_append_of_pos hl]
  cases x with
  | nil => exact ⟨append_nil l, rfl⟩
  | cons a => simp [hx a rfl]

lemma matchValue_text (h : literal.WellFormed) (hp : literal.Plain)
    (hx : Boundary literal.text x) : matchValue quoted (literal.text ++ x) =
      (literal.captured quoted).map (fun v => (v, literal.remainder ++ x)) := by
  cases literal with
  | quoted s =>
    have hs : ∀ a ∈ s, (a != quote) = true := fun a ha => bne_iff_ne.mpr (hp a ha).1
    have htext : (Literal.quoted s).text ++ x = quote :: (s ++ (quote :: x)) := by
      simp [Literal.text, escape_eq_self (fun a ha => (hp a ha).1)]
    rw [htext]
    cases quoted with
    | true =>
      simp [matchValue, captured, remainder, takeWhile_append_of_pos hs,
        dropWhile_append_of_pos hs]
    | false => rfl
  | number negative digits fraction =>
    have hend := digits_end h hx
    obtain ⟨hne, hdigits, -⟩ := h
    cases negative with
    | true => cases quoted <;> rfl
    | false =>
      have htext : (number false digits fraction).text ++ x =
          digits ++ ((number false digits fraction).remainder ++ x) :=
        append_assoc digits _ x
      obtain ⟨htake, hdrop⟩ := takeWhile_append_of_head hdigits hend
      rw [htext]
      cases quoted with
      | false =>
        simp only [matchValue, htake, hdrop, captured, Option.map_some]
        rw [if_neg Bool.false_ne_true, if_neg hne]
      | true =>
        cases digits with
        | nil => exact absurd rfl hne
        | cons d =>
          have hd : d ≠ quote := by
            rintro rfl
            exact absurd (hdigits quote (.head _)) (by decide)
          simp [matchValue, captured, hd]

end

section

variable (operator : Operator) (quoted : Bool) {c : Comparison} {l r u w x : List Char}

def Comparison.tail (c : Comparison) (l r : List Char) : List Char :=
  l ++ (c.comparator.text ++ (r ++ c.literal.text))

lemma tail_head (hl : Spaces l) : ∀ a ∈ (c.tail l r ++ x).head?, isWord a = false := by
  intro a ha
  cases l with
  | cons =>
    cases ha
    exact isSpace_not_word (hl a (.head _))
  | nil =>
    obtain ⟨b, t, htext, -⟩ := c.comparator.text_not_space
    have hword := c.comparator.text_not_word
    rw [Comparison.tail, htext] at ha
    cases ha
    exact hword a (by rw [htext]; exact mem_cons_self)

lemma matchComparison_column (hlit : c.literal.WellFormed) (hp : c.literal.Plain)
    (hx : Boundary c.literal.text x) (hl : Spaces l) (hr : Spaces r)
    (hword : ∀ a ∈ w, isWord a) (hw : w ≠ []) :
    matchComparison operator quoted (w ++ (c.tail l r ++ x)) =
      (c.captured operator quoted).map (fun value => ((w, value), c.literal.remainder ++ x)) := by
  obtain ⟨htake, hdrop⟩ := takeWhile_append_of_head hword (tail_head (c := c) (r := r) (x := x) hl)
  have htail : c.tail l r ++ x = l ++ (c.comparator.text ++ (r ++ (c.literal.text ++ x))) := by
    simp [Comparison.tail]
  have hhead := text_head (x := x) hlit
  have hcondition := matchCondition_text operator quoted c.comparator hl hr
    (fun a ha => (hhead a ha).1) (fun a ha => (hhead a ha).2)
  rw [matchValue_text quoted hlit hp hx] at hcondition
  simp only [matchComparison, htake, hdrop, hw, if_false]
  rw [htail, hcondition, Comparison.captured]
  split
  · rw [Option.map_map]
    rfl
  · rfl

lemma matchComparison_tail (hlit : c.literal.WellFormed) (hp : c.literal.Plain)
    (hx : Boundary c.literal.text x) (hmute : Mute x) (hl : Spaces l) (hr : Spaces r) :
    Within (fun l => matchComparison operator quoted l = none) (c.tail l r) x := by
  refine (matchComparison_no_word operator quoted (fun a ha => isSpace_not_word (hl a ha))).append ?_
  refine (matchComparison_no_word operator quoted c.comparator.text_not_word).append ?_
  refine (matchComparison_no_word operator quoted (fun a ha => isSpace_not_word (hr a ha))).append ?_
  exact matchComparison_filler operator quoted (c.literal.text_operatorFree hlit hp) hx hmute

lemma AtomText.within (hu : AtomText c u) (hp : c.literal.Plain) (hux : Boundary u x)
    (hmute : Mute x) :
    Within (fun l => ∀ name value rest, matchComparison operator quoted l = some ((name, value), rest) →
      c.captured operator quoted = some value) u x := by
  obtain ⟨l, r, hl, hr, rfl⟩ := hu.split
  have hx : Boundary c.literal.text x :=
    hux.of_append_left.of_append_left.of_append_left.of_append_left
  refine Within.append (fun v w hcol hw name value rest hmatch => ?_) ?_
  · have hword : ∀ a ∈ w, isWord a :=
      fun a ha => hu.column.2 a (by rw [hcol]; exact mem_append_right v ha)
    have hcolumn := matchComparison_column operator quoted hu.literal hp hx
      hl hr hword hw
    rw [Comparison.tail] at hcolumn
    rw [hcolumn, Option.map_eq_some_iff] at hmatch
    obtain ⟨value', hcaptured, heq⟩ := hmatch
    cases heq
    exact hcaptured
  · refine (matchComparison_tail operator quoted hu.literal hp hx hmute hl
      hr).mono (fun l hnone name value rest hmatch => ?_)
    rw [hnone] at hmatch
    cases hmatch

lemma Literal.text_eq_append_remainder (literal : Literal) :
    ∃ front, literal.text = front ++ literal.remainder := by
  cases literal with
  | quoted => exact ⟨_, (append_nil _).symm⟩
  | number => exact ⟨_, rfl⟩

lemma AtomText.findAll (hu : AtomText c u) (hp : c.literal.Plain) (hux : Boundary u x)
    (hmute : Mute x) : findAll (matchComparison operator quoted) (u ++ x) =
      ((c.captured operator quoted).map (fun value => (c.column, value))).toList ++
        findAll (matchComparison operator quoted) x := by
  cases hcaptured : c.captured operator quoted with
  | none =>
    refine findAll_append_of_none ((hu.within operator quoted hp hux hmute).mono (fun l h => ?_))
    cases hm : matchComparison operator quoted l with
    | none => rfl
    | some p =>
      have := h p.1.1 p.1.2 p.2 hm
      rw [hcaptured] at this
      cases this
  | some =>
    obtain ⟨l, r, hl, hr, rfl⟩ := hu.split
    have hx : Boundary c.literal.text x :=
      hux.of_append_left.of_append_left.of_append_left.of_append_left
    have hcolumn := matchComparison_column operator quoted hu.literal hp hx
      hl hr hu.column.2 hu.column.1
    obtain ⟨front, hfront⟩ := c.literal.text_eq_append_remainder
    have hsplit : c.column ++ (c.tail l r ++ x) =
        (c.column ++ (l ++ (c.comparator.text ++ (r ++ front)))) ++ (c.literal.remainder ++ x) := by
      simp [Comparison.tail, hfront]
    have hne : c.column ++ (l ++ (c.comparator.text ++ (r ++ front))) ≠ [] :=
      fun hnil => hu.column.1 (append_eq_nil_iff.mp hnil).1
    have hremainder : Boundary c.literal.remainder x := by
      rw [hfront] at hx
      exact hx.of_append_left
    rw [hcaptured, Option.map_some, hsplit] at hcolumn
    rw [← Comparison.tail, append_assoc, hsplit, findAll_append_of_match hne hcolumn,
      findAll_append_of_none
      (matchComparison_filler operator quoted (remainder_operatorFree hu.literal) hremainder hmute)]
    rfl

end

variable {cs : List Comparison} {t : List Char}

lemma Flat.mute (h : Flat cs t) : Mute t := by
  have hnil : Mute [] := fun c hc => by cases hc
  cases h with
  | done hf =>
    have := mute_append hf hnil
    rwa [append_nil] at this
  | @atom c cs f u rest hf hu hfu hrest h =>
    refine mute_append hf ?_
    obtain ⟨l, r, -, -, rfl⟩ := hu.split
    obtain ⟨hne, hword⟩ := hu.column
    cases hcol : c.column with
    | nil => exact absurd hcol hne
    | cons a => exact mute_of_word (hword a (by rw [hcol]; exact mem_cons_self))

lemma AtomText.boundary_append {c : Comparison} {f u rest : List Char} (hu : AtomText c u)
    (h : Boundary f u) : Boundary f (u ++ rest) :=
  boundary_append_right h (fun hnil => absurd hnil hu.ne_nil)

lemma AtomText.mute {c : Comparison} {u rest : List Char} (hu : AtomText c u)
    (hur : Boundary u rest) (h : Flat cs rest) : Mute (u ++ rest) := by
  have hflat : Flat (c :: cs) ([] ++ (u ++ rest)) :=
    Flat.atom (fun a ha => absurd ha not_mem_nil) hu boundary_nil_left hur h
  exact hflat.mute

lemma Flat.findAll (h : Flat cs t) (hp : ∀ c ∈ cs, c.literal.Plain) (operator : Operator)
    (quoted : Bool) : findAll (matchComparison operator quoted) t = cs.flatMap (fun c =>
        ((c.captured operator quoted).map (fun value => (c.column, value))).toList) := by
  induction h with
  | @done f hf =>
    have hnone := findAll_append_of_none (matchComparison_filler operator quoted hf (boundary_nil_right) (show Mute [] from fun c hc => by cases hc))
    rw [append_nil] at hnone
    exact hnone
  | @atom c cs f u rest hf hu hfu hrest h ih =>
    rw [findAll_append_of_none (matchComparison_filler operator quoted hf (hu.boundary_append hfu)
        (hu.mute hrest h)),
      hu.findAll operator quoted (hp c (.head _)) hrest h.mute,
      ih (fun d hd => hp d (.tail c hd)), flatMap_cons]

lemma Flat.within (h : Flat cs t) (hp : ∀ c ∈ cs, c.literal.Plain) (operator : Operator)
    (quoted : Bool) :
    Within (fun l => ∀ name value rest, matchComparison operator quoted l = some ((name, value), rest) →
      ∃ c ∈ cs, c.captured operator quoted = some value) t [] := by
  induction h with
  | @done f hf =>
    refine (matchComparison_filler operator quoted hf boundary_nil_right
      (fun c hc => by cases hc)).mono (fun l hnone name value rest hmatch => ?_)
    rw [hnone] at hmatch
    cases hmatch
  | @atom c cs f u rest hf hu hfu hrest h ih =>
    refine Within.append ?_ (Within.append ?_ ?_)
    · rw [append_nil]
      refine (matchComparison_filler operator quoted hf
        (hu.boundary_append hfu) (hu.mute hrest h)).mono (fun l hnone name value rest hmatch => ?_)
      rw [hnone] at hmatch
      cases hmatch
    · rw [append_nil]
      exact (hu.within operator quoted (hp c (.head _)) hrest h.mute).mono
        (fun l h name value rest hmatch => ⟨c, mem_cons_self, h name value rest hmatch⟩)
    · refine (ih (fun d hd => hp d (.tail c hd))).mono (fun l h name value rest hmatch => ?_)
      obtain ⟨d, hd, hcaptured⟩ := h name value rest hmatch
      exact ⟨d, .tail c hd, hcaptured⟩

end MinIODB.Query
