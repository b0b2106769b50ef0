import MinIODB.Query.Extraction

/-!
# Soundness of file pruning

A file may be left out of a query when none of its rows satisfies the WHERE clause. The
predicates found in the text of a clause are its comparisons, one by one, whatever
connects them, with the literals in lower case, cut at the point and typed anew. So
leaving a file out is sound for a conjunction of comparisons whose literals survive
this reading and are compared with bounds of their own type.
-/
namespace MinIODB.Query
open Matching List Operator

section

def Literal.lower : Literal → Literal
  | .quoted s => .quoted (toLower s)
  | .number negative digits fraction => .number negative digits fraction

def Comparison.lower (c : Comparison) : Comparison :=
  ⟨toLower c.column, c.comparator, c.literal.lower⟩

lemma toLower_append (l r : List Char) : toLower (l ++ r) = toLower l ++ toLower r :=
  map_append

variable {l : List Char}

lemma Spaces.lower (h : Spaces l) : Spaces (toLower l) := by
  intro c hc
  obtain ⟨a, ha, rfl⟩ := mem_map.mp hc
  rw [isSpace_toLower]
  exact h a ha

lemma OperatorFree.lower (h : OperatorFree l) : OperatorFree (toLower l) := by
  intro c hc
  obtain ⟨a, ha, rfl⟩ := mem_map.mp hc
  rw [isOperator_toLower]
  exact h a ha

lemma Boundary.lower {x y : List Char} (h : Boundary x y) : Boundary (toLower x) (toLower y) := by
  intro a ha b hb hword
  rw [toLower, getLast?_map, Option.mem_def, Option.map_eq_some_iff] at ha
  rw [toLower, head?_map, Option.mem_def, Option.map_eq_some_iff] at hb
  obtain ⟨a', ha', rfl⟩ := ha
  obtain ⟨b', hb', rfl⟩ := hb
  rw [isWord_toLower] at hword ⊢
  exact h a' ha' b' hb' hword

lemma Comparator.toLower_text (c : Comparator) : toLower c.text = c.text := by
  cases c with
  | of operator => cases operator <;> rfl
  | ne bang => cases bang <;> rfl

lemma toLower_eq_quote {c : Char} : c.toLower = quote ↔ c = quote := toLower_eq_iff (by decide)

lemma toLower_escape (s : List Char) : toLower (escape s) = escape (toLower s) := by
  induction s with
  | nil => rfl
  | cons c s ih =>
    simp only [escape, toLower, flatMap_cons, map_cons, map_append] at ih ⊢
    rw [ih]
    by_cases hc : c = quote
    · rw [if_pos hc, if_pos (toLower_eq_quote.mpr hc)]
      rfl
    · rw [if_neg hc, if_neg (fun h => hc (toLower_eq_quote.mp h))]
      rfl

lemma toLower_digits (h : ∀ c ∈ l, c.isDigit) : toLower l = l :=
  (map_congr_left (fun c hc => isDigit_toLower (h c hc))).trans (map_id' l)

lemma Literal.toLower_text {literal : Literal} (h : literal.WellFormed) :
    toLower literal.text = literal.lower.text := by
  cases literal with
  | quoted =>
    have hquote : quote.toLower = quote := toLower_eq_quote.mpr rfl
    simp only [Literal.text, Literal.lower, ← toLower_escape]
    simp [toLower, hquote]
  | number negative digits fraction =>
    obtain ⟨-, hdigits, hfraction⟩ := h
    simp only [Literal.text, Literal.lower, toLower_append, toLower_digits hdigits]
    congr 1
    · cases negative <;> rfl
    · cases fraction with
      | none => rfl
      | some f =>
        have hf := toLower_digits (hfraction f rfl)
        simp only [toLower, Option.elim_some, map_cons] at hf ⊢
        rw [hf]
        rfl

lemma AtomText.lower {c : Comparison} {u : List Char} (h : AtomText c u) :
    AtomText c.lower (toLower u) := by
  refine ⟨⟨?_, ?_⟩, ?_, ?_⟩
  · exact fun hnil => h.column.1 (map_eq_nil_iff.mp hnil)
  · intro a ha
    obtain ⟨b, hb, rfl⟩ := mem_map.mp ha
    rw [isWord_toLower]
    exact h.column.2 b hb
  · have hlit := h.literal
    cases hcase : c.literal with
    | quoted =>
      rw [Comparison.lower, hcase]
      trivial
    | number =>
      rw [hcase] at hlit
      rw [Comparison.lower, hcase]
      exact hlit
  · obtain ⟨l, r, hl, hr, rfl⟩ := h.split
    refine ⟨toLower l, toLower r, hl.lower, hr.lower, ?_⟩
    simp only [toLower_append, Comparator.toLower_text, Literal.toLower_text h.literal]
    rfl

lemma Flat.lower {cs : List Comparison} {t : List Char} (h : Flat cs t) :
    Flat (cs.map Comparison.lower) (toLower t) := by
  induction h with
  | done hf => exact .done hf.lower
  | atom hf hu hfu hrest h ih =>
    rw [toLower_append, toLower_append]
    exact .atom hf.lower hu.lower hfu.lower hrest.lower ih

end

section

variable {word : String} {s t l x y : List Char} {c : Char}

lemma Connective.operatorFree {w : List Char} (h : Connective word s w t)
    (hword : OperatorFree word.toList) : OperatorFree w := by
  obtain ⟨l, kw, r, hl, hkw, hr, rfl⟩ := h.split
  refine hl.operatorFree.append (OperatorFree.append ?_ hr.operatorFree)
  intro c hc
  rw [← isOperator_toLower]
  exact hword c.toLower (by rw [← hkw]; exact mem_map_of_mem hc)

lemma Connective.boundary_append {w : List Char} (h : Connective word s w t)
    (hword : word.toList ≠ []) : Boundary s (w ++ t) := by
  refine boundary_append_right h.left (fun hnil => ?_)
  obtain ⟨l, kw, r, -, hkw, -, rfl⟩ := h.split
  have hkwnil : kw = [] := (append_eq_nil_iff.mp (append_eq_nil_iff.mp hnil).2).1
  rw [hkwnil] at hkw
  exact absurd hkw.symm hword

lemma operatorFree_of_all (h : l.all (fun c => !isOperator c) = true) : OperatorFree l := by
  intro c hc
  rw [all_eq_true] at h
  rw [← Bool.not_eq_true']
  exact h c hc

lemma boundary_of_not_word (h : ∀ b ∈ y.head?, isWord b = false) : Boundary x y :=
  fun _ _ b hb _ => h b hb

lemma boundary_of_not_word_left (h : ∀ a ∈ x.getLast?, isWord a = false) : Boundary x y := by
  intro a ha b _ hword
  rw [h a ha] at hword
  cases hword

lemma Spaces.append_singleton_head (h : Spaces l) (hc : isWord c = false) :
    ∀ b ∈ (l ++ [c]).head?, isWord b = false := by
  intro b hb
  cases l with
  | nil =>
    cases hb
    exact hc
  | cons =>
    cases hb
    exact isSpace_not_word (h b (.head _))

lemma Spaces.cons_getLast (h : Spaces l) (hc : isWord c = false) :
    ∀ a ∈ (c :: l).getLast?, isWord a = false := by
  intro a ha
  rcases mem_cons.mp (mem_of_getLast? ha) with rfl | hmem
  · exact hc
  · exact isSpace_not_word (h a hmem)

lemma Renders.flat {k : ℕ} {w : Clause} (h : Renders k w t) : Flat w.comparisons t := by
  induction h with
  | @compare c u h =>
    have hatom : Flat [c] ([] ++ (u ++ [])) :=
      Flat.atom (fun a ha => absurd ha not_mem_nil) h boundary_nil_left boundary_nil_right
        (.done (fun a ha => absurd ha not_mem_nil))
    rwa [nil_append, append_nil] at hatom
  | @paren e t l r h hl hr ih =>
    have hopen : OperatorFree ('(' :: l) :=
      OperatorFree.append (operatorFree_of_all (l := ['(']) rfl) hl.operatorFree
    have hclose : Flat [] (r ++ [')']) :=
      Flat.done (hr.operatorFree.append (operatorFree_of_all rfl))
    have hinner := ih.append hclose (boundary_of_not_word (hr.append_singleton_head rfl))
    rw [append_nil] at hinner
    exact hinner.prepend hopen (boundary_of_not_word_left (hl.cons_getLast rfl))
  | looser h ih => exact ih
  | not h hw ih => exact ih.prepend (hw.operatorFree (operatorFree_of_all rfl)) hw.right
  | and ha hb hw iha ihb | or ha hb hw iha ihb =>
    exact iha.append (ihb.prepend (hw.operatorFree (operatorFree_of_all rfl)) hw.right)
      (hw.boundary_append (by decide))

lemma Flat.wellFormed {cs : List Comparison} (h : Flat cs t) :
    ∀ c ∈ cs, c.literal.WellFormed := by
  induction h with
  | done => exact nofun
  | atom hf hu hfu hrest h ih =>
    intro c hc
    rcases mem_cons.mp hc with rfl | hc
    · exact hu.literal
    · exact ih c hc

end

section

variable {fmt : Formats} {cs : List Comparison} {clause : List Char}

lemma matchComparison_of_time {columnName : String} {operator : Operator} {l value rest : List Char}
    (hne : columnName.toList ≠ []) (hword : ∀ a ∈ columnName.toList, isWord a)
    (h : matchTimeCondition columnName operator l = some (value, rest)) :
    matchComparison operator true l = some ((columnName.toList, value), rest) := by
  unfold matchTimeCondition at h
  split at h
  · rename_i hprefix
    obtain ⟨l', rfl⟩ := isPrefixOf_iff_prefix.mp hprefix
    rw [drop_left] at h
    have hend : ∀ a ∈ l'.head?, isWord a = false := by
      intro a ha
      rw [Bool.eq_false_iff]
      intro ha'
      cases l' with
      | nil => cases ha
      | cons =>
        cases ha
        rw [matchCondition_of_mute operator true (mute_of_word ha')] at h
        cases h
    obtain ⟨htake, hdrop⟩ := takeWhile_append_of_head hword hend
    simp [matchComparison, htake, hdrop, hne, h]
  · cases h

lemma timeCondition_eq_none (hflat : Flat cs clause) (hp : ∀ c ∈ cs, c.literal.Plain)
    (htime : ∀ c ∈ cs, ∀ s, c.literal = .quoted s → parseTime fmt s = none)
    {columnName : String} (hne : columnName.toList ≠ [])
    (hword : ∀ a ∈ columnName.toList, isWord a) (operator : Operator) :
    timeCondition fmt clause columnName operator = none := by
  unfold timeCondition
  cases hfirst : findFirst (matchTimeCondition columnName operator) clause with
  | none => rfl
  | some value =>
    have hall : Within (fun l => ∀ value rest, matchTimeCondition columnName operator l =
        some (value, rest) → parseTime fmt value = none) clause [] := by
      refine (hflat.within hp operator true).mono (fun l h value rest hmatch => ?_)
      obtain ⟨c, hc, hcaptured⟩ := h _ value rest (matchComparison_of_time hne hword hmatch)
      refine htime c hc value ?_
      unfold Comparison.captured at hcaptured
      split at hcaptured
      · cases hlit : c.literal with
        | quoted =>
          rw [hlit] at hcaptured
          cases hcaptured
          rfl
        | number negative =>
          rw [hlit] at hcaptured
          cases negative <;> cases hcaptured
      · cases hcaptured
    rw [Option.bind_some, findFirst_of_within hall hfirst]
    rfl

lemma timeColumns_word :
    timeColumns.all (fun col => decide (col.toList ≠ []) && col.toList.all isWord) = true := by
  decide

lemma timeRangeOf_eq_none (hflat : Flat cs clause) (hp : ∀ c ∈ cs, c.literal.Plain)
    (htime : ∀ c ∈ cs, ∀ s, c.literal = .quoted s → parseTime fmt s = none) {cols : List String}
    (hcols : cols.all (fun col => decide (col.toList ≠ []) && col.toList.all isWord) = true) :
    timeRangeOf fmt clause cols ⟨none, none⟩ = ⟨none, none⟩ := by
  induction cols with
  | nil => rfl
  | cons col cols ih =>
    rw [all_cons, Bool.and_eq_true, Bool.and_eq_true, decide_eq_true_eq, all_eq_true] at hcols
    obtain ⟨⟨hne, hword⟩, hcols⟩ := hcols
    have hnone : extractTimeConditions fmt clause col ⟨none, none⟩ = ⟨none, none⟩ := by
      simp [extractTimeConditions, timeCondition_eq_none hflat hp htime hne hword]
    rw [timeRangeOf, hnone]
    exact ih hcols

end

section

def Value.Le : Value → Value → Prop
  | .int a, .int b => a ≤ b
  | .int a, .dec b => (a : ℚ) ≤ b
  | .dec a, .int b => a ≤ b
  | .dec a, .dec b => a ≤ b
  | .str a, .str b => a ≤ b
  | _, _ => False

def Bounded (file : FileMetadata) (rows : List Row) : Prop :=
  ∀ row ∈ rows, ∀ col, ∀ v ∈ row col,
    (∀ lo ∈ file.minValues col, lo.Le v) ∧ ∀ hi ∈ file.maxValues col, v.Le hi

variable (fmt : Formats)

def ReadAs (s : List Char) : Value → Prop
  | .int _ => ∃ n, typedValue fmt s = .int n
  | .dec _ => ∃ q, typedValue fmt s = .dec q
  | .str _ => printed fmt (typedValue fmt s) = String.ofList s

def ReadAsInt (digits : List Char) : Value → Prop
  | .int _ => ∃ n, parseInt digits = some n
  | _ => False

def SameKind (file : FileMetadata) (c : Comparison) : Prop :=
  ∀ operator quoted s, c.captured operator quoted = some s →
    ∀ lo ∈ file.minValues c.columnName, ∀ hi ∈ file.maxValues c.columnName,
      if quoted then ReadAs fmt s lo ∧ ReadAs fmt s hi else ReadAsInt s lo ∧ ReadAsInt s hi

structure Comparison.Readable (c : Comparison) : Prop where
  plain : c.literal.Plain
  lower : c.literal.lower = c.literal
  whole : ∀ digits f, c.literal = .number false digits (some f) →
    ∀ operator, c.comparator = .of operator → operator = .gt ∨ operator = .ge

variable {fmt}

lemma Operator.admits_of_holds {α : Type*} [LinearOrder α] (operator : Operator) {lo x hi l : α}
    (hlo : lo ≤ x) (hhi : x ≤ hi) (h : operator.holds (cmp x l)) :
    operator.admits (cmp lo l) (cmp hi l) = true := by
  cases operator <;>
    simp only [holds, admits, bne_iff_ne, beq_iff_eq, ne_eq, Bool.and_eq_true,
      cmp_eq_lt_iff, cmp_eq_gt_iff, cmp_eq_eq_iff, not_lt] at h ⊢
  · exact h.trans hhi
  · exact hlo.trans h
  · exact h.trans_le hhi
  · exact hlo.trans_lt h
  · rw [← h]
    exact ⟨hlo, hhi⟩

lemma cmp_intCast (a b : ℤ) : cmp (a : ℚ) (b : ℚ) = cmp a b :=
  (Int.cast_strictMono (R := ℚ)).cmp_map_eq a b

variable {s digits : List Char} {n : ℤ} {operator : Operator} {lo v hi : Value} {o : Ordering}

lemma typedValue_eq_int : typedValue fmt s = .int n ↔ parseInt s = some n := by
  unfold typedValue
  cases parseInt s with
  | none =>
    cases fmt.parseFloat (String.ofList s) <;> simp
  | some => simp

lemma Operator.holds_of_le (hop : operator = .gt ∨ operator = .ge) {x l l' : ℚ}
    (hl : l' ≤ l) (h : operator.holds (cmp x l)) : operator.holds (cmp x l') := by
  rcases hop with rfl | rfl
  · simp only [holds, beq_iff_eq, cmp_eq_gt_iff] at h ⊢
    exact hl.trans_lt h
  · simp only [holds, bne_iff_ne, ne_eq, cmp_eq_lt_iff, not_lt] at h ⊢
    exact hl.trans h

lemma parseInt_digits (h : ∀ c ∈ digits, c.isDigit)
    (hn : parseInt digits = some n) : n = Nat.ofDigitChars 10 digits 0 := by
  have hsign : ∀ c rest, digits = c :: rest → c ≠ '-' ∧ c ≠ '+' := by
    rintro c rest rfl
    have hc := h c mem_cons_self
    exact ⟨fun heq => by rw [heq] at hc; exact absurd hc (by decide),
      fun heq => by rw [heq] at hc; exact absurd hc (by decide)⟩
  unfold parseInt at hn
  rw [Option.filter_eq_some_iff] at hn
  obtain ⟨hn, -⟩ := hn
  split at hn
  · exact absurd rfl (hsign _ _ rfl).1
  · exact absurd rfl (hsign _ _ rfl).2
  · rw [Option.map_eq_some_iff] at hn
    obtain ⟨m, hm, rfl⟩ := hn
    unfold parseDigits at hm
    split at hm <;> cases hm
    · rfl

lemma fractionOf_nonneg (fraction : Option (List Char)) : 0 ≤ fractionOf fraction := by
  cases fraction with
  | none => exact le_refl 0
  | some =>
    rw [fractionOf, Option.elim_some]
    positivity

lemma admits_quoted
    (hlo : ReadAs fmt s lo) (hhi : ReadAs fmt s hi) (hlv : lo.Le v) (hvh : v.Le hi)
    (ho : compareLiteral fmt v (.quoted s) = some o) (hop : operator.holds o) :
    operator.admits (compareValues fmt lo (typedValue fmt s))
      (compareValues fmt hi (typedValue fmt s)) = true := by
  cases v with
  | int =>
    rw [compareLiteral, Option.map_eq_some_iff] at ho
    obtain ⟨n, hn, rfl⟩ := ho
    have htyped : typedValue fmt s = .int n := typedValue_eq_int.mpr hn
    cases lo with
    | int =>
      cases hi with
      | int =>
        rw [htyped]
        exact operator.admits_of_holds hlv hvh hop
      | dec =>
        obtain ⟨q, hq⟩ := hhi
        rw [htyped] at hq
        cases hq
      | str => exact absurd hvh id
    | dec =>
      obtain ⟨q, hq⟩ := hlo
      rw [htyped] at hq
      cases hq
    | str => exact absurd hlv id
  | dec =>
    cases lo with
    | int =>
      obtain ⟨n, hn⟩ := hlo
      cases hi with
      | int =>
        rw [compareLiteral, hn] at ho
        cases ho
        rw [hn]
        have := operator.admits_of_holds hlv hvh hop
        rwa [cmp_intCast, cmp_intCast] at this
      | dec =>
        obtain ⟨q, hq⟩ := hhi
        rw [hn] at hq
        cases hq
      | str => exact absurd hvh id
    | dec =>
      obtain ⟨q, hq⟩ := hlo
      cases hi with
      | int =>
        obtain ⟨n, hn⟩ := hhi
        rw [hq] at hn
        cases hn
      | dec =>
        rw [compareLiteral, hq] at ho
        cases ho
        rw [hq]
        exact operator.admits_of_holds hlv hvh hop
      | str => exact absurd hvh id
    | str => exact absurd hlv id
  | str =>
    cases ho
    cases lo with
    | str =>
      cases hi with
      | str =>
        have hprinted : printed fmt (typedValue fmt s) = String.ofList s := hlo
        rw [compareValues_str, compareValues_str, hprinted]
        exact operator.admits_of_holds hlv hvh hop
      | int | dec => exact absurd hvh id
    | int | dec => exact absurd hlv id

lemma admits_number {fraction : Option (List Char)} (hdigits : ∀ c ∈ digits, c.isDigit)
    (hwhole : ∀ f, fraction = some f → operator = .gt ∨ operator = .ge)
    (hlo : ReadAsInt digits lo) (hhi : ReadAsInt digits hi) (hlv : lo.Le v) (hvh : v.Le hi)
    (ho : compareLiteral fmt v (.number false digits fraction) = some o)
    (hop : operator.holds o) : operator.admits (compareValues fmt lo (typedValue fmt digits))
      (compareValues fmt hi (typedValue fmt digits)) := by
  cases lo with
  | dec | str => exact absurd hlo id
  | int a =>
    cases hi with
    | dec | str => exact absurd hhi id
    | int b =>
      obtain ⟨n, hn⟩ := hlo
      have hmagnitude : magnitude digits fraction = n + fractionOf fraction := by
        rw [magnitude, parseInt_digits hdigits hn]
        norm_cast
      -- the value of the row as a rational, between the bounds
      obtain ⟨x, hax, hxb, hx⟩ : ∃ x : ℚ, (a : ℚ) ≤ x ∧ x ≤ b ∧
          operator.holds (cmp x (magnitude digits fraction)) = true := by
        cases v with
        | int i =>
          cases ho
          exact ⟨i, Int.cast_le.mpr hlv, Int.cast_le.mpr hvh, hop⟩
        | dec q =>
          cases ho
          exact ⟨q, hlv, hvh, hop⟩
        | str => exact absurd hlv id
      have hread : operator.holds (cmp x (n : ℚ)) := by
        cases fraction with
        | none =>
          rw [hmagnitude, fractionOf, Option.elim_none, add_zero] at hx
          exact hx
        | some f =>
          refine holds_of_le (hwhole f rfl) ?_ hx
          rw [hmagnitude]
          exact le_add_of_nonneg_right (fractionOf_nonneg _)
      have := operator.admits_of_holds hax hxb hread
      rw [cmp_intCast, cmp_intCast] at this
      rw [typedValue_eq_int.mpr hn]
      exact this

lemma rangeMatchesPredicate_of_eval {file : FileMetadata} {rows : List Row} {row : Row}
    {c : Comparison} {quoted : Bool}
    (hbounds : Bounded file rows) (hrow : row ∈ rows) (hwf : c.literal.WellFormed)
    (hread : c.Readable) (hkind : SameKind fmt file c)
    (hcaptured : c.captured operator quoted = some s) (hlo : lo ∈ file.minValues c.columnName)
    (hhi : hi ∈ file.maxValues c.columnName) (heval : c.eval fmt row = some true) :
    rangeMatchesPredicate fmt lo hi ⟨c.columnName, operator, typedValue fmt s⟩ = true := by
  have hsame := hkind operator quoted s hcaptured lo hlo hi hhi
  unfold Comparison.eval at heval
  rw [Option.bind_eq_some_iff] at heval
  obtain ⟨v, hv, heval⟩ := heval
  rw [Option.map_eq_some_iff] at heval
  obtain ⟨o, ho, hop⟩ := heval
  obtain ⟨hlv, hvh⟩ := hbounds row hrow _ v hv
  unfold Comparison.captured at hcaptured
  split at hcaptured
  · rename_i hcomparator
    rw [hcomparator] at hop
    unfold rangeMatchesPredicate
    cases hlit : c.literal with
    | quoted =>
      rw [hlit] at hcaptured ho
      cases quoted with
      | true =>
        cases hcaptured
        exact admits_quoted hsame.1 hsame.2 (hlv lo hlo) (hvh hi hhi) ho hop
      | false => cases hcaptured
    | number negative =>
      rw [hlit] at hcaptured ho hwf
      cases negative with
      | true => cases quoted <;> cases hcaptured
      | false =>
        cases quoted with
        | true => cases hcaptured
        | false =>
          cases hcaptured
          refine admits_number hwf.2.1 (fun f hf => ?_) hsame.1 hsame.2 (hlv lo hlo) (hvh hi hhi) ho hop
          exact hread.whole s f (by rw [hlit, hf]) operator hcomparator
  · cases hcaptured

end

variable {fmt : Formats} {sql : String} {w : Clause} {text front back : List Char}

structure FindsClause (sql : String) (w : Clause) (text front back : List Char) : Prop where
  renders : Renders 0 w text
  found : whereClause sql = some (front ++ (toLower text ++ back))
  frontFree : OperatorFree front
  backFree : OperatorFree back
  frontBoundary : Boundary front (toLower text ++ back)
  backBoundary : Boundary (toLower text) back

lemma FindsClause.flat (h : FindsClause sql w text front back) :
    Flat (w.comparisons.map Comparison.lower) (front ++ (toLower text ++ back)) := by
  have hback := h.renders.flat.lower.append (.done h.backFree) h.backBoundary
  rw [append_nil] at hback
  exact hback.prepend h.frontFree h.frontBoundary

lemma Comparison.Readable.lower_literal {c : Comparison} (h : c.Readable) :
    c.lower.literal = c.literal := h.lower

section
variable (h : FindsClause sql w text front back)
include h

lemma mem_extractPredicates (hread : ∀ c ∈ w.comparisons, c.Readable) {pred : Predicate}
    (hpred : pred ∈ extractPredicates fmt sql) :
    ∃ c ∈ w.comparisons, ∃ quoted s, c.captured pred.operator quoted = some s ∧
      pred = ⟨c.columnName, pred.operator, typedValue fmt s⟩ := by
  have hplain : ∀ c ∈ w.comparisons.map Comparison.lower, c.literal.Plain := by
    intro c hc
    obtain ⟨d, hd, rfl⟩ := mem_map.mp hc
    rw [(hread d hd).lower_literal]
    exact (hread d hd).plain
  rw [extractPredicates, h.found] at hpred
  obtain ⟨p, -, hpred⟩ := mem_flatMap.mp hpred
  rw [h.flat.findAll hplain, mem_map] at hpred
  obtain ⟨found, hfound, rfl⟩ := hpred
  obtain ⟨c, hc, hfound⟩ := mem_flatMap.mp hfound
  obtain ⟨d, hd, rfl⟩ := mem_map.mp hc
  rw [Option.mem_toList, Option.map_eq_some_iff] at hfound
  obtain ⟨s, hs, rfl⟩ := hfound
  refine ⟨d, hd, p.2, s, ?_, rfl⟩
  rw [Comparison.captured, (hread d hd).lower_literal] at hs
  exact hs

lemma extractTimeRange_eq_none (hread : ∀ c ∈ w.comparisons, c.Readable)
    (htime : ∀ c ∈ w.comparisons, ∀ s, c.literal = .quoted s → parseTime fmt s = none) :
    extractTimeRange fmt sql = ⟨none, none⟩ := by
  rw [extractTimeRange, h.found]
  refine timeRangeOf_eq_none h.flat (fun c hc => ?_) (fun c hc s hs => ?_) timeColumns_word
  · obtain ⟨d, hd, rfl⟩ := mem_map.mp hc
    rw [(hread d hd).lower_literal]
    exact (hread d hd).plain
  · obtain ⟨d, hd, rfl⟩ := mem_map.mp hc
    rw [(hread d hd).lower_literal] at hs
    exact htime d hd s hs

lemma selected_of_eval (hconj : w.isConjunction)
    (hread : ∀ c ∈ w.comparisons, c.Readable) {file : FileMetadata} {rows : List Row}
    (hbounds : Bounded file rows) (hkind : ∀ c ∈ w.comparisons, SameKind fmt file c)
    (htime : (∀ c ∈ w.comparisons, ∀ s, c.literal = .quoted s → parseTime fmt s = none) ∨
      extractPartitionTimeFromPath fmt file.filePath = none)
    {row : Row} (hrow : row ∈ rows) (heval : w.eval fmt row = some true) :
    selected fmt sql file = true := by
  rw [selected, Bool.and_eq_true]
  constructor
  · rcases htime with htime | hpath
    · rw [extractTimeRange_eq_none h hread htime]
      cases extractPartitionTimeFromPath fmt file.filePath <;> rfl
    · rw [hpath]
  · rw [fileMatchesPredicates, all_eq_true]
    intro pred hpred
    obtain ⟨c, hc, quoted, s, hcaptured, heq⟩ := mem_extractPredicates h hread hpred
    have hcol : pred.column = c.columnName := by rw [heq]
    rw [hcol]
    cases hlo : file.minValues c.columnName with
    | none => rfl
    | some =>
      cases hhi : file.maxValues c.columnName with
      | none => rfl
      | some =>
        rw [heq]
        exact rangeMatchesPredicate_of_eval hbounds hrow (h.renders.flat.wellFormed c hc) (hread c hc)
          (hkind c hc) hcaptured hlo hhi (Clause.eval_of_conjunction hconj heval c hc)

end

def satisfying (fmt : Formats) (w : Clause) (rows : List Row) : List Row :=
  rows.filter (fun row => w.eval fmt row == some true)

def columnFile (column : String) (lo hi : Value) : FileMetadata :=
  ⟨"f.parquet", fun col => if col = column then some lo else none,
    fun col => if col = column then some hi else none⟩

def columnRow (column : String) (v : Value) : Row := fun col => if col = column then some v else none

lemma bounded_columnFile {column : String} {lo hi v : Value} (hlo : lo.Le v) (hhi : v.Le hi) :
    Bounded (columnFile column lo hi) [columnRow column v] := by
  intro row hrow col w hw
  rw [mem_singleton.mp hrow] at hw
  by_cases hcol : col = column
  · simp only [columnRow, hcol, if_true, Option.mem_some_iff] at hw
    subst hw
    constructor
    · intro b hb
      simp only [columnFile, hcol, if_true, Option.mem_some_iff] at hb
      rw [← hb]
      exact hlo
    · intro b hb
      simp only [columnFile, hcol, if_true, Option.mem_some_iff] at hb
      rw [← hb]
      exact hhi
  · simp [columnRow, hcol] at hw

def overHundred : Comparison := ⟨"amount".toList, .of .gt, .number false "100".toList none⟩

lemma atomText_of_spaced {c : Comparison} {u : List Char} (hcolumn : c.column ≠ [] ∧ c.column.all isWord)
    (hliteral : c.literal.WellFormed)
    (hu : u = c.column ++ ([' '] ++ (c.comparator.text ++ ([' '] ++ c.literal.text)))) : AtomText c u where
  column := ⟨hcolumn.1, all_eq_true.mp hcolumn.2⟩
  literal := hliteral
  split := ⟨[' '], [' '], all_eq_true.mp rfl, all_eq_true.mp rfl, hu⟩

lemma overHundred_text : AtomText overHundred "amount > 100".toList :=
  atomText_of_spaced (by decide) ⟨by decide, all_eq_true.mp rfl, nofun⟩ rfl

lemma finds_of_last {sql : String} {w : Clause} {text : List Char} (h : Renders 0 w text)
    (hfound : whereClause sql = some (' ' :: toLower text)) : FindsClause sql w text [' '] [] where
  renders := h
  found := by
    rw [hfound, append_nil]
    rfl
  frontFree := operatorFree_of_all rfl
  backFree := operatorFree_of_all rfl
  frontBoundary := boundary_of_not_word_left (fun a ha => by cases ha; rfl)
  backBoundary := boundary_nil_right

def DropsRow (sql : String) (w : Clause) (file : FileMetadata) (row : Row) : Prop :=
  (∃ text front back, FindsClause sql w text front back) ∧ Bounded file [row] ∧
    optimizeQuery plainFormats sql [file] = [] ∧ w.eval plainFormats row = some true

lemma dropsRow_of_not_selected {sql : String} {w : Clause} {text : List Char} {column : String}
    {lo hi v : Value} (h : Renders 0 w text) (hfound : whereClause sql = some (' ' :: toLower text))
    (hlo : lo.Le v) (hhi : v.Le hi) (hout : selected plainFormats sql (columnFile column lo hi) = false)
    (heval : w.eval plainFormats (columnRow column v) = some true) :
    DropsRow sql w (columnFile column lo hi) (columnRow column v) := by
  refine ⟨⟨text, [' '], [], finds_of_last h hfound⟩, bounded_columnFile hlo hhi, ?_, heval⟩
  rw [optimizeQuery_eq_filter, filter_singleton, hout]
  rfl

def underTen (column : String) (literal : Literal) : Comparison := ⟨column.toList, .of .lt, literal⟩
def nameIsBob : Comparison := ⟨"name".toList, .of .eq, .quoted "Bob".toList⟩

end MinIODB.Query
