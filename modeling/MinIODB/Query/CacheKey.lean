import MinIODB.Query.WhereClause

/-!
# Keys of the query cache

The answer to a query is stored under a hash of the query and its tables. The text is
normalised first: white space is collapsed in the whole text, and then letters are put in
lower case outside of what a scanner of quotes and backslashes takes for string literals.

Two texts are the same query when they differ in letter case and in the amount of white
space only, and that outside of string literals and quoted identifiers. In SQL a quote in a
literal is doubled and a backslash is a character like any other.
-/
namespace MinIODB.Query
open List

def fields (l : List Char) : List (List Char) :=
  (l.splitOnP isTrimmed).filter (fun w => !w.isEmpty)

def foldOutside : Bool → Bool → List Char → List Char
  | _, _, [] => []
  | inSingleQuote, true, ch :: rest => ch :: foldOutside inSingleQuote false rest
  | inSingleQuote, false, ch :: rest =>
    if ch = '\\' then ch :: foldOutside inSingleQuote true rest
    else if ch = quote then
      match rest with
      | next :: rest' =>
        if inSingleQuote = true ∧ next = quote then ch :: next :: foldOutside inSingleQuote false rest'
        else ch :: foldOutside (!inSingleQuote) false (next :: rest')
      | [] => [ch]
    else if inSingleQuote then ch :: foldOutside inSingleQuote false rest
    else ch.toLower :: foldOutside inSingleQuote false rest

def normalizeQuery (query : List Char) : List Char :=
  foldOutside false false ([' '].intercalate (fields (trimSpace query)))

def generateCacheKey (hash : String → String) (cacheKeyPrefix query : String) (tables : List String) :
    String :=
  cacheKeyPrefix ++ hash (String.ofList
    (normalizeQuery query.toList ++ '|' :: [','].intercalate (tables.map String.toList)))

inductive Region where
  | plain | literal | identifier
  deriving DecidableEq

def Region.next : Region → Char → Region
  | .plain, c => if c = quote then .literal else if c = '"' then .identifier else .plain
  | .literal, c => if c = quote then .plain else .literal
  | .identifier, c => if c = '"' then .plain else .identifier

def Region.fold : Region → Char → Char
  | .plain, c => c.toLower
  | _, c => c

def canonicalFrom : Region → Bool → List Char → List Char
  | _, _, [] => []
  | r, gap, c :: cs =>
    if r = .plain ∧ isTrimmed c = true then canonicalFrom r true cs
    else (if gap then [' '] else []) ++ r.fold c :: canonicalFrom (r.next c) false cs

def canonical (query : String) : List Char :=
  canonicalFrom .plain false (query.toList.dropWhile isTrimmed)

def SameQuery (q q' : String) : Prop := canonical q = canonical q'

instance (q q' : String) : Decidable (SameQuery q q') :=
  inferInstanceAs (Decidable (canonical q = canonical q'))

/-- The text can be normalised without harm: quotes are closed, white space in a quoted
region is single spaces, a quoted identifier has no capital letter and no single quote, and
no backslash stands before a single quote. The flags tell whether the character before is
white space and whether it is a backslash. -/
def normalizesWell : Region → Bool → Bool → List Char → Bool
  | r, _, _, [] => decide (r = .plain)
  | r, gap, escaped, c :: cs =>
    (decide (c ≠ quote) || (!escaped && decide (r ≠ .identifier))) &&
      (decide (r = .plain) || !isTrimmed c || (decide (c = ' ') && !gap)) &&
      (decide (r ≠ .identifier) || decide (c.toLower = c)) &&
      normalizesWell (r.next c) (isTrimmed c) (decide (c = '\\')) cs

def NormalizesWell (query : String) : Prop :=
  normalizesWell .plain false false query.toList = true

instance (query : String) : Decidable (NormalizesWell query) :=
  inferInstanceAs (Decidable (normalizesWell .plain false false query.toList = true))

def collapse : Bool → List Char → List Char
  | _, [] => []
  | gap, c :: cs =>
    if isTrimmed c then collapse true cs
    else (if gap then [' '] else []) ++ c :: collapse false cs

lemma collapse_false_cons {c : Char} (hc : isTrimmed c = false) (cs : List Char) :
    collapse false (c :: cs) = c :: collapse false cs := by
  rw [collapse, if_neg (by simp [hc])]
  rfl

lemma collapse_true_cons {c : Char} (hc : isTrimmed c = false) (cs : List Char) :
    collapse true (c :: cs) = ' ' :: c :: collapse false cs := by
  rw [collapse, if_neg (by simp [hc])]
  rfl

lemma collapse_space {c : Char} (hc : isTrimmed c) (gap : Bool) (cs : List Char) :
    collapse gap (c :: cs) = collapse true cs := by
  rw [collapse, if_pos hc]

lemma intercalate_push (c : Char) (w : List Char) (ws : List (List Char)) :
    [' '].intercalate ((c :: w) :: ws) = c :: [' '].intercalate (w :: ws) := by
  cases ws <;> rfl

lemma collapse_eq_intercalate (l : List Char) :
    collapse true l = [' '].intercalate ([] :: fields l) ∧ ∀ w ws, l.splitOnP isTrimmed = w :: ws →
      collapse false l = [' '].intercalate (w :: ws.filter (fun w => !w.isEmpty)) := by
  induction l with
  | nil =>
    refine ⟨rfl, fun w ws h => ?_⟩
    cases h
    rfl
  | cons c cs ih =>
    obtain ⟨w, ws, hsplit⟩ := exists_cons_of_ne_nil (splitOnP_ne_nil isTrimmed cs)
    have hfalse := ih.2 w ws hsplit
    by_cases hc : isTrimmed c
    · have hcons : (c :: cs).splitOnP isTrimmed = [] :: cs.splitOnP isTrimmed := by
        rw [splitOnP_cons_eq_if_modifyHead, if_pos hc]
      refine ⟨?_, fun w' ws' h => ?_⟩
      · rw [collapse_space hc, ih.1, fields, fields, hcons]
        rfl
      · rw [hcons] at h
        cases h
        rw [collapse_space hc, ih.1]
        rfl
    · have hcons : (c :: cs).splitOnP isTrimmed = (c :: w) :: ws := by
        rw [splitOnP_cons_eq_if_modifyHead, if_neg hc, hsplit]
        rfl
      rw [Bool.not_eq_true] at hc
      refine ⟨?_, fun w' ws' h => ?_⟩
      · rw [collapse_true_cons hc, hfalse, fields, hcons, ← intercalate_push]
        rfl
      · rw [hcons] at h
        cases h
        rw [collapse_false_cons hc, hfalse, intercalate_push]

lemma collapse_append {l w : List Char} (hw : ∀ c ∈ w, isTrimmed c) (gap : Bool) :
    collapse gap (l ++ w) = collapse gap l := by
  induction l generalizing gap with
  | nil =>
    induction w generalizing gap with
    | nil => rfl
    | cons c cs ih =>
      exact (collapse_space (hw c (.head _)) gap cs).trans
        (ih (fun d hd => hw d (.tail c hd)) true)
  | cons c cs ih => rw [cons_append, collapse, collapse, ih, ih]

lemma intercalate_fields (l : List Char) :
    [' '].intercalate (fields (trimSpace l)) = collapse false (l.dropWhile isTrimmed) := by
  have htrim : trimSpace l = (l.dropWhile isTrimmed).rdropWhile isTrimmed := rfl
  obtain ⟨w, hw, hl⟩ : ∃ w, (∀ c ∈ w, isTrimmed c = true) ∧
      l.dropWhile isTrimmed = trimSpace l ++ w := by
    refine ⟨(l.dropWhile isTrimmed).rtakeWhile isTrimmed, fun c hc => mem_rtakeWhile_imp hc, ?_⟩
    rw [htrim, rdropWhile_append_rtakeWhile]
  rw [hl, collapse_append hw]
  cases htext : trimSpace l with
  | nil => rfl
  | cons c cs =>
    have hhead : isTrimmed c = false := by
      have hdrop : l.dropWhile isTrimmed = c :: (cs ++ w) := by rw [hl, htext, cons_append]
      have h := head_dropWhile_not isTrimmed (by simp [hdrop] : l.dropWhile isTrimmed ≠ [])
      simpa [hdrop] using h
    obtain ⟨v, vs, hsplit⟩ := exists_cons_of_ne_nil (splitOnP_ne_nil isTrimmed cs)
    have hcons : (c :: cs).splitOnP isTrimmed = (c :: v) :: vs := by
      rw [splitOnP_cons_eq_if_modifyHead, if_neg (by simp [hhead]), hsplit]
      rfl
    rw [(collapse_eq_intercalate (c :: cs)).2 _ _ hcons, fields, hcons]
    rfl

section

variable {c : Char} {r : Region} {gap escaped escaped' : Bool} {l : List Char}

open Region

lemma Region.next_of_isTrimmed (r : Region) (h : isTrimmed c) : r.next c = r := by
  have hquote : c ≠ quote := by
    rintro rfl
    simp [isTrimmed, quote] at h
  have hdouble : c ≠ '"' := by
    rintro rfl
    simp [isTrimmed] at h
  cases r <;> simp [next, hquote, hdouble]

lemma canonicalFrom_space (hc : isTrimmed c) (gap : Bool) (cs : List Char) :
    canonicalFrom .plain gap (c :: cs) = canonicalFrom .plain true cs := by
  rw [canonicalFrom, if_pos ⟨rfl, hc⟩]

lemma canonicalFrom_cons (h : r = .plain → isTrimmed c = false) (gap : Bool)
    (cs : List Char) : canonicalFrom r gap (c :: cs) =
      (if gap then [' '] else []) ++ r.fold c :: canonicalFrom (r.next c) false cs := by
  rw [canonicalFrom, if_neg]
  rintro ⟨hr, hc⟩
  rw [h hr] at hc
  cases hc

lemma normalizesWell_cons {cs : List Char} (h : normalizesWell r gap escaped (c :: cs)) :
    (c = quote → escaped = false ∧ r ≠ .identifier) ∧
    (r ≠ .plain → isTrimmed c → c = ' ' ∧ gap = false) ∧ (r = .identifier → c.toLower = c) ∧
    normalizesWell (r.next c) (isTrimmed c) (decide (c = '\\')) cs = true := by
  simp only [normalizesWell, Bool.and_eq_true, Bool.or_eq_true, decide_eq_true_eq,
    Bool.not_eq_true'] at h
  obtain ⟨⟨⟨hquote, hspace⟩, hlower⟩, hrest⟩ := h
  refine ⟨fun hc => hquote.resolve_left (not_not_intro hc), fun hr hc => ?_, fun hr => ?_, hrest⟩
  · rcases hspace with (hplain | hnot) | hsingle
    · exact absurd hplain hr
    · rw [hc] at hnot
      cases hnot
    · exact hsingle
  · exact hlower.resolve_left (not_not_intro hr)

lemma canonicalFrom_collapse (h : normalizesWell r gap escaped l) :
    canonicalFrom r false (collapse gap l) = canonicalFrom r gap l := by
  induction l generalizing r gap escaped with
  | nil => rfl
  | cons c cs ih =>
    obtain ⟨-, hspace, -, hrest⟩ := normalizesWell_cons h
    by_cases hc : isTrimmed c
    · rw [r.next_of_isTrimmed hc, hc] at hrest
      rw [collapse_space hc, ih hrest]
      by_cases hr : r = .plain
      · rw [hr, canonicalFrom_space hc]
      · -- a space of a quoted region is single, so that another character follows
        obtain ⟨rfl, rfl⟩ := hspace hr hc
        rw [canonicalFrom_cons (fun h => absurd h hr), r.next_of_isTrimmed hc]
        cases cs with
        | nil => exact absurd (of_decide_eq_true hrest) hr
        | cons =>
          rw [canonicalFrom_cons (fun h => absurd h hr), canonicalFrom_cons (fun h => absurd h hr)]
          cases r
          · exact absurd rfl hr
          all_goals rfl
    · rw [Bool.not_eq_true] at hc
      rw [hc] at hrest
      rw [canonicalFrom_cons (fun _ => hc), ← ih hrest]
      cases gap with
      | false =>
        rw [collapse_false_cons hc]
        exact canonicalFrom_cons (fun _ => hc) false _
      | true =>
        rw [collapse_true_cons hc]
        by_cases hr : r = .plain
        · rw [hr, canonicalFrom_space rfl]
          exact canonicalFrom_cons (fun _ => hc) true _
        · rw [canonicalFrom_cons (fun h => absurd h hr), r.next_of_isTrimmed rfl,
            canonicalFrom_cons (fun _ => hc)]
          cases r
          · exact absurd rfl hr
          all_goals rfl

lemma normalizesWell_collapse
    (h : normalizesWell r gap escaped l) (he : gap = false → escaped' = escaped) :
    normalizesWell r false escaped' (collapse gap l) = true := by
  induction l generalizing r gap escaped escaped' with
  | nil => exact h
  | cons c cs ih =>
    obtain ⟨hquote, hspace, hlower, hrest⟩ := normalizesWell_cons h
    by_cases hc : isTrimmed c
    · rw [r.next_of_isTrimmed hc, hc] at hrest
      rw [collapse_space hc]
      exact ih hrest (by simp)
    · rw [Bool.not_eq_true] at hc
      rw [hc] at hrest
      have htail := ih hrest (fun _ => rfl)
      have hword : ∀ g e, (c = quote → e = false) →
          normalizesWell r g e (c :: collapse false cs) = true := by
        intro g e hfalse
        simp only [normalizesWell, Bool.and_eq_true, Bool.or_eq_true, decide_eq_true_eq,
          Bool.not_eq_true']
        refine ⟨⟨⟨?_, .inl (.inr hc)⟩, ?_⟩, by rw [hc]; exact htail⟩
        · by_cases hcq : c = quote
          · exact .inr ⟨hfalse hcq, (hquote hcq).2⟩
          · exact .inl hcq
        · by_cases hr : r = .identifier
          · exact .inr (hlower hr)
          · exact .inl hr
      cases gap with
      | false =>
        rw [collapse_false_cons hc, he rfl]
        exact hword false escaped (fun hcq => (hquote hcq).1)
      | true =>
        have hblank : isTrimmed ' ' := rfl
        have hfirst : normalizesWell r false escaped' (' ' :: c :: collapse false cs) =
            normalizesWell (r.next ' ') true false (c :: collapse false cs) := by
          simp [normalizesWell, quote, hblank]
        rw [collapse_true_cons hc, hfirst, r.next_of_isTrimmed hblank]
        exact hword true false (fun _ => rfl)

lemma foldOutside_cons (inSingleQuote escaped : Bool) (ch : Char) (rest : List Char) :
    foldOutside inSingleQuote escaped (ch :: rest) =
      (if escaped || inSingleQuote then ch else ch.toLower) ::
        foldOutside (if escaped = false ∧ ch = quote then !inSingleQuote else inSingleQuote)
          (!escaped && decide (ch = '\\')) rest := by
  have hslash : '\\'.toLower = '\\' := rfl
  have hquote : quote.toLower = quote := rfl
  have hne : '\\' ≠ quote := by decide
  cases escaped with
  | true => simp [foldOutside]
  | false =>
    by_cases hs : ch = '\\'
    · subst hs
      cases rest <;> simp [foldOutside, hne, hslash]
    · by_cases hq : ch = quote
      · subst hq
        cases rest with
        | nil => cases inSingleQuote <;> simp [foldOutside, hquote, hs]
        | cons next rest =>
          cases inSingleQuote with
          | false => simp [foldOutside, hquote, hs]
          | true =>
            by_cases hnext : next = quote
            · subst hnext
              cases rest <;> simp [foldOutside, hs]
            · simp [foldOutside, hs, hnext]
      · cases rest <;> cases inSingleQuote <;> simp [foldOutside, hs, hq]

lemma Region.next_toLower (r : Region) (c : Char) : r.next c.toLower = r.next c := by
  have hquote : c.toLower = quote ↔ c = quote := toLower_eq_iff (by decide)
  have hdouble : c.toLower = '"' ↔ c = '"' := toLower_eq_iff (by decide)
  cases r <;> simp [next, hquote, hdouble]

lemma Region.fold_toLower (h : r ≠ .plain → c.toLower = c) : r.fold c.toLower = r.fold c := by
  cases r with
  | plain => exact Char.toLower_toLower_eq_toLower c
  | literal | identifier => exact h (by simp)

lemma Region.next_eq_literal (h : c = quote → escaped = false ∧ r ≠ .identifier) :
    (if escaped = false ∧ c = quote then !decide (r = .literal) else decide (r = .literal)) =
      decide (r.next c = .literal) := by
  by_cases hc : c = quote
  · obtain ⟨he, hr⟩ := h hc
    rw [if_pos ⟨he, hc⟩]
    cases r <;> simp [next, hc] at hr ⊢
  · rw [if_neg (fun h => hc h.2)]
    cases r <;> simp only [next, hc, if_false] <;> split <;> rfl

lemma canonicalFrom_foldOutside
    (h : normalizesWell r gap escaped l) (he : escaped' → escaped) (g : Bool) :
    canonicalFrom r g (foldOutside (decide (r = .literal)) escaped' l) = canonicalFrom r g l := by
  induction l generalizing r gap escaped escaped' g with
  | nil => rfl
  | cons c cs ih =>
    obtain ⟨hquote, -, hlower, hrest⟩ := normalizesWell_cons h
    have hquote' : c = quote → escaped' = false ∧ r ≠ .identifier := by
      intro hc
      refine ⟨?_, (hquote hc).2⟩
      cases escaped'
      · rfl
      · rw [he rfl] at hquote
        exact absurd (hquote hc).1 (by simp)
    rw [foldOutside_cons, next_eq_literal hquote']
    have htail : ∀ g, canonicalFrom (r.next c) g (foldOutside (decide (r.next c = .literal))
        (!escaped' && decide (c = '\\')) cs) = canonicalFrom (r.next c) g cs :=
      ih hrest (by simp)
    obtain ⟨d, hd, hspace, hnext, hfold⟩ : ∃ d,
        (if escaped' || decide (r = .literal) then c else c.toLower) = d ∧
        isTrimmed d = isTrimmed c ∧ r.next d = r.next c ∧ r.fold d = r.fold c := by
      by_cases hkeep : (escaped' || decide (r = .literal)) = true
      · exact ⟨c, if_pos hkeep, rfl, rfl, rfl⟩
      · refine ⟨c.toLower, if_neg hkeep, isTrimmed_toLower c, r.next_toLower c, fold_toLower ?_⟩
        intro hr
        cases r
        · exact absurd rfl hr
        · simp at hkeep
        · exact hlower rfl
    rw [hd]
    by_cases hc : r = .plain ∧ isTrimmed c
    · obtain ⟨rfl, hc⟩ := hc
      rw [next_of_isTrimmed _ hc] at htail ⊢
      rw [canonicalFrom_space (hspace.trans hc), canonicalFrom_space hc]
      exact htail true
    · have hplain : r = .plain → isTrimmed c = false := fun hr => by simpa [hr] using hc
      rw [canonicalFrom_cons (fun hr => hspace.trans (hplain hr)), canonicalFrom_cons hplain, hfold, hnext,
        htail false]

lemma normalizesWell_dropWhile (h : normalizesWell .plain gap escaped l) :
    normalizesWell .plain false false (l.dropWhile isTrimmed) = true := by
  induction l generalizing gap escaped with
  | nil => rfl
  | cons c cs ih =>
    obtain ⟨-, -, -, hrest⟩ := normalizesWell_cons h
    by_cases hc : isTrimmed c
    · rw [next_of_isTrimmed _ hc] at hrest
      rw [dropWhile_cons_of_pos hc]
      exact ih hrest
    · rw [dropWhile_cons_of_neg hc]
      simp [normalizesWell, hrest]

lemma canonicalFrom_normalizeQuery (h : normalizesWell .plain false false l) :
    canonicalFrom .plain false (normalizeQuery l) =
      canonicalFrom .plain false (l.dropWhile isTrimmed) := by
  have hdrop := normalizesWell_dropWhile h
  have hcollapse := normalizesWell_collapse hdrop (fun _ => rfl)
  rw [normalizeQuery, intercalate_fields]
  exact (canonicalFrom_foldOutside hcollapse (fun h => h) false).trans (canonicalFrom_collapse hdrop)

end

variable {hash : String → String} {cacheKeyPrefix : String}

lemma append_bar_inj {a a' b b' : List Char} (hb : '|' ∉ b) (hb' : '|' ∉ b')
    (h : a ++ '|' :: b = a' ++ '|' :: b') : a = a' := by
  rcases append_eq_append_iff.mp h with ⟨c, rfl, hc⟩ | ⟨c, rfl, hc⟩
  · cases c with
    | nil => simp
    | cons =>
      obtain ⟨rfl, rfl⟩ := List.cons.inj hc
      exact absurd (by simp) hb
  · cases c with
    | nil => simp
    | cons =>
      obtain ⟨rfl, rfl⟩ := List.cons.inj hc
      exact absurd (by simp) hb'

lemma bar_notMem_intercalate {tables : List String} (h : ∀ t ∈ tables, '|' ∉ t.toList) :
    '|' ∉ [','].intercalate (tables.map String.toList) := by
  induction tables with
  | nil => simp
  | cons t ts ih =>
    have htail := ih (fun t' ht' => h t' (mem_cons_of_mem t ht'))
    have hhead := h t mem_cons_self
    cases ts with
    | nil => simpa using hhead
    | cons =>
      simp only [map_cons, intercalate_cons_cons, mem_append, not_or] at htail ⊢
      exact ⟨⟨hhead, by decide⟩, htail⟩

lemma sameQuery_of_key_eq (hinj : Function.Injective hash) {q q' : String} {tables tables' : List String}
    (hq : NormalizesWell q) (hq' : NormalizesWell q') (ht : ∀ t ∈ tables, '|' ∉ t.toList)
    (ht' : ∀ t ∈ tables', '|' ∉ t.toList)
    (h : generateCacheKey hash cacheKeyPrefix q tables = generateCacheKey hash cacheKeyPrefix q' tables') :
    SameQuery q q' := by
  have htext := hinj ((String.append_right_inj _).mp h)
  have hnormal : normalizeQuery q.toList = normalizeQuery q'.toList :=
    append_bar_inj (bar_notMem_intercalate ht) (bar_notMem_intercalate ht') (String.ofList_inj.mp htext)
  calc canonical q = canonicalFrom .plain false (normalizeQuery q.toList) :=
        (canonicalFrom_normalizeQuery hq).symm
    _ = canonicalFrom .plain false (normalizeQuery q'.toList) := by rw [hnormal]
    _ = canonical q' := canonicalFrom_normalizeQuery hq'

end MinIODB.Query
