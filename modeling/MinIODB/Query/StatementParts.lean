import MinIODB.Query.StatementText

/-!
# The parts of a clean text

The parts of a clean text are those of its lexemes, one after the other, with at most one white
space between them. A word in them that the patterns look for is a keyword of the statement.
-/
namespace MinIODB.Query.TableExtractor
open Matching List Bool Lexeme

lemma suffix_append_cases {α : Type*} {s a b : List α} (h : s <:+ a ++ b) :
    s <:+ b ∨ ∃ r, r ≠ [] ∧ r <:+ a ∧ s = r ++ b := by
  obtain ⟨t, ht⟩ := h
  obtain ⟨as, ha, hs⟩ | ⟨bs, hbs, hb⟩ := append_eq_append_iff.mp ht
  · by_cases hnil : as = []
    · subst hnil
      exact .inl ⟨[], by simpa using hs⟩
    · exact .inr ⟨as, hnil, ⟨t, ha.symm⟩, hs⟩
  · exact .inl ⟨bs, hb.symm⟩

lemma suffix_consSpace (ps : List Part) : ps <:+ consSpace ps := by
  unfold consSpace
  split
  · exact suffix_rfl
  · exact suffix_cons _ _

lemma word_suffix_consSpace {w : List Char} {s ps : List Part} (h : .word w :: s <:+ consSpace ps) :
    .word w :: s <:+ ps := by
  unfold consSpace at h
  split at h
  · exact h
  · obtain h | h := suffix_cons_iff.mp h
    · cases h
    · exact h

section
variable {ls ms : List Lexeme} {x : Lexeme}

lemma not_space_of_not_trimmed {c : Char} (h : isTrimmed c = false) : isSpace c = false := by
  rw [eq_false_iff]
  intro hspace
  rw [isSpace_trimmed hspace] at h
  cases h

lemma isBlank_of_isGap (hgap : x.isGap) (hx : x.unmarked) : x.isBlank := by
  cases x with
  | blank => rfl
  | comment | lineComment => cases hx
  | _ => cases hgap

lemma isBlank_of_not_isGap (hgap : x.isGap = false) : x.isBlank = false := by
  cases x <;> first | rfl | cases hgap

lemma getLast_text (hgap : x.isGap = false) (hname : x.isName = false) (hwf : x.wellFormed) :
    ∀ a ∈ x.text.getLast?, isWord a = false := by
  intro a ha
  cases x with
  | literal =>
    rw [text, ← cons_append, getLast?_concat] at ha
    cases ha
    decide
  | symbol =>
    simp only [wellFormed, isSymbol, and_eq_true, not_eq_true'] at hwf
    rw [text, getLast?_singleton] at ha
    cases ha
    exact hwf.1.1.1.1.1
  | word | quoted => cases hname
  | _ => cases hgap

lemma parts_textOf_token (h : Tidy (x :: ls)) (hgap : x.isGap = false) :
    parts (textOf (x :: ls)) = parts x.text ++ parts (textOf ls) := by
  have hwf := h.wellFormed x mem_cons_self
  have hmark := h.unmarked x mem_cons_self
  have hrest := h.sub (suffix_cons x ls).isInfix
  rw [textOf_cons]
  refine parts_append (fun a ha b hb hword => ?_) (fun a ha b hb hspace => ?_)
  · refine head_textOf hrest.wellFormed hrest.unmarked (fun y hy w hyw => ?_) b hb
    cases ls with
    | nil => cases hy
    | cons =>
      cases hy
      have hapart := (isChain_cons_cons.mp h.apart).1
      rw [hyw] at hapart
      have hname : x.isName = false := hapart.resolve_right (by simp [isName])
      rw [getLast_text hgap hname hwf a ha] at hword
      cases hword
  · obtain ⟨-, cs, c, hc, htrim⟩ := text_ends (isBlank_of_not_isGap hgap) hwf hmark
    rw [hc, getLast?_concat] at ha
    cases ha
    rw [not_space_of_not_trimmed htrim] at hspace
    cases hspace

lemma parts_textOf_blank {c : Char} (hc : isSpace c) :
    parts (textOf (.blank c :: ls)) = consSpace (parts (textOf ls)) := by
  rw [textOf_cons]
  exact parts_cons_space hc

lemma suffix_parts (h : Tidy ls) (hms : ms <:+ ls) : parts (textOf ms) <:+ parts (textOf ls) := by
  induction ls with
  | nil => exact suffix_nil.mp hms ▸ suffix_rfl
  | cons x ls ih =>
    obtain rfl | hms := suffix_cons_iff.mp hms
    · exact suffix_rfl
    refine (ih (h.sub (suffix_cons x ls).isInfix) hms).trans ?_
    cases hgap : x.isGap with
    | false =>
      rw [parts_textOf_token h hgap]
      exact suffix_append _ _
    | true =>
      have hblank := isBlank_of_isGap hgap (h.unmarked x mem_cons_self)
      cases x with
      | blank =>
        rw [parts_textOf_blank (h.wellFormed _ mem_cons_self)]
        exact suffix_consSpace _
      | _ => cases hblank

lemma parts_quoted {n : List Char} (hmark : (quoted n).unmarked) :
    parts (quoted n).text = .other doubleQuote :: (parts n ++ [.other doubleQuote]) := by
  rw [text_quoted hmark, parts_cons_other (by decide) (by decide), parts_append]
  · rfl
  · rintro a - b ⟨⟩ -
    decide
  · rintro a - b ⟨⟩ -
    decide

lemma parts_text_cases (hgap : x.isGap = false) (hwf : x.wellFormed) (hmark : x.unmarked) :
    (∃ v, x = .word v ∧ parts x.text = [.word v]) ∨
      ∃ c ps, parts x.text = .other c :: ps ∧ (c = doubleQuote ∨ c = quote ∨ x = .symbol c) := by
  cases x with
  | word v =>
    simp only [wellFormed, and_eq_true, bne_iff_ne, all_eq_true] at hwf
    exact .inl ⟨v, rfl, parts_word hwf.1 hwf.2⟩
  | quoted => exact .inr ⟨doubleQuote, _, parts_quoted hmark, .inl rfl⟩
  | literal => exact .inr ⟨quote, _, parts_cons_other (by decide) (by decide), .inr (.inl rfl)⟩
  | symbol c =>
    simp only [wellFormed, isSymbol, and_eq_true, not_eq_true'] at hwf
    exact .inr ⟨c, _, parts_cons_other hwf.1.1.1.1.1 hwf.1.1.1.1.2, .inr (.inr rfl)⟩
  | _ => cases hgap

lemma parts_text_not_space (hgap : x.isGap = false) (hwf : x.wellFormed)
    (hmark : x.unmarked) (rest ps : List Part) : parts x.text ++ rest ≠ .space :: ps := by
  obtain ⟨v, -, h⟩ | ⟨c, qs, h, -⟩ := parts_text_cases hgap hwf hmark
  · rw [h]
    rintro ⟨⟩
  · rw [h]
    rintro ⟨⟩

end

section
variable {ts us : List Token} {ls ms : List Lexeme} {x : Lexeme} {t : Token}

lemma parts_cons (h : Tidy ls) (hspelled : Spells (t :: ts) ls) :
    ∃ x ms, x.isGap = false ∧ Token.spells t x ∧ Spells ts ms ∧ x :: ms <:+ ls ∧
      (ls = x :: ms ∧ parts (textOf ls) = parts x.text ++ parts (textOf ms) ∨
        parts (textOf ls) = .space :: (parts x.text ++ parts (textOf ms))) := by
  have hblank : ∀ x ∈ ls, x.isGap → x.isBlank :=
    fun x hx hgap => isBlank_of_isGap hgap (h.unmarked x hx)
  obtain ⟨gaps, x, ms, rfl, hgaps, hx, hspells, hms⟩ := hspelled.cons_split hblank
  have hsuffix : x :: ms <:+ gaps ++ x :: ms := suffix_append _ _
  have htoken := parts_textOf_token (h.sub hsuffix.isInfix) hx
  refine ⟨x, ms, hx, hspells, hms, hsuffix, ?_⟩
  by_cases hnil : gaps = []
  · subst hnil
    exact .inl ⟨rfl, htoken⟩
  · have hwf := h.wellFormed x (by simp)
    have hmark := h.unmarked x (by simp)
    have hne : textOf gaps ≠ [] := by
      obtain ⟨g, gaps, rfl⟩ := exists_cons_of_ne_nil hnil
      rw [textOf_cons]
      exact append_ne_nil_of_left_ne_nil (text_ne_nil (h.wellFormed g (by simp))) _
    have hspaces : ∀ c ∈ textOf gaps, isSpace c := by
      intro c hc
      obtain ⟨g, hg, hcg⟩ := mem_flatMap.mp hc
      have hgwf := h.wellFormed g (mem_append_left _ hg)
      have hgblank := hgaps g hg
      cases g with
      | blank =>
        rw [mem_singleton.mp hcg]
        exact hgwf
      | _ => cases hgblank
    rw [textOf_append, parts_spaces hne hspaces, htoken,
      consSpace_of_not_space (parts_text_not_space hx hwf hmark _)]
    exact .inr rfl

lemma parts_nil (h : Tidy ls) (hspelled : Spells [] ls) :
    parts (textOf ls) = [] ∨ parts (textOf ls) = [.space] := by
  induction ls with
  | nil => exact .inl rfl
  | cons x ls ih =>
    cases hspelled with
    | gap hgap hwf hspelled =>
      have hblank := isBlank_of_isGap hgap (h.unmarked x mem_cons_self)
      cases x with
      | blank =>
        rw [parts_textOf_blank hwf]
        obtain heq | heq := ih (h.sub (suffix_cons _ ls).isInfix) hspelled
        · rw [heq]
          exact .inr rfl
        · rw [heq]
          exact .inr rfl
      | _ => cases hblank

lemma spells_suffix (hus : us <:+ ts) (h : Spells ts ls) : ∃ ms, ms <:+ ls ∧ Spells us ms := by
  induction h with
  | nil => exact ⟨[], suffix_rfl, suffix_nil.mp hus ▸ .nil⟩
  | @gap ts y ls hgap hwf h ih =>
    obtain ⟨ms, hms, hspelled⟩ := ih hus
    exact ⟨ms, hms.trans (suffix_cons y ls), hspelled⟩
  | @token t ts y ls hgap hwf hx h ih =>
    obtain rfl | hus := suffix_cons_iff.mp hus
    · exact ⟨y :: ls, suffix_rfl, .token hgap hwf hx h⟩
    · obtain ⟨ms, hms, hspelled⟩ := ih hus
      exact ⟨ms, hms.trans (suffix_cons y ls), hspelled⟩

end

variable {ts us : List Token} {ls ms : List Lexeme} {x : Lexeme} {t : Token} {w : List Char}
  {s : List Part}

lemma not_trigger_of_isCalm {l : List Char} (h : isCalm l) (hw : .word w ∈ parts l) :
    isTrigger w = false := by
  rw [isCalm, and_eq_true, and_eq_true, all_eq_true] at h
  simpa using h.1.1 _ hw

lemma not_trigger_of_spells {p : Piece} (hspells : Token.spells (.piece p) x)
    (hplain : Piece.plain p) (hwf : x.wellFormed) (hmark : x.unmarked)
    (hw : .word w ∈ parts x.text) : isTrigger w = false := by
  have hword : ∀ v, x = .word v → w = v := by
    rintro v rfl
    simp only [wellFormed, and_eq_true, bne_iff_ne, all_eq_true] at hwf
    rw [text, parts_word hwf.1 hwf.2] at hw
    simpa using hw
  unfold Token.spells at hspells
  split at hspells
  · rename_i heq
    cases heq
  · rename_i v v' heq
    cases heq
    rw [beq_iff_eq] at hspells
    rw [hword _ rfl, ← hspells]
    simpa [Piece.plain] using hplain
  · rename_i n v heq
    cases heq
    rw [beq_iff_eq] at hspells
    subst hspells
    rw [Piece.plain, and_eq_true] at hplain
    exact not_trigger_of_isCalm hplain.1 hw
  · rename_i n v heq
    cases heq
    rw [beq_iff_eq] at hspells
    subst hspells
    rw [Piece.plain, and_eq_true] at hplain
    rw [parts_quoted hmark] at hw
    exact not_trigger_of_isCalm hplain.1 (by simpa using hw)
  · rename_i v v' heq
    cases heq
    rw [beq_iff_eq] at hspells
    subst hspells
    exact not_trigger_of_isCalm hplain hw
  · rename_i c d heq
    simp only [wellFormed, isSymbol, and_eq_true, not_eq_true'] at hwf
    rw [text, parts_cons_other hwf.1.1.1.1.1 hwf.1.1.1.1.2] at hw
    simp [parts] at hw
  · cases hspells

lemma exists_keyword (h : Tidy ls) (hspelled : Spells ts ls)
    (hplain : ∀ t ∈ ts, Token.plain t) (hw : isTrigger w)
    (hs : .word w :: s <:+ parts (textOf ls)) :
    ∃ k us ms, toLower w = (Keyword.text k).toList ∧ .keyword k :: us <:+ ts ∧ Spells us ms ∧
      ms <:+ ls ∧ s = parts (textOf ms) := by
  induction ls generalizing ts with
  | nil => exact absurd (suffix_nil.mp hs) (cons_ne_nil _ _)
  | cons x ls ih =>
    have hwf := h.wellFormed x mem_cons_self
    have hmark := h.unmarked x mem_cons_self
    have hsuffix := suffix_cons x ls
    have ih : ∀ {ts}, Spells ts ls → (∀ t ∈ ts, Token.plain t = true) →
        .word w :: s <:+ parts (textOf ls) → ∃ k us ms, toLower w = (Keyword.text k).toList ∧
          .keyword k :: us <:+ ts ∧ Spells us ms ∧ ms <:+ x :: ls ∧ s = parts (textOf ms) := by
      intro ts hspelled hplain hs
      obtain ⟨k, us, ms, hk, hus, hms, hmsls, heq⟩ := ih (h.sub hsuffix.isInfix) hspelled hplain hs
      exact ⟨k, us, ms, hk, hus, hms, hmsls.trans hsuffix, heq⟩
    cases hspelled with
    | gap hgap _ hspelled =>
      have hblank := isBlank_of_isGap hgap hmark
      cases x with
      | blank =>
        rw [parts_textOf_blank hwf] at hs
        exact ih hspelled hplain (word_suffix_consSpace hs)
      | _ => cases hblank
    | @token t ts _ _ hgap _ hspells hspelled =>
      rw [forall_mem_cons] at hplain
      rw [parts_textOf_token h hgap] at hs
      obtain hs | ⟨r, hr, hrx, heq⟩ := suffix_append_cases hs
      · obtain ⟨k, us, ms, hk, hus, hrest⟩ := ih hspelled hplain.2 hs
        exact ⟨k, us, ms, hk, hus.trans (suffix_cons t ts), hrest⟩
      · -- the word is a part of the first lexeme, which can only be a keyword
        obtain ⟨p, r, rfl⟩ := exists_cons_of_ne_nil hr
        rw [cons_append, List.cons.injEq] at heq
        obtain ⟨rfl, heq⟩ := heq
        have hmem : .word w ∈ parts x.text := hrx.subset (.head _)
        cases t with
        | piece =>
          rw [not_trigger_of_spells hspells hplain.1 hwf hmark hmem] at hw
          cases hw
        | keyword k =>
          cases x with
          | word =>
            simp only [wellFormed, and_eq_true, bne_iff_ne, all_eq_true] at hwf
            rw [text, parts_word hwf.1 hwf.2] at hrx
            obtain hrx | hrx := suffix_cons_iff.mp hrx
            · cases hrx
              exact ⟨k, ts, ls, by simpa [Token.spells] using hspells, suffix_rfl,
                hspelled, hsuffix, heq⟩
            · exact absurd (suffix_nil.mp hrx) (cons_ne_nil _ _)
          | _ => cases hspells

end MinIODB.Query.TableExtractor
