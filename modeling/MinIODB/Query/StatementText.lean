import MinIODB.Query.Statement
import MinIODB.Query.TableExtractor

/-!
# The text of a statement, and what cleaning makes of it

A statement is written as a list of lexemes: those that spell its tokens, with white space and
comments between them. If nothing but a comment looks like one, and if words and quoted names
stay apart without the comments, then cleaning removes the comments and the quotes around plain
names, and leaves the words as they are.
-/
namespace MinIODB.Query.TableExtractor
open Matching Bool
open List hiding after

inductive Lexeme where
  | word (w : List Char)
  | quoted (s : List Char)
  | literal (s : List Char)
  | symbol (c : Char)
  | blank (c : Char)
  | comment (s : List Char)
  | lineComment (s : List Char)

namespace Lexeme

def text : Lexeme → List Char
  | .word w => w
  | .quoted s => doubleQuote :: (s.flatMap (fun c => if c = doubleQuote then [c, c] else [c]) ++ [doubleQuote])
  | .literal s => quote :: (escape s ++ [quote])
  | .symbol c => [c]
  | .blank c => [c]
  | .comment s => "/*".toList ++ (s ++ "*/".toList)
  | .lineComment s => "--".toList ++ (s ++ ['\n'])

def isSymbol (c : Char) : Bool :=
  !isWord c && !isSpace c && !isTrimmed c && c != quote && c != doubleQuote && c != backtick

def wellFormed : Lexeme → Bool
  | .word w => w != [] && w.all isWord
  | .quoted s => s != []
  | .literal _ => true
  | .symbol c => isSymbol c
  | .blank c => isSpace c
  | .comment s => before "*/".toList (s ++ "*/".toList) == s
  | .lineComment s => !s.contains '\n'

def isGap : Lexeme → Bool
  | .blank _ => true
  | .comment _ => true
  | .lineComment _ => true
  | _ => false

def isComment : Lexeme → Bool
  | .comment _ => true
  | _ => false

def isBlank : Lexeme → Bool
  | .blank _ => true
  | _ => false

def isName : Lexeme → Bool
  | .word _ => true
  | .quoted _ => true
  | _ => false

end Lexeme

def Token.spells : Token → Lexeme → Bool
  | .keyword k, .word w => toLower w == k.text.toList
  | .piece (.bare v), .word w => v == w
  | .piece (.ident n), .word w => n == w
  | .piece (.ident n), .quoted s => n == s
  | .piece (.literal s), .literal s' => s == s'
  | .piece (.symbol c), .symbol d => c == d
  | _, _ => false

def spelled : List Token → List Lexeme → Bool
  | ts, [] => ts.isEmpty
  | ts, x :: ls =>
    x.wellFormed && (if x.isGap then spelled ts ls
      else match ts with
        | [] => false
        | t :: ts => Token.spells t x && spelled ts ls)

inductive Spells : List Token → List Lexeme → Prop where
  | nil : Spells [] []
  | gap {ts : List Token} {x : Lexeme} {ls : List Lexeme} (hgap : x.isGap = true)
      (hwf : x.wellFormed = true) (h : Spells ts ls) : Spells ts (x :: ls)
  | token {t : Token} {ts : List Token} {x : Lexeme} {ls : List Lexeme} (hgap : x.isGap = false)
      (hwf : x.wellFormed = true) (hx : Token.spells t x = true) (h : Spells ts ls) : Spells (t :: ts) (x :: ls)

def textOf (ls : List Lexeme) : List Char := ls.flatMap Lexeme.text

@[simp] theorem textOf_nil : textOf [] = [] := rfl

@[simp] theorem textOf_cons (x : Lexeme) (ls : List Lexeme) : textOf (x :: ls) = x.text ++ textOf ls :=
  flatMap_cons

lemma textOf_append (ls ms : List Lexeme) : textOf (ls ++ ms) = textOf ls ++ textOf ms :=
  flatMap_append

section
variable {ts : List Token} {ls : List Lexeme} {x : Lexeme}

lemma spells_of_spelled (h : spelled ts ls) : Spells ts ls := by
  induction ls generalizing ts with
  | nil =>
    cases ts with
    | nil => exact .nil
    | cons => cases h
  | cons x ls ih =>
    cases hgap : x.isGap with
    | true =>
      have h : x.wellFormed = true ∧ spelled ts ls := by simpa [spelled, hgap] using h
      exact .gap hgap h.1 (ih h.2)
    | false =>
      cases ts with
      | nil => simp [spelled, hgap] at h
      | cons t ts =>
        have h : x.wellFormed = true ∧ Token.spells t x = true ∧ spelled ts ls := by
          simpa [spelled, hgap] using h
        exact .token hgap h.1 h.2.1 (ih h.2.2)

lemma Spells.wellFormed (h : Spells ts ls) : ∀ x ∈ ls, x.wellFormed := by
  induction h with
  | nil => exact nofun
  | gap _ hwf _ ih | token _ hwf _ _ ih => exact forall_mem_cons.mpr ⟨hwf, ih⟩

lemma Spells.filter {keep : Lexeme → Bool} (hkeep : ∀ x, x.isGap = false → keep x)
    (h : Spells ts ls) : Spells ts (ls.filter keep) := by
  induction h with
  | nil => exact .nil
  | gap hgap hwf _ ih =>
    rw [filter_cons]
    split
    · exact .gap hgap hwf ih
    · exact ih
  | token hgap hwf hx _ ih =>
    rw [filter_cons_of_pos (hkeep _ hgap)]
    exact .token hgap hwf hx ih

lemma isGap_of_isBlank (h : x.isBlank) : x.isGap := by
  cases x <;> first | rfl | cases h

lemma Spells.dropWhile (h : Spells ts ls) : Spells ts (ls.dropWhile Lexeme.isBlank) := by
  induction ls with
  | nil => exact h
  | cons y ls ih =>
    rw [dropWhile_cons]
    split
    · rename_i hblank
      cases h with
      | gap _ _ h => exact ih h
      | token hgap => exact absurd (isGap_of_isBlank hblank) (by simp [hgap])
    · exact h

lemma Spells.of_concat_gap (hx : x.isGap) (h : Spells ts (ls ++ [x])) : Spells ts ls := by
  induction ls generalizing ts with
  | nil =>
    cases h with
    | gap _ _ h => exact h
    | token hgap => exact absurd hx (by simp [hgap])
  | cons y ls ih =>
    cases h with
    | gap hgap hwf h => exact .gap hgap hwf (ih h)
    | token hgap hwf hy h => exact .token hgap hwf hy (ih h)

lemma Spells.rdropWhile (h : Spells ts ls) : Spells ts (ls.rdropWhile Lexeme.isBlank) := by
  induction ls using reverseRecOn with
  | nil => exact h
  | append_singleton ls y ih =>
    by_cases hblank : y.isBlank
    · rw [rdropWhile_concat_pos _ _ _ hblank]
      exact ih (h.of_concat_gap (isGap_of_isBlank hblank))
    · rw [rdropWhile_concat_neg _ _ _ hblank]
      exact h

lemma Spells.cons_split {t : Token} (hblank : ∀ x ∈ ls, x.isGap → x.isBlank)
    (h : Spells (t :: ts) ls) :
    ∃ gaps x ms, ls = gaps ++ x :: ms ∧ (∀ g ∈ gaps, g.isBlank) ∧ x.isGap = false ∧
      Token.spells t x ∧ Spells ts ms := by
  induction ls with
  | nil => cases h
  | cons y ls ih =>
    rw [forall_mem_cons] at hblank
    cases h with
    | gap hgap _ h =>
      obtain ⟨gaps, x, ms, rfl, hgaps, hx⟩ := ih hblank.2 h
      exact ⟨y :: gaps, x, ms, rfl, forall_mem_cons.mpr ⟨hblank.1 hgap, hgaps⟩, hx⟩
    | token hgap _ hy h => exact ⟨[], y, ls, rfl, nofun, hgap, hy, h⟩

end

section
variable {ls : List Lexeme} {x : Lexeme}

lemma replaceAll_eq_self {m : List Char → Option (List Char × List Char)} {l : List Char}
    (h : ∀ s, s <:+ l → m s = none) : replaceAll m l = l := by
  have hwithin : Within (fun l => m l = none) l [] := by
    intro v w hl _
    rw [append_nil]
    exact h w ⟨v, hl.symm⟩
  have := replaceAll_append_of_none hwithin
  rw [append_nil] at this
  rw [this]
  exact append_nil l

lemma clean_lineComments {l : List Char} (h : ¬ "--".toList <:+: l) :
    replaceAll reSingleLineComment l = l := by
  refine replaceAll_eq_self (fun s hs => ?_)
  rw [reSingleLineComment, if_neg]
  rw [and_eq_true]
  exact fun hp => h ((List.isPrefixOf_iff_prefix.mp hp.1).isInfix.trans hs.isInfix)

lemma after_comment {s : List Char} (h : before "*/".toList (s ++ "*/".toList) = s) (rest : List Char) :
    after "*/".toList (s ++ "*/".toList ++ rest) = some rest := by
  induction s with
  | nil => rfl
  | cons c s ih =>
    rw [cons_append, before] at h
    split at h
    · cases h
    · rename_i hnot
      rw [cons.injEq] at h
      rw [cons_append, cons_append, after, if_neg, ih h.2]
      intro hhead
      refine hnot ?_
      rw [List.isPrefixOf_iff_prefix] at hhead ⊢
      exact prefix_of_prefix_length_le hhead (prefix_append (c :: (s ++ "*/".toList)) rest)
        (by simp)

lemma text_ne_nil (h : x.wellFormed) : x.text ≠ [] := by
  cases x with
  | word =>
    rintro rfl
    cases h
  | _ => simp [Lexeme.text]

lemma not_open {w : List Char} (hwf : ∀ y ∈ ls, y.wellFormed) (hw : w <:+ x.text) (hne : w ≠ [])
    (hopen : ¬ "/*".toList <:+: textOf (x :: ls.filter (fun y => !y.isComment))) :
    "/*".toList.isPrefixOf (w ++ textOf ls) = false := by
  rw [eq_false_iff]
  intro hhead
  rw [List.isPrefixOf_iff_prefix] at hhead
  obtain ⟨v, hv⟩ := hw
  obtain ⟨r, hr⟩ := hhead
  have hr : '/' :: '*' :: r = w ++ textOf ls := hr
  refine hopen ?_
  rw [textOf_cons, ← hv]
  match w, hne with
  | c :: d :: w, _ =>
    rw [cons_append, cons_append, cons.injEq, cons.injEq] at hr
    obtain ⟨rfl, rfl, -⟩ := hr
    exact ⟨v, w ++ textOf (ls.filter (fun y => !y.isComment)), by simp⟩
  | [c], _ =>
    -- The star is the beginning of the next lexeme, which is no comment.
    rw [singleton_append, cons.injEq] at hr
    match ls, hwf, hr with
    | y :: ls, hwf, hr =>
      have hy := hwf y mem_cons_self
      obtain ⟨d, ds, hd⟩ := exists_cons_of_ne_nil (text_ne_nil hy)
      rw [textOf_cons, hd, cons_append, cons.injEq] at hr
      have hcomment : y.isComment = false := by
        cases y with
        | comment =>
          have hslash : d = '/' := by
            rw [Lexeme.text] at hd
            exact (cons.inj hd).1.symm
          rw [hslash] at hr
          exact absurd hr.2.1 (by decide)
        | _ => rfl
      rw [filter_cons_of_pos (by simp [hcomment]), textOf_cons, hd]
      obtain ⟨rfl, rfl, -⟩ := hr
      exact ⟨v, ds ++ textOf (ls.filter (fun y => !y.isComment)), by simp⟩

lemma clean_comments (hwf : ∀ y ∈ ls, y.wellFormed)
    (hopen : ¬ "/*".toList <:+: textOf (ls.filter (fun y => !y.isComment))) :
    replaceAll reMultiLineComment (textOf ls) = textOf (ls.filter (fun y => !y.isComment)) := by
  induction ls with
  | nil => rfl
  | cons x ls ih =>
    have hwf' := fun y hy => hwf y (.tail x hy)
    by_cases hx : x.isComment
    · rw [filter_cons_of_neg (by simp [hx])] at hopen ⊢
      rw [← ih hwf' hopen]
      cases x with
      | comment s =>
        have hs : before "*/".toList (s ++ "*/".toList) = s := by
          simpa [Lexeme.wellFormed] using hwf _ mem_cons_self
        have hmatch : reMultiLineComment ((Lexeme.comment s).text ++ textOf ls) = some ([], textOf ls) := by
          have hdrop : ((Lexeme.comment s).text ++ textOf ls).drop 2 = s ++ "*/".toList ++ textOf ls := rfl
          have hhead : "/*".toList.isPrefixOf ((Lexeme.comment s).text ++ textOf ls) := rfl
          rw [reMultiLineComment, if_pos hhead, hdrop, after_comment hs]
          rfl
        rw [textOf_cons, replaceAll_append_of_match (text_ne_nil (hwf _ mem_cons_self)) hmatch]
        rfl
      | _ => cases hx
    · rw [filter_cons_of_pos (by simp [hx])] at hopen ⊢
      have hsub : textOf (ls.filter (fun y => !y.isComment)) <:+:
          textOf (x :: ls.filter (fun y => !y.isComment)) := by
        rw [textOf_cons]
        exact (suffix_append _ _).isInfix
      rw [textOf_cons, textOf_cons, ← ih hwf' (fun h => hopen (h.trans hsub))]
      refine replaceAll_append_of_none (fun v w hsplit hne => ?_)
      change reMultiLineComment (w ++ textOf ls) = none
      rw [reMultiLineComment, if_neg]
      rw [not_open hwf' ⟨v, hsplit.symm⟩ hne hopen]
      exact false_ne_true

end

section
variable {ls : List Lexeme} {x : Lexeme}

def Lexeme.unmarked : Lexeme → Bool
  | .quoted s => !s.contains doubleQuote && !s.contains backtick
  | .literal s => !s.contains doubleQuote && !s.contains backtick
  | .comment _ => false
  | .lineComment _ => false
  | _ => true

def Lexeme.Apart (x y : Lexeme) : Prop := x.isName = false ∨ y.isName = false

def Lexeme.unquote : Lexeme → Lexeme
  | .quoted s => if s.all isWord then .word s else .quoted s
  | x => x

variable {s rest : List Char} {mark : Char}

lemma unmarked_iff : !s.contains doubleQuote && !s.contains backtick ↔ doubleQuote ∉ s ∧ backtick ∉ s := by
  simp

lemma text_quoted (h : (Lexeme.quoted s).unmarked) :
    (Lexeme.quoted s).text = doubleQuote :: (s ++ [doubleQuote]) := by
  have hs : doubleQuote ∉ s := (unmarked_iff.mp h).1
  have hself : s.flatMap (fun c => if c = doubleQuote then [c, c] else [c]) = s := by
    refine (flatMap_congr (fun c hc => if_neg ?_)).trans (flatMap_singleton' s)
    rintro rfl
    exact hs hc
  rw [Lexeme.text, hself]

lemma mem_escape {c : Char} (h : c ∈ escape s) : c ∈ s := by
  obtain ⟨d, hd, hc⟩ := mem_flatMap.mp h
  split at hc
  · rename_i heq
    rw [heq] at hd
    rcases mem_cons.mp hc with rfl | hc
    · exact hd
    · rwa [mem_singleton.mp hc]
  · rwa [mem_singleton.mp hc]

lemma not_mem_text (hwf : x.wellFormed) (hx : x.unmarked)
    (hmark : mark = doubleQuote ∨ mark = backtick) (hquoted : ∀ s, x = .quoted s → mark = backtick) :
    mark ∉ x.text := by
  have hword : isWord mark = false ∧ isSpace mark = false ∧ mark ≠ quote := by
    rcases hmark with rfl | rfl <;> decide
  intro hmem
  cases x with
  | word =>
    rw [Lexeme.wellFormed, and_eq_true, all_eq_true] at hwf
    have := hwf.2 mark hmem
    rw [hword.1] at this
    cases this
  | quoted s =>
    have hb := hquoted s rfl
    rw [text_quoted hx, hb] at hmem
    rw [Lexeme.unmarked, unmarked_iff] at hx
    rcases mem_cons.mp hmem with h | h
    · exact absurd h (by decide)
    · rcases mem_append.mp h with h | h
      · exact hx.2 h
      · exact absurd (mem_singleton.mp h) (by decide)
  | literal =>
    rw [Lexeme.unmarked, unmarked_iff] at hx
    rcases mem_cons.mp hmem with h | h
    · exact hword.2.2 h
    · rcases mem_append.mp h with h | h
      · rcases hmark with rfl | rfl
        · exact hx.1 (mem_escape h)
        · exact hx.2 (mem_escape h)
      · exact hword.2.2 (mem_singleton.mp h)
  | symbol c =>
    simp only [Lexeme.wellFormed, Lexeme.isSymbol, and_eq_true, bne_iff_ne] at hwf
    have heq : mark = c := mem_singleton.mp hmem
    rcases hmark with rfl | rfl
    · exact hwf.1.2 heq.symm
    · exact hwf.2 heq.symm
  | blank c =>
    have heq : mark = c := mem_singleton.mp hmem
    rw [Lexeme.wellFormed, ← heq, hword.2.1] at hwf
    cases hwf
  | comment | lineComment => cases hx

lemma head_textOf (hwf : ∀ y ∈ ls, y.wellFormed) (hunmarked : ∀ y ∈ ls, y.unmarked)
    (h : ∀ y ∈ ls.head?, ∀ w, y ≠ .word w) : ∀ c ∈ (textOf ls).head?, isWord c = false := by
  cases ls with
  | nil => exact fun c hc => absurd hc (by simp)
  | cons y =>
    have hy := hwf y mem_cons_self
    have hmark := hunmarked y mem_cons_self
    intro c hc
    cases y with
    | word w => exact absurd rfl (h _ rfl w)
    | quoted | literal => cases hc; decide
    | symbol =>
      cases hc
      simp only [Lexeme.wellFormed, Lexeme.isSymbol, and_eq_true, not_eq_true'] at hy
      exact hy.1.1.1.1.1
    | blank =>
      cases hc
      exact isSpace_not_word hy
    | comment | lineComment => cases hmark

lemma reQuotedIdent_of_head {l : List Char} (h : l.head? ≠ some mark) :
    reQuotedIdent mark l = none := by
  rw [reQuotedIdent, if_neg]
  exact fun hl => h hl.1

lemma reQuotedIdent_word (hwf : (Lexeme.quoted s).wellFormed)
    (hmark : (Lexeme.quoted s).unmarked) (hword : s.all isWord) :
    reDoubleQuotedIdent ((Lexeme.quoted s).text ++ rest) = some (s, rest) := by
  have htake : (s ++ doubleQuote :: rest).takeWhile isWord = s := by
    rw [takeWhile_append_of_pos (all_eq_true.mp hword), takeWhile_cons_of_neg (by decide),
      append_nil]
  have hdrop : (s ++ doubleQuote :: rest).dropWhile isWord = doubleQuote :: rest := by
    rw [dropWhile_append_of_pos (all_eq_true.mp hword), dropWhile_cons_of_neg (by decide)]
  have hne : s ≠ [] := by
    rintro rfl
    cases hwf
  have htext : (Lexeme.quoted s).text ++ rest = doubleQuote :: (s ++ doubleQuote :: rest) := by
    simp [text_quoted hmark]
  rw [htext, reDoubleQuotedIdent, reQuotedIdent, if_pos]
  · rw [tail_cons, htake, hdrop, tail_cons]
  · rw [tail_cons, htake, hdrop]
    exact ⟨rfl, hne, rfl⟩

lemma reQuotedIdent_other (hmark : (Lexeme.quoted s).unmarked)
    (hword : ¬ s.all isWord) (hrest : ∀ c ∈ rest.head?, isWord c = false) :
    Within (fun l => reDoubleQuotedIdent l = none) (Lexeme.quoted s).text rest := by
  have hs : doubleQuote ∉ s := (unmarked_iff.mp hmark).1
  rw [text_quoted hmark]
  refine Within.cons ?_ (Within.append ?_ (Within.cons ?_ Within.nil))
  · -- the word at the beginning ends before the closing quote
    rw [reDoubleQuotedIdent, reQuotedIdent, if_neg]
    rintro ⟨-, -, hhead⟩
    have hne : s.dropWhile isWord ≠ [] := by
      rw [Ne, dropWhile_eq_nil_iff]
      exact fun h => hword (all_eq_true.mpr h)
    rw [tail_cons, append_assoc, dropWhile_append,
      if_neg (by simpa [List.isEmpty_iff] using hne), head?_append_of_ne_nil _ hne] at hhead
    exact hs ((dropWhile_suffix isWord).subset (mem_of_mem_head? hhead))
  · intro v w hsplit hne
    refine reQuotedIdent_of_head ?_
    obtain ⟨c, w, rfl⟩ := exists_cons_of_ne_nil hne
    rintro ⟨⟩
    exact hs (by rw [hsplit]; simp)
  · rw [reDoubleQuotedIdent, reQuotedIdent, if_neg]
    rintro ⟨-, htake, -⟩
    rw [nil_append, tail_cons] at htake
    cases rest with
    | nil => exact htake rfl
    | cons c => exact htake (takeWhile_cons_of_neg (by simp [hrest c rfl]))

lemma clean_quotes (hwf : ∀ y ∈ ls, y.wellFormed) (hunmarked : ∀ y ∈ ls, y.unmarked)
    (hapart : ls.IsChain Lexeme.Apart) :
    replaceAll reDoubleQuotedIdent (textOf ls) = textOf (ls.map Lexeme.unquote) := by
  induction ls with
  | nil => rfl
  | cons x ls ih =>
    have hx := hwf x mem_cons_self
    have hmark := hunmarked x mem_cons_self
    have hwf' := fun y hy => hwf y (.tail x hy)
    have hunmarked' := fun y hy => hunmarked y (.tail x hy)
    have ih := ih hwf' hunmarked' hapart.of_cons
    rw [map_cons, textOf_cons, textOf_cons, ← ih]
    by_cases hquoted : ∃ s, x = .quoted s
    · obtain ⟨s, rfl⟩ := hquoted
      by_cases hword : s.all isWord
      · rw [Lexeme.unquote, if_pos hword]
        exact replaceAll_append_of_match (text_ne_nil hx) (reQuotedIdent_word hx hmark hword)
      · rw [Lexeme.unquote, if_neg hword]
        refine replaceAll_append_of_none (reQuotedIdent_other hmark hword ?_)
        refine head_textOf hwf' hunmarked' (fun y hy w hyw => ?_)
        cases ls with
        | nil => cases hy
        | cons =>
          cases hy
          rw [hyw, isChain_cons_cons] at hapart
          rcases hapart.1 with h | h <;> cases h
    · have hnot : doubleQuote ∉ x.text :=
        not_mem_text hx hmark (.inl rfl) (fun s hs => absurd ⟨s, hs⟩ hquoted)
      have hself : x.unquote = x := by
        cases x with
        | quoted s => exact absurd ⟨s, rfl⟩ hquoted
        | _ => rfl
      rw [hself]
      refine replaceAll_append_of_none (fun v w hsplit hne => reQuotedIdent_of_head ?_)
      obtain ⟨c, w, rfl⟩ := exists_cons_of_ne_nil hne
      rintro ⟨⟩
      exact hnot (by rw [hsplit]; simp)

end

section
variable {ls : List Lexeme} {x : Lexeme}

lemma clean_backticks (hwf : ∀ y ∈ ls, y.wellFormed) (hunmarked : ∀ y ∈ ls, y.unmarked) :
    replaceAll reBacktickIdent (textOf ls) = textOf ls := by
  refine replaceAll_eq_self (fun s hs => reQuotedIdent_of_head (fun hhead => ?_))
  have hmem : backtick ∈ textOf ls := hs.subset (mem_of_mem_head? hhead)
  obtain ⟨x, hx, hc⟩ := mem_flatMap.mp hmem
  exact not_mem_text (hwf x hx) (hunmarked x hx) (.inr rfl) (fun _ _ => rfl) hc

lemma text_ends (hblank : x.isBlank = false) (hwf : x.wellFormed) (hx : x.unmarked) :
    (∃ c cs, x.text = c :: cs ∧ isTrimmed c = false) ∧ ∃ cs c, x.text = cs ++ [c] ∧ isTrimmed c = false := by
  cases x with
  | word =>
    rw [Lexeme.wellFormed, and_eq_true, all_eq_true, bne_iff_ne] at hwf
    obtain ⟨hne, hword⟩ := hwf
    obtain ⟨c, cs, rfl⟩ := exists_cons_of_ne_nil hne
    refine ⟨⟨c, cs, rfl, isWord_not_trimmed (hword c (.head _))⟩,
      (c :: cs).dropLast, (c :: cs).getLast hne, (dropLast_concat_getLast hne).symm, ?_⟩
    exact isWord_not_trimmed (hword _ (getLast_mem hne))
  | quoted s => exact ⟨⟨_, _, rfl, by decide⟩, doubleQuote :: s, _, text_quoted hx, by decide⟩
  | literal s => exact ⟨⟨_, _, rfl, by decide⟩, quote :: escape s, _, rfl, by decide⟩
  | symbol c =>
    simp only [Lexeme.wellFormed, Lexeme.isSymbol, and_eq_true, not_eq_true'] at hwf
    exact ⟨⟨c, [], rfl, hwf.1.1.1.2⟩, [], c, rfl, hwf.1.1.1.2⟩
  | blank => cases hblank
  | comment | lineComment => cases hx

lemma text_blank (hblank : x.isBlank) (hwf : x.wellFormed) : ∃ c, x.text = [c] ∧ isTrimmed c := by
  cases x with
  | blank c => exact ⟨c, rfl, isSpace_trimmed hwf⟩
  | _ => cases hblank

lemma dropWhile_textOf (hwf : ∀ y ∈ ls, y.wellFormed) (hunmarked : ∀ y ∈ ls, y.unmarked) :
    (textOf ls).dropWhile isTrimmed = textOf (ls.dropWhile Lexeme.isBlank) := by
  induction ls with
  | nil => rfl
  | cons x ls ih =>
    rw [forall_mem_cons] at hwf hunmarked
    rw [textOf_cons]
    by_cases hblank : x.isBlank
    · obtain ⟨c, hc, htrim⟩ := text_blank hblank hwf.1
      rw [hc, singleton_append, dropWhile_cons_of_pos htrim, dropWhile_cons_of_pos hblank,
        ih hwf.2 hunmarked.2]
    · obtain ⟨⟨c, cs, hc, htrim⟩, -⟩ := text_ends (eq_false_iff.mpr hblank) hwf.1 hunmarked.1
      rw [dropWhile_cons_of_neg hblank, textOf_cons, hc, cons_append,
        dropWhile_cons_of_neg (by simp [htrim])]

lemma rdropWhile_textOf (hwf : ∀ y ∈ ls, y.wellFormed) (hunmarked : ∀ y ∈ ls, y.unmarked) :
    (textOf ls).rdropWhile isTrimmed = textOf (ls.rdropWhile Lexeme.isBlank) := by
  induction ls using reverseRecOn with
  | nil => rfl
  | append_singleton ls x ih =>
    rw [forall_mem_append, forall_mem_singleton] at hwf hunmarked
    rw [textOf_append, textOf_cons, textOf_nil, append_nil]
    by_cases hblank : x.isBlank
    · obtain ⟨c, hc, htrim⟩ := text_blank hblank hwf.2
      rw [hc, rdropWhile_concat_pos _ _ _ htrim, rdropWhile_concat_pos _ _ _ hblank,
        ih hwf.1 hunmarked.1]
    · obtain ⟨-, cs, c, hc, htrim⟩ := text_ends (eq_false_iff.mpr hblank) hwf.2 hunmarked.2
      rw [rdropWhile_concat_neg _ _ _ hblank, textOf_append, textOf_cons, textOf_nil, append_nil,
        hc, ← append_assoc, rdropWhile_concat_neg _ _ _ (by simp [htrim])]

def trimmed (ls : List Lexeme) : List Lexeme :=
  (ls.dropWhile Lexeme.isBlank).rdropWhile Lexeme.isBlank

lemma clean_ends (hwf : ∀ y ∈ ls, y.wellFormed) (hunmarked : ∀ y ∈ ls, y.unmarked) :
    trimSpace (textOf ls) = textOf (trimmed ls) := by
  have hsub := (dropWhile_suffix (l := ls) Lexeme.isBlank).subset
  change ((textOf ls).dropWhile isTrimmed).rdropWhile isTrimmed = _
  rw [dropWhile_textOf hwf hunmarked,
    rdropWhile_textOf (fun y hy => hwf y (hsub hy)) (fun y hy => hunmarked y (hsub hy)), trimmed]

end

variable {ts : List Token} {ls : List Lexeme} {x : Lexeme}

def isTrigger (w : List Char) : Bool :=
  ["from", "join", "update", "insert", "delete"].any (fun kw => toLower w == kw.toList)

def isCalm (l : List Char) : Bool :=
  (parts l).all (fun p => match p with | .word w => !isTrigger w | _ => true) &&
    !l.contains doubleQuote && !l.contains backtick

def Piece.plain : Piece → Bool
  | .bare w => !isTrigger w
  | .ident n => isCalm n && toLower n != "as".toList
  | .literal s => isCalm (Lexeme.literal s).text
  | .symbol _ => true

def Token.plain : Token → Bool
  | .keyword _ => true
  | .piece p => Piece.plain p

lemma mem_escape_of_mem {s : List Char} {c : Char} (h : c ∈ s) : c ∈ escape s :=
  mem_flatMap.mpr ⟨c, h, by split <;> simp [*]⟩

lemma unmarked_of_spells {t : Token} (h : Token.spells t x) (ht : Token.plain t) :
    x.unmarked = true := by
  unfold Token.spells at h
  split at h
  · rfl
  · rfl
  · rfl
  · rename_i n s
    rw [beq_iff_eq] at h
    subst h
    simp only [Token.plain, Piece.plain, isCalm, and_eq_true] at ht
    rw [Lexeme.unmarked, ht.1.1.2, ht.1.2]
    rfl
  · rename_i s s'
    rw [beq_iff_eq] at h
    subst h
    simp only [Token.plain, Piece.plain, isCalm, and_eq_true, not_eq_true',
      contains_eq_mem, decide_eq_false_iff_not] at ht
    have hnot : ∀ c, c ∉ (Lexeme.literal s).text → c ∉ s := by
      intro c hc hmem
      exact hc (.tail _ (mem_append_left _ (mem_escape_of_mem hmem)))
    simp [Lexeme.unmarked, hnot _ ht.1.2, hnot _ ht.2]
  · rfl
  · cases h

lemma exists_spells (h : Spells ts ls) (hx : x ∈ ls) (hgap : x.isGap = false) :
    ∃ t ∈ ts, Token.spells t x := by
  induction h with
  | nil => cases hx
  | gap hy _ _ ih =>
    rcases mem_cons.mp hx with rfl | hx
    · exact absurd hy (by simp [hgap])
    · exact ih hx
  | @token t ts y ls _ _ hspells _ ih =>
    rcases mem_cons.mp hx with rfl | hx
    · exact ⟨t, mem_cons_self, hspells⟩
    · obtain ⟨u, hu, hspells⟩ := ih hx
      exact ⟨u, .tail t hu, hspells⟩

@[simp] theorem isGap_unquote (x : Lexeme) : x.unquote.isGap = x.isGap := by
  cases x with
  | quoted =>
    rw [Lexeme.unquote]
    split <;> rfl
  | _ => rfl

@[simp] theorem isName_unquote (x : Lexeme) : x.unquote.isName = x.isName := by
  cases x with
  | quoted =>
    rw [Lexeme.unquote]
    split <;> rfl
  | _ => rfl

lemma wellFormed_unquote (h : x.wellFormed) : x.unquote.wellFormed := by
  cases x with
  | quoted s =>
    rw [Lexeme.unquote]
    split
    · rename_i hword
      rw [Lexeme.wellFormed, hword, Bool.and_true]
      exact h
    · exact h
  | _ => exact h

lemma unmarked_unquote (h : x.unmarked) : x.unquote.unmarked := by
  cases x with
  | quoted =>
    rw [Lexeme.unquote]
    split
    · rfl
    · exact h
  | _ => exact h

lemma spells_unquote {t : Token} (h : Token.spells t x) : Token.spells t x.unquote := by
  cases x with
  | quoted =>
    rw [Lexeme.unquote]
    split
    · unfold Token.spells at h ⊢
      split at h <;> first | exact h | simp_all
    · exact h
  | _ => exact h

lemma Spells.unquote (h : Spells ts ls) : Spells ts (ls.map Lexeme.unquote) := by
  induction h with
  | nil => exact .nil
  | gap hgap hwf _ ih => exact .gap (by simpa using hgap) (wellFormed_unquote hwf) ih
  | token hgap hwf hx _ ih =>
    exact .token (by simpa using hgap) (wellFormed_unquote hwf) (spells_unquote hx) ih

structure Tidy (ls : List Lexeme) : Prop where
  wellFormed : ∀ x ∈ ls, x.wellFormed = true
  unmarked : ∀ x ∈ ls, x.unmarked = true
  unquoted : ∀ s, .quoted s ∈ ls → ¬ s.all isWord = true
  apart : ls.IsChain Lexeme.Apart

lemma Tidy.sub {ms : List Lexeme} (h : Tidy ls) (hms : ms <:+: ls) : Tidy ms where
  wellFormed x hx := h.wellFormed x (hms.subset hx)
  unmarked x hx := h.unmarked x (hms.subset hx)
  unquoted s hs := h.unquoted s (hms.subset hs)
  apart := by
    obtain ⟨s, t, rfl⟩ := hms
    exact h.apart.left_of_append.right_of_append

lemma trimmed_isInfix (ls : List Lexeme) : trimmed ls <:+: ls :=
  (List.rdropWhile_prefix _ _).isInfix.trans (dropWhile_suffix _).isInfix

lemma unmarked_of_spelled (hspelled : Spells ts ls) (hplain : ∀ t ∈ ts, Token.plain t)
    (hline : ¬ "--".toList <:+: textOf ls) :
    ∀ x ∈ ls.filter (fun y => !y.isComment), x.unmarked := by
  intro x hx
  obtain ⟨hx, hcomment⟩ := mem_filter.mp hx
  cases hgap : x.isGap with
  | false =>
    obtain ⟨t, ht, hspells⟩ := exists_spells hspelled hx hgap
    exact unmarked_of_spells hspells (hplain t ht)
  | true =>
    cases x with
    | blank => rfl
    | comment => cases hcomment
    | lineComment s =>
      obtain ⟨before, after, hsplit⟩ := append_of_mem hx
      refine absurd ⟨textOf before, s ++ ['\n'] ++ textOf after, ?_⟩ hline
      rw [hsplit, textOf_append, textOf_cons]
      simp [Lexeme.text]
    | _ => cases hgap

lemma exists_tidy (hspelled : Spells ts ls) (hplain : ∀ t ∈ ts, Token.plain t)
    (hline : ¬ "--".toList <:+: textOf ls)
    (hopen : ¬ "/*".toList <:+: textOf (ls.filter (fun y => !y.isComment)))
    (hapart : (ls.filter (fun y => !y.isComment)).IsChain Lexeme.Apart) :
    ∃ ms, Tidy ms ∧ Spells ts ms ∧ parts (cleanSQL (textOf ls)) = parts (textOf ms) := by
  have hwf := hspelled.wellFormed
  have hunmarked := unmarked_of_spelled hspelled hplain hline
  have hkept : Spells ts (ls.filter (fun y => !y.isComment)) := by
    refine hspelled.filter (fun x hx => ?_)
    cases x <;> first | rfl | cases hx
  have hwf' := hkept.wellFormed
  have hcomments := clean_comments hwf hopen
  generalize ls.filter (fun y => !y.isComment) = ms at *
  have hunquote : Tidy (ms.map Lexeme.unquote) := by
    refine ⟨fun x hx => ?_, fun x hx => ?_, fun s hs => ?_, ?_⟩
    · obtain ⟨y, hy, rfl⟩ := mem_map.mp hx
      exact wellFormed_unquote (hwf' y hy)
    · obtain ⟨y, hy, rfl⟩ := mem_map.mp hx
      exact unmarked_unquote (hunmarked y hy)
    · obtain ⟨y, hy, heq⟩ := mem_map.mp hs
      cases y with
      | quoted s' =>
        rw [Lexeme.unquote] at heq
        split at heq <;> cases heq
        · assumption
      | _ => cases heq
    · rw [isChain_map]
      refine hapart.imp (fun x y h => ?_)
      rw [Lexeme.Apart, isName_unquote, isName_unquote]
      exact h
  refine ⟨trimmed (ms.map Lexeme.unquote), hunquote.sub (trimmed_isInfix _),
    hkept.unquote.dropWhile.rdropWhile, ?_⟩
  rw [← clean_ends hunquote.wellFormed hunquote.unmarked, cleanSQL]
  simp [clean_lineComments hline, hcomments, clean_quotes hwf' hunmarked hapart, clean_backticks hunquote.wellFormed hunquote.unmarked, parts_whitespace]

end MinIODB.Query.TableExtractor
