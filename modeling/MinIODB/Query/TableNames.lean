import MinIODB.Query.StatementParts

/-!
# Exact table names

In the parts of a clean text, every word that the patterns look for is the FROM or the JOIN of a
table, the part after it is the name of the table, and the alias that a pattern takes along with
the name is never the next FROM or JOIN. So the names that are found are those of the statement.
-/
namespace MinIODB.Query.TableExtractor
open Matching List String Keyword

/-- A clean text of tokens that are read as the given names. -/
structure Readable (ts : List Token) (ns : List (List Char)) (ls : List Lexeme) : Prop where
  tidy : Tidy ls
  spelled : Spells ts ls
  plain : ∀ t ∈ ts, Token.plain t = true
  reads : Reads ts ns
  valid : ∀ n ∈ ns, isValidTableName n = true

section
variable {ts us : List Token} {ns : List (List Char)} {ls ms : List Lexeme} {k : Keyword}
  {w n : List Char} {s l : List Part}

lemma Readable.suffix (h : Readable ts ns ls) (hus : us <:+ ts) (hspelled : Spells us ms)
    (hms : ms <:+ ls) : ∃ ns', Readable us ns' ms ∧ ns' <:+ ns := by
  obtain ⟨ns', hreads, hns⟩ := h.reads.of_suffix hus
  exact ⟨ns', ⟨h.tidy.sub hms.isInfix, hspelled, fun t ht => h.plain t (hus.subset ht), hreads,
    fun n hn => h.valid n (hns.subset hn)⟩, hns⟩

lemma isTrigger_of_introduces (hk : (Token.keyword k).introduces)
    (hw : toLower w = (text k).toList) : isTrigger w := by
  rw [isTrigger, hw]
  cases k <;> first | rfl | cases hk

lemma keyword_of_text {k' : Keyword} (hk : (Token.keyword k).introduces)
    (h : k'.text = k.text) : k' = k := by
  cases k with
  | from' | join =>
    cases k' with
    | ofJoin w => cases w <;> exact absurd h (by decide)
    | _ => first | rfl | exact absurd h (by decide)
  | _ => cases hk

lemma isWord_of_valid (h : isValidTableName n) : n ≠ [] ∧ ∀ c ∈ n, isWord c := by
  rw [isValidTableName, Bool.and_eq_true, Bool.and_eq_true, all_eq_true] at h
  refine ⟨?_, h.2⟩
  rintro rfl
  simp at h

lemma parts_of_name {x : Lexeme} (hspells : Token.spells (.ident n) x) (h : Tidy ls) (hx : x ∈ ls)
    (hn : isValidTableName n) : x = .word n ∧ parts x.text = [.word n] := by
  obtain ⟨hne, hword⟩ := isWord_of_valid hn
  cases x with
  | word v =>
    have heq : n = v := by simpa [Token.spells] using hspells
    subst heq
    exact ⟨rfl, parts_word hne hword⟩
  | quoted v =>
    have heq : n = v := by simpa [Token.spells] using hspells
    subst heq
    exact absurd (all_eq_true.mpr hword) (h.unquoted n hx)
  | _ => cases hspells

lemma after_keyword (h : Readable ts ns ls) (hk : (Token.keyword k).introduces)
    (hw : toLower w = (text k).toList) (hs : .word w :: .space :: l <:+ parts (textOf ls)) :
    (∃ n us ms, n ∈ ns ∧ .keyword k :: .ident n :: us <:+ ts ∧ follows us ∧
      Spells us ms ∧ ms <:+ ls ∧ l = .word n :: parts (textOf ms)) ∨
    ∃ ps, l = .other '(' :: ps := by
  obtain ⟨k', us, ms, hk', hus, hspelled, hms, heq⟩ :=
    exists_keyword h.tidy h.spelled h.plain (isTrigger_of_introduces hk hw) hs
  have hkk : k' = k := keyword_of_text hk (toList_inj.mp (hk'.symm.trans hw))
  subst hkk
  have htidy := h.tidy.sub hms.isInfix
  obtain ⟨ns', hreads, hns⟩ := h.reads.of_suffix hus
  cases hreads with
  | skip ht =>
    rw [hk] at ht
    cases ht
  | @name _ n us ns' ht hfollows _ =>
    have hn : n ∈ ns := hns.subset (.head _)
    obtain ⟨x, ms', -, hspells, hspelled', hx, hparts⟩ := parts_cons htidy hspelled
    obtain ⟨-, hname⟩ := parts_of_name hspells htidy (hx.subset (.head _)) (h.valid n hn)
    have hms' : ms' <:+ ls := (suffix_cons x ms').trans (hx.trans hms)
    refine .inl ⟨n, us, ms', hn, hus, hfollows, hspelled', hms', ?_⟩
    rw [hname] at hparts
    obtain ⟨-, hparts⟩ | hparts := hparts
    · rw [hparts] at heq
      cases heq
    · rw [hparts, List.cons.injEq] at heq
      exact heq.2
  | @derived _ us _ ht _ =>
    obtain ⟨x, ms', -, hspells, -, -, hparts⟩ := parts_cons htidy hspelled
    cases x with
    | symbol c =>
      have hc : '(' = c := by simpa [Token.spells] using hspells
      subst hc
      have hparen : parts (Lexeme.symbol '(').text = [.other '('] := by decide
      rw [hparen] at hparts
      obtain ⟨-, hparts⟩ | hparts := hparts
      · rw [hparts] at heq
        cases heq
      · rw [hparts, List.cons.injEq] at heq
        exact .inr ⟨_, heq.2⟩
    | _ => cases hspells

lemma token_of_symbol {t : Token} {c : Char} (h : Token.spells t (.symbol c)) : t = .symbol c := by
  cases t with
  | keyword => cases h
  | piece p =>
    cases p with
    | symbol d =>
      have heq : d = c := by simpa [Token.spells] using h
      rw [heq]
    | _ => cases h

variable {a : List Char} {ps : List Part}

lemma not_dot (htidy : Tidy ms) (hspelled : Spells us ms) (hfollows : follows us)
    {c : Char} (heq : parts (textOf ms) = .other c :: ps) : c ≠ '.' := by
  cases us with
  | nil =>
    obtain h | h := parts_nil htidy hspelled
    · rw [h] at heq
      cases heq
    · rw [h] at heq
      cases heq
  | cons =>
    obtain ⟨x, ms', hgap, hspells, -, hx, ⟨-, hparts⟩ | hparts⟩ := parts_cons htidy hspelled
    · have hwf := htidy.wellFormed x (hx.subset mem_cons_self)
      have hmark := htidy.unmarked x (hx.subset mem_cons_self)
      rw [hparts] at heq
      obtain ⟨v, -, h⟩ | ⟨d, qs, h, hd⟩ := parts_text_cases hgap hwf hmark
      · rw [h] at heq
        cases heq
      · rw [h] at heq
        cases heq
        obtain rfl | rfl | rfl := hd
        · decide
        · decide
        · rw [token_of_symbol hspells] at hfollows
          simpa [follows] using hfollows
    · rw [hparts] at heq
      cases heq

lemma tableName_word (h : ∀ c qs, ps = .other c :: qs → c ≠ '.') :
    tableName (.word n :: ps) = some (n, ps) := by
  match ps with
  | [] => rfl
  | .word v :: qs => rfl
  | .space :: qs => rfl
  | [.other c] => rfl
  | .other c :: .word v :: qs => rw [tableName, if_neg (h c _ rfl)]
  | .other c :: .space :: qs => rfl
  | .other c :: .other d :: qs => rfl

lemma afterAlias_word (a : List Char) (ps : List Part) :
    afterAlias (.space :: .word a :: ps) = ps ∨
      toLower a = "as".toList ∧ ∃ v qs, ps = .space :: .word v :: qs ∧
        afterAlias (.space :: .word a :: ps) = qs := by
  match ps with
  | .space :: .word v :: qs =>
    rw [afterAlias]
    split
    · rename_i has
      exact .inr ⟨has, v, qs, rfl, rfl⟩
    · exact .inl rfl
  | [] => exact .inl rfl
  | .word v :: qs => exact .inl rfl
  | .other c :: qs => exact .inl rfl
  | [.space] => exact .inl rfl
  | .space :: .space :: qs => exact .inl rfl
  | .space :: .other c :: qs => exact .inl rfl

lemma afterAlias_other (h : ∀ a qs, ps ≠ .space :: .word a :: qs) : afterAlias ps = ps := by
  match ps with
  | [] => rfl
  | .word v :: qs => rfl
  | .other c :: qs => rfl
  | [.space] => rfl
  | .space :: .word v :: qs => exact absurd rfl (h v qs)
  | .space :: .space :: qs => rfl
  | .space :: .other c :: qs => rfl

lemma first_word (htidy : Tidy ms)
    (hspelled : Spells us ms) (heq : parts (textOf ms) = .space :: .word a :: ps) :
    ∃ t us' ms', us = t :: us' ∧ Token.spells t (.word a) ∧ Spells us' ms' ∧
      .word a :: ms' <:+ ms ∧ ps = parts (textOf ms') := by
  cases us with
  | nil =>
    obtain h | h := parts_nil htidy hspelled
    · rw [h] at heq
      cases heq
    · rw [h] at heq
      cases heq
  | cons t us =>
    obtain ⟨x, ms', hgap, hspells, hspelled', hx, hparts⟩ := parts_cons htidy hspelled
    have hwf := htidy.wellFormed x (hx.subset mem_cons_self)
    have hmark := htidy.unmarked x (hx.subset mem_cons_self)
    obtain ⟨-, hparts⟩ | hparts := hparts
    · exact absurd (hparts.symm.trans heq) (parts_text_not_space hgap hwf hmark _ _)
    · rw [hparts, List.cons.injEq] at heq
      obtain ⟨v, rfl, h⟩ | ⟨d, qs, h, -⟩ := parts_text_cases hgap hwf hmark
      · rw [h] at heq
        cases heq.2
        exact ⟨t, us, ms', rfl, hspells, hspelled', hx, rfl⟩
      · rw [h] at heq
        cases heq.2

lemma not_trigger_of_word {t : Token} (htidy : Tidy ms) (ha : .word a ∈ ms)
    (hspells : Token.spells t (.word a)) (hplain : Token.plain t)
    (ht : ∀ k, t ≠ .keyword k) : isTrigger a = false := by
  have hwf := htidy.wellFormed _ ha
  cases t with
  | keyword k => exact absurd rfl (ht k)
  | piece =>
    refine not_trigger_of_spells hspells hplain hwf (htidy.unmarked _ ha) ?_
    simp only [Lexeme.wellFormed, Bool.and_eq_true, bne_iff_ne, all_eq_true] at hwf
    rw [Lexeme.text, parts_word hwf.1 hwf.2]
    exact mem_singleton_self _

lemma ident_of_follows (h : follows (.keyword .as' :: us)) :
    ∃ n us', us = .piece (.ident n) :: us' := by
  cases us with
  | nil => cases h
  | cons t us =>
    cases t with
    | keyword => cases h
    | piece p =>
      cases p with
      | ident n => exact ⟨n, us, rfl⟩
      | _ => cases h

lemma after_as {v : List Char} (h : Readable us ns ms) (hfollows : follows us)
    (heq : parts (textOf ms) = .space :: .word a :: .space :: .word v :: ps)
    (ha : toLower a = "as".toList) : isTrigger v = false := by
  obtain ⟨t, us', ms', rfl, hspells, hspelled, hms, hrest⟩ := first_word h.tidy h.spelled heq
  have hplain := h.plain t mem_cons_self
  cases t with
  | piece p =>
    cases p with
    | bare => cases hfollows
    | ident n =>
      have hn : n = a := by simpa [Token.spells] using hspells
      rw [Token.plain, Piece.plain, hn, ha, Bool.and_eq_true] at hplain
      cases hplain.2
    | literal | symbol => cases hspells
  | keyword k =>
    have hk : k.text = "as" := by
      have htext : toLower a = k.text.toList := by simpa [Token.spells] using hspells
      exact toList_inj.mp (htext.symm.trans ha)
    have has : k = .as' := by
      cases k with
      | ofJoin w => cases w <;> exact absurd hk (by decide)
      | _ => first | rfl | exact absurd hk (by decide)
    subst has
    obtain ⟨n, us'', rfl⟩ := ident_of_follows hfollows
    have hms' : ms' <:+ ms := (suffix_cons _ ms').trans hms
    have htidy := h.tidy.sub hms'.isInfix
    obtain ⟨t, us', ms'', ht, hspells', -, hmem, -⟩ := first_word htidy hspelled hrest.symm
    cases ht
    exact not_trigger_of_word htidy (hmem.subset mem_cons_self) hspells' (h.plain _ (by simp)) (by simp)

lemma suffix_afterAlias (h : Readable us ns ms) (hfollows : follows us)
    (hk : (Token.keyword k).introduces) (hhead : us.head? ≠ some (.keyword k))
    (hw : toLower w = (text k).toList) (hs : .word w :: s <:+ parts (textOf ms)) :
    .word w :: s <:+ afterAlias (parts (textOf ms)) := by
  have htrigger := isTrigger_of_introduces hk hw
  by_cases hfirst : ∃ a ps, parts (textOf ms) = .space :: .word a :: ps
  swap
  · rw [afterAlias_other (fun a qs heq => hfirst ⟨a, qs, heq⟩)]
    exact hs
  obtain ⟨a, ps, heq⟩ := hfirst
  obtain ⟨t, us', ms', rfl, hspells, -, hms, -⟩ := first_word h.tidy h.spelled heq
  have hne : w ≠ a := by
    rintro rfl
    cases t with
    | piece =>
      rw [not_trigger_of_word h.tidy (hms.subset mem_cons_self) hspells
        (h.plain _ mem_cons_self) (by simp)] at htrigger
      cases htrigger
    | keyword k' =>
      have htext : toLower w = k'.text.toList := by simpa [Token.spells] using hspells
      exact hhead (by rw [keyword_of_text hk (toList_inj.mp (htext.symm.trans hw))]; rfl)
  have hps : .word w :: s <:+ ps := by
    rw [heq] at hs
    obtain hs | hs := suffix_cons_iff.mp hs
    · cases hs
    obtain hs | hs := suffix_cons_iff.mp hs
    · cases hs
      exact absurd rfl hne
    · exact hs
  rw [heq]
  obtain halias | ⟨has, v, qs, rfl, halias⟩ := afterAlias_word a ps
  · rw [halias]
    exact hps
  · rw [halias]
    have hv := after_as h hfollows heq has
    obtain hs | hs := suffix_cons_iff.mp hps
    · cases hs
    obtain hs | hs := suffix_cons_iff.mp hs
    · cases hs
      rw [hv] at htrigger
      cases htrigger
    · exact hs

end

section
variable {ts : List Token} {ns : List (List Char)} {ls : List Lexeme} {k : Keyword}
  {w n : List Char} {s l r : List Part}

def introducing (kw : String) (ps : List Part) : Option (List Char × List Part) :=
  (afterWord kw ps).bind aliasedTable

variable {kw : String}

lemma afterWord_eq_some (h : afterWord kw s = some l) :
    ∃ w, s = .word w :: .space :: l ∧ toLower w = kw.toList := by
  unfold afterWord at h
  split at h
  · rename_i w ps
    split at h <;> cases h
    · rename_i hw
      exact ⟨w, rfl, hw⟩
  · cases h

lemma afterWord_word (h : toLower w = kw.toList) :
    afterWord kw (.word w :: .space :: l) = some l := by
  rw [afterWord, if_pos h]

lemma afterWord_ne (h : toLower w ≠ kw.toList) : afterWord kw (.word w :: l) = none := by
  cases l with
  | nil => rfl
  | cons p =>
    cases p with
    | space => rw [afterWord, if_neg h]
    | _ => rfl

section
variable (h : Readable ts ns ls)
include h

lemma introducing_spec (hk : (Token.keyword k).introduces)
    (hs : s <:+ parts (textOf ls)) (hm : introducing k.text s = some (n, r)) :
    ∃ w us ms, n ∈ ns ∧ .keyword k :: .ident n :: us <:+ ts ∧ follows us ∧
      Spells us ms ∧ ms <:+ ls ∧ toLower w = (text k).toList ∧
      s = .word w :: .space :: .word n :: parts (textOf ms) ∧ r = afterAlias (parts (textOf ms)) := by
  obtain ⟨l, hl, htable⟩ := Option.bind_eq_some_iff.mp hm
  obtain ⟨w, rfl, hw⟩ := afterWord_eq_some hl
  obtain ⟨n', us, ms, hn, hus, hfollows, hspelled, hms, rfl⟩ | ⟨ps, rfl⟩ := after_keyword h hk hw hs
  · have htidy := h.tidy.sub hms.isInfix
    rw [aliasedTable, tableName_word (fun c qs heq => not_dot htidy hspelled hfollows heq)] at htable
    cases htable
    exact ⟨w, us, ms, hn, hus, hfollows, hspelled, hms, hw, rfl, rfl⟩
  · cases htable

lemma introducing_ends (hk : (Token.keyword k).introduces)
    (hhead : ∀ n us, .keyword k :: .ident n :: us <:+ ts → us.head? ≠ some (.keyword k))
    (hs : s <:+ parts (textOf ls)) (hm : introducing k.text s = some (n, r))
    (hw : toLower w = (text k).toList) (hl : .word w :: l <:+ s) (hne : s ≠ .word w :: l) :
    .word w :: l <:+ r := by
  obtain ⟨v, us, ms, hn, hus, hfollows, hspelled, hms, hv, rfl, rfl⟩ := introducing_spec h hk hs hm
  have htrigger := isTrigger_of_introduces hk hw
  have hname : isTrigger n = false := by
    have hplain := h.plain (.ident n) (hus.subset (by simp))
    obtain ⟨hne, hword⟩ := isWord_of_valid (h.valid n hn)
    rw [Token.plain, Piece.plain, Bool.and_eq_true] at hplain
    exact not_trigger_of_isCalm hplain.1 (by rw [parts_word hne hword]; simp)
  have hsuffix : us <:+ ts := ((suffix_cons _ us).trans (suffix_cons _ _)).trans hus
  obtain ⟨ns', hread, -⟩ := h.suffix hsuffix hspelled hms
  refine suffix_afterAlias hread hfollows hk (hhead n us hus) hw ?_
  obtain hl | hl := suffix_cons_iff.mp hl
  · exact absurd hl.symm hne
  obtain hl | hl := suffix_cons_iff.mp hl
  · cases hl
  obtain hl | hl := suffix_cons_iff.mp hl
  · cases hl
    rw [hname] at htrigger
    cases htrigger
  · exact hl

lemma exists_introducing (hn : n ∈ ns) :
    ∃ k w l r, (Token.keyword k).introduces ∧ toLower w = (text k).toList ∧
      .word w :: .space :: l <:+ parts (textOf ls) ∧
      introducing k.text (.word w :: .space :: l) = some (n, r) := by
  obtain ⟨t, us, ht, hfollows, hus⟩ := h.reads.exists_of_mem hn
  obtain ⟨ms, hms, hspelled⟩ := spells_suffix hus h.spelled
  have htidy := h.tidy.sub hms.isInfix
  obtain ⟨x, ms', hgap, hx, hspelled', hxms, hparts⟩ := parts_cons htidy hspelled
  cases t with
  | piece => cases ht
  | keyword k =>
    cases x with
    | word w =>
      have hwf := htidy.wellFormed _ (hxms.subset mem_cons_self)
      simp only [Lexeme.wellFormed, Bool.and_eq_true, bne_iff_ne, all_eq_true] at hwf
      have htidy' := htidy.sub ((suffix_cons _ ms').trans hxms).isInfix
      obtain ⟨y, ms'', -, hy, hspelled'', hyms, hparts'⟩ := parts_cons htidy' hspelled'
      obtain ⟨rfl, hyparts⟩ := parts_of_name hy htidy' (hyms.subset (.head _)) (h.valid n hn)
      have htidy'' := htidy'.sub ((suffix_cons _ ms'').trans hyms).isInfix
      -- two words do not stand side by side
      have hspace : parts (textOf ms') = .space :: .word n :: parts (textOf ms'') := by
        obtain ⟨rfl, -⟩ | hparts' := hparts'
        · have hapart := (htidy.apart.suffix hxms)
          rcases (isChain_cons_cons.mp hapart).1 with hname | hname <;> cases hname
        · rw [hparts', hyparts]
          rfl
      refine ⟨k, w, .word n :: parts (textOf ms''), afterAlias (parts (textOf ms'')), ht,
        by simpa [Token.spells] using hx, ?_, ?_⟩
      · refine List.IsSuffix.trans ?_ (suffix_parts h.tidy (hxms.trans hms))
        rw [parts_textOf_token (htidy.sub hxms.isInfix) rfl, Lexeme.text, parts_word hwf.1 hwf.2, hspace]
        exact suffix_rfl
      · rw [introducing, afterWord_word (by simpa [Token.spells] using hx), Option.bind_some, aliasedTable,
          tableName_word (fun c qs heq => not_dot htidy'' hspelled'' hfollows heq)]
        rfl
    | _ => cases hx

end

end

section
variable {ps qs : List Part}

def KeepsJoins (ps qs : List Part) : Prop :=
  qs <:+ ps ∧ ∀ w s, toLower w = "join".toList → .word w :: s <:+ ps → .word w :: s <:+ qs

lemma KeepsJoins.rfl : KeepsJoins ps ps := ⟨suffix_rfl, fun _ _ _ h => h⟩

lemma KeepsJoins.trans {rs : List Part} (h : KeepsJoins ps qs) (h' : KeepsJoins qs rs) : KeepsJoins ps rs :=
  ⟨h'.1.trans h.1, fun w s hw hs => h'.2 w s hw (h.2 w s hw hs)⟩

lemma keepsJoins_afterWord {kw : String} (hkw : kw ≠ "join") (h : afterWord kw ps = some qs) :
    KeepsJoins ps qs := by
  obtain ⟨v, rfl, hv⟩ := afterWord_eq_some h
  refine ⟨(suffix_cons _ qs).trans (suffix_cons _ _), fun w s hw hs => ?_⟩
  obtain hs | hs := suffix_cons_iff.mp hs
  · cases hs
    exact absurd (toList_inj.mp (hv.symm.trans hw)) hkw
  obtain hs | hs := suffix_cons_iff.mp hs
  · cases hs
  · exact hs

lemma keepsJoins_optionalWord {kw : String} (hkw : kw ≠ "join") : KeepsJoins ps (optionalWord kw ps) := by
  unfold optionalWord
  cases h : afterWord kw ps with
  | none => exact KeepsJoins.rfl
  | some => exact keepsJoins_afterWord hkw h

lemma keepsJoins_joinKind (ps : List Part) : KeepsJoins ps (joinKind ps) := by
  unfold joinKind
  split
  · rename_i qs h
    exact keepsJoins_afterWord (by decide) h
  · split
    · rename_i qs h
      obtain ⟨side, hside, h⟩ := exists_of_findSome?_eq_some h
      refine (keepsJoins_afterWord ?_ h).trans (keepsJoins_optionalWord (by decide))
      rintro rfl
      exact absurd hside (by decide)
    · exact keepsJoins_optionalWord (by decide)

lemma joinKind_join {w : List Char} (h : toLower w = "join".toList) : joinKind (.word w :: ps) = .word w :: ps := by
  have hne : ∀ kw : String, kw ≠ "join" → afterWord kw (.word w :: ps) = none :=
    fun kw hkw => afterWord_ne (fun heq => hkw (toList_inj.mp (heq.symm.trans h)))
  simp [joinKind, optionalWord, hne]

end

section
variable {ts : List Token} {ns : List (List Char)} {ls : List Lexeme} {n : List Char}

lemma follows_of_reads {t : Token} {us : List Token} (h : Reads ts ns) (ht : t.introduces)
    (hus : t :: .ident n :: us <:+ ts) : follows us := by
  obtain ⟨ms, hreads, -⟩ := h.of_suffix hus
  cases hreads with
  | skip hskip =>
    rw [ht] at hskip
    cases hskip
  | name _ hfollows => exact hfollows

lemma mem_found (h : Readable ts ns ls)
    (hjoins : ∀ n us, .keyword .join :: .ident n :: us <:+ ts → us.head? ≠ some (.keyword .join))
    (hn : n ∈ ns) :
    n ∈ findAll fromRegex (parts (textOf ls)) ∨ n ∈ findAll joinRegex (parts (textOf ls)) := by
  obtain ⟨k, w, l, r, hk, hw, hs, hm⟩ := exists_introducing h hn
  match k, hk with
  | .from', hk =>
    have hhead : ∀ n us, .keyword .from' :: .ident n :: us <:+ ts → us.head? ≠ some (.keyword .from') := by
      intro n us hus heq
      have hfollows := follows_of_reads h.reads hk hus
      obtain ⟨us, rfl⟩ := head?_eq_some_iff.mp heq
      cases hfollows
    refine .inl (mem_findAll hs (cons_ne_nil _ _) hm (fun s' b' r' hs' hss hne hm' => .inl ?_))
    exact introducing_ends h hk hhead hs' hm' hw hss hne
  | .join, hk =>
    have hjoin : joinRegex (.word w :: .space :: l) = some (n, r) := by
      rw [joinRegex, joinKind_join hw]
      exact hm
    refine .inr (mem_findAll hs (cons_ne_nil _ _) hjoin (fun s' b' r' hs' hss hne hm' => ?_))
    have hkind := keepsJoins_joinKind s'
    by_cases heq : joinKind s' = .word w :: .space :: l
    · -- the match starts at a word in front of the same JOIN
      rw [joinRegex, heq] at hm'
      cases hm'.symm.trans hm
      exact .inr rfl
    · exact .inl (introducing_ends h hk hjoins (hkind.1.trans hs') hm' hw (hkind.2 _ _ hw hss) heq)

lemma not_afterWord (h : Readable ts ns ls) {kw : String} (hkw : kw ∈ ["update", "insert", "delete"])
    {s : List Part} (hs : s <:+ parts (textOf ls)) : afterWord kw s = none := by
  rw [Option.eq_none_iff_forall_ne_some]
  intro l hl
  obtain ⟨w, rfl, hw⟩ := afterWord_eq_some hl
  have htrigger : isTrigger w := by
    simp only [isTrigger, hw, any_eq_true, beq_iff_eq]
    exact ⟨kw, .tail _ (.tail _ hkw), rfl⟩
  obtain ⟨k, us, ms, hk, -⟩ := exists_keyword h.tidy h.spelled h.plain htrigger hs
  have htext : kw = k.text := toList_inj.mp (hw.symm.trans hk)
  rw [htext] at hkw
  cases k with
  | ofJoin w => cases w <;> exact absurd hkw (by decide)
  | _ => exact absurd hkw (by decide)

lemma firstFromWord_eq_some {l r : List Part} (h : firstFromWord l = some (n, r)) :
    ∃ s, s <:+ l ∧ fromWord s = some (n, r) := by
  induction l with
  | nil => cases h
  | cons p l ih =>
    rw [firstFromWord, Option.or_eq_some_iff] at h
    obtain h | ⟨-, h⟩ := h
    · exact ⟨_, suffix_rfl, h⟩
    · obtain ⟨s, hs, hm⟩ := ih h
      exact ⟨s, hs.trans (suffix_cons p l), hm⟩

lemma subqueryRegex_eq_some {s r : List Part} (h : subqueryRegex s = some (n, r)) :
    ∃ s', s' <:+ s ∧ fromWord s' = some (n, r) := by
  unfold subqueryRegex at h
  split at h
  · rename_i c ps
    split at h
    · obtain ⟨l, hl, hfirst⟩ := Option.bind_eq_some_iff.mp h
      obtain ⟨s', hs', hm⟩ := firstFromWord_eq_some hfirst
      have hskip : skipSpace ps <:+ ps := by
        unfold skipSpace
        split
        · exact suffix_cons _ _
        · exact suffix_rfl
      have hl' : l <:+ skipSpace ps := by
        obtain ⟨w, hw, -⟩ := afterWord_eq_some hl
        rw [hw]
        exact (suffix_cons _ l).trans (suffix_cons _ _)
      exact ⟨s', hs'.trans (hl'.trans (hskip.trans (suffix_cons _ ps))), hm⟩
    · cases h
  · cases h

lemma mem_of_found (h : Readable ts ns ls) {regex : List Part → Option (List Char × List Part)}
    (hregex : regex ∈ [fromRegex, joinRegex, updateRegex, insertRegex, deleteRegex, subqueryRegex])
    (hn : n ∈ findAll regex (parts (textOf ls))) : n ∈ ns := by
  obtain ⟨s, r, hs, hm⟩ := exists_of_mem_findAllFrom hn
  simp only [mem_cons, not_mem_nil, or_false] at hregex
  rcases hregex with rfl | rfl | rfl | rfl | rfl | rfl
  · obtain ⟨-, -, -, hmem, -⟩ := introducing_spec (k := .from') h rfl hs hm
    exact hmem
  · obtain ⟨-, -, -, hmem, -⟩ :=
      introducing_spec (k := .join) h rfl ((keepsJoins_joinKind s).1.trans hs) hm
    exact hmem
  · rw [updateRegex, not_afterWord h (by decide) hs] at hm
    cases hm
  · rw [insertRegex, not_afterWord h (by decide) hs] at hm
    cases hm
  · rw [deleteRegex, not_afterWord h (by decide) hs] at hm
    cases hm
  · obtain ⟨s', hs', hm'⟩ := subqueryRegex_eq_some hm
    obtain ⟨l, hl, hword⟩ := Option.bind_eq_some_iff.mp hm'
    obtain ⟨w, rfl, hw⟩ := afterWord_eq_some hl
    obtain ⟨n', us, ms, hmem, -, -, -, -, rfl⟩ | ⟨ps, rfl⟩ :=
      after_keyword (k := .from') h rfl hw (hs'.trans hs)
    · cases hword
      exact hmem
    · cases hword

end

instance decidableApart : DecidableRel Lexeme.Apart :=
  fun x y => inferInstanceAs (Decidable (x.isName = false ∨ y.isName = false))

def bareJoin : List Token → Bool
  | .keyword .join :: .piece (.ident _) :: .keyword .join :: _ => true
  | _ => false

/-- The texts of a statement in which the patterns find their way: its words, names and literals
contain none of the words that the patterns look for, and no quotation marks; nothing but a
comment looks like one, and without the comments all words stay apart; the tables have names
that are accepted; no table stands after a comma or is a common table expression; and no joined
table without alias or condition is followed by JOIN. -/
structure Plain (q : Sql .query) (ls : List Lexeme) : Prop where
  pieces : ∀ t ∈ q.tokens, Token.plain t = true
  noLine : ¬ "--".toList <:+: textOf ls
  noOpen : ¬ "/*".toList <:+: textOf (ls.filter (fun y => !y.isComment))
  apart : (ls.filter (fun y => !y.isComment)).IsChain Lexeme.Apart
  names : ∀ n ∈ q.named, isValidTableName n = true
  commaFree : q.commaFree = true
  base : ∀ n ∈ q.named, n ∈ q.baseTables []
  joins : ∀ us ∈ q.tokens.tails, bareJoin us = false

lemma mem_extractTableNames {sql : String} {n : String} :
    n ∈ extractTableNames sql ↔ n.toList ≠ [] ∧ isValidTableName n.toList ∧
      ∃ regex ∈ [fromRegex, joinRegex, updateRegex, insertRegex, deleteRegex, subqueryRegex],
        n.toList ∈ findAll regex (parts (cleanSQL sql.toList)) := by
  have hmap : ∀ l : List (List Char), n ∈ l.map ofList ↔ n.toList ∈ l := by
    intro l
    rw [mem_map]
    constructor
    · rintro ⟨m, hm, rfl⟩
      rwa [toList_ofList]
    · exact fun hn => ⟨n.toList, hn, ofList_toList⟩
  unfold extractTableNames
  by_cases hnil : cleanSQL sql.toList = []
  · simp [hnil, parts, findAll, findAllFrom]
  · simp only [if_neg hnil, hmap, uniqueStrings, mem_eraseDups, mem_filter, decide_eq_true_eq,
      mem_append, extractFromTables, extractJoinTables, extractUpdateTables, extractInsertTables,
      extractDeleteTables, extractSubqueryTables, extractTables, ← or_and_right]
    rw [and_comm, and_comm (b := isValidTableName n.toList = true)]
    simp [or_assoc]

def wordOf (s : String) : Lexeme := .word s.toList

def spaced (ls : List Lexeme) : List Lexeme := ls.intersperse (.blank ' ')

def selectAll (f : Sql (.factor true)) (ss : Sql .sources) : Sql .query :=
  .selectFrom (.pieces [.symbol '*']) f ss .done

def fromTable (n : String) : Sql (.factor true) := .table .from' n.toList none

def joinQuery : Sql .query :=
  .selectFrom (.pieces [.literal "a  b".toList]) (.table Introducer.from' "orders".toList (some (true, ['o'])))
    (.more (.table (.join [.left]) "users".toList none)
      (.on (.pieces [.bare ['o'], .symbol '.', .bare ['u'], .symbol '=', .ident "id".toList]) .unconditional)
      .noMore)
    (.clause .where' (.append (.pieces [.bare ['x'], .bare "IN".toList])
      (.subquery (selectAll (fromTable "items") .noMore))) .done)

def joinText : List Lexeme :=
  spaced [wordOf "SELECT", .literal "a  b".toList, wordOf "FROM", wordOf "orders", wordOf "AS", wordOf "o",
    .comment "from x".toList, wordOf "left", wordOf "join", .quoted "users".toList, wordOf "ON"] ++
  [.blank '\n', wordOf "o", .symbol '.', wordOf "u", .symbol '=', .quoted "id".toList, .blank ' '] ++
  spaced [wordOf "WHERE", wordOf "x", wordOf "IN", .symbol '(', wordOf "SELECT", .symbol '*', wordOf "FROM",
    wordOf "items", .symbol ')']

structure Divergence where
  q : Sql .query
  ls : List Lexeme
  text : String
  extracted : List String
  read : List String

def Divergence.check (d : Divergence) : Bool :=
  spelled d.q.tokens d.ls && String.ofList (textOf d.ls) == d.text &&
    extractTableNames d.text == d.extracted && (d.q.baseTables []).map String.ofList == d.read

def commaList : Divergence where
  q := selectAll (fromTable "a") (.more (.table .comma ['b'] none) .unconditional .noMore)
  ls := spaced [wordOf "SELECT", .symbol '*', wordOf "FROM", wordOf "a", .symbol ',', wordOf "b"]
  text := "SELECT * FROM a , b"
  extracted := ["a"]
  read := ["a", "b"]

def commonTable : Divergence where
  q := .with' false (.cte ['c'] (selectAll (fromTable "a") .noMore)) (selectAll (fromTable "c") .noMore)
  ls := spaced [wordOf "WITH", wordOf "c", wordOf "AS", .symbol '(', wordOf "SELECT", .symbol '*', wordOf "FROM",
    wordOf "a", .symbol ')', wordOf "SELECT", .symbol '*', wordOf "FROM", wordOf "c"]
  text := "WITH c AS ( SELECT * FROM a ) SELECT * FROM c"
  extracted := ["a", "c"]
  read := ["a"]

def fromInLiteral : Divergence where
  q := .selectFrom (.pieces [.literal "x FROM y".toList]) (fromTable "a") .noMore .done
  ls := spaced [wordOf "SELECT", .literal "x FROM y".toList, wordOf "FROM", wordOf "a"]
  text := "SELECT 'x FROM y' FROM a"
  extracted := ["y", "a"]
  read := ["a"]

def fromInComment : Divergence where
  q := selectAll (fromTable "a") .noMore
  ls := spaced [wordOf "SELECT", .symbol '*', .lineComment " FROM y".toList, wordOf "FROM", wordOf "a"]
  text := "SELECT * -- FROM y\n FROM a"
  extracted := ["y"]
  read := ["a"]

def joinAfterJoin : Divergence where
  q := selectAll (fromTable "a") (.more (.table (.join [.cross]) ['b'] none) .unconditional
    (.more (.table (.join []) ['c'] none) (.using' [.ident ['d']] .unconditional) .noMore))
  ls := spaced [wordOf "SELECT", .symbol '*', wordOf "FROM", wordOf "a", wordOf "CROSS", wordOf "JOIN", wordOf "b",
    wordOf "JOIN", wordOf "c", wordOf "USING", .symbol '(', wordOf "d", .symbol ')']
  text := "SELECT * FROM a CROSS JOIN b JOIN c USING ( d )"
  extracted := ["a", "b"]
  read := ["a", "b", "c"]

def quotedTable : Divergence where
  q := selectAll (fromTable "my table") .noMore
  ls := spaced [wordOf "SELECT", .symbol '*', wordOf "FROM", .quoted "my table".toList]
  text := "SELECT * FROM \"my table\""
  extracted := []
  read := ["my table"]

end MinIODB.Query.TableExtractor
