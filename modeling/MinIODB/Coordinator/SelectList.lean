import MinIODB.Coordinator.Analyzer
import MinIODB.Query.Extraction

/-!
# Texts of select lists

A select list of calls, with letters of either case, white space wherever it may stand, and
aliases with or without AS. The analysis finds the calls of such a list. When the last call has
no alias, the word FROM is taken for one.
-/
namespace MinIODB.Coordinator
open Matching List
open Query (isWord isSpace toLower isWord_not_space isSpace_not_word isWord_toLower
  takeWhile_append_of_head)

section
variable {u v : List Char}

lemma word_append (hne : u ≠ []) (hu : ∀ c ∈ u, isWord c) (hv : ∀ b ∈ v.head?, isWord b = false) :
    word (u ++ v) = some (u, v) := by
  obtain ⟨htake, hdrop⟩ := takeWhile_append_of_head hu hv
  rw [word, htake, hdrop, if_neg hne]

lemma spaces_append (hne : u ≠ []) (hu : ∀ c ∈ u, isSpace c) (hv : ∀ b ∈ v.head?, isSpace b = false) :
    spaces (u ++ v) = some v := by
  obtain ⟨c, u, rfl⟩ := exists_cons_of_ne_nil hne
  have hhead : ((c :: u) ++ v).head?.any isSpace := hu c (.head _)
  rw [spaces, if_pos hhead, (takeWhile_append_of_head hu hv).2]

lemma keyword_append_of_eq {kw : String} (h : toLower u = kw.toList) : keyword kw (u ++ v) = some v := by
  have hlength : kw.toList.length = u.length := by rw [← h, toLower, length_map]
  rw [keyword, hlength, take_left, drop_left, if_pos h]

end

section

structure IsKeyword (kw : String) : Prop where
  nonempty : kw.toList ≠ []
  letters : ∀ c ∈ kw.toList, isWord c = true

variable {kw : String} {u v r : List Char} {β : Type} {m : List Char → Option (β × List Char)}
  {next : List Char → Prop}

structure StartsWith (kw : String) (next : List Char → Prop) (m : List Char → Option (β × List Char)) : Prop where
  isKeyword : IsKeyword kw
  keyword : ∀ l, m l ≠ none → ∃ r, keyword kw l = some r ∧ next r
  ends : ∀ c r, isWord c = true → ¬ next (c :: r)

lemma isKeyword_of_all (h : (!kw.toList.isEmpty && kw.toList.all isWord) = true) : IsKeyword kw := by
  rw [Bool.and_eq_true, Bool.not_eq_true', isEmpty_eq_false_iff, all_eq_true] at h
  exact ⟨h.1, h.2⟩

lemma IsKeyword.spelled (hkw : IsKeyword kw) (h : toLower u = kw.toList) : u ≠ [] ∧ ∀ c ∈ u, isWord c := by
  refine ⟨?_, fun c hc => ?_⟩
  · rintro rfl
    exact hkw.nonempty h.symm
  · have hmem : c.toLower ∈ kw.toList := by
      rw [← h, toLower]
      exact mem_map_of_mem hc
    rw [← isWord_toLower]
    exact hkw.letters _ hmem

lemma keyword_append (hkw : IsKeyword kw) (hv : ∀ b ∈ v.head?, isWord b = false)
    (h : keyword kw (u ++ v) = some r) :
    toLower (u.take kw.toList.length) = kw.toList ∧ r = u.drop kw.toList.length ++ v := by
  unfold Coordinator.keyword at h
  split at h <;> cases h
  · rename_i heq
    have hlength : kw.toList.length ≤ u.length := by
      by_contra hlong
      have htake : (u ++ v).take kw.toList.length = u ++ v.take (kw.toList.length - u.length) := by
        rw [take_append, take_of_length_le (by omega)]
      cases v with
      | nil =>
        have := congrArg length heq
        rw [toLower, length_map, append_nil, length_take] at this
        omega
      | cons b =>
        obtain ⟨n, hn⟩ : ∃ n, kw.toList.length - u.length = n + 1 := ⟨_, (Nat.succ_pred (by omega)).symm⟩
        rw [htake, hn, take_succ_cons] at heq
        have hmem : b.toLower ∈ kw.toList := by
          rw [← heq, toLower]
          exact mem_map_of_mem (mem_append_right u (.head _))
        have hword := hkw.letters _ hmem
        rw [isWord_toLower, hv b rfl] at hword
        cases hword
    rw [take_append_of_le_length hlength] at heq
    rw [drop_append_of_le_length hlength]
    exact ⟨heq, rfl⟩

section
variable (hm : StartsWith kw next m)
include hm

lemma StartsWith.none_of_not_word {c : Char} (hc : isWord c = false)
    (l : List Char) : m (c :: l) = none := by
  by_contra hne
  obtain ⟨r, hr, -⟩ := hm.keyword _ hne
  obtain ⟨heq, -⟩ := keyword_append (u := []) (v := c :: l) hm.isKeyword (by simpa using hc) hr
  rw [take_nil] at heq
  exact hm.isKeyword.nonempty heq.symm

lemma StartsWith.within_others (hu : ∀ c ∈ u, isWord c = false) :
    Within (fun l => m l = none) u v := by
  intro a w huw hw
  obtain ⟨c, w, rfl⟩ := exists_cons_of_ne_nil hw
  exact hm.none_of_not_word (hu c (by simp [huw])) _

lemma StartsWith.within_word (hu : ∀ c ∈ u, isWord c)
    (hv : ∀ b ∈ v.head?, isWord b = false) (h : kw.toList <:+ toLower u → ¬ next v) :
    Within (fun l => m l = none) u v := by
  intro a w huw hw
  by_contra hne
  obtain ⟨r, hr, hnext⟩ := hm.keyword _ hne
  obtain ⟨heq, rfl⟩ := keyword_append hm.isKeyword hv hr
  cases hrest : w.drop kw.toList.length with
  | cons c =>
    have hmem : c ∈ w := mem_of_mem_drop (hrest ▸ mem_cons_self)
    rw [hrest, cons_append] at hnext
    exact hm.ends c _ (hu c (by simp [huw, hmem])) hnext
  | nil =>
    rw [hrest, nil_append] at hnext
    refine h ⟨toLower a, ?_⟩ hnext
    rw [← heq, take_of_length_le (drop_eq_nil_iff.mp hrest), huw]
    exact (map_append).symm

end

lemma findFirst_append_of_none (h : Within (fun l => m l = none) u v) :
    findFirst m (u ++ v) = findFirst m v := by
  induction u with
  | nil => rfl
  | cons a u ih =>
    obtain ⟨ha, hu⟩ := h.of_cons
    rw [cons_append, findFirst, ha]
    exact ih hu

end

def Opens (l : List Char) : Prop := (l.dropWhile isSpace).head? = some '('

lemma startsWith_aggPattern {name : String} {star : Bool} (hname : IsKeyword name) :
    StartsWith name Opens (aggPattern name star) := by
  refine ⟨hname, fun l hne => ?_, fun c r hc hopens => ?_⟩
  · cases hkey : keyword name l with
    | none =>
      rw [aggPattern, hkey] at hne
      exact absurd rfl hne
    | some r =>
      refine ⟨r, rfl, ?_⟩
      rw [aggPattern, hkey] at hne
      rw [Opens]
      cases hdrop : r.dropWhile isSpace with
      | nil =>
        simp [hdrop, char] at hne
      | cons d =>
        by_cases hd : d = '('
        · rw [hd]
          rfl
        · simp [hdrop, char, hd] at hne
  · have hhead : ((c :: r).dropWhile isSpace).head? = some c := by
      rw [dropWhile_cons_of_neg (by simp [isWord_not_space hc])]
      rfl
    rw [Opens, hhead, Option.some.injEq] at hopens
    rw [hopens] at hc
    exact absurd hc (by decide)

def ByFollows (l : List Char) : Prop := ((spaces l).bind (keyword "by")).isSome = true

lemma startsWith_groupByPattern : StartsWith "group" ByFollows groupByPattern := by
  refine ⟨isKeyword_of_all (by decide), fun l hne => ?_, fun c r hc hfollows => ?_⟩
  · cases hkey : keyword "group" l with
    | none =>
      rw [groupByPattern, hkey] at hne
      exact absurd rfl hne
    | some r =>
      refine ⟨r, rfl, ?_⟩
      rw [groupByPattern, hkey] at hne
      rw [ByFollows]
      cases hspaces : spaces r with
      | none => simp [hspaces] at hne
      | some rest =>
        cases hby : keyword "by" rest with
        | none => simp [hspaces, hby] at hne
        | some => simp [hby]
  · have hspaces : spaces (c :: r) = none := by simp [spaces, isWord_not_space hc]
    rw [ByFollows, hspaces] at hfollows
    cases hfollows

section

def Blank (l : List Char) : Prop := ∀ c ∈ l, isSpace c = true

def Word (l : List Char) : Prop := l ≠ [] ∧ ∀ c ∈ l, isWord c = true

inductive AliasText where
  | absent
  | plain (gap : List Char)
  | withAs (gap as' gap' : List Char)

structure CallText where
  item : Aggregation
  name : List Char
  gap₁ : List Char
  gap₂ : List Char
  gap₃ : List Char
  aliasText : AliasText

def AliasText.text (aliasName : List Char) : AliasText → List Char
  | .absent => []
  | .plain gap => gap ++ aliasName
  | .withAs gap as' gap' => gap ++ (as' ++ (gap' ++ aliasName))

def CallText.text (c : CallText) : List Char :=
  c.name ++ (c.gap₁ ++ ('(' :: (c.gap₂ ++ (c.item.column.toList ++ (c.gap₃ ++
    (')' :: c.aliasText.text c.item.aliasName.toList))))))

def AliasText.WellFormed (aliasName : List Char) : AliasText → Prop
  | .absent => aliasName = []
  | .plain gap => gap ≠ [] ∧ Blank gap ∧ Word aliasName ∧ toLower aliasName ≠ "as".toList
  | .withAs gap as' gap' => gap ≠ [] ∧ Blank gap ∧ toLower as' = "as".toList ∧ gap' ≠ [] ∧ Blank gap' ∧
      Word aliasName

structure CallText.WellFormed (c : CallText) : Prop where
  type : c.item.type ≠ .none
  name : toLower c.name = (aggTypeName c.item.type).toList
  gap₁ : Blank c.gap₁
  gap₂ : Blank c.gap₂
  gap₃ : Blank c.gap₃
  column : Word c.item.column.toList ∨ c.item.type = .count ∧ c.item.column = "*"
  aliasText : c.aliasText.WellFormed c.item.aliasName.toList

def patternOf (type : AggregationType) : List Char → Option ((List Char × List Char) × List Char) :=
  aggPattern (aggTypeName type) (decide (type = .count))

lemma isKeyword_aggTypeName (type : AggregationType) : IsKeyword (aggTypeName type) := by
  cases type <;> exact isKeyword_of_all (by decide)

lemma startsWith_patternOf (type : AggregationType) :
    StartsWith (aggTypeName type) Opens (patternOf type) := startsWith_aggPattern (isKeyword_aggTypeName type)

lemma aggTypeName_not_suffix {type type' : AggregationType} (h : type ≠ type') :
    ¬ (aggTypeName type).toList <:+ (aggTypeName type').toList := by
  cases type <;> cases type' <;> first | exact absurd rfl h | decide

variable {gap u v tail : List Char} {c : CallText}

lemma Word.not_space (h : Word u) (v : List Char) : ∀ b ∈ (u ++ v).head?, isSpace b = false := by
  obtain ⟨a, u, rfl⟩ := exists_cons_of_ne_nil h.1
  intro b hb
  cases hb
  exact isWord_not_space (h.2 a (.head _))

lemma Blank.not_word (h : Blank u) (hv : ∀ b ∈ v.head?, isWord b = false) :
    ∀ b ∈ (u ++ v).head?, isWord b = false := by
  cases u with
  | nil => exact hv
  | cons a =>
    intro b hb
    cases hb
    exact isSpace_not_word (h a (.head _))

lemma dropWhile_blank {b : Char} (h : Blank gap) (hb : isSpace b = false) :
    (gap ++ b :: v).dropWhile isSpace = b :: v :=
  (takeWhile_append_of_head h (by simpa using hb)).2

lemma not_opens {b : Char} (h : Blank gap) (hb : isSpace b = false) (hne : b ≠ '(') :
    ¬ Opens (gap ++ b :: v) := by
  rw [Opens, dropWhile_blank h hb]
  simpa using hne

lemma not_byFollows {b : Char} (h : Blank gap) (hb : isWord b = false) (hs : isSpace b = false) :
    ¬ ByFollows (gap ++ b :: v) := by
  rw [ByFollows]
  cases gap with
  | nil => simp [spaces, hs]
  | cons a gap =>
    rw [spaces_append (cons_ne_nil a gap) h (by simpa using hs), Option.bind_some]
    cases hby : keyword "by" (b :: v) with
    | none => simp
    | some =>
      obtain ⟨heq, -⟩ := keyword_append (u := []) (v := b :: v) (isKeyword_of_all (by decide))
        (by simpa using hb) hby
      exact absurd heq (by decide)

lemma aliasGroup_word (hgap : gap ≠ []) (hblank : Blank gap) (hu : Word u) (has : toLower u ≠ "as".toList)
    (hv : ∀ b ∈ v.head?, isWord b = false) : aliasGroup (gap ++ (u ++ v)) = (u, v) := by
  have hnot : ((keyword "as" (u ++ v)).bind spaces).bind word = none := by
    cases hkey : keyword "as" (u ++ v) with
    | none => rfl
    | some =>
      obtain ⟨heq, rfl⟩ := keyword_append (isKeyword_of_all (by decide)) hv hkey
      cases hrest : u.drop "as".toList.length with
      | nil =>
        rw [take_of_length_le (drop_eq_nil_iff.mp hrest)] at heq
        exact absurd heq has
      | cons b rest =>
        have hb := hu.2 b (mem_of_mem_drop (hrest ▸ mem_cons_self))
        have hspaces : spaces (b :: rest ++ v) = none := by simp [spaces, isWord_not_space hb]
        rw [Option.bind_some, hspaces]
        rfl
  rw [aliasGroup, spaces_append hgap hblank (hu.not_space v)]
  simp [hnot, word_append hu.1 hu.2 hv]

lemma aliasGroup_as {as' gap' : List Char} (hgap : gap ≠ []) (hblank : Blank gap)
    (has : toLower as' = "as".toList) (hgap' : gap' ≠ []) (hblank' : Blank gap') (hu : Word u)
    (hv : ∀ b ∈ v.head?, isWord b = false) : aliasGroup (gap ++ (as' ++ (gap' ++ (u ++ v)))) = (u, v) := by
  have hword : Word as' := (isKeyword_of_all (by decide)).spelled has
  rw [aliasGroup, spaces_append hgap hblank (hword.not_space _)]
  simp [keyword_append_of_eq has, spaces_append hgap' hblank' (hu.not_space v), word_append hu.1 hu.2 hv]

lemma aliasGroup_comma (h : Blank gap) : aliasGroup (gap ++ ',' :: v) = ([], gap ++ ',' :: v) := by
  cases gap with
  | nil => rfl
  | cons a gap =>
    have hkey : keyword "as" (',' :: v) = none := by
      cases hkey : keyword "as" (',' :: v) with
      | none => rfl
      | some =>
        obtain ⟨heq, -⟩ := keyword_append (u := []) (v := ',' :: v) (isKeyword_of_all (by decide))
          (by simp; decide) hkey
        exact absurd heq (by decide)
    have hword : word (',' :: v) = none := by
      rw [word, if_pos (takeWhile_cons_of_neg (by decide))]
    rw [aliasGroup, spaces_append (cons_ne_nil a gap) h (by simp; decide)]
    simp [hkey, hword]

lemma AliasText.eq_absent {a : AliasText} (h : a.WellFormed []) : a = .absent := by
  cases a with
  | absent => rfl
  | plain => exact absurd rfl h.2.2.1.1
  | withAs => exact absurd rfl h.2.2.2.2.2.1

lemma AliasText.aliasGroup_text {a : AliasText} (h : a.WellFormed u) (hne : u ≠ [])
    (hv : ∀ b ∈ v.head?, isWord b = false) : aliasGroup (a.text u ++ v) = (u, v) := by
  cases a with
  | absent => exact absurd h hne
  | plain =>
    obtain ⟨hgap, hblank, hu, has⟩ := h
    rw [AliasText.text, append_assoc]
    exact aliasGroup_word hgap hblank hu has hv
  | withAs =>
    obtain ⟨hgap, hblank, has, hgap', hblank', hu⟩ := h
    rw [AliasText.text, append_assoc, append_assoc, append_assoc]
    exact aliasGroup_as hgap hblank has hgap' hblank' hu hv

lemma argument_column (hc : c.WellFormed) (hv : ∀ b ∈ v.head?, isWord b = false) :
    argument (decide (c.item.type = .count)) (c.item.column.toList ++ v) = some (c.item.column.toList, v) := by
  rcases hc.column with hword | ⟨htype, hstar⟩
  · have hhead : (c.item.column.toList ++ v).head? ≠ some '*' := by
      obtain ⟨a, l, hl⟩ := exists_cons_of_ne_nil hword.1
      rw [hl]
      simp only [cons_append, head?_cons, ne_eq, Option.some.injEq]
      rintro rfl
      exact absurd (hword.2 '*' (hl ▸ mem_cons_self)) (by decide)
    rw [argument, if_neg (fun h => hhead h.2), word_append hword.1 hword.2 hv]
  · rw [hstar, htype]
    rfl

lemma column_not_space (hc : c.WellFormed) (v : List Char) :
    ∀ b ∈ (c.item.column.toList ++ v).head?, isSpace b = false := by
  rcases hc.column with hword | ⟨-, hstar⟩
  · exact hword.not_space v
  · rw [hstar]
    intro b hb
    cases hb
    decide

lemma patternOf_text (hc : c.WellFormed) (tail : List Char) :
    patternOf c.item.type (c.text ++ tail) =
      some ((c.item.column.toList, (aliasGroup (c.aliasText.text c.item.aliasName.toList ++ tail)).1),
        (aliasGroup (c.aliasText.text c.item.aliasName.toList ++ tail)).2) := by
  have htext : c.text ++ tail = c.name ++ (c.gap₁ ++ '(' :: (c.gap₂ ++ (c.item.column.toList ++
      (c.gap₃ ++ ')' :: (c.aliasText.text c.item.aliasName.toList ++ tail))))) := by
    simp [CallText.text]
  have hclose := dropWhile_blank (b := ')') (v := c.aliasText.text c.item.aliasName.toList ++ tail) hc.gap₃
    (by decide)
  have hcolumn := (takeWhile_append_of_head hc.gap₂ (column_not_space hc
    (c.gap₃ ++ ')' :: (c.aliasText.text c.item.aliasName.toList ++ tail)))).2
  have hargument := argument_column hc (v := c.gap₃ ++ ')' :: (c.aliasText.text c.item.aliasName.toList ++ tail))
    (hc.gap₃.not_word (by simp; decide))
  rw [htext, patternOf, aggPattern, keyword_append_of_eq hc.name]
  simp only [Option.bind_eq_bind, Option.bind_some, dropWhile_blank hc.gap₁ (by decide : isSpace '(' = false), char,
    if_true, hcolumn, hargument, hclose]
  rfl

variable {kw : String} {β : Type} {m : List Char → Option (β × List Char)} {next : List Char → Prop}

lemma CallText.WellFormed.name_word (hc : c.WellFormed) : ∀ b ∈ c.name, isWord b :=
  ((isKeyword_aggTypeName c.item.type).spelled hc.name).2

lemma StartsWith.within_call (hm : StartsWith kw next m) (hc : c.WellFormed)
    (hname : ¬ kw.toList <:+ (aggTypeName c.item.type).toList) (has : ¬ kw.toList <:+ "as".toList)
    (hclose : ∀ gap v, Blank gap → ¬ next (gap ++ ')' :: v)) (hhead : ∀ b ∈ tail.head?, isWord b = false)
    (htail : ¬ next tail) : Within (fun l => m l = none) c.text tail := by
  have hothers : ∀ {l v : List Char}, Blank l → Within (fun l => m l = none) l v :=
    fun hl => hm.within_others (fun b hb => isSpace_not_word (hl b hb))
  have hchar : ∀ {b : Char} {v : List Char}, isWord b = false → Within (fun l => m l = none) [b] v :=
    fun hb => hm.within_others (by simpa using hb)
  have halias : Within (fun l => m l = none) (c.aliasText.text c.item.aliasName.toList) tail := by
    have hform := hc.aliasText
    cases htext : c.aliasText with
    | absent => exact Within.nil
    | plain =>
      rw [htext] at hform
      obtain ⟨-, hblank, hu, -⟩ := hform
      exact (hothers hblank).append (hm.within_word hu.2 hhead (fun _ => htail))
    | withAs gap as' gap' =>
      rw [htext] at hform
      obtain ⟨-, hblank, has', hgap', hblank', hu⟩ := hform
      refine (hothers hblank).append (Within.append ?_ ((hothers hblank').append
        (hm.within_word hu.2 hhead (fun _ => htail))))
      have hword : Word as' := (isKeyword_of_all (by decide)).spelled has'
      refine hm.within_word hword.2 ?_ (fun h => absurd (has' ▸ h) has)
      obtain ⟨a, gap', rfl⟩ := exists_cons_of_ne_nil hgap'
      intro b hb
      cases hb
      exact isSpace_not_word (hblank' a (.head _))
  have hcolumn : Within (fun l => m l = none) c.item.column.toList
      (c.gap₃ ++ ')' :: (c.aliasText.text c.item.aliasName.toList ++ tail)) := by
    rcases hc.column with hword | ⟨-, hstar⟩
    · exact hm.within_word hword.2 (hc.gap₃.not_word (by simp; decide)) (fun _ => hclose _ _ hc.gap₃)
    · rw [hstar]
      exact hchar (by decide)
  have hbody : Within (fun l => m l = none) (c.gap₁ ++ ('(' :: (c.gap₂ ++ (c.item.column.toList ++ (c.gap₃ ++
      (')' :: c.aliasText.text c.item.aliasName.toList)))))) tail := by
    refine (hothers hc.gap₁).append ?_
    refine Within.append (u := ['(']) (hchar (by decide)) ((hothers hc.gap₂).append ?_)
    refine Within.append ?_ ((hothers hc.gap₃).append (Within.append (u := [')']) (hchar (by decide)) halias))
    rw [append_assoc]
    exact hcolumn
  refine Within.append (hm.within_word hc.name_word ?_ ?_) hbody
  · rw [append_assoc]
    exact hc.gap₁.not_word (by simp; decide)
  · intro h
    rw [hc.name] at h
    exact absurd h hname

end

structure SelectText where
  select : List Char
  selectGap : List Char
  first : CallText
  more : List (List Char × List Char × CallText)
  fromGap : List Char
  fromWord : List Char
  rest : List Char

def moreText (last : List Char) : List (List Char × List Char × CallText) → List Char
  | [] => last
  | (gap, gap', c) :: more => gap ++ (',' :: (gap' ++ (c.text ++ moreText last more)))

namespace SelectText
variable (q : SelectText)

def last : List Char := q.fromGap ++ (q.fromWord ++ q.rest)

def text : List Char := q.select ++ (q.selectGap ++ (q.first.text ++ moreText q.last q.more))

def items : List Aggregation := q.first.item :: q.more.map (fun c => c.2.2.item)

/-- The patterns for calls and for GROUP BY find nothing from FROM on. -/
structure WellFormed : Prop where
  select : toLower q.select = "select".toList
  selectGap : q.selectGap ≠ [] ∧ Blank q.selectGap
  first : q.first.WellFormed
  more : ∀ c ∈ q.more, Blank c.1 ∧ Blank c.2.1 ∧ c.2.2.WellFormed
  fromGap : q.fromGap ≠ [] ∧ Blank q.fromGap
  fromWord : toLower q.fromWord = "from".toList
  boundary : ∀ b ∈ q.rest.head?, isWord b = false
  noCalls : extractAggregations q.rest = []
  noGroupBy : extractGroupBy q.rest = []

end SelectText

def foundItems (fromWord : List Char) (c : CallText) : List (List Char × List Char × CallText) → List Aggregation
  | [] => [if c.item.aliasName = "" then { c.item with aliasName := String.ofList fromWord } else c.item]
  | (_, _, c') :: more => c.item :: foundItems fromWord c' more

def captured (a : Aggregation) : List Char × List Char := (a.column.toList, a.aliasName.toList)

variable {q : SelectText}

namespace SelectText.WellFormed

lemma fromWord_word (hq : q.WellFormed) : Word q.fromWord := (isKeyword_of_all (by decide)).spelled hq.fromWord

open SelectText

lemma last_not_word (hq : q.WellFormed) : ∀ b ∈ q.last.head?, isWord b = false := by
  obtain ⟨a, gap, hgap⟩ := exists_cons_of_ne_nil hq.fromGap.1
  intro b hb
  rw [last, hgap] at hb
  cases hb
  exact isSpace_not_word (hq.fromGap.2 a (hgap ▸ mem_cons_self))

lemma last_not_opens (hq : q.WellFormed) : ¬ Opens q.last := by
  obtain ⟨a, u, hu⟩ := exists_cons_of_ne_nil hq.fromWord_word.1
  have ha : isWord a := hq.fromWord_word.2 a (hu ▸ mem_cons_self)
  rw [last, hu]
  refine not_opens hq.fromGap.2 (isWord_not_space ha) ?_
  rintro rfl
  exact absurd ha (by decide)

lemma last_not_byFollows (hq : q.WellFormed) : ¬ ByFollows q.last := by
  rw [ByFollows, last, spaces_append hq.fromGap.1 hq.fromGap.2 (hq.fromWord_word.not_space _),
    Option.bind_some]
  cases hby : keyword "by" (q.fromWord ++ q.rest) with
  | none => simp
  | some =>
    obtain ⟨heq, -⟩ := keyword_append (isKeyword_of_all (by decide)) hq.boundary hby
    have hfrom : toLower (q.fromWord.take 2) = ("from".toList).take 2 := by
      rw [← hq.fromWord, toLower, toLower, map_take]
    exact absurd (hfrom.symm.trans heq) (by decide)

end SelectText.WellFormed

variable {kw : String} {β : Type} {m : List Char → Option (β × List Char)} {next : List Char → Prop}

lemma StartsWith.within_comma (hm : StartsWith kw next m) {gap gap' : List Char} (hgap : Blank gap)
    (hgap' : Blank gap') (v : List Char) : Within (fun l => m l = none) (gap ++ ',' :: gap') v := by
  refine hm.within_others (fun b hb => ?_)
  rcases mem_append.mp hb with hb | hb
  · exact isSpace_not_word (hgap b hb)
  · rcases mem_cons.mp hb with rfl | hb
    · decide
    · exact isSpace_not_word (hgap' b hb)

lemma moreText_cons (last gap gap' : List Char) (c : CallText) (more : List (List Char × List Char × CallText)) :
    moreText last ((gap, gap', c) :: more) = (gap ++ ',' :: gap') ++ (c.text ++ moreText last more) := by
  simp [moreText]

lemma StartsWith.within_from (hm : StartsWith kw next m) (hq : q.WellFormed)
    (hfrom : ¬ kw.toList <:+ "from".toList) :
    Within (fun l => m l = none) (q.fromGap ++ q.fromWord) q.rest := by
  refine Within.append (hm.within_others (fun b hb => isSpace_not_word (hq.fromGap.2 b hb))) ?_
  exact hm.within_word hq.fromWord_word.2 hq.boundary (fun h => absurd (hq.fromWord ▸ h) hfrom)

lemma findAll_last (hm : StartsWith kw next m) (hq : q.WellFormed) (hfrom : ¬ kw.toList <:+ "from".toList)
    (hrest : findAll m q.rest = []) : findAll m q.last = [] := by
  rw [SelectText.last, ← append_assoc, findAll_append_of_none (hm.within_from hq hfrom), hrest]

variable {type : AggregationType} {c : CallText} {more : List (List Char × List Char × CallText)}

lemma aggTypeName_not_suffix_keyword (type : AggregationType) :
    ∀ kw ∈ ["as", "from", "select"], ¬ (aggTypeName type).toList <:+ kw.toList := by
  cases type <;> decide

lemma findAll_skip (hc : c.WellFormed) (htype : c.item.type ≠ type) {tail : List Char}
    (hhead : ∀ b ∈ tail.head?, isWord b = false) (htail : ¬ Opens tail) :
    findAll (patternOf type) (c.text ++ tail) = findAll (patternOf type) tail :=
  findAll_append_of_none ((startsWith_patternOf type).within_call hc (aggTypeName_not_suffix (Ne.symm htype))
    (aggTypeName_not_suffix_keyword type _ (by simp)) (fun _ _ hgap => not_opens hgap (by decide) (by decide)) hhead htail)

lemma CallText.text_ne_nil (hc : c.WellFormed) (u : List Char) : c.text ++ u ≠ [] := by
  have hname := ((isKeyword_aggTypeName c.item.type).spelled hc.name).1
  simp [CallText.text, hname]

lemma extractCalls_captured (l : List Char) (type : AggregationType) {items : List Aggregation}
    (h : findAll (patternOf type) l = (items.filter (fun a => decide (a.type = type))).map captured) :
    extractCalls l type (patternOf type) = items.filter (fun a => decide (a.type = type)) := by
  rw [extractCalls, h, map_map]
  conv_rhs => rw [← map_id (items.filter (fun a => decide (a.type = type)))]
  refine map_congr_left (fun a ha => ?_)
  have htype : a.type = type := of_decide_eq_true (mem_filter.mp ha).2
  simp [captured, ← htype]

lemma findAll_moreText (hq : q.WellFormed) (hc : c.WellFormed)
    (hmore : ∀ c ∈ more, Blank c.1 ∧ Blank c.2.1 ∧ c.2.2.WellFormed)
    (hrest : findAll (patternOf type) q.rest = []) :
    findAll (patternOf type) (c.text ++ moreText q.last more) =
      ((foundItems q.fromWord c more).filter (fun a => decide (a.type = type))).map captured := by
  have hlast := findAll_last (startsWith_patternOf type) hq (aggTypeName_not_suffix_keyword type _ (by simp)) hrest
  induction more generalizing c with
  | nil =>
    rw [moreText, foundItems]
    by_cases htype : c.item.type = type
    · have hmatch := patternOf_text hc q.last
      rw [htype] at hmatch
      by_cases halias : c.item.aliasName = ""
      · have habsent : c.aliasText.text c.item.aliasName.toList = [] := by
          have hform := hc.aliasText
          rw [halias] at hform ⊢
          rw [AliasText.eq_absent hform]
          rfl
        have hfrom : aliasGroup q.last = (q.fromWord, q.rest) :=
          aliasGroup_word hq.fromGap.1 hq.fromGap.2 hq.fromWord_word
            (by rw [hq.fromWord]; decide) hq.boundary
        rw [habsent, nil_append, hfrom] at hmatch
        have hsplit : c.text ++ q.last = c.text ++ (q.fromGap ++ q.fromWord) ++ q.rest := by
          simp [SelectText.last]
        rw [hsplit] at hmatch ⊢
        rw [findAll_append_of_match (CallText.text_ne_nil hc _) hmatch, hrest]
        simp [halias, htype, captured]
      · have hne : c.item.aliasName.toList ≠ [] := fun h => halias (String.toList_eq_nil_iff.mp h)
        rw [AliasText.aliasGroup_text hc.aliasText hne hq.last_not_word] at hmatch
        rw [findAll_append_of_match (by simpa using CallText.text_ne_nil hc []) hmatch, hlast]
        simp [halias, htype, captured]
    · rw [findAll_skip hc htype hq.last_not_word hq.last_not_opens, hlast]
      split <;> simp [htype]
  | cons d more ih =>
    obtain ⟨gap, gap', c'⟩ := d
    obtain ⟨⟨hgap, hgap', hc'⟩, hmore⟩ := forall_mem_cons.mp hmore
    have ih := ih hc' hmore
    have hskip : findAll (patternOf type) (moreText q.last ((gap, gap', c') :: more)) =
        findAll (patternOf type) (c'.text ++ moreText q.last more) := by
      rw [moreText_cons, findAll_append_of_none ((startsWith_patternOf type).within_comma hgap hgap' _)]
    have hnotword : ∀ b ∈ (moreText q.last ((gap, gap', c') :: more)).head?, isWord b = false :=
      hgap.not_word (by simp; decide)
    rw [foundItems]
    by_cases htype : c.item.type = type
    · have hmatch := patternOf_text hc (moreText q.last ((gap, gap', c') :: more))
      have hgroup : aliasGroup (c.aliasText.text c.item.aliasName.toList ++
          moreText q.last ((gap, gap', c') :: more)) =
            (c.item.aliasName.toList, moreText q.last ((gap, gap', c') :: more)) := by
        by_cases halias : c.item.aliasName.toList = []
        · have hform := hc.aliasText
          rw [halias] at hform ⊢
          rw [AliasText.eq_absent hform]
          exact aliasGroup_comma hgap
        · exact AliasText.aliasGroup_text hc.aliasText halias hnotword
      rw [htype, hgroup] at hmatch
      rw [findAll_append_of_match (by simpa using CallText.text_ne_nil hc []) hmatch, hskip, ih]
      simp [htype, captured]
    · rw [findAll_skip hc htype hnotword (not_opens hgap (by decide) (by decide)), hskip, ih]
      simp [htype]

lemma SelectText.WellFormed.select_word (hq : q.WellFormed) : Word q.select :=
  (isKeyword_of_all (by decide)).spelled hq.select

lemma StartsWith.within_select (hm : StartsWith kw next m) (hq : q.WellFormed)
    (hselect : ¬ kw.toList <:+ "select".toList) (v : List Char) :
    Within (fun l => m l = none) (q.select ++ q.selectGap) v := by
  refine Within.append (hm.within_word hq.select_word.2 ?_ (fun h => absurd (hq.select ▸ h) hselect))
    (hm.within_others (fun b hb => isSpace_not_word (hq.selectGap.2 b hb)))
  obtain ⟨a, gap, hgap⟩ := exists_cons_of_ne_nil hq.selectGap.1
  intro b hb
  rw [hgap] at hb
  cases hb
  exact isSpace_not_word (hq.selectGap.2 a (hgap ▸ mem_cons_self))

lemma extractCalls_text (hq : q.WellFormed) (hrest : extractCalls q.rest type (patternOf type) = []) :
    extractCalls q.text type (patternOf type) =
      (foundItems q.fromWord q.first q.more).filter (fun a => decide (a.type = type)) := by
  refine extractCalls_captured q.text type ?_
  rw [SelectText.text, ← append_assoc, findAll_append_of_none
    ((startsWith_patternOf type).within_select hq (aggTypeName_not_suffix_keyword type _ (by simp)) _)]
  exact findAll_moreText hq hq.first hq.more (map_eq_nil_iff.mp hrest)

lemma foundItems_type (hc : c.WellFormed)
    (hmore : ∀ c ∈ more, Blank c.1 ∧ Blank c.2.1 ∧ c.2.2.WellFormed) {fromWord : List Char} {a : Aggregation}
    (ha : a ∈ foundItems fromWord c more) : a.type ≠ .none := by
  induction more generalizing c with
  | nil =>
    rw [foundItems, mem_singleton] at ha
    rw [ha]
    split
    · exact hc.type
    · exact hc.type
  | cons d more ih =>
    obtain ⟨gap, gap', c'⟩ := d
    obtain ⟨⟨-, -, hc'⟩, hmore⟩ := forall_mem_cons.mp hmore
    rcases mem_cons.mp ha with rfl | ha
    · exact hc.type
    · exact ih hc' hmore ha

lemma mem_extractAggregations (hq : q.WellFormed) (a : Aggregation) :
    a ∈ extractAggregations q.text ↔ a ∈ foundItems q.fromWord q.first q.more := by
  have hnone := hq.noCalls
  simp only [extractAggregations, append_eq_nil_iff] at hnone
  obtain ⟨⟨⟨⟨hcount, hsum⟩, havg⟩, hmin⟩, hmax⟩ := hnone
  have htotal : extractAggregations q.text =
      ([.count, .sum, .avg, .min, .max] : List AggregationType).flatMap (fun type =>
        (foundItems q.fromWord q.first q.more).filter (fun a => decide (a.type = type))) := by
    simp only [flatMap_cons, flatMap_nil, append_nil]
    rw [← extractCalls_text hq hcount, ← extractCalls_text hq hsum, ← extractCalls_text hq havg,
      ← extractCalls_text hq hmin, ← extractCalls_text hq hmax]
    simp only [extractAggregations, append_assoc]
    rfl
  rw [htotal, mem_flatMap]
  constructor
  · rintro ⟨type, -, ha⟩
    exact (mem_filter.mp ha).1
  · intro ha
    have htype := foundItems_type hq.first hq.more ha
    refine ⟨a.type, ?_, mem_filter.mpr ⟨ha, by simp⟩⟩
    cases hcase : a.type with
    | none => exact absurd hcase htype
    | count | sum | avg | min | max => decide

lemma extractGroupBy_text (hq : q.WellFormed) : extractGroupBy q.text = [] := by
  have hm := startsWith_groupByPattern
  have hclose : ∀ gap v, Blank gap → ¬ ByFollows (gap ++ ')' :: v) :=
    fun _ _ hgap => not_byFollows hgap (by decide) (by decide)
  have hcall : ∀ {c : CallText} {tail : List Char}, c.WellFormed → (∀ b ∈ tail.head?, isWord b = false) →
      ¬ ByFollows tail → Within (fun l => groupByPattern l = none) c.text tail := by
    intro c tail hc hhead htail
    refine hm.within_call hc ?_ (by decide) hclose hhead htail
    cases c.item.type <;> decide
  have hlist : ∀ (more : List (List Char × List Char × CallText)) (c : CallText), c.WellFormed →
      (∀ c ∈ more, Blank c.1 ∧ Blank c.2.1 ∧ c.2.2.WellFormed) →
      findFirst groupByPattern (c.text ++ moreText q.last more) = findFirst groupByPattern q.last := by
    intro more
    induction more with
    | nil =>
      intro c hc _
      exact findFirst_append_of_none (hcall hc hq.last_not_word hq.last_not_byFollows)
    | cons d more ih =>
      intro c hc hmore
      obtain ⟨gap, gap', c'⟩ := d
      obtain ⟨⟨hgap, hgap', hc'⟩, hmore⟩ := forall_mem_cons.mp hmore
      have hnotword : ∀ b ∈ (moreText q.last ((gap, gap', c') :: more)).head?, isWord b = false :=
        hgap.not_word (by simp; decide)
      have hnotby : ¬ ByFollows (moreText q.last ((gap, gap', c') :: more)) :=
        not_byFollows hgap (by decide) (by decide)
      rw [findFirst_append_of_none (hcall hc hnotword hnotby), moreText_cons,
        findFirst_append_of_none (hm.within_comma hgap hgap' _)]
      exact ih c' hc' hmore
  have hfind : findFirst groupByPattern q.text = findFirst groupByPattern q.rest := by
    rw [SelectText.text, ← append_assoc,
      findFirst_append_of_none (hm.within_select hq (by decide) _), hlist q.more q.first hq.first hq.more,
      SelectText.last, ← append_assoc, findFirst_append_of_none (hm.within_from hq (by decide))]
  have hrest := hq.noGroupBy
  rw [extractGroupBy] at hrest ⊢
  rw [hfind]
  exact hrest

end MinIODB.Coordinator
