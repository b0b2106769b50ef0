import MinIODB.Query.ColumnPruning
import MinIODB.Query.Soundness

/-!
# When column pruning is invisible

A view with fewer columns answers a query like the view with all of them, if it has every
column that the query refers to. The list of a plain SELECT is read back as written, so
the views have these columns, and what the other clauses and the other tables need has to be
among them.
-/
namespace MinIODB.Query
open Matching Option Bool
open List hiding after

section
variable {l u v w : List Char} {c : Char}

lemma mem_of_after {rest : List Char} (h : after w l = some rest) (hc : c ∈ w) : c ∈ l := by
  induction l with
  | nil => cases h
  | cons a l ih =>
    rw [after] at h
    split at h
    · rename_i hprefix
      obtain ⟨t, ht⟩ := isPrefixOf_iff_prefix.mp hprefix
      rw [← ht]
      exact mem_append_left t hc
    · exact .tail a (ih h)

lemma mem_of_contains (h : contains l w) (hc : c ∈ w) : c ∈ l := by
  obtain ⟨rest, hrest⟩ := isSome_iff_exists.mp h
  exact mem_of_after hrest hc

lemma contains_append (h : contains l w) : contains (u ++ l) w := by
  induction u with
  | nil => exact h
  | cons a u ih =>
    unfold contains at ih ⊢
    rw [cons_append, after]
    split
    · rfl
    · exact ih

lemma dropWhile_eq_self_of_trimSpace (h : trimSpace l = l) : l.dropWhile isTrimmed = l := by
  have hlength := congrArg length h
  rw [trimSpace, length_reverse] at hlength
  have hfirst := (dropWhile_suffix isTrimmed (l := (l.dropWhile isTrimmed).reverse)).length_le
  have hsecond := dropWhile_suffix isTrimmed (l := l)
  rw [length_reverse] at hfirst
  exact hsecond.eq_of_length (by have := hsecond.length_le; omega)

lemma head_of_trimSpace (h : trimSpace l = l) (hc : c ∈ l.head?) : isSpace c = false := by
  cases l with
  | nil => cases hc
  | cons a l =>
    cases hc
    rw [eq_false_iff]
    intro hspace
    have hdrop := dropWhile_eq_self_of_trimSpace h
    rw [dropWhile_cons_of_pos (isSpace_trimmed hspace)] at hdrop
    have hle := (dropWhile_suffix isTrimmed (l := l)).length_le
    rw [hdrop] at hle
    simp at hle

lemma getLast_of_trimSpace (h : trimSpace l = l) (hc : c ∈ l.getLast?) : isSpace c = false := by
  have hreverse : l.reverse.dropWhile isTrimmed = l.reverse := by
    rw [trimSpace, dropWhile_eq_self_of_trimSpace h] at h
    rw [← reverse_reverse (l.reverse.dropWhile isTrimmed), h]
  rw [eq_false_iff]
  intro hspace
  rw [getLast?_eq_head?_reverse] at hc
  cases hl : l.reverse with
  | nil =>
    rw [hl] at hc
    cases hc
  | cons a m =>
    rw [hl] at hc hreverse
    cases hc
    rw [dropWhile_cons_of_pos (isSpace_trimmed hspace)] at hreverse
    have hle := (dropWhile_suffix isTrimmed (l := m)).length_le
    rw [hreverse] at hle
    simp at hle

lemma trimSpace_eq_self (h : ∀ c ∈ l, isTrimmed c = false) : trimSpace l = l := by
  have hdrop : ∀ m : List Char, (∀ c ∈ m, isTrimmed c = false) → m.dropWhile isTrimmed = m := by
    intro m hm
    cases m with
    | nil => rfl
    | cons a =>
      exact dropWhile_cons_of_neg (by simp [hm a mem_cons_self])
  rw [trimSpace, hdrop l h, hdrop l.reverse (fun c hc => h c (mem_reverse.mp hc)),
    reverse_reverse]

end

section
variable {l u v w : List Char}

lemma startsWith_of_append (hw : ∀ c ∈ w.head?, isSpace c)
    (h : startsWith "from".toList (u ++ w)) : startsWith "from".toList u := by
  obtain ⟨t, ht⟩ := isPrefixOf_iff_prefix.mp h
  rw [toLower_append] at ht
  by_cases hlength : "from".toList.length ≤ (toLower u).length
  · exact isPrefixOf_iff_prefix.mpr
      (prefix_of_prefix_length_le ⟨t, ht⟩ (prefix_append _ _) hlength)
  · -- the first character of `w` would be one of the word
    cases w with
    | nil =>
      have hnil : toLower ([] : List Char) = [] := rfl
      rw [hnil, append_nil] at ht
      exact absurd (ht ▸ (prefix_append _ t).length_le) hlength
    | cons c =>
      have hspace := hw c rfl
      have hmem : c.toLower ∈ "from".toList := by
        have hget : ("from".toList ++ t)[(toLower u).length]? = some c.toLower := by
          rw [ht]
          simp [toLower]
        rw [getElem?_append_left (not_le.mp hlength)] at hget
        exact mem_of_getElem? hget
      have hall : "from".toList.all (fun d => !isSpace d) = true := by decide
      have hword := all_eq_true.mp hall _ hmem
      rw [isSpace_toLower, hspace] at hword
      cases hword

lemma matchFrom_append (hv : matchFrom v = false) (hne : v ≠ [])
    (hlast : ∀ c ∈ v.getLast?, isSpace c = false) (hw : ∀ c ∈ w.head?, isSpace c) :
    matchFrom (v ++ w) = false := by
  have hdrop : (v ++ w).dropWhile isSpace = v.dropWhile isSpace ++ w := by
    rw [dropWhile_append, if_neg]
    rw [List.isEmpty_iff, dropWhile_eq_nil_iff]
    intro hall
    have hspace := hlast _ (getLast?_eq_getLast_of_ne_nil hne)
    rw [hall _ (getLast_mem hne)] at hspace
    cases hspace
  rw [eq_false_iff]
  intro h
  rw [matchFrom, hdrop, head?_append_of_ne_nil _ hne, and_eq_true] at h
  rw [matchFrom, h.1, startsWith_of_append hw h.2] at hv
  cases hv

lemma matchUntilFrom_eq (hbreak : '\n' ∉ l) (hinside : ∀ u v, l = u ++ v → matchFrom v = false)
    (hlast : ∀ c ∈ l.getLast?, isSpace c = false) (hw : ∀ c ∈ w.head?, isSpace c)
    (hfrom : matchFrom w) : matchUntilFrom (l ++ w) = some l := by
  induction l with
  | nil =>
    cases w with
    | nil => cases hfrom
    | cons => rw [nil_append, matchUntilFrom, if_pos hfrom]
  | cons c l ih =>
    have hnot := matchFrom_append (hinside [] (c :: l) rfl) (cons_ne_nil c l) hlast hw
    have hc : c ≠ '\n' := fun h => hbreak (h ▸ mem_cons_self)
    rw [cons_append] at hnot ⊢
    rw [matchUntilFrom, hnot, if_neg Bool.false_ne_true, if_neg hc, ih]
    · rfl
    · exact fun h => hbreak (.tail c h)
    · exact fun u v huv => hinside (c :: u) v (by rw [huv]; rfl)
    · intro d hd
      cases l with
      | nil => cases hd
      | cons => exact hlast d (by rwa [getLast?_cons_cons])

lemma matchFrom_of_text {blank fromWord rest : List Char} (hne : blank ≠ [])
    (hblank : ∀ c ∈ blank, isSpace c) (hword : toLower fromWord = "from".toList) :
    matchFrom (blank ++ (fromWord ++ rest)) = true := by
  obtain ⟨a, blank, rfl⟩ := exists_cons_of_ne_nil hne
  obtain ⟨b, word, rfl⟩ : ∃ b word, fromWord = b :: word := by
    cases fromWord with
    | nil => cases hword
    | cons b word => exact ⟨b, word, rfl⟩
  have hb : isSpace b = false := by
    have hlower : b.toLower = 'f' := (cons_eq_cons.mp hword).1
    rw [← isSpace_toLower, hlower]
    rfl
  rw [matchFrom, dropWhile_append_of_pos hblank, cons_append, cons_append,
    dropWhile_cons_of_neg (by simp [hb])]
  rw [head?_cons, any_some, hblank a mem_cons_self, Bool.true_and, startsWith,
    ← cons_append, toLower_append, hword]
  exact isPrefixOf_iff_prefix.mpr (prefix_append _ _)

variable {q : SelectStatement} {sql : String}

lemma SelectStatement.TextOf.capture (h : q.TextOf sql) :
    ∃ list, findFirst matchSelectColumns (trimSpace sql.toList) = some list ∧ trimSpace list = list ∧
      list ≠ [] ∧ (list.splitOn ',').map trimSpace = q.itemTexts := by
  obtain ⟨select, blank, list, blank', fromWord, rest, htext, hselect, hblank, hspaces, hitems, htrim,
    hne, hblank', hspaces', hfrom, hbreak, hinside⟩ := h.split
  refine ⟨list, ?_, htrim, hne, hitems⟩
  have hlength : select.length = 6 := by
    have := congrArg length hselect
    simpa [toLower] using this
  have hstart : startsWith "select".toList (trimSpace sql.toList) := by
    rw [htext, startsWith, toLower_append, hselect]
    exact isPrefixOf_iff_prefix.mpr (prefix_append _ _)
  have hdrop : (trimSpace sql.toList).drop 6 = blank ++ (list ++ (blank' ++ (fromWord ++ rest))) := by
    rw [htext, ← hlength, drop_left]
  have hcapture : matchUntilFrom (list ++ (blank' ++ (fromWord ++ rest))) = some list := by
    refine matchUntilFrom_eq hbreak hinside (fun c hc => getLast_of_trimSpace htrim hc) ?_
      (matchFrom_of_text hblank' hspaces' hfrom)
    intro c hc
    rw [head?_append_of_ne_nil _ hblank'] at hc
    exact hspaces' c (mem_of_head? hc)
  have hwhile : ((trimSpace sql.toList).drop 6).takeWhile isSpace = blank := by
    rw [hdrop, takeWhile_append_of_pos hspaces]
    obtain ⟨a, list, rfl⟩ := exists_cons_of_ne_nil hne
    rw [cons_append, takeWhile_cons_of_neg
      (by simp [head_of_trimSpace htrim rfl]), append_nil]
  obtain ⟨k, hk⟩ : ∃ k, blank.length = k + 1 := by
    cases blank with
    | nil => exact absurd rfl hblank
    | cons a blank => exact ⟨blank.length, rfl⟩
  have hmatch : matchSelectColumns (trimSpace sql.toList) = some (list, []) := by
    rw [matchSelectColumns, if_pos hstart, hwhile, hk, range_succ, reverse_append,
      reverse_singleton, singleton_append, findSome?_cons, hdrop, ← hk, drop_left,
      hcapture]
    rfl
  have htextne : trimSpace sql.toList ≠ [] := by
    intro hnil
    rw [hnil] at hmatch
    cases hmatch
  obtain ⟨a, text, heq⟩ := exists_cons_of_ne_nil htextne
  rw [heq] at hmatch ⊢
  rw [findFirst, hmatch]

lemma SelectStatement.TextOf.required (h : q.TextOf sql)
    (hall : asksForAll (trimSpace sql.toList) = false) : extractRequiredColumns true sql =
      if (q.itemTexts.filterMap requiredColumn).foldl addColumn [] = [] then ["*"]
      else (q.itemTexts.filterMap requiredColumn).foldl addColumn [] := by
  obtain ⟨list, hcapture, htrim, hne, hitems⟩ := h.capture
  have htext : trimSpace sql.toList ≠ [] := by
    intro hnil
    rw [hnil] at hcapture
    cases hcapture
  simp [extractRequiredColumns, if_neg htext, hall, hcapture, htrim, if_neg hne, requiredColumns, hitems]

end

section
variable {name : String} {col : List Char}

def SelectItem.plainName : SelectItem → Option String
  | .expr (.column _ name) none => some name
  | _ => none

def SelectStatement.plainNames (q : SelectStatement) : List String :=
  q.items.filterMap SelectItem.plainName

def SelectItem.Plain : SelectItem → Prop
  | .expr (.column qualifier name) none =>
    (∀ a, qualifier = some a → ∀ c ∈ a.toList, isWord c = true) ∧ validateTableName name = true ∧
      ¬ "DISTINCT".toList <+: name.toList
  | item => isAggregateFunction item.text = true

lemma isWord_of_validateTableName (h : validateTableName name) :
    name.toList ≠ [] ∧ ∀ c ∈ name.toList, isWord c := by
  simp only [validateTableName, and_eq_true] at h
  cases hname : name.toList with
  | nil =>
    rw [hname] at h
    cases h.1.1
  | cons c cs =>
    rw [hname] at h
    refine ⟨cons_ne_nil c cs, fun d hd => ?_⟩
    obtain ⟨⟨hall, -⟩, -⟩ := h
    rw [and_eq_true] at hall
    rcases mem_cons.mp hd with rfl | hd
    · simp [isWord, Char.isAlphanum, hall.1]
    · exact all_eq_true.mp hall.2 d hd

lemma toUpper_eq_paren {c : Char} (h : c.toUpper = '(') : c = '(' := by
  by_cases hlower : c.isLower
  · have halpha : c.toUpper.isAlpha := by
      rw [Char.isAlpha_toUpper_eq_isAlpha]
      simp [Char.isAlpha, hlower]
    rw [h] at halpha
    cases halpha
  · rw [← h, Char.toUpper_eq_of_not_isLower hlower]

lemma not_aggregate (h : '(' ∉ col) : isAggregateFunction col = false := by
  have hall : aggregateFuncs.all (fun fn => decide ('(' ∈ fn.toList)) = true := by decide
  rw [eq_false_iff]
  intro hany
  obtain ⟨fn, hfn, hcontains⟩ := any_eq_true.mp hany
  have hparen := of_decide_eq_true (all_eq_true.mp hall fn hfn)
  obtain ⟨c, hc, hupper⟩ := mem_map.mp (mem_of_contains hcontains hparen)
  exact h (toUpper_eq_paren hupper ▸ hc)

lemma requiredColumn_aggregate (u : List Char) (h : isAggregateFunction col) :
    requiredColumn (u ++ col) = none := by
  obtain ⟨fn, hfn, hcontains⟩ := any_eq_true.mp h
  have hany : isAggregateFunction (u ++ col) := by
    refine any_eq_true.mpr ⟨fn, hfn, ?_⟩
    rw [toUpper, map_append]
    exact contains_append hcontains
  rw [requiredColumn, if_pos hany]

lemma not_mem_of_isWord {l : List Char} {c : Char} (h : ∀ d ∈ l, isWord d)
    (hc : isWord c = false) : c ∉ l := by
  intro hmem
  rw [h c hmem] at hc
  cases hc

lemma requiredColumn_of_unqualified {u : List Char} (hparen : '(' ∉ col)
    (hunqualified : unqualified col = u ++ name.toList) (hu : u = [] ∨ u = "DISTINCT ".toList)
    (hname : validateTableName name) (hdistinct : ¬ "DISTINCT".toList <+: name.toList) :
    requiredColumn col = some name.toList := by
  obtain ⟨hne, hword⟩ := isWord_of_validateTableName hname
  have hno : "DISTINCT".toList.isPrefixOf name.toList = false := by
    rw [eq_false_iff]
    exact fun h => hdistinct (List.isPrefixOf_iff_prefix.mp h)
  have hdrop : dropHead "DISTINCT ".toList (u ++ name.toList) = name.toList := by
    rcases hu with rfl | rfl
    · rw [nil_append, dropHead, if_neg]
      intro h
      obtain ⟨t, ht⟩ := isPrefixOf_iff_prefix.mp h
      exact not_mem_of_isWord (c := ' ') hword rfl (by rw [← ht]; simp)
    · rw [dropHead, if_pos (List.isPrefixOf_iff_prefix.mpr (prefix_append _ _)), drop_left]
  have htrim : trimSpace name.toList = name.toList :=
    trimSpace_eq_self (fun c hc => isWord_not_trimmed (hword c hc))
  rw [requiredColumn, if_neg (by simp [not_aggregate hparen]), hunqualified, hdrop]
  simp only [dropHead, hno, false_eq_true, if_false, htrim, if_neg hne]

open SelectItem

lemma requiredColumn_column {qualifier : Option String} {u : List Char}
    (hu : u = [] ∨ u = "DISTINCT ".toList)
    (hplain : (expr (.column qualifier name) none).Plain) :
    requiredColumn (u ++ (expr (.column qualifier name) none).text) = some name.toList := by
  obtain ⟨hqualifier, hname, hdistinct⟩ := hplain
  obtain ⟨-, hword⟩ := isWord_of_validateTableName hname
  have hparen : '(' ∉ u := by
    rcases hu with rfl | rfl <;> decide
  have hpoint : '.' ∉ u := by
    rcases hu with rfl | rfl <;> decide
  have hname_paren : '(' ∉ name.toList := not_mem_of_isWord hword rfl
  have hname_point : '.' ∉ name.toList := not_mem_of_isWord hword rfl
  cases qualifier with
  | none =>
    have htext : (expr (.column none name) none).text = name.toList := rfl
    rw [htext]
    refine requiredColumn_of_unqualified (u := u) ?_ ?_ hu hname hdistinct
    · simp [hparen, hname_paren]
    · rw [unqualified, splitOn_eq_singleton (by simp [hpoint, hname_point])]
  | some a =>
    have ha := hqualifier a rfl
    have htext : (expr (.column (some a) name) none).text = a.toList ++ '.' :: name.toList := rfl
    rw [htext, ← append_assoc]
    refine requiredColumn_of_unqualified (u := []) ?_ ?_ (.inl rfl) hname hdistinct
    · have ha_paren : '(' ∉ a.toList := not_mem_of_isWord ha rfl
      simp [hparen, ha_paren, hname_paren]
    · have ha_point : '.' ∉ a.toList := not_mem_of_isWord ha rfl
      rw [unqualified, splitOn_append_cons_self, splitOn_eq_singleton (by simp [hpoint, ha_point]),
        splitOn_eq_singleton hname_point]
      rfl

lemma filterMap_requiredColumn {q : SelectStatement} (hplain : ∀ item ∈ q.items, item.Plain) :
    q.itemTexts.filterMap requiredColumn = q.plainNames.map String.toList := by
  have hitem : ∀ item : SelectItem, item.Plain → ∀ u, u = [] ∨ u = "DISTINCT ".toList →
      requiredColumn (u ++ item.text) = item.plainName.map String.toList := by
    intro item hitem u hu
    unfold SelectItem.Plain at hitem
    split at hitem
    · exact requiredColumn_column hu hitem
    · rename_i hother
      have hname : item.plainName = none := by
        unfold plainName
        split
        · exact absurd rfl (hother _ _)
        · rfl
      rw [requiredColumn_aggregate u hitem, hname]
      rfl
  have hlist : ∀ items : List SelectItem, (∀ item ∈ items, item.Plain) →
      (items.map text).filterMap requiredColumn =
        (items.filterMap plainName).map String.toList := by
    intro items hitems
    rw [filterMap_map, map_filterMap]
    refine filterMap_congr (fun item hmem => ?_)
    exact hitem item (hitems item hmem) [] (.inl rfl)
  unfold SelectStatement.itemTexts SelectStatement.plainNames
  cases hitems : q.items with
  | nil => rfl
  | cons item items =>
    rw [hitems] at hplain
    cases q.distinct with
    | false => exact hlist (item :: items) hplain
    | true =>
      have hfirst := hitem item (hplain item mem_cons_self) _ (.inr rfl)
      have hmore := hlist items (fun i hi => hplain i (mem_cons_of_mem item hi))
      simp only [map_cons, filterMap_cons, hfirst, hmore]
      cases item.plainName <;> rfl

lemma valid_of_plain {q : SelectStatement} (hplain : ∀ item ∈ q.items, item.Plain)
    (hname : name ∈ q.plainNames) : validateTableName name := by
  obtain ⟨item, hitem, heq⟩ := mem_filterMap.mp hname
  have hitem := hplain item hitem
  unfold plainName at heq
  split at heq <;> cases heq
  · exact hitem.2.1

lemma foldl_addColumn (cols : List String) (names : List String) :
    (∀ c ∈ (names.map String.toList).foldl addColumn cols, c ∈ cols ∨ c ∈ names) ∧
      (∀ c ∈ cols, c ∈ (names.map String.toList).foldl addColumn cols) ∧
      ∀ n ∈ names, ∃ c ∈ (names.map String.toList).foldl addColumn cols, foldName c = foldName n := by
  induction names generalizing cols with
  | nil => exact ⟨fun c hc => .inl hc, fun c hc => hc, nofun⟩
  | cons n names ih =>
    obtain ⟨hsub, hkeep, hfound⟩ := ih (addColumn cols n.toList)
    have hadd : (∀ c ∈ addColumn cols n.toList, c ∈ cols ∨ c = n) ∧
        (∀ c ∈ cols, c ∈ addColumn cols n.toList) ∧
        ∃ c ∈ addColumn cols n.toList, foldName c = foldName n := by
      unfold addColumn
      rw [String.ofList_toList]
      split
      · rename_i hany
        obtain ⟨c, hc, heq⟩ := any_eq_true.mp hany
        exact ⟨fun c hc => .inl hc, fun c hc => hc, c, hc, beq_iff_eq.mp heq⟩
      · exact ⟨fun c hc => (mem_append.mp hc).imp_right mem_singleton.mp,
          fun c hc => mem_append_left _ hc, n, mem_append_right _ mem_cons_self, rfl⟩
    refine ⟨fun c hc => ?_, fun c hc => hkeep c (hadd.2.1 c hc), fun m hm => ?_⟩
    · rcases hsub c hc with hc | hc
      · exact (hadd.1 c hc).imp_right (fun h : c = n => h ▸ mem_cons_self)
      · exact .inr (.tail n hc)
    · rcases mem_cons.mp hm with rfl | hm
      · obtain ⟨c, hc, heq⟩ := hadd.2.2
        exact ⟨c, hkeep c hc, heq⟩
      · exact hfound m hm

end

section
variable {κ α : Type*}

structure ColumnTable (κ : Type*) where
  columns : List String
  rows : List (String → Option κ)

inductive ViewError where
  | invalidName
  | createFailed
  | verificationFailed
  | columnNotFound
  deriving DecidableEq

def unionByName (files : List (ColumnTable κ)) : ColumnTable κ where
  columns := ((files.flatMap ColumnTable.columns).map foldName).dedup
  rows := files.flatMap (fun file => file.rows.map (fun row c =>
    if c ∈ file.columns.map foldName then row c else none))

def ColumnTable.select (columns : List String) (T : ColumnTable κ) : ColumnTable κ where
  columns := columns.map foldName
  rows := T.rows.map (fun row c => if c ∈ columns.map foldName then row c else none)

def fullView (tableName : String) (files : List (ColumnTable κ)) : Except ViewError (ColumnTable κ) :=
  if validateTableName tableName then .ok (unionByName files) else .error .invalidName

def prunedView (enabled : Bool) (sql : String) (tableName : String) (files : List (ColumnTable κ)) :
    Except ViewError (ColumnTable κ) :=
  if validateTableName tableName then
    match optimizedColumns enabled sql with
    | none => .ok (unionByName files)
    | some columns =>
      if columns.all (fun c => decide (foldName c ∈ (unionByName files).columns)) then
        if columns.all validateTableName then .ok ((unionByName files).select columns)
        else .error .verificationFailed
      else .error .createFailed
  else .error .invalidName

namespace SelectStatement
variable (q : SelectStatement)

def hasAll : Bool := q.items.any (fun item => decide (item = .all))

def refersTo (label : String) (ref : Option String × String) : Bool :=
  ref.1.all (fun a => foldName a == foldName label)

def referred (label : String) (T : ColumnTable κ) : List String :=
  if q.hasAll then T.columns
  else (q.refs.filter (fun ref => refersTo label ref && decide (foldName ref.2 ∈ T.columns))).map
    (fun ref => foldName ref.2)

def resolves (views : List (String × ColumnTable κ)) (ref : Option String × String) : Bool :=
  views.any (fun v => refersTo v.1 ref && decide (foldName ref.2 ∈ v.2.columns)) ||
    (ref.1.isNone && q.aliases.any (fun a => foldName a == foldName ref.2))

def reads (v : String × ColumnTable κ) : String × List String × List (List (Option κ)) :=
  (v.1, q.referred v.1 v.2, v.2.rows.map (fun row => (q.referred v.1 v.2).map row))

def run (answer : List (String × List String × List (List (Option κ))) → α)
    (view : String → Except ViewError (ColumnTable κ)) : Except ViewError α :=
  (q.tables.mapM (fun t => (view t.table).map (fun v => (t.label, v)))).bind (fun views =>
    if q.refs.all (q.resolves views) then .ok (answer (views.map q.reads))
    else .error .columnNotFound)

end SelectStatement

structure Listed (q : SelectStatement) (files : String → List (ColumnTable κ)) : Prop where
  plain : ∀ item ∈ q.items, item.Plain
  exist : ∀ t ∈ q.tables, ∀ name ∈ q.plainNames, foldName name ∈ (unionByName (files t.table)).columns
  covers : q.plainNames ≠ [] → ∀ t ∈ q.tables, ∀ c ∈ q.referred t.label (unionByName (files t.table)),
    ∃ name ∈ q.plainNames, foldName name = c

variable {q : SelectStatement} {sql : String} {columns : List String}

lemma optimizedColumns_of_plain (htext : q.TextOf sql) (hplain : ∀ item ∈ q.items, item.Plain)
    (h : optimizedColumns true sql = some columns) :
    q.plainNames ≠ [] ∧ (∀ c ∈ columns, c ∈ q.plainNames) ∧
      ∀ name ∈ q.plainNames, ∃ c ∈ columns, foldName c = foldName name := by
  rw [optimizedColumns] at h
  obtain ⟨hnot, h⟩ := ite_none_left_eq_some.mp h
  cases h
  have hall : asksForAll (trimSpace sql.toList) = false := by
    rw [eq_false_iff]
    intro hall
    refine hnot ?_
    have hstar : extractRequiredColumns true sql = ["*"] ∨ extractRequiredColumns true sql = [] := by
      simp only [extractRequiredColumns, hall, Bool.not_true, Bool.false_eq_true, if_false, if_true]
      split
      · exact .inr rfl
      · exact .inl rfl
    rcases hstar with hstar | hstar <;> simp [hstar]
  have hrequired := htext.required hall
  rw [filterMap_requiredColumn hplain] at hrequired
  obtain ⟨hsub, -, hfound⟩ := foldl_addColumn [] q.plainNames
  split at hrequired
  · rw [hrequired] at hnot
    simp at hnot
  · rename_i hne
    rw [hrequired]
    refine ⟨?_, fun c hc => (hsub c hc).resolve_left not_mem_nil, hfound⟩
    intro hnil
    rw [hnil] at hne
    exact hne rfl

lemma optimizedColumns_of_asksForAll (h : asksForAll (trimSpace sql.toList)) :
    optimizedColumns true sql = none := by
  rw [optimizedColumns, if_pos]
  simp only [extractRequiredColumns, h, Bool.not_true, Bool.false_eq_true, if_false, if_true]
  split <;> simp

lemma optimizedColumns_of_all (htext : q.TextOf sql) (hitems : q.items = [.all]) :
    optimizedColumns true sql = none := by
  cases hall : asksForAll (trimSpace sql.toList) with
  | true => exact optimizedColumns_of_asksForAll hall
  | false =>
    have hcolumns : (q.itemTexts.filterMap requiredColumn).foldl addColumn [] = ["*"] := by
      rw [SelectStatement.itemTexts, hitems]
      cases q.distinct <;> decide
    have hrequired := htext.required hall
    rw [hcolumns] at hrequired
    rw [optimizedColumns, hrequired]
    rfl

structure Enough (q : SelectStatement) (columns : List String) (v : String × ColumnTable κ) : Prop where
  hasAll : q.hasAll = false
  covers : ∀ c ∈ q.referred v.1 v.2, c ∈ columns.map foldName
  exist : ∀ c ∈ columns, foldName c ∈ v.2.columns

variable {v : String × ColumnTable κ} {ref : Option String × String}

section
variable (h : Enough q columns v)
include h

lemma Enough.mem_columns (href : ref ∈ q.refs)
    (hlabel : SelectStatement.refersTo v.1 ref) :
    foldName ref.2 ∈ (v.2.select columns).columns ↔ foldName ref.2 ∈ v.2.columns := by
  constructor
  · intro hc
    obtain ⟨c, hc, heq⟩ := mem_map.mp hc
    exact heq ▸ h.exist c hc
  · intro hc
    refine h.covers _ ?_
    rw [SelectStatement.referred, h.hasAll, if_neg Bool.false_ne_true]
    exact mem_map.mpr ⟨ref, mem_filter.mpr ⟨href, by simp [hlabel, hc]⟩, rfl⟩

lemma Enough.refersTo_and (href : ref ∈ q.refs) :
    (SelectStatement.refersTo v.1 ref && decide (foldName ref.2 ∈ (v.2.select columns).columns)) =
      (SelectStatement.refersTo v.1 ref && decide (foldName ref.2 ∈ v.2.columns)) := by
  cases hlabel : SelectStatement.refersTo v.1 ref with
  | false => rfl
  | true => rw [Bool.true_and, Bool.true_and, decide_eq_decide.mpr (h.mem_columns href hlabel)]

lemma Enough.reads_eq : q.reads (v.1, v.2.select columns) = q.reads v := by
  have hreferred : q.referred v.1 (v.2.select columns) = q.referred v.1 v.2 := by
    rw [SelectStatement.referred, SelectStatement.referred, h.hasAll, if_neg Bool.false_ne_true,
      if_neg Bool.false_ne_true]
    congr 1
    exact filter_congr (fun ref href => h.refersTo_and href)
  have hrows : (v.2.select columns).rows.map (fun row => (q.referred v.1 v.2).map row) =
      v.2.rows.map (fun row => (q.referred v.1 v.2).map row) := by
    rw [ColumnTable.select, List.map_map]
    refine List.map_congr_left (fun row _ => ?_)
    exact List.map_congr_left (fun c hc => if_pos (h.covers c hc))
  simp [SelectStatement.reads, hreferred, hrows]

end

lemma any_congr_mem {β : Type*} {l : List β} {p p' : β → Bool} (h : ∀ b ∈ l, p b = p' b) :
    l.any p = l.any p' := by
  rw [Bool.eq_iff_iff, List.any_eq_true, List.any_eq_true]
  exact exists_congr (fun b => and_congr_right (fun hb => by rw [h b hb]))

lemma resolves_select {views : List (String × ColumnTable κ)} (h : ∀ v ∈ views, Enough q columns v)
    (href : ref ∈ q.refs) :
    q.resolves (views.map (fun v => (v.1, v.2.select columns))) ref = q.resolves views ref := by
  rw [SelectStatement.resolves, SelectStatement.resolves, List.any_map]
  congr 1
  exact any_congr_mem (fun v hv => (h v hv).refersTo_and href)

lemma mapM_map {τ ε β γ : Type*} {f : τ → Except ε γ} {g : τ → Except ε β} {k : β → γ} {l : List τ}
    (h : ∀ t ∈ l, f t = (g t).map k) : l.mapM f = (l.mapM g).map (map k) := by
  induction l with
  | nil => rfl
  | cons t l ih =>
    rw [mapM_cons, mapM_cons, h t mem_cons_self, ih (fun u hu => h u (.tail t hu))]
    cases g t with
    | error => rfl
    | ok =>
      cases l.mapM g <;> rfl

lemma mem_of_mapM {τ ε β : Type*} {g : τ → Except ε β} {l : List τ} {bs : List β} {b : β}
    (h : l.mapM g = .ok bs) (hb : b ∈ bs) : ∃ t ∈ l, g t = .ok b := by
  induction l generalizing bs with
  | nil =>
    cases h
    cases hb
  | cons t l ih =>
    rw [mapM_cons] at h
    cases ht : g t <;> cases hl : l.mapM g <;> rw [ht, hl] at h <;> cases h
    rcases mem_cons.mp hb with rfl | hb
    · exact ⟨t, .head _, ht⟩
    · obtain ⟨u, hu, hg⟩ := ih hl hb
      exact ⟨u, .tail t hu, hg⟩

lemma run_select {answer : List (String × List String × List (List (Option κ))) → α}
    {files : String → List (ColumnTable κ)} {view : String → Except ViewError (ColumnTable κ)}
    (hview : ∀ t ∈ q.tables, view t.table = (fullView t.table (files t.table)).map (ColumnTable.select columns))
    (henough : ∀ t ∈ q.tables, Enough q columns (t.label, unionByName (files t.table))) :
    q.run answer view = q.run answer (fun t => fullView t (files t)) := by
  have hmap : q.tables.mapM (fun t => (view t.table).map (fun v => (t.label, v))) =
      (q.tables.mapM (fun t => (fullView t.table (files t.table)).map (fun v => (t.label, v)))).map
        (map (fun v => (v.1, v.2.select columns))) := by
    refine mapM_map (fun t ht => ?_)
    rw [hview t ht]
    cases fullView t.table (files t.table) <;> rfl
  rw [SelectStatement.run, SelectStatement.run, hmap]
  cases hviews : q.tables.mapM (fun t => (fullView t.table (files t.table)).map (fun v => (t.label, v))) with
  | error => rfl
  | ok views =>
    have hall : ∀ v ∈ views, Enough q columns v := by
      intro v hv
      obtain ⟨t, ht, heq⟩ := mem_of_mapM hviews hv
      unfold fullView at heq
      split at heq <;> cases heq
      · exact henough t ht
    have hresolves : q.refs.all (q.resolves (views.map (fun v => (v.1, v.2.select columns)))) =
        q.refs.all (q.resolves views) := by
      rw [Bool.eq_iff_iff, List.all_eq_true, List.all_eq_true]
      exact forall₂_congr (fun ref href => by rw [resolves_select hall href])
    have hreads : (views.map (fun v => (v.1, v.2.select columns))).map q.reads = views.map q.reads := by
      rw [List.map_map]
      exact List.map_congr_left (fun v hv => (hall v hv).reads_eq)
    change (if q.refs.all (q.resolves (views.map _)) = true then _ else _) = _
    rw [hresolves, hreads]
    rfl

end

def shopFiles (t : String) : List (ColumnTable ℕ) :=
  if t = "users" then [⟨["id", "name"], [fun c => if c = "id" then some 1 else some 7]⟩]
  else [⟨["id", "amount"], [fun c => if c = "id" then some 1 else some 9]⟩]

def ordersRef : TableRef := ⟨"orders", "orders"⟩

def amountOver : SelectClause × Expr :=
  (.filter, .binary " > " (.column none "amount") (.literal "5"))

def amountQuery : SelectStatement :=
  ⟨false, [.expr (.column none "id") none, .expr (.column none "Amount") none], ordersRef, [], [amountOver]⟩

lemma amountQuery_textOf : amountQuery.TextOf amountQuery.text := by
  refine ⟨"SELECT".toList, [' '], "id, Amount".toList, [' '], "FROM".toList,
    " orders AS orders WHERE amount > 5".toList, ?_⟩
  have hblank : ∀ c ∈ [' '], isSpace c := by
    intro c hc
    rw [mem_singleton.mp hc]
    rfl
  refine ⟨by decide +kernel, by decide +kernel, by decide, hblank, by decide +kernel, by decide +kernel,
    by decide, by decide, hblank, by decide +kernel, by decide, fun u v huv => ?_⟩
  have hall : ("id, Amount".toList.tails.all (fun v => !matchFrom v)) = true := by decide +kernel
  have hv := all_eq_true.mp hall v ((mem_tails _ _).mpr ⟨u, huv.symm⟩)
  rw [not_eq_true'] at hv
  exact hv

def failure {ε β : Type*} : Except ε β → Option ε
  | .error e => some e
  | .ok _ => none

def pruningFailure (q : SelectStatement) : Option ViewError × Option ViewError :=
  (failure (q.run id (fun t => prunedView true q.text t (shopFiles t))),
    failure (q.run id (fun t => fullView t (shopFiles t))))

end MinIODB.Query
