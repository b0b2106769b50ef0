import MinIODB.Coordinator.Columns
import MinIODB.Coordinator.SelectList
import MinIODB.Coordinator.TopN

/-!
# Queries with aggregates and without GROUP BY

Every node answers the query as it is with one row. The merged row has, for each call that the
analysis has found, one column of the answers, with the sum of its numbers. That is the aggregate
of the whole table for COUNT and SUM only, and only if the column of each call is recognised by
its name.
-/
namespace MinIODB.Coordinator
open Matching AList
open List hiding after
open String hiding toLower
open Query (toLower)

variable {items : List Aggregation} {item agg : Aggregation} {parts : List (List DataRow)} {q : SelectText}

def scalarAnswers (items : List Aggregation) (parts : List (List DataRow)) : List (Option (List Row)) :=
  parts.map (fun part => some [answerRow items part])

def aggregated (items : List Aggregation) (parts : List (List DataRow)) : Sums :=
  (decodedRows (scalarAnswers items parts)).foldl Sums.addRow ∅

structure Mergeable (items : List Aggregation) (rows : List DataRow) : Prop where
  types : ∀ item ∈ items, item.type = .count ∨ item.type = .sum
  names : (items.map resultName).Nodup
  sums : ∀ item ∈ items, item.type = .sum → columnValues item.column rows ≠ []
  apart : ∀ item ∈ items, item.aliasName = "" → ∀ other ∈ items, resultName other ≠ resultName item →
    contains (toLower (resultName other).toList) (aggTypeName item.type).toList = false

lemma decodedRows_scalarAnswers (items : List Aggregation) (parts : List (List DataRow)) :
    decodedRows (scalarAnswers items parts) = parts.map (answerRow items) := by
  have hmap : scalarAnswers items parts = (parts.map (fun part => [answerRow items part])).map some := by
    rw [scalarAnswers, List.map_map]
    rfl
  rw [hmap, decodedRows_map_some]
  clear hmap
  induction parts with
  | nil => rfl
  | cons part parts ih => rw [map_cons, flatten_cons, ih, singleton_append, map_cons]

lemma lookup_aggregated (items : List Aggregation) (parts : List (List DataRow)) (key : String) :
    (aggregated items parts).lookup key = sumOf (numbers key (parts.map (answerRow items))) := by
  rw [aggregated, lookup_foldl_addRow, decodedRows_scalarAnswers, lookup_empty, none_plus]

lemma mem_names_of_lookup {key : String} {v : ℚ} (h : (aggregated items parts).lookup key = some v) :
    key ∈ items.map resultName := by
  rw [lookup_aggregated] at h
  have hne : numbers key (parts.map (answerRow items)) ≠ [] := by
    intro hnil
    rw [hnil] at h
    cases h
  obtain ⟨num, hnum⟩ := exists_mem_of_ne_nil _ hne
  obtain ⟨row, hrow, hvalue⟩ := mem_filterMap.mp hnum
  obtain ⟨part, -, rfl⟩ := mem_map.mp hrow
  obtain ⟨value, hlookup, -⟩ := Option.bind_eq_some_iff.mp hvalue
  exact mem_answerRow.mp (lookup_isSome.mp (by rw [hlookup]; rfl))

lemma Mergeable.lookup_item (h : Mergeable items parts.flatten) (hparts : parts ≠ []) (hitem : item ∈ items) :
    ∃ v, (aggregated items parts).lookup (resultName item) = some v ∧ evaluate item parts.flatten = .num v := by
  rw [lookup_aggregated, sumOf_numbers h.names hitem (h.types item hitem) hparts]
  rcases h.types item hitem with htype | htype
  · simp [evaluate, htype, toFloat64]
  · have hsum : sumOf (columnValues item.column parts.flatten) =
        some (columnValues item.column parts.flatten).sum := if_neg (h.sums item hitem htype)
    simp [evaluate, htype, hsum, ofNumber, toFloat64]

lemma contains_append (word l : List Char) : contains (word ++ l) word := by
  rw [contains]
  cases word with
  | nil => rfl
  | cons a word =>
    have hprefix : (a :: word).isPrefixOf (a :: word ++ l) :=
      isPrefixOf_iff_prefix.mpr (prefix_append _ _)
    rw [cons_append] at hprefix
    rw [cons_append, after, if_pos hprefix]
    rfl

lemma toLower_aggTypeName (type : AggregationType) (l : List Char) :
    toLower ((aggTypeName type).toList ++ l) = (aggTypeName type).toList ++ toLower l := by
  rw [toLower, map_append, toLower]
  congr 1
  cases type <;> decide

lemma resultName_unnamed (halias : item.aliasName = "") :
    ∃ l, (resultName item).toList = (aggTypeName item.type).toList ++ l ∧ l ≠ [] ∧
      l ≠ '_' :: item.column.toList := by
  rw [resultName, if_neg (by simpa using halias)]
  split
  · rename_i hstar
    rw [hstar.1, hstar.2]
    exact ⟨"_star()".toList, by decide, by decide, by decide⟩
  · refine ⟨'(' :: (item.column.toList ++ [')']), ?_, by simp, by simp⟩
    simp [toList_append]

def Finds (items : List Aggregation) (item agg : Aggregation) : Prop :=
  agg.type = item.type ∧ agg.column = item.column ∧
    (agg.aliasName = item.aliasName ∨ item.aliasName = "" ∧ agg.aliasName ∉ items.map resultName)

lemma outputKey_toList (agg : Aggregation) : (outputKey agg).toList =
    if agg.aliasName = "" then (aggTypeName agg.type).toList ++ '_' :: agg.column.toList
    else agg.aliasName.toList := by
  rw [outputKey]
  split
  · simp [toList_append]
  · rfl

lemma Mergeable.possibleKeys_absent (h : Mergeable items parts.flatten) (hitem : item ∈ items)
    (halias : item.aliasName = "") (hfinds : Finds items item agg) :
    ∀ key ∈ possibleKeys agg, key ∉ items.map resultName := by
  obtain ⟨htype, hcolumn, hfound⟩ := hfinds
  obtain ⟨l, hl, hne, hother⟩ := resultName_unnamed halias
  -- a key that starts with the name of the function is the name of no other column
  have hkey : ∀ key l', key.toList = (aggTypeName item.type).toList ++ l' → l' ≠ l →
      key ∉ items.map resultName := by
    intro key l' hkey hll hmem
    obtain ⟨other, hitems, rfl⟩ := mem_map.mp hmem
    by_cases hsame : resultName other = resultName item
    · rw [hsame, hl] at hkey
      exact hll (append_cancel_left hkey).symm
    · have hnot := h.apart item hitem halias other hitems hsame
      rw [hkey, toLower_aggTypeName, contains_append] at hnot
      cases hnot
  have hname : aggTypeName agg.type ∉ items.map resultName :=
    hkey _ [] (by rw [htype, append_nil]) (Ne.symm hne)
  have hempty : "" ∉ items.map resultName := by
    intro hmem
    obtain ⟨other, -, hother⟩ := mem_map.mp hmem
    unfold resultName at hother
    split at hother
    · contradiction
    · split at hother
      · exact absurd hother (by decide)
      · have := congrArg toList hother
        simp [toList_append] at this
  have haliasName : agg.aliasName ∉ items.map resultName := by
    rcases hfound with heq | ⟨-, hnot⟩
    · rw [heq, halias]
      exact hempty
    · exact hnot
  have houtput : outputKey agg ∉ items.map resultName := by
    by_cases hnone : agg.aliasName = ""
    · refine hkey _ ('_' :: item.column.toList) ?_ (Ne.symm hother)
      rw [outputKey_toList, if_pos hnone, htype, hcolumn]
    · rw [outputKey, if_neg hnone]
      exact haliasName
  intro key hmem
  simp only [possibleKeys, mem_cons, not_mem_nil, or_false] at hmem
  rcases hmem with rfl | rfl | rfl
  exacts [houtput, hname, haliasName]

lemma lookup_of_findColumn {sums : Sums} {order : List (Σ _ : String, ℚ)} (horder : order.Perm sums.entries)
    {entry : Σ _ : String, ℚ} (h : findColumn sums order agg = some entry) :
    sums.lookup entry.1 = some entry.2 := by
  rw [findColumn] at h
  split at h
  · rename_i found hfound
    cases h
    obtain ⟨key, -, hkey⟩ := exists_of_findSome?_eq_some hfound
    obtain ⟨val, hval, rfl⟩ := Option.map_eq_some_iff.mp hkey
    exact hval
  · have hmem := horder.mem_iff.mp (mem_of_find?_eq_some h)
    exact mem_lookup_iff.mpr hmem

lemma find?_eq_of_unique {α : Type*} {p : α → Bool} {l : List α} {a : α} (ha : a ∈ l) (hp : p a)
    (hunique : ∀ b ∈ l, p b → b = a) : l.find? p = some a := by
  cases hfind : l.find? p with
  | none => exact absurd hp (find?_eq_none.mp hfind a ha)
  | some b => rw [hunique b (mem_of_find?_eq_some hfind) (find?_some hfind)]

lemma Mergeable.findColumn_item (h : Mergeable items parts.flatten) (hitem : item ∈ items)
    (hfinds : Finds items item agg) {order : List (Σ _ : String, ℚ)}
    (horder : order.Perm (aggregated items parts).entries) {v : ℚ}
    (hv : (aggregated items parts).lookup (resultName item) = some v) :
    findColumn (aggregated items parts) order agg = some ⟨resultName item, v⟩ := by
  by_cases halias : item.aliasName = ""
  · -- no key that is tried first is a column; then only the column of the item fits
    have hfirst : (possibleKeys agg).findSome? (fun key =>
        ((aggregated items parts).lookup key).map (fun val => (⟨key, val⟩ : Σ _ : String, ℚ))) = none := by
      rw [findSome?_eq_none_iff]
      intro key hkey
      cases hlookup : (aggregated items parts).lookup key with
      | none => rfl
      | some => exact absurd (mem_names_of_lookup hlookup) (h.possibleKeys_absent hitem halias hfinds key hkey)
    obtain ⟨l, hl, -⟩ := resultName_unnamed halias
    have hown : (⟨resultName item, v⟩ : Σ _ : String, ℚ) ∈ order :=
      horder.mem_iff.mpr (mem_lookup_iff.mp hv)
    have hfits : contains (toLower (resultName item).toList) (aggTypeName agg.type).toList := by
      rw [hl, hfinds.1, toLower_aggTypeName, contains_append]
    rw [findColumn, hfirst]
    refine find?_eq_of_unique hown hfits (fun entry hmem hentry => ?_)
    have hlookup : (aggregated items parts).lookup entry.1 = some entry.2 :=
      mem_lookup_iff.mpr (horder.mem_iff.mp hmem)
    obtain ⟨other, hother, hname⟩ := mem_map.mp (mem_names_of_lookup hlookup)
    have hsame : entry.1 = resultName item := by
      by_contra hne
      rw [← hname] at hne hentry
      rw [hfinds.1, h.apart item hitem halias other hother hne] at hentry
      cases hentry
    have hval : v = entry.2 := by
      rw [hsame, hv] at hlookup
      exact Option.some.inj hlookup
    rw [hval, ← hsame]
  · have hsame : agg.aliasName = item.aliasName := hfinds.2.2.resolve_right (fun h => halias h.1)
    have hkey : outputKey agg = resultName item := by
      rw [outputKey, resultName, hsame, if_neg halias, if_pos halias]
    rw [findColumn, possibleKeys, findSome?_cons, hkey, hv]
    rfl

lemma lookup_foldl_setColumn {sums : Sums} {found : List (Option (Σ _ : String, ℚ))}
    (hsound : ∀ entry, some entry ∈ found → sums.lookup entry.1 = some entry.2) {key : String} {v : ℚ}
    (hv : sums.lookup key = some v) {row : Row} (h : some ⟨key, v⟩ ∈ found ∨ row.lookup key = some (.num v)) :
    (found.foldl setColumn row).lookup key = some (.num v) := by
  induction found generalizing row with
  | nil => exact h.resolve_left not_mem_nil
  | cons o found ih =>
    rw [foldl_cons]
    refine ih (fun entry hentry => hsound entry (.tail o hentry)) ?_
    by_cases hmem : some ⟨key, v⟩ ∈ found
    · exact .inl hmem
    · refine .inr ?_
      cases o with
      | none => exact (h.resolve_left (by simpa using hmem))
      | some entry =>
        obtain ⟨k, w⟩ := entry
        by_cases hkey : key = k
        · subst hkey
          have hw := hsound ⟨key, w⟩ mem_cons_self
          rw [hv] at hw
          cases hw
          exact lookup_insert _
        · rw [setColumn, lookup_insert_ne hkey]
          refine h.resolve_left (fun hmem' => ?_)
          rcases mem_cons.mp hmem' with heq | hmem'
          · cases heq
            exact hkey rfl
          · exact hmem hmem'

lemma Mergeable.simpleAggregateReduce (rt : Runtime) (h : Mergeable items parts.flatten) (hparts : parts ≠ [])
    {analyzed : AnalyzedQuery} (hfound : ∀ item ∈ items, ∃ agg ∈ analyzed.aggregations, Finds items item agg)
    (hne : analyzed.aggregations ≠ []) :
    ∃ row, simpleAggregateReduce rt (scalarAnswers items parts) analyzed = [row] ∧
      ∀ item ∈ items, row.lookup (resultName item) = some (evaluate item parts.flatten) := by
  have hresults : scalarAnswers items parts ≠ [] := by simpa [scalarAnswers] using hparts
  rw [Coordinator.simpleAggregateReduce, if_neg hresults]
  simp only [if_neg hne]
  refine ⟨_, rfl, fun item hitem => ?_⟩
  obtain ⟨v, hv, heval⟩ := h.lookup_item hparts hitem
  obtain ⟨agg, hagg, hfinds⟩ := hfound item hitem
  obtain ⟨i, hi⟩ := getElem?_of_mem hagg
  rw [heval, ← aggregated, ← foldl_map (f := fun agg : Aggregation × ℕ =>
    findColumn (aggregated items parts) (rt.iterate agg.2 (aggregated items parts)) agg.1) (g := setColumn)]
  refine lookup_foldl_setColumn (fun entry hentry => ?_) hv (.inl ?_)
  · obtain ⟨found, -, hfind⟩ := mem_map.mp hentry
    exact lookup_of_findColumn (rt.iterate_perm _ _) hfind
  · exact mem_map.mpr ⟨(agg, i), mem_zipIdx_iff_getElem?.mpr hi, h.findColumn_item hitem hfinds (rt.iterate_perm _ _) hv⟩

lemma exists_foundItem (fromWord : List Char) (more : List (List Char × List Char × CallText)) (c : CallText)
    (hitem : item ∈ c.item :: more.map (fun d => d.2.2.item)) :
    ∃ agg ∈ foundItems fromWord c more, agg.type = item.type ∧ agg.column = item.column ∧
      (agg.aliasName = item.aliasName ∨ item.aliasName = "" ∧ agg.aliasName = ofList fromWord) := by
  induction more generalizing c with
  | nil =>
    rw [map_nil, mem_singleton] at hitem
    subst hitem
    refine ⟨_, mem_singleton_self _, ?_⟩
    split
    · rename_i halias
      exact ⟨rfl, rfl, .inr ⟨halias, rfl⟩⟩
    · exact ⟨rfl, rfl, .inl rfl⟩
  | cons d more ih =>
    obtain ⟨gap, gap', c'⟩ := d
    rcases mem_cons.mp hitem with rfl | hitem
    · exact ⟨c.item, mem_cons_self, rfl, rfl, .inl rfl⟩
    · obtain ⟨agg, hagg, hsame⟩ := ih c' hitem
      exact ⟨agg, .tail _ hagg, hsame⟩

lemma type_of_mem_foundItems {fromWord : List Char} {more : List (List Char × List Char × CallText)} (c : CallText)
    (hagg : agg ∈ foundItems fromWord c more) :
    ∃ item ∈ c.item :: more.map (fun d => d.2.2.item), agg.type = item.type := by
  induction more generalizing c with
  | nil =>
    rw [foundItems, mem_singleton] at hagg
    refine ⟨c.item, mem_cons_self, ?_⟩
    rw [hagg]
    split <;> rfl
  | cons d more ih =>
    obtain ⟨gap, gap', c'⟩ := d
    rcases mem_cons.mp hagg with rfl | hagg
    · exact ⟨_, .head _, rfl⟩
    · obtain ⟨item, hitem, htype⟩ := ih c' hagg
      exact ⟨item, .tail _ hitem, htype⟩

lemma fromWord_not_mem (hq : q.WellFormed) (hfrom : ∀ item ∈ q.items, toLower item.aliasName.toList ≠ "from".toList) :
    ofList q.fromWord ∉ q.items.map resultName := by
  intro hmem
  obtain ⟨item, hitem, hname⟩ := mem_map.mp hmem
  have hname := congrArg toList hname
  rw [toList_ofList] at hname
  by_cases halias : item.aliasName = ""
  · have hparen : '(' ∈ (resultName item).toList := by
      rw [resultName, if_neg (by simpa using halias)]
      split
      · decide
      · simp [toList_append]
    rw [hname] at hparen
    exact absurd (hq.fromWord_word.2 _ hparen) (by decide)
  · rw [resultName, if_pos halias] at hname
    rw [← hname] at hmem
    exact hfrom item hitem (hname ▸ hq.fromWord)

lemma strategy_of_counts_and_sums (hq : q.WellFormed)
    (htypes : ∀ item ∈ q.items, item.type = .count ∨ item.type = .sum) :
    getMapReduceStrategy (analyze (ofList q.text)) = .simpleAggregate ∧
      (analyze (ofList q.text)).aggregations ≠ [] := by
  have hgroup : (analyze (ofList q.text)).groupByKeys = [] := by
    simpa [analyze] using extractGroupBy_text hq
  have hmem : ∀ agg, agg ∈ (analyze (ofList q.text)).aggregations ↔
      agg ∈ foundItems q.fromWord q.first q.more := by
    intro agg
    simpa [analyze] using mem_extractAggregations hq agg
  have hne : (analyze (ofList q.text)).aggregations ≠ [] := by
    obtain ⟨agg, hagg, -⟩ := exists_foundItem q.fromWord q.more q.first (.head _)
    exact ne_nil_of_mem ((hmem agg).mpr hagg)
  have havg : (analyze (ofList q.text)).aggregations.any (fun agg => decide (agg.type = .avg)) = false := by
    rw [any_eq_false]
    intro agg hagg
    obtain ⟨item, hitem, htype⟩ := type_of_mem_foundItems q.first ((hmem agg).mp hagg)
    rcases htypes item hitem with hcase | hcase <;> simp [htype, hcase]
  refine ⟨?_, hne⟩
  rw [getMapReduceStrategy, if_neg (by simpa using hgroup), havg, if_neg (by simp), if_pos hne]

def ordersText : SelectText where
  select := "SELECT".toList
  selectGap := " ".toList
  first := ⟨⟨.count, "*", ""⟩, "COUNT".toList, [], [], [], .absent⟩
  more := [([], " ".toList, ⟨⟨.sum, "price", "total"⟩, "SUM".toList, [], [], [],
    .withAs " ".toList "AS".toList " ".toList⟩)]
  fromGap := " ".toList
  fromWord := "FROM".toList
  rest := " orders".toList

def orderParts : List (List DataRow) :=
  [[fun c => if c = "price" then some 5 else none, fun _ => none], [fun c => if c = "price" then some 7 else none]]

def numberEach (x y : ℚ) : List (List DataRow) := [[fun _ => some x], [fun _ => some y]]

end MinIODB.Coordinator
