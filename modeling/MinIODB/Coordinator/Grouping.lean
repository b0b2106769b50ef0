import MinIODB.Coordinator.ScalarAggregates

/-!
# Queries with GROUP BY

Every node answers with one row for each group of its rows. The coordinator joins the printed
values of the group columns to one key, adds up the numbers of all other columns by key, and cuts
the keys into texts again. Groups are kept apart and come back as they were if their values are
texts without the separator; the sums are the aggregates of the whole groups for COUNT and SUM.
-/
namespace MinIODB.Coordinator
open List AList Function

structure TableRow where
  value : String → Value
  data : DataRow

def tupleOf (keys : List String) (r : TableRow) : List Value := keys.map r.value

def tuples (keys : List String) (rows : List TableRow) : List (List Value) := (rows.map (tupleOf keys)).dedup

def groupData (keys : List String) (t : List Value) (rows : List TableRow) : List DataRow :=
  (rows.filter (fun r => decide (tupleOf keys r = t))).map TableRow.data

def groupAnswerRow (keys : List String) (items : List Aggregation) (rows : List TableRow) (t : List Value) : Row :=
  rowOf (keys.zip t ++ callColumns items (groupData keys t rows))

def groupAnswer (keys : List String) (items : List Aggregation) (rows : List TableRow) : List Row :=
  (tuples keys rows).map (groupAnswerRow keys items rows)

def GroupAnswer (keys : List String) (items : List Aggregation) (part : List TableRow) (answer : List Row) : Prop :=
  answer.Perm (groupAnswer keys items part)

structure GroupMergeable (keys : List String) (items : List Aggregation) (rows : List TableRow) : Prop where
  nonempty : keys ≠ []
  texts : ∀ r ∈ rows, ∀ k ∈ keys, ∃ s, r.value k = .str s ∧ '|' ∉ s.toList
  types : ∀ item ∈ items, item.type = .count ∨ item.type = .sum
  names : (keys ++ items.map resultName).Nodup
  sums : ∀ item ∈ items, item.type = .sum → ∀ t ∈ tuples keys rows, columnValues item.column (groupData keys t rows) ≠ []

/-- What the analysis of the query has to find. -/
structure Sees (analyzed : AnalyzedQuery) (keys : List String) (items : List Aggregation) : Prop where
  keys : analyzed.groupByKeys = keys
  found : items ≠ [] → analyzed.aggregations ≠ []
  types : ∀ agg ∈ analyzed.aggregations, ∃ item ∈ items, agg.type = item.type

structure GroupsMerged (keys : List String) (items : List Aggregation) (rows : List TableRow) (out : List Row) :
    Prop where
  groups : (out.map (fun row => keys.map row.lookup)).Perm ((tuples keys rows).map (fun t => t.map some))
  aggregates : ∀ row ∈ out, ∀ t, keys.map row.lookup = t.map some → ∀ item ∈ items,
    row.lookup (resultName item) = some (evaluate item (groupData keys t rows))

section
variable {keys : List String} {items : List Aggregation} {rows : List TableRow} {t t' : List Value}

def Plain (t : List Value) : Prop := ∀ v ∈ t, ∃ s, v = .str s ∧ '|' ∉ s.toList

def textsOf (t : List Value) : List (List Char) := t.map (fun v => (printValue (fun _ => "") v).toList)

def keyOf (t : List Value) : List Char := ['|'].intercalate (textsOf t)

lemma Plain.splitOn (h : Plain t) (hne : t ≠ []) : (keyOf t).splitOn '|' = textsOf t := by
  refine splitOn_intercalate '|' (fun l hl => ?_) (by simpa [textsOf] using hne)
  obtain ⟨v, hv, rfl⟩ := mem_map.mp hl
  obtain ⟨s, rfl, hs⟩ := h v hv
  exact hs

lemma Plain.texts (h : Plain t) : (textsOf t).map (fun l => Value.str (String.ofList l)) = t := by
  rw [textsOf, map_map]
  conv_rhs => rw [← map_id t]
  refine map_congr_left (fun v hv => ?_)
  obtain ⟨s, rfl, -⟩ := h v hv
  simp [printValue]

lemma Plain.keyOf_inj (h : Plain t) (h' : Plain t') (hne : t ≠ []) (hne' : t' ≠ [])
    (heq : keyOf t = keyOf t') : t = t' := by
  rw [← h.texts, ← h'.texts, ← h.splitOn hne, ← h'.splitOn hne', heq]

lemma length_of_mem_tuples (h : t ∈ tuples keys rows) : t.length = keys.length := by
  obtain ⟨r, -, rfl⟩ := mem_map.mp (mem_dedup.mp h)
  rw [tupleOf, length_map]

lemma GroupMergeable.plain (h : GroupMergeable keys items rows) (ht : t ∈ tuples keys rows) : Plain t := by
  obtain ⟨r, hr, rfl⟩ := mem_map.mp (mem_dedup.mp ht)
  intro v hv
  obtain ⟨k, hk, rfl⟩ := mem_map.mp hv
  exact h.texts r hr k hk

lemma GroupMergeable.ne_nil (h : GroupMergeable keys items rows) (ht : t ∈ tuples keys rows) : t ≠ [] := by
  rintro rfl
  have := length_of_mem_tuples ht
  exact h.nonempty (length_eq_zero_iff.mp this.symm)

lemma GroupMergeable.keyOf_inj (h : GroupMergeable keys items rows) (ht : t ∈ tuples keys rows)
    (ht' : t' ∈ tuples keys rows) (heq : keyOf t = keyOf t') : t = t' :=
  (h.plain ht).keyOf_inj (h.plain ht') (h.ne_nil ht) (h.ne_nil ht') heq

end

section
variable {keys : List String} {items : List Aggregation} {rows part : List TableRow} {parts : List (List TableRow)}
  {t : List Value} {item : Aggregation}

section
variable (hlength : t.length = keys.length)
include hlength

lemma map_lookup_zip {columns : List (String × Value)} (hnames : ((keys.zip t ++ columns).map Prod.fst).Nodup) :
    keys.map (rowOf (keys.zip t ++ columns)).lookup = t.map some := by
  refine ext_getElem (by simp [hlength]) (fun i hi hi' => ?_)
  rw [length_map] at hi hi'
  rw [getElem_map, getElem_map]
  refine lookup_rowOf hnames (mem_append_left _ ?_)
  have hzip : i < (keys.zip t).length := by rw [length_zip]; omega
  have hmem := getElem_mem hzip
  rwa [getElem_zip] at hmem

section
variable (hnames : (keys ++ items.map resultName).Nodup)
include hnames

lemma names_nodup (rows : List DataRow) : ((keys.zip t ++ callColumns items rows).map Prod.fst).Nodup := by
  rwa [map_append, map_fst_zip (by omega), callColumns, map_map]

lemma lookup_groupAnswerRow_keys :
    keys.map (groupAnswerRow keys items rows t).lookup = t.map some :=
  map_lookup_zip hlength (names_nodup hlength hnames _)

lemma lookup_groupAnswerRow (hitem : item ∈ items) :
    (groupAnswerRow keys items rows t).lookup (resultName item) =
      some (evaluate item (groupData keys t rows)) :=
  lookup_rowOf (names_nodup hlength hnames _) (mem_append_right _ (mem_map_of_mem hitem))

end

end

lemma buildGroupKey_of_lookup (formatFloat : ℚ → String) {row : Row} (ht : Plain t)
    (h : keys.map row.lookup = t.map some) : buildGroupKey formatFloat row keys = keyOf t := by
  have hmap : keys.map (fun key => (((row.lookup key).map (printValue formatFloat)).getD "").toList) =
      (keys.map row.lookup).map (fun v => ((v.map (printValue formatFloat)).getD "").toList) := by
    rw [map_map]
    rfl
  rw [buildGroupKey, hmap, h, map_map, keyOf, textsOf]
  congr 1
  refine map_congr_left (fun v hv => ?_)
  obtain ⟨s, rfl, -⟩ := ht v hv
  rfl

lemma mem_tuples_flatten : t ∈ tuples keys parts.flatten ↔ ∃ part ∈ parts, t ∈ tuples keys part := by
  simp only [tuples, mem_dedup, mem_map, mem_flatten]
  constructor
  · rintro ⟨r, ⟨part, hpart, hr⟩, rfl⟩
    exact ⟨part, hpart, r, hr, rfl⟩
  · rintro ⟨part, hpart, r, hr, rfl⟩
    exact ⟨r, ⟨part, hpart, hr⟩, rfl⟩

lemma groupData_eq_nil (h : t ∉ tuples keys part) : groupData keys t part = [] := by
  rw [groupData, map_eq_nil_iff, filter_eq_nil_iff]
  intro r hr hsame
  rw [decide_eq_true_eq] at hsame
  exact h (mem_dedup.mpr (mem_map.mpr ⟨r, hr, hsame⟩))

lemma groupData_flatten (t : List Value) (parts : List (List TableRow)) :
    groupData keys t parts.flatten =
      ((parts.filter (fun part => decide (t ∈ tuples keys part))).map (groupData keys t)).flatten := by
  induction parts with
  | nil => rfl
  | cons part parts ih =>
    have hsplit : groupData keys t (part :: parts).flatten = groupData keys t part ++ groupData keys t parts.flatten := by
      rw [flatten_cons, groupData, filter_append, map_append]
      rfl
    rw [hsplit, ih]
    by_cases hmem : t ∈ tuples keys part
    · rw [filter_cons_of_pos (by simpa using hmem), map_cons, flatten_cons]
    · rw [filter_cons_of_neg (by simpa using hmem), groupData_eq_nil hmem, nil_append]

lemma filter_groupAnswer (formatFloat : ℚ → String) (h : GroupMergeable keys items parts.flatten)
    (hpart : part ∈ parts) (ht : t ∈ tuples keys parts.flatten) :
    (groupAnswer keys items part).filter (fun row => decide (buildGroupKey formatFloat row keys = keyOf t)) =
      if t ∈ tuples keys part then [groupAnswerRow keys items part t] else [] := by
  have hsame : ∀ t' ∈ tuples keys part,
      (buildGroupKey formatFloat (groupAnswerRow keys items part t') keys = keyOf t) ↔ t' = t := by
    intro t' ht'
    have hall : t' ∈ tuples keys parts.flatten := mem_tuples_flatten.mpr ⟨part, hpart, ht'⟩
    rw [buildGroupKey_of_lookup formatFloat (h.plain hall)
      (lookup_groupAnswerRow_keys (length_of_mem_tuples ht') h.names)]
    exact ⟨h.keyOf_inj hall ht, fun heq => by rw [heq]⟩
  rw [groupAnswer, filter_map]
  have hfilter : (tuples keys part).filter ((fun row => decide (buildGroupKey formatFloat row keys = keyOf t)) ∘
      groupAnswerRow keys items part) = (tuples keys part).filter (fun t' => decide (t' = t)) := by
    refine filter_congr (fun t' ht' => ?_)
    rw [comp_apply]
    exact decide_eq_decide.mpr (hsame t' ht')
  rw [hfilter]
  split
  · rename_i hmem
    have hcount : (tuples keys part).count t = 1 := count_eq_one_of_mem (nodup_dedup _) hmem
    have hone : (tuples keys part).filter (fun t' => decide (t' = t)) = [t] := by
      have hreplicate := filter_eq t (l := tuples keys part)
      rw [hcount] at hreplicate
      simpa using hreplicate
    rw [hone, map_singleton]
  · rename_i hmem
    have hnone : (tuples keys part).filter (fun t' => decide (t' = t)) = [] := by
      rw [filter_eq_nil_iff]
      intro t' ht' heq
      rw [decide_eq_true_eq] at heq
      exact hmem (heq ▸ ht')
    rw [hnone, map_nil]

lemma filter_groupAnswers (formatFloat : ℚ → String) (h : GroupMergeable keys items parts.flatten)
    (ht : t ∈ tuples keys parts.flatten) {some' : List (List TableRow)} (hsome : some' ⊆ parts) :
    (some'.flatMap (groupAnswer keys items)).filter
        (fun row => decide (buildGroupKey formatFloat row keys = keyOf t)) =
      (some'.filter (fun part => decide (t ∈ tuples keys part))).map (fun part => groupAnswerRow keys items part t) := by
  induction some' with
  | nil => rfl
  | cons part some' ih =>
    obtain ⟨hpart, hsome⟩ := cons_subset.mp hsome
    rw [flatMap_cons, filter_append, ih hsome, filter_groupAnswer formatFloat h hpart ht]
    by_cases hmem : t ∈ tuples keys part
    · rw [if_pos hmem, filter_cons_of_pos (by simpa using hmem), map_cons, singleton_append]
    · rw [if_neg hmem, filter_cons_of_neg (by simpa using hmem), nil_append]

lemma sumOf_perm {xs ys : List ℚ} (h : xs.Perm ys) : sumOf xs = sumOf ys := by
  have hnil : xs = [] ↔ ys = [] := by
    rw [← length_eq_zero_iff, h.length_eq, length_eq_zero_iff]
  simp [sumOf, hnil, h.sum_eq]

lemma sumOf_group (formatFloat : ℚ → String) (h : GroupMergeable keys items parts.flatten)
    {answers : List (List Row)} (hanswers : List.Forall₂ (GroupAnswer keys items) parts answers)
    (ht : t ∈ tuples keys parts.flatten) (hitem : item ∈ items) :
    sumOf (numbers (resultName item) (answers.flatten.filter
        (fun row => decide (buildGroupKey formatFloat row keys = keyOf t)))) =
      toFloat64 (evaluate item (groupData keys t parts.flatten)) := by
  have hperm : answers.flatten.Perm (parts.flatMap (groupAnswer keys items)) := by
    clear h ht
    induction hanswers with
    | nil => exact Perm.refl _
    | cons hanswer _ ih =>
      rw [flatten_cons, flatMap_cons]
      exact hanswer.append ih
  have hnumbers := (hperm.filter (fun row => decide (buildGroupKey formatFloat row keys = keyOf t))).filterMap
    (fun row => (row.lookup (resultName item)).bind toFloat64)
  have hsome : (parts.filter (fun part => decide (t ∈ tuples keys part))).map (groupData keys t) ≠ [] := by
    obtain ⟨part, hpart, hmem⟩ := mem_tuples_flatten.mp ht
    rw [ne_eq, map_eq_nil_iff]
    exact ne_nil_of_mem (mem_filter.mpr ⟨hpart, by simpa using hmem⟩)
  rw [numbers, sumOf_perm hnumbers, filter_groupAnswers formatFloat h ht (List.Subset.refl parts),
    groupData_flatten, ← sumOf_evaluate hsome (h.types item hitem), filterMap_map, filterMap_map]
  congr 1
  refine filterMap_congr (fun part hpart => ?_)
  have hmem : t ∈ tuples keys part := of_decide_eq_true (mem_filter.mp hpart).2
  rw [comp_apply, comp_apply, lookup_groupAnswerRow (length_of_mem_tuples hmem) h.names hitem]
  rfl

end

section
variable {keys : List String} {formatFloat : ℚ → String}

def groupOf (formatFloat : ℚ → String) (keys : List String) (rows : List Row) (groupKey : List Char) : List Row :=
  rows.filter (fun row => decide (buildGroupKey formatFloat row keys = groupKey))

lemma lookup_addValue_sums (g : Group) (e : Σ _ : String, Value) (key : String) :
    (g.addValue keys e).sums.lookup key =
      if key = e.1 then plus (g.sums.lookup key) (if key ∈ keys then none else toFloat64 e.2)
      else g.sums.lookup key := by
  rw [Group.addValue]
  cases hnum : toFloat64 e.2 with
  | none => simp
  | some =>
    by_cases hkey : key = e.1
    · subst hkey
      by_cases hmem : e.1 ∈ keys
      · simp [hmem]
      · simp [hmem, lookup_add]
    · by_cases hmem : e.1 ∈ keys
      · simp [hmem, hkey]
      · simp [hmem, hkey, lookup_add]

lemma lookup_addRow_sums (g : Group) (row : Row) (key : String) :
    (row.entries.foldl (Group.addValue keys) g).sums.lookup key =
      plus (g.sums.lookup key) (if key ∈ keys then none else (row.lookup key).bind toFloat64) := by
  have hadd := foldl_entries (fun g : Group => g.sums.lookup key)
    (fun v => if key ∈ keys then none else toFloat64 v) (fun g e => lookup_addValue_sums g e key) row.nodupKeys g
  rw [hadd, AList.lookup]
  by_cases hmem : key ∈ keys
  · cases row.entries.dlookup key <;> simp [hmem]
  · simp only [hmem, if_false]
    rfl

structure Collected (formatFloat : ℚ → String) (keys : List String) (rows : List Row) (groups : Groups) : Prop where
  mem : ∀ groupKey, groupKey ∈ groups ↔ groupOf formatFloat keys rows groupKey ≠ []
  sums : ∀ groupKey g, groups.lookup groupKey = some g → ∀ key, g.sums.lookup key =
    if key ∈ keys then none else sumOf (numbers key (groupOf formatFloat keys rows groupKey))

lemma groupOf_concat (rows : List Row) (row : Row) (groupKey : List Char) :
    groupOf formatFloat keys (rows ++ [row]) groupKey = groupOf formatFloat keys rows groupKey ++
        if buildGroupKey formatFloat row keys = groupKey then [row] else [] := by
  rw [groupOf, filter_append, groupOf]
  congr 1
  by_cases h : buildGroupKey formatFloat row keys = groupKey
  · simp [h]
  · simp [h]

lemma sumOf_numbers_concat (rows : List Row) (row : Row) (key : String) :
    sumOf (numbers key (rows ++ [row])) = plus (sumOf (numbers key rows)) ((row.lookup key).bind toFloat64) := by
  rw [numbers, filterMap_append, sumOf_append, numbers]
  congr 1
  rw [filterMap_cons]
  cases (row.lookup key).bind toFloat64 with
  | none => rfl
  | some => simp [sumOf]

lemma Collected.addToGroup {rows : List Row} {groups : Groups} (h : Collected formatFloat keys rows groups)
    (row : Row) :
    Collected formatFloat keys (rows ++ [row]) (addToGroup formatFloat keys groups row) := by
  constructor
  · intro groupKey
    rw [Coordinator.addToGroup, mem_insert, h.mem, groupOf_concat]
    by_cases heq : groupKey = buildGroupKey formatFloat row keys
    · simp [heq]
    · simp [heq, Ne.symm heq]
  · intro groupKey g hg key
    rw [groupOf_concat]
    rw [Coordinator.addToGroup] at hg
    by_cases heq : groupKey = buildGroupKey formatFloat row keys
    · subst heq
      rw [lookup_insert, Option.some.injEq] at hg
      subst hg
      rw [if_pos rfl, lookup_addRow_sums, sumOf_numbers_concat]
      cases hlookup : groups.lookup (buildGroupKey formatFloat row keys) with
      | none =>
        have hempty : groupOf formatFloat keys rows (buildGroupKey formatFloat row keys) = [] := by
          by_contra hne
          exact lookup_eq_none.mp hlookup ((h.mem _).mpr hne)
        rw [hempty]
        simp [numbers, sumOf]
      | some g =>
        rw [Option.getD_some, h.sums _ g hlookup key]
        split <;> simp
    · rw [lookup_insert_ne heq] at hg
      rw [if_neg (Ne.symm heq), append_nil]
      exact h.sums groupKey g hg key

lemma collected (formatFloat : ℚ → String) (keys : List String) (rows : List Row) :
    Collected formatFloat keys rows (rows.foldl (Coordinator.addToGroup formatFloat keys) ∅) := by
  induction rows using reverseRecOn with
  | nil => exact ⟨by simp [groupOf], by simp⟩
  | append_singleton rows row ih =>
    rw [foldl_append]
    exact ih.addToGroup row

end

section
variable {keys : List String} {t : List Value} {analyzed : AnalyzedQuery}

lemma lookup_groupColumn {aggregations : List Aggregation} (hne : aggregations ≠ [])
    (havg : ∀ agg ∈ aggregations, agg.type ≠ .avg) (value count : ℚ) (row : Row) (key key' : String) :
    (groupColumn aggregations value count row key).lookup key' =
      if key' = key then some (.num value) else row.lookup key' := by
  have hgeneral : ∀ (aggregations : List Aggregation) (row : Row), (∀ agg ∈ aggregations, agg.type ≠ .avg) →
      (groupColumn aggregations value count row key).lookup key' =
        if key' = key ∧ aggregations ≠ [] then some (.num value) else row.lookup key' := by
    intro aggregations
    induction aggregations with
    | nil => simp [groupColumn]
    | cons agg aggregations ih =>
      intro row havg
      obtain ⟨hagg, havg⟩ := forall_mem_cons.mp havg
      have ih := ih (row.insert key (.num value)) havg
      rw [groupColumn] at ih ⊢
      rw [foldl_cons, if_neg hagg, ih]
      by_cases hkey : key' = key
      · subst hkey
        simp
      · simp [hkey, lookup_insert_ne hkey]
  rw [hgeneral aggregations row havg]
  simp [hne]

lemma lookup_groupColumn_ne (aggregations : List Aggregation) (value count : ℚ) (row : Row) {key key' : String}
    (h : key' ≠ key) : (groupColumn aggregations value count row key).lookup key' = row.lookup key' := by
  rw [groupColumn]
  induction aggregations generalizing row with
  | nil => rfl
  | cons agg aggregations ih =>
    rw [foldl_cons, ih]
    split
    · split
      · exact lookup_insert_ne h
      · rfl
    · exact lookup_insert_ne h

variable {g : Group} {key : String}

lemma lookup_groupRow_of_none (groupKey : List Char) (h : g.sums.lookup key = none) :
    (groupRow analyzed groupKey g).lookup key = (groupValues groupKey analyzed.groupByKeys).lookup key := by
  have hnot : key ∉ g.sums.entries.keys := dlookup_eq_none.mp h
  rw [groupRow]
  generalize groupValues groupKey analyzed.groupByKeys = row
  generalize g.sums.entries = es at hnot
  induction es generalizing row with
  | nil => rfl
  | cons e es ih =>
    rw [keys_cons, mem_cons, not_or] at hnot
    rw [foldl_cons, ih _ hnot.2, lookup_groupColumn_ne _ _ _ _ hnot.1]

lemma lookup_groupRow_of_sum (hne : analyzed.aggregations ≠ [])
    (havg : ∀ agg ∈ analyzed.aggregations, agg.type ≠ .avg) (groupKey : List Char) {v : ℚ}
    (h : g.sums.lookup key = some v) : (groupRow analyzed groupKey g).lookup key = some (.num v) := by
  have hgeneral : ∀ (es : List (Σ _ : String, ℚ)) (row : Row),
      es.dlookup key = some v ∨ key ∉ es.keys ∧ row.lookup key = some (.num v) → es.NodupKeys →
      (es.foldl (fun row entry => groupColumn analyzed.aggregations entry.2
        ((g.counts.lookup entry.1).getD 0) row entry.1) row).lookup key = some (.num v) := by
    intro es
    induction es with
    | nil =>
      rintro row (h | ⟨-, h⟩) -
      · cases h
      · exact h
    | cons e es ih =>
      intro row h hnodup
      obtain ⟨k, w⟩ := e
      obtain ⟨hnot, hnodup⟩ := nodupKeys_cons.mp hnodup
      rw [foldl_cons]
      refine ih _ ?_ hnodup
      by_cases hkey : key = k
      · subst hkey
        rw [dlookup_cons_eq, keys_cons] at h
        have hw : w = v := by
          rcases h with h | ⟨h, -⟩
          · exact Option.some.inj h
          · exact absurd mem_cons_self h
        refine .inr ⟨hnot, ?_⟩
        rw [lookup_groupColumn hne havg, if_pos rfl, hw]
      · rw [dlookup_cons_ne es ⟨k, w⟩ hkey, keys_cons, mem_cons, not_or] at h
        rw [lookup_groupColumn_ne _ _ _ _ hkey]
        exact h.imp_right (fun h => ⟨h.1.2, h.2⟩)
  exact hgeneral g.sums.entries _ (.inl h) g.sums.nodupKeys

lemma lookup_groupValues (hkeys : keys.Nodup) (ht : Plain t) (hne : t ≠ []) (hlength : t.length = keys.length) :
    keys.map (groupValues (keyOf t) keys).lookup = t.map some := by
  have hrow : groupValues (keyOf t) keys = rowOf (keys.zip t ++ []) := by
    rw [groupValues, ht.splitOn hne, append_nil, rowOf]
    conv_rhs => rw [← ht.texts, zip_map_right, foldl_map]
    rfl
  rw [hrow]
  refine map_lookup_zip hlength ?_
  rwa [append_nil, map_fst_zip (by omega)]

end

section
variable {keys : List String} {items : List Aggregation} {parts : List (List TableRow)} {answers : List (List Row)}
  {analyzed : AnalyzedQuery}

lemma mem_answers (hanswers : List.Forall₂ (GroupAnswer keys items) parts answers) {row : Row} :
    row ∈ answers.flatten ↔ ∃ part ∈ parts, ∃ t ∈ tuples keys part, row = groupAnswerRow keys items part t := by
  induction hanswers with
  | nil => simp
  | cons hanswer _ ih =>
    rw [flatten_cons, mem_append, ih, List.Perm.mem_iff hanswer, groupAnswer, mem_map,
      exists_mem_cons_iff]
    simp [eq_comm]

lemma mem_groups (rt : Runtime) (h : GroupMergeable keys items parts.flatten)
    (hanswers : List.Forall₂ (GroupAnswer keys items) parts answers) {groups : Groups}
    (hc : Collected rt.formatFloat keys answers.flatten groups) {groupKey : List Char} :
    groupKey ∈ groups ↔ ∃ t ∈ tuples keys parts.flatten, keyOf t = groupKey := by
  have hbuild : ∀ part ∈ parts, ∀ t ∈ tuples keys part,
      buildGroupKey rt.formatFloat (groupAnswerRow keys items part t) keys = keyOf t := by
    intro part hpart t ht
    exact buildGroupKey_of_lookup _ (h.plain (mem_tuples_flatten.mpr ⟨part, hpart, ht⟩))
      (lookup_groupAnswerRow_keys (length_of_mem_tuples ht) h.names)
  rw [hc.mem]
  constructor
  · intro hne
    obtain ⟨row, hrow⟩ := exists_mem_of_ne_nil _ hne
    obtain ⟨hrow, hkey⟩ := mem_filter.mp hrow
    obtain ⟨part, hpart, t, ht, rfl⟩ := (mem_answers hanswers).mp hrow
    rw [decide_eq_true_eq, hbuild part hpart t ht] at hkey
    exact ⟨t, mem_tuples_flatten.mpr ⟨part, hpart, ht⟩, hkey⟩
  · rintro ⟨t, ht, rfl⟩
    obtain ⟨part, hpart, ht⟩ := mem_tuples_flatten.mp ht
    refine ne_nil_of_mem (mem_filter.mpr ⟨(mem_answers hanswers).mpr ⟨part, hpart, t, ht, rfl⟩, ?_⟩)
    rw [decide_eq_true_eq, hbuild part hpart t ht]

end

def sale (shop : Value) (price : ℚ) : TableRow :=
  ⟨fun _ => shop, fun c => if c = "price" then some price else none⟩

def salesText : String := "SELECT shop, COUNT(*) AS n, SUM(price) AS total FROM sales GROUP BY shop"

def salesItems : List Aggregation := [⟨.count, "*", "n"⟩, ⟨.sum, "price", "total"⟩]

def salesParts : List (List TableRow) :=
  [[sale (.str "north") 5, sale (.str "south") 1], [sale (.str "north") 7]]

def groupAnswers (keys : List String) (items : List Aggregation) (parts : List (List TableRow)) :
    List (Option (List Row)) := (parts.map (groupAnswer keys items)).map some

def columnsOf (columns : List String) (rows : List Row) : List (List (Option Value)) :=
  rows.map (fun row => columns.map row.lookup)

end MinIODB.Coordinator
