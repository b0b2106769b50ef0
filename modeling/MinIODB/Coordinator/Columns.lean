import MinIODB.Coordinator.Strategies

/-!
# Aggregates of a table and sums of columns

`evaluate` is what one node computes for a call over its rows, and `resultName` is the name that
it gives to the result. The strategies add up the numbers of each column. COUNT and SUM of a
table are sums over its parts; for the other functions this does not hold.
-/
namespace MinIODB.Coordinator
open List AList

abbrev DataRow := String → Option ℚ

def columnValues (column : String) (rows : List DataRow) : List ℚ := rows.filterMap (fun r => r column)

def sumOf (xs : List ℚ) : Option ℚ := if xs = [] then none else some xs.sum

def ofNumber : Option ℚ → Value
  | some q => .num q
  | none => .null

def evaluate (item : Aggregation) (rows : List DataRow) : Value :=
  match item.type with
  | .count => .num (if item.column = "*" then rows.length else (columnValues item.column rows).length)
  | .sum => ofNumber (sumOf (columnValues item.column rows))
  | .avg => ofNumber ((sumOf (columnValues item.column rows)).map
      (fun q => q / (columnValues item.column rows).length))
  | .min => ofNumber (columnValues item.column rows).min?
  | .max => ofNumber (columnValues item.column rows).max?
  | .none => .null

def resultName (item : Aggregation) : String :=
  if item.aliasName ≠ "" then item.aliasName
  else if item.type = .count ∧ item.column = "*" then "count_star()"
  else aggTypeName item.type ++ "(" ++ item.column ++ ")"

def rowOf (columns : List (String × Value)) : Row := columns.foldl (fun row c => row.insert c.1 c.2) ∅

def callColumns (items : List Aggregation) (rows : List DataRow) : List (String × Value) :=
  items.map (fun item => (resultName item, evaluate item rows))

def answerRow (items : List Aggregation) (rows : List DataRow) : Row := rowOf (callColumns items rows)

def plus : Option ℚ → Option ℚ → Option ℚ
  | some a, some b => some (a + b)
  | some a, none => some a
  | none, b => b

@[simp] theorem plus_none (a : Option ℚ) : plus a none = a := by cases a <;> rfl

@[simp] theorem none_plus (a : Option ℚ) : plus none a = a := rfl

lemma plus_assoc (a b c : Option ℚ) : plus (plus a b) c = plus a (plus b c) := by
  cases a <;> cases b <;> cases c <;> simp [plus, add_assoc]

lemma sumOf_cons (x : ℚ) (xs : List ℚ) : sumOf (x :: xs) = plus (some x) (sumOf xs) := by
  unfold sumOf
  split
  · simp_all
  · split <;> simp_all [plus]

lemma sumOf_append (xs ys : List ℚ) : sumOf (xs ++ ys) = plus (sumOf xs) (sumOf ys) := by
  induction xs with
  | nil => rfl
  | cons x xs ih => rw [cons_append, sumOf_cons, sumOf_cons, ih, plus_assoc]

lemma lookup_add (m : Sums) (key key' : String) (num : ℚ) :
    (m.add key' num).lookup key = if key = key' then plus (m.lookup key) (some num) else m.lookup key := by
  rw [Sums.add]
  split
  · rename_i heq
    subst heq
    rw [lookup_insert]
    cases m.lookup key <;> simp [plus]
  · rename_i hne
    exact lookup_insert_ne hne

lemma foldl_entries {σ : Type} {f : σ → (Σ _ : String, Value) → σ} {key : String} (sum : σ → Option ℚ)
    (number : Value → Option ℚ)
    (hf : ∀ m e, sum (f m e) = if key = e.1 then plus (sum m) (number e.2) else sum m)
    {es : List (Σ _ : String, Value)} (hnodup : es.NodupKeys) (m : σ) :
    sum (es.foldl f m) = plus (sum m) ((es.dlookup key).bind number) := by
  induction es generalizing m with
  | nil => simp
  | cons e es ih =>
    obtain ⟨k, v⟩ := e
    obtain ⟨hnot, hnodup⟩ := nodupKeys_cons.mp hnodup
    rw [foldl_cons, ih hnodup, hf]
    by_cases hkey : key = k
    · subst hkey
      have hgone : es.dlookup key = none := dlookup_eq_none.mpr hnot
      rw [if_pos rfl, hgone, dlookup_cons_eq]
      simp
    · rw [if_neg hkey, dlookup_cons_ne es ⟨k, v⟩ hkey]

lemma lookup_addValue (m : Sums) (e : Σ _ : String, Value) (key : String) :
    (m.addValue e).lookup key =
      if key = e.1 then plus (m.lookup key) (toFloat64 e.2) else m.lookup key := by
  rw [Sums.addValue]
  cases hnum : toFloat64 e.2 with
  | none => simp
  | some num => exact lookup_add m key e.1 num

lemma lookup_addRow (m : Sums) (row : Row) (key : String) :
    (m.addRow row).lookup key = plus (m.lookup key) ((row.lookup key).bind toFloat64) :=
  foldl_entries (fun m => m.lookup key) toFloat64 (fun m e => lookup_addValue m e key) row.nodupKeys m

def numbers (key : String) (rows : List Row) : List ℚ :=
  rows.filterMap (fun row => (row.lookup key).bind toFloat64)

lemma lookup_foldl_addRow (rows : List Row) (m : Sums) (key : String) :
    (rows.foldl Sums.addRow m).lookup key = plus (m.lookup key) (sumOf (numbers key rows)) := by
  induction rows generalizing m with
  | nil => simp [numbers, sumOf]
  | cons row rows ih =>
    rw [foldl_cons, ih, lookup_addRow, plus_assoc]
    congr 1
    rw [numbers, numbers, filterMap_cons]
    cases (row.lookup key).bind toFloat64 with
    | none => rfl
    | some q => exact (sumOf_cons q _).symm

section
variable {columns : List (String × Value)} {key : String} {v : Value}

lemma lookup_foldl_insert_of_notMem (h : key ∉ columns.map Prod.fst) (row : Row) :
    (columns.foldl (fun row c => row.insert c.1 c.2) row).lookup key = row.lookup key := by
  induction columns generalizing row with
  | nil => rfl
  | cons c columns ih =>
    rw [map_cons, mem_cons, not_or] at h
    rw [foldl_cons, ih h.2, lookup_insert_ne h.1]

lemma lookup_rowOf (hnames : (columns.map Prod.fst).Nodup) (h : (key, v) ∈ columns) :
    (rowOf columns).lookup key = some v := by
  obtain ⟨before, after, rfl⟩ := append_of_mem h
  rw [map_append, map_cons, nodup_append] at hnames
  rw [rowOf, foldl_append, foldl_cons,
    lookup_foldl_insert_of_notMem (nodup_cons.mp hnames.2.1).1, lookup_insert]

lemma mem_rowOf : key ∈ rowOf columns ↔ key ∈ columns.map Prod.fst := by
  have hgeneral : ∀ (columns : List (String × Value)) (row : Row),
      key ∈ columns.foldl (fun row c => row.insert c.1 c.2) row ↔ key ∈ columns.map Prod.fst ∨ key ∈ row := by
    intro columns
    induction columns with
    | nil => simp
    | cons c columns ih =>
      intro row
      rw [foldl_cons, ih, mem_insert, map_cons, mem_cons]
      tauto
  rw [rowOf, hgeneral]
  simp

end

variable {items : List Aggregation} {item : Aggregation} {rows : List DataRow} {parts : List (List DataRow)}

lemma lookup_answerRow (hnames : (items.map resultName).Nodup) (hitem : item ∈ items) :
    (answerRow items rows).lookup (resultName item) = some (evaluate item rows) := by
  refine lookup_rowOf ?_ (mem_map_of_mem hitem)
  rwa [callColumns, map_map]

lemma mem_answerRow {key : String} : key ∈ answerRow items rows ↔ key ∈ items.map resultName := by
  rw [answerRow, mem_rowOf, callColumns, map_map]
  rfl

lemma toFloat64_ofNumber (a : Option ℚ) : toFloat64 (ofNumber a) = a := by cases a <;> rfl

lemma columnValues_flatten (column : String) (parts : List (List DataRow)) :
    columnValues column parts.flatten = parts.flatMap (columnValues column) := by
  rw [columnValues, filterMap_flatten, flatMap_def]
  rfl

lemma sumOf_parts (column : String) (parts : List (List DataRow)) :
    sumOf (parts.filterMap (fun part => sumOf (columnValues column part))) =
      sumOf (columnValues column parts.flatten) := by
  rw [columnValues_flatten]
  induction parts with
  | nil => rfl
  | cons part parts ih =>
    rw [flatMap_cons, sumOf_append, ← ih, filterMap_cons]
    cases sumOf (columnValues column part) with
    | none => rfl
    | some q => exact sumOf_cons q _

lemma sumOf_counts (count : List DataRow → ℕ) (hnil : count [] = 0)
    (happend : ∀ a b, count (a ++ b) = count a + count b) (hparts : parts ≠ []) :
    sumOf (parts.map (fun part => (count part : ℚ))) = some (count parts.flatten : ℚ) := by
  induction parts with
  | nil => exact absurd rfl hparts
  | cons part parts ih =>
    rw [map_cons, sumOf_cons, flatten_cons, happend]
    cases parts with
    | nil => simp [sumOf, plus, hnil]
    | cons part' parts =>
      rw [ih (cons_ne_nil part' parts)]
      simp [plus]

lemma sumOf_evaluate (hparts : parts ≠ []) (htype : item.type = .count ∨ item.type = .sum) :
    sumOf (parts.filterMap (fun part => toFloat64 (evaluate item part))) =
      toFloat64 (evaluate item parts.flatten) := by
  rcases htype with htype | htype
  · by_cases hstar : item.column = "*"
    · have hcount := sumOf_counts length rfl (fun _ _ => length_append) hparts
      simp only [evaluate, htype, hstar, if_true, toFloat64]
      rw [← hcount, ← filterMap_eq_map]
      rfl
    · have hcount := sumOf_counts (fun part => (columnValues item.column part).length) rfl
        (fun a b => by simp [columnValues]) hparts
      simp only [evaluate, htype, hstar, if_false, toFloat64]
      rw [← hcount, ← filterMap_eq_map]
      rfl
  · simp only [evaluate, htype, toFloat64_ofNumber]
    exact sumOf_parts item.column parts

lemma sumOf_numbers (hnames : (items.map resultName).Nodup) (hitem : item ∈ items)
    (htype : item.type = .count ∨ item.type = .sum) (hparts : parts ≠ []) :
    sumOf (numbers (resultName item) (parts.map (answerRow items))) =
      toFloat64 (evaluate item parts.flatten) := by
  rw [← sumOf_evaluate hparts htype, numbers, filterMap_map]
  congr 1
  refine filterMap_congr (fun part _ => ?_)
  rw [Function.comp_apply, lookup_answerRow hnames hitem]
  rfl

end MinIODB.Coordinator
