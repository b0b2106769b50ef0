import Mathlib.Data.List.MinMax
import Mathlib.Data.List.Sort

/-!
# The data browser

A table keeps all versions of its records. The browser numbers the versions of each id from the
newest on, keeps those with number 1, sorts them and cuts out a page; a second query counts them.
The filter is a condition of the inner SELECT, so versions are numbered after it.

The versions of an id have different timestamps. What a filter means and how a column is compared
are parameters. An ORDER BY clause leaves open in which order equal rows are returned, and may
return them in another order with every request.
-/
namespace MinIODB.Dashboard
open List

structure Version (α : Type*) where
  id : String
  timestamp : ℕ
  columns : α
  deriving DecidableEq

structure BrowseParams where
  filter : String
  sortBy : String
  sortOrder : String
  page : ℤ
  pageSize : ℤ

structure BrowseResult (α : Type*) where
  rows : List (Version α)
  total : ℕ
  page : ℤ
  pageSize : ℤ
  deriving DecidableEq

def validIdentifier (name : String) : Bool :=
  match name.toList with
  | [] => false
  | c :: cs => (c.isAlpha || c = '_') && cs.all (fun c => c.isAlphanum || c = '_')

/-- The order in which the engine returns rows that are to be sorted. -/
structure Sorter {α : Type*} (le : Version α → Version α → Prop) where
  sort : List (Version α) → List (Version α)
  perm : ∀ rows, (sort rows).Perm rows
  sorted : ∀ rows, (sort rows).Pairwise le

section
variable {α κ : Type*} [LinearOrder κ] (isSafeFilter : String → Bool) (condition : String → Version α → Bool)
  (column : String → Version α → κ)

/-- `ROW_NUMBER() OVER (PARTITION BY id ORDER BY timestamp DESC)`. -/
def rowNumber (rows : List (Version α)) (r : Version α) : ℕ :=
  (rows.filter (fun r' => r'.id = r.id ∧ r.timestamp < r'.timestamp)).length + 1

def whereFilter (filter : String) (r : Version α) : Bool := filter = "" || condition filter r

def selected (filter : String) (rows : List (Version α)) : List (Version α) :=
  (rows.filter (whereFilter condition filter)).filter (fun r =>
    rowNumber (rows.filter (whereFilter condition filter)) r = 1)

namespace BrowseParams
variable (params : BrowseParams)

def size : ℤ := if params.pageSize ≤ 0 then 20 else params.pageSize

def number : ℤ := if params.page ≤ 0 then 1 else params.page

def offset : ℤ := (params.number - 1) * params.size

def Precedes (r r' : Version α) : Prop :=
  if params.sortBy = "" then r'.timestamp ≤ r.timestamp
  else if params.sortOrder.toUpper = "DESC" then column params.sortBy r' ≤ column params.sortBy r
  else column params.sortBy r ≤ column params.sortBy r'

instance (r r' : Version α) : Decidable (params.Precedes column r r') :=
  inferInstanceAs (Decidable (if params.sortBy = "" then r'.timestamp ≤ r.timestamp
    else if params.sortOrder.toUpper = "DESC" then column params.sortBy r' ≤ column params.sortBy r
    else column params.sortBy r ≤ column params.sortBy r'))

end BrowseParams

structure BrowseEnv (params : BrowseParams) where
  countOk : Bool
  queryError : Option String
  sorter : Sorter (params.Precedes column)

def browseData (rows : List (Version α)) (params : BrowseParams) (env : BrowseEnv column params) :
    Except String (BrowseResult α) :=
  if params.filter ≠ "" ∧ isSafeFilter params.filter = false then
    .error "Filter contains disallowed SQL keywords"
  else if params.sortBy ≠ "" ∧ validIdentifier params.sortBy = false then
    .error "Invalid sort_by: must be a valid column name"
  else
    -- an error of the count is ignored
    let total := if env.countOk then (selected condition params.filter rows).length else 0
    match env.queryError with
    | some e => .error e
    | none => .ok
      { rows := ((env.sorter.sort (selected condition params.filter rows)).drop params.offset.toNat).take
          params.size.toNat
        total := total
        page := params.number
        pageSize := params.size }

def Newest (rows : List (Version α)) (r : Version α) : Prop :=
  ∀ r' ∈ rows, r'.id = r.id → r'.timestamp ≤ r.timestamp

instance (rows : List (Version α)) (r : Version α) : Decidable (Newest rows r) :=
  inferInstanceAs (Decidable (∀ r' ∈ rows, _))

/-- What the browser is meant to show. -/
def current (filter : String) (rows : List (Version α)) : List (Version α) :=
  rows.filter (fun r => whereFilter condition filter r && decide (Newest rows r))

/-- The newest version of an id satisfies the filter if any version does. -/
def NewestFirst (filter : String) (rows : List (Version α)) : Prop :=
  ∀ r ∈ rows, whereFilter condition filter r = true → ∀ r' ∈ rows, r'.id = r.id → Newest rows r' →
    whereFilter condition filter r' = true

instance (filter : String) (rows : List (Version α)) : Decidable (NewestFirst condition filter rows) :=
  inferInstanceAs (Decidable (∀ r ∈ rows, _ → ∀ r' ∈ rows, _))

variable {isSafeFilter condition column} {rows : List (Version α)} {r : Version α} {filter : String}

lemma rowNumber_eq_one_iff : rowNumber rows r = 1 ↔ Newest rows r := by
  rw [rowNumber, Nat.add_eq_right, length_eq_zero_iff, filter_eq_nil_iff]
  refine forall₂_congr (fun r' _ => ?_)
  simp

lemma exists_newest (hr : r ∈ rows) : ∃ r' ∈ rows, r'.id = r.id ∧ Newest rows r' := by
  obtain ⟨s, hs⟩ : ∃ s, s ∈ (rows.filter (fun r' => r'.id = r.id)).argmax (fun r' => r'.timestamp) := by
    refine Option.ne_none_iff_exists'.mp (fun hnone => ?_)
    have hmem : r ∈ rows.filter (fun r' => r'.id = r.id) := by simp [hr]
    rw [argmax_eq_none.mp hnone] at hmem
    cases hmem
  obtain ⟨hmem, hid⟩ := mem_filter.mp (argmax_mem hs)
  rw [decide_eq_true_eq] at hid
  refine ⟨s, hmem, hid, fun t ht htid => ?_⟩
  have ht' : t ∈ rows.filter (fun r' => r'.id = r.id) := by simp [ht, htid.trans hid]
  exact le_of_mem_argmax ht' hs

lemma selected_eq_current (h : NewestFirst condition filter rows) :
    selected condition filter rows = current condition filter rows := by
  rw [selected, current, filter_filter]
  refine filter_congr (fun r hr => ?_)
  rw [Bool.and_comm]
  cases hf : whereFilter condition filter r with
  | false => rfl
  | true =>
    simp only [Bool.true_and, decide_eq_decide, rowNumber_eq_one_iff]
    constructor
    · intro hnewest r' hr' hid
      obtain ⟨s, hs, hsid, hmax⟩ := exists_newest hr'
      have hfs := h r hr hf s hs (hsid.trans hid) hmax
      exact (hmax r' hr' hsid.symm).trans (hnewest s (mem_filter.mpr ⟨hs, hfs⟩) (hsid.trans hid))
    · exact fun hnewest r' hr' => hnewest r' (mem_filter.mp hr').1

lemma take_drop_pages {β : Type*} (l : List β) (size n : ℕ) :
    (range n).flatMap (fun i => (l.drop (i * size)).take size) = l.take (n * size) := by
  induction n with
  | zero => simp
  | succ n ih =>
    rw [range_succ, flatMap_append, ih, flatMap_singleton, Nat.succ_mul, take_add]

lemma Sorter.sort_eq {le : Version α → Version α → Prop} (s s' : Sorter le)
    (h : ∀ r ∈ rows, ∀ r' ∈ rows, le r r' → le r' r → r = r') : s.sort rows = s'.sort rows := by
  refine List.Perm.eq_of_pairwise (fun r r' hr hr' => ?_) (s.sorted rows) (s'.sorted rows)
    ((s.perm rows).trans (s'.perm rows).symm)
  exact h r ((s.perm rows).mem_iff.mp hr) r' ((s'.perm rows).mem_iff.mp hr')

lemma nodup_current (hversions : rows.Pairwise (fun r r' => r.id = r'.id → r.timestamp ≠ r'.timestamp)) :
    ((current condition filter rows).map (fun r => r.id)).Nodup := by
  rw [List.Nodup, pairwise_map]
  refine (hversions.filter _).imp_of_mem (fun {r r'} hr hr' hne hid => ?_)
  obtain ⟨hr, hkept⟩ := mem_filter.mp hr
  obtain ⟨hr', hkept'⟩ := mem_filter.mp hr'
  have hnewest : Newest rows r := of_decide_eq_true (Bool.and_eq_true_iff.mp hkept).2
  have hnewest' : Newest rows r' := of_decide_eq_true (Bool.and_eq_true_iff.mp hkept').2
  exact hne hid (le_antisymm (hnewest' r hr hid) (hnewest r' hr' hid.symm))

lemma BrowseParams.size_pos (params : BrowseParams) : 0 < params.size := by
  rw [size]
  split <;> omega

open BrowseParams

end

def hasStatus (filter : String) (r : Version String) : Bool := r.columns = filter

def amount (_ : String) (_ : Version String) : ℕ := 0

def openOrders (page : ℤ) : BrowseParams := ⟨"open", "", "", page, 1⟩

def ByTimestamp (r r' : Version String) : Prop := r'.timestamp ≤ r.timestamp

instance : DecidableRel ByTimestamp := fun r r' => inferInstanceAs (Decidable (r'.timestamp ≤ r.timestamp))

instance : Std.Total ByTimestamp := ⟨fun r r' => le_total r'.timestamp r.timestamp⟩

instance : IsTrans (Version String) ByTimestamp := ⟨fun _ _ _ h h' => le_trans h' h⟩

def timestampSorter (opposite : Bool) (page : ℤ) : Sorter ((openOrders page).Precedes amount) where
  sort rows := (if opposite then rows.reverse else rows).insertionSort ByTimestamp
  perm rows := by
    refine (List.perm_insertionSort _ _).trans ?_
    split
    · exact List.reverse_perm rows
    · exact .refl rows
  sorted _ := List.pairwise_insertionSort ByTimestamp _

def answer (rows : List (Version String)) (page : ℤ) (countOk opposite : Bool) :
    Option (BrowseResult String) :=
  (browseData (fun _ => true) hasStatus amount rows (openOrders page)
    ⟨countOk, none, timestampSorter opposite page⟩).toOption

def reopened : List (Version String) :=
  [⟨"a", 1, "open"⟩, ⟨"a", 2, "open"⟩, ⟨"b", 3, "open"⟩, ⟨"c", 4, "closed"⟩]

end MinIODB.Dashboard
