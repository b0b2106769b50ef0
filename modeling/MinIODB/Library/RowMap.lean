import Mathlib.Data.List.AList
import Mathlib.Tactic

/-!
# Finite maps to non-empty lists

A map from keys to rows that never keeps a key without rows: storing the empty list
deletes the key. A missing key reads as the empty list, so a key is present exactly
when it has rows, and the number of rows can be followed through every update.
-/

structure RowMap (κ ρ : Type*) [DecidableEq κ] where
  map : AList (fun _ : κ => List ρ)
  nonempty : ∀ k, map.lookup k ≠ some []

namespace RowMap
open List AList

variable {κ ρ : Type*} [DecidableEq κ]

def empty : RowMap κ ρ := ⟨∅, fun k => by simp⟩

def keys (m : RowMap κ ρ) : List κ := m.map.keys

def get (m : RowMap κ ρ) (k : κ) : List ρ := (m.map.lookup k).getD []

/-- Store the rows of a key, or delete the key when there are none. -/
def set (m : RowMap κ ρ) (k : κ) (rows : List ρ) : RowMap κ ρ :=
  if h : rows = [] then
    ⟨m.map.erase k, fun k' => by
      by_cases hk : k' = k
      · rw [hk, AList.lookup_erase]
        simp
      · rw [AList.lookup_erase_ne hk]
        exact m.nonempty k'⟩
  else
    ⟨m.map.insert k rows, fun k' => by
      by_cases hk : k' = k
      · rw [hk, AList.lookup_insert]
        simpa using h
      · rw [AList.lookup_insert_ne hk]
        exact m.nonempty k'⟩

/-- The number of rows of all keys. -/
def total (m : RowMap κ ρ) : ℕ := (m.map.entries.map (fun e => e.2.length)).sum

/-- One key of `filterRows`. -/
def filterKey (p : κ → Bool) (q : ρ → Bool) (m : RowMap κ ρ) (k : κ) : RowMap κ ρ :=
  if p k then m.set k ((m.get k).filter q) else m

/-- Keep the rows that satisfy the test, at the keys selected by `p`. -/
def filterRows (m : RowMap κ ρ) (p : κ → Bool) (q : ρ → Bool) : RowMap κ ρ :=
  m.keys.foldl (filterKey p q) m

/-- The number of rows that `filterRows` drops. -/
def dropped (m : RowMap κ ρ) (p : κ → Bool) (q : ρ → Bool) : ℕ :=
  (m.keys.map (fun k => if p k then ((m.get k).filter (fun r => !q r)).length else 0)).sum

@[simp] theorem get_empty (k : κ) : (empty : RowMap κ ρ).get k = [] := rfl

lemma nodup_keys (m : RowMap κ ρ) : m.keys.Nodup := m.map.keys_nodup

lemma mem_keys (m : RowMap κ ρ) (k : κ) : k ∈ m.keys ↔ m.get k ≠ [] := by
  rw [keys, ← AList.mem_keys, ← lookup_isSome, get]
  cases h : m.map.lookup k with
  | none => simp
  | some rows =>
    have hne : rows ≠ [] := fun hnil => m.nonempty k (hnil ▸ h)
    simpa using hne

lemma get_of_notMem {m : RowMap κ ρ} {k : κ} (h : k ∉ m.keys) : m.get k = [] := by
  rw [mem_keys] at h
  simpa using h

lemma get_set (m : RowMap κ ρ) (k k' : κ) (rows : List ρ) :
    (m.set k rows).get k' = if k' = k then rows else m.get k' := by
  rw [set]
  split
  · rename_i hrows
    by_cases hk : k' = k
    · subst hk
      simp [get, hrows]
    · simp [get, hk, lookup_erase_ne hk]
  · by_cases hk : k' = k
    · subst hk
      simp [get]
    · simp [get, hk, lookup_insert_ne hk]

/-- The rows of a key and of all the others make up the total. -/
lemma sum_kerase (k : κ) (es : List (Sigma (fun _ : κ => List ρ))) (hes : es.NodupKeys) :
    ((es.kerase k).map (fun e => e.2.length)).sum + ((es.dlookup k).getD []).length =
      (es.map (fun e => e.2.length)).sum := by
  induction es with
  | nil => simp
  | cons e es ih =>
    obtain ⟨k', rows⟩ := e
    rw [nodupKeys_cons] at hes
    by_cases hk : k = k'
    · subst hk
      simp [kerase_cons_eq, dlookup_cons_eq]
      omega
    · have ih := ih hes.2
      rw [kerase_cons_ne hk, dlookup_cons_ne es ⟨k', rows⟩ hk]
      simp only [map_cons, sum_cons]
      omega

/-- Storing rows replaces the old number of rows of the key by the new one. -/
lemma total_set (m : RowMap κ ρ) (k : κ) (rows : List ρ) :
    (m.set k rows).total + (m.get k).length = m.total + rows.length := by
  have hsum := sum_kerase k m.map.entries m.map.nodupKeys
  change _ + (m.get k).length = m.total at hsum
  rw [set]
  split
  · rename_i hrows
    rw [hrows, length_nil, Nat.add_zero]
    exact hsum
  · have hins : (m.map.insert k rows).entries = ⟨k, rows⟩ :: m.map.entries.kerase k := rfl
    simp only [total, hins, map_cons, sum_cons] at hsum ⊢
    omega

section
variable (p : κ → Bool)

section
variable (q : ρ → Bool)

lemma get_filterKey (m : RowMap κ ρ) (k k' : κ) :
    (filterKey p q m k).get k' = if k' = k ∧ p k = true then (m.get k').filter q else m.get k' := by
  unfold filterKey
  split
  · rename_i hp
    rw [get_set]
    by_cases hk : k' = k
    · simp [hk, hp]
    · simp [hk]
  · rename_i hp
    simp [hp]

lemma total_filterKey (m : RowMap κ ρ) (k : κ) :
    (filterKey p q m k).total +
      (if p k then ((m.get k).filter (fun r => !q r)).length else 0) = m.total := by
  unfold filterKey
  split
  · have htotal := m.total_set k ((m.get k).filter q)
    have hsplit := length_eq_length_filter_add (l := m.get k) q
    omega
  · rfl

lemma get_foldl_filterKey (ks : List κ) (hks : ks.Nodup)
    (m : RowMap κ ρ) (k : κ) : (ks.foldl (filterKey p q) m).get k =
      if k ∈ ks ∧ p k = true then (m.get k).filter q else m.get k := by
  induction ks generalizing m with
  | nil => simp
  | cons k' ks ih =>
    rw [nodup_cons] at hks
    rw [foldl_cons, ih hks.2, get_filterKey]
    by_cases hk : k = k'
    · subst hk
      simp [hks.1]
    · simp [hk]

lemma total_foldl_filterKey (ks : List κ) (hks : ks.Nodup)
    (m : RowMap κ ρ) : (ks.foldl (filterKey p q) m).total +
      (ks.map (fun k => if p k then ((m.get k).filter (fun r => !q r)).length else 0)).sum =
        m.total := by
  induction ks generalizing m with
  | nil => simp
  | cons k ks ih =>
    rw [nodup_cons] at hks
    have hhead := total_filterKey p q m k
    have hrest := ih hks.2 (filterKey p q m k)
    have hsame : ks.map (fun k' => if p k' then
          (((filterKey p q m k).get k').filter (fun r => !q r)).length else 0) =
        ks.map (fun k' => if p k' then ((m.get k').filter (fun r => !q r)).length else 0) := by
      refine map_congr_left (fun k' hk' => ?_)
      have hne : k' ≠ k := fun heq => hks.1 (heq ▸ hk')
      rw [get_filterKey]
      simp [hne]
    rw [hsame] at hrest
    rw [foldl_cons, map_cons, sum_cons]
    omega

end

end

lemma get_filterRows (m : RowMap κ ρ) (p : κ → Bool) (q : ρ → Bool) (k : κ) :
    (m.filterRows p q).get k = if p k then (m.get k).filter q else m.get k := by
  rw [filterRows, get_foldl_filterKey p q m.keys m.nodup_keys m k]
  by_cases hk : k ∈ m.keys
  · simp [hk]
  · simp [hk, get_of_notMem hk]

/-- What `filterRows` drops is missing from the total. -/
lemma total_filterRows (m : RowMap κ ρ) (p : κ → Bool) (q : ρ → Bool) :
    (m.filterRows p q).total + m.dropped p q = m.total :=
  total_foldl_filterKey p q m.keys m.nodup_keys m

/-- Nothing is dropped exactly when no selected key has a row that fails the test. -/
lemma dropped_eq_zero (m : RowMap κ ρ) (p : κ → Bool) (q : ρ → Bool) :
    m.dropped p q = 0 ↔ ∀ k, p k → ∀ r ∈ m.get k, q r := by
  rw [dropped, sum_eq_zero_iff]
  constructor
  · intro h k hp r hr
    have hk : k ∈ m.keys := (m.mem_keys k).mpr (ne_nil_of_mem hr)
    have hzero := h _ (mem_map.mpr ⟨k, hk, rfl⟩)
    rw [if_pos hp, length_eq_zero_iff, filter_eq_nil_iff] at hzero
    simpa using hzero r hr
  · intro h n hn
    obtain ⟨k, hk, rfl⟩ := mem_map.mp hn
    split
    · rename_i hp
      rw [length_eq_zero_iff, filter_eq_nil_iff]
      intro r hr
      simp [h k hp r hr]
    · rfl

end RowMap
