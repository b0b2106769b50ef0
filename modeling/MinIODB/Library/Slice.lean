import Mathlib.Tactic

/-!
# Slices over shared arrays

A slice is a position in an array and a length, and several slices may share an array. An
append writes into the array while there is room after the end of the slice, whatever
another slice reads there, and else goes to a new array that nobody shares yet.
-/
namespace Slices
open List

/-- An array with the elements that have been written to it. -/
structure Backing (α : Type*) where
  capacity : ℕ
  cells : List α

/-- The arrays of a program in the order of their allocation. -/
abbrev Arrays (α : Type*) := List (Backing α)

/-- The first elements of an array. -/
structure Slice where
  array : ℕ
  length : ℕ
  deriving DecidableEq

variable {α : Type*}

def Backing.write (b : Backing α) (k : ℕ) (x : α) : Backing α :=
  { b with cells := b.cells.take k ++ x :: b.cells.drop (k + 1) }

def cells (h : Arrays α) (array : ℕ) : List α := (h[array]?.map Backing.cells).getD []

def read (h : Arrays α) (s : Slice) : List α := (cells h s.array).take s.length

def capacity (h : Arrays α) (array : ℕ) : ℕ := (h[array]?.map Backing.capacity).getD 0

/-- The slice without its elements, in the same array. -/
def Slice.reset (s : Slice) : Slice := { s with length := 0 }

/-- An append; `grow` is the capacity of the array that replaces a full one. -/
def append (grow : ℕ → ℕ) (h : Arrays α) (s : Slice) (x : α) : Arrays α × Slice :=
  if s.length < capacity h s.array then
    (h.modify s.array (fun b => b.write s.length x), { s with length := s.length + 1 })
  else (h ++ [⟨grow s.length, read h s ++ [x]⟩], ⟨h.length, s.length + 1⟩)

def appendAll (grow : ℕ → ℕ) : Arrays α → Slice → List α → Arrays α × Slice
  | h, s, [] => (h, s)
  | h, s, x :: xs => appendAll grow (append grow h s x).1 (append grow h s x).2 xs

/-- The array exists, and all elements of the slice have been written. -/
structure Valid (h : Arrays α) (s : Slice) : Prop where
  array : s.array < h.length
  length : s.length ≤ (cells h s.array).length

/-- Two lists have the same elements where both have one, the second counted from an offset. -/
def Agree (l : List α) (offset : ℕ) (xs : List α) : Prop :=
  ∀ (k : ℕ) (x y : α), l[offset + k]? = some x → xs[k]? = some y → x = y

variable {grow : ℕ → ℕ} {h : Arrays α} {s s' : Slice} {x : α} {xs : List α}

lemma cells_modify (array array' k : ℕ) : cells (h.modify array (fun b => b.write k x)) array' =
      if array = array' ∧ array' < h.length then
        (cells h array').take k ++ x :: (cells h array').drop (k + 1) else cells h array' := by
  unfold cells
  rw [getElem?_modify]
  by_cases hlt : array' < h.length
  · rw [getElem?_eq_getElem hlt]
    by_cases heq : array = array'
    · simp [heq, hlt, Backing.write]
    · simp [heq]
  · rw [getElem?_eq_none (not_lt.mp hlt)]
    simp [hlt]

lemma cells_concat (b : Backing α) (array : ℕ) :
    cells (h ++ [b]) array = if array = h.length then b.cells else cells h array := by
  unfold cells
  rcases lt_trichotomy array h.length with hlt | rfl | hgt
  · rw [getElem?_append_left hlt, if_neg hlt.ne]
  · simp
  · rw [if_neg hgt.ne', getElem?_eq_none (by simp; omega), getElem?_eq_none hgt.le]

section
variable (hs : Valid h s)
include hs

lemma valid_reset : Valid h s.reset := ⟨hs.array, Nat.zero_le _⟩

lemma length_read : (read h s).length = s.length :=
  length_take_of_le hs.length

lemma valid_append : Valid (append grow h s x).1 (append grow h s x).2 := by
  unfold append
  split
  · refine ⟨by simpa using hs.array, ?_⟩
    have hlen := hs.length
    simp only [cells_modify, hs.array, and_self, if_true, length_append, length_take,
      length_cons, length_drop]
    omega
  · refine ⟨by simp, ?_⟩
    rw [cells_concat, if_pos rfl, length_append, length_read hs]
    exact le_rfl

/-- What an append does to the slice itself. -/
lemma read_append :
    read (append grow h s x).1 (append grow h s x).2 = read h s ++ [x] := by
  unfold append
  split
  · have htake : (List.take s.length (cells h s.array)).length = s.length := length_read hs
    simp only [read, cells_modify, hs.array, and_self, if_true]
    rw [take_append, htake, Nat.add_sub_cancel_left, take_of_length_le (by omega),
      take_succ_cons, take_zero]
  · rw [read, cells_concat, if_pos rfl]
    exact take_of_length_le (by rw [length_append, length_read hs]; rfl)

end

/-- Another slice keeps its elements, unless it reads what the append overwrites. -/
lemma read_append_other (hs : Valid h s') (hagree : s'.array = s.array → Agree (read h s') s.length [x]) :
    read (append grow h s x).1 s' = read h s' := by
  unfold append
  split
  · rw [read, cells_modify]
    split
    · rename_i heq
      have hagree := hagree heq.1.symm 0
      apply ext_getElem?
      intro k
      rw [getElem?_take]
      split
      · rename_i hk
        have hcell : k < (cells h s'.array).length := hk.trans_le hs.length
        rcases lt_trichotomy k s.length with hlt | rfl | hgt
        · rw [getElem?_append_left (by simp; omega), getElem?_take_of_lt hlt, read,
            getElem?_take_of_lt hk]
        · have hold : (read h s')[s.length]? = some (cells h s'.array)[s.length] := by
            rw [read, getElem?_take_of_lt hk, getElem?_eq_getElem hcell]
          have hx := hagree _ x (by simpa using hold) rfl
          rw [getElem?_append_right (by simp), length_take_of_le hcell.le, Nat.sub_self, hold, hx]
          rfl
        · rw [getElem?_append_right (by simp; omega), length_take_of_le (by omega), read,
            getElem?_take_of_lt hk]
          obtain ⟨d, rfl⟩ : ∃ d, k = s.length + 1 + d := ⟨k - (s.length + 1), by omega⟩
          have hd : s.length + 1 + d - s.length = d + 1 := by omega
          rw [hd, getElem?_cons_succ, getElem?_drop]
      · rename_i hk
        rw [read, getElem?_eq_none]
        rw [length_take]
        omega
    · rfl
  · rw [read, cells_concat, if_neg hs.array.ne]
    rfl

lemma valid_append_other (hs : Valid h s') : Valid (append grow h s x).1 s' := by
  unfold append
  split
  · refine ⟨by simpa using hs.array, hs.length.trans ?_⟩
    rw [cells_modify]
    split
    · simp only [length_append, length_take, length_cons, length_drop]
      omega
    · exact le_rfl
  · refine ⟨by simpa using hs.array.trans (Nat.lt_succ_self _), ?_⟩
    rw [cells_concat, if_neg hs.array.ne]
    exact hs.length

lemma appendAll_spec (hs : Valid h s) :
    Valid (appendAll grow h s xs).1 (appendAll grow h s xs).2 ∧
      read (appendAll grow h s xs).1 (appendAll grow h s xs).2 = read h s ++ xs := by
  induction xs generalizing h s with
  | nil => exact ⟨hs, (append_nil _).symm⟩
  | cons x xs ih =>
    have happend : Valid (append grow h s x).1 (append grow h s x).2 := valid_append hs
    obtain ⟨hvalid, hread⟩ := ih happend
    refine ⟨hvalid, hread.trans ?_⟩
    rw [read_append hs, append_assoc]
    rfl

/-- Where the slice is after an append. -/
lemma append_array (hs : Valid h s') :
    ((append grow h s x).2.array = s'.array → s.array = s'.array) ∧
      (append grow h s x).2.length = s.length + 1 := by
  unfold append
  split
  · exact ⟨id, rfl⟩
  · exact ⟨fun heq => absurd heq hs.array.ne', rfl⟩

/-- Another slice keeps its elements, if the new ones agree with those they overwrite. -/
lemma appendAll_other (hs : Valid h s')
    (hagree : s'.array = s.array → Agree (read h s') s.length xs) :
    Valid (appendAll grow h s xs).1 s' ∧ read (appendAll grow h s xs).1 s' = read h s' := by
  induction xs generalizing h s with
  | nil => exact ⟨hs, rfl⟩
  | cons x xs ih =>
    have hread : read (append grow h s x).1 s' = read h s' := by
      refine read_append_other hs (fun heq k y z hy hz => ?_)
      cases k with
      | zero => exact hagree heq 0 y z hy (by simpa using hz)
      | succ => simp at hz
    have hslice : ((append grow h s x).2.array = s'.array → s.array = s'.array) ∧
        (append grow h s x).2.length = s.length + 1 := append_array hs
    obtain ⟨harray, hlength⟩ := hslice
    have hother : Valid (append grow h s x).1 s' := valid_append_other hs
    obtain ⟨hvalid, hrest⟩ := ih hother (by
      intro heq k y z hy hz
      rw [hread, hlength] at hy
      refine hagree (harray heq.symm).symm (k + 1) y z ?_ (by simpa using hz)
      rw [← hy]
      congr 1
      omega)
    exact ⟨hvalid, hrest.trans hread⟩

end Slices
