import Mathlib.Tactic

/-!
# Keeping the newest elements of a stream

A bounded buffer takes elements one by one. While it has room it takes every element; when it
is full, an element replaces the oldest one in the buffer if it is newer than that. At the end
the buffer holds as many elements as fit, and no element left out is newer than one kept.
-/
namespace Selection
open List

variable {α τ : Type*} [LinearOrder τ] {time : α → τ} {k : ℕ} {seen h xs : List α} {x : α}

/-- What the buffer holds when it has seen the elements of a list. -/
structure Holds (time : α → τ) (k : ℕ) (seen h : List α) : Prop where
  subperm : h.Subperm seen
  length : h.length = min k seen.length
  newest : ∀ x ∈ seen, x ∈ h ∨ ∀ y ∈ h, time x ≤ time y

section
variable (hh : Holds time k seen h)
include hh

/-- A buffer with room has all elements seen so far. -/
lemma Holds.mem_of_room (hroom : h.length < k) (hx : x ∈ seen) : x ∈ h := by
  have hlength := hh.length
  have hperm : h.Perm seen := hh.subperm.perm_of_length_le (by omega)
  exact hperm.mem_iff.mpr hx

lemma Holds.perm {h' : List α} (hperm : h.Perm h') : Holds time k seen h' where
  subperm := hperm.symm.subperm.trans hh.subperm
  length := hperm.length_eq.symm.trans hh.length
  newest := by simpa only [hperm.mem_iff] using hh.newest

lemma Holds.nodup_map {β : Type*} {f : α → β} (hseen : (seen.map f).Nodup) :
    (h.map f).Nodup := by
  obtain ⟨l, hl, hsub⟩ := hh.subperm
  exact (hl.map f).nodup_iff.mp ((hsub.map f).nodup hseen)

end

variable [DecidableEq α]

def insertNewest (time : α → τ) (k : ℕ) (h : List α) (x : α) : List α :=
  if h.length < k then x :: h
  else
    match h.argmin time with
    | none => h
    | some m => if time m < time x then x :: h.erase m else h

def newest (time : α → τ) (k : ℕ) (xs : List α) : List α := xs.foldl (insertNewest time k) []

lemma Holds.insertNewest (hh : Holds time k seen h) :
    Holds time k (seen ++ [x]) (insertNewest time k h x) := by
  have hlength := hh.length
  have hperm : (x :: seen).Perm (seen ++ [x]) := (perm_append_singleton x seen).symm
  unfold Selection.insertNewest
  split
  · rename_i hroom
    refine ⟨((subperm_cons x).mpr hh.subperm).trans hperm.subperm, ?_, fun z hz => .inl ?_⟩
    · simp only [length_cons, length_append, length_nil]
      omega
    · rcases mem_append.mp hz with hz | hz
      · exact .tail x (hh.mem_of_room hroom hz)
      · rw [mem_singleton.mp hz]
        exact .head _
  · rename_i hfull
    have hgrown : min k (seen ++ [x]).length = min k seen.length := by
      simp only [length_append, length_cons, length_nil]
      omega
    have hsub : h.Subperm (seen ++ [x]) := hh.subperm.trans (sublist_append_left seen [x]).subperm
    split
    · rename_i hmin
      have hnil : h = [] := argmin_eq_none.mp hmin
      refine ⟨hsub, hgrown ▸ hlength, fun z _ => .inr ?_⟩
      rw [hnil]
      exact nofun
    · rename_i m hmin
      have hmem : m ∈ h := argmin_mem hmin
      have hle : ∀ y ∈ h, time m ≤ time y := fun y hy => le_of_mem_argmin hy hmin
      split
      · rename_i hlt
        refine ⟨?_, ?_, fun z hz => ?_⟩
        · exact ((subperm_cons x).mpr ((erase_subperm m h).trans hh.subperm)).trans hperm.subperm
        · have hpos := length_pos_of_mem hmem
          rw [length_cons, length_erase_of_mem hmem, hgrown]
          omega
        · have hover : ∀ y ∈ x :: h.erase m, time m ≤ time y := by
            intro y hy
            rcases mem_cons.mp hy with rfl | hy
            · exact hlt.le
            · exact hle y (mem_of_mem_erase hy)
          rcases mem_append.mp hz with hz | hz
          · rcases hh.newest z hz with hz | hz
            · by_cases hzm : z = m
              · exact .inr (hzm ▸ hover)
              · exact .inl (.tail x ((mem_erase_of_ne hzm).mpr hz))
            · exact .inr (fun y hy => (hz m hmem).trans (hover y hy))
          · rw [mem_singleton.mp hz]
            exact .inl (.head _)
      · rename_i hold
        refine ⟨hsub, hgrown ▸ hlength, fun z hz => ?_⟩
        rcases mem_append.mp hz with hz | hz
        · exact hh.newest z hz
        · rw [mem_singleton.mp hz]
          exact .inr (fun y hy => (not_lt.mp hold).trans (hle y hy))

lemma Holds.foldl (hh : Holds time k seen h) :
    Holds time k (seen ++ xs) (xs.foldl (Selection.insertNewest time k) h) := by
  induction xs generalizing seen h with
  | nil => simpa using hh
  | cons x xs ih =>
    have hstep : Holds time k (seen ++ [x]) (Selection.insertNewest time k h x) := hh.insertNewest
    have hnext := ih hstep
    rwa [append_assoc] at hnext

/-- The newest elements of a list. -/
lemma holds_newest (time : α → τ) (k : ℕ) (xs : List α) : Holds time k xs (newest time k xs) := by
  have hempty : Holds time k [] [] := ⟨List.Subperm.refl _, by simp, nofun⟩
  exact hempty.foldl

lemma mem_of_mem_newest (hx : x ∈ newest time k xs) : x ∈ xs := (holds_newest time k xs).subperm.subset hx

lemma length_newest (time : α → τ) (k : ℕ) (xs : List α) : (newest time k xs).length = min k xs.length :=
  (holds_newest time k xs).length

end Selection
