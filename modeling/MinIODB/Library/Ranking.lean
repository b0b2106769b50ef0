import Mathlib.Tactic

/-!
# The first elements of a list in a given order

An order is a strict comparison under which some elements may be tied. `Top` describes what
remains of a list that is sorted and cut: which of several tied elements are kept is left open.
The first elements of a divided list are found among the first elements of its parts.
-/
namespace Ranking
open List

variable {α β : Type*} {less : α → α → Bool} {n : ℕ} {l all out : List α}

/-- The comparison is a strict weak order on the elements of a list. -/
structure StrictWeakOn (less : α → α → Bool) (l : List α) : Prop where
  irrefl : ∀ a ∈ l, less a a = false
  trans : ∀ a ∈ l, ∀ b ∈ l, ∀ c ∈ l, less a b = true → less b c = true → less a c = true
  /-- An element before another is before or after every third one. -/
  cotrans : ∀ a ∈ l, ∀ b ∈ l, ∀ c ∈ l, less a c = true → less a b = true ∨ less b c = true

lemma StrictWeakOn.mono {l' : List α} (h : StrictWeakOn less l) (hsub : l' ⊆ l) : StrictWeakOn less l' :=
  ⟨fun a ha => h.irrefl a (hsub ha),
    fun a ha b hb c hc => h.trans a (hsub ha) b (hsub hb) c (hsub hc),
    fun a ha b hb c hc => h.cotrans a (hsub ha) b (hsub hb) c (hsub hc)⟩

/-- Elements that are compared by a key. -/
lemma StrictWeakOn.of_key [LinearOrder β] (key : α → β)
    (h : ∀ a ∈ l, ∀ b ∈ l, less a b ↔ key a < key b) : StrictWeakOn less l := by
  refine ⟨fun a ha => ?_, fun a ha b hb c hc => ?_, fun a ha b hb c hc => ?_⟩
  · rw [← Bool.not_eq_true, h a ha a ha]
    exact lt_irrefl _
  · rw [h a ha b hb, h b hb c hc, h a ha c hc]
    exact lt_trans
  · rw [h a ha b hb, h b hb c hc, h a ha c hc]
    intro hac
    exact (lt_or_ge (key a) (key b)).imp_right (fun hba => hba.trans_lt hac)

/-- No element stands behind one that it is before. -/
def Sorted (less : α → α → Bool) (l : List α) : Prop := l.Pairwise (fun a b => less b a = false)

/-- The first `n` elements of a list, in order. -/
structure Top (less : α → α → Bool) (n : ℕ) (all out : List α) : Prop where
  length : out.length = min n all.length
  sorted : Sorted less out
  first : ∃ rest, (out ++ rest).Perm all ∧ ∀ a ∈ rest, ∀ b ∈ out, less a b = false

lemma Top.subperm (h : Top less n all out) : out.Subperm all := by
  obtain ⟨rest, hperm, -⟩ := h.first
  exact (sublist_append_left out rest).subperm.trans hperm.subperm

lemma Top.subset (h : Top less n all out) : out ⊆ all := h.subperm.subset

lemma top_of_sorted {s : List α} (hs : Sorted less s) (hperm : s.Perm all) : Top less n all (s.take n) := by
  have hsplit : (s.take n ++ s.drop n).Perm all := by rwa [take_append_drop]
  have hpair := hs
  rw [Sorted, ← take_append_drop n s, pairwise_append] at hpair
  refine ⟨?_, hpair.1, s.drop n, hsplit, fun a ha b hb => hpair.2.2 b hb a ha⟩
  rw [length_take, hperm.length_eq]

section
variable {parts answers : List (List α)}

/-- What the parts have left out: each element comes from a part whose answer is full. -/
lemma exists_rest (h : List.Forall₂ (Top less n) parts answers) :
    ∃ rest, (answers.flatten ++ rest).Perm parts.flatten ∧ ∀ r ∈ rest, ∃ answer ∈ answers,
      answer.length = n ∧ ∀ a ∈ answer, less r a = false := by
  induction h with
  | nil => exact ⟨[], List.Perm.refl _, by simp⟩
  | @cons part answer parts answers htop _ ih =>
    obtain ⟨rest, hperm, hrest⟩ := ih
    obtain ⟨own, hown, hfirst⟩ := htop.first
    refine ⟨own ++ rest, ?_, fun r hr => ?_⟩
    · rw [flatten_cons, flatten_cons]
      calc answer ++ answers.flatten ++ (own ++ rest)
          = answer ++ (answers.flatten ++ own) ++ rest := by simp
        _ |>.Perm (answer ++ (own ++ answers.flatten) ++ rest) :=
            (perm_append_comm.append_left answer).append_right rest
        _ = answer ++ own ++ (answers.flatten ++ rest) := by simp
        _ |>.Perm (part ++ parts.flatten) := hown.append hperm
    · rcases mem_append.mp hr with hr | hr
      · have hlength := hown.length_eq
        have hpos := length_pos_of_mem hr
        rw [length_append] at hlength
        exact ⟨answer, mem_cons_self, by have := htop.length; omega, hfirst r hr⟩
      · obtain ⟨answer', hanswer, hfull⟩ := hrest r hr
        exact ⟨answer', .tail answer hanswer, hfull⟩

/-- The first elements of the parts' first elements are the first elements of the whole. -/
lemma Top.flatten (hweak : StrictWeakOn less parts.flatten) (h : List.Forall₂ (Top less n) parts answers)
    (hout : Top less n answers.flatten out) : Top less n parts.flatten out := by
  obtain ⟨rest, hperm, hrest⟩ := exists_rest h
  obtain ⟨own, hown, hfirst⟩ := hout.first
  have hanswers : answers.flatten ⊆ parts.flatten :=
    fun a ha => hperm.subset (mem_append_left rest ha)
  have hall : (out ++ (own ++ rest)).Perm parts.flatten := by
    rw [← append_assoc]
    exact (hown.append_right rest).trans hperm
  refine ⟨?_, hout.sorted, own ++ rest, hall, fun r hr b hb => ?_⟩
  · have hlength := hperm.length_eq
    rw [length_append] at hlength
    rw [hout.length]
    cases rest with
    | nil =>
      rw [length_nil] at hlength
      omega
    | cons r =>
      obtain ⟨answer, hanswer, hfull, -⟩ := hrest r (.head _)
      have hle := (sublist_flatten_of_mem hanswer).length_le
      omega
  · rcases mem_append.mp hr with hr | hr
    · exact hfirst r hr b hb
    · obtain ⟨answer, hanswer, hfull, hbehind⟩ := hrest r hr
      have hbout := hanswers (hout.subset hb)
      have hrall := hperm.subset (mem_append_right answers.flatten hr)
      by_contra hbefore
      rw [Bool.not_eq_false] at hbefore
      -- all elements of the full answer are before `b`, so `out` has no place left for `b`
      have hcount : ∀ a ∈ answer, less a b := by
        intro a ha
        have haall := hanswers (mem_flatten_of_mem hanswer ha)
        rcases hweak.cotrans r hrall a haall b hbout hbefore with hra | hab
        · rw [hbehind a ha] at hra
          cases hra
        · exact hab
      have hmany : n ≤ answers.flatten.countP (fun a => less a b) := by
        calc n = answer.countP (fun a => less a b) := by rw [countP_eq_length.mpr hcount, hfull]
          _ ≤ answers.flatten.countP (fun a => less a b) := (sublist_flatten_of_mem hanswer).countP_le
      have hnone : own.countP (fun a => less a b) = 0 := by
        rw [countP_eq_zero]
        intro a ha
        rw [hfirst a ha b hb]
        exact Bool.false_ne_true
      rw [← hown.countP_eq, countP_append, hnone, Nat.add_zero] at hmany
      have hfew : out.countP (fun a => less a b) < out.length := by
        refine lt_of_le_of_ne countP_le_length (fun heq => ?_)
        have hself := countP_eq_length.mp heq b hb
        rw [hweak.irrefl b hbout] at hself
        cases hself
      have := hout.length
      omega

end

/-- A sorting function that can be relied on whenever the comparison is a strict weak order. -/
structure SliceSort (α : Type*) where
  sort : (α → α → Bool) → List α → List α
  perm : ∀ less l, StrictWeakOn less l → (sort less l).Perm l
  sorted : ∀ less l, StrictWeakOn less l → Sorted less (sort less l)

def insertSorted (less : α → α → Bool) (a : α) : List α → List α
  | [] => [a]
  | b :: l => if less b a then b :: insertSorted less a l else a :: b :: l

lemma perm_insertSorted (a : α) (l : List α) : (insertSorted less a l).Perm (a :: l) := by
  induction l with
  | nil => exact List.Perm.refl _
  | cons b l ih =>
    rw [insertSorted]
    split
    · exact (ih.cons b).trans (List.Perm.swap a b l)
    · exact List.Perm.refl _

lemma sorted_insertSorted {a : α} (hweak : StrictWeakOn less (a :: l)) (hl : Sorted less l) :
    Sorted less (insertSorted less a l) := by
  induction l with
  | nil => exact pairwise_singleton _ a
  | cons b l ih =>
    obtain ⟨hb, hl⟩ := pairwise_cons.mp hl
    rw [insertSorted]
    split
    · rename_i hba
      refine pairwise_cons.mpr ⟨fun c hc => ?_, ih (hweak.mono ?_) hl⟩
      · rcases mem_cons.mp ((perm_insertSorted a l).mem_iff.mp hc) with rfl | hc
        · by_contra hab
          rw [Bool.not_eq_false] at hab
          have hself := hweak.trans b (by simp) c (by simp) b (by simp) hba hab
          rw [hweak.irrefl b (by simp)] at hself
          cases hself
        · exact hb c hc
      · intro x hx
        rcases mem_cons.mp hx with rfl | hx
        · exact .head _
        · exact .tail a (.tail b hx)
    · rename_i hba
      rw [Bool.not_eq_true] at hba
      refine pairwise_cons.mpr ⟨fun c hc => ?_, pairwise_cons.mpr ⟨hb, hl⟩⟩
      rcases mem_cons.mp hc with rfl | hc'
      · exact hba
      · by_contra hca
        rw [Bool.not_eq_false] at hca
        rcases hweak.cotrans c (by simp [hc']) b (by simp) a (by simp) hca with hcb | hba'
        · rw [hb c hc'] at hcb
          cases hcb
        · rw [hba] at hba'
          cases hba'

def sortByInsertion (less : α → α → Bool) (l : List α) : List α := l.foldr (insertSorted less) []

lemma perm_sortByInsertion (less : α → α → Bool) (l : List α) : (sortByInsertion less l).Perm l := by
  induction l with
  | nil => exact List.Perm.refl _
  | cons a l ih => exact (perm_insertSorted a _).trans (ih.cons a)

lemma sorted_sortByInsertion (hweak : StrictWeakOn less l) : Sorted less (sortByInsertion less l) := by
  induction l with
  | nil => exact List.Pairwise.nil
  | cons a l ih =>
    refine sorted_insertSorted (hweak.mono ?_) (ih (hweak.mono (subset_cons_self a l)))
    exact ((perm_sortByInsertion less l).cons a).subset

def insertionSlice (α : Type*) : SliceSort α where
  sort := sortByInsertion
  perm less l _ := perm_sortByInsertion less l
  sorted _ _ h := sorted_sortByInsertion h

end Ranking
