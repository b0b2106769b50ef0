import Mathlib.Tactic

/-!
# Leftmost matches in a text

A matcher looks at the beginning of a text and returns what it captured and the rest.
`findAll` collects the matches from left to right, each one starting after the end of
the one before, and `findFirst` returns the first. `replaceAll` puts other text in the
place of the matches. A match never is empty here.

The rules below read a text piece by piece: a piece in which no match starts is
skipped, and a piece that is a match contributes its capture.
-/
namespace MinIODB.Matching
open List

variable {α β : Type*}

/-- The matches that start at or after position `skip`. -/
def findAllFrom (m : List α → Option (β × List α)) : ℕ → List α → List β
  | _, [] => []
  | skip + 1, _ :: l => findAllFrom m skip l
  | 0, a :: l =>
    match m (a :: l) with
    | none => findAllFrom m 0 l
    | some (b, rest) => b :: findAllFrom m (l.length - rest.length) l

def findAll (m : List α → Option (β × List α)) (l : List α) : List β :=
  findAllFrom m 0 l

def findFirst (m : List α → Option (β × List α)) : List α → Option β
  | [] => none
  | a :: l =>
    match m (a :: l) with
    | none => findFirst m l
    | some (b, _) => some b

/-- The text in which the matches that start at or after position `skip` are replaced. -/
def replaceAllFrom (m : List α → Option (List α × List α)) : ℕ → List α → List α
  | _, [] => []
  | skip + 1, _ :: l => replaceAllFrom m skip l
  | 0, a :: l =>
    match m (a :: l) with
    | none => a :: replaceAllFrom m 0 l
    | some (b, rest) => b ++ replaceAllFrom m (l.length - rest.length) l

def replaceAll (m : List α → Option (List α × List α)) (l : List α) : List α :=
  replaceAllFrom m 0 l

/-- The text after the first occurrence of `word`. -/
def after [DecidableEq α] (word : List α) : List α → Option (List α)
  | [] => none
  | a :: l => if word.isPrefixOf (a :: l) then some ((a :: l).drop word.length) else after word l

/-- The text before the first occurrence of `word`, all of it when there is none. -/
def before [DecidableEq α] (word : List α) : List α → List α
  | [] => []
  | a :: l => if word.isPrefixOf (a :: l) then [] else a :: before word l

/-- Every position inside `u` satisfies `P` when `rest` follows `u`. -/
def Within (P : List α → Prop) (u rest : List α) : Prop :=
  ∀ v w, u = v ++ w → w ≠ [] → P (w ++ rest)

variable {P Q : List α → Prop} {m : List α → Option (β × List α)} {u v rest : List α} {b : β}

lemma Within.nil : Within P [] rest := by
  intro v w h hw
  have : w = [] := (nil_eq_append_iff.mp h).2
  exact absurd this hw

lemma Within.mono (hPQ : ∀ l, P l → Q l) (h : Within P u rest) : Within Q u rest :=
  fun v w hu hw => hPQ _ (h v w hu hw)

lemma Within.of_cons {a : α} (h : Within P (a :: u) rest) :
    P (a :: (u ++ rest)) ∧ Within P u rest := by
  refine ⟨h [] (a :: u) rfl (by simp), fun v w hu hw => ?_⟩
  exact h (a :: v) w (by rw [hu, cons_append]) hw

lemma Within.cons {a : α} (ha : P (a :: (u ++ rest))) (h : Within P u rest) :
    Within P (a :: u) rest := by
  intro v w hu hw
  cases v with
  | nil =>
    rw [nil_append] at hu
    rw [← hu]
    exact ha
  | cons c v =>
    rw [cons_append, List.cons.injEq] at hu
    exact h v w hu.2 hw

lemma Within.append (hu : Within P u (v ++ rest)) (hv : Within P v rest) :
    Within P (u ++ v) rest := by
  induction u with
  | nil => exact hv
  | cons a u ih =>
    obtain ⟨ha, hu⟩ := hu.of_cons
    rw [← append_assoc] at ha
    exact Within.cons ha (ih hu)

lemma findAllFrom_append (w : List α) : findAllFrom m u.length (u ++ w) = findAll m w := by
  induction u with
  | nil => cases w <;> rfl
  | cons a u ih => exact ih

/-- A piece in which no match starts is skipped. -/
lemma findAll_append_of_none (h : Within (fun l => m l = none) u rest) :
    findAll m (u ++ rest) = findAll m rest := by
  induction u with
  | nil => rfl
  | cons a u ih =>
    obtain ⟨ha, hu⟩ := h.of_cons
    rw [← ih hu]
    simp [findAll, findAllFrom, ha]

lemma findAll_append_of_match (hu : u ≠ []) (h : m (u ++ rest) = some (b, rest)) :
    findAll m (u ++ rest) = b :: findAll m rest := by
  cases u with
  | nil => exact absurd rfl hu
  | cons =>
    rw [cons_append] at h
    simp only [findAll, cons_append, findAllFrom, h, length_append, Nat.add_sub_cancel]
    rw [findAllFrom_append]
    rfl

section
variable {m : List α → Option (List α × List α)} {b : List α}

lemma replaceAllFrom_append (w : List α) :
    replaceAllFrom m u.length (u ++ w) = replaceAll m w := by
  induction u with
  | nil => cases w <;> rfl
  | cons a u ih => exact ih

lemma replaceAll_append_of_none (h : Within (fun l => m l = none) u rest) :
    replaceAll m (u ++ rest) = u ++ replaceAll m rest := by
  induction u with
  | nil => rfl
  | cons a u ih =>
    obtain ⟨ha, hu⟩ := h.of_cons
    rw [cons_append, cons_append, ← ih hu]
    simp [replaceAll, replaceAllFrom, ha]

lemma replaceAll_append_of_match (hu : u ≠ []) (h : m (u ++ rest) = some (b, rest)) :
    replaceAll m (u ++ rest) = b ++ replaceAll m rest := by
  cases u with
  | nil => exact absurd rfl hu
  | cons =>
    rw [cons_append] at h
    simp only [replaceAll, cons_append, replaceAllFrom, h, length_append, Nat.add_sub_cancel]
    rw [replaceAllFrom_append]
    rfl

end

/-- A capture is what the matcher captured at some position. -/
lemma exists_of_mem_findAllFrom {skip : ℕ} {l : List α} (h : b ∈ findAllFrom m skip l) :
    ∃ s rest, s <:+ l ∧ m s = some (b, rest) := by
  induction l generalizing skip with
  | nil => cases h
  | cons a l ih =>
    have hlater : ∀ {skip}, b ∈ findAllFrom m skip l → ∃ s rest, s <:+ a :: l ∧ m s = some (b, rest) := by
      intro skip hb
      obtain ⟨s, rest, hs, hm⟩ := ih hb
      exact ⟨s, rest, hs.trans (suffix_cons a l), hm⟩
    cases skip with
    | succ => exact hlater h
    | zero =>
      rw [findAllFrom] at h
      cases hm : m (a :: l) with
      | none =>
        rw [hm] at h
        exact hlater h
      | some found =>
        rw [hm] at h
        obtain rfl | hb := mem_cons.mp h
        · exact ⟨a :: l, found.2, suffix_rfl, hm⟩
        · exact hlater hb

/-- A match is found if every match that starts before it ends before it, or captures the same. -/
lemma mem_findAllFrom {s l rest : List α} {skip : ℕ} (hs : s <:+ l) (hskip : skip ≤ l.length - s.length)
    (hne : s ≠ []) (hm : m s = some (b, rest))
    (h : ∀ s' b' rest', s' <:+ l → s <:+ s' → s' ≠ s → m s' = some (b', rest') →
      s <:+ rest' ∨ b' = b) : b ∈ findAllFrom m skip l := by
  induction l generalizing skip with
  | nil => exact absurd (suffix_nil.mp hs) hne
  | cons a l ih =>
    have hlater : s <:+ l → ∀ {skip}, skip ≤ l.length - s.length → b ∈ findAllFrom m skip l := by
      intro hsl skip hle
      exact ih hsl hle (fun s' b' rest' hs' => h s' b' rest' (hs'.trans (suffix_cons a l)))
    obtain rfl | hsl := suffix_cons_iff.mp hs
    · have hzero : skip = 0 := by omega
      subst hzero
      simp only [findAllFrom, hm]
      exact .head _
    · have hlength := hsl.length_le
      cases skip with
      | succ =>
        rw [length_cons] at hskip
        exact hlater hsl (by omega)
      | zero =>
        rw [findAllFrom]
        cases hma : m (a :: l) with
        | none => exact hlater hsl (Nat.zero_le _)
        | some found =>
          have hneq : a :: l ≠ s := by
            rintro rfl
            rw [length_cons] at hlength
            omega
          obtain hrest | heq := h (a :: l) found.1 found.2 suffix_rfl hs hneq hma
          · have := hrest.length_le
            exact .tail _ (hlater hsl (by omega))
          · exact mem_cons.mpr (.inl heq.symm)

lemma mem_findAll {s l rest : List α} (hs : s <:+ l) (hne : s ≠ []) (hm : m s = some (b, rest))
    (h : ∀ s' b' rest', s' <:+ l → s <:+ s' → s' ≠ s → m s' = some (b', rest') →
      s <:+ rest' ∨ b' = b) : b ∈ findAll m l :=
  mem_findAllFrom hs (Nat.zero_le _) hne hm h

/-- What holds of the captures at every position holds of the first one. -/
lemma findFirst_of_within {R : β → Prop}
    (h : Within (fun l => ∀ b rest, m l = some (b, rest) → R b) u [])
    (hfirst : findFirst m u = some b) : R b := by
  induction u with
  | nil => cases hfirst
  | cons a u ih =>
    obtain ⟨ha, hu⟩ := h.of_cons
    rw [append_nil] at ha
    rw [findFirst] at hfirst
    cases hm : m (a :: u) with
    | none =>
      rw [hm] at hfirst
      exact ih hu hfirst
    | some =>
      rw [hm] at hfirst
      cases hfirst
      exact ha _ _ hm

end MinIODB.Matching
