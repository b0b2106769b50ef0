import Mathlib.Tactic

/-!
# Runs of a partial step function

A system is a function that maps a state and an action to the next state, or to
nothing when the action is not possible. Its runs are lists of actions. A guard
restricts the states in which an action may be taken; invariants need to be kept
by guarded steps only.
-/
namespace Transition
open List

variable {S A : Type*} (step : S → A → Option S)

/-- The state after a list of actions, if all of them are possible. -/
def exec : S → List A → Option S
  | s, [] => some s
  | s, a :: as => (step s a).bind (fun t => exec t as)

/-- Every action of the run is taken in a state that satisfies the guard. -/
def Guarded (guard : S → A → Prop) : S → List A → Prop
  | _, [] => True
  | s, a :: as => guard s a ∧ ∀ t, step s a = some t → Guarded guard t as

/-- Whether a given run is guarded can be checked by following it. -/
instance decidableGuarded (guard : S → A → Prop) [∀ s a, Decidable (guard s a)] :
    ∀ s as, Decidable (Guarded step guard s as)
  | _, [] => isTrue trivial
  | s, a :: as =>
    haveI : ∀ t, Decidable (Guarded step guard t as) := fun t => decidableGuarded guard t as
    haveI : Decidable (∀ t, step s a = some t → Guarded step guard t as) :=
      inferInstanceAs (Decidable (∀ t ∈ step s a, Guarded step guard t as))
    inferInstanceAs (Decidable (guard s a ∧ ∀ t, step s a = some t → Guarded step guard t as))

variable {step}

variable {s t s' : S} {as : List A} {guard : S → A → Prop} {T : Type*}

lemma exec_cons {u : S} {a : A} (h : exec step s (a :: as) = some u) :
    ∃ t, step s a = some t ∧ exec step t as = some u := by
  rw [exec] at h
  exact Option.bind_eq_some_iff.mp h

/-- The invariant rule: what holds at the start and is kept by every guarded step
holds in every state that a guarded run reaches. -/
lemma exec_invariant (inv : S → Prop)
    (hstep : ∀ s a t, inv s → guard s a → step s a = some t → inv t)
    (h0 : inv s) (hg : Guarded step guard s as) (h : exec step s as = some t) : inv t := by
  induction as generalizing s with
  | nil =>
    cases h
    exact h0
  | cons a as ih =>
    obtain ⟨u, hu, hrest⟩ := exec_cons h
    exact ih (hstep s a u h0 hg.1 hu) (hg.2 u hu) hrest

/-- A run of actions that may be taken in any state. -/
lemma Guarded.of_forall (h : ∀ a ∈ as, ∀ s, guard s a) : Guarded step guard s as := by
  induction as generalizing s with
  | nil => trivial
  | cons a as ih => exact ⟨h a (.head _) s, fun t _ => ih (fun b hb => h b (.tail a hb))⟩

/-- The invariant rule without a guard. -/
lemma exec_preserves {inv : S → Prop} (hstep : ∀ s a t, inv s → step s a = some t → inv t)
    (h0 : inv s) (h : exec step s as = some t) : inv t :=
  exec_invariant inv (fun s a t hs _ => hstep s a t hs) h0 (Guarded.of_forall fun _ _ _ => trivial) h

/-- The simulation rule: when every guarded step is matched by steps of another system
that lead to a related state again, so is every guarded run. -/
lemma exec_simulates {next : T → T → Prop} (rel : S → T → Prop)
    (hstep : ∀ s a s' t, rel s t → guard s a → step s a = some s' →
      ∃ t', Relation.ReflTransGen next t t' ∧ rel s' t')
    {t : T} (h0 : rel s t) (hg : Guarded step guard s as)
    (h : exec step s as = some s') : ∃ t', Relation.ReflTransGen next t t' ∧ rel s' t' := by
  refine exec_invariant (fun s => ∃ t', Relation.ReflTransGen next t t' ∧ rel s t') ?_
    ⟨t, Relation.ReflTransGen.refl, h0⟩ hg h
  rintro s a s' ⟨u, hu, hrel⟩ hguard hs
  obtain ⟨v, hv, hrel'⟩ := hstep s a s' u hrel hguard hs
  exact ⟨v, hu.trans hv, hrel'⟩

/-- The simulation rule for a system that takes part in some of the actions only: it can run
these actions alone, and ends in a related state. -/
lemma exec_filterMap {B : Type*} (step' : T → B → Option T) (part : A → Option B)
    (rel : S → T → Prop)
    (hpart : ∀ s a b s' t, part a = some b → rel s t → guard s a → step s a = some s' →
      ∃ t', step' t b = some t' ∧ rel s' t')
    (hother : ∀ s a s' t, part a = none → rel s t → guard s a → step s a = some s' → rel s' t)
    {t : T} (h0 : rel s t) (hg : Guarded step guard s as)
    (h : exec step s as = some s') : ∃ t', exec step' t (as.filterMap part) = some t' ∧ rel s' t' := by
  induction as generalizing s t with
  | nil =>
    cases h
    exact ⟨t, rfl, h0⟩
  | cons a as ih =>
    obtain ⟨u, hu, hrest⟩ := exec_cons h
    cases ha : part a with
    | none =>
      rw [filterMap_cons_none ha]
      exact ih (hother s a u t ha h0 hg.1 hu) (hg.2 u hu) hrest
    | some b =>
      obtain ⟨t', ht', hrel⟩ := hpart s a b u t ha h0 hg.1 hu
      obtain ⟨v, hv, hfinal⟩ := ih hrel (hg.2 u hu) hrest
      refine ⟨v, ?_, hfinal⟩
      rw [filterMap_cons_some ha, exec, ht', Option.bind_some]
      exact hv

/-- Of a list of calls to which one is added, every call is an old one or the new one. -/
lemma getElem?_concat_cases {l : List A} {x y : A} {i : ℕ} (h : (l ++ [x])[i]? = some y) :
    l[i]? = some y ∨ i = l.length ∧ y = x := by
  by_cases hi : i < l.length
  · rw [getElem?_append_left hi] at h
    exact .inl h
  · rw [getElem?_append_right (not_lt.mp hi), getElem?_singleton] at h
    obtain ⟨hzero, rfl⟩ := Option.ite_some_none_eq_some.mp h
    exact .inr ⟨by omega, rfl⟩

/-- Of a list of calls in which one is replaced, every call is the new one or one at another place. -/
lemma getElem?_set_cases {l : List A} {x y : A} {i j : ℕ} (h : (l.set i x)[j]? = some y) :
    i = j ∧ y = x ∨ i ≠ j ∧ l[j]? = some y := by
  rw [getElem?_set] at h
  split at h
  · obtain ⟨-, rfl⟩ := Option.ite_some_none_eq_some.mp h
    exact .inl ⟨‹i = j›, rfl⟩
  · exact .inr ⟨‹i ≠ j›, h⟩

lemma getElem?_set_of_some {l : List A} {x y : A} {i : ℕ} (h : l[i]? = some x) :
    (l.set i y)[i]? = some y :=
  List.getElem?_set_self (List.getElem?_eq_some_iff.mp h).1

/-- What holds of some call holds of some call still when one that passes it on is replaced. -/
lemma exists_getElem?_set {P : A → Prop} {l : List A} {x y : A} {i : ℕ}
    (h : ∃ (j : ℕ) (z : A), l[j]? = some z ∧ P z) (hx : l[i]? = some x) (hkeep : P x → P y) :
    ∃ (j : ℕ) (z : A), (l.set i y)[j]? = some z ∧ P z := by
  obtain ⟨j, z, hz, hP⟩ := h
  by_cases hij : i = j
  · subst hij
    cases hx.symm.trans hz
    exact ⟨i, y, getElem?_set_of_some hx, hkeep hP⟩
  · exact ⟨j, z, (getElem?_set_ne hij).trans hz, hP⟩

/-- A weaker guard admits more runs. -/
lemma Guarded.mono {guard' : S → A → Prop} (hw : ∀ s a, guard s a → guard' s a)
    (h : Guarded step guard s as) : Guarded step guard' s as := by
  induction as generalizing s with
  | nil => trivial
  | cons a as ih => exact ⟨hw s a h.1, fun t ht => ih (h.2 t ht)⟩

end Transition
