import MinIODB.Coordinator.Strategies

/-!
# Merging the first rows of the nodes

For a query with ORDER BY and LIMIT each node sorts its own rows and returns the first of them.
The coordinator sorts the answers together and cuts them again. No row that is needed can be
missing, because a node that left a row out has returned as many rows as the query asks for.
-/
namespace MinIODB.Coordinator
open Ranking List

variable {ob : OrderBy} {n : ℕ} {rows s : List Row} {parts answers : List (List Row)}

def precedes (ob : OrderBy) (a b : Row) : Bool :=
  match ob.direction, a.lookup ob.column, b.lookup ob.column with
  | .asc, some (.num x), some (.num y) => decide (x < y)
  | .desc, some (.num x), some (.num y) => decide (y < x)
  | .asc, some (.str x), some (.str y) => decide (x < y)
  | .desc, some (.str x), some (.str y) => decide (y < x)
  | _, _, _ => false

def OneKind (column : String) (rows : List Row) : Prop :=
  (∀ r ∈ rows, ∃ q, r.lookup column = some (.num q)) ∨ ∀ r ∈ rows, ∃ t, r.lookup column = some (.str t)

def NodeAnswer (ob : OrderBy) (n : ℕ) (part answer : List Row) : Prop :=
  ∃ s, s.Perm part ∧ Sorted (precedes ob) s ∧ answer = s.take n

def numberOf (column : String) (r : Row) : ℚ :=
  match r.lookup column with
  | some (.num q) => q
  | _ => 0

def textOf (column : String) (r : Row) : String :=
  match r.lookup column with
  | some (.str t) => t
  | _ => ""

/-- Rows whose values are compared by a key, in the direction of the clause. -/
lemma precedes_by_key {κ : Type*} [LinearOrder κ] (key : Row → κ) (h : ∀ a ∈ rows, ∀ b ∈ rows,
      (precedes ob a b ↔ match ob.direction with | .asc => key a < key b | .desc => key b < key a)) :
    StrictWeakOn (precedes ob) rows := by
  cases hdir : ob.direction with
  | asc => exact .of_key key (by simpa only [hdir] using h)
  | desc => exact .of_key (fun r => OrderDual.toDual (key r)) (by simpa only [hdir, OrderDual.toDual_lt_toDual] using h)

lemma precedes_numbers (h : ∀ r ∈ rows, ∃ q, r.lookup ob.column = some (.num q)) :
    StrictWeakOn (precedes ob) rows := by
  refine precedes_by_key (numberOf ob.column) (fun a ha b hb => ?_)
  obtain ⟨⟨x, hx⟩, ⟨y, hy⟩⟩ := And.intro (h a ha) (h b hb)
  cases hdir : ob.direction <;> simp [precedes, numberOf, hdir, hx, hy]

lemma precedes_texts (h : ∀ r ∈ rows, ∃ t, r.lookup ob.column = some (.str t)) :
    StrictWeakOn (precedes ob) rows := by
  refine precedes_by_key (textOf ob.column) (fun a ha b hb => ?_)
  obtain ⟨⟨x, hx⟩, ⟨y, hy⟩⟩ := And.intro (h a ha) (h b hb)
  cases hdir : ob.direction <;> simp [precedes, textOf, hdir, hx, hy]

lemma OneKind.strictWeakOn (h : OneKind ob.column rows) : StrictWeakOn (precedes ob) rows :=
  h.elim precedes_numbers precedes_texts

lemma OneKind.mono {column : String} {rows' : List Row} (h : OneKind column rows) (hsub : rows' ⊆ rows) :
    OneKind column rows' :=
  h.imp (fun h r hr => h r (hsub hr)) (fun h r hr => h r (hsub hr))

lemma three_way {α : Type*} [LinearOrder α] (x y : α) :
    ((if x < y then (-1 : ℤ) else if y < x then 1 else 0) < 0 ↔ x < y) ∧
      (0 < (if x < y then (-1 : ℤ) else if y < x then 1 else 0) ↔ y < x) := by
  rcases lt_trichotomy x y with h | rfl | h
  · simp [h, h.asymm]
  · simp
  · simp [h, h.asymm]

lemma rowLess_eq_precedes (h : OneKind ob.column rows) {a b : Row} (ha : a ∈ rows) (hb : b ∈ rows) :
    rowLess ob a b = precedes ob a b := by
  rcases h with h | h
  all_goals
    obtain ⟨⟨x, hx⟩, ⟨y, hy⟩⟩ := And.intro (h a ha) (h b hb)
    cases hdir : ob.direction <;>
      simp only [rowLess, precedes, compareInterface, hdir, hx, hy, three_way x y]

lemma sortSlice_spec (rt : Runtime) (h : OneKind ob.column rows) :
    (rt.sortSlice.sort (rowLess ob) rows).Perm rows ∧
      Sorted (precedes ob) (rt.sortSlice.sort (rowLess ob) rows) := by
  have hweak : StrictWeakOn (rowLess ob) rows := by
    have hprecedes := h.strictWeakOn
    constructor
    · intro a ha
      rw [rowLess_eq_precedes h ha ha]
      exact hprecedes.irrefl a ha
    · intro a ha b hb c hc
      rw [rowLess_eq_precedes h ha hb, rowLess_eq_precedes h hb hc, rowLess_eq_precedes h ha hc]
      exact hprecedes.trans a ha b hb c hc
    · intro a ha b hb c hc
      rw [rowLess_eq_precedes h ha hb, rowLess_eq_precedes h hb hc, rowLess_eq_precedes h ha hc]
      exact hprecedes.cotrans a ha b hb c hc
  have hperm := rt.sortSlice.perm (rowLess ob) rows hweak
  refine ⟨hperm, (rt.sortSlice.sorted (rowLess ob) rows hweak).imp_of_mem (fun ha hb hab => ?_)⟩
  rwa [rowLess_eq_precedes h (hperm.mem_iff.mp hb) (hperm.mem_iff.mp ha)] at hab

lemma topNMergeReduce_eq {analyzed : AnalyzedQuery} {obs : List OrderBy} (rt : Runtime)
    (results : List (Option (List Row))) (hkeys : analyzed.orderByKeys = ob :: obs) (hn : 1 ≤ n)
    (hlimit : analyzed.limit = n) : topNMergeReduce rt results analyzed =
      (rt.sortSlice.sort (rowLess ob) (decodedRows results)).take n := by
  simp only [topNMergeReduce, hkeys, hlimit, Int.toNat_natCast]
  split
  · rfl
  · rename_i hfits
    rw [take_of_length_le]
    omega

lemma NodeAnswer.top {part answer : List Row} (h : NodeAnswer ob n part answer) :
    Top (precedes ob) n part answer := by
  obtain ⟨s, hperm, hsorted, rfl⟩ := h
  exact top_of_sorted hsorted hperm

/-- The merged answer consists of the first rows of all parts together. -/
theorem topNMergeReduce_first (rt : Runtime) {analyzed : AnalyzedQuery} {obs : List OrderBy}
    (hkeys : analyzed.orderByKeys = ob :: obs) (hn : 1 ≤ n) (hlimit : analyzed.limit = n)
    (hkind : OneKind ob.column parts.flatten) (hanswers : List.Forall₂ (NodeAnswer ob n) parts answers) :
    Top (precedes ob) n parts.flatten (topNMergeReduce rt (answers.map some) analyzed) := by
  have htops : List.Forall₂ (Top (precedes ob) n) parts answers := hanswers.imp (fun _ _ h => h.top)
  have hsub : answers.flatten ⊆ parts.flatten := by
    obtain ⟨rest, hperm, -⟩ := exists_rest htops
    exact fun r hr => hperm.subset (mem_append_left rest hr)
  rw [topNMergeReduce_eq rt _ hkeys hn hlimit, decodedRows_map_some]
  obtain ⟨hperm, hsorted⟩ := sortSlice_spec rt (hkind.mono hsub)
  exact Top.flatten hkind.strictWeakOn htops (top_of_sorted hsorted hperm)

def plainRuntime : Runtime where
  iterate _ sums := sums.entries
  iterate_perm _ _ := Perm.refl _
  formatFloat q := toString q.num
  sortSlice := insertionSlice Row

def priced (id : String) (price : ℚ) : Row := (AList.insert "price" (.num price) ∅).insert "id" (.str id)

def cheapest : AnalyzedQuery := analyze "SELECT id FROM orders ORDER BY price LIMIT 2"

def pricedParts : List (List Row) := [[priced "a" 5, priced "b" 1, priced "c" 2], [], [priced "d" 3]]

def pricedAnswers : List (List Row) := [[priced "b" 1, priced "c" 2], [], [priced "d" 3]]

theorem topNMergeReduce_first_cheapest :
    (topNMergeReduce plainRuntime (pricedAnswers.map some) cheapest).map (fun r => r.lookup "id") =
      [some (.str "b"), some (.str "c")] ∧ Top (precedes ⟨"price", .asc⟩) 2 pricedParts.flatten
      (topNMergeReduce plainRuntime (pricedAnswers.map some) cheapest) := by
  refine ⟨by decide +kernel, ?_⟩
  have hkind : OneKind "price" pricedParts.flatten := by
    refine .inl (fun r hr => ?_)
    simp only [pricedParts, flatten_cons, flatten_nil, nil_append, append_nil,
      mem_append, mem_cons, not_mem_nil, or_false] at hr
    rcases hr with (rfl | rfl | rfl) | rfl
    exacts [⟨5, rfl⟩, ⟨1, rfl⟩, ⟨2, rfl⟩, ⟨3, rfl⟩]
  have hanswers : List.Forall₂ (NodeAnswer ⟨"price", .asc⟩ 2) pricedParts pricedAnswers := by
    refine .cons ⟨[priced "b" 1, priced "c" 2, priced "a" 5], ?_, ?_, rfl⟩
      (.cons ⟨[], Perm.refl _, List.Pairwise.nil, rfl⟩
        (.cons ⟨[priced "d" 3], Perm.refl _, pairwise_singleton _ _, rfl⟩ .nil))
    · change ([priced "b" 1, priced "c" 2] ++ [priced "a" 5]).Perm ([priced "a" 5] ++ [priced "b" 1, priced "c" 2])
      exact perm_append_comm
    · simp only [Sorted, pairwise_cons, mem_cons, not_mem_nil, or_false, forall_eq_or_imp,
        forall_eq, false_imp_iff, implies_true, List.Pairwise.nil, and_true]
      decide +kernel
  have hkeys : cheapest.orderByKeys = [⟨"price", .asc⟩] := by decide +kernel
  exact topNMergeReduce_first plainRuntime hkeys (by decide) (by decide +kernel) hkind hanswers

end MinIODB.Coordinator
