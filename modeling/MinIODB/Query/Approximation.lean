import MinIODB.Library.Joins

/-!
# Approximate distinct counts and frequencies

A HyperLogLog sketch is the join of the sketches of its items, and the join forgets order and
repetitions. A cell of a Count-Min sketch is the sum of the counts hashed to it, modulo `2 ^ 32`.
-/

namespace MinIODB.Query
open List Joins

def defaultPrecision : ℕ := 12

/-- The registers; those from `2 ^ precision` on are never written. -/
@[ext] structure HyperLogLog (precision : ℕ) where
  registers : UInt32 → ℕ

def sketchPrecision (precision : ℕ) : ℕ :=
  if precision < 4 ∨ 16 < precision then defaultPrecision else precision

def newHyperLogLog (precision : ℕ) : HyperLogLog (sketchPrecision precision) := ⟨fun _ => 0⟩

namespace HyperLogLog
variable {precision p : ℕ}

def hash (item : String) : UInt32 :=
  let prime32 := 16777619
  let hash := item.toList.foldl (fun hash c => (hash * prime32) ^^^ c.val) 2166136261
  let hash := (hash ^^^ (hash >>> 16)) * prime32
  let hash := (hash ^^^ (hash >>> 13)) * prime32
  hash ^^^ (hash >>> 16)

/-- The loop of `Add`, with the number of turns that `rho < 32 - precision` still allows. -/
def rank (w : UInt32) (rho : ℕ) : ℕ → ℕ
  | 0 => rho
  | turns + 1 => if w &&& 1 = 0 then rank (w >>> 1) (rho + 1) turns else rho

def add (hll : HyperLogLog precision) (item : String) : HyperLogLog precision :=
  if item = "" then hll
  else
    let hash := hash item
    let idx := hash &&& ((1 <<< UInt32.ofNat precision) - 1)
    let rho := rank (hash >>> UInt32.ofNat precision) 1 (31 - precision)
    if hll.registers idx < rho then ⟨Function.update hll.registers idx rho⟩ else hll

def merge (hll : HyperLogLog precision) (other : HyperLogLog p) : HyperLogLog precision :=
  if precision ≠ p then hll
  else ⟨fun i => if hll.registers i < other.registers i then other.registers i else hll.registers i⟩

def copy (hll : HyperLogLog precision) : HyperLogLog precision := ⟨hll.registers⟩

lemma registers_merge (hll other : HyperLogLog precision) :
    (hll.merge other).registers = hll.registers ⊔ other.registers := by
  ext i
  simp only [merge, ne_eq, not_true_eq_false, if_false, Pi.sup_apply]
  split <;> omega

/-- What one item alone leaves in the registers. -/
def single (precision : ℕ) (item : String) : UInt32 → ℕ :=
  (add (⟨⊥⟩ : HyperLogLog precision) item).registers

lemma registers_add (hll : HyperLogLog precision) (item : String) :
    (hll.add item).registers = hll.registers ⊔ single precision item := by
  simp only [single, add]
  split
  · exact (sup_bot_eq _).symm
  · -- an empty register is below every rank
    generalize hash item &&& _ = idx, rank _ _ _ = rho
    ext i
    rcases eq_or_ne i idx with rfl | hi
    · split <;> split <;> simp_all
      omega
    · split <;> split <;> simp [hi]

lemma rank_le (w : UInt32) (rho turns : ℕ) : rank w rho turns ≤ rho + turns := by
  induction turns generalizing w rho with
  | zero => exact le_rfl
  | succ turns ih =>
    rw [rank]
    split
    · exact (ih _ _).trans (by omega)
    · omega

lemma single_le (hp : precision < 32) (item : String) :
    single precision item ≤ fun _ => 32 - precision := by
  have hrank (w : UInt32) : rank w 1 (31 - precision) ≤ 32 - precision :=
    (rank_le _ _ _).trans (by omega)
  simp only [single, add]
  split
  · exact bot_le
  · split
    · exact update_le_iff.mpr ⟨hrank _, fun _ _ => Nat.zero_le _⟩
    · exact bot_le

end HyperLogLog

structure CountMinSketchConfig where
  width : ℕ
  depth : ℕ
  seed : UInt32

structure CountMinSketch where
  config : CountMinSketchConfig
  matrix : ℕ → ℕ → ℕ

def newCountMinSketch (config : CountMinSketchConfig) : CountMinSketch := ⟨config, fun _ _ => 0⟩

def CountMinSketchConfig.hashFuncs (config : CountMinSketchConfig) (i : ℕ) (item : String) : ℕ :=
  (item.toList.foldl (fun hash c => hash * 31 + c.val)
    (config.seed + UInt32.ofNat i)).toNat % config.width

namespace CountMinSketch

def add (cms : CountMinSketch) (item : String) (count : ℕ) : CountMinSketch :=
  if item = "" ∨ count = 0 then cms
  else
    { cms with
      matrix := fun i j =>
        if i < cms.config.depth ∧ cms.config.hashFuncs i item = j then
          (cms.matrix i j + count) % 2 ^ 32
        else cms.matrix i j }

def count (cms : CountMinSketch) (item : String) : ℕ :=
  if item = "" then 0
  else
    (range cms.config.depth).foldl (fun minCount i =>
      let cell := cms.matrix i (cms.config.hashFuncs i item)
      if cell < minCount then cell else minCount) (2 ^ 32 - 1)

def merge (cms other : CountMinSketch) : CountMinSketch :=
  if cms.config.width ≠ other.config.width ∨ cms.config.depth ≠ other.config.depth then cms
  else { cms with matrix := fun i j => (cms.matrix i j + other.matrix i j) % 2 ^ 32 }

/-- The sketches of one configuration, with the calls that reached them directly or by a merge. -/
inductive Built (config : CountMinSketchConfig) : List (String × ℕ) → CountMinSketch → Prop
  | new : Built config [] (newCountMinSketch config)
  | add {calls cms} (item count) : Built config calls cms →
      Built config ((item, count) :: calls) (cms.add item count)
  | merge {calls calls' cms cms'} : Built config calls cms → Built config calls' cms' →
      Built config (calls ++ calls') (cms.merge cms')

variable {config : CountMinSketchConfig} (calls : List (String × ℕ)) {cms : CountMinSketch}
  {p q : String → Bool}

def total (p : String → Bool) : ℕ := ((calls.filter (fun call => p call.1)).map Prod.snd).sum

lemma total_cons (call : String × ℕ) : total (call :: calls) p = (if p call.1 then call.2 else 0) + total calls p := by
  rw [total, filter_cons]
  split <;> simp [total]

lemma total_mono (h : ∀ item, p item → q item) : total calls p ≤ total calls q :=
  ((monotone_filter_right calls fun call => h call.1).map Prod.snd).sum_le_sum
    fun _ _ => Nat.zero_le _

/-- The items whose counts a cell collects. -/
def cell (config : CountMinSketchConfig) (i j : ℕ) (item : String) : Bool :=
  item ≠ "" ∧ config.hashFuncs i item = j

variable {calls}

lemma Built.matrix_eq (h : Built config calls cms) : cms.config = config ∧
    ∀ i < config.depth, ∀ j, cms.matrix i j = total calls (cell config i j) % 2 ^ 32 := by
  induction h with
  | new => exact ⟨rfl, fun _ _ _ => rfl⟩
  | add item count _ ih =>
    obtain ⟨hconfig, ih⟩ := ih
    rw [CountMinSketch.add]
    split <;> refine ⟨hconfig, fun i hi j => ?_⟩
    next h =>
      rw [ih i hi j, total_cons]
      rcases h with rfl | rfl <;> simp [cell]
    next h =>
      obtain ⟨hitem, -⟩ := not_or.mp h
      by_cases hj : config.hashFuncs i item = j <;>
        simp [total_cons, cell, hconfig, hitem, hi, hj, ih i hi j, Nat.add_comm]
  | merge _ _ ih ih' =>
    obtain ⟨rfl, ih⟩ := ih
    obtain ⟨hconfig, ih'⟩ := ih'
    refine ⟨by simp [CountMinSketch.merge, hconfig], fun i hi j => ?_⟩
    simp only [CountMinSketch.merge, hconfig, ne_eq, not_true_eq_false, or_self, if_false]
    rw [ih i hi j, ih' i hi j, ← Nat.add_mod]
    simp [total]

lemma le_foldl_iff {f : ℕ → ℕ} {b : ℕ} (xs : List ℕ) (a : ℕ) :
    b ≤ xs.foldl (fun a i => if f i < a then f i else a) a ↔ b ≤ a ∧ ∀ i ∈ xs, b ≤ f i := by
  induction xs generalizing a with
  | nil => simp
  | cons x xs ih =>
    rw [foldl_cons, ih, forall_mem_cons, ← and_assoc]
    refine and_congr_left' ?_
    split <;> omega

lemma Built.le_count_iff (h : Built config calls cms) {item : String} (hitem : item ≠ "") {b : ℕ} :
    b ≤ cms.count item ↔ b ≤ 2 ^ 32 - 1 ∧ ∀ i < config.depth,
      b ≤ total calls (cell config i (config.hashFuncs i item)) % 2 ^ 32 := by
  obtain ⟨rfl, hmatrix⟩ := h.matrix_eq
  rw [count, if_neg hitem, le_foldl_iff]
  simp only [mem_range]
  exact and_congr_right' (forall₂_congr fun i hi => by rw [hmatrix i hi])

/-- The count lies between the total of the item and that of all calls, and it depends on the calls
only, not on how they were spread over sketches. -/
theorem count_never_underestimates (h : Built config calls cms) (hdepth : 1 ≤ config.depth)
    (hsum : total calls (fun _ => true) < 2 ^ 32) {item : String} (hitem : item ≠ "") :
    total calls (fun x => x = item) ≤ cms.count item ∧
      cms.count item ≤ total calls (fun _ => true) ∧
      ∀ calls' cms', calls.Perm calls' → Built config calls' cms' →
        cms.count item = cms'.count item := by
  have hall (p : String → Bool) : total calls p ≤ total calls (fun _ => true) :=
    total_mono calls (fun _ _ => rfl)
  have hmod (i j : ℕ) : total calls (cell config i j) % 2 ^ 32 = total calls (cell config i j) :=
    Nat.mod_eq_of_lt ((hall _).trans_lt hsum)
  refine ⟨(h.le_count_iff hitem).mpr ⟨?_, fun i _ => ?_⟩, ?_, fun calls' cms' hperm h' => ?_⟩
  · exact (hall _).trans (Nat.le_pred_of_lt hsum)
  · rw [hmod]
    exact total_mono calls (fun x hx => by simp_all [cell])
  · have hrow := ((h.le_count_iff hitem).mp le_rfl).2 0 hdepth
    rw [hmod] at hrow
    exact hrow.trans (hall _)
  · have htotal (p : String → Bool) : total calls p = total calls' p :=
      ((hperm.filter _).map _).sum_eq
    refine eq_of_forall_le_iff fun b => ?_
    rw [h.le_count_iff hitem, h'.le_count_iff hitem]
    simp only [htotal]

theorem count_never_underestimates_two :
    2 ≤ (((newCountMinSketch ⟨8, 2, 42⟩).add "a" 2).merge (newCountMinSketch ⟨8, 2, 42⟩)).count "a" :=
  (count_never_underestimates (.merge (.add "a" 2 .new) .new) (by decide) (by decide)
    (by decide : "a" ≠ "")).1

end CountMinSketch

/-! ## The engine -/

structure ApproximateQueryEngine where
  hllMap : String → Option (HyperLogLog defaultPrecision)
  cmsMap : String → Option CountMinSketch

def newApproximateQueryEngine : ApproximateQueryEngine := ⟨fun _ => none, fun _ => none⟩

/-- One map of `Merge`: a sketch the other map has alone is taken over by `fresh`. -/
def mergeMap {α : Type} (merge : α → α → α) (fresh : α → α) (mine other : String → Option α) :
    String → Option α :=
  fun key => (other key).elim (mine key) fun theirs =>
    some ((mine key).elim (fresh theirs) fun sketch => merge sketch theirs)

namespace ApproximateQueryEngine

def getHLLKey (table column : String) : String := table ++ ":" ++ column

def addDistinctValue (aqe : ApproximateQueryEngine) (table column value : String) :
    ApproximateQueryEngine :=
  if table = "" ∨ column = "" ∨ value = "" then aqe
  else
    let key := getHLLKey table column
    let hll := (aqe.hllMap key).getD (newHyperLogLog defaultPrecision)
    { aqe with hllMap := Function.update aqe.hllMap key (some (hll.add value)) }

def merge (aqe other : ApproximateQueryEngine) : ApproximateQueryEngine :=
  ⟨mergeMap .merge .copy aqe.hllMap other.hllMap,
    mergeMap .merge (newCountMinSketch ⟨1000, 5, 42⟩).merge aqe.cmsMap other.cmsMap⟩

/-- The registers under a key; the bottom is a key without a sketch. -/
def registersAt (key : String) (aqe : ApproximateQueryEngine) : WithBot (UInt32 → ℕ) :=
  (aqe.hllMap key).map HyperLogLog.registers

/-- A call of `AddDistinctValue` with its table, column and value. -/
def addCall (aqe : ApproximateQueryEngine) (call : String × String × String) :=
  aqe.addDistinctValue call.1 call.2.1 call.2.2

variable (key : String) (aqe : ApproximateQueryEngine)

open HyperLogLog

lemma registersAt_merge (other : ApproximateQueryEngine) :
    registersAt key (aqe.merge other) = registersAt key aqe ⊔ registersAt key other := by
  simp only [registersAt, merge, mergeMap]
  cases aqe.hllMap key <;> cases other.hllMap key
  case some.some => exact congrArg some (registers_merge _ _)
  all_goals rfl

lemma registersAt_addCall (call : String × String × String) : registersAt key (aqe.addCall call) =
      registersAt key aqe ⊔ registersAt key (newApproximateQueryEngine.addCall call) := by
  simp only [addCall, addDistinctValue]
  split
  · exact (sup_bot_eq _).symm
  · by_cases hkey : key = getHLLKey call.1 call.2.1
    · subst hkey
      simp only [registersAt, Function.update_self]
      cases aqe.hllMap (getHLLKey call.1 call.2.1)
      · rfl
      · exact congrArg some (registers_add _ _)
    · simp only [registersAt, Function.update_of_ne hkey]
      exact (sup_bot_eq _).symm

/-- The sketches of two lists of items merge to the sketch of any list of the same items. -/
theorem hyperLogLog_merge_exact (config : ℕ) (xs ys zs : List String)
    (h : ∀ x, x ∈ zs ↔ x ∈ xs ∨ x ∈ ys) : let sketch := foldl HyperLogLog.add (newHyperLogLog config)
    (sketch xs).merge (sketch ys) = sketch zs ∧
      (∀ s t u : HyperLogLog (sketchPrecision config), s.merge t = t.merge s ∧
        (s.merge t).merge u = s.merge (t.merge u) ∧ s.merge s.copy = s ∧
        ∀ item, s.registers ≤ (s.add item).registers) ∧
      (∀ i, (sketch zs).registers i ≤ 32 - sketchPrecision config) ∧
      ∀ as bs cs : List (String × String × String), (∀ x, x ∈ cs ↔ x ∈ as ∨ x ∈ bs) →
        let engine := foldl addCall newApproximateQueryEngine
        ∀ table column, let key := getHLLKey table column
          ((engine as).merge (engine bs)).registersAt key = (engine cs).registersAt key := by
  refine ⟨HyperLogLog.ext ?_, fun s t u => ⟨HyperLogLog.ext ?_, HyperLogLog.ext ?_, HyperLogLog.ext ?_,
    fun item => ?_⟩, ?_, fun as bs cs hcs table column => ?_⟩
  · exact view_merge_foldl HyperLogLog.registers_add HyperLogLog.registers_merge rfl h
  · simp only [HyperLogLog.registers_merge, sup_comm]
  · simp only [HyperLogLog.registers_merge, sup_assoc]
  · exact (HyperLogLog.registers_merge s s.copy).trans (sup_idem _)
  · exact le_sup_left.trans_eq (HyperLogLog.registers_add s item).symm
  · have hp : sketchPrecision config < 32 := by
      rw [sketchPrecision]
      split <;> first | decide | omega
    rw [view_foldl registers_add]
    exact sup_le (fun _ => Nat.zero_le _) (Finset.sup_le fun item _ => single_le hp item)
  · exact view_merge_foldl (registersAt_addCall _)
      (registersAt_merge _) rfl hcs

theorem hyperLogLog_merge_exact_pair :
    ((newHyperLogLog 14).add "a").merge (((newHyperLogLog 14).add "b").add "a") =
      ((newHyperLogLog 14).add "a").add "b" :=
  (hyperLogLog_merge_exact 14 ["a"] ["b", "a"] ["a", "b"] (by simp; tauto)).1

end ApproximateQueryEngine
end MinIODB.Query
