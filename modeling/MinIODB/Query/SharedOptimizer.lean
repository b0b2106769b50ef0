import MinIODB.Query.Pruning
import MinIODB.Library.Slice
import MinIODB.Library.Transition

/-!
# Queries that share an optimizer

All queries of a querier use one optimizer. `ExtractTimeRange` leaves the time range in a
field, from which the pruning by time reads it again. `ExtractPredicates` hands out a slice
of an array that the next call empties and fills anew. So two queries that are optimized at
the same time can prune each other's files.
-/
namespace MinIODB.Query
open Slices Transition List

inductive OptimizePhase where
  | started
  | extracted (predicates : Slice)
  | ranged (predicates : Slice)
  | partitioned (predicates : Slice) (prunedByTime : List FileMetadata)
  | finished (selectedFiles : List FileMetadata)

structure OptimizeCall where
  sql : String
  files : List FileMetadata
  phase : OptimizePhase

structure QueryOptimizer where
  arrays : Arrays Predicate
  predicates : Slice
  timeRange : TimeRange
  calls : List OptimizeCall

inductive OptimizerAction where
  | call (sql : String) (files : List FileMetadata)
  | step (i : ℕ)

namespace QueryOptimizer

def new : QueryOptimizer := ⟨[⟨0, []⟩], ⟨0, 0⟩, ⟨none, none⟩, []⟩

variable (grow : ℕ → ℕ) (fmt : Formats) (o : QueryOptimizer)

def setPhase (i : ℕ) (c : OptimizeCall) (phase : OptimizePhase) : QueryOptimizer :=
  { o with calls := o.calls.set i { c with phase := phase } }

def extract (sql : String) : Arrays Predicate × Slice :=
  appendAll grow o.arrays o.predicates.reset (extractPredicates fmt sql)

def stepCall (i : ℕ) (c : OptimizeCall) : Option QueryOptimizer :=
  match c.phase with
  | .started =>
    some ({ o with
      arrays := (o.extract grow fmt c.sql).1
      predicates := (o.extract grow fmt c.sql).2 }.setPhase i c
        (.extracted (o.extract grow fmt c.sql).2))
  | .extracted predicates =>
    some ({ o with timeRange := extractTimeRange fmt c.sql }.setPhase i c (.ranged predicates))
  | .ranged predicates =>
    some (o.setPhase i c
      (.partitioned predicates (pruneFilesByTimePartition fmt o.timeRange c.files)))
  | .partitioned predicates prunedByTime =>
    some (o.setPhase i c (.finished (pruneFiles fmt prunedByTime (read o.arrays predicates))))
  | .finished _ => none

def step : OptimizerAction → Option QueryOptimizer
  | .call sql files => some { o with calls := o.calls ++ [⟨sql, files, .started⟩] }
  | .step i => o.calls[i]?.bind (fun c => o.stepCall grow fmt i c)

def selectedFiles (i : ℕ) : Option (List FileMetadata) :=
  o.calls[i]?.bind (fun c =>
    match c.phase with
    | .finished files => some files
    | _ => none)

end QueryOptimizer

def selectedAlone (grow : ℕ → ℕ) (fmt : Formats) (sql : String) (files : List FileMetadata) :
    Option (List FileMetadata) :=
  (exec (QueryOptimizer.step grow fmt) .new [.call sql files, .step 0, .step 0, .step 0, .step 0]).bind
    (fun o => o.selectedFiles 0)

section
variable (fmt : Formats)

def OptimizePhase.slice : OptimizePhase → Option Slice
  | .extracted predicates | .ranged predicates | .partitioned predicates _ => some predicates
  | _ => none

def LeavesOthers (o : QueryOptimizer) : OptimizerAction → Prop
  | .call _ _ => True
  | .step i => ∀ c, o.calls[i]? = some c → ∀ j d, j ≠ i → o.calls[j]? = some d →
      match c.phase with
      | .started => ∀ s, d.phase.slice = some s → s.array = o.predicates.array →
          Agree (extractPredicates fmt d.sql) 0 (extractPredicates fmt c.sql)
      | .extracted _ => ∀ s, d.phase = .ranged s → extractTimeRange fmt d.sql = extractTimeRange fmt c.sql
      | _ => True

def CallInv (o : QueryOptimizer) (c : OptimizeCall) : Prop :=
  (∀ s, c.phase.slice = some s → Valid o.arrays s ∧ read o.arrays s = extractPredicates fmt c.sql) ∧
    match c.phase with
    | .ranged _ => o.timeRange = extractTimeRange fmt c.sql
    | .partitioned _ files =>
      files = pruneFilesByTimePartition fmt (extractTimeRange fmt c.sql) c.files
    | .finished files => files = optimizeQuery fmt c.sql c.files
    | _ => True

structure OptimizerInv (o : QueryOptimizer) : Prop where
  predicates : Valid o.arrays o.predicates
  calls : ∀ c ∈ o.calls, CallInv fmt o c

variable {fmt} {grow : ℕ → ℕ} {o o' : QueryOptimizer}

variable {c : OptimizeCall} {i : ℕ}

lemma CallInv.keep (h : CallInv fmt o c)
    (hslice : ∀ s, c.phase.slice = some s → Valid o.arrays s →
      read o.arrays s = extractPredicates fmt c.sql →
      Valid o'.arrays s ∧ read o'.arrays s = extractPredicates fmt c.sql)
    (hrange : ∀ s, c.phase = .ranged s → o.timeRange = extractTimeRange fmt c.sql →
      o'.timeRange = extractTimeRange fmt c.sql) : CallInv fmt o' c := by
  refine ⟨fun s hs => hslice s hs (h.1 s hs).1 (h.1 s hs).2, ?_⟩
  have hphase := h.2
  cases hc : c.phase with
  | ranged s =>
    rw [hc] at hphase
    exact hrange s hc hphase
  | started | extracted => trivial
  | partitioned | finished =>
    rw [hc] at hphase
    exact hphase

lemma CallInv.same (h : CallInv fmt o c) (harrays : o'.arrays = o.arrays)
    (hrange : o'.timeRange = o.timeRange) : CallInv fmt o' c := by
  refine h.keep (fun s _ hvalid hread => ?_) (fun s _ heq => hrange.trans heq)
  rw [harrays]
  exact ⟨hvalid, hread⟩

lemma mem_set_cases {d : OptimizeCall} {calls : List OptimizeCall}
    (hd : d ∈ calls.set i c) : d = c ∨ ∃ j, j ≠ i ∧ calls[j]? = some d := by
  obtain ⟨j, hj⟩ := mem_iff_getElem?.mp hd
  rcases getElem?_set_cases hj with ⟨-, rfl⟩ | ⟨hne, hj⟩
  · exact .inl rfl
  · exact .inr ⟨j, Ne.symm hne, hj⟩

lemma extract_spec (sql : String) (h : Valid o.arrays o.predicates) :
    Valid (o.extract grow fmt sql).1 (o.extract grow fmt sql).2 ∧
      read (o.extract grow fmt sql).1 (o.extract grow fmt sql).2 = extractPredicates fmt sql := by
  obtain ⟨hvalid, hread⟩ := appendAll_spec (valid_reset h)
  exact ⟨hvalid, hread.trans (nil_append _)⟩

open QueryOptimizer

lemma OptimizerInv.stepCall (h : OptimizerInv fmt o)
    (hc : o.calls[i]? = some c) (hg : LeavesOthers fmt o (.step i))
    (hs : o.stepCall grow fmt i c = some o') : OptimizerInv fmt o' := by
  have hg := hg c hc
  have hown := h.calls c (mem_of_getElem? hc)
  unfold QueryOptimizer.stepCall at hs
  cases hphase : c.phase with
  | started =>
    rw [hphase] at hs hg
    cases hs
    obtain ⟨hvalid, hread⟩ := extract_spec c.sql h.predicates
    refine ⟨hvalid, fun d hd => ?_⟩
    rcases mem_set_cases hd with rfl | ⟨j, hj, hd⟩
    · refine ⟨fun s hs => ?_, trivial⟩
      cases hs
      exact ⟨hvalid, hread⟩
    · refine (h.calls d (mem_of_getElem? hd)).keep (fun s hs hvalid hread => ?_) (fun _ _ => id)
      obtain ⟨hvalid', hread'⟩ := appendAll_other (s := o.predicates.reset) hvalid (fun heq => by
        rw [hread]
        exact hg j d hj hd s hs heq)
      exact ⟨hvalid', hread'.trans hread⟩
  | extracted predicates =>
    rw [hphase] at hs hg
    cases hs
    refine ⟨h.predicates, fun d hd => ?_⟩
    rcases mem_set_cases hd with rfl | ⟨j, hj, hd⟩
    · refine ⟨fun s hs => ?_, rfl⟩
      cases hs
      exact hown.1 predicates (by rw [hphase]; rfl)
    · refine (h.calls d (mem_of_getElem? hd)).keep (fun _ _ hvalid hread => ⟨hvalid, hread⟩) ?_
      intro s hs _
      exact (hg j d hj hd s hs).symm
  | ranged predicates =>
    rw [hphase] at hs
    cases hs
    refine ⟨h.predicates, fun d hd => ?_⟩
    rcases mem_set_cases hd with rfl | ⟨j, hj, hd⟩
    · obtain ⟨hslice, hrange⟩ := hown
      rw [hphase] at hslice hrange
      exact ⟨hslice, by rw [← hrange]⟩
    · exact (h.calls d (mem_of_getElem? hd)).same rfl rfl
  | partitioned predicates =>
    rw [hphase] at hs
    cases hs
    refine ⟨h.predicates, fun d hd => ?_⟩
    rcases mem_set_cases hd with rfl | ⟨j, hj, hd⟩
    · obtain ⟨hslice, hpruned⟩ := hown
      rw [hphase] at hslice hpruned
      refine ⟨fun s hs => (by cases hs), ?_⟩
      rw [(hslice predicates rfl).2, hpruned]
      rfl
    · exact (h.calls d (mem_of_getElem? hd)).same rfl rfl
  | finished =>
    rw [hphase] at hs
    cases hs

lemma OptimizerInv.step (h : OptimizerInv fmt o) {a : OptimizerAction} (hg : LeavesOthers fmt o a)
    (hs : o.step grow fmt a = some o') : OptimizerInv fmt o' := by
  cases a with
  | call =>
    cases hs
    refine ⟨h.predicates, fun c hc => ?_⟩
    rcases mem_append.mp hc with hc | hc
    · exact (h.calls c hc).same rfl rfl
    · cases mem_singleton.mp hc
      exact ⟨fun s hs => (by cases hs), trivial⟩
  | step =>
    obtain ⟨c, hc, hs⟩ := Option.bind_eq_some_iff.mp hs
    exact h.stepCall hc hg hs

lemma selectedFiles_of_run {as : List OptimizerAction} {files : List FileMetadata}
    (hg : Guarded (step grow fmt) (LeavesOthers fmt) .new as)
    (hrun : exec (step grow fmt) .new as = some o) (hc : o.calls[i]? = some c)
    (hfiles : o.selectedFiles i = some files) : files = optimizeQuery fmt c.sql c.files := by
  have hinv := exec_invariant (OptimizerInv fmt) (fun _ _ _ h hg hs => h.step hg hs)
    (by exact ⟨⟨Nat.one_pos, le_rfl⟩, nofun⟩) hg hrun
  have hcall := (hinv.calls c (mem_of_getElem? hc)).2
  rw [selectedFiles, hc, Option.bind_some] at hfiles
  split at hfiles <;> cases hfiles
  · rename_i hphase
    rw [hphase] at hcall
    exact hcall

lemma selectedAlone_eq (sql : String) (files : List FileMetadata) :
    selectedAlone grow fmt sql files = some (optimizeQuery fmt sql files) := by
  have hread : read (extract grow fmt .new sql).1 (extract grow fmt .new sql).2 =
      extractPredicates fmt sql :=
    (extract_spec sql ⟨Nat.one_pos, le_rfl⟩).2
  have hselected : selectedAlone grow fmt sql files = some (pruneFiles fmt
      (pruneFilesByTimePartition fmt (extractTimeRange fmt sql) files)
      (read (extract grow fmt .new sql).1 (extract grow fmt .new sql).2)) := rfl
  rw [hselected, hread]
  rfl

/-- As long as no step of a query overwrites predicates or a time range that another one
still has to read, every query selects the files that it selects alone. -/
theorem concurrent_queries_select_alone {as : List OptimizerAction} {i : ℕ} {c : OptimizeCall}
    {files : List FileMetadata}
    (hg : Guarded (QueryOptimizer.step grow fmt) (LeavesOthers fmt) .new as)
    (hrun : exec (QueryOptimizer.step grow fmt) .new as = some o) (hc : o.calls[i]? = some c)
    (hfiles : o.selectedFiles i = some files) :
    selectedAlone grow fmt c.sql c.files = some files := by
  rw [selectedFiles_of_run hg hrun hc hfiles]
  exact selectedAlone_eq c.sql c.files

end

def leavesOthersCheck (fmt : Formats) (o : QueryOptimizer) : OptimizerAction → Bool
  | .call _ _ => true
  | .step i => o.calls[i]?.all (fun c => o.calls.all (fun d =>
      decide (extractPredicates fmt c.sql = [] ∨ extractPredicates fmt d.sql = [] ∨
        extractPredicates fmt d.sql = extractPredicates fmt c.sql) &&
        decide (extractTimeRange fmt d.sql = extractTimeRange fmt c.sql)))

lemma leavesOthers_of_check {fmt : Formats} (o : QueryOptimizer) (a : OptimizerAction)
    (h : leavesOthersCheck fmt o a) : LeavesOthers fmt o a := by
  cases a with
  | call => trivial
  | step =>
    intro c hc j d _ hd
    have hall := (Option.all_eq_true _ _).mp h c hc
    have hboth := all_eq_true.mp hall d (mem_of_getElem? hd)
    rw [Bool.and_eq_true, decide_eq_true_eq, decide_eq_true_eq] at hboth
    split
    · rintro - - - k x y hx hy
      rcases hboth.1 with hnone | hnone | hsame
      · rw [hnone] at hy
        cases hy
      · rw [hnone] at hx
        cases hx
      · rw [hsame, Nat.zero_add, hy] at hx
        exact (Option.some.inj hx).symm
    · exact fun _ _ => hboth.2
    · trivial

def dayFormats : Formats :=
  ⟨fun _ => none, fun _ => "9.5", fun _ value =>
    ["2024-01-01", "2024-06-01"].findIdx? (· == value) |>.map (fun month => month * 152 * nanosPerDay)⟩

def amountFile (path : String) (lo hi : ℤ) : FileMetadata :=
  ⟨path, fun c => if c = "amount" then some (.int lo) else none,
    fun c => if c = "amount" then some (.int hi) else none⟩

def twoFiles : List FileMetadata :=
  [amountFile "orders/u1/2024-01-01/1.parquet" 1 3, amountFile "orders/u2/2024-01-01/2.parquet" 5 9]

def double (n : ℕ) : ℕ := if n = 0 then 1 else 2 * n

def alternating (sql sql' : String) : List OptimizerAction :=
  [.call sql twoFiles, .call sql' twoFiles, .step 0, .step 1, .step 0, .step 1, .step 0, .step 1,
    .step 0, .step 1]

def selectedPaths (o : QueryOptimizer) : List (Option (List String)) :=
  [0, 1].map (fun i => (o.selectedFiles i).map (List.map FileMetadata.filePath))

theorem concurrent_queries_select_alone_alternating :
    (exec (QueryOptimizer.step double dayFormats) .new
        (alternating "SELECT * FROM orders WHERE amount = 5" "SELECT * FROM orders")).map selectedPaths =
      some [some ["orders/u2/2024-01-01/2.parquet"],
        some ["orders/u1/2024-01-01/1.parquet", "orders/u2/2024-01-01/2.parquet"]] ∧
    ∀ o, exec (QueryOptimizer.step double dayFormats) .new
        (alternating "SELECT * FROM orders WHERE amount = 5" "SELECT * FROM orders") = some o →
      ∀ c files, o.calls[0]? = some c → o.selectedFiles 0 = some files →
        selectedAlone double dayFormats c.sql c.files = some files := by
  have hcheck : Guarded (QueryOptimizer.step double dayFormats)
      (fun o a => leavesOthersCheck dayFormats o a = true) .new
      (alternating "SELECT * FROM orders WHERE amount = 5" "SELECT * FROM orders") := by decide +kernel
  refine ⟨by decide +kernel, fun o hrun c files hc hfiles => ?_⟩
  exact concurrent_queries_select_alone (hcheck.mono leavesOthers_of_check) hrun hc hfiles

/-- A query without a condition loses all its files to the time range of another query, and
a query for one amount gets the files of another amount. -/
theorem concurrent_query_prunes_other : (exec (QueryOptimizer.step double dayFormats) .new
        [.call "SELECT * FROM orders" twoFiles,
          .call "SELECT * FROM orders WHERE timestamp >= '2024-06-01'" twoFiles,
          .step 0, .step 0, .step 1, .step 1, .step 0, .step 0]).map selectedPaths =
      some [some [], none] ∧
    (selectedAlone double dayFormats "SELECT * FROM orders" twoFiles).map (List.map FileMetadata.filePath) =
      some ["orders/u1/2024-01-01/1.parquet", "orders/u2/2024-01-01/2.parquet"] ∧
    (exec (QueryOptimizer.step double dayFormats) .new
        (alternating "SELECT * FROM orders WHERE amount = 1" "SELECT * FROM orders WHERE amount = 5")).map
        selectedPaths =
      some [some ["orders/u2/2024-01-01/2.parquet"], some ["orders/u2/2024-01-01/2.parquet"]] ∧
    (selectedAlone double dayFormats "SELECT * FROM orders WHERE amount = 1" twoFiles).map
        (List.map FileMetadata.filePath) = some ["orders/u1/2024-01-01/1.parquet"] := by
  decide +kernel

end MinIODB.Query
