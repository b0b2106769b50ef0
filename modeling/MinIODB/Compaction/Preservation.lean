import MinIODB.Compaction.Indexed
import MinIODB.Compaction.Listed

/-!
# What compactions leave of a table

A node with compactions is compared with the same node without them: the deletes of a run are run
alone. With Redis nothing is to be seen of compactions that remove no object of the index. Without
Redis no row is lost, changed or left behind twice by compactions of rows that have no column but
those that a compaction writes, when every stat, upload and remove succeeds.
-/
namespace MinIODB.Compaction
open Service Buffer Query Transition List Option

variable {ν : Type*} {svc : ServiceConfig} {decode : Columns → Option Columns} {json : Json ν} {table : String}

def Undisturbed (redisPool : Bool) (json : Json ν) (table : String) (s : System ν) : Action → Prop
  | .step e => ∀ c, s.compaction = some c →
      if redisPool then KeepsIndexed table s.toDeletions c.job e c.phase
      else KeepsListed json table s.store c.job e c.phase
  | _ => True

instance (redisPool : Bool) (json : Json ν) (table : String) (s : System ν) :
    ∀ a, Decidable (Undisturbed redisPool json table s a)
  | .step e =>
    inferInstanceAs (Decidable (∀ c ∈ s.compaction,
      if redisPool then KeepsIndexed table s.toDeletions c.job e c.phase
      else KeepsListed json table s.store c.job e c.phase))
  | .service _ | .compact _ => isTrue trivial

section
variable {s s' : System ν} {d : Deletions}

structure Alongside (json : Json ν) (table : String) (s : System ν) (d : Deletions) : Prop where
  world : d.toWorld = withObjects s.toWorld d.store.objects
  deletes : d.deletes = s.deletes
  phases : ∀ c ∈ s.deletes, beforeIndex c.phase = true
  idle : Idle s.compaction = true → seen false table s.store = seen false table d.store
  progress : ∀ c, s.compaction = some c →
    c.job.Valid table ∧ Progress json table (seen false table d.store) s.store c

lemma Alongside.service {a : DeleteAction} (h : Alongside json table s d) (hredis : svc.redisPool = false)
    (hs : s.step svc decode json table (.service a) = some s') :
    ∃ d', d.step svc decode a = some d' ∧ Alongside json table s' d' := by
  obtain ⟨d₁, hd₁, rfl⟩ := map_eq_some_iff.mp hs
  cases a with
  | delete =>
    cases hd₁
    refine ⟨_, rfl, ⟨h.world, by rw [h.deletes], fun c hc => ?_, h.idle, h.progress⟩⟩
    rcases mem_append.mp hc with hc | hc
    · exact h.phases c hc
    · rw [mem_singleton.mp hc]
      rfl
  | step i =>
    obtain ⟨c, hc, hmap⟩ := bind_eq_some_iff.mp hd₁
    obtain ⟨⟨w', c'⟩, hstep, rfl⟩ := map_eq_some_iff.mp hmap
    have hphase := h.phases c (mem_of_getElem? hc)
    have huses : usesObject c.phase = false := by
      cases hp : c.phase <;> rw [hp] at hphase <;> first | rfl | cases hphase
    obtain ⟨hstore, hphase'⟩ := store_of_beforeIndex (DeleteStep.of_step hstep) hredis hphase
    have hsame : (withObjects w' d.store.objects).store = d.store := by
      have hworld := congrArg World.store h.world
      rw [withObjects, hstore]
      exact hworld.symm
    refine ⟨⟨withObjects w' d.store.objects, s.deletes.set i c'⟩, ?_, ?_⟩
    · rw [Deletions.step, h.deletes, hc, bind_some, h.world,
        step_withObjects_of_not_usesObject huses, hstep, map_some, map_some]
      rfl
    · refine ⟨rfl, rfl, fun c₁ hc₁ => ?_, ?_, ?_⟩
      · rcases mem_or_eq_of_mem_set hc₁ with hc₁ | rfl
        · exact h.phases c₁ hc₁
        · exact hphase'
      · rw [hsame, hstore]
        exact h.idle
      · rw [hsame, hstore]
        exact h.progress

section
variable (h : Alongside json table s d)
include h

lemma Alongside.compact {job : Job} (hs : s.step svc decode json table (.compact job) = some s') : Alongside json table s' d := by
  obtain ⟨⟨hidle, hvalid⟩, rfl⟩ := ite_some_none_eq_some.mp hs
  refine ⟨h.world, h.deletes, h.phases, fun _ => h.idle hidle, ?_⟩
  rintro c ⟨⟩
  exact ⟨hvalid, h.idle hidle, [], rfl, ReadFrom.nil⟩

lemma Alongside.callStep {e : StepTime} (hkeeps : ∀ c, s.compaction = some c → KeepsListed json table s.store c.job e c.phase)
    (hs : s.step svc decode json table (.step e) = some s') : Alongside json table s' d := by
  obtain ⟨c, hc, hs⟩ := bind_eq_some_iff.mp hs
  obtain ⟨⟨objects, phase⟩, hstep, rfl⟩ := map_eq_some_iff.mp hs
  obtain ⟨hvalid, hprogress⟩ := h.progress c hc
  have hnext := hprogress.step hvalid (hkeeps c hc) (CallStep.of_step hstep)
  refine ⟨h.world, h.deletes, h.phases, fun hidle => ?_, ?_⟩
  · cases hphase : phase with
    | returned =>
      rw [hphase] at hnext
      exact hnext
    | _ =>
      rw [hphase] at hidle
      cases hidle
  · rintro c' ⟨⟩
    exact ⟨hvalid, hnext⟩

lemma Alongside.preserved : Preserved false table s d := by
  cases hc : s.compaction with
  | none =>
    have hseen := h.idle (by rw [hc]; rfl)
    exact ⟨hseen.ge, fun r hr => hseen ▸ hr, fun _ => hseen⟩
  | some c =>
    have hprogress := (h.progress c hc).2
    exact ⟨hprogress.kept, fun r hr => hprogress.known hr, h.idle⟩

end

end

section
variable {s s' : System ν} {acts : List Action}

lemma preserved_of_redis (hredis : svc.redisPool)
    (hguard : Guarded (System.step svc decode json table) (Undisturbed svc.redisPool json table) s acts)
    (hrun : exec (System.step svc decode json table) s acts = some s') :
    ∃ d, exec (Deletions.step svc decode) s.toDeletions (acts.filterMap Action.part) = some d ∧
      Preserved true table s' d := by
  have hsimulation : ∃ d, exec (Deletions.step svc decode) s.toDeletions (acts.filterMap Action.part) = some d ∧
      Agrees s'.toDeletions d := by
    refine exec_filterMap (Deletions.step svc decode) Action.part (fun s d => Agrees s.toDeletions d) ?_ ?_
      (Agrees.refl s.toDeletions) hguard hrun
    · rintro s a b s' d hpart hagrees - hs
      cases a with
      | service =>
        cases hpart
        obtain ⟨d₁, hd₁, rfl⟩ := map_eq_some_iff.mp hs
        exact hagrees.step hd₁
      | _ => cases hpart
    · rintro s a s' d hpart hagrees hguard hs
      cases a with
      | service => cases hpart
      | compact =>
        obtain ⟨-, rfl⟩ := ite_some_none_eq_some.mp hs
        exact hagrees
      | step =>
        obtain ⟨c, hc, hs⟩ := bind_eq_some_iff.mp hs
        obtain ⟨⟨objects, phase⟩, hstep, rfl⟩ := map_eq_some_iff.mp hs
        have hkeeps := hguard c hc
        rw [hredis, if_pos rfl] at hkeeps
        exact hagrees.callStep hkeeps (CallStep.of_step hstep)
  obtain ⟨d, hd, hagrees⟩ := hsimulation
  have hseen := hagrees.seen_eq table
  exact ⟨d, hd, hseen.le, fun r hr => hseen ▸ hr, fun _ => hseen.symm⟩

lemma preserved_of_standalone (hredis : svc.redisPool = false) (hdeletes : s.deletes = [])
    (hcompaction : s.compaction = none)
    (hguard : Guarded (System.step svc decode json table) (Undisturbed svc.redisPool json table) s acts)
    (hrun : exec (System.step svc decode json table) s acts = some s') :
    ∃ d, exec (Deletions.step svc decode) s.toDeletions (acts.filterMap Action.part) = some d ∧
      Preserved false table s' d := by
  have hstart : Alongside json table s s.toDeletions :=
    { world := rfl
      deletes := rfl
      phases := by rw [hdeletes]; simp
      idle := fun _ => rfl
      progress := by rw [hcompaction]; rintro _ ⟨⟩ }
  have hsimulation : ∃ d, exec (Deletions.step svc decode) s.toDeletions (acts.filterMap Action.part) = some d ∧
      Alongside json table s' d := by
    refine exec_filterMap (Deletions.step svc decode) Action.part (Alongside json table) ?_ ?_ hstart hguard hrun
    · rintro s a b s' d hpart halongside - hs
      cases a with
      | service =>
        cases hpart
        exact halongside.service hredis hs
      | _ => cases hpart
    · rintro s a s' d hpart halongside hguard hs
      cases a with
      | service => cases hpart
      | compact => exact halongside.compact hs
      | step =>
        refine halongside.callStep (fun c hc => ?_) hs
        have hkeeps := hguard c hc
        rwa [hredis, if_neg Bool.false_ne_true] at hkeeps
  obtain ⟨d, hd, halongside⟩ := hsimulation
  exact ⟨d, hd, halongside.preserved⟩

/-- In every state of a run whose steps all meet the condition, the deletes alone can be run to a
state in which queries see what they see in this one. -/
theorem compaction_preserves_table (hdeletes : s.deletes = []) (hcompaction : s.compaction = none)
    (hguard : Guarded (System.step svc decode json table) (Undisturbed svc.redisPool json table) s acts)
    (hrun : exec (System.step svc decode json table) s acts = some s') :
    ∃ d, exec (Deletions.step svc decode) s.toDeletions (acts.filterMap Action.part) = some d ∧
      Preserved svc.redisPool table s' d := by
  cases hredis : svc.redisPool with
  | true => exact preserved_of_redis hredis hguard hrun
  | false => exact preserved_of_standalone hredis hdeletes hcompaction hguard hrun

end

def truthValues : Json Bool where
  unmarshal text := if text = "true" then some (.json true) else if text = "false" then some (.json false) else none
  marshal
    | .json b => some (toString b)
    | _ => none
  marshalRecord record :=
    match record "id", record "table" with
    | some (.text id), some (.text table) =>
      some ("\x7b\"id\":\"" ++ id ++ "\",\"table\":\"" ++ table ++ "\",\"timestamp\":0\x7d")
    | _, _ => none

def orderFields : Columns :=
  (((∅ : Columns).insert "amount" (.int64 5)).insert "payload" (.text "pen")).insert "table" (.text "orders")

def flushedOrder (id : String) : StoredRow Columns := ⟨some id, 0, flushColumns "orders" orderFields, 0⟩

def compactedOrder (id payload : String) : StoredRow Columns := writtenRow ⟨id, 0, payload, "orders"⟩

def firstFile : String := "orders/a/2024-01-01/1.parquet"

def secondFile : String := "orders/b/2024-01-01/2.parquet"

def twoFiles (redisPool : Bool) (first second : List (StoredRow Columns)) : System Bool where
  buffer := State.boot (shop redisPool).buffer Directory.empty 1
  store :=
    { objects := (AList.singleton secondFile second).insert firstFile first
      index := [(indexKey "orders" "a" "2024-01-01", firstFile), (indexKey "orders" "b" "2024-01-01", secondFile)]
      tempDir := ∅
      fileCache := ∅
      rewrites := ∅ }
  deletes := []
  compaction := none

def callSteps (outcomes : List Bool) : List Action := outcomes.map (fun ok => .step ⟨ok, 7, fun _ => 7⟩)

def compactBoth (outcomes : List Bool) : List Action :=
  .compact ⟨"", 1000000, [firstFile, secondFile]⟩ :: callSteps outcomes

def deleteFirst : List Action :=
  .service (.delete "orders" "a") ::
    ([none, none, none, none, some firstFile] ++ List.replicate 11 none).map
      (fun next => .service (.step 0 (StepEnv.allOk next)))

def orders (redisPool : Bool) : System Bool → Action → Option (System Bool) :=
  System.step (shop redisPool) some truthValues "orders"

def seenAfter (redisPool : Bool) (start : System Bool) (acts : List Action) : Option (Multiset Content) :=
  (exec (orders redisPool) start acts).map (fun s => seen redisPool "orders" s.store)

def flushedFiles (redisPool : Bool) : System Bool := twoFiles redisPool [flushedOrder "a"] [flushedOrder "b"]

def compactedFiles : System Bool := twoFiles false [compactedOrder "a" "pen"] [compactedOrder "b" "true"]

def deletingRun : List Action :=
  compactBoth (List.replicate 5 true) ++ deleteFirst ++ callSteps [true, true, true, true, false, false, true]

/-- Files of earlier compactions are merged without Redis, and the run with a delete is one of a
node with Redis. -/
theorem compaction_preserves_table_orders :
    (seenAfter false compactedFiles (compactBoth (List.replicate 12 true)) =
      some {content (compactedOrder "a" "pen"), content (compactedOrder "b" "true")} ∧
    ∀ s', exec (orders false) compactedFiles (compactBoth (List.replicate 12 true)) = some s' →
      ∃ d, exec (Deletions.step (shop false) some) compactedFiles.toDeletions
          ((compactBoth (List.replicate 12 true)).filterMap Action.part) = some d ∧
        Preserved (shop false).redisPool "orders" s' d) ∧
    (seenAfter true (flushedFiles true) deletingRun = some {content (flushedOrder "b")} ∧
    ∀ s', exec (orders true) (flushedFiles true) deletingRun = some s' →
      ∃ d, exec (Deletions.step (shop true) some) (flushedFiles true).toDeletions
          (deletingRun.filterMap Action.part) = some d ∧
        Preserved (shop true).redisPool "orders" s' d) := by
  have hmerge : Guarded (orders false) (Undisturbed (shop false).redisPool truthValues "orders") compactedFiles
      (compactBoth (replicate 12 true)) := by decide +kernel
  have hdelete : Guarded (orders true) (Undisturbed (shop true).redisPool truthValues "orders") (flushedFiles true)
      deletingRun := by decide +kernel
  refine ⟨⟨by decide +kernel, fun s' hrun => ?_⟩, by decide +kernel, fun s' hrun => ?_⟩
  · exact compaction_preserves_table rfl rfl hmerge hrun
  · exact compaction_preserves_table rfl rfl hdelete hrun

/-- With Redis flushed rows are gone after a compaction in which every call succeeds. Without
Redis they have lost a column. Rows of earlier compactions are seen twice after failed removes,
and are gone after a failed stat. -/
theorem compaction_loses_rows : seenAfter true (flushedFiles true) [] =
      some {content (flushedOrder "a"), content (flushedOrder "b")} ∧
    seenAfter true (flushedFiles true) (compactBoth (List.replicate 12 true)) = some 0 ∧
    (seenAfter false (flushedFiles false) (compactBoth (List.replicate 12 true))).map
        (Multiset.map (fun r => (r.1, r.2.2.lookup "amount"))) =
      some {(some "a", none), (some "b", none)} ∧
    seenAfter false compactedFiles (compactBoth (List.replicate 9 true ++ [false, false, true])) =
      some {content (compactedOrder "a" "pen"), content (compactedOrder "b" "true"),
        content (compactedOrder "a" "pen"), content (compactedOrder "b" "true")} ∧
    seenAfter false compactedFiles (compactBoth (List.replicate 6 true ++ [false] ++ List.replicate 4 true)) =
      some 0 := by
  refine ⟨?_, ?_, ?_, ?_, ?_⟩ <;> decide +kernel

end MinIODB.Compaction
