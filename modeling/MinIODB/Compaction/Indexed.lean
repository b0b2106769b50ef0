import MinIODB.Compaction.Steps

/-!
# Compactions next to the Redis index

With Redis, queries and `DeleteData` calls find objects through the index only. Objects that a
compaction uploads are not entered there, and nobody sees them. As long as no object is removed
that the index names, the node behaves as if there were no compactions.
-/
namespace MinIODB.Compaction
open Service Buffer Query List Option

def Referenced (d : Deletions) (name : String) : Prop :=
  indexed d.store name ∨ ∃ c ∈ d.deletes, holds c name

instance (d : Deletions) (name : String) : Decidable (Referenced d name) :=
  decidable_of_iff (name ∈ d.store.index.map Prod.snd ∨
    ∃ c ∈ d.deletes, name ∈ c.objects ∨ c.phase.file = some name)
    (or_congr_left (by simp [indexed]))

def KeepsIndexed {ν : Type*} (table : String) (d : Deletions) (job : Job) (e : StepTime) : Phase ν → Prop
  | .uploading output _ => e.ok = true → ¬ Referenced d (uploadName table job e.now output.1)
  | .removing (name :: _) => e.ok = true → ¬ Referenced d name
  | _ => True

instance {ν : Type*} (table : String) (d : Deletions) (job : Job) (e : StepTime) :
    ∀ phase : Phase ν, Decidable (KeepsIndexed table d job e phase)
  | .uploading output _ =>
    inferInstanceAs (Decidable (e.ok = true → ¬ Referenced d (uploadName table job e.now output.1)))
  | .removing (name :: _) => inferInstanceAs (Decidable (e.ok = true → ¬ Referenced d name))
  | .removing [] | .downloading _ _ | .reading _ _ _ _ | .writing _ | .statting _ | .returned _ => isTrue trivial

structure Agrees (s d : Deletions) : Prop where
  world : d.toWorld = withObjects s.toWorld d.store.objects
  deletes : d.deletes = s.deletes
  objects : ∀ name, Referenced s name → s.store.objects.lookup name = d.store.objects.lookup name

lemma Agrees.refl (d : Deletions) : Agrees d d := ⟨rfl, rfl, fun _ _ => rfl⟩

variable {ν : Type*} {svc : ServiceConfig} {decode : Columns → Option Columns} {json : Json ν} {table : String}
  {s s' d : Deletions}

lemma referenced_of_deleteStep {i : ℕ} {e : StepEnv} {c c' : DeleteCall Columns} {w' : World Columns}
    (hc : s.deletes[i]? = some c) (hs : DeleteStep svc decode e s.toWorld c w' c') {name : String}
    (h : Referenced ⟨w', s.deletes.set i c'⟩ name) : Referenced s name := by
  rcases h with ⟨key, hkey⟩ | ⟨c₁, hc₁, hholds⟩
  · exact .inl ⟨key, index_of_deleteStep hs hkey⟩
  · rcases mem_or_eq_of_mem_set hc₁ with hc₁ | rfl
    · exact .inr ⟨c₁, hc₁, hholds⟩
    · rcases holds_of_deleteStep hs hholds with hholds | hindexed
      · exact .inr ⟨c, mem_of_getElem? hc, hholds⟩
      · exact .inl hindexed

lemma Agrees.step {a : DeleteAction} (h : Agrees s d) (hs : s.step svc decode a = some s') :
    ∃ d', d.step svc decode a = some d' ∧ Agrees s' d' := by
  cases a with
  | delete =>
    cases hs
    refine ⟨_, rfl, ⟨h.world, by rw [h.deletes], fun name href => h.objects name ?_⟩⟩
    rcases href with hindexed | ⟨c, hc, hholds⟩
    · exact .inl hindexed
    · rcases mem_append.mp hc with hc | hc
      · exact .inr ⟨c, hc, hholds⟩
      · rw [mem_singleton.mp hc] at hholds
        rcases hholds with hholds | hholds <;> cases hholds
  | step i =>
    obtain ⟨c, hc, hs⟩ := bind_eq_some_iff.mp hs
    obtain ⟨⟨w', c'⟩, hstep, rfl⟩ := map_eq_some_iff.mp hs
    have hfile : ∀ name, c.phase.file = some name → Referenced s name :=
      fun name hname => .inr ⟨c, mem_of_getElem? hc, .inr hname⟩
    obtain ⟨objects', hstep', hobjects⟩ := step_withObjects h.objects hfile hstep
    refine ⟨⟨withObjects w' objects', s.deletes.set i c'⟩, ?_, ⟨rfl, rfl, fun name href => ?_⟩⟩
    · rw [Deletions.step, h.deletes, hc, bind_some, h.world, hstep', map_some]
    · exact hobjects name (referenced_of_deleteStep hc (DeleteStep.of_step hstep) href)

lemma Agrees.callStep {e : StepTime} {c : Call ν} {objects : Files Columns} {phase : Phase ν} (h : Agrees s d)
    (hkeeps : KeepsIndexed table s c.job e c.phase) (hs : CallStep json table e s.store.objects c objects phase) :
    Agrees ⟨withObjects s.toWorld objects, s.deletes⟩ d := by
  have hobjects : ∀ name, Referenced s name → objects.lookup name = s.store.objects.lookup name := by
    intro name href
    cases hs with
    | upload output outputs hphase he =>
      rw [hphase] at hkeeps
      rw [lookup_insert_apply, if_neg]
      rintro rfl
      exact hkeeps he href
    | remove name' files hphase he =>
      rw [hphase] at hkeeps
      rw [lookup_erase_apply, if_neg]
      rintro rfl
      exact hkeeps he href
    | _ => rfl
  exact ⟨h.world, h.deletes, fun name href => (hobjects name href).trans (h.objects name href)⟩

lemma Agrees.seen_eq (h : Agrees s d) (t : String) : seen true t d.store = seen true t s.store := by
  have hstore : d.store = { s.store with objects := d.store.objects } := congrArg World.store h.world
  have hnames : d.store.tableObjects true t = s.store.tableObjects true t := by
    rw [hstore]
    rfl
  have hfile : ∀ name ∈ s.store.tableObjects true t, d.store.file true name = s.store.file true name := by
    intro name hname
    obtain ⟨⟨key, n⟩, hp, rfl⟩ := List.mem_map.mp hname
    have hobject := h.objects n (.inl ⟨key, (mem_filter.mp hp).1⟩)
    simp only [Store.file, hobject]
    rw [hstore]
  rw [seen, seen, hnames]
  refine congrArg _ (flatMap_congr (fun name hname => ?_))
  rw [hfile name hname]

end MinIODB.Compaction
