import MinIODB.Compaction.Manager

/-!
# The steps of a compaction and of the deletes beside it

What each step of a compaction needs and does, and how far a `DeleteData` call depends on the
stored objects. A call looks at the object that it works on and at no other, and it gets the
names of its objects from the index. Without Redis it does not get to the stored objects.
-/
namespace MinIODB.Compaction
open Service Buffer Query Option

section
variable {ν : Type*} (json : Json ν) (table : String)

inductive CallStep (e : StepTime) (objects : Files Columns) (c : Call ν) : Files Columns → Phase ν → Prop where
  | downloaded (records) (hphase : c.phase = .downloading [] records) :
      CallStep e objects c objects (.writing records)
  | download (name rows files records) (hphase : c.phase = .downloading (name :: files) records)
      (hobject : objects.lookup name = some rows) :
      CallStep e objects c objects (.reading name rows files records)
  | read (name rows files records) (hphase : c.phase = .reading name rows files records) (he : e.ok = true) :
      CallStep e objects c objects (.downloading files (records ++ readFile json rows))
  | write (records) (hphase : c.phase = .writing records) :
      CallStep e objects c objects (.statting (outputFiles json c.job.maxRowsPerFile e records))
  | uploaded (hphase : c.phase = .statting []) : CallStep e objects c objects (.removing c.job.files)
  | stat (output outputs) (hphase : c.phase = .statting (output :: outputs)) :
      CallStep e objects c objects (.uploading output outputs)
  | skip (output outputs) (hphase : c.phase = .statting (output :: outputs)) (he : e.ok = false) :
      CallStep e objects c objects (.statting outputs)
  | upload (output outputs) (hphase : c.phase = .uploading output outputs) (he : e.ok = true) :
      CallStep e objects c
        (objects.insert (uploadName table c.job e.now output.1) (output.2.map writtenRow)) (.statting outputs)
  | uploadFail (output outputs) (hphase : c.phase = .uploading output outputs) (he : e.ok = false) :
      CallStep e objects c objects (.returned false)
  | abandon (hphase : (∃ files records, c.phase = .downloading files records) ∨
        (∃ name rows files records, c.phase = .reading name rows files records) ∨
        ∃ records, c.phase = .writing records) :
      CallStep e objects c objects (.returned false)
  | removed (hphase : c.phase = .removing []) : CallStep e objects c objects (.returned true)
  | remove (name files) (hphase : c.phase = .removing (name :: files)) (he : e.ok = true) :
      CallStep e objects c (objects.erase name) (.removing files)
  | removeFail (name files) (hphase : c.phase = .removing (name :: files)) (he : e.ok = false) :
      CallStep e objects c objects (.removing files)

variable {json table} {e : StepTime} {objects objects' : Files Columns} {c : Call ν} {phase : Phase ν}

lemma CallStep.of_step (h : c.step json table e objects = some (objects', phase)) :
    CallStep json table e objects c objects' phase := by
  unfold Call.step at h
  split at h
  · rename_i records hphase
    cases h
    exact .downloaded records hphase
  · rename_i name files records hphase
    split at h <;> cases h
    · rename_i rows hobject
      split
      · exact .download name rows files records hphase hobject
      · exact .abandon (.inl ⟨_, _, hphase⟩)
    · exact .abandon (.inl ⟨_, _, hphase⟩)
  · rename_i name rows files records hphase
    cases h
    split
    · rename_i he
      exact .read name rows files records hphase he
    · exact .abandon (.inr (.inl ⟨_, _, _, _, hphase⟩))
  · rename_i records hphase
    cases h
    split
    · exact .write records hphase
    · exact .abandon (.inr (.inr ⟨_, hphase⟩))
  · rename_i hphase
    cases h
    exact .uploaded hphase
  · rename_i output outputs hphase
    cases h
    split
    · exact .stat output outputs hphase
    · rename_i he
      exact .skip output outputs hphase (by simpa using he)
  · rename_i output outputs hphase
    split at h <;> cases h
    · rename_i he
      exact .upload output outputs hphase he
    · rename_i he
      exact .uploadFail output outputs hphase (by simpa using he)
  · rename_i hphase
    cases h
    exact .removed hphase
  · rename_i name files hphase
    cases h
    split
    · rename_i he
      exact .remove name files hphase he
    · rename_i he
      exact .removeFail name files hphase (by simpa using he)
  · cases h

end

variable {svc : ServiceConfig} {decode : Columns → Option Columns} {e : StepEnv} {w w' : World Columns}
  {c c' : DeleteCall Columns}

def withObjects (w : World Columns) (objects : Files Columns) : World Columns :=
  { w with store := { w.store with objects := objects } }

def usesObject : DeletePhase Columns → Bool
  | .downloading _ | .removing _ | .putting _ => true
  | _ => false

lemma step_withObjects_of_not_usesObject (h : usesObject c.phase = false) (objects : Files Columns) :
    c.step svc decode e (withObjects w objects) =
      (c.step svc decode e w).map (fun r => (withObjects r.1 objects, r.2)) := by
  unfold DeleteCall.step
  cases hphase : c.phase with
  | downloading | removing | putting =>
    rw [hphase] at h
    cases h
  | tombstone =>
    simp only [withObjects, map_map]
    rfl
  | reading keys => cases keys <;> rfl
  | dereferencing name keys =>
    cases keys with
    | nil => rfl
    | cons =>
      simp only [map_some]
      split <;> rfl
  | started | saving =>
    dsimp only
    split <;> rfl
  | scanning =>
    dsimp only
    split
    · split
      · change (if w.store.scanKeys _ = [] then _ else _) = _
        split <;> rfl
      · rfl
    · rfl
  | rewriting =>
    dsimp only
    split
    · split <;> rfl
    · split <;> rfl
  | counting name | totalling name | copying name =>
    dsimp only [withObjects]
    cases w.store.tempDir.lookup name with
    | none => rfl
    | some =>
      dsimp only
      split <;> rfl
  | cleaning | discarding | unindexing =>
    simp only [map_some]
    split <;> rfl
  | scanningOthers | returned | lost => rfl

lemma objects_of_not_usesObject (hs : DeleteStep svc decode e w c w' c') (h : usesObject c.phase = false) :
    w'.store.objects = w.store.objects := by
  cases hs with
  | removeObject name hphase | put name rows hphase =>
    rw [hphase] at h
    cases h
  | dereference | clean | discard | unindex => split <;> rfl
  | _ => rfl

lemma step_withObjects {objects : Files Columns} {P : String → Prop}
    (hobjects : ∀ name, P name → w.store.objects.lookup name = objects.lookup name)
    (hfile : ∀ name, c.phase.file = some name → P name) (h : c.step svc decode e w = some (w', c')) :
    ∃ objects', c.step svc decode e (withObjects w objects) = some (withObjects w' objects', c') ∧
      ∀ name, P name → w'.store.objects.lookup name = objects'.lookup name := by
  cases huses : usesObject c.phase with
  | false =>
    refine ⟨objects, ?_, ?_⟩
    · rw [step_withObjects_of_not_usesObject huses, h, map_some]
    · rw [objects_of_not_usesObject (DeleteStep.of_step h) huses]
      exact hobjects
  | true =>
    unfold DeleteCall.step at h ⊢
    cases hphase : c.phase with
    | downloading name =>
      have hname := hobjects name (hfile name (by rw [hphase]; rfl))
      simp only [hphase, withObjects, ← hname] at h ⊢
      refine ⟨objects, ?_⟩
      cases htemp : w.store.tempDir.lookup name with
      | some =>
        rw [htemp] at h
        cases h
        exact ⟨rfl, hobjects⟩
      | none =>
        rw [htemp] at h
        cases hobject : w.store.objects.lookup name with
        | none | some =>
          rw [hobject] at h
          cases h
          exact ⟨rfl, hobjects⟩
    | removing name =>
      simp only [hphase, withObjects] at h ⊢
      cases h
      cases e.ok with
      | false => exact ⟨objects, rfl, hobjects⟩
      | true =>
        refine ⟨objects.erase name, rfl, fun name' hP => ?_⟩
        simp [lookup_erase_apply, hobjects name' hP]
    | putting name =>
      simp only [hphase, withObjects] at h ⊢
      cases hrewrite : w.store.rewrites.lookup name with
      | none =>
        rw [hrewrite] at h
        cases h
        exact ⟨objects, rfl, hobjects⟩
      | some rows =>
        rw [hrewrite] at h
        cases he : e.ok <;> rw [he] at h <;> cases h
        · exact ⟨objects, rfl, hobjects⟩
        · refine ⟨objects.insert name rows, rfl, fun name' hP => ?_⟩
          simp [lookup_insert_apply, hobjects name' hP]
    | _ =>
      rw [hphase] at huses
      cases huses

def holds (c : DeleteCall Columns) (name : String) : Prop := name ∈ c.objects ∨ c.phase.file = some name

def indexed (store : Store Columns) (name : String) : Prop := ∃ key, (key, name) ∈ store.index

lemma index_of_deleteStep (hs : DeleteStep svc decode e w c w' c') {p : String × String}
    (hp : p ∈ w'.store.index) : p ∈ w.store.index := by
  cases hs with
  | removeObject | clean | discard =>
    split at hp <;> exact hp
  | dereference =>
    split at hp
    · exact (Store.mem_srem.mp hp).1
    · exact hp
  | unindex =>
    split at hp
    · exact (Store.mem_del.mp hp).1
    · exact hp
  | _ => exact hp

lemma holds_of_deleteStep (hs : DeleteStep svc decode e w c w' c') {name : String} (h : holds c' name) :
    holds c name ∨ indexed w.store name := by
  cases hs with
  | read key =>
    rcases h with h | h
    · dsimp only at h
      split at h
      · rcases List.mem_union_iff.mp h with h | h
        · exact .inl (.inl h)
        · exact .inr ⟨key, Store.mem_members.mp h⟩
      · exact .inl (.inl h)
    · cases h
  | next name' hphase henv hname =>
    refine .inl (.inl ?_)
    rcases h with h | h
    · exact List.mem_of_mem_erase h
    · cases h
      exact hname
  | remove next _ _ _ hnext =>
    rcases h with h | h
    · exact .inl (.inl h)
    · rcases hnext with rfl | rfl <;> cases h
  | readDone next _ hnext =>
    rcases h with h | h
    · exact .inl (.inl h)
    · rcases hnext with ⟨rfl, -⟩ | rfl <;> cases h
  | total name' rows next hphase _ hnext =>
    refine .inl (h.imp_right (fun h => ?_))
    rw [hphase]
    rcases hnext with ⟨rfl, -⟩ | rfl <;> exact h
  | found _ _ hphase | fetch _ _ hphase | save _ _ hphase | count _ _ hphase | removeObject _ hphase
  | scanOthers _ hphase | dereference _ _ _ hphase | copy _ _ hphase | put _ _ hphase | putFail _ hphase
  | clean _ hphase =>
    refine .inl (h.imp_right (fun h => ?_))
    rw [hphase]
    exact h
  | _ =>
    rcases h with h | h
    · exact .inl (.inl h)
    · cases h

def beforeIndex : DeletePhase Columns → Bool
  | .started | .tombstone | .scanning | .returned _ | .lost => true
  | _ => false

lemma store_of_beforeIndex (hs : DeleteStep svc decode e w c w' c') (hredis : svc.redisPool = false)
    (h : beforeIndex c.phase) : w'.store = w.store ∧ beforeIndex c'.phase := by
  cases hs with
  | reject | tombstone | standalone | scanFail => exact ⟨rfl, rfl⟩
  | remove next _ _ _ hnext => rcases hnext with rfl | rfl <;> exact ⟨rfl, rfl⟩
  | noKeys _ hredis' | scan _ hredis' =>
    rw [hredis] at hredis'
    cases hredis'
  | fail name hfile =>
    cases hphase : c.phase <;> rw [hphase] at h hfile <;> cases h <;> cases hfile
  | vanished name hphase => rcases hphase with hphase | hphase | hphase <;> rw [hphase] at h <;> cases h
  | readDone _ hphase | read _ _ hphase | next _ hphase | done hphase | found _ _ hphase | fetch _ _ hphase
  | save _ _ hphase | absent _ hphase | untouched _ _ hphase | count _ _ hphase | total _ _ _ hphase
  | removeObject _ hphase | scanOthers _ hphase | dereferenced _ hphase | dereference _ _ _ hphase
  | copy _ _ hphase | put _ _ hphase | putFail _ hphase | clean _ hphase | discard _ hphase
  | unindex hphase =>
    rw [hphase] at h
    cases h

end MinIODB.Compaction
