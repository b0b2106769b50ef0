import MinIODB.Service.Node
import MinIODB.Buffer.Workers

/-!
# The steps of a node as relations

What each step of a call and of the node needs and does. All later proofs take the steps
apart through these relations.
-/
namespace MinIODB.Service
open Buffer Query Wal Option

section
variable {φ : Type*} (svc : ServiceConfig) (json : φ → Option φ)

inductive DeleteStep (e : StepEnv) : World φ → DeleteCall φ → World φ → DeleteCall φ → Prop where
  | reject (w c) (hphase : c.phase = .started) :
      DeleteStep e w c w { c with phase := .returned false }
  | remove (w c next) (hphase : c.phase = .started) (hid : validateID c.id = true)
      (htable : svc.isValidTableName c.table = true) (hnext : next = .tombstone ∨ next = .scanning) :
      DeleteStep e w c { w with buffer := w.buffer.remove svc.buffer c.table c.id }
        { c with bufferRemoved := (w.buffer.mem.remove Entry.row c.table c.id).2, phase := next }
  | tombstone (w c b) (hphase : c.phase = .tombstone)
      (hb : Step svc.buffer json w.buffer (tombstoneAction c.table c.id e) b) :
      DeleteStep e w c { w with buffer := b } { c with phase := .scanning }
  | standalone (w c) (hphase : c.phase = .scanning) (hredis : svc.redisPool = false) :
      DeleteStep e w c w { c with phase := .returned (decide (0 < c.bufferRemoved)) }
  | scanFail (w c) (hphase : c.phase = .scanning) (he : e.ok = false) :
      DeleteStep e w c w { c with phase := .returned false }
  | noKeys (w c) (hphase : c.phase = .scanning) (hredis : svc.redisPool = true)
      (hkeys : w.store.scanKeys (recordPattern c.table c.id) = []) :
      DeleteStep e w c w { c with phase := .returned (decide (0 < c.bufferRemoved)) }
  | scan (w c) (hphase : c.phase = .scanning) (hredis : svc.redisPool = true) :
      DeleteStep e w c w
        { c with
          idIndexKeys := w.store.scanKeys (recordPattern c.table c.id)
          phase := .reading (w.store.scanKeys (recordPattern c.table c.id)) }
  | readDone (w c next) (hphase : c.phase = .reading [])
      (hnext : next = .unindexing ∧ c.objects = [] ∨ next = .rewriting) :
      DeleteStep e w c w { c with phase := next }
  | read (w c key keys) (hphase : c.phase = .reading (key :: keys)) :
      DeleteStep e w c w
        { c with
          objects := if e.ok then c.objects ∪ w.store.members key else c.objects
          phase := .reading keys }
  | next (w c name) (hphase : c.phase = .rewriting) (henv : e.next = some name)
      (hname : name ∈ c.objects) :
      DeleteStep e w c w { c with objects := c.objects.erase name, phase := .downloading name }
  | done (w c) (hphase : c.phase = .rewriting) (hobjects : c.objects = []) :
      DeleteStep e w c w { c with phase := .unindexing }
  | found (w c name rows) (hphase : c.phase = .downloading name)
      (htemp : w.store.tempDir.lookup name = some rows) :
      DeleteStep e w c w { c with phase := .counting name }
  | fetch (w c name rows) (hphase : c.phase = .downloading name)
      (htemp : w.store.tempDir.lookup name = none) (hobject : w.store.objects.lookup name = some rows) :
      DeleteStep e w c w { c with phase := .saving name rows }
  | save (w c name rows) (hphase : c.phase = .saving name rows) :
      DeleteStep e w c { w with store := { w.store with tempDir := w.store.tempDir.insert name rows } }
        { c with phase := .counting name }
  | fail (w c name) (hfile : c.phase.file = some name) (he : e.ok = false) :
      DeleteStep e w c w { c with phase := .rewriting }
  | absent (w c name) (hphase : c.phase = .downloading name)
      (htemp : w.store.tempDir.lookup name = none) (hobject : w.store.objects.lookup name = none) :
      DeleteStep e w c w { c with phase := .rewriting }
  | vanished (w c name)
      (hphase : c.phase = .counting name ∨ c.phase = .totalling name ∨ c.phase = .copying name)
      (htemp : w.store.tempDir.lookup name = none) :
      DeleteStep e w c w { c with phase := .rewriting }
  | untouched (w c name rows) (hphase : c.phase = .counting name)
      (htemp : w.store.tempDir.lookup name = some rows) (hnone : idRows c.id rows = []) :
      DeleteStep e w c w { c with phase := .rewriting }
  | count (w c name rows) (hphase : c.phase = .counting name)
      (htemp : w.store.tempDir.lookup name = some rows) (hsome : idRows c.id rows ≠ []) :
      DeleteStep e w c w
        { c with deletedCount := (idRows c.id rows).length, phase := .totalling name }
  | total (w c name rows next) (hphase : c.phase = .totalling name)
      (htemp : w.store.tempDir.lookup name = some rows)
      (hnext : next = .removing name ∧ rows.length = c.deletedCount ∨ next = .copying name) :
      DeleteStep e w c w { c with phase := next }
  | removeObject (w c name) (hphase : c.phase = .removing name) :
      DeleteStep e w c
        (if e.ok then { w with store := { w.store with objects := w.store.objects.erase name } } else w)
        { c with phase := .scanningOthers name }
  | scanOthers (w c name) (hphase : c.phase = .scanningOthers name) :
      DeleteStep e w c w
        { c with
          phase := .dereferencing name (if e.ok then w.store.scanKeys (tablePattern c.table) else []) }
  | dereferenced (w c name) (hphase : c.phase = .dereferencing name []) :
      DeleteStep e w c w
        { c with totalDeleted := c.totalDeleted + c.deletedCount, phase := .rewriting }
  | dereference (w c name key keys) (hphase : c.phase = .dereferencing name (key :: keys)) :
      DeleteStep e w c
        (if ofRecord c.table c.id key = false ∧ e.ok = true then
          { w with store := w.store.srem key name } else w)
        { c with phase := .dereferencing name keys }
  | copy (w c name rows) (hphase : c.phase = .copying name)
      (htemp : w.store.tempDir.lookup name = some rows) :
      DeleteStep e w c
        { w with store := { w.store with
            rewrites := w.store.rewrites.insert name (otherRows c.id rows) } }
        { c with phase := .putting name }
  | put (w c name rows) (hphase : c.phase = .putting name)
      (hrewrite : w.store.rewrites.lookup name = some rows) :
      DeleteStep e w c { w with store := { w.store with objects := w.store.objects.insert name rows } }
        { c with totalDeleted := c.totalDeleted + c.deletedCount, phase := .cleaning name }
  | putFail (w c name) (hphase : c.phase = .putting name)
      (hwhy : w.store.rewrites.lookup name = none ∨ e.ok = false) :
      DeleteStep e w c w { c with phase := .discarding name }
  | clean (w c name) (hphase : c.phase = .cleaning name) :
      DeleteStep e w c
        (if e.ok then { w with store := { w.store with tempDir := w.store.tempDir.erase name } } else w)
        { c with phase := .discarding name }
  | discard (w c name) (hphase : c.phase = .discarding name) :
      DeleteStep e w c
        (if e.ok then { w with store := { w.store with rewrites := w.store.rewrites.erase name } } else w)
        { c with phase := .rewriting }
  | unindex (w c) (hphase : c.phase = .unindexing) :
      DeleteStep e w c (if e.ok then { w with store := w.store.del c.idIndexKeys } else w)
        { c with phase := .returned true }

variable {svc json} {e : StepEnv} {w w' : World φ}

lemma DeleteStep.of_step {c c' : DeleteCall φ} (h : c.step svc json e w = some (w', c')) :
    DeleteStep svc json e w c w' c' := by
  unfold DeleteCall.step at h
  split at h
  · rename_i hphase
    split at h
    · rename_i hvalid
      simp only [Bool.and_eq_true] at hvalid
      cases h
      refine .remove w c _ hphase hvalid.1.2 hvalid.2 ?_
      split
      · exact .inl rfl
      · exact .inr rfl
    · cases h
      exact .reject w c hphase
  · rename_i hphase
    obtain ⟨b, hb, heq⟩ := map_eq_some_iff.mp h
    cases heq
    exact .tombstone w c b hphase (Step.of_step hb)
  · rename_i hphase
    split at h
    · rename_i hredis
      split at h
      · split at h <;> cases h
        · rename_i hkeys
          exact .noKeys w c hphase hredis hkeys
        · exact .scan w c hphase hredis
      · rename_i he
        cases h
        exact .scanFail w c hphase (by simpa using he)
    · rename_i hredis
      cases h
      exact .standalone w c hphase (by simpa using hredis)
  · rename_i hphase
    cases h
    refine .readDone w c _ hphase ?_
    split
    · rename_i hobjects
      exact .inl ⟨rfl, hobjects⟩
    · exact .inr rfl
  · rename_i key keys hphase
    cases h
    exact .read w c key keys hphase
  · rename_i hphase
    split at h
    · rename_i name henv
      obtain ⟨hname, h⟩ := ite_none_right_eq_some.mp h
      cases h
      exact .next w c name hphase henv hname
    · obtain ⟨hobjects, h⟩ := ite_none_right_eq_some.mp h
      cases h
      exact .done w c hphase hobjects
  · rename_i name hphase
    split at h <;> cases h
    · rename_i rows htemp
      exact .found w c name rows hphase htemp
    · rename_i rows htemp hobject
      split
      · exact .fetch w c name rows hphase htemp hobject
      · rename_i he
        exact .fail w c name (by rw [hphase]; rfl) (by simpa using he)
    · rename_i htemp hobject
      exact .absent w c name hphase htemp hobject
  · rename_i name rows hphase
    split at h <;> cases h
    · exact .save w c name rows hphase
    · rename_i he
      exact .fail w c name (by rw [hphase]; rfl) (by simpa using he)
  · rename_i name hphase
    split at h
    · rename_i htemp
      cases h
      exact .vanished w c name (.inl hphase) htemp
    · rename_i rows htemp
      split at h <;> cases h
      · rename_i hsome
        exact .count w c name rows hphase htemp hsome.2
      · rename_i hnone
        by_cases he : e.ok
        · exact .untouched w c name rows hphase htemp (by simpa [he] using hnone)
        · exact .fail w c name (by rw [hphase]; rfl) (by simpa using he)
  · rename_i name hphase
    split at h
    · rename_i htemp
      cases h
      exact .vanished w c name (.inr (.inl hphase)) htemp
    · rename_i rows htemp
      split at h <;> cases h
      · refine .total w c name rows _ hphase htemp ?_
        split
        · rename_i hlength
          exact .inl ⟨rfl, hlength⟩
        · exact .inr rfl
      · rename_i he
        exact .fail w c name (by rw [hphase]; rfl) (by simpa using he)
  · rename_i name hphase
    cases h
    exact .removeObject w c name hphase
  · rename_i name hphase
    cases h
    exact .scanOthers w c name hphase
  · rename_i name hphase
    cases h
    exact .dereferenced w c name hphase
  · rename_i name key keys hphase
    cases h
    exact .dereference w c name key keys hphase
  · rename_i name hphase
    split at h
    · rename_i htemp
      cases h
      exact .vanished w c name (.inr (.inr hphase)) htemp
    · rename_i rows htemp
      split at h <;> cases h
      · exact .copy w c name rows hphase htemp
      · rename_i he
        exact .fail w c name (by rw [hphase]; rfl) (by simpa using he)
  · rename_i name hphase
    split at h
    · rename_i hrewrite
      cases h
      exact .putFail w c name hphase (.inl hrewrite)
    · rename_i rows hrewrite
      split at h <;> cases h
      · exact .put w c name rows hphase hrewrite
      · rename_i he
        exact .putFail w c name hphase (.inr (by simpa using he))
  · rename_i name hphase
    cases h
    exact .clean w c name hphase
  · rename_i name hphase
    cases h
    exact .discard w c name hphase
  · rename_i hphase
    cases h
    exact .unindex w c hphase
  · cases h
  · cases h

variable (svc json)

inductive UpdateStep (e : StepEnv) : World φ → UpdateCall φ → World φ → UpdateCall φ → Prop where
  | reject (w c) (hphase : c.phase = .started) :
      UpdateStep e w c w { c with phase := .returned false }
  | remove (w c next) (hphase : c.phase = .started)
      (hvalid : (e.ok && validateID c.id && svc.isValidTableName c.table) = true)
      (hnext : next = .tombstone ∨ next = .inserting) :
      UpdateStep e w c { w with buffer := w.buffer.remove svc.buffer c.table c.id }
        { c with phase := next }
  | tombstone (w c b) (hphase : c.phase = .tombstone)
      (hb : Step svc.buffer json w.buffer (tombstoneAction c.table c.id e) b) :
      UpdateStep e w c { w with buffer := b } { c with phase := .inserting }
  | insert (w c) (hphase : c.phase = .inserting) :
      UpdateStep e w c { w with buffer := w.buffer.addInsert svc.buffer json c.row }
        { c with phase := .adding w.buffer.adds.length }
  | insertFail (w c) (hphase : c.phase = .inserting) :
      UpdateStep e w c w { c with phase := .returned false }
  | added (w c i call) (hphase : c.phase = .adding i) (hcall : w.buffer.adds[i]? = some call)
      (hreturned : call.phase = .returned) : UpdateStep e w c w { c with phase := .scanning }
  | addFailed (w c i call) (hphase : c.phase = .adding i) (hcall : w.buffer.adds[i]? = some call)
      (hfailed : call.phase = .failed) : UpdateStep e w c w { c with phase := .returned false }
  | scan (w c) (hphase : c.phase = .scanning) (hredis : svc.redisPool = true) :
      UpdateStep e w c w
        { c with phase := .unindexing (w.store.scanKeys (recordPattern c.table c.id)) }
  | noScan (w c) (hphase : c.phase = .scanning) (hwhy : svc.redisPool = false ∨ e.ok = false) :
      UpdateStep e w c w { c with phase := .returned true }
  | unindex (w c keys) (hphase : c.phase = .unindexing keys) :
      UpdateStep e w c (if e.ok then { w with store := w.store.del keys } else w)
        { c with phase := .returned true }

inductive DropStep (e : StepEnv) : World φ → DropCall → World φ → DropCall → Prop where
  | refuse (w c) (hphase : c.phase = .started) : DropStep e w c w { c with phase := .returned false }
  | start (w c) (hphase : c.phase = .started) : DropStep e w c w { c with phase := .listing }
  | absent (w c) (hphase : c.phase = .started) (hexists : e.tableExists = some false) :
      DropStep e w c w { c with phase := .clearing }
  | list (w c) (hphase : c.phase = .listing) :
      DropStep e w c w
        { c with
          phase := .removing (w.store.objects.keys.filter (fun name => inTable c.table name && e.listed name)) }
  | removed (w c) (hphase : c.phase = .removing []) :
      DropStep e w c w { c with phase := if svc.redisPool then .scanning else .clearing }
  | removeObject (w c name names) (hphase : c.phase = .removing (name :: names)) :
      DropStep e w c { w with store := { w.store with objects := w.store.objects.erase name } }
        { c with filesDeleted := c.filesDeleted + 1, phase := .removing names }
  | removeFail (w c name names) (hphase : c.phase = .removing (name :: names)) (he : e.ok = false) :
      DropStep e w c w { c with phase := .removing names }
  | scan (w c) (hphase : c.phase = .scanning) :
      DropStep e w c w
        { c with phase := .unindexing (if e.ok then w.store.scanKeys (tablePattern c.table) else []) }
  | unindexed (w c) (hphase : c.phase = .unindexing []) :
      DropStep e w c w { c with phase := .unlisting }
  | unindex (w c key keys) (hphase : c.phase = .unindexing (key :: keys)) :
      DropStep e w c (if e.ok then { w with store := w.store.del [key] } else w)
        { c with phase := .unindexing keys }
  | unlist (w c) (hphase : c.phase = .unlisting) :
      DropStep e w c w { c with phase := if e.ok then .clearing else .returned false }
  | clear (w c) (hphase : c.phase = .clearing) :
      DropStep e w c { w with buffer := w.buffer.clearTable c.table } { c with phase := .returned true }

variable {svc json}

lemma UpdateStep.of_step {c c' : UpdateCall φ} (h : c.step svc json e w = some (w', c')) :
    UpdateStep svc json e w c w' c' := by
  unfold UpdateCall.step at h
  split at h
  · rename_i hphase
    split at h <;> cases h
    · rename_i hvalid
      refine .remove w c _ hphase hvalid ?_
      split
      · exact .inl rfl
      · exact .inr rfl
    · exact .reject w c hphase
  · rename_i hphase
    obtain ⟨b, hb, heq⟩ := map_eq_some_iff.mp h
    cases heq
    exact .tombstone w c b hphase (Step.of_step hb)
  · rename_i hphase
    split at h <;> cases h
    · exact .insert w c hphase
    · exact .insertFail w c hphase
  · rename_i i hphase
    obtain ⟨call, hcall, h⟩ := bind_eq_some_iff.mp h
    split at h
    · rename_i hreturned
      cases h
      exact .added w c i call hphase hcall hreturned
    · obtain ⟨hfailed, h⟩ := ite_none_right_eq_some.mp h
      cases h
      exact .addFailed w c i call hphase hcall hfailed
  · rename_i hphase
    split at h <;> cases h
    · rename_i hredis
      exact .scan w c hphase hredis.1
    · rename_i hwhy
      refine .noScan w c hphase ?_
      rw [not_and_or, Bool.not_eq_true, Bool.not_eq_true] at hwhy
      exact hwhy
  · rename_i keys hphase
    cases h
    exact .unindex w c keys hphase
  · cases h
  · cases h

lemma DropStep.of_step {c c' : DropCall} (h : c.step svc e w = some (w', c')) :
    DropStep svc e w c w' c' := by
  unfold DropCall.step at h
  split at h
  · rename_i hphase
    split at h
    · cases h
      exact .refuse w c hphase
    · split at h <;> cases h
      · exact .refuse w c hphase
      · exact .start w c hphase
      · rename_i hexists
        split
        · exact .absent w c hphase hexists
        · exact .refuse w c hphase
  · rename_i hphase
    cases h
    exact .list w c hphase
  · rename_i hphase
    cases h
    exact .removed w c hphase
  · rename_i name names hphase
    split at h <;> cases h
    · exact .removeObject w c name names hphase
    · rename_i he
      exact .removeFail w c name names hphase (by simpa using he)
  · rename_i hphase
    cases h
    exact .scan w c hphase
  · rename_i hphase
    cases h
    exact .unindexed w c hphase
  · rename_i key keys hphase
    cases h
    exact .unindex w c key keys hphase
  · rename_i hphase
    cases h
    exact .unlist w c hphase
  · rename_i hphase
    cases h
    exact .clear w c hphase
  · cases h
  · cases h

end

variable {φ : Type*} (svc : ServiceConfig) (json : φ → Option φ)

inductive NodeStep : Node φ → Action φ → Node φ → Prop where
  | buffer (n a b) (hown : n.ownStep a = true) (hb : Step svc.buffer json n.buffer a b) :
      NodeStep n (.buffer a) { n with buffer := b }
  | putObject (n t now task holder) (htask : n.buffer.pool.tasks[t]? = some task)
      (hstatus : task.status = .running holder) (hnew : t ∉ n.uploads.map Prod.fst) :
      NodeStep n (.putObject t now)
        { n with
          store := { n.store with
            objects := n.store.objects.insert (objectName task.bufferKey now) (task.rows.map stored) }
          uploads := (t, objectName task.bufferKey now) :: n.uploads }
  | indexObject (n t name task tableName id day b) (hupload : (t, name) ∈ n.uploads)
      (hredis : svc.redisPool = true) (htask : n.buffer.pool.tasks[t]? = some task)
      (hkey : splitSlash task.bufferKey = [tableName, id, day])
      (hb : Step svc.buffer json n.buffer (.attemptOk t) b) :
      NodeStep n (.indexObject t name)
        { n with
          buffer := b
          store := { n.store with index := (indexKey tableName id day, name) :: n.store.index }
          uploads := n.uploads.erase (t, name) }
  | rollback (n t name ok b) (hupload : (t, name) ∈ n.uploads)
      (hb : Step svc.buffer json n.buffer (.pool (.attemptFailed t)) b) :
      NodeStep n (.rollback t name ok)
        { n with
          buffer := b
          store := if ok then { n.store with objects := n.store.objects.erase name } else n.store
          uploads := n.uploads.erase (t, name) }
  | download (n name rows) (hobject : n.store.objects.lookup name = some rows) :
      NodeStep n (.download name) { n with downloads := n.downloads ++ [(name, rows)] }
  | save (n i d) (hd : n.downloads[i]? = some d) :
      NodeStep n (.save i)
        { n with
          store := { n.store with tempDir := n.store.tempDir.insert d.1 d.2 }
          downloads := n.downloads.eraseIdx i }
  | cacheFile (n name rows) (htemp : n.store.tempDir.lookup name = some rows) :
      NodeStep n (.cacheFile name)
        { n with store := { n.store with fileCache := n.store.fileCache.insert name rows } }
  | expire (n name) :
      NodeStep n (.expire name)
        { n with store := { n.store with fileCache := n.store.fileCache.erase name } }
  | cleanTemp (n name) :
      NodeStep n (.cleanTemp name)
        { n with store := { n.store with tempDir := n.store.tempDir.erase name } }
  | delete (n table id) :
      NodeStep n (.delete table id)
        { n with deletes := n.deletes ++ [⟨table, id, 0, [], [], 0, 0, .started⟩] }
  | deleteStep (n i e c w c') (hcall : n.deletes[i]? = some c)
      (hs : DeleteStep svc json e n.toWorld c w c') :
      NodeStep n (.deleteStep i e) { n with toWorld := w, deletes := n.deletes.set i c' }
  | update (n table id timestamp fields) :
      NodeStep n (.update table id timestamp fields)
        { n with updates := n.updates ++ [⟨table, id, timestamp, fields, .started⟩] }
  | updateStep (n i e c w c') (hcall : n.updates[i]? = some c)
      (hs : UpdateStep svc json e n.toWorld c w c') :
      NodeStep n (.updateStep i e) { n with toWorld := w, updates := n.updates.set i c' }
  | drop (n table ifExists) :
      NodeStep n (.drop table ifExists) { n with drops := n.drops ++ [⟨table, ifExists, 0, .started⟩] }
  | dropStep (n i e c w c') (hcall : n.drops[i]? = some c) (hs : DropStep svc e n.toWorld c w c') :
      NodeStep n (.dropStep i e) { n with toWorld := w, drops := n.drops.set i c' }
  | restart (n name) : NodeStep n (.restart name) (n.restart svc name)

variable {svc json}

lemma NodeStep.of_step {n n' : Node φ} {a : Action φ} (h : n.step svc json a = some n') :
    NodeStep svc json n a n' := by
  cases a with
    simp only [Node.step, Node.bufferStep, Node.putObject, Node.indexObject, Node.rollback, Node.deleteStep,
      Node.updateStep, Node.dropStep, bind_eq_some_iff, ite_none_right_eq_some, map_eq_some_iff, some.injEq] at h
  | buffer a =>
    obtain ⟨hown, b, hb, rfl⟩ := h
    exact .buffer n a b hown (Step.of_step hb)
  | putObject t now =>
    obtain ⟨task, htask, h⟩ := h
    split at h
    · rename_i holder hstatus
      obtain ⟨hnew, h⟩ := ite_none_left_eq_some.mp h
      cases h
      exact .putObject n t now task holder htask hstatus hnew
    · cases h
  | indexObject t name =>
    obtain ⟨⟨hupload, hredis⟩, task, htask, h⟩ := h
    split at h
    · rename_i tableName id day hkey
      obtain ⟨b, hb, rfl⟩ := map_eq_some_iff.mp h
      exact .indexObject n t name task tableName id day b hupload hredis htask hkey
        (Step.of_step hb)
    · cases h
  | rollback t name ok =>
    obtain ⟨hupload, b, hb, rfl⟩ := h
    exact .rollback n t name ok b hupload (Step.of_step hb)
  | download name =>
    obtain ⟨_, rows, hrows, rfl⟩ := h
    exact .download n name rows hrows
  | save i =>
    obtain ⟨d, hd, rfl⟩ := h
    exact .save n i d hd
  | cacheFile name =>
    obtain ⟨_, rows, hrows, rfl⟩ := h
    exact .cacheFile n name rows hrows
  | expire name =>
    cases h
    exact .expire n name
  | cleanTemp name =>
    cases h
    exact .cleanTemp n name
  | delete table id =>
    cases h
    exact .delete n table id
  | deleteStep i e =>
    obtain ⟨c, hcall, ⟨w, c'⟩, hs, rfl⟩ := h
    exact .deleteStep n i e c w c' hcall (DeleteStep.of_step hs)
  | update table id timestamp fields =>
    cases h
    exact .update n table id timestamp fields
  | updateStep i e =>
    obtain ⟨c, hcall, ⟨w, c'⟩, hs, rfl⟩ := h
    exact .updateStep n i e c w c' hcall (UpdateStep.of_step hs)
  | drop table ifExists =>
    cases h
    exact .drop n table ifExists
  | dropStep i e =>
    obtain ⟨c, hcall, ⟨w, c'⟩, hs, rfl⟩ := h
    exact .dropStep n i e c w c' hcall (DropStep.of_step hs)
  | restart name =>
    cases h
    exact .restart n name

end MinIODB.Service
