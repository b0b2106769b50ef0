import MinIODB.Service.Store

/-!
# A node of the service

`DeleteData`, `UpdateData` and `DeleteTable` go through several stores one after the other:
the buffer, the objects, the local copies and the index. Each of their calls to a server or
to the file system is one step, with its outcome in the environment of the step; between
two steps the buffer, the flush workers, queries and other calls may do theirs. SCAN and
the listing of a bucket answer with what is there at one moment.

The locks of `DeleteData` and `UpdateData`, the caches of query results and the statistics
of tables are left out.
-/
namespace MinIODB.Service
open Buffer Query Wal List

structure ServiceConfig where
  buffer : Buffer.Config
  redisPool : Bool
  isValidTableName : String → Bool

/-- What a step of a call meets: whether its request succeeds, the object that the loop over
a set goes on with, how the append of a tombstone ends, whether the table exists, and which
entries of a listing arrive without an error. -/
structure StepEnv where
  ok : Bool
  next : Option String
  rotate : Option ℕ
  failed : FailedAppend
  tableExists : Option Bool
  listed : String → Bool

inductive DeletePhase (φ : Type*) where
  | started
  | tombstone
  | scanning
  | reading (keys : List String)
  | rewriting
  | downloading (name : String)
  | saving (name : String) (rows : List (StoredRow φ))
  | counting (name : String)
  | totalling (name : String)
  | removing (name : String)
  | scanningOthers (name : String)
  | dereferencing (name : String) (keys : List String)
  | copying (name : String)
  | putting (name : String)
  | cleaning (name : String)
  | discarding (name : String)
  | unindexing
  | returned (success : Bool)
  | lost

def DeletePhase.file {φ : Type*} : DeletePhase φ → Option String
  | .downloading name | .saving name _ | .counting name | .totalling name | .removing name
  | .scanningOthers name | .dereferencing name _ | .copying name | .putting name | .cleaning name
  | .discarding name => some name
  | _ => none

structure DeleteCall (φ : Type*) where
  table : String
  id : String
  bufferRemoved : ℕ
  idIndexKeys : List String
  objects : List String
  deletedCount : ℕ
  totalDeleted : ℕ
  phase : DeletePhase φ

inductive UpdatePhase where
  | started
  | tombstone
  | inserting
  | adding (i : ℕ)
  | scanning
  | unindexing (keys : List String)
  | returned (success : Bool)
  | lost
  deriving DecidableEq

structure UpdateCall (φ : Type*) where
  table : String
  id : String
  timestamp : Int64
  fields : φ
  phase : UpdatePhase

def UpdateCall.row {φ : Type*} (c : UpdateCall φ) : DataRow φ :=
  ⟨c.id, c.timestamp, if c.table = "" then "default" else c.table, c.fields⟩

inductive DropPhase where
  | started
  | listing
  | removing (names : List String)
  | scanning
  | unindexing (keys : List String)
  | unlisting
  | clearing
  | returned (success : Bool)
  | lost

structure DropCall where
  table : String
  ifExists : Bool
  filesDeleted : ℕ
  phase : DropPhase

structure World (φ : Type*) where
  buffer : State φ
  store : Store φ

structure Node (φ : Type*) extends World φ where
  uploads : List (ℕ × String)
  downloads : List (String × List (StoredRow φ))
  deletes : List (DeleteCall φ)
  updates : List (UpdateCall φ)
  drops : List DropCall

inductive Action (φ : Type*) where
  | buffer (a : Buffer.Action φ)
  | putObject (t : ℕ) (now : ℕ)
  | indexObject (t : ℕ) (name : String)
  | rollback (t : ℕ) (name : String) (ok : Bool)
  | download (name : String)
  | save (i : ℕ)
  | cacheFile (name : String)
  | expire (name : String)
  | cleanTemp (name : String)
  | delete (table id : String)
  | deleteStep (i : ℕ) (e : StepEnv)
  | update (table id : String) (timestamp : Int64) (fields : φ)
  | updateStep (i : ℕ) (e : StepEnv)
  | drop (table : String) (ifExists : Bool)
  | dropStep (i : ℕ) (e : StepEnv)
  | restart (name : ℕ)

section
variable {φ : Type*} (svc : ServiceConfig) (json : φ → Option φ)

def objectName (bufferKey : String) (now : ℕ) : String :=
  normalizeObjectKey (bufferKey ++ "/" ++ toString now ++ ".parquet")

def tombstoneAction (table id : String) (e : StepEnv) : Buffer.Action φ :=
  if e.ok then .tombstone table id e.rotate else .tombstoneFail table id e.failed

def idRows (id : String) (rows : List (StoredRow φ)) : List (StoredRow φ) :=
  rows.filter (fun r => decide (r.id = some id))

def otherRows (id : String) (rows : List (StoredRow φ)) : List (StoredRow φ) :=
  rows.filter (fun r => r.id.isSome && decide (r.id ≠ some id))

def DeleteCall.step (e : StepEnv) (w : World φ) (c : DeleteCall φ) : Option (World φ × DeleteCall φ) :=
  match c.phase with
  | .started =>
    if e.ok && validateID c.id && svc.isValidTableName c.table then
      some ({ w with buffer := w.buffer.remove svc.buffer c.table c.id },
        { c with
          bufferRemoved := (w.buffer.mem.remove Entry.row c.table c.id).2
          phase :=
            if 0 < (w.buffer.mem.remove Entry.row c.table c.id).2 ∧ svc.buffer.walEnabled = true then
              .tombstone
            else .scanning })
    else some (w, { c with phase := .returned false })
  | .tombstone =>
    (w.buffer.step svc.buffer json (tombstoneAction c.table c.id e)).map (fun b =>
      ({ w with buffer := b }, { c with phase := .scanning }))
  | .scanning =>
    if svc.redisPool then
      if e.ok then
        if w.store.scanKeys (recordPattern c.table c.id) = [] then
          some (w, { c with phase := .returned (decide (0 < c.bufferRemoved)) })
        else
          some (w, { c with
            idIndexKeys := w.store.scanKeys (recordPattern c.table c.id)
            phase := .reading (w.store.scanKeys (recordPattern c.table c.id)) })
      else some (w, { c with phase := .returned false })
    else some (w, { c with phase := .returned (decide (0 < c.bufferRemoved)) })
  | .reading [] => some (w, { c with phase := if c.objects = [] then .unindexing else .rewriting })
  | .reading (key :: keys) =>
    some (w, { c with
      objects := if e.ok then c.objects ∪ w.store.members key else c.objects
      phase := .reading keys })
  | .rewriting =>
    match e.next with
    | some name =>
      if name ∈ c.objects then
        some (w, { c with objects := c.objects.erase name, phase := .downloading name })
      else none
    | none => if c.objects = [] then some (w, { c with phase := .unindexing }) else none
  | .downloading name =>
    match w.store.tempDir.lookup name, w.store.objects.lookup name with
    | some _, _ => some (w, { c with phase := .counting name })
    | none, some rows =>
      some (w, { c with phase := if e.ok then .saving name rows else .rewriting })
    | none, none => some (w, { c with phase := .rewriting })
  | .saving name rows =>
    if e.ok then
      some ({ w with store := { w.store with tempDir := w.store.tempDir.insert name rows } },
        { c with phase := .counting name })
    else some (w, { c with phase := .rewriting })
  | .counting name =>
    match w.store.tempDir.lookup name with
    | none => some (w, { c with phase := .rewriting })
    | some rows =>
      if e.ok = true ∧ idRows c.id rows ≠ [] then
        some (w, { c with deletedCount := (idRows c.id rows).length, phase := .totalling name })
      else some (w, { c with phase := .rewriting })
  | .totalling name =>
    match w.store.tempDir.lookup name with
    | none => some (w, { c with phase := .rewriting })
    | some rows =>
      if e.ok then
        some (w, { c with phase := if rows.length = c.deletedCount then .removing name else .copying name })
      else some (w, { c with phase := .rewriting })
  | .removing name =>
    some (if e.ok then { w with store := { w.store with objects := w.store.objects.erase name } } else w,
      { c with phase := .scanningOthers name })
  | .scanningOthers name =>
    some (w, { c with
      phase := .dereferencing name (if e.ok then w.store.scanKeys (tablePattern c.table) else []) })
  | .dereferencing _ [] =>
    some (w, { c with totalDeleted := c.totalDeleted + c.deletedCount, phase := .rewriting })
  | .dereferencing name (key :: keys) =>
    some (if ofRecord c.table c.id key = false ∧ e.ok = true then
        { w with store := w.store.srem key name } else w,
      { c with phase := .dereferencing name keys })
  | .copying name =>
    match w.store.tempDir.lookup name with
    | none => some (w, { c with phase := .rewriting })
    | some rows =>
      if e.ok then
        some ({ w with store := { w.store with
            rewrites := w.store.rewrites.insert name (otherRows c.id rows) } },
          { c with phase := .putting name })
      else some (w, { c with phase := .rewriting })
  | .putting name =>
    match w.store.rewrites.lookup name with
    | none => some (w, { c with phase := .discarding name })
    | some rows =>
      if e.ok then
        some ({ w with store := { w.store with objects := w.store.objects.insert name rows } },
          { c with totalDeleted := c.totalDeleted + c.deletedCount, phase := .cleaning name })
      else some (w, { c with phase := .discarding name })
  | .cleaning name =>
    some (if e.ok then { w with store := { w.store with tempDir := w.store.tempDir.erase name } } else w,
      { c with phase := .discarding name })
  | .discarding name =>
    some (if e.ok then { w with store := { w.store with rewrites := w.store.rewrites.erase name } } else w,
      { c with phase := .rewriting })
  | .unindexing =>
    some (if e.ok then { w with store := w.store.del c.idIndexKeys } else w,
      { c with phase := .returned true })
  | .returned _ | .lost => none

def UpdateCall.step (e : StepEnv) (w : World φ) (c : UpdateCall φ) : Option (World φ × UpdateCall φ) :=
  match c.phase with
  | .started =>
    if e.ok && validateID c.id && svc.isValidTableName c.table then
      some ({ w with buffer := w.buffer.remove svc.buffer c.table c.id },
        { c with
          phase :=
            if 0 < (w.buffer.mem.remove Entry.row c.table c.id).2 ∧ svc.buffer.walEnabled = true then
              .tombstone
            else .inserting })
    else some (w, { c with phase := .returned false })
  | .tombstone =>
    (w.buffer.step svc.buffer json (tombstoneAction c.table c.id e)).map (fun b =>
      ({ w with buffer := b }, { c with phase := .inserting }))
  | .inserting =>
    if e.ok then
      some ({ w with buffer := w.buffer.addInsert svc.buffer json c.row },
        { c with phase := .adding w.buffer.adds.length })
    else some (w, { c with phase := .returned false })
  | .adding i =>
    w.buffer.adds[i]?.bind (fun call =>
      if call.phase = .returned then some (w, { c with phase := .scanning })
      else if call.phase = .failed then some (w, { c with phase := .returned false })
      else none)
  | .scanning =>
    if svc.redisPool = true ∧ e.ok = true then
      some (w, { c with phase := .unindexing (w.store.scanKeys (recordPattern c.table c.id)) })
    else some (w, { c with phase := .returned true })
  | .unindexing keys =>
    some (if e.ok then { w with store := w.store.del keys } else w, { c with phase := .returned true })
  | .returned _ | .lost => none

def DropCall.step (e : StepEnv) (w : World φ) (c : DropCall) : Option (World φ × DropCall) :=
  match c.phase with
  | .started =>
    if c.table = "" then some (w, { c with phase := .returned false })
    else
      match e.tableExists with
      | none => some (w, { c with phase := .returned false })
      | some true => some (w, { c with phase := .listing })
      | some false => some (w, { c with phase := if c.ifExists then .clearing else .returned false })
  | .listing =>
    some (w, { c with
      phase := .removing (w.store.objects.keys.filter (fun name => inTable c.table name && e.listed name)) })
  | .removing [] => some (w, { c with phase := if svc.redisPool then .scanning else .clearing })
  | .removing (name :: names) =>
    if e.ok then
      some ({ w with store := { w.store with objects := w.store.objects.erase name } },
        { c with filesDeleted := c.filesDeleted + 1, phase := .removing names })
    else some (w, { c with phase := .removing names })
  | .scanning =>
    some (w, { c with
      phase := .unindexing (if e.ok then w.store.scanKeys (tablePattern c.table) else []) })
  | .unindexing [] => some (w, { c with phase := .unlisting })
  | .unindexing (key :: keys) =>
    some (if e.ok then { w with store := w.store.del [key] } else w, { c with phase := .unindexing keys })
  | .unlisting => some (w, { c with phase := if e.ok then .clearing else .returned false })
  | .clearing =>
    some ({ w with buffer := w.buffer.clearTable c.table }, { c with phase := .returned true })
  | .returned _ | .lost => none

end

namespace Node
variable {φ : Type*} (svc : ServiceConfig) (json : φ → Option φ) (n : Node φ)

/-- The steps of the buffer that no call of the service makes: accepted writes with their
`Add` calls, flushes, workers, the truncation of the log and `Stop`. A failed attempt whose
object has been put goes through the rollback. -/
def ownStep : Buffer.Action φ → Bool
  | .attemptOk _ | .remove _ _ | .tombstone _ _ _ | .tombstoneFail _ _ _ | .clearTable _
  | .restart _ => false
  | .pool (.attemptFailed t) => decide (t ∉ n.uploads.map Prod.fst)
  | _ => true

def bufferStep (a : Buffer.Action φ) : Option (Node φ) :=
  (n.buffer.step svc.buffer json a).map (fun b => { n with buffer := b })

def putObject (t now : ℕ) : Option (Node φ) :=
  n.buffer.pool.tasks[t]?.bind (fun task =>
    match task.status with
    | .running _ =>
      if t ∈ n.uploads.map Prod.fst then none
      else some { n with
        store := { n.store with
          objects := n.store.objects.insert (objectName task.bufferKey now) (task.rows.map stored) }
        uploads := (t, objectName task.bufferKey now) :: n.uploads }
    | _ => none)

def indexObject (t : ℕ) (name : String) : Option (Node φ) :=
  if (t, name) ∈ n.uploads ∧ svc.redisPool = true then
    n.buffer.pool.tasks[t]?.bind (fun task =>
      match splitSlash task.bufferKey with
      | [tableName, id, day] =>
        (n.buffer.step svc.buffer json (.attemptOk t)).map (fun b =>
          { n with
            buffer := b
            store := { n.store with index := (indexKey tableName id day, name) :: n.store.index }
            uploads := n.uploads.erase (t, name) })
      | _ => none)
  else none

def rollback (t : ℕ) (name : String) (ok : Bool) : Option (Node φ) :=
  if (t, name) ∈ n.uploads then
    (n.buffer.step svc.buffer json (.pool (.attemptFailed t))).map (fun b =>
      { n with
        buffer := b
        store := if ok then { n.store with objects := n.store.objects.erase name } else n.store
        uploads := n.uploads.erase (t, name) })
  else none

def deleteStep (i : ℕ) (e : StepEnv) : Option (Node φ) :=
  n.deletes[i]?.bind (fun c =>
    (c.step svc json e n.toWorld).map (fun r => { n with toWorld := r.1, deletes := n.deletes.set i r.2 }))

def updateStep (i : ℕ) (e : StepEnv) : Option (Node φ) :=
  n.updates[i]?.bind (fun c =>
    (c.step svc json e n.toWorld).map (fun r => { n with toWorld := r.1, updates := n.updates.set i r.2 }))

def dropStep (i : ℕ) (e : StepEnv) : Option (Node φ) :=
  n.drops[i]?.bind (fun c =>
    (c.step svc e n.toWorld).map (fun r => { n with toWorld := r.1, drops := n.drops.set i r.2 }))

def restart (name : ℕ) : Node φ :=
  { buffer := n.buffer.restart svc.buffer name
    store := n.store
    uploads := []
    downloads := []
    deletes := n.deletes.map (fun c => { c with phase := .lost })
    updates := n.updates.map (fun c => { c with phase := .lost })
    drops := n.drops.map (fun c => { c with phase := .lost }) }

def step : Action φ → Option (Node φ)
  | .buffer a => if n.ownStep a then n.bufferStep svc json a else none
  | .putObject t now => n.putObject t now
  | .indexObject t name => n.indexObject svc json t name
  | .rollback t name ok => n.rollback svc json t name ok
  | .download name =>
    if n.store.tempDir.lookup name = none then
      (n.store.objects.lookup name).map (fun rows => { n with downloads := n.downloads ++ [(name, rows)] })
    else none
  | .save i =>
    n.downloads[i]?.map (fun d =>
      { n with
        store := { n.store with tempDir := n.store.tempDir.insert d.1 d.2 }
        downloads := n.downloads.eraseIdx i })
  | .cacheFile name =>
    if svc.redisPool then
      (n.store.tempDir.lookup name).map (fun rows =>
        { n with store := { n.store with fileCache := n.store.fileCache.insert name rows } })
    else none
  | .expire name => some { n with store := { n.store with fileCache := n.store.fileCache.erase name } }
  | .cleanTemp name => some { n with store := { n.store with tempDir := n.store.tempDir.erase name } }
  | .delete table id =>
    some { n with deletes := n.deletes ++ [⟨table, id, 0, [], [], 0, 0, .started⟩] }
  | .deleteStep i e => n.deleteStep svc json i e
  | .update table id timestamp fields =>
    some { n with updates := n.updates ++ [⟨table, id, timestamp, fields, .started⟩] }
  | .updateStep i e => n.updateStep svc json i e
  | .drop table ifExists => some { n with drops := n.drops ++ [⟨table, ifExists, 0, .started⟩] }
  | .dropStep i e => n.dropStep svc i e
  | .restart name => some (n.restart svc name)

def boot (dir : Directory (LogRecord (Payload (Entry φ)))) (name : ℕ) (store : Store φ) : Node φ :=
  { buffer := State.boot svc.buffer dir name
    store := store
    uploads := []
    downloads := []
    deletes := []
    updates := []
    drops := [] }

def tableRows (redisPool : Bool) (n : Node φ) (table : String) : List (StoredRow φ) :=
  (n.buffer.mem.getTableKeys table).flatMap (fun key => (n.buffer.mem.buffer.get key).map stored) ++
    (n.store.tableObjects redisPool table).flatMap (fun name => (n.store.file redisPool name).getD [])

lemma mem_tableRows {redisPool : Bool} {n : Node φ} {table : String} {r : StoredRow φ} :
    r ∈ n.tableRows redisPool table ↔ (∃ k e, (table ++ "/").length < k.length ∧ inTable table k ∧
        e ∈ n.buffer.mem.buffer.get k ∧ stored e = r) ∨
      ∃ name ∈ n.store.tableObjects redisPool table, r ∈ (n.store.file redisPool name).getD [] := by
  rw [tableRows, mem_append, mem_flatMap, mem_flatMap]
  refine or_congr_left ⟨?_, ?_⟩
  · rintro ⟨k, hk, hr⟩
    obtain ⟨e, he, hstored⟩ := mem_map.mp hr
    rw [Mem.getTableKeys, mem_filter, Bool.and_eq_true, decide_eq_true_eq] at hk
    exact ⟨k, e, hk.2.1, hk.2.2, he, hstored⟩
  · rintro ⟨k, e, hlength, htable, he, hstored⟩
    refine ⟨k, ?_, mem_map.mpr ⟨e, he, hstored⟩⟩
    rw [Mem.getTableKeys, mem_filter, RowMap.mem_keys, Bool.and_eq_true, decide_eq_true_eq]
    exact ⟨ne_nil_of_mem he, hlength, htable⟩

end Node

def shop (redisPool : Bool) : ServiceConfig := ⟨oneDay, redisPool, isValidTableName⟩

def storedOrder (id : Option String) : StoredRow Unit := ⟨id, 0, (), 0⟩

def oneObject (name : String) (rows : List (StoredRow Unit)) (ids : List String) : Store Unit where
  objects := AList.singleton name rows
  index := ids.map (fun id => (indexKey "orders" id "2024-01-01", name))
  tempDir := ∅
  fileCache := ∅
  rewrites := ∅

def StepEnv.allOk (next : Option String) : StepEnv :=
  ⟨true, next, none, .refused, some true, fun _ => true⟩

def deleteSteps (choices : List (Option String)) : List (Action Unit) :=
  choices.map (fun next => .deleteStep 0 (.allOk next))

end MinIODB.Service
