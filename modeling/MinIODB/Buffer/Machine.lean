import MinIODB.Buffer.Recovery
import MinIODB.Buffer.Pool

/-!
# The concurrent buffer

The whole component as a transition system. A step is one section under a mutex, one
append to the log, one communication of a flush task, or a crash followed by a new
process on the same log directory; calls in progress keep their local variables between
their steps. Any order of steps is a run.

Rows carry the number of the `Add` call they come from, so that equal rows can be told
apart. The last three fields of the state record history: the flushed objects that the
index lists, the calls whose rows were deleted, and the deleted pairs of table and id.
-/
namespace MinIODB.Buffer
open Wal Option

structure Entry (φ : Type*) where
  tag : ℕ
  row : DataRow φ

/-- Where an `Add` call is: before its append, before it notes the log number, before
its rollback, before the check of `needFlush`, inside its `triggerFlush`, returned
without and with an error, or lost with its process. -/
inductive AddPhase where
  | appending
  | recording
  | rollingBack
  | written
  | flushing (task : ℕ)
  | returned
  | failed
  | lost
  deriving DecidableEq

structure AddCall (φ : Type*) where
  row : DataRow φ
  key : String
  insertIdx : ℕ
  needFlush : Bool
  phase : AddPhase
  seqNum : Option ℕ

inductive RecoveryWatch where
  | inactive
  | watching (maxSeqNum : ℕ)
  | drained (maxSeqNum : ℕ)
  | due (maxSeqNum : ℕ)

structure State (φ : Type*) where
  mem : Mem (Entry φ)
  log : RecordLog (Payload (Entry φ))
  walFailCount : ℕ
  walDegraded : Bool
  watch : RecoveryWatch
  adds : List (AddCall φ)
  removing : List (String × String)
  pool : Pool (Entry φ)
  index : List (FlushTask (Entry φ))
  removed : List ℕ
  gone : List (String × String)

inductive Action (φ : Type*) where
  | addInsert (row : DataRow φ)
  | addAppend (i : ℕ) (rotate : Option ℕ)
  | addAppendFail (i : ℕ) (o : FailedAppend)
  | addRecord (i : ℕ)
  | addRollback (i : ℕ)
  | addFlush (i : ℕ)
  | addReturn (i : ℕ)
  | flush (key : String)
  | pool (a : PoolAction)
  | attemptOk (t : ℕ)
  | truncate (t : ℕ) (removable : ℕ → Bool)
  | remove (table id : String)
  | tombstone (table id : String) (rotate : Option ℕ)
  | tombstoneFail (table id : String) (o : FailedAppend)
  | clearTable (table : String)
  | recoveryCheck
  | recoveryTruncate (removable : ℕ → Bool)
  | stop
  | stopFlush
  | restart (name : ℕ)

namespace State

variable {φ : Type*} (cfg : Config) (json : φ → Option φ) (s : State φ)

def triggerFlush (key : String) : State φ × Option ℕ :=
  if s.mem.buffer.get key = [] then (s, none)
  else
    ({ s with
       mem := s.mem.takeRows key
       pool := s.pool.newTask key (s.mem.buffer.get key)
         (if cfg.walEnabled then s.mem.lastFlushedSeq key else 0) },
      some s.pool.tasks.length)

def addInsert (row : DataRow φ) : State φ :=
  { s with
    mem := s.mem.insert (bufferKey cfg row) ⟨s.adds.length, row⟩
    adds := s.adds ++
      [{ row := row
         key := bufferKey cfg row
         insertIdx := (s.mem.buffer.get (bufferKey cfg row)).length
         needFlush := decide (cfg.bufferSize ≤ (s.mem.buffer.get (bufferKey cfg row)).length + 1)
         phase := if cfg.walEnabled && (encoded json row).isSome then .appending else .written
         seqNum := none }]
    gone := s.gone.filter (fun pair => pair ≠ (tableName cfg row, row.id)) }

def addAppend (i : ℕ) (rotate : Option ℕ) (call : AddCall φ) (row : DataRow φ) : State φ :=
  { s with
    log := s.log.append (.data call.key ⟨i, row⟩) rotate
    adds := s.adds.set i { call with phase := .recording, seqNum := some (s.log.seqNum + 1) } }

def addAppendFail (i : ℕ) (o : FailedAppend) (call : AddCall φ) (row : DataRow φ) : State φ :=
  { s with
    log := s.log.appendFail (.data call.key ⟨i, row⟩) o
    walFailCount := s.walFailCount + 1
    walDegraded := s.walDegraded || decide (walFailThreshold ≤ s.walFailCount + 1)
    adds := s.adds.set i
      { call with
        phase := if walFailThreshold ≤ s.walFailCount + 1 then .rollingBack else .written } }

def addRecord (i : ℕ) (call : AddCall φ) : State φ :=
  { s with
    mem := s.mem.recordSeq call.key (call.seqNum.getD 0)
    walFailCount := 0
    walDegraded := false
    adds := s.adds.set i { call with phase := .written } }

def addRollback (i : ℕ) (call : AddCall φ) : State φ :=
  { s with
    mem := s.mem.rollback call.key call.insertIdx
    adds := s.adds.set i { call with phase := .failed } }

def addFlush (i : ℕ) (call : AddCall φ) : State φ :=
  { (s.triggerFlush cfg call.key).1 with
    adds := s.adds.set i
      { call with
        phase :=
          match (s.triggerFlush cfg call.key).2 with
          | some t => .flushing t
          | none => .returned } }

def readyToReturn (call : AddCall φ) : Bool :=
  match call.phase with
  | .written => !call.needFlush
  | .flushing t => s.pool.settled (some t)
  | _ => false

def addReturn (i : ℕ) (call : AddCall φ) : State φ :=
  { s with adds := s.adds.set i { call with phase := .returned } }

def matched (table id : String) : List (Entry φ) :=
  s.mem.buffer.keys.flatMap (fun key =>
    if inTable table key then (s.mem.buffer.get key).filter (fun e => e.row.id == id) else [])

def remove (table id : String) : State φ :=
  if 0 < (s.mem.remove Entry.row table id).2 ∧ cfg.walEnabled = true then
    { s with
      mem := (s.mem.remove Entry.row table id).1
      removing := (table, id) :: s.removing
      removed := s.removed ++ (s.matched table id).map Entry.tag }
  else
    { s with
      mem := (s.mem.remove Entry.row table id).1
      removed := s.removed ++ (s.matched table id).map Entry.tag
      gone := (table, id) :: s.gone }

def tombstone (table id : String) (log : RecordLog (Payload (Entry φ))) : State φ :=
  { s with
    log := log
    removing := s.removing.erase (table, id)
    gone := (table, id) :: s.gone }

def clearTable (table : String) : State φ :=
  { s with
    mem := (s.mem.clearTable table).1
    removed := s.removed ++
      ((s.mem.buffer.keys.filter (inTable table)).flatMap s.mem.buffer.get).map Entry.tag }

def lose (call : AddCall φ) : AddCall φ :=
  { call with
    phase := if call.phase = .returned ∨ call.phase = .failed then call.phase else .lost }

def recovery (name : ℕ) : Recovery (Entry φ) :=
  if cfg.walEnabled then recoverFromWAL Entry.row (replay (RecordLog.new s.log.dir name).dir)
  else Recovery.start

def restart (name : ℕ) : State φ :=
  { s with
    mem := (s.recovery cfg name).mem
    log := if cfg.walEnabled then RecordLog.new s.log.dir name else s.log
    walFailCount := 0
    walDegraded := false
    watch :=
      if 0 < (s.recovery cfg name).recoveryMaxSeqNum then
        .watching (s.recovery cfg name).recoveryMaxSeqNum
      else .inactive
    adds := s.adds.map lose
    removing := []
    pool := Pool.init cfg }

def boot (dir : Directory (LogRecord (Payload (Entry φ)))) (name : ℕ) : State φ :=
  restart cfg
    ⟨Mem.empty, ⟨dir, 0, 0⟩, 0, false, .inactive, [], [], Pool.init cfg, [], [], []⟩ name

def stopFlush (key : String) (keys : List String) : State φ :=
  { (s.triggerFlush cfg key).1 with
    pool := { (s.triggerFlush cfg key).1.pool with
      stop := .flushing keys (s.triggerFlush cfg key).2 } }

def truncateTask (task : FlushTask (Entry φ)) (removable : ℕ → Bool) :
    RecordLog (Payload (Entry φ)) :=
  if cfg.walEnabled = true ∧ 0 < task.maxSeqNum then s.log.truncate task.maxSeqNum removable
  else s.log

def recoveryCheck : Option (State φ) :=
  match s.watch with
  | .watching n =>
    if s.pool.shutdown = false ∧ s.mem.buffer.keys = [] then some { s with watch := .drained n }
    else none
  | .drained n => some { s with watch := if s.pool.queue = [] then .due n else .watching n }
  | _ => none

def step : Action φ → Option (State φ)
  | .addInsert row => some (s.addInsert cfg json row)
  | .addAppend i rotate =>
    s.adds[i]?.bind (fun call =>
      if call.phase = .appending ∧ s.pool.stop ≠ .returned then
        (encoded json call.row).map (s.addAppend i rotate call)
      else none)
  | .addAppendFail i o =>
    s.adds[i]?.bind (fun call =>
      if call.phase = .appending then (encoded json call.row).map (s.addAppendFail i o call)
      else none)
  | .addRecord i =>
    s.adds[i]?.bind (fun call =>
      if call.phase = .recording then some (s.addRecord i call) else none)
  | .addRollback i =>
    s.adds[i]?.bind (fun call =>
      if call.phase = .rollingBack then some (s.addRollback i call) else none)
  | .addFlush i =>
    s.adds[i]?.bind (fun call =>
      if call.phase = .written ∧ call.needFlush = true then some (s.addFlush cfg i call) else none)
  | .addReturn i =>
    s.adds[i]?.bind (fun call =>
      if s.readyToReturn call = true then some (s.addReturn i call) else none)
  | .flush key => some (s.triggerFlush cfg key).1
  | .pool a => (s.pool.step cfg a).map (fun p => { s with pool := p })
  | .attemptOk t =>
    (s.pool.attemptOk t).map (fun r => { s with pool := r.2, index := s.index ++ [r.1] })
  | .truncate t removable =>
    (s.pool.finish t).map (fun r =>
      { s with pool := r.2, log := s.truncateTask cfg r.1 removable })
  | .remove table id => some (s.remove cfg table id)
  | .tombstone table id rotate =>
    if (table, id) ∈ s.removing ∧ s.pool.stop ≠ .returned then
      some (s.tombstone table id (s.log.append (.tombstone table id) rotate))
    else none
  | .tombstoneFail table id o =>
    if (table, id) ∈ s.removing then
      some (s.tombstone table id (s.log.appendFail (.tombstone table id) o))
    else none
  | .clearTable table => some (s.clearTable table)
  | .recoveryCheck => s.recoveryCheck
  | .recoveryTruncate removable =>
    match s.watch with
    | .due n => some { s with log := s.log.truncate (n + 1) removable, watch := .inactive }
    | _ => none
  | .stop =>
    if s.pool.stop = .running then
      some { s with pool := { s.pool with stop := .flushing s.mem.buffer.keys none } }
    else none
  | .stopFlush =>
    match s.pool.stop with
    | .flushing (key :: keys) task =>
      if s.pool.settled task then some (s.stopFlush cfg key keys) else none
    | _ => none
  | .restart name => some (s.restart cfg name)

@[simp] theorem get_triggerFlush (key k : String) : (s.triggerFlush cfg key).1.mem.buffer.get k =
      if k = key then [] else s.mem.buffer.get k := by
  unfold triggerFlush
  split
  · rename_i hnil
    split
    · rename_i hk
      rw [hk, hnil]
    · rfl
  · exact Mem.get_takeRows _ _ _

@[simp] theorem triggerFlush_frame (key : String) :
    (s.triggerFlush cfg key).1.log = s.log ∧ (s.triggerFlush cfg key).1.adds = s.adds ∧
      (s.triggerFlush cfg key).1.index = s.index ∧ (s.triggerFlush cfg key).1.removing = s.removing ∧
      (s.triggerFlush cfg key).1.removed = s.removed ∧ (s.triggerFlush cfg key).1.gone = s.gone := by
  unfold triggerFlush
  split <;> exact ⟨rfl, rfl, rfl, rfl, rfl, rfl⟩

lemma triggerFlush_tasks (key : String) :
    (s.mem.buffer.get key = [] ∧ (s.triggerFlush cfg key).1.pool = s.pool) ∨
      ∃ task, task.bufferKey = key ∧ task.rows = s.mem.buffer.get key ∧
        task.status = .selecting ∧ (s.triggerFlush cfg key).1.pool =
          { s.pool with tasks := s.pool.tasks ++ [task] } := by
  unfold triggerFlush
  split
  · rename_i hnil
    exact .inl ⟨hnil, rfl⟩
  · exact .inr ⟨_, rfl, rfl, rfl, rfl⟩

section
variable (table id : String)

@[simp] theorem remove_mem :
    (s.remove cfg table id).mem = (s.mem.remove Entry.row table id).1 := by
  unfold remove
  split <;> rfl

@[simp] theorem remove_log : (s.remove cfg table id).log = s.log := by
  unfold remove
  split <;> rfl

@[simp] theorem remove_adds : (s.remove cfg table id).adds = s.adds := by
  unfold remove
  split <;> rfl

lemma remove_gone : (s.remove cfg table id).gone =
      if 0 < (s.mem.remove Entry.row table id).2 ∧ cfg.walEnabled = true then s.gone
      else (table, id) :: s.gone := by
  unfold remove
  split <;> rfl

lemma remove_removing : (s.remove cfg table id).removing =
      if 0 < (s.mem.remove Entry.row table id).2 ∧ cfg.walEnabled = true then
        (table, id) :: s.removing else s.removing := by
  unfold remove
  split <;> rfl

end

end State

section
variable {φ : Type*} (cfg : Config) (json : φ → Option φ)

inductive Step : State φ → Action φ → State φ → Prop where
  | addInsert (s row) : Step s (.addInsert row) (s.addInsert cfg json row)
  | addAppend (s i rotate call row) (hcall : s.adds[i]? = some call)
      (hphase : call.phase = .appending) (hrow : encoded json call.row = some row) :
      Step s (.addAppend i rotate) (s.addAppend i rotate call row)
  | addAppendFail (s i o call row) (hcall : s.adds[i]? = some call)
      (hphase : call.phase = .appending) (hrow : encoded json call.row = some row) :
      Step s (.addAppendFail i o) (s.addAppendFail i o call row)
  | addRecord (s i call) (hcall : s.adds[i]? = some call) (hphase : call.phase = .recording) :
      Step s (.addRecord i) (s.addRecord i call)
  | addRollback (s i call) (hcall : s.adds[i]? = some call) (hphase : call.phase = .rollingBack) :
      Step s (.addRollback i) (s.addRollback i call)
  | addFlush (s i call) (hcall : s.adds[i]? = some call) (hphase : call.phase = .written) :
      Step s (.addFlush i) (s.addFlush cfg i call)
  | addReturn (s i call) (hcall : s.adds[i]? = some call) (hready : s.readyToReturn call = true) :
      Step s (.addReturn i) (s.addReturn i call)
  | flush (s key) : Step s (.flush key) (s.triggerFlush cfg key).1
  | pool (s a p) (hpool : s.pool.step cfg a = some p) : Step s (.pool a) { s with pool := p }
  | attemptOk (s t task p) (hpool : s.pool.attemptOk t = some (task, p)) :
      Step s (.attemptOk t) { s with pool := p, index := s.index ++ [task] }
  | truncate (s t removable task p) (hpool : s.pool.finish t = some (task, p)) :
      Step s (.truncate t removable) { s with pool := p, log := s.truncateTask cfg task removable }
  | remove (s table id) : Step s (.remove table id) (s.remove cfg table id)
  | tombstone (s table id rotate) (hcall : (table, id) ∈ s.removing) :
      Step s (.tombstone table id rotate)
        (s.tombstone table id (s.log.append (.tombstone table id) rotate))
  | tombstoneFail (s table id o) (hcall : (table, id) ∈ s.removing) :
      Step s (.tombstoneFail table id o)
        (s.tombstone table id (s.log.appendFail (.tombstone table id) o))
  | clearTable (s table) : Step s (.clearTable table) (s.clearTable table)
  | recoveryCheck (s watch) : Step s .recoveryCheck { s with watch := watch }
  | recoveryTruncate (s removable n) (hwatch : s.watch = .due n) :
      Step s (.recoveryTruncate removable)
        { s with log := s.log.truncate (n + 1) removable, watch := .inactive }
  | stop (s keys) (hstop : s.pool.stop = .running) :
      Step s .stop { s with pool := { s.pool with stop := .flushing keys none } }
  | stopFlush (s key keys task) (hstop : s.pool.stop = .flushing (key :: keys) task)
      (hsettled : s.pool.settled task = true) : Step s .stopFlush (s.stopFlush cfg key keys)
  | restart (s name) : Step s (.restart name) (s.restart cfg name)

variable {cfg json}

lemma Step.of_step {s t : State φ} {a : Action φ} (h : s.step cfg json a = some t) :
    Step cfg json s a t := by
  cases a with
    simp only [State.step, bind_eq_some_iff, ite_none_right_eq_some, map_eq_some_iff, some.injEq] at h
  | addInsert row =>
    cases h
    exact .addInsert s row
  | addAppend i rotate =>
    obtain ⟨call, hcall, ⟨hphase, _⟩, row, hrow, rfl⟩ := h
    exact .addAppend s i rotate call row hcall hphase hrow
  | addAppendFail i o =>
    obtain ⟨call, hcall, hphase, row, hrow, rfl⟩ := h
    exact .addAppendFail s i o call row hcall hphase hrow
  | addRecord i =>
    obtain ⟨call, hcall, hphase, rfl⟩ := h
    exact .addRecord s i call hcall hphase
  | addRollback i =>
    obtain ⟨call, hcall, hphase, rfl⟩ := h
    exact .addRollback s i call hcall hphase
  | addFlush i =>
    obtain ⟨call, hcall, ⟨hphase, _⟩, rfl⟩ := h
    exact .addFlush s i call hcall hphase
  | addReturn i =>
    obtain ⟨call, hcall, hready, rfl⟩ := h
    exact .addReturn s i call hcall hready
  | flush key =>
    cases h
    exact .flush s key
  | pool a =>
    obtain ⟨p, hp, rfl⟩ := h
    exact .pool s a p hp
  | attemptOk t =>
    obtain ⟨⟨task, p⟩, hp, rfl⟩ := h
    exact .attemptOk s t task p hp
  | truncate t removable =>
    obtain ⟨⟨task, p⟩, hp, rfl⟩ := h
    exact .truncate s t removable task p hp
  | remove table id =>
    cases h
    exact .remove s table id
  | tombstone table id rotate =>
    obtain ⟨⟨hcall, _⟩, rfl⟩ := h
    exact .tombstone s table id rotate hcall
  | tombstoneFail table id o =>
    obtain ⟨hcall, rfl⟩ := h
    exact .tombstoneFail s table id o hcall
  | clearTable table =>
    cases h
    exact .clearTable s table
  | recoveryCheck =>
    simp only [State.recoveryCheck] at h
    split at h
    · obtain ⟨_, rfl⟩ := ite_some_none_eq_some.mp h
      exact .recoveryCheck s _
    · cases h
      exact .recoveryCheck s _
    · cases h
  | recoveryTruncate removable =>
    split at h <;> cases h
    · rename_i n hwatch
      exact .recoveryTruncate s removable n hwatch
  | stop =>
    obtain ⟨hstop, rfl⟩ := h
    exact .stop s _ hstop
  | stopFlush =>
    split at h
    · rename_i key keys task hstop
      obtain ⟨hsettled, rfl⟩ := ite_some_none_eq_some.mp h
      exact .stopFlush s key keys task hstop hsettled
    · cases h
  | restart name =>
    cases h
    exact .restart s name

end

def order (id : String) : DataRow Unit := ⟨id, 0, "orders", ()⟩

def addOk (i : ℕ) (row : DataRow Unit) (rotate : Option ℕ) : List (Action Unit) :=
  [.addInsert row, .addAppend i rotate, .addRecord i, .addReturn i]

def threeFailures : List (Action Unit) :=
  [.addInsert (order "u1"), .addAppendFail 0 .refused, .addInsert (order "u1"),
    .addAppendFail 1 .refused, .addInsert (order "u1"), .addAppendFail 2 .refused]

end MinIODB.Buffer
