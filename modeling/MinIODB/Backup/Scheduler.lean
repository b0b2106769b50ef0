import Mathlib.Data.Finmap
import MinIODB.Library.Transition

/-!
# The backup scheduler

The scheduler keeps three tables: its plans, the entries of the cron library, and
`entryIDs`, which says which entry runs which plan. Plans are also written to a store
in Redis with an in-memory fallback, from which `Start` loads the enabled ones.

Reachability of Redis, the clock and the order in which Go ranges over a map are chosen
by the environment with every call. The syntax of cron expressions is a parameter.
-/
namespace MinIODB.Backup
open List

inductive BackupType
  | full
  | table
  | metadata
  | other (name : String)
  deriving DecidableEq

structure BackupSchedule where
  id : String
  name : String := ""
  enabled : Bool := true
  interval : Int := 0
  cronExpr : String := ""
  backupType : BackupType := .metadata
  tables : List String := []
  retentionDays : Int := 0
  system : Bool := false
  createdAt : Option Int := none
  updatedAt : Option Int := none

def clonePlan (plan : BackupSchedule) : BackupSchedule :=
  { id := plan.id
    name := plan.name
    enabled := plan.enabled
    interval := plan.interval
    cronExpr := plan.cronExpr
    backupType := plan.backupType
    tables := plan.tables
    retentionDays := plan.retentionDays
    createdAt := plan.createdAt
    updatedAt := plan.updatedAt }

@[simp] theorem clonePlan_id (plan : BackupSchedule) : (clonePlan plan).id = plan.id := rfl

structure PlanStore where
  redis : List BackupSchedule := []
  fallback : List BackupSchedule := []

def isPlanID (id : String) : Bool :=
  let cs := id.toList
  cs.all (fun c => c.isAlphanum || c == '-') &&
    cs.head?.any Char.isAlphanum && cs.getLast?.any Char.isAlphanum

def validatePlanID (id : String) : Bool :=
  decide (id.utf8ByteSize ≤ 64) && isPlanID id

def replacePlan (plans : List BackupSchedule) (plan : BackupSchedule) : List BackupSchedule :=
  plan :: plans.filter (fun p => decide (p.id ≠ plan.id))

def PlanStore.savePlan (store : PlanStore) (redisUp : Bool) (now : Int)
    (plan : BackupSchedule) : PlanStore :=
  if validatePlanID plan.id then
    let stamped := { plan with
      createdAt := some (plan.createdAt.getD now), updatedAt := some now }
    if redisUp then { store with redis := replacePlan store.redis stamped }
    else { store with fallback := replacePlan store.fallback stamped }
  else store

def PlanStore.deletePlan (store : PlanStore) (redisUp : Bool) (id : String) : PlanStore :=
  if validatePlanID id then
    if redisUp then { store with redis := store.redis.filter (fun p => decide (p.id ≠ id)) }
    else { store with fallback := store.fallback.filter (fun p => decide (p.id ≠ id)) }
  else store

def PlanStore.listPlans (store : PlanStore) (redisUp : Bool) : List BackupSchedule :=
  if redisUp then store.redis else store.fallback

inductive Timing
  | cron (spec : String)
  | every (interval : Int)

structure Entry where
  id : Nat
  schedule : Timing
  plan : BackupSchedule

structure Cron where
  entries : List Entry := []
  nextID : Nat := 0
  running : Bool := false
  bounded : ∀ e ∈ entries, e.id ≤ nextID := by simp
  distinct : (entries.map (·.id)).Nodup := by simp

def Cron.schedule (c : Cron) (timing : Timing) (plan : BackupSchedule) : Cron :=
  { c with
    entries := c.entries ++ [⟨c.nextID + 1, timing, plan⟩]
    nextID := c.nextID + 1
    bounded := by
      intro e he
      rcases List.mem_append.mp he with he | he
      · exact Nat.le_succ_of_le (c.bounded e he)
      · rw [List.mem_singleton.mp he]
    distinct := by
      rw [List.map_append]
      refine List.Nodup.append c.distinct (List.nodup_singleton _) ?_
      intro id hid hnew
      obtain ⟨e, he, rfl⟩ := List.mem_map.mp hid
      have hlast : e.id = c.nextID + 1 := by simpa using hnew
      have hbound := c.bounded e he
      omega }

def Cron.remove (c : Cron) (id : Nat) : Cron :=
  { c with
    entries := c.entries.filter (fun e => decide (e.id ≠ id))
    bounded := fun e he => c.bounded e (List.mem_of_mem_filter he)
    distinct := c.distinct.sublist (List.filter_sublist.map _) }

def Cron.setRunning (c : Cron) (running : Bool) : Cron := { c with running := running }

structure CronSyntax where
  parse : String → Bool
  parseStandard : String → Bool

inductive SchedulerError
  /-- "scheduler already running" -/
  | alreadyRunning
  /-- "plan is nil" -/
  | planIsNil
  /-- "plan ID is required" -/
  | planIDRequired
  /-- "invalid cron expression '…'" -/
  | invalidCron (expr : String)
  /-- "plan must have either cron_expr or interval" -/
  | noSchedule
  /-- `ErrPlanAlreadyExists` -/
  | planAlreadyExists
  /-- "plan not found: …" -/
  | planNotFound (id : String)
  /-- "cannot remove system plan …, use disable instead" -/
  | systemPlan (id : String)
  deriving DecidableEq

structure Scheduler where
  plans : Finmap (fun _ : String => BackupSchedule) := ∅
  entryIDs : Finmap (fun _ : String => Nat) := ∅
  cron : Cron := {}
  running : Bool := false
  store : Option PlanStore := none

def newScheduler (store : Option PlanStore) : Scheduler := { store := store }

variable (cs : CronSyntax)

def planTiming (plan : BackupSchedule) : Except SchedulerError Timing :=
  if plan.cronExpr ≠ "" then
    if cs.parse plan.cronExpr || cs.parseStandard plan.cronExpr then .ok (.cron plan.cronExpr)
    else .error (.invalidCron plan.cronExpr)
  else if 0 < plan.interval then .ok (.every plan.interval)
  else .error .noSchedule

namespace Scheduler

def schedulePlan (s : Scheduler) (plan : BackupSchedule) : Except SchedulerError Scheduler :=
  if plan.enabled then
    match planTiming cs plan with
    | .error err => .error err
    | .ok timing =>
      .ok { s with
        cron := s.cron.schedule timing (clonePlan plan)
        entryIDs := s.entryIDs.insert plan.id (s.cron.nextID + 1) }
  else .ok s

def unschedule (s : Scheduler) (id : String) : Scheduler :=
  match s.entryIDs.lookup id with
  | some entryID => { s with cron := s.cron.remove entryID, entryIDs := s.entryIDs.erase id }
  | none => s

def displace (s : Scheduler) (id : String) : Scheduler :=
  match s.plans.lookup id with
  | some existing => if s.running && existing.enabled then s.unschedule id else s
  | none => s

def loadPlans (s : Scheduler) (redisUp : Bool) : Finmap (fun _ : String => BackupSchedule) :=
  match s.store with
  | none => s.plans
  | some store =>
    (store.listPlans redisUp).foldl
      (fun plans plan => if plan.enabled then plans.insert plan.id plan else plans) s.plans

def scheduleStored (s : Scheduler) (id : String) : Scheduler :=
  match s.plans.lookup id with
  | none => s
  | some plan =>
    match s.schedulePlan cs plan with
    | .ok s' => s'
    | .error _ => s

def start (s : Scheduler) (redisUp : Bool) (order : List String) :
    Scheduler × Option SchedulerError :=
  if s.running then (s, some .alreadyRunning)
  else
    let s := order.foldl (scheduleStored cs) { s with plans := s.loadPlans redisUp }
    ({ s with cron := s.cron.setRunning true, running := true }, none)

def stop (s : Scheduler) : Scheduler :=
  if s.running then
    { s with cron := s.cron.setRunning false, entryIDs := ∅, running := false }
  else s

def putPlan (s : Scheduler) (redisUp : Bool) (now : Int) (plan : BackupSchedule) : Scheduler :=
  { s with
    plans := s.plans.insert plan.id (clonePlan plan)
    store := s.store.map (fun store => store.savePlan redisUp now plan) }

def scheduleAndPut (s : Scheduler) (redisUp : Bool) (now : Int) (plan : BackupSchedule) :
    Scheduler × Option SchedulerError :=
  if plan.enabled && s.running then
    match s.schedulePlan cs plan with
    | .error err => (s, some err)
    | .ok s' => (s'.putPlan redisUp now plan, none)
  else (s.putPlan redisUp now plan, none)

def addPlan (s : Scheduler) (redisUp : Bool) (now : Int) :
    Option BackupSchedule → Scheduler × Option SchedulerError
  | none => (s, some .planIsNil)
  | some plan =>
    if plan.id = "" then (s, some .planIDRequired)
    else (s.displace plan.id).scheduleAndPut cs redisUp now plan

def addPlanIfAbsent (s : Scheduler) (redisUp : Bool) (now : Int) :
    Option BackupSchedule → Scheduler × Option SchedulerError
  | none => (s, some .planIsNil)
  | some plan =>
    if plan.id = "" then (s, some .planIDRequired)
    else
      match s.plans.lookup plan.id with
      | some _ => (s, some .planAlreadyExists)
      | none => s.scheduleAndPut cs redisUp now plan

def dropPlan (s : Scheduler) (redisUp : Bool) (id : String) : Scheduler :=
  { s with
    plans := s.plans.erase id
    store := s.store.map (fun store => store.deletePlan redisUp id) }

def removePlan (s : Scheduler) (redisUp : Bool) (id : String) :
    Scheduler × Option SchedulerError :=
  match s.plans.lookup id with
  | none => (s, some (.planNotFound id))
  | some plan =>
    if plan.system then (s, some (.systemPlan id))
    else ((s.displace id).dropPlan redisUp id, none)

def listPlans (s : Scheduler) (order : List String) : List BackupSchedule :=
  order.filterMap s.plans.lookup

end Scheduler

inductive Call
  | start (redisUp : Bool) (order : List String)
  | stop
  | addPlan (redisUp : Bool) (now : Int) (plan : Option BackupSchedule)
  | addPlanIfAbsent (redisUp : Bool) (now : Int) (plan : Option BackupSchedule)
  | removePlan (redisUp : Bool) (id : String)

def Visits (order : List String) (plans : Finmap (fun _ : String => BackupSchedule)) : Prop :=
  order.Nodup ∧ order.toFinset = plans.keys

instance (order : List String) (plans : Finmap (fun _ : String => BackupSchedule)) :
    Decidable (Visits order plans) :=
  inferInstanceAs (Decidable (_ ∧ _))

def Scheduler.perform (s : Scheduler) : Call → Scheduler × Option SchedulerError
  | .start redisUp order => s.start cs redisUp order
  | .stop => (s.stop, none)
  | .addPlan redisUp now plan => s.addPlan cs redisUp now plan
  | .addPlanIfAbsent redisUp now plan => s.addPlanIfAbsent cs redisUp now plan
  | .removePlan redisUp id => s.removePlan redisUp id

def Scheduler.possible (s : Scheduler) : Call → Bool
  | .start redisUp order => decide (Visits order (s.loadPlans redisUp))
  | _ => true

def Scheduler.step (s : Scheduler) (call : Call) : Option Scheduler :=
  if s.possible call then some (s.perform cs call).1 else none

end MinIODB.Backup
