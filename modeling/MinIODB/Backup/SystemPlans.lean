import MinIODB.Backup.Entries

/-!
# System plans

A plan with `System = true` is meant to be removable by nobody. The flag is dropped by
`clonePlan`, and with it from the scheduler's own copy of every plan that is added, and by
`UnmarshalYAML`. It survives in the store of plans, from which `Start` loads it again.

The model adds to the scheduler the dashboard's update of a plan, the `backup` section of the
configuration with its file, and the start of the process. `backup.enabled` is set: without
it there is no scheduler.
-/
namespace MinIODB.Backup
open List Option Finmap

structure BackupConfig where
  interval : Int := 0
  metadataEnabled : Bool := true
  metadataInterval : Int := 0
  metadataRetentionDays : Int := 0
  schedules : List BackupSchedule := []

def unmarshalYAML (doc : BackupSchedule) : BackupSchedule :=
  { id := doc.id
    name := doc.name
    enabled := doc.enabled
    interval := doc.interval
    cronExpr := doc.cronExpr
    backupType := doc.backupType
    tables := doc.tables
    retentionDays := doc.retentionDays
    createdAt := doc.createdAt
    updatedAt := doc.updatedAt }

def migrateBackupSchedule (now : Int) (cfg : BackupConfig) : BackupConfig :=
  if cfg.schedules = [] ∧ 0 < cfg.interval then
    { cfg with schedules :=
      [{ id := "default"
         name := "Default Backup Schedule"
         enabled := true
         interval := cfg.interval * 1000000000
         backupType := .metadata
         tables := []
         retentionDays := cfg.metadataRetentionDays
         createdAt := some now
         updatedAt := some now }] }
  else cfg

def loadConfig (now : Int) (file : BackupConfig) : BackupConfig :=
  migrateBackupSchedule now { file with schedules := file.schedules.map unmarshalYAML }

def injectSystemPlans (cfg : BackupConfig) : BackupConfig :=
  if cfg.schedules.all (fun p => decide (p.backupType ≠ .metadata)) && cfg.metadataEnabled then
    { cfg with schedules := cfg.schedules ++
      [{ id := "system-metadata-backup"
         name := "System Metadata Backup"
         enabled := true
         backupType := .metadata
         interval := if cfg.metadataInterval ≤ 0 then 1800000000000 else cfg.metadataInterval
         retentionDays := 7
         system := true }] }
  else cfg

def nameSchedules (schedules : List BackupSchedule) : List BackupSchedule :=
  schedules.mapIdx (fun i p => if p.id = "" then { p with id := s!"schedule-{i}" } else p)

def startConfig (now : Int) (file : BackupConfig) : BackupConfig :=
  let cfg := injectSystemPlans (loadConfig now file)
  { cfg with schedules := nameSchedules cfg.schedules }

structure UpdateRequest where
  name : Option String := none
  enabled : Option Bool := none
  cronExpr : Option String := none
  interval : Option (Option Int) := none
  backupType : Option BackupType := none
  tables : Option (List String) := none
  retentionDays : Option Int := none

def UpdateRequest.edit (req : UpdateRequest) (now : Int) (plan : BackupSchedule) :
    Option BackupSchedule :=
  match req.interval, req.backupType with
  | some none, _ => none
  | _, some (.other _) => none
  | interval, backupType =>
    some { plan with
      name := req.name.getD plan.name
      enabled := req.enabled.getD plan.enabled
      cronExpr := req.cronExpr.getD plan.cronExpr
      interval := (interval.getD none).getD plan.interval
      backupType := backupType.getD plan.backupType
      tables := req.tables.getD plan.tables
      retentionDays := req.retentionDays.getD plan.retentionDays
      updatedAt := some now }

def updatedPlan (s : Scheduler) (order : List String) (now : Int) (id : String)
    (req : UpdateRequest) : Option BackupSchedule :=
  if id = "" then none
  else ((s.listPlans order).find? (fun p => decide (p.id = id))).bind (req.edit now)

structure Deployment where
  file : BackupConfig
  cfg : BackupConfig
  scheduler : Scheduler
  everSystem : List String := []

inductive Operation
  /-- A call of the scheduler's API. -/
  | call (call : Call)
  /-- `updateBackupPlan` of the dashboard. -/
  | update (redisUp : Bool) (now : Int) (order : List String) (id : String) (req : UpdateRequest)
  /-- `SaveToFile`. -/
  | save
  /-- The process starts anew: `LoadConfig` and `InitBackup`. -/
  | reload (redisUp : Bool) (now : Int) (order : List String)

def noteSystem (ids : List String) (plan : Option BackupSchedule) (err : Option SchedulerError) :
    List String :=
  match plan, err with
  | some plan, none => if plan.system then plan.id :: ids else ids
  | _, _ => ids

def Call.added : Call → Option BackupSchedule
  | .addPlan _ _ plan => plan
  | .addPlanIfAbsent _ _ plan => plan
  | _ => none

/-- A plan offered to `AddPlan` is no danger to the flag: when it is a system plan, or bears
the identifier of one, it carries the flag, the store takes it and the scheduler is stopped,
so that the next `Start` loads it. -/
def AddOk (running : Bool) (everSystem : List String) (redisUp : Bool) (plan : BackupSchedule) :
    Prop :=
  plan.system = true ∨ plan.id ∈ everSystem →
    running = false ∧ redisUp = true ∧
      plan.system = true ∧ plan.enabled = true ∧ validatePlanID plan.id = true

variable (cs : CronSyntax)

namespace Deployment

def addSchedule (redisUp : Bool) (now : Int) (d : Deployment) (plan : BackupSchedule) :
    Deployment :=
  let r := d.scheduler.addPlan cs redisUp now (some plan)
  { d with scheduler := r.1, everSystem := noteSystem d.everSystem (some plan) r.2 }

def newProcess (d : Deployment) (now : Int) : Deployment :=
  { d with
    cfg := startConfig now d.file
    scheduler := newScheduler (d.scheduler.store.map (fun store => { redis := store.redis })) }

def initBackup (d : Deployment) (redisUp : Bool) (now : Int) : Deployment :=
  (startConfig now d.file).schedules.foldl (addSchedule cs redisUp now) (d.newProcess now)

def step (d : Deployment) : Operation → Option Deployment
  | .call call =>
    if d.scheduler.possible call then
      let r := d.scheduler.perform cs call
      some { d with scheduler := r.1, everSystem := noteSystem d.everSystem call.added r.2 }
    else none
  | .update redisUp now order id req =>
    if Visits order d.scheduler.plans then
      match updatedPlan d.scheduler order now id req with
      | none => some d
      | some plan => some (d.addSchedule cs redisUp now plan)
    else none
  | .save => some { d with file := d.cfg }
  | .reload redisUp now order =>
    let d' := d.initBackup cs redisUp now
    if Visits order (d'.scheduler.loadPlans redisUp) then
      some { d' with scheduler := (d'.scheduler.start cs redisUp order).1 }
    else none

def Safe (d : Deployment) : Operation → Prop
  | .call (.addPlan redisUp _ (some plan)) => AddOk d.scheduler.running d.everSystem redisUp plan
  | .call (.addPlanIfAbsent redisUp _ (some plan)) => plan.system = true →
    AddOk d.scheduler.running d.everSystem redisUp plan
  | .call (.removePlan _ id) => id ∈ d.everSystem → d.scheduler.running = true
  | .call (.start redisUp _) => d.scheduler.running = true ∨ redisUp = true
  | .update redisUp now order id req =>
    ∀ plan, updatedPlan d.scheduler order now id req = some plan →
      AddOk d.scheduler.running d.everSystem redisUp plan
  | .reload redisUp now _ => redisUp = true ∧
    ∀ plan ∈ (startConfig now d.file).schedules,
      (plan.id ∈ d.everSystem ∨
        ∃ q ∈ (startConfig now d.file).schedules, q.system = true ∧ q.id = plan.id) →
      plan.system = true ∧ plan.enabled = true ∧ validatePlanID plan.id = true
  | _ => True

end Deployment

variable {cs} {s s' : Scheduler} {d d' : Deployment} {id : String} {plan : BackupSchedule}
  {redisUp : Bool} {now : Int}

def StoredAsSystem (plans : List BackupSchedule) (id : String) : Prop :=
  (∃ p ∈ plans, p.id = id) ∧ ∀ p ∈ plans, p.id = id → p.system = true ∧ p.enabled = true

lemma storedAsSystem_replacePlan (plans : List BackupSchedule) (hsys : plan.system)
    (hen : plan.enabled) : StoredAsSystem (replacePlan plans plan) plan.id := by
  refine ⟨⟨plan, mem_cons_self, rfl⟩, fun p hp hid => ?_⟩
  rcases mem_cons.mp hp with rfl | hp
  · exact ⟨hsys, hen⟩
  · exact absurd hid (of_decide_eq_true (mem_filter.mp hp).2)

lemma StoredAsSystem.filter_ne {plans : List BackupSchedule} {other : String}
    (h : StoredAsSystem plans id) (hne : id ≠ other) :
    StoredAsSystem (plans.filter (fun p => decide (p.id ≠ other))) id := by
  obtain ⟨⟨p, hp, hid⟩, hall⟩ := h
  refine ⟨⟨p, mem_filter.mpr ⟨hp, ?_⟩, hid⟩, fun q hq => hall q (mem_of_mem_filter hq)⟩
  simpa [hid] using hne

lemma StoredAsSystem.replacePlan {plans : List BackupSchedule} (h : StoredAsSystem plans id)
    (hne : id ≠ plan.id) : StoredAsSystem (Backup.replacePlan plans plan) id := by
  obtain ⟨⟨p, hp, hid⟩, hall⟩ := h.filter_ne hne
  refine ⟨⟨p, .tail _ hp, hid⟩, fun q hq hqid => ?_⟩
  rcases mem_cons.mp hq with rfl | hq
  · exact absurd hqid.symm hne
  · exact hall q hq hqid

namespace Scheduler

def Stored (s : Scheduler) (id : String) : Prop :=
  ∃ store, s.store = some store ∧ StoredAsSystem store.redis id

lemma Stored.putPlan_of_ne (h : s.Stored id) (hne : id ≠ plan.id) :
    (s.putPlan redisUp now plan).Stored id := by
  obtain ⟨store, hstore, hplans⟩ := h
  refine ⟨store.savePlan redisUp now plan, by simp [putPlan, hstore], ?_⟩
  unfold PlanStore.savePlan
  split
  case isFalse => exact hplans
  case isTrue =>
    cases redisUp with
    | false => exact hplans
    | true => exact hplans.replacePlan hne

lemma stored_putPlan (hstore : s.store ≠ none) (hsys : plan.system)
    (hen : plan.enabled) (hid : validatePlanID plan.id) :
    (s.putPlan true now plan).Stored plan.id := by
  obtain ⟨store, hstore⟩ := ne_none_iff_exists'.mp hstore
  refine ⟨store.savePlan true now plan, by simp [putPlan, hstore], ?_⟩
  rw [PlanStore.savePlan, if_pos hid]
  exact storedAsSystem_replacePlan store.redis hsys hen

lemma Stored.congr (h : s.Stored id) (hstore : s'.store = s.store) : s'.Stored id := by
  rwa [Stored, hstore]

variable (cs) in
lemma scheduleAndPut_cases (s : Scheduler) (redisUp : Bool) (now : Int) (plan : BackupSchedule) :
    ((s.scheduleAndPut cs redisUp now plan).2 ≠ none ∧
      (s.scheduleAndPut cs redisUp now plan).1 = s) ∨
    ((s.scheduleAndPut cs redisUp now plan).2 = none ∧
      ∃ t : Scheduler, t.plans = s.plans ∧ t.running = s.running ∧ t.store = s.store ∧
        (s.scheduleAndPut cs redisUp now plan).1 = t.putPlan redisUp now plan) := by
  unfold scheduleAndPut
  split
  case isFalse => exact .inr ⟨rfl, s, rfl, rfl, rfl, rfl⟩
  case isTrue =>
    split
    case h_1 => exact .inl ⟨by simp, rfl⟩
    case h_2 t ht =>
      obtain ⟨hplans, hrun, hstore⟩ := schedulePlan_plans ht
      exact .inr ⟨rfl, t, hplans, hrun, hstore, rfl⟩

variable (cs) in
lemma addPlan_cases (s : Scheduler) (redisUp : Bool) (now : Int) (plan : BackupSchedule) :
    ∃ t : Scheduler, t.plans = s.plans ∧ t.running = s.running ∧ t.store = s.store ∧
      (((s.addPlan cs redisUp now (some plan)).2 ≠ none ∧
        (s.addPlan cs redisUp now (some plan)).1 = t) ∨
      ((s.addPlan cs redisUp now (some plan)).2 = none ∧
        (s.addPlan cs redisUp now (some plan)).1 = t.putPlan redisUp now plan)) := by
  rw [addPlan]
  split
  case isTrue => exact ⟨s, rfl, rfl, rfl, .inl ⟨by simp, rfl⟩⟩
  case isFalse =>
    obtain ⟨hplans, hrun, hstore⟩ := displace_plans s plan.id
    rcases (s.displace plan.id).scheduleAndPut_cases cs redisUp now plan with
      ⟨herr, hsame⟩ | ⟨hok, t, ht, hr, hst, heq⟩
    · exact ⟨_, hplans, hrun, hstore, .inl ⟨herr, hsame⟩⟩
    · exact ⟨t, ht.trans hplans, hr.trans hrun, hst.trans hstore, .inr ⟨hok, heq⟩⟩

lemma lookup_foldl_storedAsSystem (stored : List BackupSchedule)
    {plans : Finmap (fun _ : String => BackupSchedule)}
    (hall : ∀ p ∈ stored, p.id = id → p.system ∧ p.enabled)
    (hsome : (∃ p ∈ stored, p.id = id) ∨ ∃ p, plans.lookup id = some p ∧ p.system) :
    ∃ p, (stored.foldl (fun plans plan =>
      if plan.enabled then plans.insert plan.id plan else plans) plans).lookup id = some p ∧
      p.system := by
  induction stored generalizing plans with
  | nil => simpa using hsome
  | cons q stored ih =>
    rw [foldl_cons]
    have hrest := fun p hp => hall p (mem_cons_of_mem q hp)
    by_cases hid : q.id = id
    · obtain ⟨hsys, hen⟩ := hall q (.head _) hid
      rw [if_pos hen]
      exact ih hrest (.inr ⟨q, by rw [← hid, lookup_insert], hsys⟩)
    · refine ih hrest ?_
      rcases hsome with ⟨p, hp, hpid⟩ | ⟨p, hp, hsys⟩
      · rcases mem_cons.mp hp with rfl | hp
        · exact absurd hpid hid
        · exact .inl ⟨p, hp, hpid⟩
      · refine .inr ⟨p, ?_, hsys⟩
        split
        case isTrue => rwa [lookup_insert_of_ne _ (Ne.symm hid)]
        case isFalse => exact hp

lemma Stored.lookup_loadPlans (h : s.Stored id) :
    ∃ p, (s.loadPlans true).lookup id = some p ∧ p.system := by
  obtain ⟨store, hstore, hsome, hall⟩ := h
  unfold loadPlans
  rw [hstore]
  exact lookup_foldl_storedAsSystem _ hall (.inl hsome)

lemma scheduleStored_store (s : Scheduler) (id : String) :
    (s.scheduleStored cs id).store = s.store := by
  unfold scheduleStored
  split
  case h_1 => rfl
  case h_2 plan hplan =>
    split
    case h_1 s' hs' => exact (schedulePlan_plans hs').2.2
    case h_2 => rfl

lemma foldl_scheduleStored_store (order : List String) (s : Scheduler) :
    (order.foldl (scheduleStored cs) s).store = s.store := by
  induction order generalizing s with
  | nil => rfl
  | cons id order ih => rw [foldl_cons, ih, scheduleStored_store]

variable (cs) in
lemma start_cases (s : Scheduler) (redisUp : Bool) (order : List String) :
    (s.start cs redisUp order).1 = s ∧ s.running ∨
    ((s.start cs redisUp order).1.plans = s.loadPlans redisUp ∧
      (s.start cs redisUp order).1.store = s.store ∧ s.running = false) := by
  unfold start
  split
  case isTrue hrun => exact .inl ⟨rfl, hrun⟩
  case isFalse hrun =>
    refine .inr ⟨?_, ?_, by simpa using hrun⟩
    · simp [foldl_scheduleStored_plans]
    · simp [foldl_scheduleStored_store]

structure AllStored (s : Scheduler) (ids : List String) : Prop where
  hasStore : s.store ≠ none
  stored : ∀ id ∈ ids, s.Stored id

structure FlagKept (s : Scheduler) (ids : List String) : Prop extends AllStored s ids where
  kept : ∀ id ∈ ids, ∃ p, s.plans.lookup id = some p
  flagged : s.running = true → ∀ id ∈ ids, ∀ p, s.plans.lookup id = some p → p.system = true

variable {ids : List String}

lemma AllStored.congr (h : s.AllStored ids) (hstore : s'.store = s.store) : s'.AllStored ids where
  hasStore := by
    rw [hstore]
    exact h.hasStore
  stored id hid := (h.stored id hid).congr hstore

lemma FlagKept.congr (h : s.FlagKept ids) (hplans : s'.plans = s.plans)
    (hrun : s'.running = s.running) (hstore : s'.store = s.store) : s'.FlagKept ids where
  toAllStored := h.toAllStored.congr hstore
  kept := by
    rw [hplans]
    exact h.kept
  flagged := by
    rw [hplans, hrun]
    exact h.flagged

lemma mem_noteSystem (h : id ∈ noteSystem ids (some plan) none) :
    id ∈ ids ∨ (id = plan.id ∧ plan.system) := by
  rw [noteSystem] at h
  split at h
  case isTrue hsys => exact (mem_cons.mp h).symm.imp_right (fun hid => ⟨hid, hsys⟩)
  case isFalse => exact .inl h

lemma AllStored.putPlan (h : s.AllStored ids) (hok : AddOk s.running ids redisUp plan) :
    (s.putPlan redisUp now plan).AllStored (noteSystem ids (some plan) none) where
  hasStore := by
    obtain ⟨store, hstore⟩ := ne_none_iff_exists'.mp h.hasStore
    simp [Scheduler.putPlan, hstore]
  stored id hid := by
    by_cases hplan : id = plan.id
    · subst hplan
      obtain ⟨-, rfl, hsys, hen, hvalid⟩ :=
        hok ((mem_noteSystem hid).symm.imp_left (fun hnew => hnew.2))
      exact stored_putPlan h.hasStore hsys hen hvalid
    · exact (h.stored id ((mem_noteSystem hid).resolve_right
        (fun hnew => hplan hnew.1))).putPlan_of_ne hplan

lemma FlagKept.putPlan (h : s.FlagKept ids) (hok : AddOk s.running ids redisUp plan) :
    (s.putPlan redisUp now plan).FlagKept (noteSystem ids (some plan) none) where
  toAllStored := h.toAllStored.putPlan hok
  kept id hid := by
    by_cases hplan : id = plan.id
    · exact ⟨clonePlan plan, by rw [hplan, Scheduler.putPlan, lookup_insert]⟩
    · obtain ⟨p, hp⟩ := h.kept id ((mem_noteSystem hid).resolve_right (fun hnew => hplan hnew.1))
      exact ⟨p, by rwa [Scheduler.putPlan, lookup_insert_of_ne _ hplan]⟩
  flagged hrun id hid p hp := by
    by_cases hplan : id = plan.id
    · subst hplan
      have hstopped := (hok ((mem_noteSystem hid).symm.imp_left (fun hnew => hnew.2))).1
      exact absurd (hstopped.symm.trans hrun) Bool.false_ne_true
    · rw [Scheduler.putPlan, lookup_insert_of_ne _ hplan] at hp
      exact h.flagged hrun id
        ((mem_noteSystem hid).resolve_right (fun hnew => hplan hnew.1)) p hp

lemma noteSystem_error {err : Option SchedulerError} (p : Option BackupSchedule)
    (herr : err ≠ none) : noteSystem ids p err = ids := by
  cases p <;> cases err <;> first | rfl | exact absurd rfl herr

lemma FlagKept.addPlan (h : s.FlagKept ids) (hok : AddOk s.running ids redisUp plan) :
    (s.addPlan cs redisUp now (some plan)).1.FlagKept
      (noteSystem ids (some plan) (s.addPlan cs redisUp now (some plan)).2) := by
  obtain ⟨t, hplans, hrun, hstore, ⟨herr, heq⟩ | ⟨hnone, heq⟩⟩ :=
    s.addPlan_cases cs redisUp now plan
  · rw [heq, noteSystem_error _ herr]
    exact h.congr hplans hrun hstore
  · rw [heq, hnone]
    rw [← hrun] at hok
    exact (h.congr hplans hrun hstore).putPlan hok

lemma AllStored.addPlan (h : s.AllStored ids) (hok : AddOk s.running ids redisUp plan) :
    (s.addPlan cs redisUp now (some plan)).1.AllStored
      (noteSystem ids (some plan) (s.addPlan cs redisUp now (some plan)).2) := by
  obtain ⟨t, hplans, hrun, hstore, ⟨herr, heq⟩ | ⟨hnone, heq⟩⟩ :=
    s.addPlan_cases cs redisUp now plan
  · rw [heq, noteSystem_error _ herr]
    exact h.congr hstore
  · rw [heq, hnone]
    rw [← hrun] at hok
    exact (h.congr hstore).putPlan hok

lemma FlagKept.addPlanIfAbsent (h : s.FlagKept ids)
    (hok : plan.system → AddOk s.running ids redisUp plan) :
    (s.addPlanIfAbsent cs redisUp now (some plan)).1.FlagKept
      (noteSystem ids (some plan) (s.addPlanIfAbsent cs redisUp now (some plan)).2) := by
  rw [Scheduler.addPlanIfAbsent]
  split
  case isTrue => exact h
  case isFalse =>
    split
    case h_1 => exact h
    case h_2 habsent =>
      have hadd : AddOk s.running ids redisUp plan := by
        rintro (hsys | hmem)
        · exact hok hsys (.inl hsys)
        · obtain ⟨p, hp⟩ := h.kept plan.id hmem
          rw [habsent] at hp
          cases hp
      rcases s.scheduleAndPut_cases cs redisUp now plan with
        ⟨herr, heq⟩ | ⟨hnone, t, hplans, hrun, hstore, heq⟩
      · rw [heq, noteSystem_error _ herr]
        exact h
      · rw [heq, hnone]
        rw [← hrun] at hadd
        exact (h.congr hplans hrun hstore).putPlan hadd

lemma AllStored.start (h : s.AllStored ids) (hrun : s.running = false) (order : List String) :
    (s.start cs true order).1.FlagKept ids := by
  obtain ⟨-, hrun'⟩ | ⟨hplans, hstore, -⟩ := s.start_cases cs true order
  · exact absurd (hrun.symm.trans hrun') Bool.false_ne_true
  · have hload : ∀ id ∈ ids, ∃ p, (s.start cs true order).1.plans.lookup id = some p ∧
        p.system = true := by
      intro id hid
      rw [hplans]
      exact (h.stored id hid).lookup_loadPlans
    refine ⟨h.congr hstore, fun id hid => ?_, fun _ id hid p hp => ?_⟩
    · obtain ⟨p, hp, -⟩ := hload id hid
      exact ⟨p, hp⟩
    · obtain ⟨q, hq, hsys⟩ := hload id hid
      rw [hp] at hq
      cases hq
      exact hsys

lemma FlagKept.start {order : List String} (h : s.FlagKept ids)
    (hok : s.running ∨ redisUp) : (s.start cs redisUp order).1.FlagKept ids := by
  cases hrun : s.running with
  | true =>
    have hsame : (s.start cs redisUp order).1 = s := by rw [Scheduler.start, if_pos hrun]
    rwa [hsame]
  | false =>
    obtain rfl : redisUp = true := hok.resolve_left (by simp [hrun])
    exact h.toAllStored.start hrun order

lemma FlagKept.stop (h : s.FlagKept ids) : s.stop.FlagKept ids := by
  unfold Scheduler.stop
  split
  case isFalse => exact h
  case isTrue => exact ⟨h.toAllStored.congr rfl, h.kept, fun hrun => by cases hrun⟩

lemma FlagKept.removePlan_refused (h : s.FlagKept ids) (hid : id ∈ ids)
    (hrun : s.running) : s.removePlan redisUp id = (s, some (.systemPlan id)) := by
  obtain ⟨p, hp⟩ := h.kept id hid
  rw [Scheduler.removePlan, hp]
  exact if_pos (h.flagged hrun id hid p hp)

lemma FlagKept.dropPlan (h : s.FlagKept ids) (hid : id ∉ ids) :
    (s.dropPlan redisUp id).FlagKept ids := by
  have hne : ∀ j ∈ ids, j ≠ id := fun j hj heq => hid (heq ▸ hj)
  refine ⟨⟨?_, fun j hj => ?_⟩, fun j hj => ?_, fun hrun j hj p hp => ?_⟩
  · obtain ⟨store, hs⟩ := ne_none_iff_exists'.mp h.hasStore
    simp [Scheduler.dropPlan, hs]
  · obtain ⟨store, hs, hsys⟩ := h.stored j hj
    refine ⟨store.deletePlan redisUp id, by simp [Scheduler.dropPlan, hs], ?_⟩
    unfold PlanStore.deletePlan
    split
    case isFalse => exact hsys
    case isTrue =>
      cases redisUp with
      | false => exact hsys
      | true => exact hsys.filter_ne (hne j hj)
  · obtain ⟨p, hp⟩ := h.kept j hj
    exact ⟨p, by rwa [Scheduler.dropPlan, lookup_erase_ne (hne j hj)]⟩
  · rw [Scheduler.dropPlan, lookup_erase_ne (hne j hj)] at hp
    exact h.flagged hrun j hj p hp

lemma FlagKept.removePlan (h : s.FlagKept ids) (hok : id ∈ ids → s.running) :
    (s.removePlan redisUp id).1.FlagKept ids := by
  by_cases hid : id ∈ ids
  · rw [h.removePlan_refused hid (hok hid)]
    exact h
  · unfold Scheduler.removePlan
    split
    case h_1 => exact h
    case h_2 plan hplan =>
      split
      case isTrue => exact h
      case isFalse =>
        obtain ⟨hplans, hrunning, hstore⟩ := displace_plans s id
        exact (h.congr hplans hrunning hstore).dropPlan hid

end Scheduler

namespace Deployment

lemma addSchedule_running (d : Deployment) (hrun : d.scheduler.running = false) :
    (d.addSchedule cs redisUp now plan).scheduler.running = false := by
  obtain ⟨t, -, ht, -, ⟨-, heq⟩ | ⟨-, heq⟩⟩ := d.scheduler.addPlan_cases cs redisUp now plan
  · rw [addSchedule, heq, ht, hrun]
  · rw [addSchedule, heq]
    exact ht.trans hrun

lemma mem_addSchedule {plan : BackupSchedule}
    (h : id ∈ (d.addSchedule cs redisUp now plan).everSystem) :
    id ∈ d.everSystem ∨ (plan.system ∧ plan.id = id) := by
  rw [addSchedule] at h
  cases herr : (d.scheduler.addPlan cs redisUp now (some plan)).2 with
  | none =>
    rw [herr] at h
    exact (Scheduler.mem_noteSystem h).imp_right (fun hnew => ⟨hnew.2, hnew.1.symm⟩)
  | some =>
    rw [herr] at h
    exact .inl h

lemma allStored_foldl (schedules : List BackupSchedule)
    (h : d.scheduler.AllStored d.everSystem) (hrun : d.scheduler.running = false)
    (hok : ∀ plan ∈ schedules,
      (plan.id ∈ d.everSystem ∨ ∃ q ∈ schedules, q.system ∧ q.id = plan.id) →
      plan.system ∧ plan.enabled ∧ validatePlanID plan.id) :
    (schedules.foldl (addSchedule cs true now) d).scheduler.AllStored
        (schedules.foldl (addSchedule cs true now) d).everSystem ∧
      (schedules.foldl (addSchedule cs true now) d).scheduler.running = false := by
  induction schedules generalizing d with
  | nil => exact ⟨h, hrun⟩
  | cons plan schedules ih =>
    rw [foldl_cons]
    have hadd : AddOk d.scheduler.running d.everSystem true plan := by
      intro hcase
      refine ⟨hrun, rfl, hok plan (.head _) ?_⟩
      exact hcase.symm.imp_right (fun hsys => ⟨plan, mem_cons_self, hsys, rfl⟩)
    refine ih (h.addPlan hadd) (addSchedule_running d hrun) ?_
    intro p hp hcase
    refine hok p (.tail _ hp) ?_
    rcases hcase with hmem | ⟨q, hq, hsys, hid⟩
    · exact (mem_addSchedule hmem).imp_right
        (fun hnew => ⟨plan, mem_cons_self, hnew.1, hnew.2⟩)
    · exact .inr ⟨q, .tail _ hq, hsys, hid⟩

lemma allStored_newProcess (h : d.scheduler.AllStored d.everSystem) (now : Int) :
    (d.newProcess now).scheduler.AllStored (d.newProcess now).everSystem where
  hasStore := by
    obtain ⟨store, hstore⟩ := ne_none_iff_exists'.mp h.hasStore
    simp [newProcess, newScheduler, hstore]
  stored id hid := by
    obtain ⟨store, hstore, hsys⟩ := h.stored id hid
    exact ⟨{ redis := store.redis }, by simp [newProcess, newScheduler, hstore], hsys⟩

lemma perform_flagKept {call : Call} (h : d.scheduler.FlagKept d.everSystem)
    (hsafe : d.Safe (.call call)) : (d.scheduler.perform cs call).1.FlagKept
      (noteSystem d.everSystem call.added (d.scheduler.perform cs call).2) := by
  cases call with
  | start => exact h.start hsafe
  | stop => exact h.stop
  | addPlan redisUp now p =>
    cases p with
    | none => exact h
    | some => exact h.addPlan hsafe
  | addPlanIfAbsent redisUp now p =>
    cases p with
    | none => exact h
    | some => exact h.addPlanIfAbsent hsafe
  | removePlan => exact h.removePlan hsafe

lemma step_flagKept {op : Operation} (h : d.scheduler.FlagKept d.everSystem)
    (hsafe : d.Safe op) (hstep : d.step cs op = some d') : d'.scheduler.FlagKept d'.everSystem := by
  cases op with
  | call =>
    rw [step] at hstep
    split at hstep
    case isFalse => cases hstep
    case isTrue =>
      cases hstep
      exact perform_flagKept h hsafe
  | update =>
    rw [step] at hstep
    split at hstep
    case isFalse => cases hstep
    case isTrue =>
      split at hstep
      case h_1 =>
        cases hstep
        exact h
      case h_2 plan hplan =>
        cases hstep
        exact h.addPlan (hsafe plan hplan)
  | save =>
    cases hstep
    exact h
  | reload redisUp now order =>
    obtain ⟨rfl, hok⟩ := hsafe
    rw [step] at hstep
    split at hstep
    case isFalse => cases hstep
    case isTrue =>
      cases hstep
      have hinit : (d.initBackup cs true now).scheduler.AllStored
          (d.initBackup cs true now).everSystem ∧
          (d.initBackup cs true now).scheduler.running = false :=
        allStored_foldl _ (allStored_newProcess h.toAllStored now) rfl hok
      exact hinit.1.start hinit.2 order

end Deployment

def freshDeployment (file : BackupConfig) (store : PlanStore) : Deployment where
  file := file
  cfg := file
  scheduler := newScheduler (some store)

def systemPlanState (d : Deployment) : Option Bool × Option SchedulerError :=
  ((d.scheduler.plans.lookup "system-metadata-backup").map (·.system),
    (d.scheduler.removePlan true "system-metadata-backup").2)

def safeCheck (d : Deployment) : Operation → Bool
  | .call (.addPlan redisUp _ (some plan)) =>
    (!plan.system && !d.everSystem.contains plan.id) ||
      (!d.scheduler.running && redisUp && plan.system && plan.enabled && validatePlanID plan.id)
  | .call (.addPlanIfAbsent _ _ (some plan)) => !plan.system
  | .call (.removePlan _ _) => d.scheduler.running
  | .call (.start redisUp _) => redisUp
  | .update _ _ _ _ _ => false
  | .reload redisUp now _ => redisUp &&
    (startConfig now d.file).schedules.all
      (fun plan => plan.system && plan.enabled && validatePlanID plan.id)
  | _ => true

lemma safe_of_check (d : Deployment) (op : Operation) (h : safeCheck d op) : d.Safe op := by
  cases op with
  | call call =>
    cases call with
    | start => exact .inr h
    | stop => trivial
    | addPlan redisUp now p =>
      cases p with
      | none => trivial
      | some =>
        intro hcase
        simp only [safeCheck, Bool.or_eq_true, Bool.and_eq_true, Bool.not_eq_true',
          contains_eq_mem, decide_eq_false_iff_not] at h
        rcases h with ⟨hsys, hmem⟩ | ⟨⟨⟨⟨hrun, hup⟩, hsys⟩, hen⟩, hvalid⟩
        · rcases hcase with hsys' | hmem'
          · exact absurd (hsys.symm.trans hsys') Bool.false_ne_true
          · exact absurd hmem' hmem
        · exact ⟨hrun, hup, hsys, hen, hvalid⟩
    | addPlanIfAbsent redisUp now p =>
      cases p with
      | none => trivial
      | some =>
        intro hsys
        rw [safeCheck, hsys] at h
        cases h
    | removePlan => exact fun _ => h
  | update => cases h
  | save => trivial
  | reload =>
    rw [safeCheck, Bool.and_eq_true] at h
    refine ⟨h.1, fun plan hplan _ => ?_⟩
    have hall := List.all_eq_true.mp h.2 plan hplan
    simpa only [Bool.and_eq_true, and_assoc] using hall

def restartedRun : List Operation :=
  [.reload true 1 ["system-metadata-backup"],
    .call (.addPlanIfAbsent true 2 (some dailyPlan)),
    .call (.removePlan true "system-metadata-backup"),
    .call (.removePlan true "daily"),
    .call .stop,
    .call (.start true ["system-metadata-backup"]),
    .reload true 3 ["system-metadata-backup"]]

end MinIODB.Backup
