import MinIODB.Backup.Scheduler

/-!
# Entries of the cron engine against the plans

While the scheduler runs, every enabled plan should have one entry in the cron engine and
nothing else should have one. The proof looks at one plan identifier at a time: an operation
on one identifier leaves the entries of every other identifier alone, because no two entries
share an entry identifier.
-/
namespace MinIODB.Backup
open List Finmap

variable (cs : CronSyntax)

namespace Scheduler

def entriesOf (s : Scheduler) (id : String) : List Entry :=
  s.cron.entries.filter (fun e => decide (e.plan.id = id))

def enabledPlan (s : Scheduler) (id : String) : Option BackupSchedule :=
  (s.plans.lookup id).filter (·.enabled)

def Scheduled (s : Scheduler) (id : String) : Option BackupSchedule → Prop
  | some plan => ∃ e, s.entriesOf id = [e] ∧ s.entryIDs.lookup id = some e.id ∧
      e.plan = clonePlan plan ∧ planTiming cs plan = .ok e.schedule
  | none => s.entriesOf id = [] ∧ s.entryIDs.lookup id = none

def EntriesMatch (s : Scheduler) : Prop :=
  ∀ id, s.Scheduled cs id (s.enabledPlan id)

def Keyed (plans : Finmap (fun _ : String => BackupSchedule)) : Prop :=
  ∀ id plan, plans.lookup id = some plan → plan.id = id

end Scheduler

/-- The calls for which the tables keep matching. `Start` finds no entry of an earlier run in
the cron engine and only enabled plans that can be scheduled, and `AddPlan` does not replace
the scheduled plan of a running scheduler by one that cannot be scheduled. -/
def Admissible (s : Scheduler) : Call → Prop
  | .start redisUp _ => s.running = true ∨ (s.cron.entries = [] ∧
      ∀ id plan, (s.loadPlans redisUp).lookup id = some plan → plan.enabled = true →
        (planTiming cs plan).isOk = true)
  | .addPlan _ _ (some plan) => s.running = true → s.enabledPlan plan.id ≠ none →
      plan.enabled = true → (planTiming cs plan).isOk = true
  | _ => True

variable {cs} {s s' : Scheduler} {id j : String} {plan : BackupSchedule}

namespace Scheduler

variable {q p : Option BackupSchedule} {plans : Finmap (fun _ : String => BackupSchedule)}
    {redisUp : Bool} {now : Int} {order : List String} {call : Call}

lemma Scheduled.congr (h : s.Scheduled cs j q) (hentries : s'.entriesOf j = s.entriesOf j)
    (hids : s'.entryIDs.lookup j = s.entryIDs.lookup j) : s'.Scheduled cs j q := by
  cases q <;> simpa only [Scheduled, hentries, hids] using h

lemma scheduled_schedulePlan (hen : plan.enabled)
    (h : s.schedulePlan cs plan = .ok s') (hfree : s.Scheduled cs plan.id none) :
    s'.Scheduled cs plan.id (some plan) := by
  rw [schedulePlan, if_pos hen] at h
  split at h
  case h_1 => cases h
  case h_2 timing htiming =>
    cases h
    refine ⟨⟨s.cron.nextID + 1, timing, clonePlan plan⟩, ?_, lookup_insert _, rfl, htiming⟩
    rw [entriesOf, Cron.schedule, filter_append, ← entriesOf, hfree.1]
    simp

lemma scheduled_schedulePlan_of_ne (hne : j ≠ plan.id)
    (h : s.schedulePlan cs plan = .ok s') (hj : s.Scheduled cs j q) : s'.Scheduled cs j q := by
  unfold schedulePlan at h
  split at h
  case isFalse =>
    cases h
    exact hj
  case isTrue =>
    split at h
    case h_1 => cases h
    case h_2 timing htiming =>
      cases h
      refine hj.congr ?_ (lookup_insert_of_ne _ hne)
      simp [entriesOf, Cron.schedule, Ne.symm hne]

lemma schedulePlan_plans (h : s.schedulePlan cs plan = .ok s') :
    s'.plans = s.plans ∧ s'.running = s.running ∧ s'.store = s.store := by
  unfold schedulePlan at h
  split at h
  case isFalse =>
    cases h
    exact ⟨rfl, rfl, rfl⟩
  case isTrue =>
    split at h
    case h_1 => cases h
    case h_2 =>
      cases h
      exact ⟨rfl, rfl, rfl⟩

lemma schedulePlan_of_isOk (h : (planTiming cs plan).isOk) :
    ∃ s', s.schedulePlan cs plan = .ok s' := by
  unfold schedulePlan
  cases htiming : planTiming cs plan with
  | error => rw [htiming] at h; cases h
  | ok => split <;> exact ⟨_, rfl⟩

lemma scheduled_unschedule (h : s.Scheduled cs id q) :
    (s.unschedule id).Scheduled cs id none := by
  unfold unschedule
  cases q with
  | none => simpa only [h.2] using h
  | some =>
    obtain ⟨e, hentries, hid, -, -⟩ := h
    simp only [hid]
    refine ⟨?_, lookup_erase _ _⟩
    rw [entriesOf, Cron.remove, filter_filter]
    simp only [Bool.and_comm (decide (_ = id)), ← filter_filter]
    rw [← entriesOf, hentries]
    simp

lemma scheduled_unschedule_of_ne {q' : Option BackupSchedule} (hne : j ≠ id)
    (h : s.Scheduled cs id q) (hj : s.Scheduled cs j q') : (s.unschedule id).Scheduled cs j q' := by
  unfold unschedule
  cases q with
  | none => simpa only [h.2] using hj
  | some plan =>
    obtain ⟨e, hentries, hid, -, -⟩ := h
    simp only [hid]
    refine hj.congr ?_ (lookup_erase_ne hne)
    have he : e ∈ s.cron.entries ∧ e.plan.id = id := by
      have hmem : e ∈ s.entriesOf id := by simp [hentries]
      simpa [entriesOf] using hmem
    rw [entriesOf, Cron.remove, filter_filter, entriesOf]
    refine filter_congr ?_
    intro f hf
    by_cases hfj : f.plan.id = j
    · have hdiff : f.id ≠ e.id := by
        intro heq
        have hfe : f = e := inj_on_of_nodup_map s.cron.distinct hf he.1 heq
        exact hne (by rw [← hfj, hfe, he.2])
      simp [hfj, hdiff]
    · simp [hfj]

lemma unschedule_plans (s : Scheduler) (id : String) :
    (s.unschedule id).plans = s.plans ∧ (s.unschedule id).running = s.running ∧
      (s.unschedule id).store = s.store := by
  unfold unschedule
  split <;> exact ⟨rfl, rfl, rfl⟩

@[simp] theorem enabledPlan_putPlan (s : Scheduler) (redisUp : Bool) (now : Int)
    (plan : BackupSchedule) : (s.putPlan redisUp now plan).enabledPlan plan.id =
      if plan.enabled then some (clonePlan plan) else none := by
  rw [enabledPlan, putPlan, lookup_insert]
  rfl

lemma enabledPlan_putPlan_of_ne (redisUp : Bool) (now : Int) (hne : j ≠ plan.id) :
    (s.putPlan redisUp now plan).enabledPlan j = s.enabledPlan j := by
  simp [enabledPlan, putPlan, lookup_insert_of_ne _ hne]

lemma Keyed.insert (h : Keyed plans) (hid : plan.id = id) : Keyed (plans.insert id plan) := by
  intro k p hp
  by_cases hk : k = id
  · subst hk
    rw [lookup_insert, Option.some.injEq] at hp
    rw [← hp, hid]
  · rw [lookup_insert_of_ne _ hk] at hp
    exact h k p hp

variable (cs) in
structure Consistent (s : Scheduler) : Prop where
  keyed : Keyed s.plans
  matched : s.running = true → s.EntriesMatch cs
  idle : s.running = false → s.entryIDs = ∅

variable (cs) in
structure Vacant (s : Scheduler) (id : String) : Prop where
  keyed : Keyed s.plans
  free : s.running = true → s.Scheduled cs id none
  others : s.running = true → ∀ j, j ≠ id → s.Scheduled cs j (s.enabledPlan j)
  idle : s.running = false → s.entryIDs = ∅

lemma Consistent.vacant (h : s.Consistent cs)
    (hnone : s.running → s.enabledPlan id = none) : s.Vacant cs id where
  keyed := h.keyed
  free hrun := by
    have hid := h.matched hrun id
    rwa [hnone hrun] at hid
  others hrun j _ := h.matched hrun j
  idle := h.idle

lemma Consistent.vacant_unschedule (h : s.Consistent cs) (hrun : s.running)
    (id : String) : (s.unschedule id).Vacant cs id := by
  obtain ⟨hplans, hrunning, -⟩ := unschedule_plans s id
  constructor
  · rw [hplans]
    exact h.keyed
  · intro _
    exact scheduled_unschedule (h.matched hrun id)
  · intro _ j hne
    rw [enabledPlan, hplans]
    exact scheduled_unschedule_of_ne hne (h.matched hrun id) (h.matched hrun j)
  · intro hstopped
    rw [hrunning, hrun] at hstopped
    cases hstopped

lemma Consistent.vacant_displace (h : s.Consistent cs) (id : String) :
    (s.displace id).Vacant cs id := by
  unfold displace
  split
  case h_2 hnone => exact h.vacant (fun _ => by simp [enabledPlan, hnone])
  case h_1 existing hex =>
    split
    case isTrue hrun => exact h.vacant_unschedule (Bool.and_eq_true_iff.mp hrun).1 id
    case isFalse hnot =>
      refine h.vacant (fun hrun => ?_)
      have hdis : existing.enabled = false := by simpa [hrun] using hnot
      simp [enabledPlan, hex, hdis]

lemma displace_plans (s : Scheduler) (id : String) :
    (s.displace id).plans = s.plans ∧ (s.displace id).running = s.running ∧
      (s.displace id).store = s.store := by
  unfold displace
  split
  case h_2 => exact ⟨rfl, rfl, rfl⟩
  case h_1 =>
    split
    case isTrue => exact unschedule_plans s id
    case isFalse => exact ⟨rfl, rfl, rfl⟩

section
variable (redisUp : Bool)

section
variable (now : Int)

lemma consistent_putPlan (hkeyed : Keyed s.plans)
    (hplan : s.running →
      s.Scheduled cs plan.id (if plan.enabled then some (clonePlan plan) else none))
    (hothers : s.running → ∀ j, j ≠ plan.id → s.Scheduled cs j (s.enabledPlan j))
    (hidle : s.running = false → s.entryIDs = ∅) : (s.putPlan redisUp now plan).Consistent cs where
  keyed := hkeyed.insert rfl
  matched hrun j := by
    by_cases hj : j = plan.id
    · subst hj
      rw [enabledPlan_putPlan]
      exact (hplan hrun).congr rfl rfl
    · rw [enabledPlan_putPlan_of_ne _ _ hj]
      exact (hothers hrun j hj).congr rfl rfl
  idle := hidle

lemma Vacant.scheduleAndPut (h : s.Vacant cs plan.id)
    (hok : (s.scheduleAndPut cs redisUp now plan).2 = none) :
    (s.scheduleAndPut cs redisUp now plan).1.Consistent cs := by
  unfold Scheduler.scheduleAndPut at hok ⊢
  split
  case isTrue hrun =>
    obtain ⟨hen, hrun⟩ := Bool.and_eq_true_iff.mp hrun
    rw [if_pos (by rw [hen, hrun]; rfl)] at hok
    split
    case h_1 err herr =>
      rw [herr] at hok
      cases hok
    case h_2 s' hs' =>
      obtain ⟨hplans, hrunning, -⟩ := schedulePlan_plans hs'
      refine consistent_putPlan redisUp now (hplans ▸ h.keyed) ?_ ?_ ?_
      · intro _
        rw [if_pos hen]
        exact scheduled_schedulePlan hen hs' (h.free hrun)
      · intro _ j hne
        rw [enabledPlan, hplans]
        exact scheduled_schedulePlan_of_ne hne hs' (h.others hrun j hne)
      · intro hstopped
        rw [hrunning, hrun] at hstopped
        cases hstopped
  case isFalse hnot =>
    refine consistent_putPlan redisUp now h.keyed ?_ h.others h.idle
    intro hrun
    have hdis : plan.enabled = false := by simpa [hrun] using hnot
    simpa [hdis] using h.free hrun

lemma scheduleAndPut_error (herr : (s.scheduleAndPut cs redisUp now plan).2 ≠ none) :
    (s.scheduleAndPut cs redisUp now plan).1 = s ∧
      ¬ (plan.enabled → (planTiming cs plan).isOk) := by
  unfold scheduleAndPut at herr ⊢
  split at herr
  case isFalse => exact absurd rfl herr
  case isTrue hrun =>
    obtain ⟨hen, -⟩ := Bool.and_eq_true_iff.mp hrun
    rw [if_pos hrun]
    split at herr
    case h_2 => exact absurd rfl herr
    case h_1 err hs =>
      refine ⟨rfl, fun hok => ?_⟩
      obtain ⟨s', hs'⟩ := schedulePlan_of_isOk (s := s) (hok hen)
      rw [hs] at hs'
      cases hs'

lemma addPlan_consistent (p : Option BackupSchedule)
    (h : s.Consistent cs) (hok : (s.addPlan cs redisUp now p).2 = none) :
    (s.addPlan cs redisUp now p).1.Consistent cs := by
  cases p with
  | none => exact h
  | some plan =>
    rw [addPlan] at hok ⊢
    split at hok
    case isTrue => cases hok
    case isFalse hid =>
      rw [if_neg hid]
      exact (h.vacant_displace plan.id).scheduleAndPut redisUp now hok

end

end

lemma addPlan_error (hadm : Admissible cs s (.addPlan redisUp now p))
    (herr : (s.addPlan cs redisUp now p).2 ≠ none) : (s.addPlan cs redisUp now p).1 = s := by
  cases p with
  | none => rfl
  | some =>
    rw [addPlan] at herr ⊢
    split at herr
    case isTrue hid => rw [if_pos hid]
    case isFalse hid =>
      rw [if_neg hid]
      obtain ⟨hsame, hbad⟩ := scheduleAndPut_error redisUp now herr
      rw [hsame, displace]
      split
      case h_2 => rfl
      case h_1 existing hex =>
        split
        case isFalse => rfl
        case isTrue hrun =>
          obtain ⟨hrun, hen⟩ := Bool.and_eq_true_iff.mp hrun
          exact absurd (hadm hrun (by simp [enabledPlan, hex, hen])) hbad

lemma addPlanIfAbsent_consistent (redisUp : Bool) (now : Int) (p : Option BackupSchedule)
    (h : s.Consistent cs) (hok : (s.addPlanIfAbsent cs redisUp now p).2 = none) :
    (s.addPlanIfAbsent cs redisUp now p).1.Consistent cs := by
  cases p with
  | none => exact h
  | some =>
    rw [addPlanIfAbsent] at hok ⊢
    split at hok
    case isTrue => cases hok
    case isFalse hid =>
      rw [if_neg hid]
      split at hok
      case h_1 => cases hok
      case h_2 hnone =>
        exact (h.vacant (fun _ => by simp [enabledPlan, hnone])).scheduleAndPut redisUp now hok

lemma addPlanIfAbsent_error (herr : (s.addPlanIfAbsent cs redisUp now p).2 ≠ none) :
    (s.addPlanIfAbsent cs redisUp now p).1 = s := by
  cases p with
  | none => rfl
  | some =>
    rw [addPlanIfAbsent] at herr ⊢
    split at herr
    case isTrue hid => rw [if_pos hid]
    case isFalse hid =>
      rw [if_neg hid]
      split at herr
      case h_1 => rfl
      case h_2 => exact (scheduleAndPut_error redisUp now herr).1

lemma removePlan_error (herr : (s.removePlan redisUp id).2 ≠ none) :
    (s.removePlan redisUp id).1 = s := by
  unfold removePlan at herr ⊢
  split at herr
  case h_1 => rfl
  case h_2 plan hplan =>
    split at herr
    case isTrue hsys => rw [if_pos hsys]
    case isFalse => exact absurd rfl herr

lemma Vacant.dropPlan (h : s.Vacant cs id) (redisUp : Bool) :
    (s.dropPlan redisUp id).Consistent cs where
  keyed k p hp := by
    by_cases hk : k = id
    · subst hk
      rw [Scheduler.dropPlan, lookup_erase] at hp
      cases hp
    · rw [Scheduler.dropPlan, lookup_erase_ne hk] at hp
      exact h.keyed k p hp
  matched hrun j := by
    by_cases hj : j = id
    · subst hj
      rw [enabledPlan, Scheduler.dropPlan, lookup_erase]
      exact (h.free hrun).congr rfl rfl
    · rw [enabledPlan, Scheduler.dropPlan, lookup_erase_ne hj]
      exact (h.others hrun j hj).congr rfl rfl
  idle := h.idle

lemma removePlan_consistent (redisUp : Bool) (h : s.Consistent cs)
    (hok : (s.removePlan redisUp id).2 = none) : (s.removePlan redisUp id).1.Consistent cs := by
  unfold removePlan at hok ⊢
  split at hok
  case h_1 => cases hok
  case h_2 plan hplan =>
    split at hok
    case isTrue => cases hok
    case isFalse hsys =>
      rw [if_neg hsys]
      exact (h.vacant_displace id).dropPlan redisUp

lemma stop_consistent (h : s.Consistent cs) : s.stop.Consistent cs := by
  unfold stop
  split
  case isFalse => exact h
  case isTrue => exact ⟨h.keyed, (fun hrun => by cases hrun), fun _ => rfl⟩

lemma keyed_foldl_insert (stored : List BackupSchedule) (h : Keyed plans) : Keyed (stored.foldl
      (fun plans plan => if plan.enabled then plans.insert plan.id plan else plans) plans) := by
  induction stored generalizing plans with
  | nil => exact h
  | cons plan stored ih =>
    rw [foldl_cons]
    split
    case isTrue => exact ih (h.insert rfl)
    case isFalse => exact ih h

lemma keyed_loadPlans (h : Keyed s.plans) (redisUp : Bool) : Keyed (s.loadPlans redisUp) := by
  unfold loadPlans
  split
  case h_1 => exact h
  case h_2 store => exact keyed_foldl_insert _ h

lemma scheduleStored_plans (s : Scheduler) (id : String) :
    (s.scheduleStored cs id).plans = s.plans := by
  unfold scheduleStored
  split
  case h_1 => rfl
  case h_2 plan hplan =>
    split
    case h_1 s' hs' => exact (schedulePlan_plans hs').1
    case h_2 => rfl

lemma scheduled_scheduleStored (hkeyed : Keyed s.plans)
    (hvalid : ∀ plan, s.enabledPlan id = some plan → (planTiming cs plan).isOk)
    (hfree : s.Scheduled cs id none) :
    (s.scheduleStored cs id).Scheduled cs id (s.enabledPlan id) := by
  unfold scheduleStored
  cases hplan : s.plans.lookup id with
  | none => simpa [enabledPlan, hplan] using hfree
  | some plan =>
    obtain rfl : plan.id = id := hkeyed id plan hplan
    cases hen : plan.enabled with
    | false =>
      have hs : s.schedulePlan cs plan = .ok s := by rw [schedulePlan, hen]; rfl
      have hnone : s.enabledPlan plan.id = none := by simp [enabledPlan, hplan, hen]
      rw [hnone]
      simpa only [hs] using hfree
    | true =>
      have henabled : s.enabledPlan plan.id = some plan := by simp [enabledPlan, hplan, hen]
      obtain ⟨s', hs'⟩ := schedulePlan_of_isOk (s := s) (hvalid plan henabled)
      rw [henabled]
      simp only [hs']
      exact scheduled_schedulePlan hen hs' hfree

lemma scheduled_scheduleStored_of_ne (hkeyed : Keyed s.plans)
    (hne : j ≠ id) (hj : s.Scheduled cs j q) : (s.scheduleStored cs id).Scheduled cs j q := by
  unfold scheduleStored
  split
  case h_1 => exact hj
  case h_2 plan hplan =>
    obtain rfl : plan.id = id := hkeyed id plan hplan
    split
    case h_1 s' hs' => exact scheduled_schedulePlan_of_ne hne hs' hj
    case h_2 => exact hj

lemma foldl_scheduleStored_plans (order : List String) (s : Scheduler) :
    (order.foldl (scheduleStored cs) s).plans = s.plans := by
  induction order generalizing s with
  | nil => rfl
  | cons id order ih => rw [foldl_cons, ih, scheduleStored_plans]

lemma scheduled_foldl_of_notMem
    (hkeyed : Keyed s.plans) (hj : j ∉ order) (h : s.Scheduled cs j q) :
    (order.foldl (scheduleStored cs) s).Scheduled cs j q := by
  induction order generalizing s with
  | nil => exact h
  | cons id order ih =>
    rw [mem_cons, not_or] at hj
    rw [foldl_cons]
    refine ih ?_ hj.2 (scheduled_scheduleStored_of_ne hkeyed hj.1 h)
    rw [scheduleStored_plans]
    exact hkeyed

lemma scheduled_foldl_of_mem (hkeyed : Keyed s.plans)
    (hvalid : ∀ plan, s.enabledPlan j = some plan → (planTiming cs plan).isOk)
    (hfree : s.Scheduled cs j none) (hnodup : order.Nodup) (hj : j ∈ order) :
    (order.foldl (scheduleStored cs) s).Scheduled cs j (s.enabledPlan j) := by
  induction order generalizing s with
  | nil => cases hj
  | cons id order ih =>
    obtain ⟨hid, hnodup⟩ := nodup_cons.mp hnodup
    have hkeyed' : Keyed (s.scheduleStored cs id).plans := by rwa [scheduleStored_plans]
    rw [foldl_cons]
    by_cases hji : j = id
    · subst hji
      exact scheduled_foldl_of_notMem hkeyed' hid (scheduled_scheduleStored hkeyed hvalid hfree)
    · have hsame : (s.scheduleStored cs id).enabledPlan j = s.enabledPlan j := by
        rw [enabledPlan, scheduleStored_plans, enabledPlan]
      rw [← hsame]
      refine ih hkeyed' ?_ (scheduled_scheduleStored_of_ne hkeyed hji hfree) hnodup
        ((mem_cons.mp hj).resolve_left hji)
      rwa [hsame]

lemma start_consistent (h : s.Consistent cs) (hadm : Admissible cs s (.start redisUp order))
    (hvisits : Visits order (s.loadPlans redisUp)) :
    (s.start cs redisUp order).1.Consistent cs := by
  unfold start
  split
  case isTrue => exact h
  case isFalse hrun =>
    obtain ⟨hnil, hvalid⟩ := hadm.resolve_left hrun
    have hkeyed := keyed_loadPlans h.keyed redisUp
    refine ⟨?_, fun _ j => ?_, fun hstopped => by cases hstopped⟩
    · simpa only [foldl_scheduleStored_plans] using hkeyed
    · -- before the loop no identifier has an entry
      have hfree : Scheduled cs { s with plans := s.loadPlans redisUp } j none := by
        refine ⟨by simp [entriesOf, hnil], ?_⟩
        rw [h.idle (by simpa using hrun)]
        rfl
      have hplan : enabledPlan { s with plans := s.loadPlans redisUp } j =
          enabledPlan (order.foldl (scheduleStored cs)
            { s with plans := s.loadPlans redisUp }) j := by
        rw [enabledPlan, enabledPlan, foldl_scheduleStored_plans]
      by_cases hj : j ∈ order
      · have hloop := scheduled_foldl_of_mem hkeyed (fun plan hp => by
          obtain ⟨hlookup, hen⟩ := Option.filter_eq_some_iff.mp hp
          exact hvalid j plan hlookup hen) hfree hvisits.1 hj
        rw [hplan] at hloop
        exact hloop.congr rfl rfl
      · have hnone : enabledPlan (order.foldl (scheduleStored cs)
            { s with plans := s.loadPlans redisUp }) j = none := by
          rw [← hplan, enabledPlan]
          have hkeys : j ∉ (s.loadPlans redisUp).keys := by
            rw [← hvisits.2, mem_toFinset]
            exact hj
          rw [lookup_eq_none.mpr (fun hmem => hkeys (mem_keys.mpr hmem))]
          rfl
        have hloop := scheduled_foldl_of_notMem hkeyed hj hfree
        rw [← hnone] at hloop
        exact hloop.congr rfl rfl

lemma start_error
    (herr : (s.start cs redisUp order).2 ≠ none) : (s.start cs redisUp order).1 = s := by
  unfold start at herr ⊢
  split at herr
  case isTrue hrun => rw [if_pos hrun]
  case isFalse => exact absurd rfl herr

lemma perform_error (hadm : Admissible cs s call)
    (herr : (s.perform cs call).2 ≠ none) : (s.perform cs call).1 = s := by
  cases call with
  | start => exact start_error herr
  | stop => exact absurd rfl herr
  | addPlan => exact addPlan_error hadm herr
  | addPlanIfAbsent => exact addPlanIfAbsent_error herr
  | removePlan => exact removePlan_error herr

lemma step_consistent (h : s.Consistent cs) (hadm : Admissible cs s call)
    (hstep : s.step cs call = some s') : s'.Consistent cs := by
  unfold step at hstep
  split at hstep
  case isFalse => cases hstep
  case isTrue hposs =>
    cases hstep
    by_cases herr : (s.perform cs call).2 = none
    · cases call with
      | start => exact start_consistent h hadm (of_decide_eq_true hposs)
      | stop => exact stop_consistent h
      | addPlan redisUp now p => exact addPlan_consistent redisUp now p h herr
      | addPlanIfAbsent redisUp now p => exact addPlanIfAbsent_consistent redisUp now p h herr
      | removePlan redisUp => exact removePlan_consistent redisUp h herr
    · rw [perform_error hadm herr]
      exact h

lemma newScheduler_consistent (store : Option PlanStore) : (newScheduler store).Consistent cs where
  keyed id plan h := by cases h
  matched hrun := by cases hrun
  idle _ := rfl

end Scheduler

/-- In every state that admissible calls lead to, the entries of a running scheduler match its
plans, and an admissible call that returns an error leaves everything as it was. -/
theorem scheduler_entries_match (store : Option PlanStore) {calls : List Call}
    (hadm : Transition.Guarded (Scheduler.step cs) (Admissible cs) (newScheduler store) calls)
    (hrun : Transition.exec (Scheduler.step cs) (newScheduler store) calls = some s) :
    (s.running = true → s.EntriesMatch cs) ∧
      ∀ call, Admissible cs s call → (s.perform cs call).2 ≠ none → (s.perform cs call).1 = s := by
  have h : s.Consistent cs := Transition.exec_invariant (Scheduler.Consistent cs)
    (fun _ _ _ hs hcall hstep => Scheduler.step_consistent hs hcall hstep)
    (Scheduler.newScheduler_consistent store) hadm hrun
  exact ⟨h.matched, fun call hcall herr => Scheduler.perform_error hcall herr⟩

def dailyOnly : CronSyntax where
  parse expr := expr == "0 3 * * *"
  parseStandard _ := false

def dailyPlan : BackupSchedule := { id := "daily", cronExpr := "0 3 * * *", backupType := .full }

def hourlyPlan : BackupSchedule := { id := "hourly", interval := 3600000000000 }

def brokenPlan : BackupSchedule := { dailyPlan with cronExpr := "every day" }

structure Tables where
  running : Bool
  entries : List (Nat × String)
  enabled : List Bool
  entryIDs : List (Option Nat)
  deriving DecidableEq

def tables (s : Scheduler) : Tables where
  running := s.running
  entries := s.cron.entries.map (fun e => (e.id, e.plan.id))
  enabled := ["daily", "hourly"].map (fun id => (s.enabledPlan id).isSome)
  entryIDs := ["daily", "hourly"].map s.entryIDs.lookup

def admissibleCheck (cs : CronSyntax) (s : Scheduler) : Call → Bool
  | .start redisUp order => s.running || (s.cron.entries.isEmpty &&
      decide (Visits order (s.loadPlans redisUp)) &&
      order.all (fun id => ((s.loadPlans redisUp).lookup id).all
        (fun plan => !plan.enabled || (planTiming cs plan).isOk)))
  | .addPlan _ _ (some plan) => !plan.enabled || (planTiming cs plan).isOk
  | _ => true

lemma admissible_of_check (s : Scheduler) (call : Call)
    (h : admissibleCheck cs s call) : Admissible cs s call := by
  cases call with
  | start redisUp order =>
    simp only [admissibleCheck, Bool.or_eq_true, Bool.and_eq_true, List.isEmpty_iff,
      decide_eq_true_eq] at h
    refine h.imp_right ?_
    rintro ⟨⟨hnil, hvisits⟩, hall⟩
    refine ⟨hnil, fun id plan hplan hen => ?_⟩
    have hid : id ∈ order := by
      rw [← mem_toFinset, hvisits.2, Finmap.mem_keys, ← Finmap.lookup_isSome, hplan]
      rfl
    simpa [hplan, hen] using all_eq_true.mp hall id hid
  | addPlan redisUp now p =>
    cases p with
    | none => trivial
    | some =>
      intro _ _ hen
      simpa [admissibleCheck, hen] using h
  | _ => trivial

def plansComeAndGo : List Call :=
  [.addPlan true 1 (some dailyPlan), .start true ["daily"],
    .addPlanIfAbsent true 2 (some hourlyPlan),
    .addPlan true 3 (some { dailyPlan with enabled := false }),
    .removePlan true "hourly", .addPlan true 4 (some dailyPlan)]

theorem scheduler_entries_match_plansComeAndGo :
    (Transition.exec (Scheduler.step dailyOnly) (newScheduler (some {})) plansComeAndGo).map tables =
      some ⟨true, [(3, "daily")], [true, false], [some 3, none]⟩ ∧
    ∀ s, Transition.exec (Scheduler.step dailyOnly) (newScheduler (some {})) plansComeAndGo = some s →
      (s.running = true → s.EntriesMatch dailyOnly) ∧
        ∀ call, Admissible dailyOnly s call → (s.perform dailyOnly call).2 ≠ none →
          (s.perform dailyOnly call).1 = s := by
  have hcheck : Transition.Guarded (Scheduler.step dailyOnly)
      (fun s call => admissibleCheck dailyOnly s call = true) (newScheduler (some {}))
      plansComeAndGo := by decide +kernel
  refine ⟨by decide +kernel, fun s hrun => ?_⟩
  exact scheduler_entries_match (some {}) (hcheck.mono admissible_of_check) hrun

/-- After `Stop` and `Start` the plan has two entries; a replacement that is refused takes the
entry of the plan that stays; `Start` runs with an enabled plan that it could not schedule. -/
theorem scheduler_entries_part :
    (Transition.exec (Scheduler.step dailyOnly) (newScheduler (some {}))
        [.addPlan true 1 (some dailyPlan), .start true ["daily"], .stop, .start true ["daily"]]).map
        tables = some ⟨true, [(1, "daily"), (2, "daily")], [true, false], [some 2, none]⟩ ∧
    (Transition.exec (Scheduler.step dailyOnly) (newScheduler (some {}))
        [.start true [], .addPlan true 1 (some dailyPlan)]).map
        (fun s => (tables s, (s.addPlan dailyOnly true 2 (some brokenPlan)).2,
          tables (s.addPlan dailyOnly true 2 (some brokenPlan)).1)) =
      some (⟨true, [(1, "daily")], [true, false], [some 1, none]⟩,
        some (.invalidCron "every day"), ⟨true, [], [true, false], [none, none]⟩) ∧
    (Transition.exec (Scheduler.step dailyOnly) (newScheduler (some {}))
        [.addPlan true 1 (some brokenPlan), .start true ["daily"]]).map tables =
      some ⟨true, [], [true, false], [none, none]⟩ := by
  refine ⟨?_, ?_, ?_⟩ <;> decide +kernel

end MinIODB.Backup
