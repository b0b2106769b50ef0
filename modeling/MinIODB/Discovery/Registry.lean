import MinIODB.Library.Transition
import Mathlib.Data.List.Sort
import Mathlib.Data.String.Basic

/-!
# The service registry

The nodes of a cluster share the hash `nodes:services` in Redis, and each of them has a health key
that expires. A heartbeat only refreshes this key. Each registry keeps its own list of services: a
round of `updateServiceList` first reads Redis, and then derives the state of every service from
the state that the registry had for it and from the time in its record.
-/
namespace MinIODB.Discovery
open Transition Option Function

inductive NodeState where
  | online | suspicious | offline | decommissioning | tombstone
  deriving DecidableEq

structure ServiceInfo where
  state : NodeState
  lastSeen : ℕ
  deriving DecidableEq

def suspiciousThreshold : ℕ := 30
def offlineThreshold : ℕ := 60
def defaultNodeTTL : ℕ := 60

structure Registry where
  services : String → Option ServiceInfo
  found : Option (String → Option ServiceInfo)

structure Cluster where
  now : ℕ
  nodes : String → Option ServiceInfo
  health : String → Option ℕ
  registries : String → Registry

inductive ClusterAction where
  | tick (seconds : ℕ)
  | start (id : String)
  | sendHeartbeat (id : String)
  | discoverFromRedis (id : String)
  | updateServiceList (id : String)
  | decommissionNode (id nodeID : String)
  | recommissionNode (id nodeID : String)
  | removeNode (id nodeID : String)

/-- The state that a round gives to a service. -/
def nextState (now : ℕ) (prevService : Option ServiceInfo) (service : ServiceInfo) : NodeState :=
  match prevService with
  | none => .online
  | some prev =>
    if prev.state = .decommissioning ∨ prev.state = .tombstone then prev.state
    else if offlineThreshold ≤ now - service.lastSeen then .offline
    else if suspiciousThreshold ≤ now - service.lastSeen then .suspicious
    else .online

namespace Cluster

def new : Cluster := ⟨0, fun _ => none, fun _ => none, fun _ => ⟨fun _ => none, none⟩⟩

variable (c : Cluster)

def healthy (nodeID : String) : Bool := (c.health nodeID).any (fun expires => c.now < expires)

def setRegistry (id : String) (r : Registry) : Cluster :=
  { c with registries := Function.update c.registries id r }

def publish (id nodeID : String) (service : ServiceInfo) : Cluster :=
  { c.setRegistry id { c.registries id with
      services := Function.update (c.registries id).services nodeID (some service) } with
    nodes := Function.update c.nodes nodeID (some service) }

def step : ClusterAction → Option Cluster
  | .tick seconds => some { c with now := c.now + seconds }
  | .start id =>
    some { c.setRegistry id ⟨fun _ => none, none⟩ with
      nodes := Function.update c.nodes id (some ⟨.online, c.now⟩)
      health := Function.update c.health id (some (c.now + defaultNodeTTL)) }
  | .sendHeartbeat id =>
    some (if c.healthy id then
        { c with health := Function.update c.health id (some (c.now + defaultNodeTTL)) }
      else c)
  | .discoverFromRedis id =>
    -- a service without its health key is deleted from the hash
    let found := fun n => if c.healthy n then c.nodes n else none
    some { c.setRegistry id { c.registries id with found := some found } with nodes := found }
  | .updateServiceList id =>
    (c.registries id).found.map (fun found => c.setRegistry id
      ⟨fun n => (found n).map (fun s => { s with state := nextState c.now ((c.registries id).services n) s }), none⟩)
  | .decommissionNode id nodeID =>
    ((c.registries id).services nodeID).bind (fun s =>
      if s.state = .online ∨ s.state = .suspicious then
        some (c.publish id nodeID { s with state := .decommissioning })
      else none)
  | .recommissionNode id nodeID =>
    ((c.registries id).services nodeID).bind (fun s =>
      if s.state = .decommissioning ∨ s.state = .offline then some (c.publish id nodeID ⟨.online, c.now⟩)
      else none)
  | .removeNode id nodeID =>
    ((c.registries id).services nodeID).bind (fun s =>
      if s.state = .offline ∨ s.state = .decommissioning then
        some { c.setRegistry id { c.registries id with
            services := Function.update (c.registries id).services nodeID none } with
          nodes := Function.update c.nodes nodeID none
          health := Function.update c.health nodeID none }
      else none)

def getHealthyNodes (nodeID : String) : Bool :=
  c.healthy nodeID && (c.nodes nodeID).any (fun s => s.state = .online || s.state = .suspicious)

end Cluster

variable {c c' : Cluster} {a : ClusterAction} {id n : String}

lemma registry_of_ne {id' : String} (h : id' ≠ id) (r : Registry) :
    (c.setRegistry id r).registries id' = c.registries id' := update_of_ne h _ _

@[simp] theorem registry_self (r : Registry) : (c.setRegistry id r).registries id = r :=
  update_self _ _ _

def ClusterAction.about : ClusterAction → Option String
  | .decommissionNode _ nodeID => some nodeID
  | .recommissionNode _ nodeID => some nodeID
  | .removeNode _ nodeID => some nodeID
  | _ => none

lemma step_about_other {m : String} (hm : m ≠ n) (ha : a.about = some m) (hs : c.step a = some c') :
    c'.now = c.now ∧ c'.nodes n = c.nodes n ∧ c'.health n = c.health n ∧
      ∀ id, (c'.registries id).services n = (c.registries id).services n ∧
        (c'.registries id).found = (c.registries id).found := by
  have hlist : ∀ id (services : String → Option ServiceInfo) id', services n = (c.registries id).services n →
      ((c.setRegistry id { c.registries id with services := services }).registries id').services n =
          (c.registries id').services n ∧
        ((c.setRegistry id { c.registries id with services := services }).registries id').found =
          (c.registries id').found := by
    intro id services id' hservices
    by_cases hid : id' = id
    · subst hid
      simp [hservices]
    · simp [registry_of_ne hid]
  cases a with
  | decommissionNode | recommissionNode | removeNode =>
    cases ha
    obtain ⟨s, -, hs⟩ := bind_eq_some_iff.mp hs
    split at hs <;> cases hs
    · exact ⟨rfl, update_of_ne hm.symm _ _, by first | rfl | exact update_of_ne hm.symm _ _,
        fun id' => hlist _ _ id' (update_of_ne hm.symm _ _)⟩
  | _ => cases ha

open Cluster

lemma healthy_iff : c.healthy n ↔ ∃ expires, c.health n = some expires ∧ c.now < expires := by
  simp [healthy, any_eq_true]

lemma healthy_of_eq (h : c.healthy n) (hnow : c'.now = c.now) (hhealth : c'.health n = c.health n) :
    c'.healthy n = true := by
  rw [healthy, hnow, hhealth]
  exact h

def stateAfter (id nodeID : String) (as : List ClusterAction) : Option NodeState :=
  (exec (fun (c : Cluster) a => c.step a) .new as).bind (fun c =>
    ((c.registries id).services nodeID).map (fun s => s.state))

def round (id : String) : List ClusterAction := [.discoverFromRedis id, .updateServiceList id]

def joined : List ClusterAction := [.start "n", .start "m", .start "k"] ++ round "m" ++ round "k"

def beat : List ClusterAction := [.tick 20, .sendHeartbeat "n", .sendHeartbeat "m", .sendHeartbeat "k"]

/-- The node registers once, its health key does not run out, no operator calls about it, and every
round that finds the node in an earlier list comes within the threshold after the registration. -/
def Beating (n : String) (c : Cluster) : ClusterAction → Prop
  | .tick seconds => ∀ expires ∈ c.health n, c.now < expires → c.now + seconds < expires
  | .start id => id = n → c.nodes n = none
  | .updateServiceList id => (c.registries id).services n ≠ none →
      ∀ f ∈ (c.registries id).found, ∀ s ∈ f n, c.now - s.lastSeen < suspiciousThreshold
  | .decommissionNode _ m | .recommissionNode _ m | .removeNode _ m => m ≠ n
  | _ => True

instance : ∀ a, Decidable (Beating n c a)
  | .tick _ => inferInstanceAs (Decidable (∀ expires ∈ c.health n, _))
  | .start _ => inferInstanceAs (Decidable (_ → _))
  | .updateServiceList id =>
    inferInstanceAs (Decidable (_ → ∀ f ∈ (c.registries id).found, ∀ s ∈ f n, _))
  | .decommissionNode _ _ | .recommissionNode _ _ | .removeNode _ _ => inferInstanceAs (Decidable (_ ≠ _))
  | .sendHeartbeat _ | .discoverFromRedis _ => inferInstanceAs (Decidable True)

structure Listing (n : String) (alive : Prop) (r : Registry) : Prop where
  online : ∀ info, r.services n = some info → info.state = .online
  listed : r.services n ≠ none → alive
  seen : ∀ f, r.found = some f → f n ≠ none → alive
  kept : ∀ f, r.found = some f → r.services n ≠ none → f n ≠ none

lemma Listing.mono {alive alive' : Prop} {r r' : Registry} (h : Listing n alive r) (halive : alive → alive')
    (hservices : r'.services n = r.services n) (hfound : r'.found = r.found) : Listing n alive' r' where
  online := hservices ▸ h.online
  listed := fun hne => halive (h.listed (hservices ▸ hne))
  seen := fun f hf hne => halive (h.seen f (hfound ▸ hf) hne)
  kept := fun f hf hne => h.kept f (hfound ▸ hf) (hservices ▸ hne)

def Steady (n : String) (c : Cluster) : Prop :=
  ∀ id, Listing n (c.healthy n = true ∧ c.nodes n ≠ none) (c.registries id)

lemma Steady.setRegistry {r : Registry} (h : Steady n c) (hregistries : c'.registries = Function.update c.registries id r)
    (halive : c.healthy n ∧ c.nodes n ≠ none → c'.healthy n ∧ c'.nodes n ≠ none)
    (hr : Listing n (c.healthy n ∧ c.nodes n ≠ none) r) : Steady n c' := by
  intro id'
  rw [hregistries, update_apply]
  split
  · exact hr.mono halive rfl rfl
  · exact (h id').mono halive rfl rfl

lemma Steady.about_other (h : Steady n c) {m : String} (hm : m ≠ n) (ha : a.about = some m)
    (hs : c.step a = some c') : Steady n c' := by
  obtain ⟨hnow, hnodes, hhealth, hregistries⟩ := step_about_other hm ha hs
  intro id
  refine (h id).mono (fun halive => ?_) (hregistries id).1 (hregistries id).2
  exact ⟨healthy_of_eq halive.1 hnow hhealth, hnodes.trans_ne halive.2⟩

lemma Steady.step (h : Steady n c) (hg : Beating n c a) (hs : c.step a = some c') : Steady n c' := by
  cases a with
  | tick =>
    cases hs
    refine fun id => (h id).mono (fun halive => ⟨?_, halive.2⟩) rfl rfl
    obtain ⟨expires, hexpires, hlt⟩ := healthy_iff.mp halive.1
    exact healthy_iff.mpr ⟨expires, hexpires, hg expires hexpires hlt⟩
  | start id =>
    cases hs
    refine h.setRegistry rfl (fun halive => ?_) ⟨nofun, fun h => absurd rfl h, nofun, nofun⟩
    by_cases hid : n = id
    · exact absurd (hg hid.symm) halive.2
    · exact ⟨healthy_of_eq halive.1 rfl (update_of_ne hid _ _),
        (update_of_ne hid _ c.nodes).trans_ne halive.2⟩
  | sendHeartbeat id =>
    cases hs
    split
    · refine fun id' => (h id').mono (fun halive => ⟨?_, halive.2⟩) rfl rfl
      by_cases hid : n = id
      · subst hid
        simp [healthy, defaultNodeTTL]
      · exact healthy_of_eq halive.1 rfl (update_of_ne hid _ _)
    · exact h
  | discoverFromRedis id =>
    cases hs
    refine h.setRegistry rfl (fun halive => ⟨halive.1, ?_⟩) ⟨(h id).online, (h id).listed, ?_, ?_⟩
    · simpa [halive.1] using halive.2
    · rintro f ⟨⟩ hne
      exact ite_ne_right_iff.mp hne
    · rintro f ⟨⟩ hne
      obtain ⟨hhealthy, hnodes⟩ := (h id).listed hne
      simpa [hhealthy] using hnodes
  | updateServiceList id =>
    obtain ⟨f, hf, hs⟩ := map_eq_some_iff.mp hs
    cases hs
    refine h.setRegistry rfl (fun halive => halive) ⟨?_, ?_, nofun, nofun⟩
    · intro info hinfo
      obtain ⟨s, hs, rfl⟩ := map_eq_some_iff.mp hinfo
      cases hprev : (c.registries id).services n with
      | none => rfl
      | some prev =>
        have hrecent := hg (by simp [hprev]) f hf s hs
        have honline := (h id).online prev hprev
        have hoffline : ¬ offlineThreshold ≤ c.now - s.lastSeen :=
          Nat.not_le.mpr (hrecent.trans (by decide : suspiciousThreshold < offlineThreshold))
        simp [nextState, honline, hoffline, Nat.not_le.mpr hrecent]
    · intro hne
      exact (h id).seen f hf (fun hnone => hne (by simp [hnone]))
  | decommissionNode | recommissionNode | removeNode => exact h.about_other hg rfl hs

/-- Under this condition no registry ever has the node suspicious or offline, and no round drops it
from a list. -/
theorem heartbeating_node_online {as : List ClusterAction}
    (hg : Guarded (fun (c : Cluster) a => c.step a) (Beating n) .new as)
    (hrun : exec (fun (c : Cluster) a => c.step a) .new as = some c) :
    (∀ id info, (c.registries id).services n = some info → info.state = .online) ∧
    ∀ id f, (c.registries id).found = some f → (c.registries id).services n ≠ none → f n ≠ none := by
  have hnew : Steady n .new := fun _ => ⟨nofun, fun h => absurd rfl h, nofun, nofun⟩
  have h := exec_invariant (Steady n) (fun c a c' h hg hs => h.step hg hs) hnew hg hrun
  exact ⟨fun id => (h id).online, fun id => (h id).kept⟩

theorem heartbeating_node_online_twice :
    stateAfter "m" "n" (joined ++ beat ++ round "m") = some .online ∧
    ∀ c, exec (fun (c : Cluster) a => c.step a) .new (joined ++ beat ++ round "m") = some c →
      (∀ id info, (c.registries id).services "n" = some info → info.state = .online) ∧
      ∀ id f, (c.registries id).found = some f → (c.registries id).services "n" ≠ none → f "n" ≠ none :=
  ⟨by decide +kernel, fun _ => heartbeating_node_online (by decide +kernel)⟩

/-- The heartbeat does not renew the time in the record, so the node falls out although its health
key never runs out. -/
theorem heartbeating_node_offline :
    stateAfter "m" "n" (joined ++ beat ++ beat ++ round "m") = some .suspicious ∧
    stateAfter "m" "n" (joined ++ beat ++ beat ++ beat ++ round "m") = some .offline := by
  decide +kernel

/-- Nobody registers the node or recommissions or removes it, its health key does not run out, and
the registry is not started again. -/
def StaysDown (id n : String) (c : Cluster) : ClusterAction → Prop
  | .tick seconds => ∀ expires ∈ c.health n, c.now < expires → c.now + seconds < expires
  | .start id' => id' ≠ n ∧ id' ≠ id
  | .recommissionNode _ m | .removeNode _ m => m ≠ n
  | _ => True

instance : ∀ a, Decidable (StaysDown id n c a)
  | .tick _ => inferInstanceAs (Decidable (∀ expires ∈ c.health n, _))
  | .start _ => inferInstanceAs (Decidable (_ ∧ _))
  | .recommissionNode _ _ | .removeNode _ _ => inferInstanceAs (Decidable (_ ≠ _))
  | .sendHeartbeat _ | .discoverFromRedis _ | .updateServiceList _ | .decommissionNode _ _ =>
    inferInstanceAs (Decidable True)

structure Down (id n : String) (c : Cluster) : Prop where
  listed : ∃ info, (c.registries id).services n = some info ∧ info.state = .decommissioning
  registered : ∃ info, c.nodes n = some info ∧ info.state = .decommissioning
  healthy : c.healthy n = true
  kept : ∀ f, (c.registries id).found = some f → f n ≠ none

lemma Down.about_other (h : Down id n c) {m : String} (hm : m ≠ n) (ha : a.about = some m)
    (hs : c.step a = some c') : Down id n c' := by
  obtain ⟨hnow, hnodes, hhealth, hregistries⟩ := step_about_other hm ha hs
  obtain ⟨hservices, hfound⟩ := hregistries id
  exact ⟨hservices ▸ h.listed, hnodes ▸ h.registered, healthy_of_eq h.healthy hnow hhealth,
    hfound ▸ h.kept⟩

lemma Down.step (h : Down id n c) (hg : StaysDown id n c a) (hs : c.step a = some c') : Down id n c' := by
  cases a with
  | tick =>
    cases hs
    obtain ⟨expires, hexpires, hlt⟩ := healthy_iff.mp h.healthy
    exact ⟨h.listed, h.registered, healthy_iff.mpr ⟨expires, hexpires, hg expires hexpires hlt⟩, h.kept⟩
  | start id' =>
    cases hs
    have hregistry : (c.setRegistry id' ⟨fun _ => none, none⟩).registries id = c.registries id :=
      registry_of_ne hg.2.symm _
    refine ⟨?_, ?_, ?_, ?_⟩
    · exact hregistry.symm ▸ h.listed
    · simpa [update_of_ne hg.1.symm] using h.registered
    · exact healthy_of_eq h.healthy rfl (update_of_ne hg.1.symm _ _)
    · exact hregistry.symm ▸ h.kept
  | sendHeartbeat id' =>
    cases hs
    split
    · refine ⟨h.listed, h.registered, ?_, h.kept⟩
      by_cases hid : n = id'
      · subst hid
        simp [Cluster.healthy, defaultNodeTTL]
      · exact healthy_of_eq h.healthy rfl (update_of_ne hid _ _)
    · exact h
  | discoverFromRedis id' =>
    cases hs
    obtain ⟨info, hinfo, hstate⟩ := h.registered
    have hfound : (if c.healthy n then c.nodes n else none) = some info := by rw [if_pos h.healthy, hinfo]
    refine ⟨?_, ⟨info, hfound, hstate⟩, h.healthy, ?_⟩
    · by_cases hid : id = id'
      · subst hid
        simpa using h.listed
      · simpa [registry_of_ne hid] using h.listed
    · by_cases hid : id = id'
      · subst hid
        simp [hfound]
      · simpa [registry_of_ne hid] using h.kept
  | updateServiceList id' =>
    obtain ⟨f, hf, hs⟩ := map_eq_some_iff.mp hs
    cases hs
    by_cases hid : id = id'
    · subst hid
      obtain ⟨info, hinfo, hstate⟩ := h.listed
      obtain ⟨s, hs⟩ := ne_none_iff_exists'.mp (h.kept f hf)
      refine ⟨?_, h.registered, h.healthy, by simp⟩
      simp [hs, hinfo, nextState, hstate]
    · refine ⟨?_, h.registered, h.healthy, ?_⟩
      · simpa [registry_of_ne hid] using h.listed
      · simpa [registry_of_ne hid] using h.kept
  | decommissionNode id' m =>
    by_cases hm : m = n
    · subst hm
      obtain ⟨s, hs', hs⟩ := bind_eq_some_iff.mp hs
      split at hs <;> cases hs
      · refine ⟨?_, ⟨_, update_self _ _ _, rfl⟩, h.healthy, ?_⟩
        · by_cases hid : id = id'
          · subst hid
            simp [publish]
          · simpa [publish, registry_of_ne hid] using h.listed
        · by_cases hid : id = id'
          · subst hid
            simpa [publish] using h.kept
          · simpa [publish, registry_of_ne hid] using h.kept
    · exact h.about_other hm rfl hs
  | recommissionNode | removeNode => exact h.about_other hg rfl hs

def joinedCluster : Cluster := (exec (fun (c : Cluster) a => c.step a) .new joined).getD .new

def healthyAgain (as : List ClusterAction) : Bool :=
  (exec (fun (c : Cluster) a => c.step a) .new (joined ++ [.decommissionNode "m" "n"] ++ as)).any
    (fun c => c.getHealthyNodes "n")

open List

/-- The hash has 64 bits, so that the negation of the least value is negative again. -/
def hashString (s : String) : Int64 :=
  let h := s.toList.foldl (fun h c => 31 * h + Int64.ofNat c.toNat) 0
  if h < 0 then -h else h

/-- The services stand in the order in which the map is iterated; `none` is a panic. -/
def getNodeForKey (redisEnabled : Bool) (nodeID : String) (services : List (String × ServiceInfo))
    (key : String) : Option String :=
  if redisEnabled = false ∨ services = [] then some nodeID
  else
    let nodeIDs := (services.map Prod.fst).insertionSort (· ≤ ·)
    let nodeIndex := (hashString key).toInt.tmod nodeIDs.length
    if nodeIndex < 0 then none else nodeIDs[nodeIndex.toNat]?

def Healthy (s : ServiceInfo) : Prop := s.state = .online ∨ s.state = .suspicious

variable {key : String} {services services' : List (String × ServiceInfo)}

lemma hashString_nonneg (h : hashString key ≠ Int64.minValue) : 0 ≤ (hashString key).toInt := by
  unfold hashString at *
  generalize foldl _ _ _ = n at *
  by_cases hneg : n < 0
  · rw [if_pos hneg] at *
    have hlt : n.toInt < 0 := Int64.lt_iff_toInt_lt.mp hneg
    have hle := n.le_toInt
    have hmin : n.toInt ≠ -2 ^ 63 := by
      intro heq
      rw [Int64.toInt_inj.mp (heq.trans Int64.toInt_minValue.symm)] at h
      exact h rfl
    rw [Int64.toInt_neg, Int.bmod_eq_of_le (by omega) (by omega)]
    omega
  · rw [if_neg hneg] at *
    exact Int64.le_iff_toInt_le.mp (Int64.not_lt.mp hneg)

lemma getNodeForKey_perm (h : services.Perm services') (redisEnabled : Bool) (nodeID key : String) :
    getNodeForKey redisEnabled nodeID services key = getNodeForKey redisEnabled nodeID services' key := by
  have hsort : (services.map Prod.fst).insertionSort (· ≤ ·) = (services'.map Prod.fst).insertionSort (· ≤ ·) :=
    ((perm_insertionSort _ _).trans ((h.map _).trans (perm_insertionSort _ _).symm)).eq_of_pairwise'
      (pairwise_insertionSort _ _) (pairwise_insertionSort _ _)
  have hnil : services = [] ↔ services' = [] := by rw [← length_eq_zero_iff, h.length_eq, length_eq_zero_iff]
  simp only [getNodeForKey, hsort, hnil]

end MinIODB.Discovery
