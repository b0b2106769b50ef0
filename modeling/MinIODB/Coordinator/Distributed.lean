import Mathlib.Tactic

/-!
# Distributed queries

The coordinator plans a query from the distribution of files over nodes that it finds in
Redis, sends the unchanged text to every target node, and merges the answers. Nodes are
left out in three places: unhealthy ones after planning, failed ones before the answers are
merged, and those whose answer cannot be decoded while they are merged.

A Go map is a list of pairs here, in the order of insertion; the order in which targets are
asked has no effect because their answers arrive in any order.
-/
namespace MinIODB.Coordinator
open List

structure NodeInfo where
  id : String
  address : String
  port : String

def NodeInfo.nodeAddr (n : NodeInfo) : String := n.address ++ ":" ++ n.port

structure FileIndexEntry where
  node : Option String
  file : Option String

structure QueryPlan where
  targetNodes : List String
  fileMapping : List (String × List String)
  isDistributed : Bool

structure QueryCoordinator where
  self : NodeInfo
  getHealthyNodes : Option (List NodeInfo)
  nodeStatus : String → Option ℚ
  maxNodeLoad : ℚ
  redisEnabled : Bool
  scanKeys : String → Option (List FileIndexEntry)

/-- What happens during the execution of a plan: the answers of the local querier and of the
other nodes after all retries, whether the circuit breaker is open or time runs out, the
order in which answers arrive, and how answers are decoded and reduced. -/
structure Execution (Row : Type) where
  executeQuery : Except String String
  queryData : String → Except String String
  circuitOpen : Bool
  timedOut : Bool
  arrival : List String → List String
  arrival_perm : ∀ nodes, (arrival nodes).Perm nodes
  unmarshal : String → Option (List Row)
  reduce : List Row → Except String String

structure Answer where
  text : String
  sources : List String
  deriving DecidableEq

def addFile (node file : String) : List (String × List String) → List (String × List String)
  | [] => [(node, [file])]
  | (n, files) :: rest =>
    if n = node then (n, files ++ [file]) :: rest else (n, files) :: addFile node file rest

def addEntry (distribution : List (String × List String)) (e : FileIndexEntry) :
    List (String × List String) :=
  match e.node, e.file with
  | some node, some file => addFile node file distribution
  | _, _ => distribution

namespace QueryCoordinator
variable (c : QueryCoordinator)

def getDataDistribution (tables : List String) : Option (List (String × List String)) :=
  if c.redisEnabled then
    tables.foldlM (fun d table => (c.scanKeys table).map (fun entries => entries.foldl addEntry d)) []
  else some [(c.self.nodeAddr, [])]

def isNodeHealthy (nodeID : String) : Bool :=
  match c.nodeStatus nodeID with
  | some load => decide (load < c.maxNodeLoad)
  | none => false

def extractNodeIDFromAddr (addr : String) (nodes : List NodeInfo) : String :=
  ((nodes.find? (fun n => decide (n.nodeAddr = addr))).map NodeInfo.id).getD ""

def isHealthyTarget (nodes : List NodeInfo) (addr : String) : Bool :=
  decide (extractNodeIDFromAddr addr nodes ≠ "") && c.isNodeHealthy (extractNodeIDFromAddr addr nodes)

def createQueryPlan (tables : List String) : Except String QueryPlan :=
  match c.getHealthyNodes with
  | none => .error "failed to get healthy nodes"
  | some nodes =>
    if nodes.length ≤ 1 then .ok ⟨[], [], false⟩
    else
      match c.getDataDistribution tables with
      | none =>
        let healthy := (nodes.filter (fun n => c.isNodeHealthy n.id)).map NodeInfo.nodeAddr
        .ok ⟨if healthy = [] then nodes.map NodeInfo.nodeAddr else healthy, [], true⟩
      | some distribution =>
        let mapping := distribution.filter (fun p => !p.2.isEmpty)
        let targets := mapping.map Prod.fst
        let healthy := targets.filter (c.isHealthyTarget nodes)
        -- the plan stays distributed when only one healthy target is left
        .ok ⟨if healthy = [] then targets else healthy, mapping, decide (1 < targets.length)⟩

variable {Row : Type} (x : Execution Row)

def executeRemoteQuery (nodeAddr : String) : Except String String :=
  if nodeAddr = c.self.nodeAddr then x.executeQuery else x.queryData nodeAddr

def mergeResults (results : List (String × String)) : Except String Answer :=
  let decoded := results.filterMap (fun r => (x.unmarshal r.2).map (fun rows => (r.1, rows)))
  (x.reduce (decoded.flatMap Prod.snd)).map (fun text => ⟨text, decoded.map Prod.fst⟩)

def successResults (results : List (String × Except String String)) : List (String × String) :=
  results.filterMap (fun r => r.2.toOption.map (fun data => (r.1, data)))

def aggregateQueryResults (results : List (String × Except String String)) : Except String Answer :=
  match successResults results with
  | [] => .error "all query nodes failed"
  | [(node, data)] => .ok ⟨data, [node]⟩
  | successResults => mergeResults x successResults

def executeDistributedPlan (plan : QueryPlan) : Except String Answer :=
  if x.circuitOpen then .error "circuit breaker is open"
  else if x.timedOut then .error "context deadline exceeded"
  else
    aggregateQueryResults x ((x.arrival plan.targetNodes).map (fun addr =>
      (addr, c.executeRemoteQuery x addr)))

def executeDistributedQuery (tables : List String) : Except String Answer := do
  let plan ← c.createQueryPlan tables
  if plan.isDistributed then c.executeDistributedPlan x plan
  else x.executeQuery.map (fun text => ⟨text, [c.self.nodeAddr]⟩)

end QueryCoordinator

section
variable {Row : Type} {c : QueryCoordinator} {x : Execution Row} {a : Answer} {tables : List String}
open QueryCoordinator

inductive ComputedFrom (c : QueryCoordinator) (x : Execution Row) : Answer → Prop
  | single {node data : String} (h : c.executeRemoteQuery x node = .ok data) :
    ComputedFrom c x ⟨data, [node]⟩
  | merged {text : String} (parts : List (String × List Row))
    (hparts : ∀ p ∈ parts, ∃ data, c.executeRemoteQuery x p.1 = .ok data ∧ x.unmarshal data = some p.2)
    (htext : x.reduce (parts.flatMap Prod.snd) = .ok text) :
    ComputedFrom c x ⟨text, parts.map Prod.fst⟩

lemma except_map_eq_ok {α β ε : Type} {f : α → β} {r : Except ε α} {b : β} (h : r.map f = .ok b) :
    ∃ v, r = .ok v ∧ f v = b := by
  cases r with
  | error => cases h
  | ok v => exact ⟨v, rfl, Except.ok.inj h⟩

def succeeded (c : QueryCoordinator) (x : Execution Row) (nodes : List String) : List (String × String) :=
  nodes.filterMap (fun addr => (c.executeRemoteQuery x addr).toOption.map (fun data => (addr, data)))

lemma successResults_map (nodes : List String) :
    successResults (nodes.map (fun addr => (addr, c.executeRemoteQuery x addr))) = succeeded c x nodes :=
  filterMap_map

variable {nodes : List String} {d : List (String × List String)} {plan : QueryPlan}

lemma mem_succeeded {node data : String} :
    (node, data) ∈ succeeded c x nodes ↔ node ∈ nodes ∧ c.executeRemoteQuery x node = .ok data := by
  rw [succeeded, mem_filterMap]
  constructor
  · rintro ⟨addr, haddr, h⟩
    obtain ⟨data', hdata, hpair⟩ := Option.map_eq_some_iff.mp h
    cases hpair
    refine ⟨haddr, ?_⟩
    cases hr : c.executeRemoteQuery x node <;> rw [hr] at hdata <;> cases hdata
    rfl
  · rintro ⟨hnode, hr⟩
    exact ⟨node, hnode, by rw [hr]; rfl⟩

lemma succeeded_sublist (nodes : List String) : ((succeeded c x nodes).map Prod.fst).Sublist nodes := by
  induction nodes with
  | nil => exact List.Sublist.slnil
  | cons n ns ih =>
    rw [succeeded, filterMap_cons]
    cases c.executeRemoteQuery x n with
    | error => exact ih.cons n
    | ok => exact ih.cons_cons n

lemma succeeded_all (h : ∀ n ∈ nodes, ∃ data, c.executeRemoteQuery x n = .ok data) :
    (succeeded c x nodes).map Prod.fst = nodes := by
  induction nodes with
  | nil => rfl
  | cons n ns ih =>
    obtain ⟨data, hdata⟩ := h n (.head _)
    have hrest := ih (fun m hm => h m (mem_cons_of_mem n hm))
    rw [succeeded, filterMap_cons, hdata]
    exact congrArg (n :: ·) hrest

def decoded (x : Execution Row) (results : List (String × String)) : List (String × List Row) :=
  results.filterMap (fun r => (x.unmarshal r.2).map (fun rows => (r.1, rows)))

lemma mem_decoded {results : List (String × String)} {p : String × List Row} :
    p ∈ decoded x results ↔ ∃ data, (p.1, data) ∈ results ∧ x.unmarshal data = some p.2 := by
  rw [decoded, mem_filterMap]
  constructor
  · rintro ⟨r, hr, h⟩
    obtain ⟨rows, hrows, rfl⟩ := Option.map_eq_some_iff.mp h
    exact ⟨r.2, hr, hrows⟩
  · rintro ⟨data, hdata, hrows⟩
    exact ⟨(p.1, data), hdata, by rw [hrows]; rfl⟩

lemma decoded_sublist (results : List (String × String)) :
    ((decoded x results).map Prod.fst).Sublist (results.map Prod.fst) := by
  induction results with
  | nil => exact List.Sublist.slnil
  | cons r rs ih =>
    rw [decoded, filterMap_cons]
    cases x.unmarshal r.2 with
    | none => exact ih.cons r.1
    | some => exact ih.cons_cons r.1

lemma aggregate_cases
    (h : aggregateQueryResults x (nodes.map (fun addr => (addr, c.executeRemoteQuery x addr))) = .ok a) :
    (∃ node data, succeeded c x nodes = [(node, data)] ∧ a = ⟨data, [node]⟩) ∨
    (2 ≤ (succeeded c x nodes).length ∧ a.sources = (decoded x (succeeded c x nodes)).map Prod.fst ∧
      x.reduce ((decoded x (succeeded c x nodes)).flatMap Prod.snd) = .ok a.text) := by
  rw [aggregateQueryResults, successResults_map] at h
  split at h
  · cases h
  · rename_i node data hs
    exact .inl ⟨node, data, hs, (Except.ok.inj h).symm⟩
  · rename_i hnil hsingle
    obtain ⟨text, htext, rfl⟩ := except_map_eq_ok h
    refine .inr ⟨?_, rfl, htext⟩
    rcases hs : succeeded c x nodes with _ | ⟨⟨node, data⟩, _ | ⟨r, rs⟩⟩
    · exact absurd hs hnil
    · exact absurd hs (hsingle node data)
    · simp

section
variable (h : c.executeDistributedQuery x tables = .ok a)
include h

lemma answer_cases :
    ∃ plan, c.createQueryPlan tables = .ok plan ∧
      ((plan.isDistributed = false ∧ a.sources = [c.self.nodeAddr] ∧ x.executeQuery = .ok a.text) ∨
      (plan.isDistributed ∧ aggregateQueryResults x ((x.arrival plan.targetNodes).map
        (fun addr => (addr, c.executeRemoteQuery x addr))) = .ok a)) := by
  rw [executeDistributedQuery] at h
  cases hplan : c.createQueryPlan tables with
  | error =>
    rw [hplan] at h
    cases h
  | ok plan =>
    rw [hplan] at h
    refine ⟨plan, rfl, ?_⟩
    change (if plan.isDistributed = true then c.executeDistributedPlan x plan
      else x.executeQuery.map (fun text => ⟨text, [c.self.nodeAddr]⟩)) = .ok a at h
    split at h
    · rename_i hdistributed
      refine .inr ⟨hdistributed, ?_⟩
      rw [executeDistributedPlan] at h
      split at h
      · cases h
      · split at h
        · cases h
        · exact h
    · rename_i hlocal
      obtain ⟨text, htext, rfl⟩ := except_map_eq_ok h
      exact .inl ⟨by simpa using hlocal, rfl, htext⟩

lemma computedFrom_of_ok : ComputedFrom c x a := by
  obtain ⟨plan, -, ⟨-, hsources, htext⟩ | ⟨-, haggregate⟩⟩ := answer_cases h
  · have hself : c.executeRemoteQuery x c.self.nodeAddr = .ok a.text := by
      rw [executeRemoteQuery, if_pos rfl, htext]
    obtain ⟨text, sources⟩ := a
    cases hsources
    exact .single hself
  · rcases aggregate_cases haggregate with ⟨node, data, hs, rfl⟩ | ⟨-, hsources, htext⟩
    · have hmem : (node, data) ∈ succeeded c x (x.arrival plan.targetNodes) := by simp [hs]
      exact .single (mem_succeeded.mp hmem).2
    · obtain ⟨text, sources⟩ := a
      cases hsources
      refine .merged _ (fun p hp => ?_) htext
      obtain ⟨data, hdata, hrows⟩ := mem_decoded.mp hp
      exact ⟨data, (mem_succeeded.mp hdata).2, hrows⟩

end

def holders (distribution : List (String × List String)) : List String :=
  (distribution.filter (fun p => !p.2.isEmpty)).map Prod.fst

structure NothingLost (c : QueryCoordinator) (x : Execution Row) (nodes : List NodeInfo)
    (distribution : List (String × List String)) : Prop where
  alone : nodes.length ≤ 1 ∨ (holders distribution).length ≤ 1 →
    ∀ n ∈ holders distribution, n = c.self.nodeAddr
  healthy : (∀ n ∈ holders distribution, c.isHealthyTarget nodes n = true) ∨
    ∀ n ∈ holders distribution, c.isHealthyTarget nodes n = false
  answers : (∃ n ∈ holders distribution, ∃ data, c.executeRemoteQuery x n = .ok data) →
    ∀ n ∈ holders distribution, ∃ data rows, c.executeRemoteQuery x n = .ok data ∧
      x.unmarshal data = some rows

lemma plan_of_distribution {nodes : List NodeInfo}
    (hnodes : c.getHealthyNodes = some nodes) (hd : c.getDataDistribution tables = some d)
    (hplan : c.createQueryPlan tables = .ok plan) :
    (plan.isDistributed = false ∧ (nodes.length ≤ 1 ∨ (holders d).length ≤ 1)) ∨
    (plan.isDistributed ∧ 1 < (holders d).length ∧
      plan.targetNodes = if (holders d).filter (c.isHealthyTarget nodes) = [] then holders d
        else (holders d).filter (c.isHealthyTarget nodes)) := by
  rw [createQueryPlan, hnodes] at hplan
  dsimp only at hplan
  split at hplan
  · rename_i hfew
    cases hplan
    exact .inl ⟨rfl, .inl hfew⟩
  · rw [hd] at hplan
    dsimp only at hplan
    cases hplan
    by_cases hone : 1 < (holders d).length
    · exact .inr ⟨decide_eq_true hone, hone, rfl⟩
    · exact .inl ⟨decide_eq_false hone, .inr (Nat.le_of_not_lt hone)⟩

lemma addFile_keys (node file : String) (d : List (String × List String)) :
    (addFile node file d).map Prod.fst =
      if node ∈ d.map Prod.fst then d.map Prod.fst else d.map Prod.fst ++ [node] := by
  induction d with
  | nil => rfl
  | cons p rest ih =>
    obtain ⟨n, files⟩ := p
    by_cases hn : n = node
    · simp [addFile, hn]
    · have hne : node ≠ n := fun h => hn h.symm
      simp only [addFile, if_neg hn, map_cons, ih, mem_cons, hne, false_or]
      split <;> rfl

lemma addEntry_nodup (h : (d.map Prod.fst).Nodup) (e : FileIndexEntry) :
    ((addEntry d e).map Prod.fst).Nodup := by
  unfold addEntry
  split
  · rename_i node file hnode hfile
    rw [addFile_keys]
    split
    · exact h
    · rename_i hnew
      exact nodup_append.mpr ⟨h, nodup_singleton node, by
        rintro n hn m hm rfl
        exact hnew (mem_singleton.mp hm ▸ hn)⟩
  · exact h

lemma distribution_nodup (h : c.getDataDistribution tables = some d) :
    (d.map Prod.fst).Nodup := by
  rw [getDataDistribution] at h
  split at h
  · have hfold : ∀ (entries : List FileIndexEntry) (d : List (String × List String)),
        (d.map Prod.fst).Nodup → ((entries.foldl addEntry d).map Prod.fst).Nodup := by
      intro entries
      induction entries with
      | nil => exact fun d hd => hd
      | cons e es ih => exact fun d hd => ih _ (addEntry_nodup hd e)
    have hrun : ∀ (ts : List String) (d₀ : List (String × List String)), (d₀.map Prod.fst).Nodup →
        ts.foldlM (fun d table => (c.scanKeys table).map (fun entries => entries.foldl addEntry d)) d₀ =
          some d → (d.map Prod.fst).Nodup := by
      intro ts
      induction ts with
      | nil =>
        intro d₀ hd₀ h
        cases h
        exact hd₀
      | cons t ts ih =>
        intro d₀ hd₀ h
        rw [foldlM_cons] at h
        obtain ⟨d₁, hd₁, h⟩ := Option.bind_eq_some_iff.mp h
        obtain ⟨entries, -, rfl⟩ := Option.map_eq_some_iff.mp hd₁
        exact ih _ (hfold entries d₀ hd₀) h
    exact hrun tables [] nodup_nil h
  · cases h
    exact nodup_singleton _

lemma targets_nodup {nodes : List NodeInfo} (hnodes : c.getHealthyNodes = some nodes)
    (hnodup : (nodes.map NodeInfo.nodeAddr).Nodup) (hplan : c.createQueryPlan tables = .ok plan) :
    plan.targetNodes.Nodup := by
  rw [createQueryPlan, hnodes] at hplan
  dsimp only at hplan
  split at hplan
  · cases hplan
    exact nodup_nil
  · split at hplan <;> cases hplan
    · dsimp only
      split
      · exact hnodup
      · exact hnodup.sublist (filter_sublist.map NodeInfo.nodeAddr)
    · rename_i d hd
      have hholders : (holders d).Nodup :=
        (distribution_nodup hd).sublist (filter_sublist.map Prod.fst)
      dsimp only
      split
      · exact hholders
      · exact hholders.filter _

lemma sources_nodup {nodes : List NodeInfo} (hnodes : c.getHealthyNodes = some nodes)
    (hnodup : (nodes.map NodeInfo.nodeAddr).Nodup) (h : c.executeDistributedQuery x tables = .ok a) :
    a.sources.Nodup := by
  obtain ⟨plan, hplan, ⟨-, hsources, -⟩ | ⟨-, haggregate⟩⟩ := answer_cases h
  · rw [hsources]
    exact nodup_singleton _
  · rcases aggregate_cases haggregate with ⟨n, data, -, rfl⟩ | ⟨-, hsources, -⟩
    · exact nodup_singleton n
    · have htargets := targets_nodup hnodes hnodup hplan
      rw [hsources]
      refine List.Nodup.sublist ((decoded_sublist _).trans (succeeded_sublist _)) ?_
      exact (x.arrival_perm plan.targetNodes).nodup_iff.mpr htargets

variable {Stored : Type}

def rowsRead (stored : Multiset Stored) (buffer : String → Multiset Stored) (a : Answer) :
    Multiset Stored :=
  (a.sources.map (fun node => stored + buffer node)).sum

def rowsOnce (stored : Multiset Stored) (buffer : String → Multiset Stored) (nodes : List NodeInfo) :
    Multiset Stored :=
  stored + (nodes.map (fun n => buffer n.nodeAddr)).sum

variable {stored : Multiset Stored} {buffer : String → Multiset Stored}

lemma rowsRead_eq (a : Answer) :
    rowsRead stored buffer a = a.sources.length • stored + (a.sources.map buffer).sum := by
  rw [rowsRead, sum_map_add, map_const', sum_replicate]

lemma sum_map_eq_of_subset {f : String → Multiset Stored} {l l' : List String} (hl : l.Nodup)
    (hl' : l'.Nodup) (hsub : ∀ n ∈ l, n ∈ l') (hzero : ∀ n ∈ l', n ∉ l → f n = 0) :
    (l.map f).sum = (l'.map f).sum := by
  rw [← sum_toFinset f hl, ← sum_toFinset f hl']
  refine Finset.sum_subset (fun n hn => ?_) (fun n hn hnot => ?_)
  · exact mem_toFinset.mpr (hsub n (mem_toFinset.mp hn))
  · exact hzero n (mem_toFinset.mp hn) (fun hmem => hnot (mem_toFinset.mpr hmem))

end

open QueryCoordinator

def node1 : NodeInfo := ⟨"n1", "10.0.0.1", "9000"⟩

def node2 : NodeInfo := ⟨"n2", "10.0.0.2", "9000"⟩

def twoNodes (load : ℚ) (entries : List FileIndexEntry) : QueryCoordinator where
  self := node1
  getHealthyNodes := some [node1, node2]
  nodeStatus := fun id => if id = "n1" then some 0 else if id = "n2" then some load else none
  maxNodeLoad := 9 / 10
  redisEnabled := true
  scanKeys := fun _ => some entries

def onNode (n : NodeInfo) (file : String) : FileIndexEntry := ⟨some n.nodeAddr, some file⟩

def answering (first second : Except String String) : Execution ℕ where
  executeQuery := first
  queryData := fun _ => second
  circuitOpen := false
  timedOut := false
  arrival := id
  arrival_perm := fun _ => List.Perm.rfl
  unmarshal := fun text => if text = "[]" then some [] else if text = "[1]" then some [1] else none
  reduce := fun rows => .ok s!"{rows.length} rows"

def bothHold : List FileIndexEntry := [onNode node1 "a.parquet", onNode node2 "b.parquet"]

end MinIODB.Coordinator
