import MinIODB.Replication.Checkpoint

/-!
# Replication cycles

A cycle loads the checkpoint of a bucket, lists the bucket, selects the newest objects that the
checkpoint does not cover, and copies them one by one. After each copy it enters the time of
that moment into the checkpoint, not the time of the version that it has copied. A write that
falls between the copy and that moment is therefore covered without having been copied.

`syncOnce` and `SyncBucket` share their steps; writers act on the source at any moment. A
listing is whatever the server answers. The status, the counters and the pauses of the
throttler are left out.
-/
namespace MinIODB.Replication
open Transition Selection List

structure SourceObject where
  content : List UInt8
  lastModified : ℤ
  deriving DecidableEq

def checkpointBatchSize : ℕ := 100

def defaultMaxObjectsSync : ℕ := 10000

def outdated (c : SyncCheckpoint) (obj : String × ℤ) : Bool :=
  decide (obj.1 ≠ "") &&
    match c.getObjectVersion obj.1 with
    | none => true
    | some lastSynced => decide (lastSynced < obj.2)

def maxObjects (maxObjectsPerSync : ℤ) : ℕ :=
  if maxObjectsPerSync ≤ 0 then defaultMaxObjectsSync else maxObjectsPerSync.toNat

def detectIncremental (maxObjectsPerSync : ℤ) (c : SyncCheckpoint) (listing : List (String × ℤ)) : List String :=
  ((newest Prod.snd (maxObjects maxObjectsPerSync) (listing.filter (outdated c))).insertionSort
    (fun a b => b.2 ≤ a.2)).map Prod.fst

section
variable {k : ℕ} {l : List (String × ℤ)}

lemma exists_detected (hk : 1 ≤ k) (c : SyncCheckpoint) (l : List (String × ℤ)) :
    ∃ kept : List (String × ℤ), detectIncremental k c l = kept.map Prod.fst ∧
      Holds Prod.snd k (l.filter (outdated c)) kept ∧ kept.Pairwise (fun o o' => o'.2 ≤ o.2) := by
  have hmax : maxObjects (k : ℤ) = k := by
    rw [maxObjects, if_neg (by omega), Int.toNat_natCast]
  let newer : String × ℤ → String × ℤ → Prop := fun o o' => o'.2 ≤ o.2
  have : Std.Total newer := ⟨fun o o' => le_total o'.2 o.2⟩
  have : IsTrans _ newer := ⟨fun _ _ _ h h' => h'.trans h⟩
  exact ⟨_, by rw [detectIncremental, hmax], (holds_newest _ _ _).perm (perm_insertionSort _ _).symm,
    pairwise_insertionSort newer _⟩

end

inductive CycleKind where
  | syncOnce
  | syncBucket
  deriving DecidableEq

structure Cycle where
  kind : CycleKind
  bucket : String
  checkpoint : SyncCheckpoint
  rest : List String
  index : ℕ

inductive SyncPhase where
  | idle
  | detecting (kind : CycleKind) (bucket : String) (checkpoint : SyncCheckpoint)
  | copying (c : Cycle)
  | statted (c : Cycle) (objectKey : String) (size : ℕ)
  | opened (c : Cycle) (objectKey : String) (size : ℕ) (content : List UInt8)
  | stored (c : Cycle) (objectKey : String)
  | saving (c : Cycle)
  | finishing (c : Cycle)

structure Replica where
  now : ℤ
  source : String → String → Option SourceObject
  dest : String → String → Option (List UInt8)
  storage : Storage
  process : Process
  phase : SyncPhase
  completed : ℕ

inductive SyncAction where
  | tick (d : ℕ)
  | write (bucket objectKey : String) (content : List UInt8)
  | restart (host : ℕ)
  | start (kind : CycleKind) (bucket : String) (e : StoreEnv)
  | detect (listing : Option (List (String × ℤ)))
  | stop (e : StoreEnv)
  | throttleStopped (e : StoreEnv)
  | waitFailed
  | overloaded
  | stat (ok : Bool)
  | openStream (ok : Bool)
  | put (ok applied : Bool)
  | update
  | save (e : StoreEnv)

namespace Replica
variable (keyPrefix : String) (maxObjectsPerSync : ℤ)

def saveCheckpoint (s : Replica) (e : StoreEnv) (c : Cycle) : Replica :=
  { s with
    storage := (Replication.save keyPrefix e s.storage s.process c.bucket c.checkpoint).1
    process := (Replication.save keyPrefix e s.storage s.process c.bucket c.checkpoint).2 }

def putObject (s : Replica) (bucket objectKey : String) (content : List UInt8) : Replica :=
  { s with
    dest := Function.update s.dest bucket (Function.update (s.dest bucket) objectKey (some content)) }

def writeObject (s : Replica) (bucket objectKey : String) (content : List UInt8) : Replica :=
  { s with
    source := Function.update s.source bucket
      (Function.update (s.source bucket) objectKey (some ⟨content, s.now⟩)) }

def skip (s : Replica) (c : Cycle) : Replica := { s with phase := .copying { c with index := c.index + 1 } }

def stepCycle (s : Replica) : SyncAction → Option Replica
  | .start kind bucket e =>
    match s.phase with
    | .idle =>
      let (result, process) := load keyPrefix e s.storage s.process bucket
      some { s with
        process := process
        phase := .detecting kind bucket (result.toOption.getD newSyncCheckpoint) }
    | _ => none
  | .detect listing =>
    match s.phase, listing with
    | .detecting _ _ _, none => some { s with phase := .idle }
    | .detecting kind bucket c, some listing =>
      match kind, detectIncremental maxObjectsPerSync c listing with
      | .syncOnce, [] => some { s with phase := .idle, completed := s.completed + 1 }
      | kind, objects => some { s with phase := .copying ⟨kind, bucket, c, objects, 0⟩ }
    | _, _ => none
  | .stop e =>
    match s.phase with
    | .copying c => if c.rest = [] then none else some { s.saveCheckpoint keyPrefix e c with phase := .idle }
    | _ => none
  | .throttleStopped e =>
    match s.phase with
    | .copying c =>
      if c.rest = [] then none
      else
        match c.kind with
        | .syncOnce => some { s.saveCheckpoint keyPrefix e c with phase := .idle }
        | .syncBucket => some { s with phase := .idle }
    | _ => none
  | .waitFailed =>
    match s.phase with
    | .copying c => if c.rest = [] then none else some { s with phase := .idle }
    | _ => none
  | .overloaded =>
    match s.phase with
    | .copying c => if c.rest = [] then none else some { s with phase := .finishing c }
    | _ => none
  | .stat ok =>
    match s.phase with
    | .copying c =>
      match c.rest with
      | [] => none
      | objectKey :: rest =>
        match ok, s.source c.bucket objectKey with
        | true, some obj => some { s with phase := .statted { c with rest := rest } objectKey obj.content.length }
        | _, _ => some (s.skip { c with rest := rest })
    | _ => none
  | .openStream ok =>
    match s.phase with
    | .statted c objectKey size =>
      match ok, s.source c.bucket objectKey with
      | true, some obj => some { s with phase := .opened c objectKey size obj.content }
      | _, _ => some (s.skip c)
    | _ => none
  | .put ok applied =>
    match s.phase with
    | .opened c objectKey size content =>
      -- a stream that is too short is an error
      if content.length < size then some (s.skip c)
      else if ok then some { s.putObject c.bucket objectKey (content.take size) with phase := .stored c objectKey }
      else if applied then some ((s.putObject c.bucket objectKey (content.take size)).skip c)
      else some (s.skip c)
    | _ => none
  | .update =>
    match s.phase with
    | .stored c objectKey =>
      let c' : Cycle := { c with checkpoint := c.checkpoint.updateObjectVersion objectKey s.now s.now }
      if (c.index + 1) % checkpointBatchSize = 0 then some { s with phase := .saving c' }
      else some (s.skip c')
    | _ => none
  | .save e =>
    match s.phase with
    | .saving c => some ((s.saveCheckpoint keyPrefix e c).skip c)
    | .finishing c => some { s.saveCheckpoint keyPrefix e c with phase := .idle, completed := s.completed + 1 }
    | .copying c =>
      if c.rest = [] then
        some { s.saveCheckpoint keyPrefix e c with phase := .idle, completed := s.completed + 1 }
      else none
    | _ => none
  | _ => none

def step (s : Replica) : SyncAction → Option Replica
  | .tick d => some { s with now := s.now + d }
  | .write bucket objectKey content => some (s.writeObject bucket objectKey content)
  | .restart host => some { s with process := ⟨host, false⟩, phase := .idle }
  | act => s.stepCycle keyPrefix maxObjectsPerSync act

end Replica

variable {keyPrefix : String} {maxObjectsPerSync : ℤ}

inductive CycleStep (keyPrefix : String) (maxObjectsPerSync : ℤ) (s : Replica) : SyncAction → Replica → Prop
  | start (kind : CycleKind) (bucket : String) (e : StoreEnv) (hphase : s.phase = .idle) :
    CycleStep keyPrefix maxObjectsPerSync s (.start kind bucket e)
      { s with
        process := (load keyPrefix e s.storage s.process bucket).2
        phase := .detecting kind bucket
          ((load keyPrefix e s.storage s.process bucket).1.toOption.getD newSyncCheckpoint) }
  | listFailed (kind : CycleKind) (bucket : String) (c : SyncCheckpoint)
    (hphase : s.phase = .detecting kind bucket c) :
    CycleStep keyPrefix maxObjectsPerSync s (.detect none) { s with phase := .idle }
  | nothing (bucket : String) (c : SyncCheckpoint) (listing : List (String × ℤ))
    (hphase : s.phase = .detecting .syncOnce bucket c) (hnone : detectIncremental maxObjectsPerSync c listing = []) :
    CycleStep keyPrefix maxObjectsPerSync s (.detect (some listing))
      { s with phase := .idle, completed := s.completed + 1 }
  | detect (kind : CycleKind) (bucket : String) (c : SyncCheckpoint) (listing : List (String × ℤ))
    (hphase : s.phase = .detecting kind bucket c) :
    CycleStep keyPrefix maxObjectsPerSync s (.detect (some listing))
      { s with phase := .copying ⟨kind, bucket, c, detectIncremental maxObjectsPerSync c listing, 0⟩ }
  | stop (act : SyncAction) (e : StoreEnv) (c : Cycle) (hphase : s.phase = .copying c)
    (hact : act = .stop e ∨ act = .throttleStopped e) :
    CycleStep keyPrefix maxObjectsPerSync s act { s.saveCheckpoint keyPrefix e c with phase := .idle }
  | quit (act : SyncAction) (c : Cycle) (hphase : s.phase = .copying c)
    (hact : act = .waitFailed ∨ ∃ e, act = .throttleStopped e) :
    CycleStep keyPrefix maxObjectsPerSync s act { s with phase := .idle }
  | overloaded (c : Cycle) (hphase : s.phase = .copying c) :
    CycleStep keyPrefix maxObjectsPerSync s .overloaded { s with phase := .finishing c }
  | statFailed (ok : Bool) (c : Cycle) (objectKey : String) (rest : List String) (hphase : s.phase = .copying c)
    (hrest : c.rest = objectKey :: rest) (hfailed : ok = false ∨ s.source c.bucket objectKey = none) :
    CycleStep keyPrefix maxObjectsPerSync s (.stat ok) (s.skip { c with rest := rest })
  | stat (c : Cycle) (objectKey : String) (rest : List String) (obj : SourceObject)
    (hphase : s.phase = .copying c) (hrest : c.rest = objectKey :: rest)
    (hobj : s.source c.bucket objectKey = some obj) :
    CycleStep keyPrefix maxObjectsPerSync s (.stat true)
      { s with phase := .statted { c with rest := rest } objectKey obj.content.length }
  | openFailed (ok : Bool) (c : Cycle) (objectKey : String) (size : ℕ)
    (hphase : s.phase = .statted c objectKey size) (hfailed : ok = false ∨ s.source c.bucket objectKey = none) :
    CycleStep keyPrefix maxObjectsPerSync s (.openStream ok) (s.skip c)
  | openStream (c : Cycle) (objectKey : String) (size : ℕ) (obj : SourceObject)
    (hphase : s.phase = .statted c objectKey size) (hobj : s.source c.bucket objectKey = some obj) :
    CycleStep keyPrefix maxObjectsPerSync s (.openStream true)
      { s with phase := .opened c objectKey size obj.content }
  | putFailed (ok applied : Bool) (c : Cycle) (objectKey : String) (size : ℕ) (content : List UInt8)
    (hphase : s.phase = .opened c objectKey size content) (hfailed : ok = false ∨ content.length < size) :
    CycleStep keyPrefix maxObjectsPerSync s (.put ok applied) (s.skip c)
  | putLost (c : Cycle) (objectKey : String) (size : ℕ) (content : List UInt8)
    (hphase : s.phase = .opened c objectKey size content) (hsize : size ≤ content.length) :
    CycleStep keyPrefix maxObjectsPerSync s (.put false true)
      ((s.putObject c.bucket objectKey (content.take size)).skip c)
  | put (applied : Bool) (c : Cycle) (objectKey : String) (size : ℕ) (content : List UInt8)
    (hphase : s.phase = .opened c objectKey size content) (hsize : size ≤ content.length) :
    CycleStep keyPrefix maxObjectsPerSync s (.put true applied)
      { s.putObject c.bucket objectKey (content.take size) with phase := .stored c objectKey }
  | update (c : Cycle) (objectKey : String) (hphase : s.phase = .stored c objectKey) :
    CycleStep keyPrefix maxObjectsPerSync s .update
      (s.skip { c with checkpoint := c.checkpoint.updateObjectVersion objectKey s.now s.now })
  | updateBatch (c : Cycle) (objectKey : String) (hphase : s.phase = .stored c objectKey) :
    CycleStep keyPrefix maxObjectsPerSync s .update
      { s with phase := .saving { c with checkpoint := c.checkpoint.updateObjectVersion objectKey s.now s.now } }
  | saveBatch (e : StoreEnv) (c : Cycle) (hphase : s.phase = .saving c) :
    CycleStep keyPrefix maxObjectsPerSync s (.save e) ((s.saveCheckpoint keyPrefix e c).skip c)
  | finish (e : StoreEnv) (c : Cycle)
    (hphase : s.phase = .finishing c ∨ s.phase = .copying c ∧ c.rest = []) :
    CycleStep keyPrefix maxObjectsPerSync s (.save e)
      { s.saveCheckpoint keyPrefix e c with phase := .idle, completed := s.completed + 1 }

variable {s s' : Replica} {act : SyncAction}

lemma CycleStep.of_stepCycle (h : s.stepCycle keyPrefix maxObjectsPerSync act = some s') :
    CycleStep keyPrefix maxObjectsPerSync s act s' := by
  cases hphase : s.phase <;> cases act <;> simp only [Replica.stepCycle, hphase] at h <;> try cases h
  case idle.start kind bucket e => exact .start kind bucket e hphase
  case detecting.detect listing =>
    cases listing with
    | none =>
      cases h
      exact .listFailed _ _ _ hphase
    | some =>
      simp only at h
      split at h <;> cases h
      · rename_i hnone
        exact .nothing _ _ _ hphase hnone
      · exact .detect _ _ _ _ hphase
  case copying.stop e =>
    split at h <;> cases h
    exact .stop _ e _ hphase (.inl rfl)
  case copying.throttleStopped e =>
    split at h
    · cases h
    · split at h <;> cases h
      · exact .stop _ e _ hphase (.inr rfl)
      · exact .quit _ _ hphase (.inr ⟨e, rfl⟩)
  case copying.waitFailed =>
    split at h <;> cases h
    exact .quit _ _ hphase (.inl rfl)
  case copying.overloaded =>
    split at h <;> cases h
    exact .overloaded _ hphase
  case copying.stat c ok =>
    split at h
    · cases h
    · rename_i objectKey rest hrest
      cases ok with
      | false =>
        cases h
        exact .statFailed _ c objectKey rest hphase hrest (.inl rfl)
      | true =>
        cases hobj : s.source c.bucket objectKey <;> simp only [hobj] at h <;> cases h
        · exact .statFailed _ c objectKey rest hphase hrest (.inr hobj)
        · exact .stat c objectKey rest _ hphase hrest hobj
  case copying.save e =>
    split at h <;> cases h
    rename_i hrest
    exact .finish e _ (.inr ⟨hphase, hrest⟩)
  case statted.openStream c objectKey size ok =>
    cases ok with
    | false =>
      cases h
      exact .openFailed _ c objectKey size hphase (.inl rfl)
    | true =>
      cases hobj : s.source c.bucket objectKey <;> simp only [hobj] at h <;> cases h
      · exact .openFailed _ c objectKey size hphase (.inr hobj)
      · exact .openStream c objectKey size _ hphase hobj
  case opened.put c objectKey size content ok applied =>
    by_cases hsize : content.length < size
    · rw [if_pos hsize] at h
      cases h
      exact .putFailed ok applied c objectKey size content hphase (.inr hsize)
    · rw [if_neg hsize] at h
      cases ok with
      | true =>
        cases h
        exact .put applied c objectKey size content hphase (not_lt.mp hsize)
      | false =>
        cases applied with
        | true =>
          cases h
          exact .putLost c objectKey size content hphase (not_lt.mp hsize)
        | false =>
          cases h
          exact .putFailed _ _ c objectKey size content hphase (.inl rfl)
  case stored.update =>
    split at h <;> cases h
    · exact .updateBatch _ _ hphase
    · exact .update _ _ hphase
  case saving.save e => exact .saveBatch e _ hphase
  case finishing.save e => exact .finish e _ (.inl hphase)

inductive ReplicaStep (keyPrefix : String) (maxObjectsPerSync : ℤ) (s : Replica) : SyncAction → Replica → Prop
  | tick (d : ℕ) : ReplicaStep keyPrefix maxObjectsPerSync s (.tick d) { s with now := s.now + d }
  | write (bucket objectKey : String) (content : List UInt8) :
    ReplicaStep keyPrefix maxObjectsPerSync s (.write bucket objectKey content)
      (s.writeObject bucket objectKey content)
  | restart (host : ℕ) :
    ReplicaStep keyPrefix maxObjectsPerSync s (.restart host) { s with process := ⟨host, false⟩, phase := .idle }
  | cycle {act : SyncAction} {s' : Replica} (h : CycleStep keyPrefix maxObjectsPerSync s act s') :
    ReplicaStep keyPrefix maxObjectsPerSync s act s'

lemma ReplicaStep.of_step (h : s.step keyPrefix maxObjectsPerSync act = some s') :
    ReplicaStep keyPrefix maxObjectsPerSync s act s' := by
  cases act with
  | tick d =>
    cases h
    exact .tick d
  | write bucket objectKey content =>
    cases h
    exact .write bucket objectKey content
  | restart host =>
    cases h
    exact .restart host
  | _ => exact .cycle (CycleStep.of_stepCycle h)

end MinIODB.Replication
