import MinIODB.Library.Selection
import MinIODB.Library.Transition
import Mathlib.Data.List.AList
import Mathlib.Data.List.TakeWhile

/-!
# Replication checkpoints

A checkpoint records for each object of a bucket when it was copied last. It is kept in Redis,
or in a file of the host once the store is degraded, and a store is degraded for good by the
first error. A key that is missing in Redis is such an error. So checkpoints survive in Redis
as long as no process looks for one that has never been saved.

Times are nanoseconds; the zero time is `none`. Encoding a checkpoint as JSON and decoding it
gives it back, with empty maps and lists for missing ones.
-/
namespace MinIODB.Replication
open Transition Selection List String AList Function

structure SyncCheckpoint where
  lastSyncTime : Option ℤ
  objectVersions : AList (fun _ : String => ℤ)
  syncedCount : ℤ
  failedObjects : List String

def newSyncCheckpoint : SyncCheckpoint := ⟨none, ∅, 0, []⟩

def maxCheckpointEntries : ℕ := 100000

namespace SyncCheckpoint

def size (c : SyncCheckpoint) : ℕ := c.objectVersions.entries.length

def pruneOldEntries (keep : ℕ) (c : SyncCheckpoint) : SyncCheckpoint :=
  if c.size ≤ keep then c
  else { c with objectVersions := (newest Sigma.snd keep c.objectVersions.entries).toAList }

def updateObjectVersion (c : SyncCheckpoint) (objectKey : String) (lastModified now : ℤ) : SyncCheckpoint :=
  let c := if maxCheckpointEntries ≤ c.size then c.pruneOldEntries (maxCheckpointEntries / 2) else c
  { c with
    objectVersions := c.objectVersions.insert objectKey lastModified
    syncedCount := c.syncedCount + 1
    lastSyncTime := some now }

def getObjectVersion (c : SyncCheckpoint) (objectKey : String) : Option ℤ := c.objectVersions.lookup objectKey

def loaded (c : SyncCheckpoint) : SyncCheckpoint :=
  if maxCheckpointEntries < c.size then c.pruneOldEntries maxCheckpointEntries else c

variable {c : SyncCheckpoint} {keep : ℕ} {objectKey : String} {t : ℤ}

lemma getObjectVersion_of_prune (h : (c.pruneOldEntries keep).getObjectVersion objectKey = some t) :
    c.getObjectVersion objectKey = some t := by
  unfold pruneOldEntries at h
  split at h
  · exact h
  · rw [getObjectVersion, lookup_to_alist] at h
    exact mem_lookup_iff.mpr (mem_of_mem_newest (of_mem_dlookup h))

lemma le_of_pruned {objectKey' : String} {t' : ℤ} (h : c.getObjectVersion objectKey = some t)
    (hgone : (c.pruneOldEntries keep).getObjectVersion objectKey = none)
    (hkept : (c.pruneOldEntries keep).getObjectVersion objectKey' = some t') : t ≤ t' := by
  unfold pruneOldEntries at hgone hkept
  split at hgone
  · rw [h] at hgone
    cases hgone
  · rename_i hsize
    rw [if_neg hsize] at hkept
    rw [getObjectVersion, lookup_to_alist] at hgone hkept
    have hmem := mem_lookup_iff.mp h
    rcases (holds_newest Sigma.snd keep c.objectVersions.entries).newest _ hmem with hstays | hle
    · exact absurd (mem_keys_of_mem hstays) (dlookup_eq_none.mp hgone)
    · exact hle _ (of_mem_dlookup hkept)

lemma dedupKeys_eq_self {l : List (Σ _ : String, ℤ)} (h : l.NodupKeys) : l.dedupKeys = l := by
  induction l with
  | nil => rfl
  | cons x l ih =>
    obtain ⟨hx, hl⟩ := nodupKeys_cons.mp h
    rw [dedupKeys_cons, ih hl, kinsert_def, kerase_of_notMem_keys hx]

lemma size_pruned (hsize : keep < c.size) : (c.pruneOldEntries keep).size = keep := by
  have hkeys := (holds_newest Sigma.snd keep c.objectVersions.entries).nodup_map c.objectVersions.nodupKeys
  rw [pruneOldEntries, if_neg hsize.not_ge]
  calc (newest Sigma.snd keep c.objectVersions.entries).dedupKeys.length
    _ = min keep c.size := by rw [dedupKeys_eq_self hkeys, length_newest, size]
    _ = keep := min_eq_left hsize.le

lemma size_prune (c : SyncCheckpoint) (keep : ℕ) : (c.pruneOldEntries keep).size ≤ keep := by
  by_cases hsize : c.size ≤ keep
  · rwa [pruneOldEntries, if_pos hsize]
  · exact (size_pruned (not_le.mp hsize)).le

lemma getObjectVersion_of_loaded (h : c.loaded.getObjectVersion objectKey = some t) :
    c.getObjectVersion objectKey = some t := by
  unfold loaded at h
  split at h
  · exact getObjectVersion_of_prune h
  · exact h

lemma size_loaded (c : SyncCheckpoint) : c.loaded.size ≤ maxCheckpointEntries := by
  unfold loaded
  split
  · exact size_prune c _
  · omega

structure Pruned (c c' : SyncCheckpoint) : Prop where
  lastSyncTime : c'.lastSyncTime = c.lastSyncTime
  syncedCount : c'.syncedCount = c.syncedCount
  failedObjects : c'.failedObjects = c.failedObjects
  whole : c.size ≤ maxCheckpointEntries → c' = c
  kept : ∀ objectKey t, c'.getObjectVersion objectKey = some t → c.getObjectVersion objectKey = some t
  oldest : ∀ objectKey objectKey' t t', c.getObjectVersion objectKey = some t →
    c'.getObjectVersion objectKey = none → c'.getObjectVersion objectKey' = some t' → t ≤ t'

lemma pruned_loaded (c : SyncCheckpoint) : c.Pruned c.loaded := by
  have hwhole : c.size ≤ maxCheckpointEntries → c.loaded = c := fun hsize => if_neg (not_lt.mpr hsize)
  by_cases hsize : c.size ≤ maxCheckpointEntries
  · rw [hwhole hsize]
    refine ⟨rfl, rfl, rfl, fun _ => rfl, fun _ _ h => h, fun _ _ _ _ h hgone _ => ?_⟩
    rw [h] at hgone
    cases hgone
  · have hloaded : c.loaded = c.pruneOldEntries maxCheckpointEntries := if_pos (not_le.mp hsize)
    refine ⟨?_, ?_, ?_, hwhole, fun _ _ => getObjectVersion_of_loaded, fun k k' t t' h hgone hkept => ?_⟩
    · rw [hloaded, pruneOldEntries, if_neg hsize]
    · rw [hloaded, pruneOldEntries, if_neg hsize]
    · rw [hloaded, pruneOldEntries, if_neg hsize]
    · rw [hloaded] at hgone hkept
      exact le_of_pruned h hgone hkept

lemma getObjectVersion_update {lastModified now : ℤ} {objectKey' : String}
    (h : (c.updateObjectVersion objectKey lastModified now).getObjectVersion objectKey' = some t) :
    objectKey' = objectKey ∧ t = lastModified ∨
      objectKey' ≠ objectKey ∧ c.getObjectVersion objectKey' = some t := by
  simp only [updateObjectVersion, getObjectVersion] at h
  by_cases heq : objectKey' = objectKey
  · subst heq
    rw [lookup_insert] at h
    exact .inl ⟨rfl, (Option.some.inj h).symm⟩
  · rw [lookup_insert_ne heq] at h
    refine .inr ⟨heq, ?_⟩
    split at h
    · exact getObjectVersion_of_prune h
    · exact h

lemma size_update (c : SyncCheckpoint) (objectKey : String) (t now : ℤ) :
    (c.updateObjectVersion objectKey t now).size ≤ maxCheckpointEntries := by
  have hinsert (l : AList (fun _ : String => ℤ)) : (l.insert objectKey t).entries.length ≤ l.entries.length + 1 :=
    Nat.succ_le_succ (kerase_sublist objectKey l.entries).length_le
  refine (hinsert _).trans ?_
  split
  · have hpruned := c.size_prune (maxCheckpointEntries / 2)
    unfold size maxCheckpointEntries at *
    omega
  · exact not_le.mp ‹_›

/-- The checkpoints that updates lead to. The map may be iterated in another order every time,
so that also among entries of the same time any may be the ones to go. -/
inductive Updated (c₀ : SyncCheckpoint) : SyncCheckpoint → Prop
  | start : Updated c₀ c₀
  | reorder {c : SyncCheckpoint} {versions : AList (fun _ : String => ℤ)} (h : Updated c₀ c)
    (hperm : versions.entries.Perm c.objectVersions.entries) : Updated c₀ { c with objectVersions := versions }
  | update {c : SyncCheckpoint} (objectKey : String) (lastModified now : ℤ) (h : Updated c₀ c) :
    Updated c₀ (c.updateObjectVersion objectKey lastModified now)

theorem checkpoint_bounded {c₀ : SyncCheckpoint} (hstart : c₀ = newSyncCheckpoint ∨ ∃ c, c₀ = loaded c)
    (h : Updated c₀ c) :
    c.size ≤ maxCheckpointEntries ∧
    (∀ objectKey t now, (c.updateObjectVersion objectKey t now).getObjectVersion objectKey = some t ∧
      ∀ key, key ≠ objectKey → (c.updateObjectVersion objectKey t now).getObjectVersion key =
        (if maxCheckpointEntries ≤ c.size then c.pruneOldEntries (maxCheckpointEntries / 2)
          else c).getObjectVersion key) ∧
    ∀ c keep, 1 ≤ keep → keep < size c → (c.pruneOldEntries keep).size = keep ∧
      (∀ key t, (c.pruneOldEntries keep).getObjectVersion key = some t → c.getObjectVersion key = some t) ∧
      ∀ key key' t t', c.getObjectVersion key = some t → (c.pruneOldEntries keep).getObjectVersion key = none →
        (c.pruneOldEntries keep).getObjectVersion key' = some t' → t ≤ t' := by
  refine ⟨?_, fun objectKey t now => ⟨lookup_insert _, fun key hne => lookup_insert_ne hne⟩,
    fun c keep _ hsize => ⟨size_pruned hsize, fun _ _ => getObjectVersion_of_prune, fun _ _ _ _ => le_of_pruned⟩⟩
  induction h with
  | start =>
    rcases hstart with rfl | ⟨c, rfl⟩
    · exact Nat.zero_le _
    · exact size_loaded c
  | reorder h hperm ih => exact hperm.length_eq.trans_le ih
  | update objectKey lastModified now => exact size_update _ objectKey lastModified now

theorem checkpoint_bounded_two :
    ((newSyncCheckpoint.updateObjectVersion "a" 1 1).updateObjectVersion "b" 2 2).size ≤ maxCheckpointEntries ∧
    (((newSyncCheckpoint.updateObjectVersion "a" 1 1).updateObjectVersion "b" 2 2).pruneOldEntries 1).size = 1 :=
  have h := checkpoint_bounded (.inl rfl) (.update "b" 2 2 (.update "a" 1 1 .start))
  ⟨h.1, (h.2.2 _ 1 le_rfl (by decide)).1⟩

end SyncCheckpoint

section

structure Process where
  host : ℕ
  degraded : Bool
  deriving DecidableEq

structure Storage where
  redis : String → Option SyncCheckpoint
  files : ℕ → String → Option SyncCheckpoint

structure StoreEnv where
  redisOk : Bool
  fileOk : Bool
  deriving DecidableEq

def buildKey (keyPrefix bucket : String) : String := keyPrefix ++ ":" ++ bucket

def base (path : List Char) : List Char :=
  if path = [] then ['.']
  else if (path.reverse.dropWhile (· = '/')) = [] then ['/']
  else ((path.reverse.dropWhile (· = '/')).takeWhile (· ≠ '/')).reverse

def getFallbackPath (bucket : String) : String :=
  "checkpoint_" ++ String.ofList (base bucket.toList) ++ ".json"

variable (keyPrefix : String)

def loadFromFile (e : StoreEnv) (w : Storage) (host : ℕ) (bucket : String) : Except String SyncCheckpoint :=
  if e.fileOk then
    match w.files host (getFallbackPath bucket) with
    | none => .ok newSyncCheckpoint
    | some c => .ok c.loaded
  else .error "read file"

def loadFromRedis (e : StoreEnv) (w : Storage) (bucket : String) : Except String SyncCheckpoint :=
  if e.redisOk then
    match w.redis (buildKey keyPrefix bucket) with
    | none => .error "get from redis: redis: nil"
    | some c => .ok c.loaded
  else .error "get from redis"

def load (e : StoreEnv) (w : Storage) (p : Process) (bucket : String) :
    Except String SyncCheckpoint × Process :=
  if p.degraded then (loadFromFile e w p.host bucket, p)
  else
    match loadFromRedis keyPrefix e w bucket with
    | .ok c => (.ok c, p)
    | .error _ => (loadFromFile e w p.host bucket, { p with degraded := true })

def saveToFile (e : StoreEnv) (w : Storage) (host : ℕ) (bucket : String) (c : SyncCheckpoint) : Storage :=
  if e.fileOk then
    { w with
      files := Function.update w.files host
        (Function.update (w.files host) (getFallbackPath bucket) (some c)) }
  else w

def save (e : StoreEnv) (w : Storage) (p : Process) (bucket : String) (c : SyncCheckpoint) : Storage × Process :=
  if p.degraded then (saveToFile e w p.host bucket c, p)
  else if e.redisOk then
    ({ w with redis := Function.update w.redis (buildKey keyPrefix bucket) (some c) }, p)
  else (saveToFile e w p.host bucket c, { p with degraded := true })

def clear (e : StoreEnv) (w : Storage) (p : Process) (bucket : String) : Storage where
  redis := if !p.degraded && e.redisOk then Function.update w.redis (buildKey keyPrefix bucket) none else w.redis
  files :=
    if e.fileOk then Function.update w.files p.host
      (Function.update (w.files p.host) (getFallbackPath bucket) none)
    else w.files

structure Cluster where
  storage : Storage
  processes : List Process

inductive StoreAction where
  | start (host : ℕ)
  | load (i : ℕ) (bucket : String) (e : StoreEnv)
  | save (i : ℕ) (bucket : String) (c : SyncCheckpoint) (e : StoreEnv)
  | clear (i : ℕ) (bucket : String) (e : StoreEnv)

namespace Cluster

def step (n : Cluster) : StoreAction → Option Cluster
  | .start host => some { n with processes := n.processes ++ [⟨host, false⟩] }
  | .load i bucket e => do
    let p ← n.processes[i]?
    return { n with processes := n.processes.set i (Replication.load keyPrefix e n.storage p bucket).2 }
  | .save i bucket c e => do
    let p ← n.processes[i]?
    let (storage, p') := Replication.save keyPrefix e n.storage p bucket c
    return ⟨storage, n.processes.set i p'⟩
  | .clear i bucket e => do
    let p ← n.processes[i]?
    return { n with storage := Replication.clear keyPrefix e n.storage p bucket }

def fresh (files : ℕ → String → Option SyncCheckpoint) : Cluster := ⟨⟨fun _ => none, files⟩, []⟩

end Cluster

def StoreAction.record (bucket : String) (r : Option SyncCheckpoint) : StoreAction → Option SyncCheckpoint
  | .save _ b c _ => if b = bucket then some c else r
  | .clear _ b _ => if b = bucket then none else r
  | _ => r

def latest (bucket : String) (as : List StoreAction) : Option SyncCheckpoint :=
  as.foldl (StoreAction.record bucket) none

def RedisWorks : StoreAction → Prop
  | .load _ _ e | .save _ _ _ e | .clear _ _ e => e.redisOk = true
  | .start _ => True

def LoadsSaved (n : Cluster) : StoreAction → Prop
  | .load _ bucket _ => (n.storage.redis (buildKey keyPrefix bucket)).isSome = true
  | _ => True

variable {keyPrefix} {n n' : Cluster} {act : StoreAction}

variable {bucket' bucket : String} {e : StoreEnv} {w : Storage} {p : Process} {c' : SyncCheckpoint}

lemma buildKey_injective :
    buildKey keyPrefix bucket = buildKey keyPrefix bucket' ↔ bucket = bucket' := by
  constructor
  · intro h
    have hlist := congrArg toList h
    simp only [buildKey, toList_append] at hlist
    exact toList_injective (append_cancel_left hlist)
  · rintro rfl
    rfl

variable {c : SyncCheckpoint}

lemma load_redis (hp : p.degraded = false) (he : e.redisOk)
    (hc : w.redis (buildKey keyPrefix bucket) = some c) : load keyPrefix e w p bucket = (.ok c.loaded, p) := by
  simp [load, hp, loadFromRedis, he, hc]

lemma load_cases (h : (load keyPrefix e w p bucket).1 = .ok c) :
    c = newSyncCheckpoint ∨ ∃ c₀, c = c₀.loaded ∧
      (w.redis (buildKey keyPrefix bucket) = some c₀ ∨ w.files p.host (getFallbackPath bucket) = some c₀) := by
  have hfile : loadFromFile e w p.host bucket = .ok c → c = newSyncCheckpoint ∨ ∃ c₀, c = c₀.loaded ∧
      (w.redis (buildKey keyPrefix bucket) = some c₀ ∨ w.files p.host (getFallbackPath bucket) = some c₀) := by
    intro h
    simp only [loadFromFile] at h
    split at h
    · split at h <;> cases h
      · exact .inl rfl
      · rename_i c₀ hc₀
        exact .inr ⟨c₀, rfl, .inr hc₀⟩
    · cases h
  unfold load at h
  split at h
  · exact hfile h
  · split at h
    · rename_i c₁ hredis
      cases h
      simp only [loadFromRedis] at hredis
      split at hredis
      · split at hredis <;> cases hredis
        rename_i c₀ hc₀
        exact .inr ⟨c₀, rfl, .inl hc₀⟩
      · cases hredis
    · exact hfile h

lemma save_redis {key : String} (h : (save keyPrefix e w p bucket c).1.redis key = some c') :
    w.redis key = some c' ∨ key = buildKey keyPrefix bucket ∧ c' = c := by
  have hfile : ∀ host, (saveToFile e w host bucket c).redis = w.redis := by
    intro host
    unfold saveToFile
    split <;> rfl
  unfold save at h
  split at h
  · rw [hfile] at h
    exact .inl h
  · split at h
    · simp only [update_apply] at h
      split at h
      · rename_i hkey
        cases h
        exact .inr ⟨hkey, rfl⟩
      · exact .inl h
    · rw [hfile] at h
      exact .inl h

lemma save_files {path : String} {host : ℕ} (h : (save keyPrefix e w p bucket c).1.files host path = some c') :
    w.files host path = some c' ∨ path = getFallbackPath bucket ∧ c' = c := by
  have hfile : (saveToFile e w p.host bucket c).files host path = some c' →
      w.files host path = some c' ∨ path = getFallbackPath bucket ∧ c' = c := by
    intro h
    unfold saveToFile at h
    split at h
    · by_cases hhost : host = p.host
      · subst hhost
        simp only [update_self, update_apply] at h
        split at h
        · rename_i hpath
          cases h
          exact .inr ⟨hpath, rfl⟩
        · exact .inl h
      · simp only [update_of_ne hhost] at h
        exact .inl h
    · exact .inl h
  unfold save at h
  split at h
  · exact hfile h
  · split at h
    · exact .inl h
    · exact hfile h

def PlainBucket (bucket : String) : Prop := bucket ≠ "" ∧ '/' ∉ bucket.toList

lemma base_of_plain {l : List Char} (hne : l ≠ []) (hslash : '/' ∉ l) : base l = l := by
  have hall : ∀ c ∈ l.reverse, c ≠ '/' := fun c hc heq => hslash (heq ▸ mem_reverse.mp hc)
  have hdrop : l.reverse.dropWhile (· = '/') = l.reverse := by
    cases hl : l.reverse with
    | nil => rfl
    | cons c =>
      have hc : c ≠ '/' := hall c (hl ▸ mem_cons_self)
      rw [dropWhile_cons_of_neg (by simpa using hc)]
  have htake : l.reverse.takeWhile (· ≠ '/') = l.reverse :=
    takeWhile_eq_self_iff.mpr (fun c hc => by simpa using hall c hc)
  rw [base, if_neg hne, hdrop, if_neg (by simpa using hne), htake, reverse_reverse]

lemma getFallbackPath_injective (h : PlainBucket bucket) (h' : PlainBucket bucket')
    (heq : getFallbackPath bucket = getFallbackPath bucket') : bucket = bucket' := by
  have hlist := congrArg toList heq
  simp only [getFallbackPath, toList_append, toList_ofList] at hlist
  have hbase := append_cancel_left (append_cancel_right hlist)
  have hne : ∀ {b : String}, b ≠ "" → b.toList ≠ [] := fun hb hnil => hb (toList_eq_nil_iff.mp hnil)
  rw [base_of_plain (hne h.1) h.2, base_of_plain (hne h'.1) h'.2] at hbase
  exact toList_injective hbase

lemma Cluster.step_spec (h : ∀ p ∈ n.processes, p.degraded = false) (hworks : RedisWorks act)
    (hloads : LoadsSaved keyPrefix n act) (hs : n.step keyPrefix act = some n') :
    (∀ p ∈ n'.processes, p.degraded = false) ∧
      ∀ bucket, n'.storage.redis (buildKey keyPrefix bucket) =
        act.record bucket (n.storage.redis (buildKey keyPrefix bucket)) := by
  -- a process that takes a step stays as it is
  have hset : ∀ {i : ℕ} {p : Process}, n.processes[i]? = some p →
      ∀ q ∈ n.processes.set i p, q.degraded = false := by
    intro i p hp q hq
    rcases mem_or_eq_of_mem_set hq with hq | rfl
    · exact h q hq
    · exact h q (mem_of_getElem? hp)
  cases act with
  | start =>
    cases hs
    refine ⟨fun p hp => ?_, fun _ => rfl⟩
    rcases mem_append.mp hp with hp | hp
    · exact h p hp
    · rw [mem_singleton.mp hp]
  | load =>
    obtain ⟨p, hp, hs⟩ := Option.bind_eq_some_iff.mp hs
    cases hs
    obtain ⟨c, hc⟩ := Option.isSome_iff_exists.mp hloads
    have hdegraded := h p (mem_of_getElem? hp)
    refine ⟨?_, fun _ => rfl⟩
    rw [load_redis hdegraded hworks hc]
    exact hset hp
  | save i bucket c e =>
    obtain ⟨p, hp, hs⟩ := Option.bind_eq_some_iff.mp hs
    have hdegraded := h p (mem_of_getElem? hp)
    have hok : e.redisOk := hworks
    simp only [save, hdegraded, hok, Bool.false_eq_true, if_false, if_true] at hs
    cases hs
    refine ⟨hset hp, fun bucket' => ?_⟩
    simp only [StoreAction.record, update_apply, buildKey_injective, eq_comm]
  | clear i bucket e =>
    obtain ⟨p, hp, hs⟩ := Option.bind_eq_some_iff.mp hs
    have hdegraded := h p (mem_of_getElem? hp)
    have hok : e.redisOk := hworks
    cases hs
    refine ⟨h, fun bucket' => ?_⟩
    simp only [clear, hdegraded, hok, Bool.not_false, Bool.and_self, if_true, StoreAction.record,
      update_apply, buildKey_injective, eq_comm]

open Cluster

lemma Cluster.run_spec {as : List StoreAction} (h : ∀ p ∈ n.processes, p.degraded = false)
    (hg : Guarded (step keyPrefix) (fun n act => RedisWorks act ∧ LoadsSaved keyPrefix n act) n as)
    (hrun : exec (step keyPrefix) n as = some n') :
    (∀ p ∈ n'.processes, p.degraded = false) ∧
      ∀ bucket, n'.storage.redis (buildKey keyPrefix bucket) =
        as.foldl (StoreAction.record bucket) (n.storage.redis (buildKey keyPrefix bucket)) := by
  induction as generalizing n with
  | nil =>
    cases hrun
    exact ⟨h, fun _ => rfl⟩
  | cons act as ih =>
    obtain ⟨n₁, hs, hrest⟩ := exec_cons hrun
    obtain ⟨hdegraded, hredis⟩ := step_spec h hg.1.1 hg.1.2 hs
    obtain ⟨hdegraded', hredis'⟩ := ih hdegraded (hg.2 n₁ hs) hrest
    refine ⟨hdegraded', fun bucket => ?_⟩
    rw [hredis' bucket, hredis bucket, foldl_cons]

/-- In every run in which no Redis command fails and checkpoints are loaded only when there is
one, no store is degraded, and every process loads the checkpoint that was saved last, up to its
oldest entries if there were too many. -/
theorem load_returns_latest {files : ℕ → String → Option SyncCheckpoint} {as : List StoreAction}
    (hg : Guarded (Cluster.step keyPrefix) (fun n act => RedisWorks act ∧ LoadsSaved keyPrefix n act)
      (.fresh files) as) (hrun : exec (Cluster.step keyPrefix) (.fresh files) as = some n) :
    (∀ p ∈ n.processes, p.degraded = false) ∧
      ∀ p ∈ n.processes, ∀ bucket c e, e.redisOk = true → latest bucket as = some c →
        ∃ c', load keyPrefix e n.storage p bucket = (.ok c', p) ∧ c.Pruned c' := by
  obtain ⟨hdegraded, hredis⟩ := run_spec (by rintro p ⟨⟩) hg hrun
  refine ⟨hdegraded, fun p hp bucket c e he hc => ?_⟩
  exact ⟨c.loaded, load_redis (hdegraded p hp) he ((hredis bucket).trans hc), c.pruned_loaded⟩

end

def redisUp : StoreEnv := ⟨true, true⟩

def oneCopied : SyncCheckpoint := newSyncCheckpoint.updateObjectVersion "orders/1.parquet" 5 5

def twoCopied : SyncCheckpoint := oneCopied.updateObjectVersion "orders/2.parquet" 9 9

def loadsSavedCheck (keyPrefix : String) (n : Cluster) : StoreAction → Bool
  | .load _ bucket e => e.redisOk && (n.storage.redis (buildKey keyPrefix bucket)).isSome
  | .save _ _ _ e | .clear _ _ e => e.redisOk
  | .start _ => true

lemma loadsSaved_of_check {keyPrefix : String} {n : Cluster} {act : StoreAction}
    (h : loadsSavedCheck keyPrefix n act) : RedisWorks act ∧ LoadsSaved keyPrefix n act := by
  cases act with
  | start => exact ⟨trivial, trivial⟩
  | load => exact (Bool.and_eq_true _ _).mp h
  | save | clear => exact ⟨h, trivial⟩

def takeoverRun : List StoreAction :=
  [.start 0, .save 0 "data" oneCopied redisUp, .load 0 "data" redisUp, .save 0 "data" twoCopied redisUp,
    .start 1, .load 1 "data" redisUp]

/-- The second host finds what the first one has saved. -/
theorem load_returns_latest_takeover : (latest "data" takeoverRun = some twoCopied ∧
      (exec (Cluster.step "checkpoint") (.fresh (fun _ _ => none)) takeoverRun).map Cluster.processes =
        some [⟨0, false⟩, ⟨1, false⟩]) ∧
    ∀ n, exec (Cluster.step "checkpoint") (.fresh (fun _ _ => none)) takeoverRun = some n →
      ∀ p ∈ n.processes, ∃ c', load "checkpoint" redisUp n.storage p "data" = (.ok c', p) ∧ twoCopied.Pruned c' := by
  have hlatest : latest "data" takeoverRun = some twoCopied := rfl
  have hcheck : Guarded (Cluster.step "checkpoint")
      (fun n act => loadsSavedCheck "checkpoint" n act = true) (.fresh (fun _ _ => none)) takeoverRun := by
    decide +kernel
  refine ⟨⟨hlatest, by decide +kernel⟩, fun n hrun p hp => ?_⟩
  exact (load_returns_latest (hcheck.mono (fun _ _ => loadsSaved_of_check)) hrun).2 p hp "data" twoCopied redisUp
    rfl hlatest

def firstLoadRun : List StoreAction :=
  [.start 0, .load 0 "data" redisUp, .save 0 "data" oneCopied redisUp, .start 1]

/-- The store is degraded although Redis works, and the second host finds no checkpoint. -/
theorem load_misses_latest :
    (latest "data" firstLoadRun).map (fun c => c.objectVersions.keys) = some ["orders/1.parquet"] ∧
      (exec (Cluster.step "checkpoint") (.fresh (fun _ _ => none)) firstLoadRun).map (fun n =>
        (n.processes, (load "checkpoint" redisUp n.storage ⟨1, false⟩ "data").1.toOption.map
          (fun c => c.objectVersions.keys))) = some ([⟨0, true⟩, ⟨1, false⟩], some []) := by
  decide +kernel

end MinIODB.Replication
