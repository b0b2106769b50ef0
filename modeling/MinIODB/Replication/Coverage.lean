import MinIODB.Replication.Replicator

/-!
# Checkpoints cover what has been copied

An entry of a checkpoint that is at or after the last modification of an object makes the next
cycles skip the object. The destination then has to hold what the source holds. This is kept
by every step, if an object is not written between the beginning of its copy and the entry
that the copy makes, nor at the very moment of an entry.
-/
namespace MinIODB.Replication
open Transition Function

def Covers (s : Replica) (bucket : String) (c : SyncCheckpoint) : Prop :=
  ∀ objectKey t obj, c.getObjectVersion objectKey = some t → s.source bucket objectKey = some obj →
    obj.lastModified ≤ t → s.dest bucket objectKey = some obj.content

def SyncPhase.checkpoint : SyncPhase → Option (String × SyncCheckpoint)
  | .idle => none
  | .detecting _ bucket c => some (bucket, c)
  | .copying c | .statted c _ _ | .opened c _ _ _ | .stored c _ | .saving c | .finishing c =>
    some (c.bucket, c.checkpoint)

def SyncPhase.copied : SyncPhase → Option (String × String)
  | .statted c objectKey _ | .opened c objectKey _ _ | .stored c objectKey => some (c.bucket, objectKey)
  | _ => none

def CopyUnderWay (s : Replica) : Prop :=
  match s.phase with
  | .statted c objectKey size =>
    ∃ obj, s.source c.bucket objectKey = some obj ∧ size = obj.content.length
  | .opened c objectKey size content =>
    ∃ obj, s.source c.bucket objectKey = some obj ∧ size = obj.content.length ∧ content = obj.content
  | .stored c objectKey =>
    ∃ obj, s.source c.bucket objectKey = some obj ∧ s.dest c.bucket objectKey = some obj.content
  | _ => True

variable (keyPrefix : String)

structure CoverInv (s : Replica) : Prop where
  redis : ∀ bucket c, s.storage.redis (buildKey keyPrefix bucket) = some c → Covers s bucket c
  files : ∀ host bucket c, PlainBucket bucket → s.storage.files host (getFallbackPath bucket) = some c →
    Covers s bucket c
  memory : ∀ bucket c, s.phase.checkpoint = some (bucket, c) → PlainBucket bucket ∧ Covers s bucket c
  copy : CopyUnderWay s

inductive Entered (s : Replica) (bucket objectKey : String) (t : ℤ) : Prop
  | redis (c : SyncCheckpoint) (hc : s.storage.redis (buildKey keyPrefix bucket) = some c)
    (ht : c.getObjectVersion objectKey = some t)
  | file (host : ℕ) (c : SyncCheckpoint) (hc : s.storage.files host (getFallbackPath bucket) = some c)
    (ht : c.getObjectVersion objectKey = some t)
  | memory (c : SyncCheckpoint) (hc : s.phase.checkpoint = some (bucket, c))
    (ht : c.getObjectVersion objectKey = some t)

def WritesApart (s : Replica) : SyncAction → Prop
  | .write bucket objectKey _ =>
    s.phase.copied ≠ some (bucket, objectKey) ∧ ∀ t, Entered keyPrefix s bucket objectKey t → t < s.now
  | .start _ bucket _ => PlainBucket bucket
  | _ => True

variable {keyPrefix} {maxObjectsPerSync : ℤ} {s s' : Replica} {act : SyncAction} {bucket : String}
  {c : SyncCheckpoint}

lemma Covers.of_eq (h : Covers s bucket c) (hsource : s'.source = s.source) (hdest : s'.dest = s.dest) :
    Covers s' bucket c := by
  unfold Covers
  rw [hsource, hdest]
  exact h

lemma update_update {β : Type*} (f : String → String → β) (b k b' k' : String) (v : β) :
    update f b (update (f b) k v) b' k' = if b' = b ∧ k' = k then v else f b' k' := by
  by_cases hb : b' = b
  · subst hb
    simp [update_apply]
  · simp [hb]

lemma Covers.putObject {bucket' objectKey : String} {obj : SourceObject} (h : Covers s bucket c)
    (hobj : s.source bucket' objectKey = some obj) :
    Covers (s.putObject bucket' objectKey obj.content) bucket c := by
  intro key t o ht ho hle
  simp only [Replica.putObject, update_update]
  split
  · obtain ⟨rfl, rfl⟩ := ‹_ ∧ _›
    exact congrArg (fun o => o.map SourceObject.content) (hobj.symm.trans ho)
  · exact h key t o ht ho hle

lemma Covers.writeObject {bucket' objectKey : String} {content : List UInt8} (h : Covers s bucket c)
    (hlate : bucket = bucket' → ∀ t, c.getObjectVersion objectKey = some t → t < s.now) :
    Covers (s.writeObject bucket' objectKey content) bucket c := by
  intro key t o ht ho hle
  simp only [Replica.writeObject, update_update] at ho ⊢
  split at ho
  · obtain ⟨rfl, rfl⟩ := ‹_ ∧ _›
    cases ho
    exact absurd hle (not_le.mpr (hlate rfl t ht))
  · exact h key t o ht ho hle

lemma Covers.loaded (h : Covers s bucket c) : Covers s bucket c.loaded :=
  fun key t obj ht => h key t obj (SyncCheckpoint.getObjectVersion_of_loaded ht)

lemma covers_new : Covers s bucket newSyncCheckpoint := by
  rintro key t obj ⟨⟩

lemma Covers.updateObjectVersion {objectKey : String} {obj : SourceObject} (h : Covers s bucket c)
    (hobj : s.source bucket objectKey = some obj) (hdest : s.dest bucket objectKey = some obj.content)
    (t now : ℤ) : Covers s bucket (c.updateObjectVersion objectKey t now) := by
  intro key t' o ht ho hle
  rcases SyncCheckpoint.getObjectVersion_update ht with ⟨rfl, -⟩ | ⟨-, ht⟩
  · rw [hobj] at ho
    cases ho
    exact hdest
  · exact h key t' o ht ho hle

lemma CoverInv.load (h : CoverInv keyPrefix s) (hbucket : PlainBucket bucket) {e : StoreEnv} {p : Process}
    (hc : (Replication.load keyPrefix e s.storage p bucket).1 = .ok c) : Covers s bucket c := by
  rcases load_cases hc with rfl | ⟨c₀, rfl, hc₀ | hc₀⟩
  · exact covers_new
  · exact (h.redis bucket c₀ hc₀).loaded
  · exact (h.files _ bucket c₀ hbucket hc₀).loaded

lemma CoverInv.of_phase (h : CoverInv keyPrefix s) (hsource : s'.source = s.source) (hdest : s'.dest = s.dest)
    (hstorage : s'.storage = s.storage)
    (hmemory : ∀ bucket c, s'.phase.checkpoint = some (bucket, c) → PlainBucket bucket ∧ Covers s bucket c)
    (hcopy : CopyUnderWay s') : CoverInv keyPrefix s' where
  redis bucket c hc := (h.redis bucket c (hstorage ▸ hc)).of_eq hsource hdest
  files host bucket c hb hc := (h.files host bucket c hb (hstorage ▸ hc)).of_eq hsource hdest
  memory bucket c hc := ⟨(hmemory bucket c hc).1, (hmemory bucket c hc).2.of_eq hsource hdest⟩
  copy := hcopy

lemma CoverInv.save (h : CoverInv keyPrefix s) {e : StoreEnv} {cycle : Cycle}
    (hcycle : s.phase.checkpoint = some (cycle.bucket, cycle.checkpoint)) {phase : SyncPhase} {completed : ℕ}
    (hmemory : phase.checkpoint = none ∨ phase.checkpoint = s.phase.checkpoint)
    (hcopied : phase.copied = none) : CoverInv keyPrefix
      { s.saveCheckpoint keyPrefix e cycle with phase := phase, completed := completed } where
  redis bucket c hc := by
    refine Covers.of_eq ?_ rfl rfl
    rcases save_redis hc with hc | ⟨hkey, rfl⟩
    · exact h.redis bucket c hc
    · rw [buildKey_injective.mp hkey]
      exact (h.memory _ _ hcycle).2
  files host bucket c hbucket hc := by
    refine Covers.of_eq ?_ rfl rfl
    rcases save_files hc with hc | ⟨hpath, rfl⟩
    · exact h.files host bucket c hbucket hc
    · rw [getFallbackPath_injective hbucket (h.memory _ _ hcycle).1 hpath]
      exact (h.memory _ _ hcycle).2
  memory bucket c hc := by
    rcases hmemory with hnone | hsame
    · rw [hnone] at hc
      cases hc
    · have hold := h.memory bucket c (hsame.symm.trans hc)
      exact ⟨hold.1, hold.2.of_eq rfl rfl⟩
  copy := by
    cases phase <;> trivial

lemma CoverInv.putObject (h : CoverInv keyPrefix s) {cycle : Cycle} {objectKey : String} {size : ℕ}
    {content : List UInt8} (hphase : s.phase = .opened cycle objectKey size content) {phase : SyncPhase}
    (hmemory : phase.checkpoint = some (cycle.bucket, cycle.checkpoint))
    (hcopied : phase.copied = none ∨ phase = .stored cycle objectKey) : CoverInv keyPrefix
      { s.putObject cycle.bucket objectKey (content.take size) with phase := phase } := by
  have hcopy := h.copy
  unfold CopyUnderWay at hcopy
  rw [hphase] at hcopy
  obtain ⟨obj, hobj, rfl, rfl⟩ := hcopy
  rw [List.take_length]
  have hput : ∀ {bucket c}, Covers s bucket c →
      Covers { s.putObject cycle.bucket objectKey obj.content with phase := phase } bucket c :=
    fun hc => (hc.putObject hobj).of_eq rfl rfl
  refine ⟨fun bucket c hc => hput (h.redis bucket c hc), fun host bucket c hb hc => hput (h.files host bucket c hb hc),
    fun bucket c hc => ?_, ?_⟩
  · rw [hmemory] at hc
    obtain ⟨hbucket, hcovers⟩ := h.memory bucket c (by rw [hphase]; exact hc)
    exact ⟨hbucket, hput hcovers⟩
  · rcases hcopied with hnone | rfl
    · cases phase <;> trivial
    · refine ⟨obj, hobj, ?_⟩
      simp [Replica.putObject]

lemma CoverInv.cycle (h : CoverInv keyPrefix s) (hg : WritesApart keyPrefix s act)
    (hs : CycleStep keyPrefix maxObjectsPerSync s act s') : CoverInv keyPrefix s' := by
  -- a step that only moves on, with the checkpoint that the cycle has
  have hmove : ∀ {phase : SyncPhase} {completed : ℕ},
      phase.checkpoint = none ∨ phase.checkpoint = s.phase.checkpoint →
      CopyUnderWay { s with phase := phase, completed := completed } →
      CoverInv keyPrefix { s with phase := phase, completed := completed } := by
    intro phase completed hmemory hcopy
    refine h.of_phase rfl rfl rfl (fun bucket c hc => ?_) hcopy
    rcases hmemory with hnone | hsame
    · rw [hnone] at hc
      cases hc
    · exact h.memory bucket c (hsame.symm.trans hc)
  cases hs with
  | start kind bucket e =>
    refine h.of_phase rfl rfl rfl (fun bucket' c hc => ?_) trivial
    cases hc
    refine ⟨hg, ?_⟩
    cases hload : (Replication.load keyPrefix e s.storage s.process bucket).1 with
    | error => exact covers_new
    | ok => exact h.load hg hload
  | listFailed | nothing | quit =>
    exact hmove (.inl rfl) trivial
  | detect kind bucket c listing hphase | overloaded c hphase
  | statFailed ok c objectKey rest hphase | openFailed ok c objectKey size hphase
  | putFailed ok applied c objectKey size content hphase =>
    exact hmove (.inr (by rw [hphase]; rfl)) trivial
  | stop _ e c hphase => exact h.save (by rw [hphase]; rfl) (.inl rfl) rfl
  | stat c objectKey rest obj hphase hrest hobj =>
    exact hmove (.inr (by rw [hphase]; rfl)) ⟨obj, hobj, rfl⟩
  | openStream c objectKey size obj hphase hobj =>
    have hcopy := h.copy
    unfold CopyUnderWay at hcopy
    rw [hphase] at hcopy
    obtain ⟨obj', hobj', hsize⟩ := hcopy
    rw [hobj] at hobj'
    cases hobj'
    exact hmove (.inr (by rw [hphase]; rfl)) ⟨obj, hobj, hsize, rfl⟩
  | putLost c objectKey size content hphase => exact h.putObject hphase rfl (.inl rfl)
  | put applied c objectKey size content hphase => exact h.putObject hphase rfl (.inr rfl)
  | update c objectKey hphase | updateBatch c objectKey hphase =>
    have hcopy := h.copy
    unfold CopyUnderWay at hcopy
    rw [hphase] at hcopy
    obtain ⟨obj, hobj, hdest⟩ := hcopy
    obtain ⟨hbucket, hcovers⟩ := h.memory c.bucket c.checkpoint (by rw [hphase]; rfl)
    refine h.of_phase rfl rfl rfl (fun bucket' c' hc => ?_) trivial
    cases hc
    exact ⟨hbucket, hcovers.updateObjectVersion hobj hdest s.now s.now⟩
  | saveBatch e c hphase =>
    exact h.save (by rw [hphase]; rfl) (.inr (by rw [hphase]; rfl)) rfl
  | finish e c hphase =>
    refine h.save ?_ (.inl rfl) rfl
    rcases hphase with hphase | ⟨hphase, -⟩ <;> rw [hphase] <;> rfl

lemma CopyUnderWay.writeObject {objectKey : String} {content : List UInt8} (h : CopyUnderWay s)
    (hapart : s.phase.copied ≠ some (bucket, objectKey)) :
    CopyUnderWay (s.writeObject bucket objectKey content) := by
  have hsource : ∀ {b k}, s.phase.copied = some (b, k) →
      (s.writeObject bucket objectKey content).source b k = s.source b k := by
    intro b k hcopied
    simp only [Replica.writeObject, update_update]
    refine if_neg ?_
    rintro ⟨rfl, rfl⟩
    exact hapart hcopied
  have hphase' : (s.writeObject bucket objectKey content).phase = s.phase := rfl
  unfold CopyUnderWay at h ⊢
  rw [hphase']
  cases hphase : s.phase with
  | statted | opened | stored =>
    rw [hphase] at h hsource
    simp only [hsource rfl]
    exact h
  | _ => trivial

lemma CoverInv.step (h : CoverInv keyPrefix s) (hg : WritesApart keyPrefix s act)
    (hs : s.step keyPrefix maxObjectsPerSync act = some s') : CoverInv keyPrefix s' := by
  cases ReplicaStep.of_step hs with
  | tick => exact h.of_phase rfl rfl rfl h.memory h.copy
  | restart => exact h.of_phase rfl rfl rfl (by rintro bucket c ⟨⟩) trivial
  | cycle hcycle => exact h.cycle hg hcycle
  | write =>
    obtain ⟨hapart, hlate⟩ := hg
    refine ⟨fun b c hc => ?_, fun host b c hb hc => ?_, fun b c hc => ?_, h.copy.writeObject hapart⟩
    · refine (h.redis b c hc).writeObject (fun hbucket t ht => ?_)
      exact hlate t (.redis c (hbucket ▸ hc) ht)
    · refine (h.files host b c hb hc).writeObject (fun hbucket t ht => ?_)
      exact hlate t (.file host c (hbucket ▸ hc) ht)
    · refine ⟨(h.memory b c hc).1, (h.memory b c hc).2.writeObject (fun hbucket t ht => ?_)⟩
      exact hlate t (.memory c (hbucket ▸ hc) ht)

def Replica.fresh (now : ℤ) (source : String → String → Option SourceObject)
    (dest : String → String → Option (List UInt8)) (host : ℕ) : Replica :=
  ⟨now, source, dest, ⟨fun _ => none, fun _ _ => none⟩, ⟨host, false⟩, .idle, 0⟩

lemma coverInv_fresh (now : ℤ) (source : String → String → Option SourceObject)
    (dest : String → String → Option (List UInt8)) (host : ℕ) :
    CoverInv keyPrefix (.fresh now source dest host) :=
  ⟨nofun, nofun, nofun, trivial⟩

def InUse (keyPrefix : String) (s : Replica) (bucket : String) (c : SyncCheckpoint) : Prop :=
  s.phase.checkpoint = some (bucket, c) ∨
    PlainBucket bucket ∧ ∃ e p, (load keyPrefix e s.storage p bucket).1 = .ok c

lemma CoverInv.inUse (h : CoverInv keyPrefix s) (hc : InUse keyPrefix s bucket c) : Covers s bucket c := by
  rcases hc with hc | ⟨hbucket, e, p, hc⟩
  · exact (h.memory bucket c hc).2
  · exact h.load hbucket hc

/-- In every run in which objects are not written while they are copied, the destination holds
every object that a cycle would skip. -/
theorem skipped_object_replicated {now : ℤ} {source : String → String → Option SourceObject}
    {dest : String → String → Option (List UInt8)} {host : ℕ} {as : List SyncAction}
    (hg : Guarded (Replica.step keyPrefix maxObjectsPerSync) (WritesApart keyPrefix)
      (.fresh now source dest host) as)
    (hrun : exec (Replica.step keyPrefix maxObjectsPerSync) (.fresh now source dest host) as = some s)
    (hc : InUse keyPrefix s bucket c) {objectKey : String} {obj : SourceObject} {t : ℤ}
    (hobj : s.source bucket objectKey = some obj) (ht : c.getObjectVersion objectKey = some t)
    (hskipped : obj.lastModified ≤ t) : s.dest bucket objectKey = some obj.content := by
  have hinv : CoverInv keyPrefix s := exec_invariant (CoverInv keyPrefix)
    (fun s act s' h hg hs => h.step hg hs) (coverInv_fresh now source dest host) hg hrun
  exact hinv.inUse hc objectKey t obj ht hobj hskipped

def storeUp : StoreEnv := ⟨true, true⟩

def openRun : List SyncAction :=
  [.start .syncOnce "data" storeUp, .detect (some [("orders", 0)]), .stat true, .openStream true]

def finishRun : List SyncAction := [.put true true, .tick 1, .update, .save storeUp]

def copyState (s : Replica) : Option SourceObject × Option (List UInt8) × Option ℤ :=
  (s.source "data" "orders", s.dest "data" "orders",
    (load "checkpoint" storeUp s.storage s.process "data").1.toOption.bind (fun c => c.getObjectVersion "orders"))

def emptyReplica : Replica := .fresh 0 (fun _ _ => none) (fun _ _ => none) 0

def readsOnly : SyncAction → Bool
  | .write _ _ _ => false
  | .start _ bucket _ => bucket == "data"
  | _ => true

lemma writesApart_of_readsOnly {s : Replica} {act : SyncAction} (h : readsOnly act) :
    WritesApart "checkpoint" s act := by
  cases act with
  | write => cases h
  | start =>
    rw [beq_iff_eq.mp h]
    exact ⟨by decide, by decide⟩
  | _ => trivial

def cleanRun : List SyncAction := .write "data" "orders" [1] :: (openRun ++ finishRun)

theorem skipped_object_replicated_clean :
    (exec (Replica.step "checkpoint" 10) emptyReplica cleanRun).map copyState =
      some (some ⟨[1], 0⟩, some [1], some 1) ∧
    ∀ s, exec (Replica.step "checkpoint" 10) emptyReplica cleanRun = some s → ∀ c t,
      InUse "checkpoint" s "data" c → s.source "data" "orders" = some ⟨[1], 0⟩ →
      c.getObjectVersion "orders" = some t → 0 ≤ t → s.dest "data" "orders" = some [1] := by
  refine ⟨by decide +kernel, fun s hrun c t hc hobj ht hle => ?_⟩
  have hg : Guarded (Replica.step "checkpoint" 10) (WritesApart "checkpoint") emptyReplica cleanRun := by
    refine ⟨⟨by rintro ⟨⟩, ?_⟩, fun s₁ _ => ?_⟩
    · rintro t (⟨c, ⟨⟩, -⟩ | ⟨host, c, ⟨⟩, -⟩ | ⟨c, ⟨⟩, -⟩)
    · refine Guarded.of_forall (fun act hact s => writesApart_of_readsOnly ?_)
      exact List.all_eq_true.mp (by decide : (openRun ++ finishRun).all readsOnly = true) act hact
  exact skipped_object_replicated hg hrun hc hobj ht hle

def overwrittenRun : List SyncAction :=
  [.write "data" "orders" [1]] ++ openRun ++ [.tick 1, .write "data" "orders" [2]] ++ finishRun

/-- The entry is later than the second version, and the destination holds the first one. -/
theorem skipped_object_stale :
    (exec (Replica.step "checkpoint" 10) emptyReplica overwrittenRun).map copyState =
      some (some ⟨[2], 1⟩, some [1], some 2) := by
  decide +kernel

end MinIODB.Replication
