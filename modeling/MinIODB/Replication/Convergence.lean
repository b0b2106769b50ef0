import MinIODB.Replication.Coverage

/-!
# Convergence on a quiet bucket

While the source does not change, each error-free cycle copies as many outdated objects as it
may, so their number goes down by that number until none is left. This needs the entries to
stay: a checkpoint that is full loses the older half of its entries, and what they were
about is copied again. With more objects than a checkpoint has room for, every cycle finds
something to copy.
-/
namespace MinIODB.Replication
open Transition Selection List AList Nat

def storeFine : StoreEnv := ⟨true, true⟩

namespace SyncCheckpoint
variable {c : SyncCheckpoint}

lemma getObjectVersion_update_of_room (hroom : c.size < maxCheckpointEntries) (objectKey objectKey' : String)
    (t now : ℤ) : (c.updateObjectVersion objectKey t now).getObjectVersion objectKey' =
      if objectKey' = objectKey then some t else c.getObjectVersion objectKey' := by
  simp only [updateObjectVersion, getObjectVersion, if_neg (not_le.mpr hroom)]
  split
  · rename_i heq
    rw [heq, lookup_insert]
  · rename_i hne
    exact lookup_insert_ne hne

lemma keys_update_of_room (hroom : c.size < maxCheckpointEntries) {objectKey objectKey' : String} {t now : ℤ}
    (h : objectKey' ∈ (c.updateObjectVersion objectKey t now).objectVersions) :
    objectKey' = objectKey ∨ objectKey' ∈ c.objectVersions := by
  simp only [updateObjectVersion, if_neg (not_le.mpr hroom)] at h
  exact mem_insert _ |>.mp h

lemma size_le_of_keys {keys : List String} (h : ∀ k ∈ c.objectVersions, k ∈ keys) :
    c.size ≤ keys.length := by
  have hlength : c.size = c.objectVersions.keys.length := (length_map _).symm
  rw [hlength]
  exact (subperm_of_subset c.objectVersions.keys_nodup (fun k hk => h k (AList.mem_keys.mpr hk))).length_le

end SyncCheckpoint

section
variable {keyPrefix : String} {w : Storage} {p : Process} {bucket : String}

lemma load_save (c : SyncCheckpoint) :
    (load keyPrefix storeFine (save keyPrefix storeFine w p bucket c).1
      (save keyPrefix storeFine w p bucket c).2 bucket).1 = .ok c.loaded := by
  cases hp : p.degraded with
  | true => simp [save, load, hp, saveToFile, loadFromFile, storeFine]
  | false => simp [save, load, hp, loadFromRedis, storeFine]

lemma load_load : (load keyPrefix storeFine w (load keyPrefix storeFine w p bucket).2 bucket).1 =
    (load keyPrefix storeFine w p bucket).1 := by
  cases hp : p.degraded with
  | true => simp [load, hp]
  | false =>
    cases hredis : loadFromRedis keyPrefix storeFine w bucket with
    | ok | error => simp [load, hp, hredis]

end

section
variable (keyPrefix bucket : String) (objects : List (String × SourceObject))

def listing : List (String × ℤ) := objects.map (fun o => (o.1, o.2.lastModified))

def stale (c : SyncCheckpoint) : List (String × SourceObject) :=
  objects.filter (fun o => outdated c (o.1, o.2.lastModified))

def current (s : Replica) : SyncCheckpoint :=
  (load keyPrefix storeFine s.storage s.process bucket).1.toOption.getD newSyncCheckpoint

def ErrorFree (_ : Replica) : SyncAction → Prop
  | .tick _ | .update => True
  | .start _ b e => b = bucket ∧ e = storeFine
  | .detect answer => ∃ l, answer = some l ∧ l.Perm (listing objects)
  | .stat ok | .openStream ok | .put ok _ => ok = true
  | .save e => e = storeFine
  | _ => False

structure SourceHas (s : Replica) : Prop where
  plain : PlainBucket bucket
  source : ∀ objectKey obj, s.source bucket objectKey = some obj ↔ (objectKey, obj) ∈ objects
  distinct : (objects.map Prod.fst).Nodup
  named : ∀ o ∈ objects, o.1 ≠ ""

structure Ready (s : Replica) (keys : List String) : Prop where
  idle : s.phase = .idle
  covers : CoverInv keyPrefix s
  clock : ∀ o ∈ objects, o.2.lastModified ≤ s.now
  entries : ∀ k, k ∈ (current keyPrefix bucket s).objectVersions → k ∈ keys
  names : ∀ o ∈ objects, o.1 ∈ keys
  room : keys.length < maxCheckpointEntries

end

section
variable {keyPrefix bucket : String} {objects : List (String × SourceObject)} {keys : List String} {k n : ℕ}
  {c : SyncCheckpoint} {s s' : Replica} {act : SyncAction}

variable {o : String × SourceObject} {objectKey : String} {now : ℤ} {l : List (String × ℤ)}
    {rest : List String} {cycles : ℕ}

lemma mem_stale :
    o ∈ stale objects c ↔ o ∈ objects ∧ outdated c (o.1, o.2.lastModified) := mem_filter

open SyncCheckpoint

lemma length_stale_update (hroom : c.size < maxCheckpointEntries)
    (hclock : ∀ o ∈ objects, o.2.lastModified ≤ now) (hkey : objectKey ∈ (stale objects c).map Prod.fst) :
    (stale objects (c.updateObjectVersion objectKey now now)).length < (stale objects c).length := by
  have hold : ∀ o ∈ objects, outdated (c.updateObjectVersion objectKey now now) (o.1, o.2.lastModified) =
      (decide (o.1 ≠ objectKey) && outdated c (o.1, o.2.lastModified)) := by
    intro o ho
    simp only [outdated, getObjectVersion_update_of_room hroom]
    by_cases heq : o.1 = objectKey
    · simp [heq, hclock o ho]
    · simp [heq]
  have hfilter : stale objects (c.updateObjectVersion objectKey now now) =
      (stale objects c).filter (fun o => decide (o.1 ≠ objectKey)) := by
    rw [stale, stale, filter_filter]
    exact filter_congr hold
  obtain ⟨o, ho, rfl⟩ := mem_map.mp hkey
  rw [hfilter, length_filter_lt_length_iff_exists]
  exact ⟨o, ho, by simp⟩

lemma mem_stale_update {objectKey' : String} (hroom : c.size < maxCheckpointEntries)
    (hne : objectKey' ≠ objectKey) (hkey : objectKey' ∈ (stale objects c).map Prod.fst) :
    objectKey' ∈ (stale objects (c.updateObjectVersion objectKey now now)).map Prod.fst := by
  obtain ⟨o, ho, rfl⟩ := mem_map.mp hkey
  obtain ⟨hmem, hout⟩ := mem_stale.mp ho
  refine mem_map.mpr ⟨o, mem_stale.mpr ⟨hmem, ?_⟩, rfl⟩
  simp only [outdated, getObjectVersion_update_of_room hroom, if_neg hne]
  exact hout

structure Selected (objects : List (String × SourceObject)) (k : ℕ) (c : SyncCheckpoint) (rest : List String) :
    Prop where
  nodup : rest.Nodup
  listed : ∀ key ∈ rest, key ∈ (stale objects c).map Prod.fst
  length : rest.length = min k (stale objects c).length

lemma selected_detect (hk : 1 ≤ k) (hdistinct : (objects.map Prod.fst).Nodup)
    (hl : l.Perm (listing objects)) : Selected objects k c (detectIncremental k c l) := by
  obtain ⟨kept, hkept, hholds, -⟩ := exists_detected hk c l
  have hfilter : (l.filter (outdated c)).Perm
      ((stale objects c).map (fun o => (o.1, o.2.lastModified))) := by
    refine (hl.filter _).trans (List.Perm.of_eq ?_)
    rw [listing, stale, filter_map]
    rfl
  have hlist : (l.map Prod.fst).Nodup := by
    refine (hl.map Prod.fst).nodup_iff.mpr ?_
    rwa [listing, map_map]
  rw [hkept]
  refine ⟨hholds.nodup_map ((filter_sublist.map Prod.fst).nodup hlist), fun key hkey => ?_, ?_⟩
  · obtain ⟨o, ho, rfl⟩ := mem_map.mp hkey
    obtain ⟨o', ho', rfl⟩ := mem_map.mp (hfilter.mem_iff.mp (hholds.subperm.subset ho))
    exact mem_map.mpr ⟨o', ho', rfl⟩
  · rw [length_map, hholds.length, hfilter.length_eq, length_map]

structure Copying (objects : List (String × SourceObject)) (keys : List String) (k n : ℕ) (c : SyncCheckpoint)
    (rest : List String) : Prop where
  entries : ∀ key, key ∈ c.objectVersions → key ∈ keys
  nodup : rest.Nodup
  listed : ∀ key ∈ rest, key ∈ (stale objects c).map Prod.fst
  few : rest.length ≤ k ∧ rest.length ≤ n
  left : (stale objects c).length ≤ max rest.length (n - (k - rest.length))

lemma Selected.copying (h : Selected objects k c rest)
    (hentries : ∀ key ∈ c.objectVersions, key ∈ keys) (hn : (stale objects c).length ≤ n) :
    Copying objects keys k n c rest := by
  have hlength := h.length
  exact ⟨hentries, h.nodup, h.listed, by omega, by omega⟩

lemma Copying.update
    (h : Copying objects keys k n c (objectKey :: rest)) (hroom : keys.length < maxCheckpointEntries)
    (hnames : ∀ o ∈ objects, o.1 ∈ keys) (hclock : ∀ o ∈ objects, o.2.lastModified ≤ now) :
    Copying objects keys k n (c.updateObjectVersion objectKey now now) rest := by
  have hsize : c.size < maxCheckpointEntries := (size_le_of_keys h.entries).trans_lt hroom
  have hkey := h.listed objectKey mem_cons_self
  obtain ⟨hnotMem, hnodup⟩ := nodup_cons.mp h.nodup
  have hfewer := length_stale_update hsize hclock hkey
  have hleft := h.left
  have hfew := h.few
  rw [length_cons] at hleft hfew
  refine ⟨fun key hmem => ?_, hnodup, fun key hmem => ?_, by omega, by omega⟩
  · rcases keys_update_of_room hsize hmem with rfl | hmem
    · obtain ⟨o, ho, rfl⟩ := mem_map.mp hkey
      exact hnames o (mem_stale.mp ho).1
    · exact h.entries key hmem
  · refine mem_stale_update hsize ?_ (h.listed key (.tail _ hmem))
    rintro rfl
    exact hnotMem hmem

def Pace (keyPrefix bucket : String) (objects : List (String × SourceObject)) (keys : List String) (k n : ℕ)
    (s : Replica) : Prop :=
  match s.phase with
  | .idle => (∀ key, key ∈ (current keyPrefix bucket s).objectVersions → key ∈ keys) ∧
      (stale objects (current keyPrefix bucket s)).length ≤ n
  | .detecting _ b c => b = bucket ∧ c = current keyPrefix bucket s ∧
      (∀ key, key ∈ c.objectVersions → key ∈ keys) ∧ (stale objects c).length ≤ n
  | .copying c | .saving c => c.bucket = bucket ∧ Copying objects keys k n c.checkpoint c.rest
  | .statted c objectKey _ | .opened c objectKey _ _ | .stored c objectKey =>
    c.bucket = bucket ∧ Copying objects keys k n c.checkpoint (objectKey :: c.rest)
  | .finishing _ => False

structure QuietInv (keyPrefix bucket : String) (objects : List (String × SourceObject)) (keys : List String)
    (k cycles : ℕ) (s : Replica) : Prop where
  covers : CoverInv keyPrefix s
  has : SourceHas bucket objects s
  clock : ∀ o ∈ objects, o.2.lastModified ≤ s.now
  begun : cycles ≤ s.completed
  pace : Pace keyPrefix bucket objects keys k (objects.length - k * (s.completed - cycles)) s

lemma writesApart_of_errorFree (hplain : PlainBucket bucket) (h : ErrorFree bucket objects s act) :
    WritesApart keyPrefix s act := by
  cases act with
  | write => cases h
  | start =>
    rw [h.1]
    exact hplain
  | _ => trivial

lemma current_saveCheckpoint {cycle : Cycle} (hbucket : cycle.bucket = bucket) {phase : SyncPhase}
    {completed : ℕ} : current keyPrefix bucket
      { s.saveCheckpoint keyPrefix storeFine cycle with phase := phase, completed := completed } =
      cycle.checkpoint.loaded := by
  subst hbucket
  simp only [current, Replica.saveCheckpoint, load_save]
  rfl

lemma Pace.cycle {begun : ℕ} (h : QuietInv keyPrefix bucket objects keys k begun s) (hk : 1 ≤ k)
    (hnames : ∀ o ∈ objects, o.1 ∈ keys) (hroom : keys.length < maxCheckpointEntries)
    (hfree : ErrorFree bucket objects s act) (hs : CycleStep keyPrefix k s act s') :
    begun ≤ s'.completed ∧
      Pace keyPrefix bucket objects keys k (objects.length - k * (s'.completed - begun)) s' := by
  have hpace := h.pace
  have hbegun := h.begun
  have hcopy := h.covers.copy
  have hfound : ∀ {key : String} {c : SyncCheckpoint}, key ∈ (stale objects c).map Prod.fst →
      s.source bucket key ≠ none := by
    intro key c hkey hnone
    obtain ⟨o, ho, rfl⟩ := mem_map.mp hkey
    rw [(h.has.source o.1 o.2).mpr (mem_stale.mp ho).1] at hnone
    cases hnone
  unfold Pace at hpace
  unfold CopyUnderWay at hcopy
  cases hs with
  | start kind b e hphase =>
    obtain ⟨rfl, rfl⟩ := hfree
    rw [hphase] at hpace
    have hcurrent : current keyPrefix b
        { s with
          process := (load keyPrefix storeFine s.storage s.process b).2
          phase := .detecting kind b
            ((load keyPrefix storeFine s.storage s.process b).1.toOption.getD newSyncCheckpoint) } =
        current keyPrefix b s := by
      simp [current, load_load]
    exact ⟨hbegun, rfl, hcurrent.symm, hpace.1, hpace.2⟩
  | listFailed => cases hfree.choose_spec.1
  | nothing b c l hphase hnone =>
    obtain ⟨l', heq, hl⟩ := hfree
    cases heq
    rw [hphase] at hpace
    obtain ⟨rfl, hc, hentries, -⟩ := hpace
    have hselected := (selected_detect (c := c) hk h.has.distinct hl).length
    rw [hnone, length_nil] at hselected
    refine ⟨hbegun.trans (le_succ _), ?_⟩
    have hcurrent : current keyPrefix b { s with phase := .idle, completed := s.completed + 1 } = c := hc.symm
    refine ⟨?_, ?_⟩
    · rw [hcurrent]
      exact hentries
    · rw [hcurrent]
      omega
  | detect kind b c l hphase =>
    obtain ⟨l', heq, hl⟩ := hfree
    cases heq
    rw [hphase] at hpace
    obtain ⟨hb, -, hentries, hn⟩ := hpace
    exact ⟨hbegun, hb, (selected_detect hk h.has.distinct hl).copying hentries hn⟩
  | stop _ e c hphase hact => rcases hact with rfl | rfl <;> cases hfree
  | quit _ c hphase hact => rcases hact with rfl | ⟨e, rfl⟩ <;> cases hfree
  | overloaded | putLost => cases hfree
  | statFailed ok c objectKey rest hphase hrest hfailed =>
    rw [hphase] at hpace
    obtain ⟨hb, hcopying⟩ := hpace
    rw [hrest] at hcopying
    rcases hfailed with rfl | hnone
    · cases hfree
    · rw [hb] at hnone
      exact absurd hnone (hfound (hcopying.listed objectKey (.head _)))
  | stat c objectKey rest obj hphase hrest =>
    rw [hphase] at hpace
    obtain ⟨hb, hcopying⟩ := hpace
    rw [hrest] at hcopying
    exact ⟨hbegun, hb, hcopying⟩
  | openFailed ok c objectKey size hphase hfailed =>
    rw [hphase] at hpace
    obtain ⟨hb, hcopying⟩ := hpace
    rcases hfailed with rfl | hnone
    · cases hfree
    · rw [hb] at hnone
      exact absurd hnone (hfound (hcopying.listed objectKey (.head _)))
  | openStream c objectKey size obj hphase | put applied c objectKey size content hphase
  | saveBatch e c hphase =>
    rw [hphase] at hpace
    exact ⟨hbegun, hpace⟩
  | putFailed ok applied c objectKey size content hphase hfailed =>
    rw [hphase] at hcopy
    obtain ⟨obj, -, rfl, rfl⟩ := hcopy
    rcases hfailed with rfl | hshort
    · cases hfree
    · exact absurd hshort (lt_irrefl _)
  | update c objectKey hphase | updateBatch c objectKey hphase =>
    rw [hphase] at hpace
    exact ⟨hbegun, hpace.1, hpace.2.update hroom hnames h.clock⟩
  | finish e c hphase =>
    cases hfree
    rcases hphase with hphase | ⟨hphase, hrest⟩
    · rw [hphase] at hpace
      cases hpace
    · rw [hphase] at hpace
      obtain ⟨hb, hcopying⟩ := hpace
      rw [hrest] at hcopying
      have hsize := (size_le_of_keys hcopying.entries).trans hroom.le
      have hwhole : c.checkpoint.loaded = c.checkpoint := c.checkpoint.pruned_loaded.whole hsize
      have hleft := hcopying.left
      have hnext : objects.length - k * (s.completed + 1 - begun) =
          objects.length - k * (s.completed - begun) - k := by
        rw [Nat.succ_sub hbegun, Nat.mul_succ, Nat.sub_sub]
      refine ⟨hbegun.trans (Nat.le_succ _), ?_⟩
      simp only [Pace, current_saveCheckpoint hb, hwhole, hnext]
      refine ⟨hcopying.entries, ?_⟩
      simpa using hleft

lemma CycleStep.source_eq {maxObjectsPerSync : ℤ} (hs : CycleStep keyPrefix maxObjectsPerSync s act s') :
    s'.source = s.source ∧ s'.now = s.now := by
  cases hs <;> exact ⟨rfl, rfl⟩

lemma SourceHas.of_source (h : SourceHas bucket objects s) (hsource : s'.source = s.source) :
    SourceHas bucket objects s' :=
  ⟨h.plain, hsource ▸ h.source, h.distinct, h.named⟩

lemma QuietInv.step (h : QuietInv keyPrefix bucket objects keys k cycles s) (hk : 1 ≤ k)
    (hnames : ∀ o ∈ objects, o.1 ∈ keys) (hroom : keys.length < maxCheckpointEntries)
    (hfree : ErrorFree bucket objects s act) (hs : s.step keyPrefix k act = some s') :
    QuietInv keyPrefix bucket objects keys k cycles s' := by
  have hcovers := h.covers.step (writesApart_of_errorFree h.has.plain hfree) hs
  cases ReplicaStep.of_step hs with
  | tick d =>
    refine ⟨hcovers, h.has.of_source rfl, fun o ho => (h.clock o ho).trans ?_, h.begun, h.pace⟩
    exact le_add_of_nonneg_right (Int.natCast_nonneg d)
  | write | restart => cases hfree
  | cycle hcycle =>
    obtain ⟨hsource, hnow⟩ := hcycle.source_eq
    obtain ⟨hbegun, hpace⟩ := Pace.cycle h hk hnames hroom hfree hcycle
    refine ⟨hcovers, h.has.of_source hsource, ?_, hbegun, hpace⟩
    rw [hnow]
    exact h.clock

lemma Covers.dest_of_fresh (hcovers : Covers s bucket c)
    (hhas : SourceHas bucket objects s) (ho : o ∈ objects) (hfresh : o ∉ stale objects c) :
    s.dest bucket o.1 = some o.2.content := by
  have hnot : outdated c (o.1, o.2.lastModified) = false := by
    by_contra h
    exact hfresh (mem_stale.mpr ⟨ho, Bool.eq_true_of_not_eq_false h⟩)
  simp only [outdated, decide_eq_true (hhas.named o ho), Bool.true_and] at hnot
  cases ht : c.getObjectVersion o.1 with
  | none =>
    rw [ht] at hnot
    cases hnot
  | some t =>
    rw [ht] at hnot
    exact hcovers o.1 t o.2 ht ((hhas.source o.1 o.2).mpr ho) (not_lt.mp (of_decide_eq_false hnot))

lemma QuietInv.nothing_stale (h : QuietInv keyPrefix bucket objects keys k cycles s)
    (hdone : objects.length ≤ k * (s.completed - cycles)) :
    (∀ o ∈ objects, s.dest bucket o.1 = some o.2.content) ∧
      ∀ kind b c, s.phase = .detecting kind b c → stale objects c = [] := by
  have hzero : objects.length - k * (s.completed - cycles) = 0 := Nat.sub_eq_zero_of_le hdone
  have hpace := h.pace
  rw [hzero] at hpace
  unfold Pace at hpace
  have hdest : ∀ {c}, Covers s bucket c → stale objects c = [] →
      ∀ o ∈ objects, s.dest bucket o.1 = some o.2.content := by
    intro c hcovers hnil o ho
    refine hcovers.dest_of_fresh h.has ho ?_
    rw [hnil]
    exact not_mem_nil
  -- a cycle in the middle of its copies has nothing left to copy
  have hcycle : ∀ {c : Cycle} {rest : List String}, s.phase.checkpoint = some (c.bucket, c.checkpoint) →
      c.bucket = bucket → Copying objects keys k 0 c.checkpoint rest →
      ∀ o ∈ objects, s.dest bucket o.1 = some o.2.content := by
    intro c rest hc hb hcopying
    have hfew := hcopying.few.2
    have hleft := hcopying.left
    have hnil : stale objects c.checkpoint = [] := eq_nil_of_length_eq_zero (by omega)
    have hcovers := (h.covers.memory c.bucket c.checkpoint hc).2
    rw [hb] at hcovers
    exact hdest hcovers hnil
  cases hphase : s.phase with
  | idle =>
    rw [hphase] at hpace
    have hnil := eq_nil_of_length_eq_zero (le_zero.mp hpace.2)
    refine ⟨hdest ?_ hnil, nofun⟩
    unfold current
    cases hload : (load keyPrefix storeFine s.storage s.process bucket).1 with
    | error => exact covers_new
    | ok => exact h.covers.load h.has.plain hload
  | detecting kind b c =>
    rw [hphase] at hpace
    obtain ⟨rfl, -, -, hlength⟩ := hpace
    have hnil := eq_nil_of_length_eq_zero (le_zero.mp hlength)
    refine ⟨hdest (h.covers.memory b c (by rw [hphase]; rfl)).2 hnil, ?_⟩
    rintro _ _ _ ⟨⟩
    exact hnil
  | copying | saving | statted | opened | stored =>
    rw [hphase] at hpace
    exact ⟨hcycle (by rw [hphase]; rfl) hpace.1 hpace.2, nofun⟩
  | finishing =>
    rw [hphase] at hpace
    cases hpace

/-- From a ready state on, while the source does not change and cycles run without errors: when
as many cycles have run as are needed for all objects, the destination holds every object,
and every later cycle finds nothing to copy. -/
theorem replication_converges (hk : 1 ≤ k) {s₀ : Replica} {as : List SyncAction}
    (hhas : SourceHas bucket objects s₀) (hready : Ready keyPrefix bucket objects s₀ keys)
    (hg : Guarded (Replica.step keyPrefix k) (ErrorFree bucket objects) s₀ as)
    (hrun : exec (Replica.step keyPrefix k) s₀ as = some s)
    (hcycles : s₀.completed + (objects.length + k - 1) / k ≤ s.completed) :
    (∀ o ∈ objects, s.dest bucket o.1 = some o.2.content) ∧
      ∀ kind b c l, s.phase = .detecting kind b c → l.Perm (listing objects) →
        detectIncremental k c l = [] := by
  have hquiet : QuietInv keyPrefix bucket objects keys k s₀.completed s := by
    refine exec_invariant (QuietInv keyPrefix bucket objects keys k s₀.completed)
      (fun s act s' h hfree hs => h.step hk hready.names hready.room hfree hs) ?_ hg hrun
    refine ⟨hready.covers, hhas, hready.clock, le_rfl, ?_⟩
    rw [Pace, hready.idle]
    refine ⟨hready.entries, ?_⟩
    rw [Nat.sub_self, Nat.mul_zero, Nat.sub_zero]
    exact length_filter_le _ _
  have hdone : objects.length ≤ k * (s.completed - s₀.completed) := by
    have hceil : objects.length ≤ k * ((objects.length + k - 1) / k) := by
      have hmod := div_add_mod (objects.length + k - 1) k
      have hlt := mod_lt (objects.length + k - 1) hk
      omega
    exact hceil.trans (mul_le_mul_left k (by omega))
  obtain ⟨hdest, hstale⟩ := hquiet.nothing_stale hdone
  refine ⟨hdest, fun kind b c l hphase hl => ?_⟩
  have hlength := (selected_detect (c := c) hk hhas.distinct hl).length
  rw [hstale kind b c hphase, length_nil, min_zero] at hlength
  exact eq_nil_of_length_eq_zero hlength

lemma detectIncremental_ne_nil (hk : 1 ≤ k) (hdistinct : (l.map Prod.fst).Nodup)
    (hnamed : ∀ o ∈ l, o.1 ≠ "") (hmany : maxCheckpointEntries < l.length) (c : SyncCheckpoint) :
    detectIncremental k c.loaded l ≠ [] := by
  intro hnil
  obtain ⟨kept, hkept, hholds, -⟩ := exists_detected hk c.loaded l
  have hlength := hholds.length
  rw [map_eq_nil_iff.mp (hkept.symm.trans hnil), length_nil] at hlength
  have hfilter : l.filter (outdated c.loaded) = [] := eq_nil_of_length_eq_zero (by omega)
  have hcovered : ∀ key ∈ l.map Prod.fst, key ∈ c.loaded.objectVersions.keys := by
    intro key hkey
    obtain ⟨o, ho, rfl⟩ := mem_map.mp hkey
    have hnot := filter_eq_nil_iff.mp hfilter o ho
    by_contra hmissing
    refine hnot ?_
    have hnone : c.loaded.getObjectVersion o.1 = none := lookup_eq_none.mpr hmissing
    simp [outdated, hnone, hnamed o ho]
  have hsize : c.loaded.size = c.loaded.objectVersions.keys.length := (length_map _).symm
  have hle := (subperm_of_subset hdistinct hcovered).length_le
  have hroom := c.size_loaded
  rw [length_map] at hle
  omega

end

def someObjects : List (String × SourceObject) := [("a", ⟨[1], 3⟩), ("b", ⟨[2], 5⟩), ("c", ⟨[3], 4⟩)]

def threeObjects : Replica :=
  .fresh 7 (fun bucket key => if bucket = "data" then someObjects.lookup key else none) (fun _ _ => none) 0

def copyOne : List SyncAction := [.stat true, .openStream true, .put true true, .update]

def twoCycles : List SyncAction :=
  [.start .syncOnce "data" storeFine, .detect (some (listing someObjects))] ++ copyOne ++ copyOne ++
    [.save storeFine, .tick 1, .start .syncBucket "data" storeFine, .detect (some (listing someObjects))] ++
    copyOne ++ [.save storeFine, .start .syncOnce "data" storeFine]

lemma sourceHas_threeObjects : SourceHas "data" someObjects threeObjects where
  plain := ⟨by decide, by decide⟩
  source := by
    intro key obj
    change someObjects.lookup key = some obj ↔ _
    simp only [someObjects, lookup_cons, lookup_nil, mem_cons, not_mem_nil, or_false, Prod.mk.injEq]
    by_cases ha : key = "a"
    · subst ha
      simp [eq_comm]
    · by_cases hb : key = "b"
      · subst hb
        simp [eq_comm]
      · by_cases hc : key = "c"
        · subst hc
          simp [eq_comm]
        · simp [ha, hb, hc, beq_eq_false_iff_ne.mpr ha, beq_eq_false_iff_ne.mpr hb, beq_eq_false_iff_ne.mpr hc]
  distinct := by decide
  named := by decide

def errorFreeCheck (l : List (String × ℤ)) : SyncAction → Bool
  | .tick _ | .update => true
  | .start _ b e => b == "data" && e == storeFine
  | .detect answer => answer == some l
  | .stat ok | .openStream ok | .put ok _ => ok
  | .save e => e == storeFine
  | _ => false

lemma errorFree_of_check {objects : List (String × SourceObject)} {s : Replica} {act : SyncAction}
    (h : errorFreeCheck (listing objects) act) : ErrorFree "data" objects s act := by
  cases act with
  | tick | update => trivial
  | start | save => simpa [errorFreeCheck, ErrorFree] using h
  | detect => exact ⟨listing objects, by simpa [errorFreeCheck] using h, List.Perm.refl _⟩
  | stat | openStream | put => exact h
  | _ => cases h

theorem replication_converges_three :
    (exec (Replica.step "checkpoint" (2 : ℕ)) threeObjects twoCycles).map (fun s =>
      (s.completed, someObjects.map (fun o => s.dest "data" o.1))) = some (2, [some [1], some [2], some [3]]) ∧
    ∀ s, exec (Replica.step "checkpoint" (2 : ℕ)) threeObjects twoCycles = some s → s.completed = 2 →
      ∀ o ∈ someObjects, s.dest "data" o.1 = some o.2.content := by
  refine ⟨by decide +kernel, fun s hrun hcycles => ?_⟩
  have hready : Ready "checkpoint" "data" someObjects threeObjects ["a", "b", "c"] :=
    ⟨rfl, coverInv_fresh _ _ _ _, by decide, by rintro k ⟨⟩, by decide, by decide⟩
  have hg : Guarded (Replica.step "checkpoint" (2 : ℕ)) (ErrorFree "data" someObjects) threeObjects twoCycles :=
    Guarded.of_forall (fun act hact s => errorFree_of_check (all_eq_true.mp
      (by decide : twoCycles.all (errorFreeCheck (listing someObjects)) = true) act hact))
  exact (replication_converges (by decide) sourceHas_threeObjects hready hg hrun (by rw [hcycles]; decide)).1

def claimedState : Replica :=
  { Replica.fresh 20 (fun _ key => if key = "orders" then some ⟨[1], 3⟩ else none) (fun _ _ => none) 0 with
    storage := ⟨fun key => if key = "checkpoint:data" then
        some (newSyncCheckpoint.updateObjectVersion "orders" 10 10) else none, fun _ _ => none⟩ }

def manyObjects : List (String × ℤ) :=
  (List.range 100001).map (fun i => (String.ofList (List.replicate (i + 1) 'x'), 0))

def manyCopied : SyncCheckpoint :=
  manyObjects.foldl (fun c o => c.updateObjectVersion o.1 1 1) newSyncCheckpoint

/-- One cycle would be enough for one object and for 100001 objects of which it may copy all. In
the first case the object is never copied, in the second case the next cycle copies again. -/
theorem replication_diverges :
    (exec (Replica.step "checkpoint" 1) claimedState [.start .syncOnce "data" storeFine,
      .detect (some [("orders", 3)])]).map (fun s => (s.completed, s.dest "data" "orders")) = some (1, none) ∧
    (manyObjects.length = 100001 ∧ detectIncremental (100001 : ℕ) manyCopied.loaded manyObjects ≠ []) := by
  have hlength : manyObjects.length = 100001 := by rw [manyObjects, length_map, length_range]
  have hname : Function.Injective (fun i : ℕ => String.ofList (replicate (i + 1) 'x')) := by
    intro i j hij
    have hlist := congrArg (fun s : String => s.toList.length) hij
    simpa using hlist
  refine ⟨by decide +kernel, hlength, detectIncremental_ne_nil (by omega) ?_ ?_ ?_ manyCopied⟩
  · rw [manyObjects, map_map]
    exact nodup_range.map hname
  · intro o ho
    obtain ⟨i, -, rfl⟩ := mem_map.mp ho
    intro hempty
    have hlist := congrArg (fun s : String => s.toList.length) hempty
    simp at hlist
  · rw [hlength, maxCheckpointEntries]
    omega

end MinIODB.Replication
