import MinIODB.Service.Frame

/-!
# Deleting or updating a record leaves the others alone

The invariants of a `DeleteData` and of an `UpdateData` call that runs without other calls:
the rows of other records in the buffer stay where they are, and the store keeps theirs.
-/
namespace MinIODB.Service
open Buffer Query Wal Transition List Option State Store

section
variable {φ : Type*} (t a : String)

def BufferKept (m m' : Mem (Entry φ)) : Prop :=
  ∀ k e, ¬(inTable t k = true ∧ e.row.id = a) → (e ∈ m'.buffer.get k ↔ e ∈ m.buffer.get k)

def FileFacts (s s' : Store φ) (deletedCount : ℕ) : DeletePhase φ → Prop
  | .reading keys => ∀ k ∈ keys, Matched t a k
  | .downloading name | .counting name | .copying name | .discarding name => Ours t a s name
  | .saving name rows => Agrees t a s name rows
  | .totalling name => Ours t a s name ∧
      ∀ rows, s'.tempDir.lookup name = some rows → deletedCount = (idRows a rows).length
  | .removing name | .scanningOthers name | .dereferencing name _ =>
    Ours t a s name ∧ ∀ r, ¬ Other a s name r
  | .putting name => Ours t a s name ∧
      ∀ rows, s'.rewrites.lookup name = some rows → Agrees t a s name rows
  | .cleaning name => Ours t a s name ∧ s'.objects.lookup name ≠ none
  | _ => True

structure DeleteInv (w w' : World φ) (c : DeleteCall φ) : Prop where
  call : c.table = t ∧ c.id = a
  buffer : BufferKept t a w.buffer.mem w'.buffer.mem
  store : StoreKept t a w.store w'.store
  keys : ∀ k ∈ c.idIndexKeys, Matched t a k
  objects : ∀ name ∈ c.objects, Ours t a w.store name
  facts : FileFacts t a w.store w'.store c.deletedCount c.phase

variable {t a} {svc : ServiceConfig} {json : φ → Option φ} {e : StepEnv}

lemma BufferKept.refl (m : Mem (Entry φ)) : BufferKept t a m m := fun _ _ _ => Iff.rfl

variable {m m' : Mem (Entry φ)} {b : State φ} {rows : List (StoredRow φ)} {s : Store φ}
    {name : String} {w' w w'' : World φ} {c' c : DeleteCall φ} {row : DataRow φ}

lemma BufferKept.remove (h : BufferKept t a m m') :
    BufferKept t a m (m'.remove Entry.row t a).1 := by
  intro k e he
  rw [← h k e he, Mem.get_remove]
  split
  · rename_i hk
    rw [mem_filter, and_iff_left]
    exact bne_iff_ne.mpr (fun hid => he ⟨hk, hid⟩)
  · exact Iff.rfl

lemma BufferKept.setKey {m'' : Mem (Entry φ)} {key : String} (h : BufferKept t a m m')
    (hkey : inTable t key) (hown : ∀ e ∈ m.buffer.get key, e.row.id = a)
    (hother : ∀ k, k ≠ key → m''.buffer.get k = m'.buffer.get k)
    (hrows : ∀ e ∈ m''.buffer.get key, e ∈ m'.buffer.get key ∨ e.row.id = a) :
    BufferKept t a m m'' := by
  intro k e he
  by_cases hk : k = key
  · subst hk
    have hid : e.row.id ≠ a := fun hid => he ⟨hkey, hid⟩
    refine ⟨fun hmem => ?_, fun hmem => absurd (hown e hmem) hid⟩
    rcases hrows e hmem with hmem | hid'
    · exact (h k e he).mp hmem
    · exact absurd hid' hid
  · rw [hother k hk]
    exact h k e he

lemma tombstoneAction_mem {b' : State φ}
    (h : Step svc.buffer json b (tombstoneAction t a e) b') : b'.mem = b.mem := by
  unfold tombstoneAction at h
  split at h <;>
  · cases h
    rfl

lemma idRows_eq_self (h : rows.length = (idRows a rows).length) : ∀ r ∈ rows, r.id = some a := by
  intro r hr
  have hself : idRows a rows = rows := filter_eq_self.mpr (length_filter_eq_length_iff.mp h.symm)
  rw [← hself, idRows, mem_filter] at hr
  exact of_decide_eq_true hr.2

lemma Agrees.copy {s' : Store φ}
    (h : StoreKept t a s s') (hours : Ours t a s name) (hcopy : CopyOf s' name rows) :
    Agrees t a s name rows :=
  ⟨hours, h.agrees name rows hours hcopy⟩

lemma Agrees.otherRows
    (h : Agrees t a s name rows) (hs : Rewritable t a s) : Agrees t a s name (otherRows a rows) := by
  refine ⟨h.1, fun r hr => ?_⟩
  rw [← h.2 r hr, Service.otherRows, mem_filter, and_iff_left_iff_imp]
  intro hmem
  obtain ⟨-, rows', hcopy, hmem'⟩ := (h.2 r hr).mp hmem
  have hsome := hs.notNull name rows' h.1 hcopy r hmem'
  rw [Bool.and_eq_true, decide_eq_true_eq, isSome_iff_ne_none]
  exact ⟨hsome, hr⟩

lemma Agrees.none_other
    (h : Agrees t a s name rows) (hall : ∀ r ∈ rows, r.id = some a) : ∀ r, ¬ Other a s name r := by
  intro r hother
  exact hother.1 (hall r ((h.2 r hother.1).mpr hother))

lemma DeleteInv.step {valid : String → Bool}
    (h : DeleteInv t a w w' c) (hsep : Separated t a valid w.store) (hre : Rewritable t a w.store)
    (hs : DeleteStep svc json e w' c w'' c') : DeleteInv t a w w'' c' := by
  obtain ⟨⟨rfl, rfl⟩, hbuffer, hstore, hkeys, hobjects, hfacts⟩ := h
  -- a step of the call and the store
  have hmove : ∀ {s phase}, StoreKept c.table c.id w.store s →
      FileFacts c.table c.id w.store s c.deletedCount phase →
      DeleteInv c.table c.id w { w' with store := s } { c with phase := phase } :=
    fun hstore hfacts => ⟨⟨rfl, rfl⟩, hbuffer, hstore, hkeys, hobjects, hfacts⟩
  cases hs with
  | reject | standalone | scanFail | noKeys | fail | absent | vanished | untouched | dereferenced
  | done =>
    exact ⟨⟨rfl, rfl⟩, hbuffer, hstore, hkeys, hobjects, trivial⟩
  | remove next hphase hid htable hnext =>
    refine ⟨⟨rfl, rfl⟩, ?_, hstore, hkeys, hobjects, ?_⟩
    · simp only [remove_mem]
      exact hbuffer.remove
    · rcases hnext with rfl | rfl <;> trivial
  | tombstone b hphase hb =>
    refine ⟨⟨rfl, rfl⟩, ?_, hstore, hkeys, hobjects, trivial⟩
    rw [← tombstoneAction_mem hb] at hbuffer
    exact hbuffer
  | scan =>
    have hmatched : ∀ k ∈ w'.store.scanKeys (recordPattern c.table c.id), Matched c.table c.id k :=
      fun k hk => (mem_scanKeys.mp hk).2
    exact ⟨⟨rfl, rfl⟩, hbuffer, hstore, hmatched, hobjects, hmatched⟩
  | readDone next hphase hnext =>
    refine hmove hstore ?_
    rcases hnext with ⟨rfl, -⟩ | rfl <;> trivial
  | read key keys hphase =>
    rw [hphase] at hfacts
    refine ⟨⟨rfl, rfl⟩, hbuffer, hstore, hkeys, ?_, fun k hk => hfacts k (.tail key hk)⟩
    intro name hname
    simp only at hname
    split at hname
    · rcases mem_union_iff.mp hname with hname | hname
      · exact hobjects name hname
      · exact ⟨key, hstore.sub _ (mem_members.mp hname), hfacts key mem_cons_self⟩
    · exact hobjects name hname
  | next name hphase henv hname =>
    exact ⟨⟨rfl, rfl⟩, hbuffer, hstore, hkeys, fun name' h => hobjects name' (mem_of_mem_erase h),
      hobjects name hname⟩
  | found name rows hphase | scanOthers name hphase =>
    rw [hphase] at hfacts
    exact hmove hstore hfacts
  | fetch name rows hphase htemp hobject =>
    rw [hphase] at hfacts
    exact hmove hstore (Agrees.copy hstore hfacts (.inr (.inr hobject)))
  | save name rows hphase =>
    rw [hphase] at hfacts
    exact hmove (hstore.saveTemp hfacts) hfacts.1
  | count name rows hphase htemp =>
    rw [hphase] at hfacts
    refine ⟨⟨rfl, rfl⟩, hbuffer, hstore, hkeys, hobjects, hfacts, fun rows' htemp' => ?_⟩
    rw [htemp] at htemp'
    cases htemp'
    rfl
  | total name rows next hphase htemp hnext =>
    rw [hphase] at hfacts
    refine hmove hstore ?_
    rcases hnext with ⟨rfl, hlength⟩ | rfl
    · refine ⟨hfacts.1, (Agrees.copy hstore hfacts.1 (.inr (.inl htemp))).none_other ?_⟩
      rw [hfacts.2 rows htemp] at hlength
      exact idRows_eq_self hlength
    · exact hfacts.1
  | removeObject name hphase =>
    rw [hphase] at hfacts
    split
    · exact hmove (hstore.removeObject hfacts.1 hfacts.2) hfacts
    · exact hmove hstore hfacts
  | dereference name key keys hphase =>
    rw [hphase] at hfacts
    split
    · refine hmove (hstore.setIndex (fun p hp => (mem_srem.mp hp).1) ?_) hfacts
      -- the object has no row of another id, so only the record's own keys list it
      intro p hp
      by_cases heq : p = (key, name)
      · refine .inr (by_contra fun hunmatched => ?_)
        obtain ⟨r, hother⟩ := hsep.held p (hstore.sub p hp) (by rw [heq]; exact hfacts.1) hunmatched
        rw [heq] at hother
        exact hfacts.2 r hother
      · exact .inl (mem_srem.mpr ⟨hp, heq⟩)
    · exact hmove hstore hfacts
  | copy name rows hphase htemp =>
    rw [hphase] at hfacts
    refine hmove (hstore.setRewrites _) ⟨hfacts, fun rows' hrewrite => ?_⟩
    rw [lookup_insert_apply, if_pos rfl] at hrewrite
    cases hrewrite
    exact (Agrees.copy hstore hfacts (.inr (.inl htemp))).otherRows hre
  | put name rows hphase hrewrite =>
    rw [hphase] at hfacts
    refine ⟨⟨rfl, rfl⟩, hbuffer, hstore.putObject (hfacts.2 rows hrewrite), hkeys, hobjects, hfacts.1, ?_⟩
    rw [lookup_insert_apply, if_pos rfl]
    exact some_ne_none rows
  | putFail name hphase =>
    rw [hphase] at hfacts
    exact hmove hstore hfacts.1
  | clean name hphase =>
    rw [hphase] at hfacts
    split
    · exact hmove (hstore.removeTemp hfacts.1 hfacts.2) hfacts.1
    · exact hmove hstore hfacts.1
  | discard =>
    split
    · exact hmove (hstore.setRewrites _) trivial
    · exact hmove hstore trivial
  | unindex =>
    split
    · refine hmove (hstore.setIndex (fun p hp => (mem_del.mp hp).1) ?_) trivial
      intro p hp
      by_cases hk : p.1 ∈ c.idIndexKeys
      · exact .inr (hkeys p.1 hk)
      · exact .inl (mem_del.mpr ⟨hp, hk⟩)
    · exact hmove hstore trivial

def DeletePhase.Standalone : DeletePhase φ → Prop
  | .started | .tombstone | .scanning | .returned _ | .lost => True
  | _ => False

lemma DeletePhase.file_eq_none {phase : DeletePhase φ} (h : phase.Standalone) : phase.file = none := by
  cases phase <;> first | rfl | exact h.elim

structure StandaloneInv (t a : String) (w w' : World φ) (c : DeleteCall φ) : Prop where
  call : c.table = t ∧ c.id = a
  buffer : BufferKept t a w.buffer.mem w'.buffer.mem
  store : w'.store = w.store
  phase : c.phase.Standalone

lemma StandaloneInv.step (h : StandaloneInv t a w w' c)
    (hredis : svc.redisPool = false) (hs : DeleteStep svc json e w' c w'' c') :
    StandaloneInv t a w w'' c' := by
  obtain ⟨⟨rfl, rfl⟩, hbuffer, hstore, hstandalone⟩ := h
  have hno : ∀ {phase}, c.phase = phase → ¬ phase.Standalone → False := by
    rintro phase rfl hphase
    exact hphase hstandalone
  cases hs with
  | reject | standalone | scanFail =>
    exact ⟨⟨rfl, rfl⟩, hbuffer, hstore, trivial⟩
  | remove next hphase hid htable hnext =>
    refine ⟨⟨rfl, rfl⟩, ?_, hstore, ?_⟩
    · simp only [remove_mem]
      exact hbuffer.remove
    · rcases hnext with rfl | rfl <;> trivial
  | tombstone b hphase hb =>
    refine ⟨⟨rfl, rfl⟩, ?_, hstore, trivial⟩
    rw [← tombstoneAction_mem hb] at hbuffer
    exact hbuffer
  | noKeys hphase hredis' | scan hphase hredis' =>
    rw [hredis] at hredis'
    cases hredis'
  | fail name hfile =>
    rw [DeletePhase.file_eq_none hstandalone] at hfile
    cases hfile
  | vanished name hphase =>
    rcases hphase with hphase | hphase | hphase <;> exact (hno hphase id).elim
  
  | readDone _ hphase | next _ hphase | done hphase | absent _ hphase | removeObject _ hphase | scanOthers _ hphase | dereferenced _ hphase | putFail _ hphase | clean _ hphase | discard _ hphase | unindex hphase
  | read _ _ hphase | found _ _ hphase | fetch _ _ hphase | save _ _ hphase | untouched _ _ hphase | count _ _ hphase | copy _ _ hphase | put _ _ hphase
  | dereference _ _ _ hphase | total _ _ _ hphase => exact (hno hphase id).elim

structure UpdateInv (svc : ServiceConfig) (t a : String) (row : DataRow φ) (w w' : World φ)
    (c : UpdateCall φ) : Prop where
  call : c.table = t ∧ c.id = a ∧ c.row = row
  buffer : BufferKept t a w.buffer.mem w'.buffer.mem
  adding : ∀ i, c.phase = .adding i →
    ∃ call, w'.buffer.adds[i]? = some call ∧ call.key = bufferKey svc.buffer row
  store : w'.store = { w.store with index := w'.store.index }
  sub : ∀ p ∈ w'.store.index, p ∈ w.store.index
  listed : ∀ p ∈ w.store.index, p ∈ w'.store.index ∨ Matched t a p.1
  standalone : svc.redisPool = false → w'.store = w.store
  keys : ∀ keys, c.phase = .unindexing keys → svc.redisPool = true ∧ ∀ k ∈ keys, Matched t a k

def KeyApart (svc : ServiceConfig) (t a : String) (row : DataRow φ) (w : World φ) : Prop :=
  inTable t (bufferKey svc.buffer row) = true ∧
    ∀ e ∈ w.buffer.mem.buffer.get (bufferKey svc.buffer row), e.row.id = a

lemma UpdateInv.step {c c' : UpdateCall φ}
    (h : UpdateInv svc t a row w w' c) (hkey : KeyApart svc t a row w)
    (hs : UpdateStep svc json e w' c w'' c') : UpdateInv svc t a row w w'' c' := by
  obtain ⟨⟨rfl, rfl, rfl⟩, hbuffer, hadding, hstore, hsub, hlisted, hstandalone, hkeys⟩ := h
  cases hs with
  | reject | insertFail | added _ _ | addFailed _ _ | noScan =>
    exact ⟨⟨rfl, rfl, rfl⟩, hbuffer, nofun, hstore, hsub, hlisted, hstandalone, nofun⟩
  | remove next hphase hvalid hnext =>
    refine ⟨⟨rfl, rfl, rfl⟩, ?_, ?_, hstore, hsub, hlisted, hstandalone, ?_⟩
    · simp only [remove_mem]
      exact hbuffer.remove
    all_goals rcases hnext with rfl | rfl <;> rintro _ ⟨⟩
  | tombstone b hphase hb =>
    refine ⟨⟨rfl, rfl, rfl⟩, ?_, nofun, hstore, hsub, hlisted, hstandalone, nofun⟩
    rw [← tombstoneAction_mem hb] at hbuffer
    exact hbuffer
  | insert =>
    refine ⟨⟨rfl, rfl, rfl⟩, ?_, ?_, hstore, hsub, hlisted, hstandalone, nofun⟩
    · refine hbuffer.setKey hkey.1 hkey.2 (fun k hk => ?_) (fun e he => ?_)
      · simp [addInsert, Mem.get_insert, if_neg hk]
      · simp only [addInsert, Mem.get_insert, if_true] at he
        rcases mem_append.mp he with he | he
        · exact .inl he
        · rw [mem_singleton.mp he]
          exact .inr rfl
    · rintro _ ⟨⟩
      exact ⟨_, getElem?_concat_length, rfl⟩
  | scan hphase hredis =>
    refine ⟨⟨rfl, rfl, rfl⟩, hbuffer, nofun, hstore, hsub, hlisted, hstandalone, ?_⟩
    rintro _ ⟨⟩
    exact ⟨hredis, fun k hk => (mem_scanKeys.mp hk).2⟩
  | unindex keys hphase =>
    obtain ⟨hredis, hmatched⟩ := hkeys keys hphase
    split
    · refine ⟨⟨rfl, rfl, rfl⟩, hbuffer, nofun, ?_, ?_, ?_, ?_, nofun⟩
      · simp only [del]
        rw [hstore]
      · exact fun p hp => hsub p (mem_del.mp hp).1
      · intro p hp
        rcases hlisted p hp with hp | hp
        · by_cases hk : p.1 ∈ keys
          · exact .inr (hmatched p.1 hk)
          · exact .inl (mem_del.mpr ⟨hp, hk⟩)
        · exact .inr hp
      · intro hno
        rw [hredis] at hno
        cases hno
    · exact ⟨⟨rfl, rfl, rfl⟩, hbuffer, nofun, hstore, hsub, hlisted, hstandalone, nofun⟩

def addOf : Buffer.Action φ → Option ℕ
  | .addAppend i _ | .addAppendFail i _ | .addRecord i | .addRollback i | .addFlush i
  | .addReturn i => some i
  | _ => none

lemma UpdateInv.addStep {c : UpdateCall φ} {k : ℕ}
    {act : Buffer.Action φ} (h : UpdateInv svc t a row w w' c)
    (hkey : KeyApart svc t a row w) (hphase : c.phase = .adding k) (hact : addOf act = some k)
    (hb : Step svc.buffer json w'.buffer act b) :
    UpdateInv svc t a row w { w' with buffer := b } c := by
  obtain ⟨call, hcall, hcallkey⟩ := h.adding k hphase
  have hset : ∀ call' : AddCall φ, call'.key = call.key → ∀ i, c.phase = .adding i →
      ∃ c, (w'.buffer.adds.set k call')[i]? = some c ∧ c.key = bufferKey svc.buffer row := by
    intro call' hcall' i hi
    rw [hphase] at hi
    cases hi
    refine ⟨call', ?_, hcall'.trans hcallkey⟩
    rw [getElem?_set_of_some hcall]
  have hsame : ∀ {call' : AddCall φ}, w'.buffer.adds[k]? = some call' → call' = call := by
    intro call' hcall'
    rw [hcall] at hcall'
    exact (Option.some.inj hcall').symm
  cases hb with
  | addAppend i rotate call' enc hcall' | addAppendFail i o call' enc hcall'
  | addRecord i call' hcall' | addReturn i call' hcall' =>
    cases hact
    cases hsame hcall'
    exact ⟨h.call, h.buffer, hset _ rfl, h.store, h.sub, h.listed, h.standalone, h.keys⟩
  | addRollback i call' hcall' =>
    cases hact
    cases hsame hcall'
    refine ⟨h.call, h.buffer.setKey hkey.1 hkey.2 (fun key hne => ?_) (fun e he => ?_), hset _ rfl,
      h.store, h.sub, h.listed, h.standalone, h.keys⟩
    · simp [addRollback, Mem.get_rollback, hcallkey, if_neg hne]
    · simp only [addRollback, Mem.get_rollback, hcallkey, if_true] at he
      exact .inl (mem_of_mem_eraseIdx he)
  | addFlush i call' hcall' =>
    cases hact
    cases hsame hcall'
    refine ⟨h.call, h.buffer.setKey hkey.1 hkey.2 (fun key hne => ?_) (fun e he => ?_), hset _ rfl,
      h.store, h.sub, h.listed, h.standalone, h.keys⟩
    · simp [addFlush, get_triggerFlush, hcallkey, if_neg hne]
    · simp only [addFlush, get_triggerFlush, hcallkey, if_true] at he
      cases he
  | _ => cases hact

end

section
variable {φ : Type*}

inductive CallRef where
  | delete (i : ℕ)
  | update (i : ℕ)
  deriving DecidableEq

def CallRef.Starts (ref : CallRef) (n : Node φ) (t a : String) : Prop :=
  match ref with
  | .delete i => n.deletes[i]? = some ⟨t, a, 0, [], [], 0, 0, .started⟩
  | .update i => ∃ timestamp fields, n.updates[i]? = some ⟨t, a, timestamp, fields, .started⟩

def CallRef.waitsFor (ref : CallRef) (n : Node φ) (k : ℕ) : Bool :=
  match ref with
  | .delete _ => false
  | .update i => n.updates[i]?.any (fun c => c.phase = .adding k)

def CallRef.owns (ref : CallRef) (n : Node φ) : Action φ → Bool
  | .deleteStep i _ => ref = .delete i
  | .updateStep i _ => ref = .update i
  | .buffer (.pool _) => true
  | .buffer act => (addOf act).any (ref.waitsFor n)
  | _ => false

variable (svc : ServiceConfig) (json : φ → Option φ)

inductive OwnStep (ref : CallRef) (n : Node φ) : Action φ → Node φ → Prop where
  | delete (i e c w c') (href : ref = .delete i) (hcall : n.deletes[i]? = some c)
      (hs : DeleteStep svc json e n.toWorld c w c') :
      OwnStep ref n (.deleteStep i e) { n with toWorld := w, deletes := n.deletes.set i c' }
  | update (i e c w c') (href : ref = .update i) (hcall : n.updates[i]? = some c)
      (hs : UpdateStep svc json e n.toWorld c w c') :
      OwnStep ref n (.updateStep i e) { n with toWorld := w, updates := n.updates.set i c' }
  | pool (a p) : OwnStep ref n (.buffer (.pool a)) { n with buffer := { n.buffer with pool := p } }
  | add (i k c act b) (href : ref = .update i) (hcall : n.updates[i]? = some c)
      (hphase : c.phase = .adding k) (hact : addOf act = some k)
      (hb : Step svc.buffer json n.buffer act b) : OwnStep ref n (.buffer act) { n with buffer := b }

variable {svc json}

lemma OwnStep.of_step {ref : CallRef} {n n' : Node φ} {act : Action φ} (hown : ref.owns n act)
    (h : n.step svc json act = some n') : OwnStep svc json ref n act n' := by
  cases NodeStep.of_step h with
  | deleteStep i e c w c' hcall hs => exact .delete i e c w c' (of_decide_eq_true hown) hcall hs
  | updateStep i e c w c' hcall hs => exact .update i e c w c' (of_decide_eq_true hown) hcall hs
  | buffer act b _ hb =>
    by_cases hpool : ∃ p, act = .pool p
    · obtain ⟨p, rfl⟩ := hpool
      cases hb
      exact .pool p _
    · have hany : (addOf act).any (ref.waitsFor n) := by
        cases act <;> first | exact hown | exact absurd ⟨_, rfl⟩ hpool
      obtain ⟨k, hk, hwaits⟩ := (Option.any_eq_true _ _).mp hany
      cases ref with
      | delete => cases hwaits
      | update i =>
        obtain ⟨c, hc, hphase⟩ := (Option.any_eq_true _ _).mp hwaits
        exact .add i k c act b rfl hc (of_decide_eq_true hphase) hk hb
  | _ => cases hown

variable (svc)

structure Untouched (t a : String) (n n' : Node φ) : Prop where
  rows : ∀ T, svc.isValidTableName T = true → ∀ r, ¬(T = t ∧ r.id = some a) →
    (r ∈ n'.tableRows svc.redisPool T ↔ r ∈ n.tableRows svc.redisPool T)
  index : ∀ p ∈ n.store.index, ¬ RecordKey t a p.1 → p ∈ n'.store.index
  stored : ∀ name rows, n.store.objects.lookup name = some rows → ∀ r ∈ rows, r.id ≠ some a →
    ∃ rows', n'.store.objects.lookup name = some rows' ∧ r ∈ rows'
  objects : ∀ name T, svc.isValidTableName T = true → T ≠ t → Indexed n.store.index T name →
    n'.store.objects.lookup name = n.store.objects.lookup name

structure Apart (ref : CallRef) (t a : String) (n : Node φ) : Prop where
  table : svc.isValidTableName t = true
  names : ∀ T, svc.isValidTableName T = true → '/' ∉ T.toList
  store : svc.redisPool = true → Separated t a svc.isValidTableName n.store
  rewritable : svc.redisPool = true → ∀ i, ref = .delete i → Rewritable t a n.store
  key : ∀ i c, ref = .update i → n.updates[i]? = some c → KeyApart svc t a c.row n.toWorld

variable {svc} {ref : CallRef} {t a : String} {n n' : Node φ}

variable {r : StoredRow φ} {i : ℕ} {as : List (Action φ)}

section
variable (hapart : Apart svc ref t a n)
include hapart

section
variable (hbuffer : BufferKept t a n.buffer.mem n'.buffer.mem)
include hbuffer

lemma Apart.buffer_iff {T : String}
    (hT : svc.isValidTableName T) (hr : ¬(T = t ∧ r.id = some a)) :
    (∃ k e, (T ++ "/").length < k.length ∧ inTable T k ∧
        e ∈ n'.buffer.mem.buffer.get k ∧ stored e = r) ↔
      ∃ k e, (T ++ "/").length < k.length ∧ inTable T k ∧
        e ∈ n.buffer.mem.buffer.get k ∧ stored e = r := by
  have hother : ∀ {k e}, inTable T k → stored e = r →
      ¬(inTable t k = true ∧ e.row.id = a) := by
    rintro k e hk rfl ⟨ht, rfl⟩
    exact hr ⟨inTable_unique (hapart.names T hT) (hapart.names t hapart.table) hk ht, rfl⟩
  constructor
  · rintro ⟨k, e, hlength, hk, he, hstored⟩
    exact ⟨k, e, hlength, hk, (hbuffer k e (hother hk hstored)).mp he, hstored⟩
  · rintro ⟨k, e, hlength, hk, he, hstored⟩
    exact ⟨k, e, hlength, hk, (hbuffer k e (hother hk hstored)).mpr he, hstored⟩

lemma Untouched.of_same_store (hstore : n'.store = n.store) :
    Untouched svc t a n n' where
  rows := by
    intro T hT r hr
    rw [Node.mem_tableRows, Node.mem_tableRows, hapart.buffer_iff hbuffer hT hr, hstore]
  index := fun p hp _ => by rw [hstore]; exact hp
  stored := fun name rows hrows r hr _ => ⟨rows, by rw [hstore]; exact hrows, hr⟩
  objects := fun _ _ _ _ _ => by rw [hstore]

end

lemma Untouched.of_kept (hredis : svc.redisPool)
    (hbuffer : BufferKept t a n.buffer.mem n'.buffer.mem) (hkept : Kept t a n.store n'.store)
    (hobjects : ∀ name, ¬ Ours t a n.store name →
      n'.store.objects.lookup name = n.store.objects.lookup name)
    (hstored : ∀ name rows, n.store.objects.lookup name = some rows → ∀ r ∈ rows, r.id ≠ some a →
      ∃ rows', n'.store.objects.lookup name = some rows' ∧ r ∈ rows') : Untouched svc t a n n' where
  rows := by
    intro T hT r hr
    rw [Node.mem_tableRows, Node.mem_tableRows, hapart.buffer_iff hbuffer hT hr, hredis,
      hkept.rows_iff (hapart.store hredis) hT hr]
  index := by
    intro p hp hkey
    refine (hkept.listed p hp).resolve_right (fun hmatched => ?_)
    exact hkey ((hapart.store hredis).ownKeys p hp hmatched)
  stored := hstored
  objects := by
    intro name T hT hne hindexed
    exact hobjects name (fun hours => hne ((hapart.store hredis).ownTable name T hours hT hindexed))

end

lemma StoreKept.stored_rows {s s' : Store φ} (h : StoreKept t a s s') {name : String}
    {rows : List (StoredRow φ)} (hrows : s.objects.lookup name = some rows)
    (hmem : r ∈ rows) (hr : r.id ≠ some a) : ∃ rows', s'.objects.lookup name = some rows' ∧ r ∈ rows' := by
  by_cases hours : Ours t a s name
  · have hother : Other a s name r := ⟨hr, rows, .inr (.inr hrows), hmem⟩
    have hne : s.objects.lookup name ≠ none := by
      rw [hrows]
      exact some_ne_none rows
    obtain ⟨rows', hrows'⟩ := ne_none_iff_exists'.mp (h.stored name r hours hother hne)
    exact ⟨rows', hrows', (h.agrees name rows' hours (.inr (.inr hrows')) r hr).mpr hother⟩
  · exact ⟨rows, by rw [h.objects name hours]; exact hrows, hmem⟩

lemma delete_untouched (hstarts : CallRef.Starts (.delete i) n t a)
    (hapart : Apart svc (.delete i) t a n)
    (hg : Guarded (Node.step svc json) (fun n act => CallRef.owns (.delete i) n act = true) n as)
    (h : exec (Node.step svc json) n as = some n') : Untouched svc t a n n' := by
  by_cases hredis : svc.redisPool
  · have hsep := hapart.store hredis
    have hre := hapart.rewritable hredis i rfl
    have hinv := exec_invariant
      (fun m : Node φ => ∃ c, m.deletes[i]? = some c ∧ DeleteInv t a n.toWorld m.toWorld c) ?_
      ⟨_, hstarts, ⟨⟨rfl, rfl⟩, BufferKept.refl _, StoreKept.refl hre, by simp, by simp, trivial⟩⟩ hg h
    · obtain ⟨c, -, hinv⟩ := hinv
      exact Untouched.of_kept hapart hredis hinv.buffer (hinv.store.kept (StoreKept.refl hre))
        hinv.store.objects (fun name rows hrows r hmem hr => hinv.store.stored_rows hrows hmem hr)
    · rintro m act m' ⟨c, hc, hinv⟩ hown hstep
      cases OwnStep.of_step hown hstep with
      | delete j e c₁ w c' href hcall hs =>
        cases href
        rw [hc] at hcall
        cases hcall
        exact ⟨c', getElem?_set_of_some hc, hinv.step hsep hre hs⟩
      | pool =>
        exact ⟨c, hc, hinv.call, hinv.buffer, hinv.store, hinv.keys, hinv.objects, hinv.facts⟩
      | update j e c₁ w c' href | add j k c₁ act b href => cases href
  · have hno : svc.redisPool = false := by simpa using hredis
    have hinv := exec_invariant
      (fun m : Node φ => ∃ c, m.deletes[i]? = some c ∧ StandaloneInv t a n.toWorld m.toWorld c) ?_
      ⟨_, hstarts, ⟨⟨rfl, rfl⟩, BufferKept.refl _, rfl, trivial⟩⟩ hg h
    · obtain ⟨c, -, hinv⟩ := hinv
      exact Untouched.of_same_store hapart hinv.buffer hinv.store
    · rintro m act m' ⟨c, hc, hinv⟩ hown hstep
      cases OwnStep.of_step hown hstep with
      | delete j e c₁ w c' href hcall hs =>
        cases href
        rw [hc] at hcall
        cases hcall
        exact ⟨c', getElem?_set_of_some hc, hinv.step hno hs⟩
      | pool => exact ⟨c, hc, hinv.call, hinv.buffer, hinv.store, hinv.phase⟩
      | update j e c₁ w c' href | add j k c₁ act b href => cases href

lemma UpdateInv.kept {row : DataRow φ} {w w' : World φ} {c : UpdateCall φ}
    (h : UpdateInv svc t a row w w' c) : Kept t a w.store w'.store where
  files := fun name _ => by rw [h.store]; rfl
  others := fun name r _ _ => by rw [h.store]; rfl
  sub := h.sub
  listed := h.listed

lemma update_untouched (hstarts : CallRef.Starts (.update i) n t a)
    (hapart : Apart svc (.update i) t a n)
    (hg : Guarded (Node.step svc json) (fun n act => CallRef.owns (.update i) n act = true) n as)
    (h : exec (Node.step svc json) n as = some n') : Untouched svc t a n n' := by
  obtain ⟨timestamp, fields, hstarts⟩ := hstarts
  have hkey := hapart.key i _ rfl hstarts
  have hinv := exec_invariant
    (fun m : Node φ => ∃ c, m.updates[i]? = some c ∧
      UpdateInv svc t a (UpdateCall.row ⟨t, a, timestamp, fields, .started⟩) n.toWorld m.toWorld c) ?_
    ⟨_, hstarts, ⟨⟨rfl, rfl, rfl⟩, BufferKept.refl _, nofun, rfl, fun _ hp => hp,
      fun _ hp => .inl hp, fun _ => rfl, nofun⟩⟩ hg h
  · obtain ⟨c, -, hinv⟩ := hinv
    by_cases hredis : svc.redisPool
    · refine Untouched.of_kept hapart hredis hinv.buffer hinv.kept (fun name _ => ?_) ?_
      · rw [hinv.store]
      · intro name rows hrows r hmem _
        exact ⟨rows, by rw [hinv.store]; exact hrows, hmem⟩
    · exact Untouched.of_same_store hapart hinv.buffer (hinv.standalone (by simpa using hredis))
  · rintro m act m' ⟨c, hc, hinv⟩ hown hstep
    cases OwnStep.of_step hown hstep with
    | update j e c₁ w c' href hcall hs =>
      cases href
      rw [hc] at hcall
      cases hcall
      exact ⟨c', getElem?_set_of_some hc, hinv.step hkey hs⟩
    | pool =>
      exact ⟨c, hc, hinv.call, hinv.buffer, hinv.adding, hinv.store, hinv.sub, hinv.listed,
        hinv.standalone, hinv.keys⟩
    | add j k c₁ act b href hcall hphase hact hb =>
      cases href
      rw [hc] at hcall
      cases hcall
      exact ⟨c, hc, hinv.addStep hkey hphase hact hb⟩
    | delete j e c₁ w c' href => cases href

end

def deleting (store : Store Unit) (id : String) : Node Unit :=
  { Node.boot (shop true) Directory.empty 1 store with
    deletes := [⟨"orders", id, 0, [], [], 0, 0, .started⟩] }

def sharedStore : Store Unit :=
  oneObject "f" [storedOrder (some "u1"), storedOrder (some "u2")] ["u1", "u2"]

def rewriteSteps : List (Action Unit) :=
  deleteSteps ([none, none, none, none, some "f"] ++ List.replicate 10 none)

lemma mem_sharedStore {p : String × String} (hp : p ∈ sharedStore.index) :
    p = (indexKey "orders" "u1" "2024-01-01", "f") ∨ p = (indexKey "orders" "u2" "2024-01-01", "f") := by
  simpa [sharedStore, oneObject] using hp

lemma copyOf_sharedStore {name : String} {rows : List (StoredRow Unit)}
    (h : CopyOf sharedStore name rows) : rows = [storedOrder (some "u1"), storedOrder (some "u2")] := by
  rcases h with h | h | h
  · cases h
  · cases h
  · by_cases hname : name = "f"
    · subst hname
      exact (Option.some.inj h).symm
    · rw [sharedStore, oneObject, ← AList.insert_empty, lookup_insert_apply, if_neg hname] at h
      cases h

lemma separated_sharedStore : Separated "orders" "u1" isValidTableName sharedStore where
  ownKeys := by
    intro p hp hmatched
    rcases mem_sharedStore hp with rfl | rfl
    · exact ⟨"2024-01-01", by decide, rfl⟩
    · exact absurd hmatched (by unfold Matched; decide +kernel)
  ownTable := by
    rintro name T - hT ⟨k, hk, hmatch⟩
    have hplain := plainName_of_isValidTableName hT
    have horders : (tableKeyHead "orders").toList <+: k.toList := by
      rcases mem_sharedStore hk with heq | heq <;>
      · cases heq
        exact tableKeyHead_indexKey _ _ _
    exact table_unique (hplain.not_mem rfl) (by decide) ((isMatch_tablePattern hplain k).mp hmatch) horders
  shared := by
    rintro name ⟨k, hk, -⟩ r - -
    have hname : name = "f" := by
      rcases mem_sharedStore hk with heq | heq <;>
      · cases heq
        rfl
    subst hname
    exact ⟨indexKey "orders" "u2" "2024-01-01", by decide +kernel, by decide +kernel,
      by unfold Matched; decide +kernel⟩
  held := by
    intro p hp _ _
    have hname : p.2 = "f" := by
      rcases mem_sharedStore hp with rfl | rfl <;> rfl
    rw [hname]
    exact ⟨storedOrder (some "u2"), by decide, _, .inr (.inr rfl), by decide⟩

lemma rewritable_sharedStore : Rewritable "orders" "u1" sharedStore where
  notNull := by
    intro name rows _ hcopy
    rw [copyOf_sharedStore hcopy]
    decide
  agree := by
    intro name rows rows' _ hcopy hcopy' r hr _
    rw [copyOf_sharedStore hcopy']
    rw [copyOf_sharedStore hcopy] at hr
    exact hr

lemma apart_sharedStore :
    Apart (shop true) (.delete 0) "orders" "u1" (deleting sharedStore "u1") where
  table := by decide
  names := fun _ hT => (plainName_of_isValidTableName hT).not_mem rfl
  store := fun _ => separated_sharedStore
  rewritable := fun _ _ _ => rewritable_sharedStore
  key := by rintro i c ⟨⟩

end MinIODB.Service
