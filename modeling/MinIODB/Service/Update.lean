import MinIODB.Service.Deletion
import MinIODB.Buffer.Held

/-!
# When an update is visible and final

`UpdateData` takes the buffered versions of a record out of the buffer, inserts the new one
and then deletes all index keys of the record. The keys of the stored versions are also
those under which a flush enters the new one, so the new version must not be stored before
the keys are gone. An older version that is in a flush task when the call starts is
stored after that.
-/
namespace MinIODB.Service
open Buffer Query Wal Transition List Option

section
variable {φ : Type*} (svc : ServiceConfig) (t : String) (v : DataRow φ)

def NewVersion (r : StoredRow φ) : Prop :=
  r.id = some v.id ∧ r.timestamp = v.timestamp ∧ r.fields = v.fields

def OldVersion (r : StoredRow φ) : Prop := r.id = some v.id ∧ ¬ NewVersion v r

structure Carries (n : Node φ) (name : String) : Prop where
  object : n.store.objects.lookup name ≠ none
  copies : ∀ rows, Copy n name rows → ∃ r ∈ rows, NewVersion v r

def Waiting (n : Node φ) : Prop :=
  ∃ e, NewVersion v (stored e) ∧ Held n.buffer (bufferKey svc.buffer v) e

def Shown (n : Node φ) : Prop := ∃ p ∈ n.store.index, Listed t p.1 ∧ Carries v n p.2

structure Replacing (n : Node φ) : Prop where
  plain : PlainName t
  table : tableName svc.buffer v = t
  old : NothingPending (OldVersion v) t n
  uploads : ∀ u ∈ n.uploads, ∀ task, n.buffer.pool.tasks[u.1]? = some task →
    task.status.active = true → task.bufferKey = bufferKey svc.buffer v →
    (∃ e ∈ task.rows, NewVersion v (stored e)) → Carries v n u.2

structure Updated (n : Node φ) : Prop where
  replacing : Replacing svc t v n
  listed : ∀ p ∈ n.store.index, Listed t p.1 → Clean (OldVersion v) n p.2
  visible : Waiting svc v n ∨ Shown t v n

end

def UpdatePhase.watched : UpdatePhase → Bool
  | .started | .returned false | .lost => false
  | _ => true

def UpdatePhase.inserted : UpdatePhase → Bool
  | .adding _ | .scanning | .unindexing _ => true
  | _ => false

section
variable {φ : Type*} (svc : ServiceConfig) (i : ℕ)

def Action.smooth : Action φ → Bool
  | .buffer a => a.lossless
  | .updateStep j _ => j == i
  | .rollback _ _ _ | .delete _ _ | .deleteStep _ _ | .drop _ _ | .dropStep _ _ | .restart _ => false
  | _ => true

/-- What may happen while the call is at work and after it has succeeded: nothing fails, no
other row of the record is written, objects get new names, the names and index keys of the
table are for its own tasks, and the new version is not entered in the index before the
call has deleted the keys. -/
structure Calm (n : Node φ) (act : Action φ) (c : UpdateCall φ) : Prop where
  smooth : act.smooth i = true
  writer : ∀ row, act = .buffer (.addInsert row) → inTable c.table (bufferKey svc.buffer row) = true →
    row.id ≠ c.id
  fresh : ∀ tid now task, act = .putObject tid now → n.buffer.pool.tasks[tid]? = some task →
    Fresh n (objectName task.bufferKey now) ∧
      (inTable c.table (objectName task.bufferKey now) = true → inTable c.table task.bufferKey = true)
  indexed : ∀ tid name task tableName id day, act = .indexObject tid name →
    n.buffer.pool.tasks[tid]? = some task → splitSlash task.bufferKey = [tableName, id, day] →
    Glob.isMatch (tablePattern c.table) (indexKey tableName id day) = true →
    inTable c.table task.bufferKey = true
  later : c.phase.inserted = true → ∀ tid name task, act = .indexObject tid name →
    n.buffer.pool.tasks[tid]? = some task → inTable c.table task.bufferKey = true →
    ∀ e ∈ task.rows, e.row.id ≠ c.id

def UpdateOk (n : Node φ) (c : UpdateCall φ) (e : StepEnv) : Prop :=
  match c.phase with
  | .started =>
    ∀ (j : ℕ) (task : FlushTask (Entry φ)), n.buffer.pool.tasks[j]? = some task →
      task.status.active = true → inTable c.table task.bufferKey = true →
      (∀ e ∈ task.rows, e.row.id ≠ c.id) ∧
        ∀ name, (j, name) ∈ n.uploads → Clean (HasId c.id) n name
  | .scanning =>
    e.ok = true ∧ ∀ p ∈ n.store.index, Listed c.table p.1 → ¬ Clean (OldVersion c.row) n p.2 →
      Matched c.table c.id p.1
  | .unindexing _ => e.ok = true
  | _ => True

/-- No step disturbs the given `UpdateData` call. -/
structure UpdateUndisturbed (n : Node φ) (act : Action φ) : Prop where
  calm : ∀ c, n.updates[i]? = some c → c.phase.watched = true → Calm svc i n act c
  own : ∀ c e, n.updates[i]? = some c → act = .updateStep i e → UpdateOk n c e

def UpdateProgress (n : Node φ) (c : UpdateCall φ) : Prop :=
  match c.phase with
  | .started | .returned false | .lost => True
  | .tombstone | .inserting =>
    PlainName c.table ∧ tableName svc.buffer c.row = c.table ∧ NothingPending (HasId c.id) c.table n
  | .adding _ | .scanning => Replacing svc c.table c.row n ∧ Waiting svc c.row n
  | .unindexing keys => Replacing svc c.table c.row n ∧ Waiting svc c.row n ∧
      ∀ p ∈ n.store.index, Listed c.table p.1 → ¬ Clean (OldVersion c.row) n p.2 → p.1 ∈ keys
  | .returned true => Updated svc c.table c.row n

variable {svc i} {json : φ → Option φ} {n n' : Node φ} {act : Action φ} {t name : String}
  {v : DataRow φ} {c : UpdateCall φ}

lemma newVersion_row (c : UpdateCall φ) (tag : ℕ) : NewVersion c.row (stored ⟨tag, c.row⟩) :=
  ⟨rfl, rfl, rfl⟩

lemma UpdateStep.objects_eq {e : StepEnv} {w w' : World φ} {c' : UpdateCall φ}
    (hs : UpdateStep svc json e w c w' c') : w'.store.objects = w.store.objects := by
  cases hs with
  | unindex =>
    split <;> rfl
  | _ => rfl

lemma objects_of_smooth (hs : NodeStep svc json n act n') (hsmooth : act.smooth i)
    (h : n.store.objects.lookup name ≠ none) : n'.store.objects.lookup name ≠ none := by
  cases hs with
  | putObject =>
    simp only [lookup_insert_apply]
    split
    · exact some_ne_none _
    · exact h
  | updateStep j e d w d' hd hu =>
    simp only [hu.objects_eq]
    exact h
  | rollback | delete | deleteStep | drop | dropStep | restart => cases hsmooth
  | _ => exact h

lemma Carries.step (h : Carries v n name) (hs : NodeStep svc json n act n')
    (hsmooth : act.smooth i)
    (hput : ∀ tid now task, act = .putObject tid now → n.buffer.pool.tasks[tid]? = some task →
      name ≠ objectName task.bufferKey now) : Carries v n' name where
  object := objects_of_smooth hs hsmooth h.object
  copies := by
    intro rows hcopy
    rcases Copy.cases_step hs hcopy with hold | ⟨j, e, rows', rfl, -⟩ | ⟨tid, now, task, hact, htask, hname, -⟩
    · exact h.copies rows hold
    · cases hsmooth
    · exact absurd hname (hput tid now task hact htask)

lemma carries_put {tid now : ℕ} {task : FlushTask (Entry φ)} {e : Entry φ}
    (hs : NodeStep svc json n (.putObject tid now) n') (htask : n.buffer.pool.tasks[tid]? = some task)
    (hfresh : Fresh n (objectName task.bufferKey now)) (he : e ∈ task.rows)
    (hnew : NewVersion v (stored e)) : Carries v n' (objectName task.bufferKey now) where
  object := by
    cases hs with
    | putObject _ _ other holder hother =>
      rw [htask] at hother
      cases hother
      simp only [AList.lookup_insert]
      exact some_ne_none _
  copies := by
    intro rows hcopy
    rcases Copy.cases_step hs hcopy with hold | ⟨_, _, _, ⟨⟩, -⟩ | ⟨tid', now', other, hact, hother, -, rfl⟩
    · exact absurd hold (hfresh.copies rows)
    · cases hact
      rw [htask] at hother
      cases hother
      exact ⟨stored e, mem_map_of_mem he, hnew⟩

lemma Calm.quiet {bad : StoredRow φ → Prop} (h : Calm svc i n act c) (hc : n.updates[i]? = some c)
    (hbad : ∀ r, bad r → HasId c.id r) (hown : ∀ e, act = .updateStep i e → c.phase = .inserting →
      ¬ bad (stored ⟨n.buffer.adds.length, c.row⟩)) : Quiet svc bad c.table n act where
  goesOn := by
    rintro name rfl
    cases h.smooth
  inserted := by
    intro row hrow htable hrow_bad
    cases act with
    | buffer a =>
      cases a with
      | addInsert =>
        cases hrow
        exact h.writer _ rfl htable (some.inj (hbad _ hrow_bad))
      | _ => cases hrow
    | updateStep j e =>
      have hj : j = i := beq_iff_eq.mp h.smooth
      subst hj
      simp only [inserts, hc, bind_some, ite_none_right_eq_some] at hrow
      obtain ⟨hphase, hrow⟩ := hrow
      cases hrow
      exact hown e rfl hphase hrow_bad
    | _ => cases hrow
  fresh := h.fresh
  indexed := h.indexed

lemma Calm.quiet_old (h : Calm svc i n act c) (hc : n.updates[i]? = some c) :
    Quiet svc (OldVersion c.row) c.table n act :=
  h.quiet hc (fun _ hold => hold.1) (fun _ _ _ hold => hold.2 (newVersion_row c _))

lemma Replacing.step (h : Replacing svc c.table c.row n) (hinv : NodeInv n)
    (hs : NodeStep svc json n act n') (hcalm : Calm svc i n act c) (hc : n.updates[i]? = some c) :
    Replacing svc c.table c.row n' where
  plain := h.plain
  table := h.table
  old := h.old.step hinv hs (hcalm.quiet_old hc)
  uploads := by
    intro u hu task' htask' hactive' hkey' hnew
    have hcontinues := continues_of_nodeStep hinv.hold hs (hcalm.quiet_old hc).goesOn
    rcases uploads_of_step hs hu with hold | ⟨tid, now, task, rfl, htask, hactive, rfl⟩
    · obtain ⟨task, htask, hactive, hkey, hrows⟩ :=
        hcontinues.old u.1 task' (hinv.uploads u hold) htask' hactive'
      rw [← hrows] at hnew
      refine (h.uploads u hold task htask hactive (hkey.trans hkey') hnew).step hs hcalm.smooth ?_
      intro tid now other hact hother
      exact (hcalm.fresh tid now other hact hother).1.uploads u hold
    · obtain ⟨other, hother, -, -, hrows⟩ :=
        hcontinues.old tid task' (List.getElem?_eq_some_iff.mp htask).1 htask' hactive'
      rw [htask] at hother
      cases hother
      obtain ⟨e, he, hversion⟩ := hnew
      exact carries_put hs htask (hcalm.fresh tid now task rfl htask).1 (hrows ▸ he) hversion

lemma Waiting.others (h : Waiting svc v n) (hs : NodeStep svc json n act n')
    (hsmooth : act.smooth i) (hothers : ∀ e, act ≠ .updateStep i e) :
    Waiting svc v n' ∨ ∃ tid name task e, act = .indexObject tid name ∧
      n.buffer.pool.tasks[tid]? = some task ∧ task.bufferKey = bufferKey svc.buffer v ∧ e ∈ task.rows ∧
      NewVersion v (stored e) := by
  obtain ⟨e, hnew, hheld⟩ := h
  cases hs with
  | buffer a b hown hb => exact .inl ⟨e, hnew, hheld.step hb hsmooth⟩
  | indexObject tid name task tableName id day b hupload hredis htask hkey hb =>
    rcases hheld.attemptOk hb with hheld | ⟨other, hother, hkey', he⟩
    · exact .inl ⟨e, hnew, hheld⟩
    · exact .inr ⟨tid, name, other, e, rfl, hother, hkey', he, hnew⟩
  | updateStep j env =>
    have hj : j = i := beq_iff_eq.mp hsmooth
    exact absurd (hj ▸ rfl) (hothers env)
  | rollback | delete | deleteStep | drop | dropStep | restart => cases hsmooth
  | putObject | download | save | cacheFile | expire | cleanTemp | update => exact .inl ⟨e, hnew, hheld⟩

lemma Replacing.inTable_key (h : Replacing svc t v n) : inTable t (bufferKey svc.buffer v) := by
  have hkey := inTable_bufferKey svc.buffer v
  rw [h.table] at hkey
  exact hkey

lemma Replacing.listed_key (h : Replacing svc t v n) {tableName id day : String}
    (hkey : splitSlash (bufferKey svc.buffer v) = [tableName, id, day]) :
    Listed t (indexKey tableName id day) := by
  have hsplit : splitSlash (bufferKey svc.buffer v) =
      t :: splitSlash (idPart v ++ "/" ++ svc.buffer.dayStr v.timestamp) := by
    have hlist : (bufferKey svc.buffer v).toList =
        t.toList ++ '/' :: (idPart v ++ "/" ++ svc.buffer.dayStr v.timestamp).toList := by
      rw [bufferKey, h.table]
      simp
    rw [splitSlash, hlist, splitOn_append_cons_self,
      splitOn_eq_singleton (h.plain.not_mem rfl)]
    simp [splitSlash]
  rw [hsplit] at hkey
  obtain ⟨rfl, -⟩ := cons_eq_cons.mp hkey
  exact (isMatch_tablePattern h.plain _).mpr (tableKeyHead_indexKey _ _ _)

lemma Waiting.later (h : Waiting svc c.row n) (hreplacing : Replacing svc c.table c.row n)
    (hs : NodeStep svc json n act n') (hcalm : Calm svc i n act c) (hothers : ∀ e, act ≠ .updateStep i e)
    (hphase : c.phase.inserted) : Waiting svc c.row n' := by
  rcases h.others hs hcalm.smooth hothers with h | ⟨tid, name, task, e, rfl, htask, hkey, he, hnew⟩
  · exact h
  · have htable : inTable c.table task.bufferKey := hkey ▸ hreplacing.inTable_key
    exact absurd (some.inj hnew.1) (hcalm.later hphase tid name task rfl htask htable e he)

lemma index_of_others (hs : NodeStep svc json n act n') (hsmooth : act.smooth i)
    (hothers : ∀ e, act ≠ .updateStep i e) {p : String × String} (hp : p ∈ n.store.index) :
    p ∈ n'.store.index := by
  cases hs with
  | indexObject => exact .tail _ hp
  | updateStep j env =>
    have hj : j = i := beq_iff_eq.mp hsmooth
    exact absurd (hj ▸ rfl) (hothers env)
  | rollback | delete | deleteStep | drop | dropStep | restart => cases hsmooth
  | _ => exact hp

lemma Updated.others (h : Updated svc c.table c.row n) (hinv : NodeInv n)
    (hs : NodeStep svc json n act n') (hcalm : Calm svc i n act c) (hc : n.updates[i]? = some c)
    (hothers : ∀ e, act ≠ .updateStep i e) : Updated svc c.table c.row n' where
  replacing := h.replacing.step hinv hs hcalm hc
  listed := by
    intro p hp hlisted
    by_contra hdirty
    obtain ⟨hp, hdirty⟩ := h.replacing.old.listed_dirty hs (hcalm.quiet_old hc) hp hlisted hdirty
    exact hdirty (h.listed p hp hlisted)
  visible := by
    rcases h.visible with hwait | ⟨p, hp, hlisted, hcarries⟩
    · rcases hwait.others hs hcalm.smooth hothers with hwait | ⟨tid, name, task, e, rfl, htask, hkey, he, hnew⟩
      · exact .inl hwait
      · -- the object of the upload that ends has the new version
        have hindex := hs
        cases hindex with
        | indexObject _ _ other tableName id day b hupload hredis hother hsplit hb =>
          rw [htask] at hother
          cases hother
          have hactive : task.status.active := by
            cases hb with
            | attemptOk _ other p hpool =>
              obtain ⟨holder, hother, hstatus, -⟩ := Pool.attemptOk_eq hpool
              rw [htask] at hother
              cases hother
              rw [hstatus]
              rfl
          have hcarries := h.replacing.uploads _ hupload task htask hactive hkey ⟨e, he, hnew⟩
          rw [hkey] at hsplit
          exact .inr ⟨_, .head _, h.replacing.listed_key hsplit,
            hcarries.step hs hcalm.smooth nofun⟩
    · refine .inr ⟨p, index_of_others hs hcalm.smooth hothers hp, hlisted, hcarries.step hs hcalm.smooth ?_⟩
      intro tid now task hact htask
      exact (hcalm.fresh tid now task hact htask).1.index p hp

lemma UpdateProgress.others (h : UpdateProgress svc n c) (hinv : NodeInv n)
    (hs : NodeStep svc json n act n') (hc : n.updates[i]? = some c)
    (hcalm : c.phase.watched → Calm svc i n act c) (hothers : ∀ e, act ≠ .updateStep i e) :
    UpdateProgress svc n' c := by
  unfold UpdateProgress at *
  cases hphase : c.phase with
  | started | lost => trivial
  | tombstone | inserting =>
    rw [hphase] at h hcalm
    have hquiet : Quiet svc (HasId c.id) c.table n act :=
      (hcalm rfl).quiet hc (fun _ => id) (fun e he => absurd he (hothers e))
    exact ⟨h.1, h.2.1, h.2.2.step hinv hs hquiet⟩
  | adding | scanning =>
    have hlater : c.phase.inserted := by rw [hphase]; rfl
    rw [hphase] at h hcalm
    exact ⟨h.1.step hinv hs (hcalm rfl) hc, h.2.later h.1 hs (hcalm rfl) hothers hlater⟩
  | unindexing =>
    have hlater : c.phase.inserted := by rw [hphase]; rfl
    rw [hphase] at h hcalm
    refine ⟨h.1.step hinv hs (hcalm rfl) hc, h.2.1.later h.1 hs (hcalm rfl) hothers hlater, ?_⟩
    intro p hp hlisted hdirty
    obtain ⟨hp, hdirty⟩ := h.1.old.listed_dirty hs ((hcalm rfl).quiet_old hc) hp hlisted hdirty
    exact h.2.2 p hp hlisted hdirty
  | returned success =>
    cases success with
    | false => trivial
    | true =>
      rw [hphase] at h hcalm
      exact Updated.others h hinv hs (hcalm rfl) hc hothers

section
variable {e : StepEnv} {w : World φ} {c' : UpdateCall φ}

lemma tableName_row (c : UpdateCall φ) (h : c.table ≠ "") : tableName svc.buffer c.row = c.table := by
  simp [tableName, UpdateCall.row, h]

lemma replacing_of_insert (hplain : PlainName c.table) (htable : tableName svc.buffer c.row = c.table)
    (hnone : NothingPending (HasId c.id) c.table n) (hinv : NodeInv n) (hc : n.updates[i]? = some c)
    (hcalm : Calm svc i n (.updateStep i e) c)
    (hs : NodeStep svc json n (.updateStep i e)
      { n with
        buffer := n.buffer.addInsert svc.buffer json c.row
        updates := n.updates.set i c' }) :
    Replacing svc c.table c.row
      { n with
        buffer := n.buffer.addInsert svc.buffer json c.row
        updates := n.updates.set i c' } where
  plain := hplain
  table := htable
  old := (hnone.mono (fun _ hold => hold.1)).step hinv hs (hcalm.quiet_old hc)
  uploads := by
    rintro u - task htask hactive hkey ⟨entry, hentry, hnew⟩
    -- no task has a row of the record yet
    have hin : inTable c.table task.bufferKey := by
      rw [hkey, ← htable]
      exact inTable_bufferKey svc.buffer c.row
    exact absurd hnew.1 (hnone.rows entry (.inr ⟨u.1, task, htask, hactive, hin, hentry⟩))

lemma waiting_of_insert (calls : List (UpdateCall φ)) : Waiting svc c.row
      { n with buffer := n.buffer.addInsert svc.buffer json c.row, updates := calls } := by
  refine ⟨⟨n.buffer.adds.length, c.row⟩, newVersion_row c _, .inl ?_⟩
  simp [State.addInsert]

lemma UpdateProgress.own (h : UpdateProgress svc n c) (hinv : NodeInv n) (hredis : svc.redisPool)
    (hnames : ∀ T, svc.isValidTableName T → PlainName T ∧ T ≠ "") (hc : n.updates[i]? = some c)
    (hu : UpdateStep svc json e n.toWorld c w c')
    (hcalm : c.phase.watched → Calm svc i n (.updateStep i e) c) (hok : UpdateOk n c e) :
    UpdateProgress svc { n with toWorld := w, updates := n.updates.set i c' } c' := by
  have hs := NodeStep.updateStep n i e c w c' hc hu
  unfold UpdateProgress at h
  unfold UpdateOk at hok
  cases hu with
  | reject | insertFail | addFailed => trivial
  | remove next hphase hvalid hnext =>
    rw [hphase] at hok
    simp only [Bool.and_eq_true] at hvalid
    obtain ⟨hplain, hne⟩ := hnames c.table hvalid.2
    have hnone := nothingPending_of_remove hs rfl rfl nofun hok
    rcases hnext with rfl | rfl <;> exact ⟨hplain, tableName_row c hne, hnone⟩
  | tombstone b hphase =>
    rw [hphase] at h hcalm
    refine ⟨h.1, h.2.1, h.2.2.step hinv hs ((hcalm rfl).quiet hc (fun _ => id) ?_)⟩
    intro _ _ hinserting
    rw [hphase] at hinserting
    cases hinserting
  | insert hphase =>
    rw [hphase] at h hcalm
    exact ⟨replacing_of_insert (c := c) h.1 h.2.1 h.2.2 hinv hc (hcalm rfl) hs, waiting_of_insert (c := c) _⟩
  | added k call hphase =>
    rw [hphase] at h hcalm
    exact ⟨h.1.step hinv hs (hcalm rfl) hc, h.2⟩
  | scan hphase =>
    rw [hphase] at h hcalm hok
    refine ⟨h.1.step hinv hs (hcalm rfl) hc, h.2, fun p hp hlisted hdirty => ?_⟩
    obtain ⟨hp, hdirty⟩ := h.1.old.listed_dirty hs ((hcalm rfl).quiet_old hc) hp hlisted hdirty
    exact Store.mem_scanKeys.mpr ⟨⟨p.2, hp⟩, hok.2 p hp hlisted hdirty⟩
  | noScan hphase hwhy =>
    rw [hphase] at hok
    rw [hredis, hok.1] at hwhy
    rcases hwhy with hwhy | hwhy <;> cases hwhy
  | unindex keys hphase =>
    rw [hphase] at h hcalm hok
    refine ⟨h.1.step hinv hs (hcalm rfl) hc, fun p hp hlisted => ?_, .inl ?_⟩
    · by_contra hdirty
      obtain ⟨hold, hdirty⟩ := h.1.old.listed_dirty hs ((hcalm rfl).quiet_old hc) hp hlisted hdirty
      rw [if_pos hok] at hp
      exact (Store.mem_del.mp hp).2 (h.2.2 p hold hlisted hdirty)
    · rw [if_pos hok]
      exact h.2.1

end

lemma updates_of_step (hs : NodeStep svc json n act n') (hothers : ∀ e, act ≠ .updateStep i e)
    (hc : n'.updates[i]? = some c) :
    n.updates[i]? = some c ∨ c.phase = .started ∨ c.phase = .lost := by
  cases hs with
  | update =>
    rcases getElem?_concat_cases hc with hc | ⟨-, rfl⟩
    · exact .inl hc
    · exact .inr (.inl rfl)
  | updateStep j e =>
    rw [getElem?_set_ne] at hc
    · exact .inl hc
    · rintro rfl
      exact hothers e rfl
  | restart =>
    obtain ⟨d, -, rfl⟩ := map_eq_some_iff.mp ((getElem?_map ..).symm.trans hc)
    exact .inr (.inr rfl)
  | _ => exact .inl hc

lemma updateProgress_step (hredis : svc.redisPool)
    (hnames : ∀ T, svc.isValidTableName T → PlainName T ∧ T ≠ "") (hinv : NodeInv n)
    (h : ∀ c, n.updates[i]? = some c → UpdateProgress svc n c) (hg : UpdateUndisturbed svc i n act)
    (hs : NodeStep svc json n act n') : ∀ c, n'.updates[i]? = some c → UpdateProgress svc n' c := by
  intro c hc
  by_cases hown : ∃ e, act = .updateStep i e
  · obtain ⟨e, rfl⟩ := hown
    cases hs with
    | updateStep _ _ d w d' hd hu =>
      rw [getElem?_set_of_some hd] at hc
      cases hc
      exact (h d hd).own hinv hredis hnames hd hu (hg.calm d hd) (hg.own d e hd rfl)
  · have hothers : ∀ e, act ≠ .updateStep i e := fun e he => hown ⟨e, he⟩
    rcases updates_of_step hs hothers hc with hold | hphase | hphase
    · exact (h c hold).others hinv hs hold (hg.calm c hold) hothers
    · rw [UpdateProgress, hphase]
      trivial
    · rw [UpdateProgress, hphase]
      trivial

lemma Updated.new_mem (h : Updated svc t v n)
    (hidle : ∀ (j : ℕ) (task : FlushTask (Entry φ)), n.buffer.pool.tasks[j]? = some task →
      task.status.active → inTable t task.bufferKey → ∀ e ∈ task.rows, e.row.id ≠ v.id) :
    ∃ r ∈ n.tableRows true t, NewVersion v r := by
  rcases h.visible with ⟨e, hnew, hheld⟩ | ⟨p, hp, hlisted, hcarries⟩
  · rcases hheld with he | ⟨j, task, htask, hactive, hkey, he⟩
    · refine ⟨stored e, Node.mem_tableRows.mpr (.inl ⟨_, e, ?_, h.replacing.inTable_key, he, rfl⟩), hnew⟩
      rw [bufferKey, h.replacing.table]
      simp only [String.length_append]
      have hslash : "/".length = 1 := rfl
      omega
    · have htable : inTable t task.bufferKey := hkey ▸ h.replacing.inTable_key
      exact absurd (some.inj hnew.1) (hidle j task htask hactive htable e he)
  · obtain ⟨rows, hrows⟩ := ne_none_iff_exists'.mp hcarries.object
    obtain ⟨rows', hfile⟩ := file_ne_none (.inr (.inr hrows))
    obtain ⟨r, hr, hnew⟩ := hcarries.copies rows' (.read (copyOf_file hfile))
    have hobject : p.2 ∈ n.store.tableObjects true t := Store.mem_tableObjects.mpr ⟨p.1, hp, hlisted⟩
    refine ⟨r, Node.mem_tableRows.mpr (.inr ⟨p.2, hobject, ?_⟩), hnew⟩
    rw [hfile]
    exact hr

lemma Updated.new_of_mem (h : Updated svc t v n) {r : StoredRow φ} (hr : r ∈ n.tableRows true t)
    (hid : r.id = some v.id) : NewVersion v r := by
  by_contra hnew
  have hold : OldVersion v r := ⟨hid, hnew⟩
  rcases Node.mem_tableRows.mp hr with ⟨k, e, -, htable, he, rfl⟩ | ⟨name, hname, hr⟩
  · exact h.replacing.old.rows e (.inl ⟨k, htable, he⟩) hold
  · obtain ⟨k, hk, hlisted⟩ := Store.mem_tableObjects.mp hname
    obtain ⟨rows, hcopy, hmem⟩ := mem_file hr
    exact h.listed (k, name) hk hlisted rows (.read hcopy) r hmem hold

/-- In every run with Redis that does not disturb an `UpdateData` call, once the call has
returned with success, whenever no flush of its record is in flight, a query of its table
returns the new version of the record and no other version of it. -/
theorem updated_record_visible_and_final (hredis : svc.redisPool = true)
    (hnames : ∀ T, svc.isValidTableName T = true → PlainName T ∧ T ≠ "")
    {dir : Directory (LogRecord (Payload (Entry φ)))} {segment : ℕ} {store : Store φ}
    {as : List (Action φ)}
    (hg : Guarded (Node.step svc json) (UpdateUndisturbed svc i) (Node.boot svc dir segment store) as)
    (hrun : exec (Node.step svc json) (Node.boot svc dir segment store) as = some n)
    (hc : n.updates[i]? = some c) (hphase : c.phase = .returned true)
    (hidle : ∀ (j : ℕ) (task : FlushTask (Entry φ)), n.buffer.pool.tasks[j]? = some task →
      task.status.active = true → inTable c.table task.bufferKey = true → ∀ e ∈ task.rows, e.row.id ≠ c.id) :
    (∃ r ∈ n.tableRows svc.redisPool c.table, NewVersion c.row r) ∧
      ∀ r ∈ n.tableRows svc.redisPool c.table, r.id = some c.id → NewVersion c.row r := by
  have hinv := exec_invariant
    (fun n : Node φ => NodeInv n ∧ ∀ c, n.updates[i]? = some c → UpdateProgress svc n c) ?_
    ⟨nodeInv_boot svc dir segment store, by rintro c ⟨⟩⟩ hg hrun
  · have hupdated := hinv.2 c hc
    rw [UpdateProgress, hphase] at hupdated
    rw [hredis]
    exact ⟨Updated.new_mem hupdated hidle, fun r hr hid => Updated.new_of_mem hupdated hr hid⟩
  · rintro n act n' ⟨hinv, h⟩ hg hstep
    have hs := NodeStep.of_step hstep
    exact ⟨hinv.step hs, updateProgress_step hredis hnames hinv h hg hs⟩

end

def versions (redisPool : Bool) (n : Node Unit) : List Bool × Bool × List (Option String × Int64) :=
  (n.updates.map (fun c => decide (c.phase = .returned true)),
    n.buffer.pool.tasks.any (fun task => task.status.active),
    (n.tableRows redisPool "orders").map (fun r => (r.id, r.timestamp)))

def unused (n : Node Unit) (name : String) : Bool :=
  (n.store.objects.lookup name).isNone && (n.store.tempDir.lookup name).isNone &&
    (n.store.fileCache.lookup name).isNone && (n.store.rewrites.lookup name).isNone &&
    n.downloads.isEmpty && n.deletes.isEmpty && n.store.index.all (fun p => p.2 != name) &&
    n.uploads.all (fun u => u.2 != name)

lemma fresh_of_unused {n : Node Unit} {name : String} (h : unused n name) : Fresh n name := by
  simp only [unused, Bool.and_eq_true, isNone_iff_eq_none, List.isEmpty_iff] at h
  obtain ⟨⟨⟨⟨⟨⟨⟨hobject, htemp⟩, hcache⟩, hrewrite⟩, hdownloads⟩, hdeletes⟩, hindex⟩, huploads⟩ := h
  refine ⟨fun rows hcopy => ?_, fun p hp => ?_, fun u hu => ?_⟩
  · cases hcopy with
    | read h =>
      rw [CopyOf, hobject, htemp, hcache] at h
      simp at h
    | rewritten h =>
      rw [hrewrite] at h
      cases h
    | downloaded h =>
      rw [hdownloads] at h
      cases h
    | saving j d hd =>
      rw [hdeletes] at hd
      cases hd
  · exact bne_iff_ne.mp (all_eq_true.mp hindex p hp)
  · exact bne_iff_ne.mp (all_eq_true.mp huploads u hu)

def updateUndisturbedCheck (n : Node Unit) : Action Unit → Bool
  | .update _ _ _ _ => n.updates.isEmpty
  | .updateStep j e =>
    j == 0 && e.ok && n.buffer.pool.tasks.isEmpty &&
      n.updates.all (fun c => n.store.index.all (fun p => Glob.isMatch (recordPattern c.table c.id) p.1))
  | .buffer (.addInsert _) => false
  | .buffer a => a.lossless
  | .putObject _ now =>
    n.buffer.pool.tasks.all (fun task => unused n (objectName task.bufferKey now) &&
      n.updates.all (fun c => inTable c.table task.bufferKey))
  | .indexObject _ _ =>
    n.updates.all (fun c => !c.phase.inserted &&
      n.buffer.pool.tasks.all (fun task => inTable c.table task.bufferKey))
  | _ => false

lemma updateUndisturbed_of_check (n : Node Unit) (act : Action Unit)
    (h : updateUndisturbedCheck n act) : UpdateUndisturbed (shop true) 0 n act := by
  cases act with
  | update =>
    have hnone : ∀ c, n.updates[0]? ≠ some c := by
      intro c
      rw [List.isEmpty_iff.mp h]
      rintro ⟨⟩
    exact ⟨fun c hc => absurd hc (hnone c), fun c _ hc => absurd hc (hnone c)⟩
  | updateStep =>
    simp only [updateUndisturbedCheck, Bool.and_eq_true, beq_iff_eq, List.isEmpty_iff] at h
    obtain ⟨⟨⟨rfl, he⟩, htasks⟩, hfound⟩ := h
    refine ⟨fun c _ _ => ⟨rfl, nofun, nofun, nofun,
      by rintro _ _ _ _ ⟨⟩⟩, ?_⟩
    rintro c e' hc ⟨⟩
    have hfound := all_eq_true.mp (all_eq_true.mp hfound c (mem_of_getElem? hc))
    unfold UpdateOk
    split
    · intro k task htask
      rw [htasks] at htask
      cases htask
    · exact ⟨he, fun p hp _ _ => hfound p hp⟩
    · exact he
    · trivial
  | buffer a =>
    refine ⟨fun c _ _ => ⟨?_, ?_, nofun, nofun, nofun⟩,
      by rintro _ _ _ ⟨⟩⟩
    · cases a with
      | addInsert => cases h
      | _ => exact h
    · rintro row ⟨⟩
      cases h
  | putObject =>
    refine ⟨fun c hc _ => ⟨rfl, nofun, ?_, nofun, nofun⟩,
      by rintro _ _ _ ⟨⟩⟩
    rintro _ _ task ⟨⟩ htask
    have htask := all_eq_true.mp h task (mem_of_getElem? htask)
    rw [Bool.and_eq_true] at htask
    exact ⟨fresh_of_unused htask.1, fun _ => all_eq_true.mp htask.2 c (mem_of_getElem? hc)⟩
  | indexObject =>
    have hcalls : ∀ c, n.updates[0]? = some c → c.phase.inserted = false ∧
        n.buffer.pool.tasks.all (fun task => inTable c.table task.bufferKey) = true := by
      intro c hc
      have hall := all_eq_true.mp h c (mem_of_getElem? hc)
      rw [Bool.and_eq_true, Bool.not_eq_true'] at hall
      exact hall
    refine ⟨fun c hc _ => ⟨rfl, nofun, nofun, ?_, ?_⟩, nofun⟩
    · rintro _ _ task _ _ _ ⟨⟩ htask _ _
      exact all_eq_true.mp (hcalls c hc).2 task (mem_of_getElem? htask)
    · intro hinserted
      rw [(hcalls c hc).1] at hinserted
      cases hinserted
  | _ => cases h

def updateAndAdd (i : ℕ) : List (Action Unit) :=
  [.updateStep 0 (.allOk none), .updateStep 0 (.allOk none), .buffer (.addAppend i none),
    .buffer (.addRecord i), .buffer (.addReturn i)]

def updateRest : List (Action Unit) := List.replicate 3 (.updateStep 0 (.allOk none))

def uploadTask (i : ℕ) : List (Action Unit) :=
  [.buffer (.pool (.submit i)), .buffer (.pool (.take 0)), .putObject i 7,
    .indexObject i "orders/u1/2024-01-01/7.parquet"]

def storedNode (redisPool : Bool) : Node Unit :=
  Node.boot (shop redisPool) Directory.empty 1
    (oneObject "orders/u1/2024-01-01/1.parquet" [storedOrder (some "u1")] ["u1"])

def replacedRun : List (Action Unit) :=
  [.update "orders" "u1" 5 ()] ++ updateAndAdd 0 ++ updateRest ++
    [.buffer (.flush "orders/u1/2024-01-01")] ++ uploadTask 0

theorem updated_record_visible_and_final_replaced :
    (exec (Node.step (shop true) some) (storedNode true) replacedRun).map (versions true) =
      some ([true], false, [(some "u1", 5)]) ∧
    ∀ n, exec (Node.step (shop true) some) (storedNode true) replacedRun = some n →
      n.buffer.pool.tasks.all (fun task => !task.status.active) = true →
      ∀ c, n.updates[0]? = some c → c.phase = .returned true →
        (∃ r ∈ n.tableRows true c.table, NewVersion c.row r) ∧
          ∀ r ∈ n.tableRows true c.table, r.id = some c.id → NewVersion c.row r := by
  have hcheck : Guarded (Node.step (shop true) some) (fun n act => updateUndisturbedCheck n act = true)
      (storedNode true) replacedRun := by decide +kernel
  refine ⟨by decide +kernel, fun n hrun hidle c hc hphase => ?_⟩
  refine updated_record_visible_and_final rfl (fun T hT => ⟨plainName_of_isValidTableName hT, ?_⟩)
    (hcheck.mono updateUndisturbed_of_check) hrun hc hphase (fun j task htask hactive => ?_)
  · rintro rfl
    revert hT
    decide
  · have hnot := all_eq_true.mp hidle task (mem_of_getElem? htask)
    rw [hactive] at hnot
    cases hnot

/-- An update that succeeds is not visible or not final: the new version is indexed before the
call deletes the keys; an older version is in a flush task when the call starts; the older version
is stored, and there is no Redis. -/
theorem updated_version_hidden_or_doubled : (exec (Node.step (shop true) some) (storedNode true)
        ([.update "orders" "u1" 5 ()] ++ updateAndAdd 0 ++ [.buffer (.flush "orders/u1/2024-01-01")] ++
          uploadTask 0 ++ updateRest)).map (versions true) = some ([true], false, []) ∧
    (exec (Node.step (shop true) some) (Node.boot (shop true) Directory.empty 1 (oneObject "f" [] []))
        ((addOk 0 (order "u1") none ++ [Buffer.Action.flush "orders/u1/2024-01-01"]).map Action.buffer ++
          [.update "orders" "u1" 5 ()] ++ updateAndAdd 1 ++ updateRest ++ uploadTask 0)).map
        (versions true) = some ([true], false, [(some "u1", 5), (some "u1", 0)]) ∧
    (exec (Node.step (shop false) some) (storedNode false)
        ([.update "orders" "u1" 5 ()] ++ updateAndAdd 0 ++ updateRest.take 2)).map (versions false) =
      some ([true], false, [(some "u1", 5), (some "u1", 0)]) := by
  refine ⟨?_, ?_, ?_⟩ <;> decide +kernel

end MinIODB.Service
