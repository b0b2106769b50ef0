import MinIODB.Service.Steps
import MinIODB.Buffer.Pending

/-!
# Where rows can come back from

Copies of an object are in MinIO, in the temporary directory, in the file cache, in
rewritten files, in downloads that have not been saved and in the hands of `DeleteData`
calls. A step never makes a copy with rows that no copy had before, but for the put of a
flush task. Index entries come from uploads only, and rows of the buffer and of tasks from
insertions.
-/
namespace MinIODB.Service
open Buffer Query Wal List Option

section
variable {φ : Type*}

inductive Copy (n : Node φ) (name : String) (rows : List (StoredRow φ)) : Prop where
  | read (h : CopyOf n.store name rows)
  | rewritten (h : n.store.rewrites.lookup name = some rows)
  | downloaded (h : (name, rows) ∈ n.downloads)
  | saving (i : ℕ) (c : DeleteCall φ) (hc : n.deletes[i]? = some c) (h : c.phase = .saving name rows)

def Holding (s : Store φ) (phase : DeletePhase φ) (name : String) (rows : List (StoredRow φ)) : Prop :=
  CopyOf s name rows ∨ s.rewrites.lookup name = some rows ∨ phase = .saving name rows

variable {s s' : Store φ} {name : String} {rows : List (StoredRow φ)}

variable {svc : ServiceConfig} {json : φ → Option φ} {e : StepEnv} {w w' : World φ}

lemma DeleteStep.holding {c c' : DeleteCall φ} (hs : DeleteStep svc json e w c w' c')
    (h : Holding w'.store c'.phase name rows) :
    ∃ rows', rows ⊆ rows' ∧ Holding w.store c.phase name rows' := by
  have hsame (h : Holding w.store c.phase name rows) :
      ∃ rows', rows ⊆ rows' ∧ Holding w.store c.phase name rows' := ⟨rows, fun _ hr => hr, h⟩
  have hkeep : ∀ {s : Store φ} {phase : DeletePhase φ}, Holding s phase name rows →
      (∀ rows, phase ≠ .saving name rows) → (CopyOf s name rows → CopyOf w.store name rows) →
      (s.rewrites.lookup name = some rows → w.store.rewrites.lookup name = some rows) →
      ∃ rows', rows ⊆ rows' ∧ Holding w.store c.phase name rows' := by
    rintro s phase (h | h | h) hphase hcopy hrewrite
    · exact hsame (.inl (hcopy h))
    · exact hsame (.inr (.inl (hrewrite h)))
    · exact absurd h (hphase rows)
  cases hs with
  | reject | standalone | scanFail | noKeys | scan | read | next | done | found | fail | absent
  | vanished | untouched | count | scanOthers | dereferenced | putFail | tombstone =>
    exact hkeep h nofun id id
  | remove next hphase hid htable hnext =>
    rcases hnext with rfl | rfl <;> exact hkeep h nofun id id
  | readDone next hphase hnext | total name' rows' next hphase htemp hnext =>
    rcases hnext with ⟨rfl, -⟩ | rfl <;> exact hkeep h nofun id id
  | fetch name' rows' hphase htemp hobject =>
    rcases h with h | h | h
    · exact hsame (.inl h)
    · exact hsame (.inr (.inl h))
    · cases h
      exact hsame (.inl (.inr (.inr hobject)))
  | save name' rows' hphase =>
    rcases h with h | h | h
    · rcases CopyOf.of_insert_temp h with h | ⟨rfl, rfl⟩
      · exact hsame (.inl h)
      · exact hsame (.inr (.inr hphase))
    · exact hsame (.inr (.inl h))
    · cases h
  | copy name' rows' hphase htemp =>
    rcases h with h | h | h
    · exact hsame (.inl h)
    · rw [lookup_insert_apply] at h
      split at h
      · rename_i heq
        cases h
        subst heq
        exact ⟨rows', fun _ hr => mem_of_mem_filter hr, .inl (.inr (.inl htemp))⟩
      · exact hsame (.inr (.inl h))
    · cases h
  | put name' rows' hphase hrewrite =>
    rcases h with h | h | h
    · rcases CopyOf.of_insert_object h with h | ⟨rfl, rfl⟩
      · exact hsame (.inl h)
      · exact hsame (.inr (.inl hrewrite))
    · exact hsame (.inr (.inl h))
    · cases h
  | removeObject =>
    split at h
    · exact hkeep h nofun CopyOf.of_erase_object id
    · exact hkeep h nofun id id
  | clean =>
    split at h
    · exact hkeep h nofun CopyOf.of_erase_temp id
    · exact hkeep h nofun id id
  | discard =>
    split at h
    · exact hkeep h nofun id lookup_of_erase
    · exact hkeep h nofun id id
  | dereference | unindex =>
    split at h <;> exact hkeep h nofun id id

lemma UpdateStep.copyOf {c c' : UpdateCall φ} (hs : UpdateStep svc json e w c w' c')
    (h : CopyOf w'.store name rows) : CopyOf w.store name rows := by
  cases hs with
  | unindex =>
    split at h <;> exact h
  | _ => exact h

lemma UpdateStep.rewrites_eq {c c' : UpdateCall φ} (hs : UpdateStep svc json e w c w' c') :
    w'.store.rewrites = w.store.rewrites := by
  cases hs with
  | unindex =>
    split <;> rfl
  | _ => rfl

lemma DropStep.copyOf {c c' : DropCall} (hs : DropStep svc e w c w' c')
    (h : CopyOf w'.store name rows) : CopyOf w.store name rows := by
  cases hs with
  | unindex =>
    split at h <;> exact h
  | removeObject => exact CopyOf.of_erase_object h
  | _ => exact h

lemma DropStep.rewrites_eq {c c' : DropCall} (hs : DropStep svc e w c w' c') :
    w'.store.rewrites = w.store.rewrites := by
  cases hs with
  | unindex =>
    split <;> rfl
  | _ => rfl

end

variable {φ : Type*} {svc : ServiceConfig} {json : φ → Option φ} {n n' : Node φ} {act : Action φ}
  {name : String} {rows : List (StoredRow φ)}

lemma Copy.of_holding {i : ℕ} {c : DeleteCall φ} (hc : n.deletes[i]? = some c)
    (h : Holding n.store c.phase name rows) : Copy n name rows := by
  rcases h with h | h | h
  · exact .read h
  · exact .rewritten h
  · exact .saving i c hc h

lemma Copy.of_read (h : Copy n' name rows) (hread : CopyOf n'.store name rows → Copy n name rows)
    (hrewrites : n'.store.rewrites = n.store.rewrites) (hdownloads : n'.downloads ⊆ n.downloads)
    (hdeletes : n'.deletes = n.deletes) : Copy n name rows := by
  cases h with
  | read h => exact hread h
  | rewritten h => exact .rewritten (hrewrites ▸ h)
  | downloaded h => exact .downloaded (hdownloads h)
  | saving i c hc h => exact .saving i c (hdeletes ▸ hc) h

section
variable (hs : NodeStep svc json n act n')
include hs

lemma Copy.cases_step (h : Copy n' name rows) :
    Copy n name rows ∨ (∃ i e rows', act = .deleteStep i e ∧ rows ⊆ rows' ∧ Copy n name rows') ∨
      ∃ t now task, act = .putObject t now ∧ n.buffer.pool.tasks[t]? = some task ∧
        name = objectName task.bufferKey now ∧ rows = task.rows.map stored := by
  cases hs with
  | putObject t now task holder htask =>
    cases h with
    | read h =>
      rcases CopyOf.of_insert_object h with h | ⟨hname, hrows⟩
      · exact .inl (.read h)
      · exact .inr (.inr ⟨t, now, task, rfl, htask, hname, hrows⟩)
    | rewritten h => exact .inl (.rewritten h)
    | downloaded h => exact .inl (.downloaded h)
    | saving i c hc h => exact .inl (.saving i c hc h)
  | rollback t name' ok =>
    cases ok with
    | true => exact .inl (h.of_read (fun h => .read (CopyOf.of_erase_object h)) rfl (fun _ => id) rfl)
    | false => exact .inl (h.of_read (fun h => .read h) rfl (fun _ => id) rfl)
  | download name' rows' hobject =>
    cases h with
    | read h => exact .inl (.read h)
    | rewritten h => exact .inl (.rewritten h)
    | downloaded h =>
      rcases mem_append.mp h with h | h
      · exact .inl (.downloaded h)
      · cases mem_singleton.mp h
        exact .inl (.read (.inr (.inr hobject)))
    | saving i c hc h => exact .inl (.saving i c hc h)
  | save i d hd =>
    refine .inl (h.of_read (fun h => ?_) rfl (fun _ hd => mem_of_mem_eraseIdx hd) rfl)
    rcases CopyOf.of_insert_temp h with h | ⟨rfl, rfl⟩
    · exact .read h
    · exact .downloaded (mem_of_getElem? hd)
  | cacheFile name' rows' htemp =>
    refine .inl (h.of_read (fun h => ?_) rfl (fun _ => id) rfl)
    rcases CopyOf.of_insert_cache h with h | ⟨rfl, rfl⟩
    · exact .read h
    · exact .read (.inr (.inl htemp))
  | expire =>
    exact .inl (h.of_read (fun h => .read (CopyOf.of_erase_cache h)) rfl (fun _ => id) rfl)
  | cleanTemp =>
    exact .inl (h.of_read (fun h => .read (CopyOf.of_erase_temp h)) rfl (fun _ => id) rfl)
  | delete =>
    cases h with
    | read h => exact .inl (.read h)
    | rewritten h => exact .inl (.rewritten h)
    | downloaded h => exact .inl (.downloaded h)
    | saving i c hc h =>
      rcases Transition.getElem?_concat_cases hc with hc | ⟨-, rfl⟩
      · exact .inl (.saving i c hc h)
      · cases h
  | deleteStep i e c w c' hcall hstep =>
    have hholding : Holding w.store c'.phase name rows →
        ∃ i' e' rows', Action.deleteStep i e = .deleteStep (φ := φ) i' e' ∧ rows ⊆ rows' ∧
          Copy n name rows' := by
      intro h
      obtain ⟨rows', hsub, h⟩ := hstep.holding h
      exact ⟨i, e, rows', rfl, hsub, Copy.of_holding hcall h⟩
    cases h with
    | read h => exact .inr (.inl (hholding (.inl h)))
    | rewritten h => exact .inr (.inl (hholding (.inr (.inl h))))
    | downloaded h => exact .inl (.downloaded h)
    | saving j d hd h =>
      rcases Transition.getElem?_set_cases hd with ⟨-, rfl⟩ | ⟨-, hd⟩
      · exact .inr (.inl (hholding (.inr (.inr h))))
      · exact .inl (.saving j d hd h)
  | updateStep i e c w c' hcall hstep | dropStep i e c w c' hcall hstep =>
    exact .inl (h.of_read (fun h => .read (hstep.copyOf h)) hstep.rewrites_eq (fun _ => id) rfl)
  | restart =>
    cases h with
    | read h => exact .inl (.read h)
    | rewritten h => exact .inl (.rewritten h)
    | downloaded h => cases h
    | saving i c hc h =>
      obtain ⟨c₀, -, rfl⟩ := map_eq_some_iff.mp ((getElem?_map ..).symm.trans hc)
      cases h
  | buffer | indexObject | update | drop => exact .inl (h.of_read (fun h => .read h) rfl (fun _ => id) rfl)

lemma Copy.of_step (h : Copy n' name rows) :
    (∃ rows', rows ⊆ rows' ∧ Copy n name rows') ∨
      ∃ t now task, act = .putObject t now ∧ n.buffer.pool.tasks[t]? = some task ∧
        name = objectName task.bufferKey now ∧ rows = task.rows.map stored := by
  rcases Copy.cases_step hs h with hold | ⟨-, -, rows', -, hsub, hold⟩ | hput
  · exact .inl ⟨rows, fun _ hr => hr, hold⟩
  · exact .inl ⟨rows', hsub, hold⟩
  · exact .inr hput

lemma index_of_step {p : String × String} (hp : p ∈ n'.store.index) :
    p ∈ n.store.index ∨
      ∃ t name task tableName id day holder, act = .indexObject t name ∧ (t, name) ∈ n.uploads ∧
        n.buffer.pool.tasks[t]? = some task ∧ task.status = .running holder ∧
        splitSlash task.bufferKey = [tableName, id, day] ∧ p = (indexKey tableName id day, name) := by
  cases hs with
  | indexObject t name task tableName id day b hupload hredis htask hkey hb =>
    rcases mem_cons.mp hp with rfl | hp
    · cases hb with
      | attemptOk _ task' p hpool =>
        obtain ⟨holder, htask', hstatus, -⟩ := Pool.attemptOk_eq hpool
        rw [htask] at htask'
        cases htask'
        exact .inr ⟨t, name, task, tableName, id, day, holder, rfl, hupload, htask, hstatus, hkey, rfl⟩
    · exact .inl hp
  | rollback t name ok =>
    cases ok <;> exact .inl hp
  | deleteStep i e c w c' hcall hstep =>
    cases hstep with
    | dereference =>
      split at hp
      · exact .inl (Store.mem_srem.mp hp).1
      · exact .inl hp
    | unindex =>
      split at hp
      · exact .inl (Store.mem_del.mp hp).1
      · exact .inl hp
    | removeObject | clean | discard =>
      split at hp <;> exact .inl hp
    | _ => exact .inl hp
  | updateStep i e c w c' hcall hstep | dropStep i e c w c' hcall hstep =>
    cases hstep with
    | unindex =>
      split at hp
      · exact .inl (Store.mem_del.mp hp).1
      · exact .inl hp
    | _ => exact .inl hp
  | _ => exact .inl hp

end

def inserts (n : Node φ) : Action φ → Option (DataRow φ)
  | .buffer (.addInsert row) => some row
  | .updateStep i _ => n.updates[i]?.bind (fun c => if c.phase = .inserting then some c.row else none)
  | _ => none

lemma buffer_of_step (hs : NodeStep svc json n act n') :
    n'.buffer = n.buffer ∨ ∃ a, Step svc.buffer json n.buffer a n'.buffer ∧
      (∀ row, a = .addInsert row → inserts n act = some row) ∧
      ∀ name, a = .restart name → act = .restart name := by
  have htombstone : ∀ {t id : String} {env : StepEnv} {b : State φ},
      Step svc.buffer json n.buffer (tombstoneAction t id env) b →
      ∃ a, Step svc.buffer json n.buffer a b ∧ (∀ row, a = .addInsert row → inserts n act = some row) ∧
        ∀ name, a = .restart name → act = .restart name := by
    intro t id env b hb
    refine ⟨_, hb, ?_⟩
    unfold tombstoneAction
    split <;> exact ⟨nofun, nofun⟩
  cases hs with
  | buffer a b hown hb =>
    refine .inr ⟨a, hb, ?_, ?_⟩
    · rintro row rfl
      rfl
    · rintro name rfl
      cases hown
  | indexObject t name task tableName id day b hupload hredis htask hkey hb
  | rollback t name ok b hupload hb => exact .inr ⟨_, hb, nofun, nofun⟩
  | deleteStep i env c w c' hcall hd =>
    cases hd with
    | remove => exact .inr ⟨_, .remove _ _ _, nofun, nofun⟩
    | tombstone b hphase hb => exact .inr (htombstone hb)
    | removeObject | dereference | clean | discard | unindex =>
      split <;> exact .inl rfl
    | _ => exact .inl rfl
  | updateStep i env c w c' hcall hu =>
    cases hu with
    | remove => exact .inr ⟨_, .remove _ _ _, nofun, nofun⟩
    | tombstone b hphase hb => exact .inr (htombstone hb)
    | insert hphase =>
      refine .inr ⟨_, .addInsert _ c.row, ?_, nofun⟩
      rintro row ⟨⟩
      simp [inserts, hcall, hphase]
    | unindex =>
      split <;> exact .inl rfl
    | _ => exact .inl rfl
  | dropStep i env c w c' hcall hd =>
    cases hd with
    | clear => exact .inr ⟨_, .clearTable _ _, nofun, nofun⟩
    | unindex =>
      split <;> exact .inl rfl
    | _ => exact .inl rfl
  | restart name => exact .inr ⟨_, .restart _ name, nofun, by rintro _ ⟨⟩; rfl⟩
  | putObject | download | save | cacheFile | expire | cleanTemp | delete | update | drop =>
    exact .inl rfl

lemma pending_of_step {table : String} {e : Entry φ} (hinv : n.buffer.pool.HoldInv)
    (hs : NodeStep svc json n act n') (hno : ∀ name, act ≠ .restart name)
    (h : Pending n'.buffer table e) :
    Pending n.buffer table e ∨ ∃ row, inserts n act = some row ∧ e = ⟨n.buffer.adds.length, row⟩ ∧
      inTable table (bufferKey svc.buffer row) := by
  rcases buffer_of_step hs with heq | ⟨a, hb, hins, hrestart⟩
  · exact .inl (heq ▸ h)
  · rcases Pending.of_step hinv hb (fun name ha => hno name (hrestart name ha)) h with h | ⟨row, ha, he, hk⟩
    · exact .inl h
    · exact .inr ⟨row, hins row ha, he, hk⟩

lemma continues_of_nodeStep (hinv : n.buffer.pool.HoldInv) (hs : NodeStep svc json n act n')
    (hno : ∀ name, act ≠ .restart name) : n.buffer.pool.Continues n'.buffer.pool := by
  rcases buffer_of_step hs with heq | ⟨a, hb, -, hrestart⟩
  · rw [heq]
    exact (Pool.ActiveSub.of_tasks rfl).continues rfl
  · exact continues_of_step hinv hb (fun name ha => hno name (hrestart name ha))

lemma uploads_of_step {u : ℕ × String} (hs : NodeStep svc json n act n') (hu : u ∈ n'.uploads) :
    u ∈ n.uploads ∨ ∃ t now task, act = .putObject t now ∧ n.buffer.pool.tasks[t]? = some task ∧
      task.status.active ∧ u = (t, objectName task.bufferKey now) := by
  cases hs with
  | putObject t now task holder htask hstatus =>
    rcases mem_cons.mp hu with rfl | hu
    · exact .inr ⟨t, now, task, rfl, htask, by rw [hstatus]; rfl, rfl⟩
    · exact .inl hu
  | indexObject | rollback => exact .inl (mem_of_mem_erase hu)
  | restart => cases hu
  | _ => exact .inl hu

structure NodeInv (n : Node φ) : Prop where
  hold : n.buffer.pool.HoldInv
  uploads : ∀ u ∈ n.uploads, u.1 < n.buffer.pool.tasks.length

lemma NodeInv.step (h : NodeInv n) (hs : NodeStep svc json n act n') : NodeInv n' where
  hold := by
    rcases buffer_of_step hs with heq | ⟨a, hb, -, -⟩
    · exact heq ▸ h.hold
    · exact holdInv_step h.hold hb
  uploads := by
    intro u hu
    by_cases hno : ∀ name, act ≠ .restart name
    · have hlength := (continues_of_nodeStep h.hold hs hno).length
      rcases uploads_of_step hs hu with hu | ⟨t, now, task, -, htask, -, rfl⟩
      · exact (h.uploads u hu).trans_le hlength
      · exact (List.getElem?_eq_some_iff.mp htask).1.trans_le hlength
    · push Not at hno
      obtain ⟨name, rfl⟩ := hno
      cases hs
      cases hu

lemma nodeInv_boot (svc : ServiceConfig) (dir : Directory (LogRecord (Payload (Entry φ)))) (name : ℕ)
    (store : Store φ) : NodeInv (Node.boot svc dir name store) where
  hold := Pool.holdInv_init svc.buffer
  uploads := nofun

end MinIODB.Service
