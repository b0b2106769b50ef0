import MinIODB.Service.Copies

/-!
# Rows that stay away

For some kind of rows of a table: once none of them is in the buffer, in a task that may
still be uploaded or in an upload in progress, none comes back. Files without such rows stay
without them, and no file with such rows gets a new index entry of the table.
-/
namespace MinIODB.Service
open Buffer Query Wal

variable {φ : Type*} (svc : ServiceConfig) (bad : StoredRow φ → Prop) (t : String)

def Clean (n : Node φ) (name : String) : Prop := ∀ rows, Copy n name rows → ∀ r ∈ rows, ¬ bad r

structure Fresh (n : Node φ) (name : String) : Prop where
  copies : ∀ rows, ¬ Copy n name rows
  index : ∀ p ∈ n.store.index, p.2 ≠ name
  uploads : ∀ u ∈ n.uploads, u.2 ≠ name

structure NothingPending (n : Node φ) : Prop where
  rows : ∀ e, Pending n.buffer t e → ¬ bad (stored e)
  uploads : ∀ u ∈ n.uploads, ∀ task, n.buffer.pool.tasks[u.1]? = some task →
    task.status.active = true → inTable t task.bufferKey = true → Clean bad n u.2

structure Quiet (n : Node φ) (act : Action φ) : Prop where
  goesOn : ∀ name, act ≠ .restart name
  inserted : ∀ row, inserts n act = some row → inTable t (bufferKey svc.buffer row) = true →
    ¬ bad (stored ⟨n.buffer.adds.length, row⟩)
  fresh : ∀ tid now task, act = .putObject tid now → n.buffer.pool.tasks[tid]? = some task →
    Fresh n (objectName task.bufferKey now) ∧
      (inTable t (objectName task.bufferKey now) = true → inTable t task.bufferKey = true)
  indexed : ∀ tid name task tableName id day, act = .indexObject tid name →
    n.buffer.pool.tasks[tid]? = some task → splitSlash task.bufferKey = [tableName, id, day] →
    Glob.isMatch (tablePattern t) (indexKey tableName id day) = true → inTable t task.bufferKey = true

variable {svc bad t} {json : φ → Option φ} {n n' : Node φ} {act : Action φ} {name : String}

lemma NothingPending.mono {bad' : StoredRow φ → Prop} (h : NothingPending bad t n)
    (hsub : ∀ r, bad' r → bad r) : NothingPending bad' t n where
  rows := fun e he hbad => h.rows e he (hsub _ hbad)
  uploads := fun u hu task htask hactive htable rows hcopy r hr hbad =>
    h.uploads u hu task htask hactive htable rows hcopy r hr (hsub r hbad)

lemma Clean.step (h : Clean bad n name) (hs : NodeStep svc json n act n')
    (hput : ∀ tid now task, act = .putObject tid now → n.buffer.pool.tasks[tid]? = some task →
      name ≠ objectName task.bufferKey now) : Clean bad n' name := by
  intro rows hcopy r hr
  rcases Copy.of_step hs hcopy with ⟨rows', hsub, hcopy'⟩ | ⟨tid, now, task, hact, htask, hname, -⟩
  · exact h rows' hcopy' r (hsub hr)
  · exact absurd hname (hput tid now task hact htask)

lemma NothingPending.clean_put (h : NothingPending bad t n) {tid now : ℕ} {task : FlushTask (Entry φ)}
    (hs : NodeStep svc json n (.putObject tid now) n') (htask : n.buffer.pool.tasks[tid]? = some task)
    (hactive : task.status.active) (htable : inTable t task.bufferKey)
    (hfresh : Fresh n (objectName task.bufferKey now)) :
    Clean bad n' (objectName task.bufferKey now) := by
  intro rows hcopy r hr
  rcases Copy.of_step hs hcopy with ⟨rows', -, hcopy'⟩ | ⟨tid', now', task', hact, htask', -, rfl⟩
  · exact absurd hcopy' (hfresh.copies rows')
  · cases hact
    rw [htask] at htask'
    cases htask'
    obtain ⟨e, he, rfl⟩ := List.mem_map.mp hr
    exact h.rows e (.inr ⟨tid, task, htask, hactive, htable, he⟩)

lemma NothingPending.step (h : NothingPending bad t n) (hinv : NodeInv n)
    (hs : NodeStep svc json n act n') (hq : Quiet svc bad t n act) : NothingPending bad t n' where
  rows := by
    intro e he
    rcases pending_of_step hinv.hold hs hq.goesOn he with he | ⟨row, hrow, rfl, htable⟩
    · exact h.rows e he
    · exact hq.inserted row hrow htable
  uploads := by
    intro u hu task' htask' hactive' htable'
    have hcontinues := continues_of_nodeStep hinv.hold hs hq.goesOn
    rcases uploads_of_step hs hu with hold | ⟨tid, now, task, rfl, htask, hactive, rfl⟩
    · obtain ⟨task, htask, hactive, hkey, -⟩ := hcontinues.old u.1 task' (hinv.uploads u hold) htask' hactive'
      refine (h.uploads u hold task htask hactive (hkey ▸ htable')).step hs ?_
      intro tid now other hact hother
      exact (hq.fresh tid now other hact hother).1.uploads u hold
    · obtain ⟨other, hother, -, hkey, -⟩ :=
        hcontinues.old tid task' (List.getElem?_eq_some_iff.mp htask).1 htask' hactive'
      rw [htask] at hother
      cases hother
      exact h.clean_put hs htask hactive (hkey ▸ htable') (hq.fresh tid now task rfl htask).1

lemma NothingPending.listed_dirty (h : NothingPending bad t n) (hs : NodeStep svc json n act n')
    (hq : Quiet svc bad t n act) {p : String × String} (hp : p ∈ n'.store.index)
    (hlisted : Glob.isMatch (tablePattern t) p.1) (hdirty : ¬ Clean bad n' p.2) :
    p ∈ n.store.index ∧ ¬ Clean bad n p.2 := by
  rcases index_of_step hs hp with hp | ⟨tid, name, task, T, id, day, holder, rfl, hup, htask, hrun, hkey, rfl⟩
  · refine ⟨hp, fun hclean => hdirty (hclean.step hs ?_)⟩
    intro tid now task hact htask
    exact (hq.fresh tid now task hact htask).1.index p hp
  · have hactive : task.status.active := by
      rw [hrun]
      rfl
    have htable := hq.indexed tid name task T id day rfl htask hkey hlisted
    exact absurd ((h.uploads _ hup task htask hactive htable).step hs nofun) hdirty

lemma NothingPending.clean_table (h : NothingPending bad t n) (hs : NodeStep svc json n act n')
    (hq : Quiet svc bad t n act) (hclean : ∀ name, inTable t name → Clean bad n name)
    (hname : inTable t name) : Clean bad n' name := by
  by_cases hput : ∃ tid now task, act = .putObject tid now ∧ n.buffer.pool.tasks[tid]? = some task ∧
      name = objectName task.bufferKey now
  · obtain ⟨tid, now, task, rfl, htask, rfl⟩ := hput
    obtain ⟨hfresh, htable⟩ := hq.fresh tid now task rfl htask
    have hactive : task.status.active := by
      cases hs with
      | putObject _ _ task' holder htask' hstatus =>
        rw [htask] at htask'
        cases htask'
        rw [hstatus]
        rfl
    exact h.clean_put hs htask hactive (htable hname) hfresh
  · refine (hclean name hname).step hs (fun tid now task hact htask heq => ?_)
    exact hput ⟨tid, now, task, hact, htask, heq⟩

end MinIODB.Service
