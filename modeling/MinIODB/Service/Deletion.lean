import MinIODB.Service.Clean
import MinIODB.Service.Frame

/-!
# When deleting a record is complete

A `DeleteData` call takes the rows of its id out of the buffer, rewrites the files that the
keys of the record name, and deletes the keys. A file that only these keys name is out of
sight once they are deleted, whatever it holds. A file that another key names as well has to
lose the rows of the id in all its copies, which it does if no other copy than the object
and its download is around while the call works on it.
-/
namespace MinIODB.Service
open Buffer Query Wal Transition List Store

section
variable {φ : Type*} (t id : String) (i : ℕ)

def HasId (r : StoredRow φ) : Prop := r.id = some id

def Listed (k : String) : Prop := Glob.isMatch (tablePattern t) k = true

def Exposed (n : Node φ) (name : String) : Prop :=
  ¬ Clean (HasId id) n name ∧ ∃ k, (k, name) ∈ n.store.index ∧ Listed t k ∧ ¬ Matched t id k

structure Alone (n : Node φ) (name : String) : Prop where
  cache : n.store.fileCache.lookup name = none
  downloads : ∀ d ∈ n.downloads, d.1 ≠ name
  saving : ∀ (j : ℕ) (c : DeleteCall φ) (rows : List (StoredRow φ)), j ≠ i →
    n.deletes[j]? = some c → c.phase ≠ .saving name rows

structure Sole (n : Node φ) (name : String) : Prop where
  alone : Alone i n name
  rewrites : n.store.rewrites.lookup name = none
  temp : n.store.tempDir.lookup name = none ∨
    n.store.tempDir.lookup name = n.store.objects.lookup name

structure SameFiles (name : String) (n n' : Node φ) : Prop where
  objects : n'.store.objects.lookup name = n.store.objects.lookup name
  temp : n'.store.tempDir.lookup name = n.store.tempDir.lookup name
  rewrites : n'.store.rewrites.lookup name = n.store.rewrites.lookup name
  alone : Alone i n name → Alone i n' name

def FileWork (n : Node φ) : DeletePhase φ → Prop
  | .downloading name => n.store.rewrites.lookup name = none ∧
      (n.store.tempDir.lookup name = none ∨
        n.store.tempDir.lookup name = n.store.objects.lookup name)
  | .saving name rows => n.store.rewrites.lookup name = none ∧
      n.store.tempDir.lookup name = none ∧ n.store.objects.lookup name = some rows
  | .counting name | .totalling name | .copying name => n.store.rewrites.lookup name = none ∧
      n.store.tempDir.lookup name = n.store.objects.lookup name
  | .dereferencing name keys =>
    ∀ k, (k, name) ∈ n.store.index → Listed t k → ¬ Matched t id k → k ∈ keys
  | .putting name =>
    ∃ rows, n.store.rewrites.lookup name = some rows ∧ ∀ r ∈ rows, ¬ HasId id r
  | .cleaning name =>
    (∀ rows, n.store.rewrites.lookup name = some rows → ∀ r ∈ rows, ¬ HasId id r) ∧
      ∀ rows, n.store.objects.lookup name = some rows → ∀ r ∈ rows, ¬ HasId id r
  | .discarding _ => False
  | _ => True

variable {t id i} {n n' : Node φ} {name : String}

lemma Alone.clean {c : DeleteCall φ} (h : Alone i n name) (hc : n.deletes[i]? = some c)
    (hphase : ∀ rows, c.phase ≠ .saving name rows)
    (htemp : ∀ rows, n.store.tempDir.lookup name = some rows → ∀ r ∈ rows, ¬ HasId id r)
    (hobject : ∀ rows, n.store.objects.lookup name = some rows → ∀ r ∈ rows, ¬ HasId id r)
    (hrewrite : ∀ rows, n.store.rewrites.lookup name = some rows → ∀ r ∈ rows, ¬ HasId id r) :
    Clean (HasId id) n name := by
  intro rows hcopy
  cases hcopy with
  | read hread =>
    rcases hread with hread | hread | hread
    · rw [h.cache] at hread
      cases hread
    · exact htemp rows hread
    · exact hobject rows hread
  | rewritten hread => exact hrewrite rows hread
  | downloaded hmem => exact absurd rfl (h.downloads _ hmem)
  | saving j d hd hsaving =>
    by_cases hj : j = i
    · subst hj
      rw [hc] at hd
      cases hd
      exact absurd hsaving (hphase rows)
    · exact absurd hsaving (h.saving j d rows hj hd)

lemma Alone.clean_of_same {c : DeleteCall φ} (h : Alone i n name) (hc : n.deletes[i]? = some c)
    (hphase : ∀ rows, c.phase ≠ .saving name rows) (hrewrites : n.store.rewrites.lookup name = none)
    (hsame : n.store.tempDir.lookup name = n.store.objects.lookup name)
    (htemp : ∀ rows, n.store.tempDir.lookup name = some rows → ∀ r ∈ rows, ¬ HasId id r) :
    Clean (HasId id) n name := by
  refine h.clean hc hphase htemp (hsame ▸ htemp) ?_
  intro rows hrows
  rw [hrewrites] at hrows
  cases hrows

lemma SameFiles.fileWork {phase : DeletePhase φ} (h : SameFiles i name n n')
    (hfile : phase.file = some name)
    (hindex : ∀ k, (k, name) ∈ n'.store.index → Listed t k → (k, name) ∈ n.store.index)
    (hwork : FileWork t id n phase) : FileWork t id n' phase := by
  cases phase with
  | downloading | saving | counting | totalling | copying | putting | cleaning =>
    cases hfile
    simp only [FileWork, h.objects, h.temp, h.rewrites]
    exact hwork
  | dereferencing =>
    cases hfile
    exact fun k hk hlisted hunmatched => hwork k (hindex k hk hlisted) hlisted hunmatched
  | discarding => exact hwork
  | _ => trivial

end

section
variable {φ : Type*} (svc : ServiceConfig) (json : φ → Option φ) (i : ℕ)

structure Settled (t id : String) (n : Node φ) : Prop where
  pending : NothingPending (HasId id) t n
  listed : svc.redisPool = true → ∀ p ∈ n.store.index, Listed t p.1 → Clean (HasId id) n p.2
  standalone : svc.redisPool = false → ∀ name, inTable t name = true → Clean (HasId id) n name

structure Removed (t id : String) (n : Node φ) : Prop where
  plain : PlainName t ∧ PlainName id
  pending : NothingPending (HasId id) t n
  standalone : svc.redisPool = false → ∀ name, inTable t name = true → Clean (HasId id) n name

structure Searching (t id : String) (n : Node φ) (keys : List String) (rest : String → Prop) : Prop where
  redis : svc.redisPool = true
  plain : PlainName t ∧ PlainName id
  pending : NothingPending (HasId id) t n
  found : ∀ p ∈ n.store.index, Listed t p.1 → Matched t id p.1 → ¬ Clean (HasId id) n p.2 → p.1 ∈ keys
  exposed : ∀ name, Exposed t id n name → rest name

structure Working (n : Node φ) (c : DeleteCall φ) (name : String) : Prop where
  search : Searching svc c.table c.id n c.idIndexKeys (fun name' => name' ∈ c.objects ∨ name' = name)
  work : Exposed c.table c.id n name → Alone i n name ∧ FileWork c.table c.id n c.phase

def Progress (n : Node φ) (c : DeleteCall φ) : Prop :=
  match c.phase with
  | .started | .returned false | .lost => True
  | .tombstone | .scanning => Removed svc c.table c.id n
  | .reading keys => Searching svc c.table c.id n c.idIndexKeys (fun name =>
      name ∈ c.objects ∨ ∃ k ∈ keys, (k, name) ∈ n.store.index)
  | .rewriting => Searching svc c.table c.id n c.idIndexKeys (fun name => name ∈ c.objects)
  | .unindexing => Searching svc c.table c.id n c.idIndexKeys (fun _ => False)
  | .returned true => Settled svc c.table c.id n
  | .downloading name | .saving name _ | .counting name | .totalling name | .removing name
  | .scanningOthers name | .dereferencing name _ | .copying name | .putting name | .cleaning name
  | .discarding name => Working svc i n c name

def OwnOk (n : Node φ) (c : DeleteCall φ) (e : StepEnv) : Prop :=
  match c.phase with
  | .started =>
    (∀ (j : ℕ) (task : FlushTask (Entry φ)), n.buffer.pool.tasks[j]? = some task →
      task.status.active = true → inTable c.table task.bufferKey = true →
      (∀ e ∈ task.rows, e.row.id ≠ c.id) ∧
        ∀ name, (j, name) ∈ n.uploads → Clean (HasId c.id) n name) ∧
    (svc.redisPool = false → ∀ name, inTable c.table name = true → Clean (HasId c.id) n name)
  | .scanning =>
    ∀ p ∈ n.store.index, Listed c.table p.1 → ¬ Clean (HasId c.id) n p.2 →
      ∃ k, (k, p.2) ∈ n.store.index ∧ Matched c.table c.id k
  | .reading _ | .unindexing => e.ok = true
  | .rewriting => ∀ name, e.next = some name → Exposed c.table c.id n name → Sole i n name
  | phase => ∀ name, phase.file = some name → Exposed c.table c.id n name → e.ok = true

def OthersOk (n n' : Node φ) (c : DeleteCall φ) : Prop :=
  match c.phase with
  | .reading keys => ∀ k ∈ keys, ∀ name, Exposed c.table c.id n name →
      (k, name) ∈ n.store.index → (k, name) ∈ n'.store.index
  | phase => ∀ name, phase.file = some name → Exposed c.table c.id n name → SameFiles i name n n'

def DeletePhase.watched : DeletePhase φ → Bool
  | .started | .returned false | .lost => false
  | _ => true

/-- No step disturbs the given `DeleteData` call. -/
structure Undisturbed (n : Node φ) (act : Action φ) : Prop where
  quiet : ∀ c, n.deletes[i]? = some c → c.phase.watched = true → Quiet svc (HasId c.id) c.table n act
  own : ∀ c e, n.deletes[i]? = some c → act = .deleteStep i e → OwnOk svc i n c e
  others : ∀ c n', n.deletes[i]? = some c → (∀ e, act ≠ .deleteStep i e) →
    n.step svc json act = some n' → OthersOk i n n' c

variable {svc json i} {n n' : Node φ} {act : Action φ} {t id : String}

lemma Exposed.of_step {name : String} (h : Exposed t id n' name)
    (hpending : NothingPending (HasId id) t n) (hs : NodeStep svc json n act n')
    (hq : Quiet svc (HasId id) t n act) : Exposed t id n name := by
  obtain ⟨hdirty, k, hk, hlisted, hunmatched⟩ := h
  obtain ⟨hk, hdirty⟩ := hpending.listed_dirty hs hq hk hlisted hdirty
  exact ⟨hdirty, k, hk, hlisted, hunmatched⟩

lemma Settled.step (h : Settled svc t id n) (hinv : NodeInv n) (hs : NodeStep svc json n act n')
    (hq : Quiet svc (HasId id) t n act) : Settled svc t id n' where
  pending := h.pending.step hinv hs hq
  listed := by
    intro hredis p hp hlisted
    by_contra hdirty
    obtain ⟨hp, hdirty⟩ := h.pending.listed_dirty hs hq hp hlisted hdirty
    exact hdirty (h.listed hredis p hp hlisted)
  standalone := fun hredis _ hname => h.pending.clean_table hs hq (h.standalone hredis) hname

lemma Removed.step (h : Removed svc t id n) (hinv : NodeInv n) (hs : NodeStep svc json n act n')
    (hq : Quiet svc (HasId id) t n act) : Removed svc t id n' where
  plain := h.plain
  pending := h.pending.step hinv hs hq
  standalone := fun hredis _ hname => h.pending.clean_table hs hq (h.standalone hredis) hname

lemma Searching.step {keys : List String} {rest rest' : String → Prop}
    (h : Searching svc t id n keys rest) (hinv : NodeInv n) (hs : NodeStep svc json n act n')
    (hq : Quiet svc (HasId id) t n act)
    (hrest : ∀ name, Exposed t id n name → Exposed t id n' name → rest name → rest' name) :
    Searching svc t id n' keys rest' where
  redis := h.redis
  plain := h.plain
  pending := h.pending.step hinv hs hq
  found := by
    intro p hp hlisted hmatched hdirty
    obtain ⟨hp, hdirty⟩ := h.pending.listed_dirty hs hq hp hlisted hdirty
    exact h.found p hp hlisted hmatched hdirty
  exposed := by
    intro name hexposed
    have hbefore := hexposed.of_step h.pending hs hq
    exact hrest name hbefore hexposed (h.exposed name hbefore)

variable {c : DeleteCall φ}

lemma Working.others {name : String} (h : Working svc i n c name)
    (hinv : NodeInv n) (hs : NodeStep svc json n act n') (hq : Quiet svc (HasId c.id) c.table n act)
    (hfile : c.phase.file = some name)
    (hsame : Exposed c.table c.id n name → SameFiles i name n n') : Working svc i n' c name where
  search := h.search.step hinv hs hq (fun _ _ _ hrest => hrest)
  work := by
    intro hexposed
    have hbefore := hexposed.of_step h.search.pending hs hq
    obtain ⟨halone, hwork⟩ := h.work hbefore
    refine ⟨(hsame hbefore).alone halone, (hsame hbefore).fileWork hfile (fun k hk hlisted => ?_) hwork⟩
    exact (h.search.pending.listed_dirty hs hq hk hlisted hexposed.1).1

lemma Progress.others (h : Progress svc i n c) (hinv : NodeInv n)
    (hs : NodeStep svc json n act n')
    (hq : c.phase.watched → Quiet svc (HasId c.id) c.table n act)
    (hothers : OthersOk i n n' c) : Progress svc i n' c := by
  unfold Progress OthersOk at *
  cases hphase : c.phase with
  | started | lost => trivial
  | returned success =>
    cases success with
    | false => trivial
    | true =>
      rw [hphase] at h hq
      exact h.step hinv hs (hq rfl)
  | tombstone | scanning =>
    rw [hphase] at h hq
    exact h.step hinv hs (hq rfl)
  | reading =>
    rw [hphase] at h hq hothers
    refine h.step hinv hs (hq rfl) (fun _ hexposed _ hrest => hrest.imp_right ?_)
    rintro ⟨k, hk, hmem⟩
    exact ⟨k, hk, hothers k hk _ hexposed hmem⟩
  | rewriting | unindexing =>
    rw [hphase] at h hq
    exact h.step hinv hs (hq rfl) (fun _ _ _ hrest => hrest)
  | downloading name | saving name | counting name | totalling name | removing name
  | scanningOthers name | dereferencing name | copying name | putting name | cleaning name
  | discarding name =>
    rw [hphase] at h hq hothers
    exact Working.others h hinv hs (hq rfl) (by rw [hphase]; rfl) (hothers name rfl)

lemma quiet_deleteStep (bad : StoredRow φ → Prop) (e : StepEnv) :
    Quiet svc bad t n (.deleteStep i e) :=
  ⟨nofun, nofun, nofun, nofun⟩

lemma DeleteStep.fileCache_eq {e : StepEnv} {w w' : World φ} {c' : DeleteCall φ}
    (hd : DeleteStep svc json e w c w' c') : w'.store.fileCache = w.store.fileCache := by
  cases hd with
  | removeObject | dereference | clean | discard | unindex =>
    split <;> rfl
  | _ => rfl

section
variable {e : StepEnv} {w : World φ} {c c' : DeleteCall φ} {name : String}

lemma Alone.own (h : Alone i n name) (hd : DeleteStep svc json e n.toWorld c w c') :
    Alone i { n with toWorld := w, deletes := n.deletes.set i c' } name where
  cache := (congrArg (fun files : Files φ => files.lookup name) hd.fileCache_eq).trans h.cache
  downloads := h.downloads
  saving := by
    intro j d rows hj hd'
    rw [getElem?_set_ne (Ne.symm hj)] at hd'
    exact h.saving j d rows hj hd'

variable {phase : DeletePhase φ}

lemma Progress.working (h : Progress svc i n c) (hphase : c.phase = phase)
    (hfile : phase.file = some name) : Working svc i n c name := by
  rw [Progress, hphase] at h
  cases phase <;> cases hfile <;> exact h

lemma Progress.done (h : Progress svc i n c) (hinv : NodeInv n)
    (hc : n.deletes[i]? = some c) (hd : DeleteStep svc json e n.toWorld c w c')
    (hphase : c.phase = phase) (hfile : phase.file = some name)
    (hclean : Exposed c.table c.id n name → Alone i n name → ¬ FileWork c.table c.id n phase) :
    Searching svc c.table c.id { n with toWorld := w, deletes := n.deletes.set i c' } c.idIndexKeys
      (fun name' => name' ∈ c.objects) := by
  replace h := h.working hphase hfile
  subst hphase
  refine h.search.step hinv (.deleteStep n i e c w c' hc hd) (quiet_deleteStep _ e) ?_
  intro name' hexposed _ hrest
  refine hrest.resolve_right ?_
  rintro rfl
  obtain ⟨halone, hwork⟩ := h.work hexposed
  exact hclean hexposed halone hwork

lemma Progress.next (h : Progress svc i n c) (hinv : NodeInv n)
    (hc : n.deletes[i]? = some c) (hd : DeleteStep svc json e n.toWorld c w c')
    (hphase : c.phase = phase) (hfile : phase.file = some name)
    (hcall : (c'.table, c'.id, c'.idIndexKeys, c'.objects) = (c.table, c.id, c.idIndexKeys, c.objects))
    (hwork : Exposed c.table c.id n name →
      Exposed c.table c.id { n with toWorld := w, deletes := n.deletes.set i c' } name →
      Alone i n name → FileWork c.table c.id n phase →
      FileWork c.table c.id { n with toWorld := w, deletes := n.deletes.set i c' } c'.phase) :
    Working svc i { n with toWorld := w, deletes := n.deletes.set i c' } c' name := by
  replace h := h.working hphase hfile
  subst hphase
  simp only [Prod.mk.injEq] at hcall
  obtain ⟨htable, hid, hkeys, hobjects⟩ := hcall
  have hs := NodeStep.deleteStep n i e c w c' hc hd
  constructor
  · rw [htable, hid, hkeys, hobjects]
    exact h.search.step hinv hs (quiet_deleteStep _ e) (fun _ _ _ hrest => hrest)
  · rw [htable, hid]
    intro hexposed
    have hbefore := hexposed.of_step h.search.pending hs (quiet_deleteStep _ e)
    obtain ⟨halone, hold⟩ := h.work hbefore
    exact ⟨halone.own hd, hwork hbefore hexposed halone hold⟩

lemma nothingPending_of_remove (hs : NodeStep svc json n act n')
    (hbuffer : n'.buffer = n.buffer.remove svc.buffer t id) (huploads : n'.uploads = n.uploads)
    (hput : ∀ tid now, act ≠ .putObject tid now)
    (hidle : ∀ (j : ℕ) (task : FlushTask (Entry φ)), n.buffer.pool.tasks[j]? = some task →
      task.status.active → inTable t task.bufferKey →
      (∀ e ∈ task.rows, e.row.id ≠ id) ∧ ∀ name, (j, name) ∈ n.uploads → Clean (HasId id) n name) :
    NothingPending (HasId id) t n' := by
  have hpool : n'.buffer.pool = n.buffer.pool := by
    rw [hbuffer]
    unfold State.remove
    split <;> rfl
  constructor
  · rintro entry (⟨k, hk, hentry⟩ | ⟨j, task, htask, hactive, htable, hentry⟩)
    · simp only [hbuffer, State.remove_mem, Mem.get_remove, hk, if_true, mem_filter] at hentry
      simpa [HasId, stored] using hentry.2
    · rw [hpool] at htask
      have hne := (hidle j task htask hactive htable).1 entry hentry
      simpa [HasId, stored] using hne
  · intro u hu task htask hactive htable
    rw [hpool] at htask
    rw [huploads] at hu
    exact ((hidle u.1 task htask hactive htable).2 u.2 hu).step hs
      (fun tid now _ hact _ => absurd hact (hput tid now))

lemma removed_of_remove (hplain : PlainName c.table ∧ PlainName c.id)
    (hs : NodeStep svc json n (.deleteStep i e)
      { n with
        buffer := n.buffer.remove svc.buffer c.table c.id
        deletes := n.deletes.set i c' })
    (hphase : c.phase = .started) (hok : OwnOk svc i n c e) :
    Removed svc c.table c.id
      { n with
        buffer := n.buffer.remove svc.buffer c.table c.id
        deletes := n.deletes.set i c' } := by
  unfold OwnOk at hok
  rw [hphase] at hok
  refine ⟨hplain, nothingPending_of_remove hs rfl rfl nofun hok.1, fun hredis name hname => ?_⟩
  exact (hok.2 hredis name hname).step hs nofun

lemma progress_returned {success : Bool} (hphase : c.phase = .returned success)
    (h : success → Settled svc c.table c.id n) : Progress svc i n c := by
  rw [Progress, hphase]
  cases success with
  | false => trivial
  | true => exact h rfl

lemma matched_of_ofRecord {k : String} (hplain : PlainName t ∧ PlainName id) (hlisted : Listed t k)
    (h : ofRecord t id k) : Matched t id k := by
  have hhead := (isMatch_tablePattern hplain.1 k).mp hlisted
  exact (isMatch_recordPattern hplain.1 hplain.2 k).mpr
    (recordKeyHead_of_ofRecord (hplain.1.not_mem rfl) hhead h)

lemma OwnOk.ok (h : OwnOk svc i n c e) (hphase : c.phase = phase)
    (hfile : phase.file = some name) (hexposed : Exposed c.table c.id n name) : e.ok := by
  rw [OwnOk, hphase] at h
  cases phase <;> cases hfile <;> exact h name rfl hexposed

lemma Progress.own_file (h : Progress svc i n c) (hinv : NodeInv n) (hc : n.deletes[i]? = some c)
    (hfile : c.phase.file ≠ none) (hd : DeleteStep svc json e n.toWorld c w c')
    (hok : OwnOk svc i n c e) :
    Progress svc i { n with toWorld := w, deletes := n.deletes.set i c' } c' := by
  have hstep := hd
  cases hd with
  | found name rows hphase htemp =>
    refine h.next hinv hc hstep hphase rfl rfl (fun _ _ _ hwork => ?_)
    refine ⟨hwork.1, hwork.2.resolve_left ?_⟩
    rw [htemp]
    exact Option.some_ne_none rows
  | fetch name rows hphase htemp hobject =>
    refine h.next hinv hc hstep hphase rfl rfl (fun _ _ _ hwork => ?_)
    exact ⟨hwork.1, htemp, hobject⟩
  | save name rows hphase =>
    refine h.next hinv hc hstep hphase rfl rfl (fun _ _ _ hwork => ?_)
    refine ⟨hwork.1, ?_⟩
    simp only [lookup_insert_apply, if_true]
    exact hwork.2.2.symm
  | fail name hfile he =>
    refine h.done hinv hc hstep rfl hfile (fun hexposed _ _ => ?_)
    rw [hok.ok rfl hfile hexposed] at he
    cases he
  | absent name hphase htemp hobject =>
    refine h.done hinv hc hstep hphase rfl (fun hexposed halone hwork => ?_)
    refine hexposed.1 (halone.clean_of_same hc (by rw [hphase]; rintro _ ⟨⟩) hwork.1 ?_ ?_)
    · rw [htemp, hobject]
    · intro rows hrows
      rw [htemp] at hrows
      cases hrows
  | vanished name hphase htemp =>
    rcases hphase with hphase | hphase | hphase
    all_goals
      refine h.done hinv hc hstep hphase rfl (fun hexposed halone hwork => ?_)
      refine hexposed.1 (halone.clean_of_same hc (by rw [hphase]; rintro _ ⟨⟩) hwork.1 hwork.2 ?_)
      intro rows hrows
      rw [htemp] at hrows
      cases hrows
  | untouched name rows hphase htemp hnone =>
    refine h.done hinv hc hstep hphase rfl (fun hexposed halone hwork => ?_)
    refine hexposed.1 (halone.clean_of_same hc (by rw [hphase]; rintro _ ⟨⟩) hwork.1 hwork.2 ?_)
    intro rows' hrows' r hr hid
    rw [htemp] at hrows'
    cases hrows'
    have hmem : r ∈ idRows c.id rows := mem_filter.mpr ⟨hr, decide_eq_true hid⟩
    rw [hnone] at hmem
    exact not_mem_nil hmem
  | count name rows hphase =>
    exact h.next hinv hc hstep hphase rfl rfl (fun _ _ _ hwork => hwork)
  | total name rows next hphase htemp hnext =>
    have hw := h.next hinv hc hstep hphase rfl rfl
    rcases hnext with ⟨rfl, -⟩ | rfl
    · exact hw (fun _ _ _ _ => trivial)
    · exact hw (fun _ _ _ hwork => hwork)
  | removeObject name hphase =>
    exact h.next hinv hc hstep hphase rfl rfl (fun _ _ _ _ => trivial)
  | scanOthers name hphase =>
    refine h.next hinv hc hstep hphase rfl rfl (fun hexposed _ _ _ => ?_)
    intro k hk hlisted _
    rw [if_pos (hok.ok hphase rfl hexposed)]
    exact mem_scanKeys.mpr ⟨⟨name, hk⟩, hlisted⟩
  | dereferenced name hphase =>
    refine h.done hinv hc hstep hphase rfl (fun hexposed _ hwork => ?_)
    obtain ⟨-, k, hk, hlisted, hunmatched⟩ := hexposed
    exact not_mem_nil (hwork k hk hlisted hunmatched)
  | dereference name key keys hphase =>
    refine h.next hinv hc hstep hphase rfl rfl (fun hexposed _ _ hwork => ?_)
    have he := hok.ok hphase rfl hexposed
    intro k hk hlisted hunmatched
    by_cases hskip : ofRecord c.table c.id key
    · rw [if_neg (by simp [hskip])] at hk
      refine (mem_cons.mp (hwork k hk hlisted hunmatched)).resolve_left ?_
      rintro rfl
      exact hunmatched (matched_of_ofRecord (h.working hphase rfl).search.plain hlisted hskip)
    · rw [if_pos ⟨by simpa using hskip, he⟩] at hk
      obtain ⟨hk, hne⟩ := mem_srem.mp hk
      refine (mem_cons.mp (hwork k hk hlisted hunmatched)).resolve_left ?_
      rintro rfl
      exact hne rfl
  | copy name rows hphase =>
    refine h.next hinv hc hstep hphase rfl rfl (fun _ _ _ _ => ?_)
    refine ⟨otherRows c.id rows, AList.lookup_insert n.store.rewrites, fun r hr hid => ?_⟩
    have hother := (mem_filter.mp hr).2
    rw [Bool.and_eq_true, decide_eq_true_eq] at hother
    exact hother.2 hid
  | put name rows hphase hrewrite =>
    refine h.next hinv hc hstep hphase rfl rfl (fun _ _ _ hwork => ?_)
    obtain ⟨rows', hrewrite', hrows'⟩ := hwork
    rw [hrewrite] at hrewrite'
    cases hrewrite'
    refine ⟨fun rows'' hrows'' => ?_, fun rows'' hrows'' => ?_⟩
    · simp only [hrewrite] at hrows''
      cases hrows''
      exact hrows'
    · simp only [lookup_insert_apply, if_true] at hrows''
      cases hrows''
      exact hrows'
  | putFail name hphase hwhy =>
    refine h.next hinv hc hstep hphase rfl rfl (fun hexposed _ _ hwork => ?_)
    obtain ⟨rows, hrows, -⟩ := hwork
    rcases hwhy with hwhy | hwhy
    · simp only [hrows] at hwhy
      cases hwhy
    · rw [hok.ok hphase rfl hexposed] at hwhy
      cases hwhy
  | clean name hphase =>
    refine h.next hinv hc hstep hphase rfl rfl (fun hexposed hexposed' halone hwork => ?_)
    have he := hok.ok hphase rfl hexposed
    have hset := getElem?_set_of_some (y := { c with phase := .discarding name }) hc
    refine hexposed'.1 ((halone.own hstep).clean hset nofun ?_ ?_ ?_)
    · intro rows hrows
      simp only [he, if_true, lookup_erase_apply] at hrows
      cases hrows
    · simp only [he, if_true]
      exact hwork.2
    · simp only [he, if_true]
      exact hwork.1
  | discard name hphase =>
    exact h.done hinv hc hstep hphase rfl (fun _ _ => id)
  | reject hphase | standalone hphase | scanFail hphase | noKeys hphase | scan hphase | done hphase
  | unindex hphase | remove _ hphase | tombstone _ hphase | readDone _ hphase | next _ hphase
  | read _ _ hphase =>
    exact absurd (by rw [hphase]; rfl) hfile

lemma Progress.own (h : Progress svc i n c) (hinv : NodeInv n)
    (hnames : ∀ T, svc.isValidTableName T → PlainName T) (hc : n.deletes[i]? = some c)
    (hd : DeleteStep svc json e n.toWorld c w c') (hok : OwnOk svc i n c e) :
    Progress svc i { n with toWorld := w, deletes := n.deletes.set i c' } c' := by
  by_cases hfile : c.phase.file ≠ none
  · exact h.own_file hinv hc hfile hd hok
  have hs := NodeStep.deleteStep n i e c w c' hc hd
  have hq : Quiet svc (HasId c.id) c.table n (.deleteStep i e) := quiet_deleteStep _ e
  have hstep := hd
  have hnone := not_not.mp hfile
  cases hd with
  | reject | scanFail => trivial
  | remove next hphase hid htable hnext =>
    have hremoved := removed_of_remove ⟨hnames _ htable, plainName_of_validateID hid⟩ hs hphase hok
    rcases hnext with rfl | rfl <;> exact hremoved
  | tombstone b hphase =>
    rw [Progress, hphase] at h
    exact Removed.step h hinv hs hq
  | standalone hphase hredis =>
    rw [Progress, hphase] at h
    have hremoved := Removed.step h hinv hs hq
    refine progress_returned rfl (fun _ => ⟨hremoved.pending, fun hyes => ?_, hremoved.standalone⟩)
    rw [hredis] at hyes
    cases hyes
  | noKeys hphase hredis hkeys =>
    rw [Progress, hphase] at h
    rw [OwnOk, hphase] at hok
    refine progress_returned rfl (fun _ => ⟨h.pending.step hinv hs hq, fun _ p hp hlisted => ?_, ?_⟩)
    · by_contra hdirty
      obtain ⟨hp, hdirty⟩ := h.pending.listed_dirty hs hq hp hlisted hdirty
      obtain ⟨k, hk, hmatched⟩ := hok p hp hlisted hdirty
      have hmem := mem_scanKeys.mpr ⟨⟨p.2, hk⟩, hmatched⟩
      rw [hkeys] at hmem
      cases hmem
    · intro hno
      rw [hredis] at hno
      cases hno
  | scan hphase hredis =>
    rw [Progress, hphase] at h
    rw [OwnOk, hphase] at hok
    refine ⟨hredis, h.plain, h.pending.step hinv hs hq, ?_, ?_⟩
    · intro p hp _ hmatched _
      exact mem_scanKeys.mpr ⟨⟨p.2, hp⟩, hmatched⟩
    · intro name hexposed
      obtain ⟨hdirty, k, hk, hlisted, -⟩ := hexposed.of_step h.pending hs hq
      obtain ⟨k', hk', hmatched⟩ := hok (k, name) hk hlisted hdirty
      exact .inr ⟨k', mem_scanKeys.mpr ⟨⟨name, hk'⟩, hmatched⟩, hk'⟩
  | readDone next hphase hnext =>
    rw [Progress, hphase] at h
    have hread : ∀ name, name ∈ c.objects ∨ (∃ k ∈ [], (k, name) ∈ n.store.index) → name ∈ c.objects := by
      rintro name (hname | ⟨k, hk, -⟩)
      · exact hname
      · cases hk
    rcases hnext with ⟨rfl, hobjects⟩ | rfl
    · refine Searching.step h hinv hs hq (fun name _ _ hrest => ?_)
      have hname := hread name hrest
      rw [hobjects] at hname
      exact not_mem_nil hname
    · exact Searching.step h hinv hs hq (fun name _ _ hrest => hread name hrest)
  | read key keys hphase =>
    rw [Progress, hphase] at h
    rw [OwnOk, hphase] at hok
    refine Searching.step h hinv hs hq ?_
    rintro name _ _ (hname | ⟨k, hk, hmem⟩)
    · exact .inl (by rw [if_pos hok]; exact mem_union_iff.mpr (.inl hname))
    · rcases mem_cons.mp hk with rfl | hk
      · have hname := mem_members.mpr hmem
        exact .inl (by rw [if_pos hok]; exact mem_union_iff.mpr (.inr hname))
      · exact .inr ⟨k, hk, hmem⟩
  | next name hphase henv =>
    rw [Progress, hphase] at h
    rw [OwnOk, hphase] at hok
    constructor
    · refine Searching.step h hinv hs hq (fun name' _ _ hrest => ?_)
      by_cases heq : name' = name
      · exact .inr heq
      · exact .inl ((mem_erase_of_ne heq).mpr hrest)
    · intro hexposed
      obtain ⟨halone, hrewrites, htemp⟩ := hok name henv (hexposed.of_step h.pending hs hq)
      exact ⟨halone.own hstep, hrewrites, htemp⟩
  | done hphase hobjects =>
    rw [Progress, hphase] at h
    refine Searching.step h hinv hs hq (fun name _ _ hrest => ?_)
    rw [hobjects] at hrest
    exact not_mem_nil hrest
  | unindex hphase =>
    rw [Progress, hphase] at h
    rw [OwnOk, hphase] at hok
    refine ⟨h.pending.step hinv hs hq, fun _ p hp hlisted => ?_, fun hno => ?_⟩
    · by_contra hdirty
      obtain ⟨hp', hdirty⟩ := h.pending.listed_dirty hs hq hp hlisted hdirty
      rw [if_pos hok] at hp
      refine (mem_del.mp hp).2 (h.found p hp' hlisted ?_ hdirty)
      by_contra hunmatched
      exact h.exposed p.2 ⟨hdirty, p.1, hp', hlisted, hunmatched⟩
    · rw [h.redis] at hno
      cases hno
  | fail _ hsome =>
    rw [hnone] at hsome
    cases hsome
  | vanished _ hphase =>
    rcases hphase with hphase | hphase | hphase <;> rw [hphase] at hnone <;> cases hnone
  | absent _ hphase | removeObject _ hphase | scanOthers _ hphase | dereferenced _ hphase
  | putFail _ hphase | clean _ hphase | discard _ hphase | found _ _ hphase | fetch _ _ hphase
  | save _ _ hphase | untouched _ _ hphase | count _ _ hphase | copy _ _ hphase | put _ _ hphase
  | total _ _ _ hphase | dereference _ _ _ hphase =>
    rw [hphase] at hnone
    cases hnone

end

lemma deletes_of_step (hs : NodeStep svc json n act n')
    (hothers : ∀ e, act ≠ .deleteStep i e) (hc : n'.deletes[i]? = some c) :
    n.deletes[i]? = some c ∨ c.phase = .started ∨ c.phase = .lost := by
  cases hs with
  | delete =>
    rcases getElem?_concat_cases hc with hc | ⟨-, rfl⟩
    · exact .inl hc
    · exact .inr (.inl rfl)
  | deleteStep j e =>
    rw [getElem?_set_ne] at hc
    · exact .inl hc
    · rintro rfl
      exact hothers e rfl
  | restart =>
    obtain ⟨d, -, rfl⟩ := Option.map_eq_some_iff.mp ((getElem?_map ..).symm.trans hc)
    exact .inr (.inr rfl)
  | _ => exact .inl hc

lemma progress_step (hnames : ∀ T, svc.isValidTableName T → PlainName T) (hinv : NodeInv n)
    (h : ∀ c, n.deletes[i]? = some c → Progress svc i n c) (hg : Undisturbed svc json i n act)
    (hstep : n.step svc json act = some n') : ∀ c, n'.deletes[i]? = some c → Progress svc i n' c := by
  intro c hc
  have hs := NodeStep.of_step hstep
  by_cases hown : ∃ e, act = .deleteStep i e
  · obtain ⟨e, rfl⟩ := hown
    cases hs with
    | deleteStep _ _ d w d' hd hdelete =>
      rw [getElem?_set_of_some hd] at hc
      cases hc
      exact (h d hd).own hinv hnames hd hdelete (hg.own d e hd rfl)
  · have hothers : ∀ e, act ≠ .deleteStep i e := fun e he => hown ⟨e, he⟩
    rcases deletes_of_step hs hothers hc with hold | hphase | hphase
    · exact (h c hold).others hinv hs (hg.quiet c hold) (hg.others c n' hold hothers hstep)
    · rw [Progress, hphase]
      trivial
    · rw [Progress, hphase]
      trivial

lemma Settled.rows (h : Settled svc t id n) {r : StoredRow φ}
    (hr : r ∈ n.tableRows svc.redisPool t) : r.id ≠ some id := by
  rcases Node.mem_tableRows.mp hr with ⟨k, e, -, htable, he, rfl⟩ | ⟨name, hname, hr⟩
  · exact h.pending.rows e (.inl ⟨k, htable, he⟩)
  · have hclean : Clean (HasId id) n name := by
      have hstored := mem_tableObjects.mp hname
      cases hredis : svc.redisPool <;> rw [hredis] at hstored
      · exact h.standalone hredis name (List.isPrefixOf_iff_prefix.mpr hstored.1.2)
      · obtain ⟨k, hk, hlisted⟩ := hstored
        exact h.listed hredis (k, name) hk hlisted
    obtain ⟨rows, hcopy, hmem⟩ := mem_file hr
    exact hclean rows (.read hcopy) r hmem

/-- In every run that does not disturb a `DeleteData` call, once the call has returned with
success no query of its table returns a row of its id. -/
theorem deleted_record_stays_deleted (hnames : ∀ T, svc.isValidTableName T = true → PlainName T)
    {dir : Directory (LogRecord (Payload (Entry φ)))} {name : ℕ} {store : Store φ}
    {as : List (Action φ)} {c : DeleteCall φ}
    (hg : Guarded (Node.step svc json) (Undisturbed svc json i) (Node.boot svc dir name store) as)
    (hrun : exec (Node.step svc json) (Node.boot svc dir name store) as = some n)
    (hc : n.deletes[i]? = some c) (hphase : c.phase = .returned true) :
    ∀ r ∈ n.tableRows svc.redisPool c.table, r.id ≠ some c.id := by
  have hinv := exec_invariant
    (fun n : Node φ => NodeInv n ∧ ∀ c, n.deletes[i]? = some c → Progress svc i n c) ?_
    ⟨nodeInv_boot svc dir name store, by rintro c ⟨⟩⟩ hg hrun
  · have hsettled := hinv.2 c hc
    rw [Progress, hphase] at hsettled
    exact fun r hr => Settled.rows hsettled hr
  · rintro n act n' ⟨hinv, h⟩ hg hstep
    exact ⟨hinv.step (NodeStep.of_step hstep), progress_step hnames hinv h hg hstep⟩

end

def DeletePhase.succeeded {φ : Type*} : DeletePhase φ → Bool
  | .returned success => success
  | _ => false

lemma DeletePhase.eq_of_succeeded {φ : Type*} {phase : DeletePhase φ} (h : phase.succeeded) :
    phase = .returned true := by
  cases phase with
  | returned => exact congrArg _ h
  | _ => cases h

def outcome (redisPool : Bool) (n : Node Unit) : List Bool × List (Option String) :=
  (n.deletes.map (fun c => c.phase.succeeded), (n.tableRows redisPool "orders").map StoredRow.id)

def undisturbedCheck (n : Node Unit) : Action Unit → Bool
  | .delete _ _ => n.deletes.isEmpty
  | .deleteStep i e =>
    i == 0 && e.ok && n.buffer.pool.tasks.isEmpty && n.downloads.isEmpty && decide (n.deletes.length ≤ 1) &&
      n.deletes.all (fun c => n.store.index.all (fun p => n.store.index.any (fun q =>
        q.2 == p.2 && Glob.isMatch (recordPattern c.table c.id) q.1))) &&
      e.next.all (fun name => n.store.fileCache.lookup name == none &&
        n.store.rewrites.lookup name == none && n.store.tempDir.lookup name == none)
  | .download _ => n.deletes.all (fun c => c.phase.succeeded)
  | _ => false

lemma undisturbed_of_check (n : Node Unit) (act : Action Unit) (h : undisturbedCheck n act) :
    Undisturbed (shop true) some 0 n act := by
  cases act with
  | delete =>
    have hnone : ∀ c, n.deletes[0]? ≠ some c := by
      intro c
      rw [List.isEmpty_iff.mp h]
      rintro ⟨⟩
    exact ⟨fun c hc => absurd hc (hnone c), fun c _ hc => absurd hc (hnone c),
      fun c _ hc => absurd hc (hnone c)⟩
  | deleteStep j e =>
    simp only [undisturbedCheck, Bool.and_eq_true, beq_iff_eq, List.isEmpty_iff, decide_eq_true_eq] at h
    obtain ⟨⟨⟨⟨⟨⟨rfl, he⟩, htasks⟩, hdownloads⟩, hlength⟩, hfound⟩, hsole⟩ := h
    refine ⟨fun c _ _ => quiet_deleteStep _ e, ?_, fun c n' _ hno => absurd rfl (hno e)⟩
    rintro c e' hc ⟨⟩
    have hfound := all_eq_true.mp (all_eq_true.mp hfound c (mem_of_getElem? hc))
    unfold OwnOk
    split
    · refine ⟨fun j task htask => ?_, fun hno => by cases hno⟩
      rw [htasks] at htask
      cases htask
    · intro p hp _ _
      obtain ⟨q, hq, hmatch⟩ := any_eq_true.mp (hfound p hp)
      rw [Bool.and_eq_true, beq_iff_eq] at hmatch
      exact ⟨q.1, hmatch.1 ▸ hq, hmatch.2⟩
    · exact he
    · exact he
    · intro name hname _
      rw [hname, Option.all_some, Bool.and_eq_true, Bool.and_eq_true] at hsole
      refine ⟨⟨?_, ?_, ?_⟩, ?_, .inl ?_⟩
      · simpa using hsole.1.1
      · simp [hdownloads]
      · intro j d rows hj hd
        have hlt := (List.getElem?_eq_some_iff.mp hd).1
        omega
      · simpa using hsole.1.2
      · simpa using hsole.2
    · exact fun _ _ _ => he
  | download =>
    have hphase : ∀ c, n.deletes[0]? = some c → c.phase = .returned true := fun c hc =>
      DeletePhase.eq_of_succeeded (all_eq_true.mp h c (mem_of_getElem? hc))
    refine ⟨fun c _ _ => ⟨nofun, nofun, nofun, nofun⟩,
      by rintro _ _ _ ⟨⟩, fun c n' hc _ _ => ?_⟩
    rw [OthersOk, hphase c hc]
    rintro _ ⟨⟩
  | _ => cases h

def sharedNode : Node Unit :=
  Node.boot (shop true) Directory.empty 1
    (oneObject "f" [storedOrder (some "u1"), storedOrder (some "u2")] ["u1", "u2"])

def sharedRun : List (Action Unit) :=
  [.delete "orders" "u1"] ++ deleteSteps ([none, none, none, none, some "f"] ++ List.replicate 10 none) ++
    [.download "f"]

/-- The call succeeds, and the row of the other id is the only one left. -/
theorem deleted_record_stays_deleted_shared :
    (exec (Node.step (shop true) some) sharedNode sharedRun).map (outcome true) =
      some ([true], [some "u2"]) ∧
    ∀ n, exec (Node.step (shop true) some) sharedNode sharedRun = some n →
      ∀ c, n.deletes[0]? = some c → c.phase = .returned true →
        ∀ r ∈ n.tableRows true c.table, r.id ≠ some c.id := by
  have hcheck : Guarded (Node.step (shop true) some) (fun n act => undisturbedCheck n act = true)
      sharedNode sharedRun := by decide +kernel
  refine ⟨by decide +kernel, fun n hrun c hc hphase => ?_⟩
  exact deleted_record_stays_deleted (fun T hT => plainName_of_isValidTableName hT)
    (hcheck.mono undisturbed_of_check) hrun hc hphase

/-- Three ways in which a row of `u1` outlives `DeleteData(orders, u1)`: it is in a flush task
when `Remove` runs; it is stored, and there is no Redis; it is in the file cache. -/
theorem deleted_row_returns :
    (exec (Node.step (shop true) some) (Node.boot (shop true) Directory.empty 1 (oneObject "f" [] []))
        ((addOk 0 (order "u1") none ++ [Buffer.Action.flush "orders/u1/2024-01-01"] ++ addOk 1 (order "u1") none).map
            Action.buffer ++ [.delete "orders" "u1"] ++ deleteSteps [none, none, none] ++
          [.buffer (.pool (.submit 0)), .buffer (.pool (.take 0)), .putObject 0 7,
            .indexObject 0 "orders/u1/2024-01-01/7.parquet"])).map (outcome true) =
      some ([true], [some "u1"]) ∧ (exec (Node.step (shop false) some)
        (Node.boot (shop false) Directory.empty 1
          (oneObject "orders/u1/2024-01-01/7.parquet" [storedOrder (some "u1")] []))
        ((addOk 0 (order "u1") none).map Action.buffer ++ [.delete "orders" "u1"] ++
          deleteSteps [none, none, none])).map (outcome false) = some ([true], [some "u1"]) ∧
    (exec (Node.step (shop true) some) sharedNode
        ([.download "f", .save 0, .cacheFile "f", .delete "orders" "u1"] ++
          deleteSteps ([none, none, none, none, some "f"] ++ List.replicate 9 none))).map (outcome true) =
      some ([true], [some "u1", some "u2"]) := by
  decide +kernel

end MinIODB.Service
