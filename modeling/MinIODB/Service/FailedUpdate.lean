import MinIODB.Service.Untouched

/-!
# When a failed update loses nothing

`UpdateData` takes the buffered versions of a record out of the buffer and writes their
tombstone before it inserts the new version, and it deletes the index keys of the stored
versions only after that. A failed call has not touched the stored versions. Buffered
versions are lost unless the call failed before `Remove`.
-/
namespace MinIODB.Service
open Buffer Query Wal Transition

section
variable {φ : Type*} (svc : ServiceConfig) (t id : String)

def NoneBuffered (n : Node φ) : Prop := (n.buffer.mem.remove Entry.row t id).2 = 0

structure SameData (n n' : Node φ) : Prop where
  mem : n'.buffer.mem = n.buffer.mem
  log : n'.buffer.log = n.buffer.log
  store : n'.store = n.store

def UpdateFacts (n n' : Node φ) : UpdatePhase → Prop
  | .started => SameData n n'
  | .tombstone | .inserting | .adding _ => n'.store = n.store ∧ NoneBuffered t id n
  | .returned false => n'.store = n.store ∧ (SameData n n' ∨ NoneBuffered t id n)
  | _ => True

/-- The steps of the call, if `Remove` finds no version in the buffer. -/
def RemovesNothing (i : ℕ) (n : Node φ) (act : Action φ) : Prop :=
  CallRef.owns (.update i) n act = true ∧
    ∀ c e, n.updates[i]? = some c → act = .updateStep i e → c.phase = .started →
      (e.ok && validateID c.id && svc.isValidTableName c.table) = true → NoneBuffered c.table c.id n

variable {svc t id} {json : φ → Option φ} {n m : Node φ}

lemma visible_of_store {redisPool : Bool} (hstore : m.store = n.store) (hnone : NoneBuffered t id n)
    {r : StoredRow φ} (hid : r.id = some id) (hr : r ∈ n.tableRows redisPool t) :
    r ∈ m.tableRows redisPool t := by
  rcases Node.mem_tableRows.mp hr with ⟨k, e, -, htable, he, rfl⟩ | hstored
  · have hne := (Mem.remove_count_eq_zero Entry.row _ _ _).mp hnone k htable e he
    exact absurd (Option.some.inj hid) hne
  · rw [← hstore] at hstored
    exact Node.mem_tableRows.mpr (.inr hstored)

lemma SameData.tableRows_eq {redisPool : Bool} (h : SameData n m) (T : String) :
    m.tableRows redisPool T = n.tableRows redisPool T := by
  rw [Node.tableRows, Node.tableRows, h.mem, h.store]

lemma SameData.restart (h : SameData n m) (name : ℕ) :
    SameData (n.restart svc name) (m.restart svc name) := by
  refine ⟨?_, ?_, h.store⟩
  · simp [Node.restart, State.restart, State.recovery, h.log]
  · simp [Node.restart, State.restart, h.log]

lemma UpdateFacts.step {e : StepEnv} {w : World φ} {c c' : UpdateCall φ}
    (h : UpdateFacts t id n m c.phase) (hcall : c.table = t ∧ c.id = id)
    (hremove : c.phase = .started →
      (e.ok && validateID c.id && svc.isValidTableName c.table) = true → NoneBuffered t id m)
    (hs : UpdateStep svc json e m.toWorld c w c') (calls : List (UpdateCall φ)) :
    UpdateFacts t id n { m with toWorld := w, updates := calls } c'.phase := by
  obtain ⟨rfl, rfl⟩ := hcall
  cases hs with
  | reject hphase =>
    rw [hphase] at h
    exact ⟨h.store, .inl ⟨h.mem, h.log, h.store⟩⟩
  | remove next hphase hvalid hnext =>
    rw [hphase] at h
    have hnone : NoneBuffered c.table c.id n := by
      have hm := hremove hphase hvalid
      rw [NoneBuffered, h.mem] at hm
      exact hm
    rcases hnext with rfl | rfl <;> exact ⟨h.store, hnone⟩
  | tombstone b hphase | insert hphase =>
    rw [hphase] at h
    exact h
  | insertFail hphase | addFailed _ _ hphase =>
    rw [hphase] at h
    exact ⟨h.1, .inr h.2⟩
  | added | scan | noScan | unindex => trivial

lemma UpdateFacts.of_buffer {phase : UpdatePhase} {m' : Node φ} (h : UpdateFacts t id n m phase)
    (hmem : m'.buffer.mem = m.buffer.mem) (hlog : m'.buffer.log = m.buffer.log)
    (hstore : m'.store = m.store) : UpdateFacts t id n m' phase := by
  have hsame : SameData n m → SameData n m' :=
    fun h => ⟨hmem.trans h.mem, hlog.trans h.log, hstore.trans h.store⟩
  cases phase with
  | started => exact hsame h
  | tombstone | inserting | adding => exact ⟨hstore.trans h.1, h.2⟩
  | returned success =>
    cases success with
    | false => exact ⟨hstore.trans h.1, h.2.imp_left hsame⟩
    | true => trivial
  | _ => trivial

end

def updatingNode : Node Unit :=
  { Node.boot (shop true) Directory.empty 1 (oneObject "f" [storedOrder (some "u1")] ["u1"]) with
    buffer := { State.boot oneDay Directory.empty 1 with walFailCount := 2 }
    updates := [⟨"orders", "u1", 0, (), .started⟩] }

def failingSteps (i : ℕ) : List (Action Unit) :=
  [.updateStep 0 (.allOk none), .buffer (.addAppendFail i .refused), .buffer (.addRollback i),
    .updateStep 0 (.allOk none)]

def removesNothingCheck (n : Node Unit) (act : Action Unit) : Bool :=
  CallRef.owns (.update 0) n act &&
    n.updates.all (fun c => decide (c.phase = .started →
      (n.buffer.mem.remove Entry.row c.table c.id).2 = 0))

lemma removesNothing_of_check (n : Node Unit) (act : Action Unit)
    (h : removesNothingCheck n act) : RemovesNothing (shop true) 0 n act := by
  obtain ⟨hown, hnone⟩ := (Bool.and_eq_true _ _).mp h
  refine ⟨hown, fun c _ hc _ hphase _ => ?_⟩
  have hc := List.all_eq_true.mp hnone c (List.mem_of_getElem? hc)
  exact of_decide_eq_true hc hphase

def bufferedRun : List (Action Unit) :=
  (addOk 0 (order "u1") none ++ [Buffer.Action.addInsert (order "u2"), .addAppendFail 1 .refused,
    .addInsert (order "u2"), .addAppendFail 2 .refused]).map Action.buffer

end MinIODB.Service
