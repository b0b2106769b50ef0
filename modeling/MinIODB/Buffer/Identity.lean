import MinIODB.Buffer.Machine

/-!
# Rows and their calls

Every row in the buffer and every data record in the log belongs to an `Add` call: it
stands under the key that the call computed, and has the call's table, id and timestamp.
A call that may still roll back has at most one row in the buffer. All later invariants
identify rows through this one.
-/
namespace MinIODB.Buffer
open Wal Transition List State

variable {φ : Type*} {cfg : Config} {json : φ → Option φ}

def AddCall.InFlight (call : AddCall φ) : Prop :=
  call.phase = .appending ∨ call.phase = .rollingBack

def Placed (adds : List (AddCall φ)) (key : String) (e : Entry φ) : Prop :=
  ∃ call, adds[e.tag]? = some call ∧ call.key = key ∧ e.row.Alike call.row

structure GoesOn (adds adds' : List (AddCall φ)) : Prop where
  forth : ∀ (i : ℕ) (call : AddCall φ), adds[i]? = some call →
    ∃ call' : AddCall φ, adds'[i]? = some call' ∧ call'.key = call.key ∧ call'.row = call.row
  back : ∀ (i : ℕ) (call' : AddCall φ), adds'[i]? = some call' →
    ∃ call : AddCall φ, adds[i]? = some call ∧ call'.key = call.key ∧ call'.row = call.row ∧
      (call'.InFlight → call.InFlight)

lemma GoesOn.refl (adds : List (AddCall φ)) : GoesOn adds adds :=
  ⟨fun _ call h => ⟨call, h, rfl, rfl⟩, fun _ call h => ⟨call, h, rfl, rfl, fun hf => hf⟩⟩

variable {adds : List (AddCall φ)} {i : ℕ} {call : AddCall φ} {key : String} {e : Entry φ}

lemma GoesOn.set (call' : AddCall φ)
    (hcall : adds[i]? = some call) (hkey : call'.key = call.key) (hrow : call'.row = call.row)
    (hflight : call'.InFlight → call.InFlight) : GoesOn adds (adds.set i call') := by
  constructor
  · intro j c hc
    by_cases hij : i = j
    · subst hij
      cases hcall.symm.trans hc
      exact ⟨call', getElem?_set_of_some hcall, hkey, hrow⟩
    · exact ⟨c, (getElem?_set_ne hij).trans hc, rfl, rfl⟩
  · intro j c hc
    rcases getElem?_set_cases hc with ⟨rfl, rfl⟩ | ⟨-, hc⟩
    · exact ⟨call, hcall, hkey, hrow, hflight⟩
    · exact ⟨c, hc, rfl, rfl, fun hf => hf⟩

lemma lose_not_inFlight (call : AddCall φ) : ¬(lose call).InFlight := by
  simp only [AddCall.InFlight, lose]
  split
  · rename_i hphase
    rcases hphase with hphase | hphase <;> simp [hphase]
  · simp

lemma GoesOn.lose (adds : List (AddCall φ)) : GoesOn adds (adds.map State.lose) := by
  constructor
  · intro i call hcall
    exact ⟨State.lose call, by simp [hcall], rfl, rfl⟩
  · intro i call' hcall'
    rw [getElem?_map] at hcall'
    obtain ⟨call, hcall, rfl⟩ := Option.map_eq_some_iff.mp hcall'
    exact ⟨call, hcall, rfl, rfl, fun hf => absurd hf (lose_not_inFlight call)⟩

lemma Placed.goesOn {adds' : List (AddCall φ)}
    (h : Placed adds key e) (hadds : GoesOn adds adds') : Placed adds' key e := by
  obtain ⟨call, hcall, hkey, halike⟩ := h
  obtain ⟨call', hcall', hkey', hrow⟩ := hadds.forth e.tag call hcall
  exact ⟨call', hcall', hkey'.trans hkey, hrow ▸ halike⟩

variable (cfg) in
structure TagInv (s : State φ) : Prop where
  calls : ∀ (i : ℕ) (call : AddCall φ), s.adds[i]? = some call → call.key = bufferKey cfg call.row
  buffer : ∀ key, ∀ e ∈ s.mem.buffer.get key, Placed s.adds key e
  log : ∀ record ∈ replay s.log.dir, ∀ key e, record.body = .data key e → Placed s.adds key e
  unique : ∀ i call, s.adds[i]? = some call → call.InFlight →
    (s.mem.buffer.get call.key).countP (fun e => e.tag = i) ≤ 1

variable {s t : State φ} {a : Action φ}

lemma TagInv.key_eq (h : TagInv cfg s) (he : Placed s.adds key e) :
    key = bufferKey cfg e.row := by
  obtain ⟨call, hcall, hkey, halike⟩ := he
  rw [← hkey, h.calls e.tag call hcall, halike.bufferKey_eq]

lemma TagInv.mono (h : TagInv cfg s)
    (hbuffer : ∀ key, Sublist (t.mem.buffer.get key) (s.mem.buffer.get key))
    (hadds : GoesOn s.adds t.adds) (hlog : ∀ record ∈ replay t.log.dir, record ∈ replay s.log.dir ∨
      ∀ key e, record.body = .data key e → Placed t.adds key e) : TagInv cfg t := by
  refine ⟨fun i call' hcall' => ?_, fun key e he => ?_, fun record hmem key e hbody => ?_,
    fun i call' hcall' hf => ?_⟩
  · obtain ⟨call, hcall, hkey, hrow, _⟩ := hadds.back i call' hcall'
    rw [hkey, hrow]
    exact h.calls i call hcall
  · exact (h.buffer key e ((hbuffer key).subset he)).goesOn hadds
  · rcases hlog record hmem with hmem | hnew
    · exact (h.log record hmem key e hbody).goesOn hadds
    · exact hnew key e hbody
  · obtain ⟨call, hcall, hkey, _, hflight⟩ := hadds.back i call' hcall'
    rw [hkey]
    exact (hbuffer call.key).countP_le.trans (h.unique i call hcall (hflight hf))

lemma TagInv.addInsert (h : TagInv cfg s) (row : DataRow φ) :
    TagInv cfg (s.addInsert cfg json row) := by
  have hlt : ∀ {key : String} {e : Entry φ}, Placed s.adds key e → e.tag < s.adds.length := by
    rintro key e ⟨call, hcall, _, _⟩
    exact (List.getElem?_eq_some_iff.mp hcall).1
  have hold : ∀ {key : String} {e : Entry φ}, Placed s.adds key e →
      Placed (s.addInsert cfg json row).adds key e := by
    intro key e he
    obtain ⟨call, hcall, hkey, halike⟩ := he
    have hi := hlt ⟨call, hcall, hkey, halike⟩
    refine ⟨call, ?_, hkey, halike⟩
    rw [State.addInsert, getElem?_append_left hi]
    exact hcall
  refine ⟨fun i call hcall => ?_, fun key e he => ?_,
    fun record hmem key e hbody => hold (h.log record hmem key e hbody), fun i call hcall hf => ?_⟩
  · rw [State.addInsert] at hcall
    rcases mem_append.mp (mem_of_getElem? hcall) with hmem | hmem
    · obtain ⟨j, hj⟩ := mem_iff_getElem?.mp hmem
      exact h.calls j call hj
    · rw [mem_singleton.mp hmem]
  · rw [State.addInsert, Mem.get_insert] at he
    split at he
    · rename_i hkey
      rcases mem_append.mp he with he | he
      · exact hold (hkey ▸ h.buffer _ e he)
      · rw [mem_singleton.mp he]
        exact ⟨_, getElem?_concat_length, hkey.symm, rfl, rfl, rfl⟩
    · exact hold (h.buffer key e he)
  · rw [State.addInsert, Mem.get_insert]
    rw [State.addInsert] at hcall
    rcases getElem?_concat_cases hcall with hcall | ⟨rfl, -⟩
    · have hi := (List.getElem?_eq_some_iff.mp hcall).1
      have hle := h.unique i call hcall hf
      split
      · rename_i hkey
        rw [countP_append, ← hkey]
        have hne : s.adds.length ≠ i := by omega
        simpa [hne] using hle
      · exact hle
    · -- the new call: no earlier entry has its number
      have hzero : ∀ key, (s.mem.buffer.get key).countP (fun e => e.tag = s.adds.length) = 0 := by
        intro key
        rw [countP_eq_zero]
        intro e he
        have hne := (hlt (h.buffer key e he)).ne
        simpa using hne
      split
      · rw [countP_append, hzero]
        simp
      · rw [hzero]
        omega

lemma placed_next {row : DataRow φ} (hcall : s.adds[i]? = some call)
    (hrow : encoded json call.row = some row) {record : LogRecord (Payload (Entry φ))}
    (hrecord : record = s.log.next (.data call.key ⟨i, row⟩)) :
    ∀ key e, record.body = .data key e → Placed s.adds key e := by
  intro key e hbody
  rw [hrecord] at hbody
  cases hbody
  exact ⟨call, hcall, rfl, alike_of_encoded hrow⟩

lemma TagInv.restart (h : TagInv cfg s) (name : ℕ) : TagInv cfg (s.restart cfg name) := by
  have hadds := GoesOn.lose s.adds
  have hreplay : ∀ record ∈ replay (s.restart cfg name).log.dir, record ∈ replay s.log.dir := by
    intro record hmem
    simp only [State.restart] at hmem
    split at hmem
    · exact (RecordLog.mem_replay_new s.log.dir name record).mp hmem
    · exact hmem
  refine ⟨fun i call' hcall' => ?_, fun key e he => ?_, fun record hmem key e hbody =>
    (h.log record (hreplay record hmem) key e hbody).goesOn hadds, fun i call' hcall' hf => ?_⟩
  · obtain ⟨call, hcall, hkey, hrow, _⟩ := hadds.back i call' hcall'
    rw [hkey, hrow]
    exact h.calls i call hcall
  · simp only [State.restart, State.recovery] at he
    split at he
    · obtain ⟨before, record, after, heq, hbody, _⟩ := (mem_recoverFromWAL _ _ _ _).mp he
      have hmem : record ∈ replay (RecordLog.new s.log.dir name).dir := by simp [heq]
      exact (h.log record ((RecordLog.mem_replay_new _ _ _).mp hmem) key e hbody).goesOn hadds
    · simp [Recovery.start, Recovery.mem] at he
  · -- no call survives its process
    simp only [State.restart, getElem?_map] at hcall'
    obtain ⟨call, _, rfl⟩ := Option.map_eq_some_iff.mp hcall'
    exact absurd hf (lose_not_inFlight call)

lemma TagInv.step (h : TagInv cfg s) (hs : Step cfg json s a t) : TagInv cfg t := by
  have hsame : ∀ key, Sublist (s.mem.buffer.get key) (s.mem.buffer.get key) :=
    fun key => Sublist.refl _
  have hflush : ∀ key k, Sublist ((s.triggerFlush cfg key).1.mem.buffer.get k)
      (s.mem.buffer.get k) := by
    intro key k
    rw [get_triggerFlush]
    split
    · exact nil_sublist _
    · exact Sublist.refl _
  cases hs with
  | addInsert row => exact h.addInsert row
  | addAppend i rotate call row hcall hphase hrow =>
    have hadds := GoesOn.set { call with phase := .recording, seqNum := some (s.log.seqNum + 1) }
      hcall rfl rfl (by simp [AddCall.InFlight])
    refine h.mono hsame hadds (fun record hmem => ?_)
    rcases (s.log.mem_replay_next _ _ _).mp hmem with hmem | hnew
    · exact .inl hmem
    · exact .inr (fun key e hbody => (placed_next hcall hrow hnew key e hbody).goesOn hadds)
  | addAppendFail i o call row hcall hphase hrow =>
    have hadds := GoesOn.set { call with
      phase := if walFailThreshold ≤ s.walFailCount + 1 then .rollingBack else .written }
      hcall rfl rfl (fun _ => .inl hphase)
    refine h.mono hsame hadds (fun record hmem => ?_)
    rcases s.log.mem_replay_appendFail hmem with hmem | hnew
    · exact .inl hmem
    · exact .inr (fun key e hbody => (placed_next hcall hrow hnew key e hbody).goesOn hadds)
  | addRecord i call hcall | addReturn i call hcall =>
    exact h.mono hsame (GoesOn.set _ hcall rfl rfl (by simp [AddCall.InFlight])) (fun _ => .inl)
  | addRollback i call hcall hphase =>
    refine h.mono (fun key => ?_) (GoesOn.set _ hcall rfl rfl (by simp [AddCall.InFlight]))
      (fun _ => .inl)
    rw [addRollback, Mem.get_rollback]
    split
    · rename_i hkey
      rw [hkey]
      exact eraseIdx_sublist _ _
    · exact Sublist.refl _
  | addFlush i call hcall =>
    refine h.mono (hflush call.key) (GoesOn.set _ hcall rfl rfl ?_)
      (fun record hmem => .inl (by simpa [addFlush] using hmem))
    simp only [AddCall.InFlight]
    split <;> simp
  | flush key =>
    exact h.mono (hflush key) (by simp [GoesOn.refl]) (fun record hmem => .inl (by simpa using hmem))
  | pool | attemptOk | recoveryCheck | stop => exact h.mono hsame (GoesOn.refl _) (fun _ => .inl)
  | truncate =>
    refine h.mono hsame (GoesOn.refl _) (fun record hmem => .inl ?_)
    simp only [truncateTask] at hmem
    split at hmem
    · obtain ⟨name, hmem, _⟩ := (s.log.mem_replay_truncate).mp hmem
      exact mem_replay.mpr ⟨name, hmem⟩
    · exact hmem
  | remove table id =>
    have hremove : ∀ key, Sublist ((s.mem.remove Entry.row table id).1.buffer.get key)
        (s.mem.buffer.get key) := by
      intro key
      rw [Mem.get_remove]
      split
      · exact filter_sublist
      · exact Sublist.refl _
    unfold remove
    split <;> exact h.mono hremove (GoesOn.refl _) (fun _ => .inl)
  | tombstone =>
    refine h.mono hsame (GoesOn.refl _) (fun record hmem => ?_)
    rcases (s.log.mem_replay_next _ _ _).mp hmem with hmem | hnew
    · exact .inl hmem
    · exact .inr (fun key e hbody => by rw [hnew] at hbody; cases hbody)
  | tombstoneFail =>
    refine h.mono hsame (GoesOn.refl _) (fun record hmem => ?_)
    rcases s.log.mem_replay_appendFail hmem with hmem | hnew
    · exact .inl hmem
    · exact .inr (fun key e hbody => by rw [hnew] at hbody; cases hbody)
  | clearTable =>
    refine h.mono (fun key => ?_) (GoesOn.refl _) (fun _ => .inl)
    rw [clearTable, Mem.get_clearTable]
    split
    · exact nil_sublist _
    · exact Sublist.refl _
  | recoveryTruncate =>
    refine h.mono hsame (GoesOn.refl _) (fun record hmem => .inl ?_)
    obtain ⟨name, hmem, _⟩ := (s.log.mem_replay_truncate).mp hmem
    exact mem_replay.mpr ⟨name, hmem⟩
  | stopFlush key =>
    exact h.mono (hflush key) (by simp [stopFlush, GoesOn.refl])
      (fun record hmem => .inl (by simpa [stopFlush] using hmem))
  | restart name => exact h.restart name

lemma tagInv_boot (cfg : Config) (name : ℕ) :
    TagInv cfg (boot cfg (Directory.empty : Directory (LogRecord (Payload (Entry φ)))) name) := by
  refine TagInv.restart ⟨by simp, by simp [Mem.empty], fun record hmem => ?_, by simp⟩ name
  simp [replay] at hmem

/-- In every run, with crashes and recoveries, each row in buffer and log is that of an `Add`
call and stands under the call's key. -/
theorem rows_belong_to_calls {name : ℕ} {as : List (Action φ)}
    (hrun : exec (State.step cfg json) (State.boot cfg Directory.empty name) as = some s) :
    TagInv cfg s :=
  exec_preserves (fun _ _ _ h hs => h.step (Step.of_step hs)) (tagInv_boot cfg name) hrun

theorem rows_belong_to_calls_crash :
    ∃ s, exec (State.step oneDay some) (State.boot oneDay Directory.empty 1)
      (addOk 0 (order "u1") none ++ [.restart 2]) = some s ∧ TagInv oneDay s :=
  .imp (fun _ hrun => ⟨hrun, rows_belong_to_calls hrun⟩) ⟨_, rfl⟩

end MinIODB.Buffer
