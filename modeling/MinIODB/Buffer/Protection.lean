import MinIODB.Buffer.Identity

/-!
# What the log protects

An acknowledged row that is neither uploaded nor deleted has to be in the log, or a crash
loses it. Appends, rotations, flushes and restarts keep it there. Truncation works on
whole files and by the number of one task, while the numbers are shared by all keys, so
it keeps the row only if the row's file is being written or holds a higher number.
-/
namespace MinIODB.Buffer
open Wal Transition List Option State

section
variable {φ : Type*} {cfg : Config} {json : φ → Option φ}

structure Unsaved (s : State φ) (i : ℕ) (call : AddCall φ) : Prop where
  made : s.adds[i]? = some call
  logged : call.seqNum ≠ none
  kept : i ∉ s.removed
  pending : ∀ object ∈ s.index, ∀ e ∈ object.rows, e.tag ≠ i

def RecordOf (i : ℕ) (call : AddCall φ) (record : LogRecord (Payload (Entry φ))) : Prop :=
  call.seqNum = some record.seqNum ∧
    ∃ e, record.body = .data call.key e ∧ e.tag = i ∧ e.row.Alike call.row

def Protected (s : State φ) : Prop :=
  ∀ i call, Unsaved s i call → ∃ record ∈ replay s.log.dir, RecordOf i call record

def SparesUnsaved (s : State φ) (n : ℕ) : Prop :=
  ∀ i call, Unsaved s i call → ∀ name, ∀ record ∈ s.log.dir.contents name, RecordOf i call record →
    name = s.log.current ∨ n < maxSeq (s.log.dir.contents name)

variable (cfg) in
def TruncatesSaved (s : State φ) : Action φ → Prop
  | .truncate t _ => ∀ task, s.pool.tasks[t]? = some task → cfg.walEnabled = true →
      0 < task.maxSeqNum → SparesUnsaved s task.maxSeqNum
  | .recoveryTruncate _ => ∀ n, s.watch = .due n → SparesUnsaved s (n + 1)
  | _ => True

def KeepsNumbers (adds adds' : List (AddCall φ)) : Prop :=
  ∀ (i : ℕ) (call' : AddCall φ), adds'[i]? = some call' → call'.seqNum ≠ none →
    ∃ call : AddCall φ, adds[i]? = some call ∧ call'.key = call.key ∧ call'.row = call.row ∧
      call'.seqNum = call.seqNum

lemma KeepsNumbers.refl (adds : List (AddCall φ)) : KeepsNumbers adds adds :=
  fun _ call h _ => ⟨call, h, rfl, rfl, rfl⟩

variable {i : ℕ} {call call' : AddCall φ} {record : LogRecord (Payload (Entry φ))}

lemma KeepsNumbers.set {adds : List (AddCall φ)} (call' : AddCall φ)
    (hcall : adds[i]? = some call) (hkey : call'.key = call.key) (hrow : call'.row = call.row)
    (hseq : call'.seqNum = call.seqNum) : KeepsNumbers adds (adds.set i call') := by
  intro j c hc _
  rcases getElem?_set_cases hc with ⟨rfl, rfl⟩ | ⟨-, hc⟩
  · exact ⟨call, hcall, hkey, hrow, hseq⟩
  · exact ⟨c, hc, rfl, rfl, rfl⟩

lemma KeepsNumbers.lose (adds : List (AddCall φ)) : KeepsNumbers adds (adds.map State.lose) := by
  intro i call' hcall' _
  rw [getElem?_map] at hcall'
  obtain ⟨call, hcall, rfl⟩ := map_eq_some_iff.mp hcall'
  exact ⟨call, hcall, rfl, rfl, rfl⟩

lemma KeepsNumbers.concat (adds : List (AddCall φ))
    (hseq : call.seqNum = none) : KeepsNumbers adds (adds ++ [call]) := by
  intro i call' hcall' hlogged
  rcases getElem?_concat_cases hcall' with hcall' | ⟨-, rfl⟩
  · exact ⟨call', hcall', rfl, rfl, rfl⟩
  · exact absurd hseq hlogged

lemma RecordOf.congr
    (h : RecordOf i call record) (hkey : call'.key = call.key) (hrow : call'.row = call.row)
    (hseq : call'.seqNum = call.seqNum) : RecordOf i call' record := by
  unfold RecordOf
  rw [hkey, hrow, hseq]
  exact h

variable {s t : State φ} {a : Action φ}

lemma Unsaved.back (h : Unsaved t i call')
    (hadds : KeepsNumbers s.adds t.adds) (hremoved : ∀ j ∈ s.removed, j ∈ t.removed)
    (hindex : ∀ object ∈ s.index, object ∈ t.index) :
    ∃ call, Unsaved s i call ∧ call'.key = call.key ∧ call'.row = call.row ∧
      call'.seqNum = call.seqNum := by
  obtain ⟨call, hcall, hkey, hrow, hseq⟩ := hadds i call' h.made h.logged
  refine ⟨call, ⟨hcall, hseq ▸ h.logged, fun hmem => h.kept (hremoved i hmem), ?_⟩, hkey, hrow, hseq⟩
  exact fun object hobject => h.pending object (hindex object hobject)

lemma Protected.keep (h : Protected s) (hadds : KeepsNumbers s.adds t.adds)
    (hremoved : ∀ j ∈ s.removed, j ∈ t.removed) (hindex : ∀ object ∈ s.index, object ∈ t.index)
    (hlog : ∀ i call, Unsaved s i call → ∀ record ∈ replay s.log.dir, RecordOf i call record →
      record ∈ replay t.log.dir) : Protected t := by
  intro i call' hunsaved
  obtain ⟨call, hcall, hkey, hrow, hseq⟩ := hunsaved.back hadds hremoved hindex
  obtain ⟨record, hmem, hrecord⟩ := h i call hcall
  exact ⟨record, hlog i call hcall record hmem hrecord, hrecord.congr hkey hrow hseq⟩

lemma SparesUnsaved.mem_truncate {n : ℕ} (h : SparesUnsaved s n) (removable : ℕ → Bool)
    (hunsaved : Unsaved s i call) (hmem : record ∈ replay s.log.dir)
    (hrecord : RecordOf i call record) : record ∈ replay (s.log.truncate n removable).dir := by
  obtain ⟨name, hname⟩ := mem_replay.mp hmem
  refine s.log.mem_replay_truncate.mpr ⟨name, hname, ?_⟩
  rw [RecordLog.truncated]
  rcases h i call hunsaved name record hname hrecord with hcurrent | hhigher
  · simp [hcurrent]
  · simp [not_le.mpr hhigher]

lemma Protected.addAppend {row : DataRow φ} (h : Protected s)
    (rotate : Option ℕ) (hrow : encoded json call.row = some row) :
    Protected (s.addAppend i rotate call row) := by
  intro j c hunsaved
  rcases getElem?_set_cases hunsaved.made with ⟨rfl, rfl⟩ | ⟨-, hc⟩
  · refine ⟨s.log.next (.data call.key ⟨i, row⟩), ?_, rfl, ⟨i, row⟩, rfl, rfl, alike_of_encoded hrow⟩
    exact (s.log.mem_replay_next _ _ _).mpr (.inr rfl)
  · obtain ⟨record, hmem, hrecord⟩ := h j c ⟨hc, hunsaved.logged, hunsaved.kept, hunsaved.pending⟩
    exact ⟨record, (s.log.mem_replay_next _ _ _).mpr (.inl hmem), hrecord⟩

lemma Protected.step (h : Protected s) (hg : TruncatesSaved cfg s a) (hs : Step cfg json s a t) :
    Protected t := by
  cases hs with
  | addInsert =>
    exact h.keep (KeepsNumbers.concat s.adds rfl) (fun _ => id) (fun _ => id)
      (fun _ _ _ _ hmem _ => hmem)
  | addAppend i rotate call row hcall hphase hrow => exact h.addAppend rotate hrow
  | addAppendFail i o call row hcall =>
    exact h.keep (KeepsNumbers.set _ hcall rfl rfl rfl) (fun _ => id) (fun _ => id)
      (fun _ _ _ _ hmem _ => s.log.mem_replay_of_appendFail o hmem)
  | addRecord i call hcall | addRollback i call hcall | addReturn i call hcall =>
    exact h.keep (KeepsNumbers.set _ hcall rfl rfl rfl) (fun _ => id) (fun _ => id)
      (fun _ _ _ _ hmem _ => hmem)
  | addFlush i call hcall =>
    exact h.keep (KeepsNumbers.set _ hcall rfl rfl rfl) (by simp [addFlush])
      (by simp [addFlush]) (fun _ _ _ _ hmem _ => by simpa [addFlush] using hmem)
  | flush =>
    exact h.keep (by simp [KeepsNumbers.refl]) (by simp) (by simp)
      (fun _ _ _ _ hmem _ => by simpa using hmem)
  | pool | recoveryCheck | stop =>
    exact h.keep (KeepsNumbers.refl _) (fun _ => id) (fun _ => id) (fun _ _ _ _ hmem _ => hmem)
  | attemptOk =>
    exact h.keep (KeepsNumbers.refl _) (fun _ => id) (fun _ ho => mem_append_left _ ho)
      (fun _ _ _ _ hmem _ => hmem)
  | truncate n removable task p hpool =>
    refine h.keep (KeepsNumbers.refl _) (fun _ => id) (fun _ => id)
      (fun i call hunsaved record hmem hrecord => ?_)
    simp only [truncateTask]
    split
    · rename_i htruncates
      obtain ⟨_, htask, _, _⟩ := Pool.finish_eq hpool
      exact (hg task htask htruncates.1 htruncates.2).mem_truncate removable hunsaved hmem hrecord
    · exact hmem
  | remove =>
    unfold remove
    split <;>
      exact h.keep (KeepsNumbers.refl _) (fun _ hj => mem_append_left _ hj) (fun _ => id)
        (fun _ _ _ _ hmem _ => hmem)
  | tombstone =>
    exact h.keep (KeepsNumbers.refl _) (fun _ => id) (fun _ => id)
      (fun _ _ _ _ hmem _ => (s.log.mem_replay_next _ _ _).mpr (.inl hmem))
  | tombstoneFail table id o =>
    exact h.keep (KeepsNumbers.refl _) (fun _ hj => hj) (fun _ ho => ho)
      (fun _ _ _ _ hmem _ => s.log.mem_replay_of_appendFail o hmem)
  | clearTable =>
    exact h.keep (KeepsNumbers.refl _) (fun _ hj => mem_append_left _ hj) (fun _ => id)
      (fun _ _ _ _ hmem _ => hmem)
  | recoveryTruncate removable n hwatch =>
    exact h.keep (KeepsNumbers.refl _) (fun _ => id) (fun _ => id)
      (fun i call hunsaved record hmem hrecord =>
        (hg n hwatch).mem_truncate removable hunsaved hmem hrecord)
  | stopFlush =>
    exact h.keep (by simp [stopFlush, KeepsNumbers.refl]) (by simp [stopFlush])
      (by simp [stopFlush]) (fun _ _ _ _ hmem _ => by simpa [stopFlush] using hmem)
  | restart name =>
    refine h.keep (KeepsNumbers.lose s.adds) (fun _ => id) (fun _ => id)
      (fun _ _ _ record hmem _ => ?_)
    simp only [State.restart]
    split
    · exact (RecordLog.mem_replay_new s.log.dir name record).mpr hmem
    · exact hmem

variable (cfg json)

/-- In every run whose truncations spare the files of unsaved rows, every row whose
append succeeded and that is neither uploaded nor deleted has its record in the log. -/
theorem unsaved_rows_logged {name : ℕ} {as : List (Action φ)} {s : State φ}
    (hg : Guarded (State.step cfg json) (TruncatesSaved cfg)
      (State.boot cfg Directory.empty name) as)
    (hrun : exec (State.step cfg json) (State.boot cfg Directory.empty name) as = some s) :
    ∀ i call, Unsaved s i call → ∃ record ∈ replay s.log.dir, RecordOf i call record := by
  have hstart : Protected (boot cfg Directory.empty name : State φ) := by
    intro i call hunsaved
    have hcall := hunsaved.made
    simp [boot, State.restart] at hcall
  exact exec_invariant Protected (fun _ _ _ h hg hs => h.step hg (Step.of_step hs)) hstart hg hrun

def State.uploaded (s : State φ) : List ℕ := s.index.flatMap (fun object => object.rows.map Entry.tag)

lemma State.mem_uploaded {s : State φ} :
    i ∈ s.uploaded ↔ ∃ object ∈ s.index, ∃ e ∈ object.rows, e.tag = i := by
  simp [uploaded]

end

def sparesCheck (s : State Unit) (n : ℕ) : Bool :=
  s.log.dir.names.all (fun name => name == s.log.current ||
    decide (n < maxSeq (s.log.dir.contents name)) ||
    (s.log.dir.contents name).all (fun record =>
      match record.body with
      | .data _ e => decide (e.tag ∈ s.removed) || decide (e.tag ∈ s.uploaded)
      | _ => true))

lemma sparesUnsaved_of_check {s : State Unit} {n : ℕ} (h : sparesCheck s n) :
    SparesUnsaved s n := by
  rintro i call hunsaved name record hmem ⟨_, e, hbody, htag, _⟩
  have hfile := List.all_eq_true.mp h name (s.log.dir.mem_names_of_mem hmem)
  rw [Bool.or_eq_true, Bool.or_eq_true, beq_iff_eq, decide_eq_true_eq] at hfile
  rcases hfile with hfile | hrows
  · exact hfile
  · have hrow := List.all_eq_true.mp hrows record hmem
    rw [hbody, Bool.or_eq_true, decide_eq_true_eq, decide_eq_true_eq, htag] at hrow
    rcases hrow with hremoved | huploaded
    · exact absurd hremoved hunsaved.kept
    · obtain ⟨object, hobject, e', he', htag'⟩ := mem_uploaded.mp huploaded
      exact absurd htag' (hunsaved.pending object hobject e' he')

def truncatesSavedCheck (s : State Unit) : Action Unit → Bool
  | .truncate t _ => s.pool.tasks[t]?.all (fun task => sparesCheck s task.maxSeqNum)
  | .recoveryTruncate _ => false
  | _ => true

lemma truncatesSaved_of_check (s : State Unit) (a : Action Unit)
    (h : truncatesSavedCheck s a) : TruncatesSaved oneDay s a := by
  cases a with
  | truncate =>
    intro task htask _ _
    refine sparesUnsaved_of_check ?_
    simpa [truncatesSavedCheck, htask] using h
  | recoveryTruncate => cases h
  | _ => trivial

def flushOneOfTwo (key : String) : List (Action Unit) :=
  addOk 0 (order "u1") (some 2) ++ addOk 1 (order "u2") none ++
    [.flush key, .pool (.submit 0), .pool (.take 0), .attemptOk 0, .truncate 0 (fun _ => true)]

/-- After the flush of the older row, the newer one is unsaved and still logged. -/
theorem unsaved_rows_logged_older_flushed :
    ∃ s call, exec (State.step oneDay some) (State.boot oneDay Directory.empty 1)
        (flushOneOfTwo "orders/u1/2024-01-01") = some s ∧ Unsaved s 1 call ∧
      ∃ record ∈ replay s.log.dir, RecordOf 1 call record := by
  have hcheck : Guarded (step oneDay some) (fun s a => truncatesSavedCheck s a = true)
      (boot oneDay Directory.empty 1) (flushOneOfTwo "orders/u1/2024-01-01") := by decide
  have hviews : (exec (step oneDay some) (boot oneDay Directory.empty 1)
      (flushOneOfTwo "orders/u1/2024-01-01")).map
      (fun s => (s.adds[1]?.map AddCall.seqNum, s.removed, s.uploaded)) =
        some (some (some 2), [], [0]) := by decide
  obtain ⟨s, hrun, hviews⟩ := map_eq_some_iff.mp hviews
  simp only [Prod.mk.injEq] at hviews
  obtain ⟨hadd, hremoved, huploaded⟩ := hviews
  obtain ⟨call, hcall, hseq⟩ := map_eq_some_iff.mp hadd
  have hunsaved : Unsaved s 1 call := by
    refine ⟨hcall, by simp [hseq], by simp [hremoved], fun object hobject e he htag => ?_⟩
    have hmem := mem_uploaded.mpr ⟨object, hobject, e, he, htag⟩
    simp [huploaded] at hmem
  exact ⟨s, call, hrun, hunsaved, unsaved_rows_logged oneDay some
    (hcheck.mono truncatesSaved_of_check) hrun 1 call hunsaved⟩

/-- After the flush of the newer row, the truncation by its number deletes the file of the older
one, which is in the buffer only: its `Add` returned number 1, and the log holds record 2 alone.
-/
theorem truncate_deletes_unsaved_row :
    (exec (State.step oneDay some) (State.boot oneDay Directory.empty 1)
        (flushOneOfTwo "orders/u2/2024-01-01")).map
      (fun s => (s.adds[0]?.map (fun call => (call.phase, call.seqNum)), s.removed, s.uploaded,
        (replay s.log.dir).map LogRecord.seqNum)) =
    some (some (.returned, some 1), [], [1], [2]) := by
  decide

end MinIODB.Buffer
