import MinIODB.Buffer.Identity

/-!
# Deleted rows and crashes

`Remove` writes its tombstone only when it finds a row in the buffer, while the data
record of a row stays in the log until its file is truncated, whether or not the row has
left the buffer with a flush. A deleted row stays deleted through crashes when every
deletion that finds nothing leaves no data record without a later tombstone, deletions
and additions of one pair do not overlap, and the tombstones are really written.
-/
namespace MinIODB.Buffer
open Wal Transition List State RecordLog

section
variable {φ : Type*} (cfg : Config) {json : φ → Option φ}

def Names (table id : String) (row : DataRow φ) : Prop := tableName cfg row = table ∧ row.id = id

instance (table id : String) (row : DataRow φ) : Decidable (Names cfg table id row) :=
  inferInstanceAs (Decidable (_ ∧ _))

def Buried (records : List (LogRecord (Payload (Entry φ)))) (table id : String) : Prop :=
  ∀ record ∈ records, ∀ key e, record.body = .data key e → Names cfg table id e.row →
    ∃ later ∈ records, later.body = .tombstone table id ∧ record.seqNum < later.seqNum

def NoneAppending (s : State φ) (table id : String) : Prop :=
  ∀ call ∈ s.adds, call.phase = .appending → ¬Names cfg table id call.row

def Deletes (s : State φ) : Action φ → Prop
  | .addInsert row => (tableName cfg row, row.id) ∉ s.removing
  | .addAppend _ rotate | .tombstone _ _ rotate => ∀ name ∈ rotate, s.log.current < name
  | .remove table id => NoneAppending cfg s table id ∧
      ((0 < (s.mem.remove Entry.row table id).2 ∧ cfg.walEnabled = true) ∨
        Buried cfg (replay s.log.dir) table id)
  | .tombstoneFail _ _ o => o = .written
  | .truncate _ removable | .recoveryTruncate removable => ∀ name, removable name = true
  | .restart name => s.log.dir.Newest name
  | _ => True

structure Cleared (s : State φ) (table id : String) : Prop where
  buffer : ∀ key, ∀ e ∈ s.mem.buffer.get key, ¬Names cfg table id e.row
  calls : NoneAppending cfg s table id

structure DeletionInv (s : State φ) : Prop where
  order : s.log.Ordered
  gone : ∀ table id, (table, id) ∈ s.gone → Cleared cfg s table id
  removing : ∀ table id, (table, id) ∈ s.removing → Cleared cfg s table id
  buried : ∀ table id, (table, id) ∈ s.gone → Buried cfg (replay s.log.dir) table id

variable {cfg} {s t : State φ} {a : Action φ} {table id : String}

variable {row : DataRow φ} {i : ℕ} {call' : AddCall φ} {l : RecordLog (Payload (Entry φ))}
    {key : String} {e : Entry φ}

lemma Names.alike {row' : DataRow φ} (h : Names cfg table id row) (ha : row.Alike row') :
    Names cfg table id row' :=
  ⟨ha.tableName_eq.symm.trans h.1, ha.1.symm.trans h.2⟩

lemma Cleared.mono (h : Cleared cfg s table id)
    (hbuffer : ∀ key, ∀ e ∈ t.mem.buffer.get key, e ∈ s.mem.buffer.get key)
    (hcalls : ∀ call ∈ t.adds, call.phase = .appending → call ∈ s.adds) : Cleared cfg t table id :=
  ⟨fun key e he => h.buffer key e (hbuffer key e he),
    fun call hcall hphase => h.calls call (hcalls call hcall hphase) hphase⟩

lemma mem_of_set {adds : List (AddCall φ)} (hphase' : call'.phase ≠ .appending) :
    ∀ call ∈ adds.set i call', call.phase = .appending → call ∈ adds := by
  intro call hcall hphase
  rcases mem_or_eq_of_mem_set hcall with hmem | rfl
  · exact hmem
  · exact absurd hphase hphase'

lemma Buried.append {records : List (LogRecord (Payload (Entry φ)))}
    (h : Buried cfg records table id) {records' : List (LogRecord (Payload (Entry φ)))}
    (hold : ∀ record ∈ records, record ∈ records') (hnew : ∀ record ∈ records', record ∈ records ∨
      ∀ key e, record.body = .data key e → ¬Names cfg table id e.row) :
    Buried cfg records' table id := by
  intro record hmem key e hbody hnames
  rcases hnew record hmem with hmem | hother
  · obtain ⟨later, hlater, htomb, hlt⟩ := h record hmem key e hbody hnames
    exact ⟨later, hold later hlater, htomb, hlt⟩
  · exact absurd hnames (hother key e hbody)

lemma Buried.truncate (h : Buried cfg (replay l.dir) table id)
    (horder : l.Ordered) (n : ℕ) {removable : ℕ → Bool} (hall : ∀ name, removable name) :
    Buried cfg (replay (l.truncate n removable).dir) table id := by
  intro record hmem key e hbody hnames
  obtain ⟨name, hname, _⟩ := l.mem_replay_truncate.mp hmem
  obtain ⟨later, hlater, htomb, hlt⟩ := h record (mem_replay.mpr ⟨name, hname⟩) key e hbody hnames
  exact ⟨later, horder.mem_truncate hall hmem hlater hlt, htomb, hlt⟩

lemma buried_tombstone (horder : l.Ordered) (rotate : Option ℕ) (table id : String) :
    Buried cfg (replay (l.append (.tombstone table id) rotate).dir) table id := by
  intro record hmem key e hbody _
  refine ⟨l.next (.tombstone table id), (l.mem_replay_next _ _ _).mpr (.inr rfl), rfl, ?_⟩
  rcases (l.mem_replay_next _ _ _).mp hmem with hmem | rfl
  · exact Nat.lt_succ_of_le (horder.bound record hmem)
  · cases hbody

lemma Buried.not_recovered (h : Buried cfg (replay l.dir) table id) (horder : l.Ordered)
    (hkeys : ∀ record ∈ replay l.dir, ∀ key e, record.body = .data key e → key = bufferKey cfg e.row)
   
    (he : e ∈ (recoverFromWAL Entry.row (replay l.dir)).buffer.get key) :
    ¬Names cfg table id e.row := by
  intro hnames
  obtain ⟨before, record, after, heq, hbody, _, hafter⟩ := (mem_recoverFromWAL _ _ _ _).mp he
  have hmem : record ∈ replay l.dir := by simp [heq]
  obtain ⟨later, hlater, htomb, hlt⟩ := h record hmem key e hbody hnames
  -- a higher number stands further back
  have hin : later ∈ after := by
    have hinc := horder.increasing
    rw [heq] at hlater hinc
    rcases mem_append.mp hlater with hbefore | hrest
    · have hlt' := (pairwise_append.mp hinc).2.2 later hbefore record (by simp)
      omega
    · rcases mem_cons.mp hrest with rfl | hafter
      · exact absurd hlt (lt_irrefl _)
      · exact hafter
  refine hafter later hin ⟨table, ?_, ?_⟩
  · rw [htomb, hnames.2]
  · rw [hkeys record hmem key e hbody, ← hnames.1]
    exact inTable_bufferKey cfg e.row

lemma DeletionInv.keep (h : DeletionInv cfg s) (horder : t.log.Ordered)
    (hbuffer : ∀ key, ∀ e ∈ t.mem.buffer.get key, e ∈ s.mem.buffer.get key)
    (hcalls : ∀ call ∈ t.adds, call.phase = .appending → call ∈ s.adds)
    (hgone : t.gone = s.gone) (hremoving : t.removing = s.removing)
    (hburied : ∀ table id, (table, id) ∈ s.gone → Buried cfg (replay t.log.dir) table id) :
    DeletionInv cfg t := by
  refine ⟨horder, fun table id hmem => ?_, fun table id hmem => ?_, fun table id hmem => ?_⟩
  · exact (h.gone table id (hgone ▸ hmem)).mono hbuffer hcalls
  · exact (h.removing table id (hremoving ▸ hmem)).mono hbuffer hcalls
  · exact hburied table id (hgone ▸ hmem)

lemma get_triggerFlush_subset (s : State φ) (key k : String) :
    ∀ e ∈ (s.triggerFlush cfg key).1.mem.buffer.get k, e ∈ s.mem.buffer.get k := by
  intro e he
  rw [get_triggerFlush] at he
  split at he
  · simp at he
  · exact he

lemma DeletionInv.addInsert (h : DeletionInv cfg s)
    (hg : (tableName cfg row, row.id) ∉ s.removing) :
    DeletionInv cfg (s.addInsert cfg json row) := by
  have hcleared : ∀ table id, (table, id) ≠ (tableName cfg row, row.id) → Cleared cfg s table id →
      Cleared cfg (s.addInsert cfg json row) table id := by
    intro table id hne hc
    have hnot : ¬Names cfg table id row := by
      rintro ⟨rfl, rfl⟩
      exact hne rfl
    refine ⟨fun key e he => ?_, fun call hcall hphase => ?_⟩
    · rw [State.addInsert, Mem.get_insert] at he
      split at he
      · rcases mem_append.mp he with he | he
        · exact hc.buffer _ e he
        · rw [mem_singleton.mp he]
          exact hnot
      · exact hc.buffer key e he
    · rcases mem_append.mp hcall with hmem | hmem
      · exact hc.calls call hmem hphase
      · rw [mem_singleton.mp hmem]
        exact hnot
  refine ⟨h.order, fun table id hmem => ?_, fun table id hmem => ?_, fun table id hmem => ?_⟩
  · obtain ⟨hmem, hne⟩ := mem_filter.mp hmem
    exact hcleared table id (of_decide_eq_true hne) (h.gone table id hmem)
  · exact hcleared table id (fun heq => hg (heq ▸ hmem)) (h.removing table id hmem)
  · exact h.buried table id (mem_filter.mp hmem).1

lemma DeletionInv.addAppend {call : AddCall φ}
    (h : DeletionInv cfg s) (hcall : s.adds[i]? = some call) (hphase : call.phase = .appending)
    (hrow : encoded json call.row = some row) (hphase' : call'.phase ≠ .appending)
    (hmem : t.mem = s.mem) (hadds : t.adds = s.adds.set i call') (hgone : t.gone = s.gone)
    (hremoving : t.removing = s.removing) (horder : t.log.Ordered)
    (hold : ∀ record ∈ replay s.log.dir, record ∈ replay t.log.dir)
    (hnew : ∀ record ∈ replay t.log.dir, record ∈ replay s.log.dir ∨
      record = s.log.next (.data call.key ⟨i, row⟩)) : DeletionInv cfg t := by
  refine h.keep horder (fun _ _ he => hmem ▸ he) (hadds ▸ mem_of_set hphase') hgone hremoving
    (fun table id hpair => (h.buried table id hpair).append hold (fun record hrecord => ?_))
  rcases hnew record hrecord with hrecord | rfl
  · exact .inl hrecord
  · refine .inr (fun key e hbody hnames => ?_)
    cases hbody
    exact (h.gone table id hpair).calls call (mem_of_getElem? hcall) hphase
      (hnames.alike (alike_of_encoded hrow))

lemma mem_remove (hinv : TagInv cfg s)
    (he : e ∈ (s.mem.remove Entry.row table id).1.buffer.get key) :
    e ∈ s.mem.buffer.get key ∧ ¬Names cfg table id e.row := by
  rw [Mem.get_remove] at he
  split at he
  · obtain ⟨he, hid⟩ := mem_filter.mp he
    exact ⟨he, fun hnames => bne_iff_ne.mp hid hnames.2⟩
  · rename_i hin
    refine ⟨he, fun hnames => hin ?_⟩
    rw [hinv.key_eq (hinv.buffer key e he), ← hnames.1]
    exact inTable_bufferKey cfg e.row

lemma DeletionInv.remove (h : DeletionInv cfg s) (hinv : TagInv cfg s)
    (hg : Deletes cfg s (.remove table id)) : DeletionInv cfg (s.remove cfg table id) := by
  have hbuffer : ∀ key, ∀ e ∈ (s.remove cfg table id).mem.buffer.get key,
      e ∈ s.mem.buffer.get key ∧ ¬Names cfg table id e.row := by
    intro key e he
    rw [remove_mem] at he
    exact mem_remove hinv he
  have hold : ∀ {table' id' : String}, Cleared cfg s table' id' →
      Cleared cfg (s.remove cfg table id) table' id' :=
    fun hc => hc.mono (fun key e he => (hbuffer key e he).1) (fun call hcall _ => by simpa using hcall)
  have hpair : Cleared cfg (s.remove cfg table id) table id :=
    ⟨fun key e he => (hbuffer key e he).2, fun call hcall => hg.1 call (by simpa using hcall)⟩
  refine ⟨by simpa using h.order, fun table' id' hmem => ?_, fun table' id' hmem => ?_,
    fun table' id' hmem => ?_⟩
  · rw [remove_gone] at hmem
    split at hmem
    · exact hold (h.gone table' id' hmem)
    · rcases mem_cons.mp hmem with heq | hmem
      · cases heq
        exact hpair
      · exact hold (h.gone table' id' hmem)
  · rw [remove_removing] at hmem
    split at hmem
    · rcases mem_cons.mp hmem with heq | hmem
      · cases heq
        exact hpair
      · exact hold (h.removing table' id' hmem)
    · exact hold (h.removing table' id' hmem)
  · rw [remove_log]
    rw [remove_gone] at hmem
    split at hmem
    · exact h.buried table' id' hmem
    · rename_i hnone
      rcases mem_cons.mp hmem with heq | hmem
      · cases heq
        exact hg.2.resolve_left hnone
      · exact h.buried table' id' hmem

lemma DeletionInv.tombstone (h : DeletionInv cfg s) (hcall : (table, id) ∈ s.removing)
    {rotate : Option ℕ} (hclock : ∀ name ∈ rotate, s.log.current < name) :
    DeletionInv cfg (s.tombstone table id (s.log.append (.tombstone table id) rotate)) := by
  refine ⟨h.order.append _ hclock, fun table' id' hmem => ?_, fun table' id' hmem => ?_,
    fun table' id' hmem => ?_⟩
  · rcases mem_cons.mp hmem with heq | hmem
    · cases heq
      exact (h.removing table id hcall).mono (fun _ _ he => he) (fun _ hc _ => hc)
    · exact (h.gone table' id' hmem).mono (fun _ _ he => he) (fun _ hc _ => hc)
  · exact (h.removing table' id' (mem_of_mem_erase hmem)).mono (fun _ _ he => he)
      (fun _ hc _ => hc)
  · rcases mem_cons.mp hmem with heq | hmem
    · cases heq
      exact buried_tombstone h.order rotate table id
    · refine (h.buried table' id' hmem).append
        (fun record hr => (s.log.mem_replay_next _ _ _).mpr (.inl hr)) (fun record hr => ?_)
      rcases (s.log.mem_replay_next _ _ _).mp hr with hr | rfl
      · exact .inl hr
      · exact .inr (fun key e hbody => by cases hbody)

lemma DeletionInv.restart (h : DeletionInv cfg s) (hinv : TagInv cfg s) {name : ℕ}
    (hg : s.log.dir.Newest name) : DeletionInv cfg (s.restart cfg name) := by
  have hreplay : replay (s.restart cfg name).log.dir = replay s.log.dir := by
    simp only [State.restart]
    split
    · exact replay_new hg
    · rfl
  have horder := ordered_new hg h.order.increasing
  refine ⟨?_, fun table id hmem => ⟨fun key e he => ?_, fun call hcall hphase => ?_⟩, by simp [State.restart],
    fun table id hmem => hreplay ▸ h.buried table id hmem⟩
  · simp only [State.restart]
    split
    · exact horder
    · exact h.order
  · simp only [State.restart, State.recovery] at he
    split at he
    · refine Buried.not_recovered (l := new s.log.dir name) ?_ horder ?_ he
      · rw [replay_new hg]
        exact h.buried table id hmem
      · intro record hrecord k e' hbody
        rw [replay_new hg] at hrecord
        exact hinv.key_eq (hinv.log record hrecord k e' hbody)
    · simp [Recovery.start, Recovery.mem] at he
  · obtain ⟨call', _, rfl⟩ := mem_map.mp hcall
    exact absurd (.inl hphase) (lose_not_inFlight call')

lemma DeletionInv.step (h : DeletionInv cfg s) (hinv : TagInv cfg s) (hg : Deletes cfg s a)
    (hs : Step cfg json s a t) : DeletionInv cfg t := by
  cases hs with
  | addInsert => exact h.addInsert hg
  | addAppend i rotate call row hcall hphase hrow =>
    exact h.addAppend hcall hphase hrow (by simp) rfl rfl rfl rfl (h.order.append _ hg)
      (fun record hr => (s.log.mem_replay_next _ _ _).mpr (.inl hr))
      (fun record hr => (s.log.mem_replay_next _ _ _).mp hr)
  | addAppendFail i o call row hcall hphase hrow =>
    refine h.addAppend hcall hphase hrow ?_ rfl rfl rfl rfl (h.order.appendFail _ o)
      (fun record hr => s.log.mem_replay_of_appendFail o hr)
      (fun record hr => s.log.mem_replay_appendFail hr)
    dsimp only
    split <;> simp
  | addRecord | addReturn =>
    exact h.keep h.order (fun _ _ => id) (mem_of_set (by simp)) rfl rfl h.buried
  | addRollback i call hcall hphase =>
    refine h.keep h.order (fun key e he => ?_) (mem_of_set (by simp)) rfl rfl h.buried
    rw [addRollback, Mem.get_rollback] at he
    split at he
    · rename_i hkey
      exact hkey ▸ mem_of_mem_eraseIdx he
    · exact he
  | addFlush i call =>
    refine h.keep (by simpa [addFlush] using h.order)
      (fun key => get_triggerFlush_subset s call.key key) (mem_of_set ?_) (by simp [addFlush])
      (by simp [addFlush]) (by simpa [addFlush] using h.buried)
    dsimp only
    split <;> simp
  | flush key =>
    exact h.keep (by simpa using h.order) (fun k => get_triggerFlush_subset s key k)
      (fun call hcall _ => by simpa using hcall) (by simp) (by simp) (by simpa using h.buried)
  | pool | attemptOk | recoveryCheck | stop =>
    exact h.keep h.order (fun _ _ => id) (fun _ hc _ => hc) rfl rfl h.buried
  | truncate =>
    simp only [truncateTask]
    split
    · exact h.keep (h.order.truncate _ _) (fun _ _ => id) (fun _ hc _ => hc) rfl rfl
        (fun table id hmem => (h.buried table id hmem).truncate h.order _ hg)
    · exact h.keep h.order (fun _ _ => id) (fun _ hc _ => hc) rfl rfl h.buried
  | remove => exact h.remove hinv hg
  | tombstone table id rotate hcall => exact h.tombstone hcall hg
  | tombstoneFail table id o hcall =>
    have ho : o = .written := hg
    subst ho
    exact h.tombstone hcall (by simp : ∀ name ∈ (none : Option ℕ), s.log.current < name)
  | clearTable =>
    refine h.keep h.order (fun key e he => ?_) (fun _ hc _ => hc) rfl rfl h.buried
    rw [clearTable, Mem.get_clearTable] at he
    split at he
    · simp at he
    · exact he
  | recoveryTruncate =>
    exact h.keep (h.order.truncate _ _) (fun _ _ => id) (fun _ hc _ => hc) rfl rfl
      (fun table id hmem => (h.buried table id hmem).truncate h.order _ hg)
  | stopFlush key =>
    exact h.keep (by simpa [stopFlush] using h.order)
      (fun k => get_triggerFlush_subset s key k)
      (fun call hcall _ => by simpa [stopFlush] using hcall) (by simp [stopFlush])
      (by simp [stopFlush]) (by simpa [stopFlush] using h.buried)
  | restart => exact h.restart hinv hg

lemma deletionInv_boot (cfg : Config) (name : ℕ) : DeletionInv cfg
      (boot cfg (Directory.empty : Directory (LogRecord (Payload (Entry φ)))) name) := by
  refine DeletionInv.restart ⟨⟨?_, ?_, ?_⟩, ?_, ?_, ?_⟩ ⟨?_, ?_, ?_, ?_⟩ ?_ <;>
    simp [replay, Directory.Newest, Mem.empty]

variable (cfg json)

/-- In every run whose steps meet the condition, and through all its crashes, the buffer
holds no row of a pair that was deleted and not added again. -/
theorem removed_rows_stay_removed {name : ℕ} {as : List (Action φ)} {s : State φ}
    (hg : Guarded (State.step cfg json) (Deletes cfg) (State.boot cfg Directory.empty name) as)
    (hrun : exec (State.step cfg json) (State.boot cfg Directory.empty name) as = some s) :
    ∀ table id, (table, id) ∈ s.gone → ∀ key, ∀ e ∈ s.mem.buffer.get key,
      ¬Names cfg table id e.row := by
  have hboth : TagInv cfg s ∧ DeletionInv cfg s :=
    exec_invariant (fun s => TagInv cfg s ∧ DeletionInv cfg s)
      (fun _ _ _ h hg hs => ⟨h.1.step (Step.of_step hs), h.2.step h.1 hg (Step.of_step hs)⟩)
      ⟨tagInv_boot cfg name, deletionInv_boot cfg name⟩ hg hrun
  exact fun table id hmem => (hboth.2.gone table id hmem).buffer

end

def deletesCheck (s : State Unit) : Action Unit → Bool
  | .addInsert row => s.removing.all (fun pair => pair ≠ (tableName oneDay row, row.id))
  | .addAppend _ rotate | .tombstone _ _ rotate => rotate.all (fun name => s.log.current < name)
  | .remove table id =>
    s.adds.all (fun call => decide (call.phase ≠ .appending ∨ ¬Names oneDay table id call.row)) &&
      decide (0 < (s.mem.remove Entry.row table id).2)
  | .tombstoneFail _ _ _ | .truncate _ _ | .recoveryTruncate _ => false
  | .restart name => s.log.dir.names.all (fun m => m ≤ name)
  | _ => true

lemma deletes_of_check (s : State Unit) (a : Action Unit) (h : deletesCheck s a) :
    Deletes oneDay s a := by
  cases a with
  | addInsert =>
    intro hmem
    exact of_decide_eq_true (all_eq_true.mp h _ hmem) rfl
  | addAppend | tombstone =>
    rintro name rfl
    exact of_decide_eq_true h
  | remove =>
    obtain ⟨hcalls, hfound⟩ := (Bool.and_eq_true _ _).mp h
    refine ⟨fun call hcall hphase => ?_, .inl ⟨of_decide_eq_true hfound, rfl⟩⟩
    exact (of_decide_eq_true (all_eq_true.mp hcalls call hcall)).resolve_left (not_not.mpr hphase)
  | tombstoneFail | truncate | recoveryTruncate => cases h
  | restart => exact fun m hm => of_decide_eq_true (all_eq_true.mp h m hm)
  | _ => trivial

/-- A row is added and deleted, and the process crashes: the recovered buffer does not
hold it. -/
theorem removed_rows_stay_removed_crash :
    (exec (State.step oneDay some) (State.boot oneDay Directory.empty 1)
        (addOk 0 (order "u1") none ++
          [.remove "orders" "u1", .tombstone "orders" "u1" none, .restart 2])).map
      State.gone = some [("orders", "u1")] ∧
    ∀ s, exec (State.step oneDay some) (State.boot oneDay Directory.empty 1)
        (addOk 0 (order "u1") none ++
          [.remove "orders" "u1", .tombstone "orders" "u1" none, .restart 2]) = some s →
      ∀ table id, (table, id) ∈ s.gone → ∀ key, ∀ e ∈ s.mem.buffer.get key,
        ¬Names oneDay table id e.row := by
  have hcheck : Guarded (step oneDay some) (fun s a => deletesCheck s a = true)
      (boot oneDay Directory.empty 1)
      (addOk 0 (order "u1") none ++
        [.remove "orders" "u1", .tombstone "orders" "u1" none, .restart 2]) := by decide
  exact ⟨by decide, fun s hrun => removed_rows_stay_removed oneDay some
    (hcheck.mono deletes_of_check) hrun⟩

/-- The row is in a flush task when it is deleted: `Remove` finds nothing and writes no
tombstone, and the recovery brings the row back. -/
theorem removed_row_recovered : (exec (State.step oneDay some) (State.boot oneDay Directory.empty 1)
        (addOk 0 (order "u1") none ++
          [.flush "orders/u1/2024-01-01", .remove "orders" "u1", .restart 2])).map
      (fun s => (s.gone, (s.mem.buffer.get "orders/u1/2024-01-01").map
        (fun e => decide (Names oneDay "orders" "u1" e.row)))) =
    some ([("orders", "u1")], [true]) := by
  decide

end MinIODB.Buffer
