import MinIODB.Buffer.Recovery

/-!
# Recovery after a sequential history

A history of `Add` and `Remove` calls, one after the other and without flushes, leaves
a buffer in memory and a log on disk. This module compares the buffer with what a
recovery rebuilds from the log. The comparison goes through a ledger: the live rows in
order, each with the row that a recovery restores for it, if any.
-/
namespace MinIODB.Buffer
open Wal Recovery List RecordLog

inductive Op (φ : Type*) where
  | add (row : DataRow φ) (rotate : Option ℕ)
  | remove (table id : String) (rotate : Option ℕ)

structure Session (φ : Type*) where
  mem : Mem (DataRow φ)
  log : RecordLog (Payload (DataRow φ))

section
variable {φ : Type*} (cfg : Config) (json : φ → Option φ)

namespace Session

def init (name : ℕ) : Session φ := ⟨Mem.empty, RecordLog.new Directory.empty name⟩

def add (s : Session φ) (r : DataRow φ) (rotate : Option ℕ) : Session φ :=
  match encoded json r with
  | none => { s with mem := s.mem.insert (bufferKey cfg r) r }
  | some r' =>
    { mem := (s.mem.insert (bufferKey cfg r) r).recordSeq (bufferKey cfg r) (s.log.seqNum + 1)
      log := s.log.append (.data (bufferKey cfg r) r') rotate }

def remove (s : Session φ) (table id : String) (rotate : Option ℕ) : Session φ :=
  { mem := (s.mem.remove (fun r => r) table id).1
    log :=
      if 0 < (s.mem.remove (fun r => r) table id).2 then
        s.log.append (.tombstone table id) rotate
      else s.log }

def apply (s : Session φ) : Op φ → Session φ
  | .add r rotate => s.add cfg json r rotate
  | .remove table id rotate => s.remove table id rotate

def run (name : ℕ) (h : List (Op φ)) : Session φ := h.foldl (apply cfg json) (init name)

def recovered (s : Session φ) : Recovery (DataRow φ) :=
  recoverFromWAL (fun r => r) (replay s.log.dir)

end Session

def Op.rotations : Op φ → List ℕ
  | .add _ rotate => rotate.toList
  | .remove _ _ rotate => rotate.toList

def hits (table id : String) (r : DataRow φ) : Bool :=
  inTable table (bufferKey cfg r) && r.id == id

def Op.removes (r : DataRow φ) : Op φ → Bool
  | .add _ _ => false
  | .remove table id _ => hits cfg table id r

def LiveAfter (h : List (Op φ)) (r : DataRow φ) : Prop :=
  ∃ before rotate after, h = before ++ .add r rotate :: after ∧
    ∀ op ∈ after, op.removes cfg r = false

/-- Some `Remove` with this tombstone key found a row. -/
def Deleted (h : List (Op φ)) (key : String) : Prop :=
  ∃ before table id rotate after, h = before ++ .remove table id rotate :: after ∧
    tombstoneKey table id = key ∧
    ∃ r, LiveAfter cfg before r ∧ hits cfg table id r = true

structure Ledger (φ : Type*) where
  rows : List (DataRow φ × Option (DataRow φ))
  tombstones : List String

namespace Ledger

def restored (L : Ledger φ) (r : DataRow φ) : Option (DataRow φ) :=
  if tombstoneKey r.table r.id ∈ L.tombstones then none else encoded json r

def apply (L : Ledger φ) : Op φ → Ledger φ
  | .add r _ => { L with rows := L.rows ++ [(r, L.restored json r)] }
  | .remove table id _ =>
    if L.rows.any (fun p => hits cfg table id p.1) then
      ⟨L.rows.filter (fun p => !hits cfg table id p.1), tombstoneKey table id :: L.tombstones⟩
    else L

def of (h : List (Op φ)) : Ledger φ := h.foldl (apply cfg json) ⟨[], []⟩

def rowsOf (L : Ledger φ) (key : String) : List (DataRow φ × Option (DataRow φ)) :=
  L.rows.filter (fun p => bufferKey cfg p.1 = key)

end Ledger

variable {cfg} {json}

lemma filter_filterMap_snd {q : DataRow φ → Bool} (q' : DataRow φ × Option (DataRow φ) → Bool)
    (l : List (DataRow φ × Option (DataRow φ))) (h : ∀ p ∈ l, ∀ r', p.2 = some r' → q r' = q' p) :
    (l.filterMap Prod.snd).filter q = (l.filter q').filterMap Prod.snd := by
  induction l with
  | nil => rfl
  | cons p l ih =>
    have ih := ih (fun p' hp' => h p' (mem_cons_of_mem _ hp'))
    obtain ⟨r, o⟩ := p
    cases o with
    | none =>
      rw [filterMap_cons_none (by rfl), ih, filter_cons]
      split
      · rw [filterMap_cons_none (by rfl)]
      · rfl
    | some r' =>
      have hq := h (r, some r') (by simp) r' rfl
      rw [filterMap_cons_some (by rfl), filter_cons, filter_cons, ih, hq]
      split
      · rw [filterMap_cons_some (by rfl)]
      · rfl

lemma filterMap_snd_eq_map_fst (l : List (DataRow φ × Option (DataRow φ))) :
    l.filterMap Prod.snd = l.map Prod.fst ↔ ∀ p ∈ l, p.2 = some p.1 := by
  induction l with
  | nil => simp
  | cons p l ih =>
    obtain ⟨r, o⟩ := p
    rw [forall_mem_cons, map_cons]
    cases o with
    | none =>
      rw [filterMap_cons_none (by rfl)]
      constructor
      · intro heq
        have hle := length_filterMap_le Prod.snd l
        have hlen := congrArg length heq
        rw [length_cons, length_map] at hlen
        omega
      · rintro ⟨hnone, _⟩
        cases hnone
    | some =>
      rw [filterMap_cons_some (by rfl), cons_eq_cons, ih]
      simp

variable (cfg json) in
def Recorded (h : List (Op φ)) (p : DataRow φ × Option (DataRow φ)) : Prop :=
  ∃ before r rotate after, h = before ++ .add r rotate :: after ∧
    (∀ op ∈ after, op.removes cfg r = false) ∧ p = (r, (Ledger.of cfg json before).restored json r)

open Ledger

lemma recorded_concat (h : List (Op φ)) (op : Op φ) (p : DataRow φ × Option (DataRow φ)) :
    Recorded cfg json (h ++ [op]) p ↔
      (∃ r rotate, op = .add r rotate ∧ p = (r, (Ledger.of cfg json h).restored json r)) ∨
        (Recorded cfg json h p ∧ op.removes cfg p.1 = false) := by
  constructor
  · rintro ⟨before, r, rotate, after, heq, hafter, rfl⟩
    rcases concat_eq_split.mp heq with ⟨_, rfl, hop⟩ | ⟨rest, rfl, rfl⟩
    · exact .inl ⟨r, rotate, hop.symm, rfl⟩
    · rw [forall_mem_append, forall_mem_singleton] at hafter
      exact .inr ⟨⟨before, r, rotate, rest, rfl, hafter.1, rfl⟩, hafter.2⟩
  · rintro (⟨r, rotate, rfl, rfl⟩ | ⟨⟨before, r, rotate, after, rfl, hafter, rfl⟩, hop⟩)
    · exact ⟨h, r, rotate, [], rfl, by simp, rfl⟩
    · refine ⟨before, r, rotate, after ++ [op], by simp, ?_, rfl⟩
      exact forall_mem_append.mpr ⟨hafter, forall_mem_singleton.mpr hop⟩

lemma deleted_concat (h : List (Op φ)) (op : Op φ) (key : String) :
    Deleted cfg (h ++ [op]) key ↔ Deleted cfg h key ∨
      ∃ table id rotate, op = .remove table id rotate ∧ tombstoneKey table id = key ∧
        ∃ r, LiveAfter cfg h r ∧ hits cfg table id r := by
  constructor
  · rintro ⟨before, table, id, rotate, after, heq, hkey, hrow⟩
    rcases concat_eq_split.mp heq with ⟨_, rfl, hop⟩ | ⟨rest, rfl, rfl⟩
    · exact .inr ⟨table, id, rotate, hop.symm, hkey, hrow⟩
    · exact .inl ⟨before, table, id, rotate, rest, rfl, hkey, hrow⟩
  · rintro (⟨before, table, id, rotate, after, rfl, hkey, hrow⟩ | ⟨table, id, rotate, rfl, hkey, hrow⟩)
    · exact ⟨before, table, id, rotate, after ++ [op], by simp, hkey, hrow⟩
    · exact ⟨h, table, id, rotate, [], rfl, hkey, hrow⟩

namespace Ledger

lemma of_concat (h : List (Op φ)) (op : Op φ) :
    of cfg json (h ++ [op]) = (of cfg json h).apply cfg json op := by
  simp [of]

lemma mem_rows_apply (L : Ledger φ) (op : Op φ) (p : DataRow φ × Option (DataRow φ)) :
    p ∈ (L.apply cfg json op).rows ↔ (∃ r rotate, op = .add r rotate ∧ p = (r, L.restored json r)) ∨
        (p ∈ L.rows ∧ op.removes cfg p.1 = false) := by
  cases op with
  | add => simp [apply, Op.removes, or_comm]
  | remove table id rotate =>
    rw [apply]
    split
    · simp [Op.removes]
    · rename_i hany
      have hall : p ∈ L.rows → hits cfg table id p.1 = false := by
        intro hp
        by_contra hhit
        exact hany (any_eq_true.mpr ⟨p, hp, by simpa using hhit⟩)
      simpa [Op.removes] using hall

lemma mem_tombstones_apply (L : Ledger φ) (op : Op φ) (key : String) :
    key ∈ (L.apply cfg json op).tombstones ↔ key ∈ L.tombstones ∨
      ∃ table id rotate, op = .remove table id rotate ∧ tombstoneKey table id = key ∧
        ∃ p ∈ L.rows, hits cfg table id p.1 := by
  cases op with
  | add => simp [apply]
  | remove table id rotate =>
    rw [apply]
    split
    · rename_i hany
      have hrow := any_eq_true.mp hany
      simp only [mem_cons, Op.remove.injEq]
      constructor
      · rintro (rfl | hmem)
        · exact .inr ⟨table, id, rotate, ⟨rfl, rfl, rfl⟩, rfl, hrow⟩
        · exact .inl hmem
      · rintro (hmem | ⟨_, _, _, ⟨rfl, rfl, rfl⟩, rfl, _⟩)
        · exact .inr hmem
        · exact .inl rfl
    · rename_i hany
      constructor
      · exact .inl
      · rintro (hmem | ⟨_, _, _, heq, _, hrow⟩)
        · exact hmem
        · cases heq
          exact absurd (any_eq_true.mpr hrow) hany

lemma mem_rows (h : List (Op φ)) (p : DataRow φ × Option (DataRow φ)) :
    p ∈ (of cfg json h).rows ↔ Recorded cfg json h p := by
  induction h using reverseRecOn with
  | nil => simp [of, Recorded]
  | append_singleton h op ih => rw [of_concat, mem_rows_apply, recorded_concat, ih]

lemma hits_iff (h : List (Op φ)) (table id : String) :
    (∃ p ∈ (of cfg json h).rows, hits cfg table id p.1) ↔
      ∃ r, LiveAfter cfg h r ∧ hits cfg table id r := by
  constructor
  · rintro ⟨p, hp, hhit⟩
    obtain ⟨before, r, rotate, after, heq, hafter, rfl⟩ := (mem_rows h p).mp hp
    exact ⟨r, ⟨before, rotate, after, heq, hafter⟩, hhit⟩
  · rintro ⟨r, ⟨before, rotate, after, heq, hafter⟩, hhit⟩
    exact ⟨_, (mem_rows h _).mpr ⟨before, r, rotate, after, heq, hafter, rfl⟩, hhit⟩

variable (cfg json) in
lemma mem_tombstones_of (h : List (Op φ)) (key : String) :
    key ∈ (of cfg json h).tombstones ↔ Deleted cfg h key := by
  induction h using reverseRecOn with
  | nil => simp [of, Deleted]
  | append_singleton h op ih =>
    rw [of_concat, mem_tombstones_apply, deleted_concat, ih]
    simp only [hits_iff]

lemma restored_id {L : Ledger φ} {r r' : DataRow φ} (h : L.restored json r = some r') :
    r'.id = r.id := by
  rw [restored] at h
  split at h
  · cases h
  · exact (alike_of_encoded h).1

lemma rowsOf_filter (L : Ledger φ) (table id key : String) (tombstones : List String) :
    rowsOf cfg ⟨L.rows.filter (fun p => !hits cfg table id p.1), tombstones⟩ key =
      if inTable table key then (L.rowsOf cfg key).filter (fun p => p.1.id != id)
      else L.rowsOf cfg key := by
  rw [rowsOf, rowsOf, filter_filter]
  split
  · rename_i hin
    rw [filter_filter]
    refine filter_congr (fun p _ => ?_)
    by_cases hkey : bufferKey cfg p.1 = key
    · simp [hits, hkey, hin, bne]
    · simp [hkey]
  · rename_i hin
    refine filter_congr (fun p _ => ?_)
    by_cases hkey : bufferKey cfg p.1 = key
    · simp [hits, hkey, hin]
    · simp [hkey]

end Ledger

variable (cfg) (json)

structure Agrees (s : Session φ) (L : Ledger φ) : Prop where
  newest : s.log.dir.Newest s.log.current
  live : ∀ key, s.mem.buffer.get key = (L.rowsOf cfg key).map Prod.fst
  recovered : ∀ key, s.recovered.buffer.get key = (L.rowsOf cfg key).filterMap Prod.snd
  tombstones : s.recovered.tombstones = L.tombstones
  images : ∀ p ∈ L.rows, ∀ r', p.2 = some r' → r'.id = p.1.id

variable {cfg} {json} {s : Session φ} {L : Ledger φ}

lemma Ledger.rowsOf_add (L : Ledger φ) (r : DataRow φ) (rotate : Option ℕ) (key : String) :
    (L.apply cfg json (.add r rotate)).rowsOf cfg key =
      if key = bufferKey cfg r then L.rowsOf cfg key ++ [(r, L.restored json r)]
      else L.rowsOf cfg key := by
  by_cases hkey : key = bufferKey cfg r
  · simp [apply, rowsOf, hkey]
  · simp [apply, rowsOf, hkey, Ne.symm hkey]

lemma Agrees.recovered_append (ha : Agrees cfg s L) (body : Payload (DataRow φ))
    {rotate : Option ℕ} (hclock : ∀ name ∈ rotate, s.log.current < name) :
    recoverFromWAL (fun r => r) (replay (s.log.append body rotate).dir) =
      replayRecord (fun r => r) s.recovered (s.log.next body) := by
  rw [s.log.replay_append ha.newest hclock, recoverFromWAL_concat]
  rfl

open Session

lemma Agrees.add (ha : Agrees cfg s L) (r : DataRow φ) {rotate : Option ℕ}
    (hclock : ∀ name ∈ rotate, s.log.current < name) :
    Agrees cfg (s.add cfg json r rotate) (L.apply cfg json (.add r rotate)) := by
  have himages : ∀ p ∈ (L.apply cfg json (.add r rotate)).rows, ∀ r', p.2 = some r' →
      r'.id = p.1.id := by
    intro p hp r' hr'
    rcases mem_append.mp hp with hp | hp
    · exact ha.images p hp r' hr'
    · rw [mem_singleton] at hp
      subst hp
      exact restored_id hr'
  have hlive : ∀ key, (s.mem.insert (bufferKey cfg r) r).buffer.get key =
      ((L.apply cfg json (.add r rotate)).rowsOf cfg key).map Prod.fst := by
    intro key
    rw [Mem.get_insert, rowsOf_add]
    split
    · rename_i hkey
      rw [ha.live, hkey]
      simp
    · exact ha.live key
  cases henc : encoded json r with
  | none =>
    have hrest : L.restored json r = none := by simp [restored, henc]
    have hadd : s.add cfg json r rotate = { s with mem := s.mem.insert (bufferKey cfg r) r } := by
      simp [Session.add, henc]
    rw [hadd]
    refine ⟨ha.newest, hlive, fun key => (ha.recovered key).trans ?_, ha.tombstones, himages⟩
    rw [rowsOf_add, hrest]
    split
    · simp
    · rfl
  | some r' =>
    obtain ⟨hid, _, htable⟩ := alike_of_encoded henc
    have hrec := ha.recovered_append (.data (bufferKey cfg r) r') hclock
    have hadd : s.add cfg json r rotate =
        { mem := (s.mem.insert (bufferKey cfg r) r).recordSeq (bufferKey cfg r) (s.log.seqNum + 1)
          log := s.log.append (.data (bufferKey cfg r) r') rotate } := by
      simp [Session.add, henc]
    rw [hadd]
    refine ⟨s.log.newest_append ha.newest hclock, hlive, fun key => ?_, ?_, himages⟩
    · rw [Session.recovered, hrec, replayRecord, RecordLog.next, get_replayData, rowsOf_add,
        hid, htable, restored, henc]
      change (if _ ∉ s.recovered.tombstones ∧ _ then s.recovered.buffer.get _ ++ [r'] else
        s.recovered.buffer.get key) = _
      rw [ha.tombstones, ha.recovered, ha.recovered]
      by_cases hdel : tombstoneKey r.table r.id ∈ L.tombstones
      · simp only [hdel, not_true_eq_false, false_and, if_false, if_true]
        split
        · simp
        · rfl
      · by_cases hk : key = bufferKey cfg r
        · simp [hdel, hk]
        · simp [hdel, hk]
    · rw [Session.recovered, hrec, replayRecord, RecordLog.next]
      exact (tombstones_replayData _ _ _ _ _).trans ha.tombstones

lemma Agrees.remove_count_pos (ha : Agrees cfg s L) (table id : String) :
    0 < (s.mem.remove (fun r => r) table id).2 ↔
      (L.rows.any (fun p => hits cfg table id p.1)) = true := by
  rw [Nat.pos_iff_ne_zero, ne_eq, Mem.remove_count_eq_zero, any_eq_true]
  push Not
  constructor
  · rintro ⟨key, hin, r, hr, hrid⟩
    rw [ha.live key] at hr
    obtain ⟨p, hp, rfl⟩ := mem_map.mp hr
    obtain ⟨hp, hkey⟩ := mem_filter.mp hp
    refine ⟨p, hp, ?_⟩
    rw [hits, of_decide_eq_true hkey, hin, hrid]
    simp
  · rintro ⟨p, hp, hhit⟩
    rw [hits, Bool.and_eq_true, beq_iff_eq] at hhit
    refine ⟨bufferKey cfg p.1, hhit.1, p.1, ?_, hhit.2⟩
    rw [ha.live]
    exact mem_map.mpr ⟨p, mem_filter.mpr ⟨hp, by simp⟩, rfl⟩

lemma Agrees.remove (ha : Agrees cfg s L) (table id : String) {rotate : Option ℕ}
    (hclock : ∀ name ∈ rotate, s.log.current < name) :
    Agrees cfg (s.remove table id rotate) (L.apply cfg json (.remove table id rotate)) := by
  have hany := ha.remove_count_pos table id
  rw [Session.remove, Ledger.apply]
  by_cases hpos : 0 < (s.mem.remove (fun r => r) table id).2
  · rw [if_pos hpos, if_pos (hany.mp hpos)]
    have hrec := ha.recovered_append (.tombstone table id) hclock
    refine ⟨s.log.newest_append ha.newest hclock, fun key => ?_, fun key => ?_, ?_, ?_⟩
    · rw [Mem.get_remove, ha.live, L.rowsOf_filter]
      split
      · rw [filter_map]
        rfl
      · rfl
    · rw [Session.recovered, hrec, replayRecord, RecordLog.next, get_replayTombstone,
        L.rowsOf_filter]
      change (if inTable table key then (s.recovered.buffer.get key).filter _ else
        s.recovered.buffer.get key) = _
      rw [ha.recovered]
      split
      · refine filter_filterMap_snd _ _ (fun p hp r' hr' => ?_)
        rw [ha.images p (mem_of_mem_filter hp) r' hr']
      · rfl
    · rw [Session.recovered, hrec, replayRecord, RecordLog.next]
      change _ :: s.recovered.tombstones = _
      rw [ha.tombstones]
    · exact fun p hp => ha.images p (mem_of_mem_filter hp)
  · rw [if_neg hpos, if_neg (fun h => hpos (hany.mpr h))]
    refine ⟨ha.newest, fun key => ?_, ha.recovered, ha.tombstones, ha.images⟩
    rw [Nat.pos_iff_ne_zero, not_not, Mem.remove_count_eq_zero] at hpos
    rw [Mem.get_remove, ← ha.live key]
    split
    · rename_i hin
      exact filter_eq_self.mpr (fun r hr => by simpa using hpos key hin r hr)
    · rfl

lemma Session.current_add (s : Session φ) (r : DataRow φ) (rotate : Option ℕ) :
    (s.add cfg json r rotate).log.current ∈ s.log.current :: rotate.toList := by
  unfold add
  split
  · simp
  · cases rotate <;> simp [RecordLog.append]

lemma Session.current_remove (s : Session φ) (table id : String) (rotate : Option ℕ) :
    (s.remove table id rotate).log.current ∈ s.log.current :: rotate.toList := by
  unfold remove
  dsimp only
  split
  · cases rotate <;> simp [RecordLog.append]
  · simp

lemma Agrees.apply (ha : Agrees cfg s L) (op : Op φ) {later : List ℕ}
    (hclock : (s.log.current :: (op.rotations ++ later)).Pairwise (· < ·)) :
    Agrees cfg (s.apply cfg json op) (L.apply cfg json op) ∧
      ((s.apply cfg json op).log.current :: later).Pairwise (· < ·) := by
  have hnext : ∀ name ∈ op.rotations, s.log.current < name :=
    fun name hname => (pairwise_cons.mp hclock).1 name (by simp [hname])
  have hlater : ∀ c ∈ s.log.current :: op.rotations, (c :: later).Pairwise (· < ·) := by
    intro c hc
    have hcut : (s.log.current :: op.rotations ++ later).Pairwise (· < ·) := hclock
    rw [pairwise_append] at hcut
    exact pairwise_cons.mpr ⟨hcut.2.2 c hc, hcut.2.1⟩
  cases op with
  | add r rotate =>
    exact ⟨ha.add r (fun name hname => hnext name (by simpa [Op.rotations] using hname)),
      hlater _ (s.current_add r rotate)⟩
  | remove table id rotate =>
    exact ⟨ha.remove table id (fun name hname => hnext name (by simpa [Op.rotations] using hname)),
      hlater _ (s.current_remove table id rotate)⟩

lemma Agrees.foldl (ha : Agrees cfg s L) (h : List (Op φ))
    (hclock : (s.log.current :: h.flatMap Op.rotations).Pairwise (· < ·)) :
    Agrees cfg (h.foldl (Session.apply cfg json) s) (h.foldl (Ledger.apply cfg json) L) := by
  induction h generalizing s L with
  | nil => exact ha
  | cons op h ih =>
    have hop : Agrees cfg (s.apply cfg json op) (L.apply cfg json op) ∧ _ := ha.apply op hclock
    exact ih hop.1 hop.2

lemma agrees_init (name : ℕ) : Agrees cfg (init name) (⟨[], []⟩ : Ledger φ) := by
  have hempty : replay (init name : Session φ).log.dir = [] :=
    replay_new (by simp [Directory.Newest])
  have hnewest : (init name : Session φ).log.dir.Newest name :=
    Directory.Newest.append (by simp [Directory.Newest]) []
  refine ⟨hnewest, fun key => rfl, fun key => ?_, ?_, by simp⟩
  · rw [recovered, hempty]
    rfl
  · rw [recovered, hempty]
    rfl

lemma Ledger.restored_eq_some (h : List (Op φ)) (r : DataRow φ) :
    (Ledger.of cfg json h).restored json r = some r ↔
      json r.fields = some r.fields ∧ ¬Deleted cfg h (tombstoneKey r.table r.id) := by
  rw [restored, ← mem_tombstones_of cfg json h]
  have hfields : encoded json r = some r ↔ json r.fields = some r.fields := by
    unfold encoded
    constructor
    · intro heq
      obtain ⟨fields, hfields, hr⟩ := Option.map_eq_some_iff.mp heq
      rw [hfields, ← congrArg DataRow.fields hr]
    · intro heq
      simp [heq]
  split
  · rename_i hmem
    simp [hmem]
  · rename_i hmem
    simp [hmem, hfields]

variable (cfg) (json)

/-- Recovery reproduces the buffer after a sequential history exactly when every row
that is still live survives the encoding and was not added after a `Remove` that wrote
a tombstone with the row's own table and id. -/
theorem recovery_reproduces_buffer_iff (name : ℕ) (h : List (Op φ))
    (hclock : (name :: h.flatMap Op.rotations).Pairwise (· < ·)) :
    (∀ key, (Session.run cfg json name h).recovered.buffer.get key =
      (Session.run cfg json name h).mem.buffer.get key) ↔
    ∀ before r rotate after, h = before ++ .add r rotate :: after →
      (∀ op ∈ after, op.removes cfg r = false) →
      json r.fields = some r.fields ∧ ¬Deleted cfg before (tombstoneKey r.table r.id) := by
  have ha : Agrees cfg (Session.run cfg json name h) (Ledger.of cfg json h) :=
    (agrees_init name).foldl h hclock
  have hpairs : (∀ key, (Session.run cfg json name h).recovered.buffer.get key =
      (Session.run cfg json name h).mem.buffer.get key) ↔
      ∀ p ∈ (Ledger.of cfg json h).rows, p.2 = some p.1 := by
    simp only [ha.live, ha.recovered, filterMap_snd_eq_map_fst]
    constructor
    · intro hall p hp
      exact hall (bufferKey cfg p.1) p (mem_filter.mpr ⟨hp, by simp⟩)
    · intro hall key p hp
      exact hall p (mem_of_mem_filter hp)
  rw [hpairs]
  constructor
  · intro hall before r rotate after heq hafter
    have hrestored := hall _ ((mem_rows h _).mpr
      ⟨before, r, rotate, after, heq, hafter, rfl⟩)
    exact (restored_eq_some before r).mp hrestored
  · intro hall p hp
    obtain ⟨before, r, rotate, after, heq, hafter, rfl⟩ := (mem_rows h p).mp hp
    exact (restored_eq_some before r).mpr (hall before r rotate after heq hafter)

end

def update (second : DataRow Unit) : List (Op Unit) :=
  [.add ⟨"u1", 0, "orders", ()⟩ (some 2), .remove "orders" "u1" none, .add second none]

/-- The equivalence at an update that changes the id. -/
theorem recovery_reproduces_buffer_iff_update :
    (1 :: (update ⟨"u2", 0, "orders", ()⟩).flatMap Op.rotations).Pairwise (· < ·) ∧
    ((∀ key, (Session.run oneDay some 1 (update ⟨"u2", 0, "orders", ()⟩)).recovered.buffer.get key =
      (Session.run oneDay some 1 (update ⟨"u2", 0, "orders", ()⟩)).mem.buffer.get key) ↔
    ∀ before r rotate after, update ⟨"u2", 0, "orders", ()⟩ = before ++ .add r rotate :: after →
      (∀ op ∈ after, op.removes oneDay r = false) → (some r.fields : Option Unit) = some r.fields ∧
        ¬Deleted oneDay before (tombstoneKey r.table r.id)) :=
  ⟨by decide, recovery_reproduces_buffer_iff oneDay some 1 _ (by decide)⟩

/-- An update that keeps the id: the row is in memory, and the recovery drops it. -/
theorem readded_row_not_recovered :
    (Session.run oneDay some 1 (update ⟨"u1", 0, "orders", ()⟩)).mem.buffer.get
      "orders/u1/2024-01-01" = [⟨"u1", 0, "orders", ()⟩] ∧
    (Session.run oneDay some 1 (update ⟨"u1", 0, "orders", ()⟩)).recovered.buffer.get
      "orders/u1/2024-01-01" = [] := by
  decide

end MinIODB.Buffer
