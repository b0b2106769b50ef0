import MinIODB.Library.Directory

/-!
# The log as its reader sees it

For the buffer a log is what a replay delivers: files of numbered records, one of
them being written. The content of a record is arbitrary. Appends either succeed, with
or without moving on to a new file, or fail in one of the ways in which the numbering
and the file can differ afterwards.
-/
namespace MinIODB.Wal
open List

structure LogRecord (π : Type*) where
  seqNum : ℕ
  body : π

structure RecordLog (π : Type*) where
  dir : Directory (LogRecord π)
  current : ℕ
  seqNum : ℕ

inductive FailedAppend where
  | refused
  | counted
  | written

def maxSeq {π : Type*} (rs : List (LogRecord π)) : ℕ := rs.foldl (fun m r => max m r.seqNum) 0

def replay {π : Type*} (d : Directory (LogRecord π)) : List (LogRecord π) := d.all

namespace RecordLog

variable {π : Type*}

def new (d : Directory (LogRecord π)) (name : ℕ) : RecordLog π :=
  ⟨d.append name [], name, maxSeq (replay d)⟩

def next (l : RecordLog π) (body : π) : LogRecord π := ⟨l.seqNum + 1, body⟩

def append (l : RecordLog π) (body : π) : Option ℕ → RecordLog π
  | none => ⟨l.dir.append l.current [l.next body], l.current, l.seqNum + 1⟩
  | some name => ⟨(l.dir.append l.current [l.next body]).append name [], name, l.seqNum + 1⟩

def appendFail (l : RecordLog π) (body : π) : FailedAppend → RecordLog π
  | .refused => l
  | .counted => ⟨l.dir, l.current, l.seqNum + 1⟩
  | .written => ⟨l.dir.append l.current [l.next body], l.current, l.seqNum + 1⟩

def truncated (l : RecordLog π) (beforeSeqNum : ℕ) (removable : ℕ → Bool) (name : ℕ) : Bool :=
  name != l.current && removable name && decide (maxSeq (l.dir.contents name) ≤ beforeSeqNum)

def truncate (l : RecordLog π) (beforeSeqNum : ℕ) (removable : ℕ → Bool) : RecordLog π :=
  ⟨l.dir.remove (l.truncated beforeSeqNum removable), l.current, l.seqNum⟩

end RecordLog

variable {π : Type*}

lemma foldl_max (rs : List (LogRecord π)) (m : ℕ) :
    rs.foldl (fun m r => max m r.seqNum) m = max m (maxSeq rs) := by
  unfold maxSeq
  induction rs generalizing m with
  | nil => simp
  | cons r rs ih =>
    rw [foldl_cons, foldl_cons, ih, ih (max 0 r.seqNum)]
    omega

@[simp] theorem maxSeq_nil : maxSeq ([] : List (LogRecord π)) = 0 := rfl

@[simp] theorem maxSeq_cons (r : LogRecord π) (rs : List (LogRecord π)) :
    maxSeq (r :: rs) = max r.seqNum (maxSeq rs) := by
  rw [maxSeq, foldl_cons, foldl_max]
  simp

lemma maxSeq_le_iff (rs : List (LogRecord π)) (n : ℕ) :
    maxSeq rs ≤ n ↔ ∀ r ∈ rs, r.seqNum ≤ n := by
  induction rs with
  | nil => simp
  | cons r rs ih => simp [ih]

lemma le_maxSeq {rs : List (LogRecord π)} {r : LogRecord π} (h : r ∈ rs) : r.seqNum ≤ maxSeq rs :=
  (maxSeq_le_iff rs _).mp le_rfl r h

lemma mem_replay {d : Directory (LogRecord π)} {r : LogRecord π} :
    r ∈ replay d ↔ ∃ name, r ∈ d.contents name := by
  constructor
  · intro h
    obtain ⟨name, _, hr⟩ := mem_flatMap.mp h
    exact ⟨name, hr⟩
  · rintro ⟨name, hr⟩
    exact mem_flatMap.mpr ⟨name, d.mem_names_of_mem hr, hr⟩

lemma mem_replay_append (d : Directory (LogRecord π)) (name : ℕ) (rs : List (LogRecord π))
    (r : LogRecord π) : r ∈ replay (d.append name rs) ↔ r ∈ replay d ∨ r ∈ rs := by
  simp only [mem_replay, Directory.contents_append]
  constructor
  · rintro ⟨other, hr⟩
    split at hr
    · rcases mem_append.mp hr with hr | hr
      · exact .inl ⟨name, hr⟩
      · exact .inr hr
    · exact .inl ⟨other, hr⟩
  · rintro (⟨other, hr⟩ | hr)
    · refine ⟨other, ?_⟩
      split
      · rename_i heq
        exact mem_append_left _ (heq ▸ hr)
      · exact hr
    · exact ⟨name, by simp [hr]⟩

namespace RecordLog

variable (l : RecordLog π)

@[simp] theorem mem_replay_next (body : π) (rotate : Option ℕ) (r : LogRecord π) :
    r ∈ replay (l.append body rotate).dir ↔ r ∈ replay l.dir ∨ r = l.next body := by
  cases rotate with
  | none | some => simp [append, mem_replay_append]

@[simp] theorem append_seqNum (body : π) (rotate : Option ℕ) :
    (l.append body rotate).seqNum = l.seqNum + 1 := by
  cases rotate <;> rfl

variable {body : π} {r r' : LogRecord π} {beforeSeqNum name : ℕ} {removable : ℕ → Bool}
    {rotate : Option ℕ} {d : Directory (LogRecord π)}

lemma mem_replay_appendFail {o : FailedAppend}
    (h : r ∈ replay (l.appendFail body o).dir) : r ∈ replay l.dir ∨ r = l.next body := by
  cases o with
  | refused | counted => exact .inl h
  | written => simpa [appendFail, mem_replay_append] using h

lemma mem_replay_of_appendFail (o : FailedAppend)
    (h : r ∈ replay l.dir) : r ∈ replay (l.appendFail body o).dir := by
  cases o with
  | refused | counted => exact h
  | written => simp [appendFail, mem_replay_append, h]

@[simp] theorem mem_replay_new (d : Directory (LogRecord π)) (name : ℕ) (r : LogRecord π) :
    r ∈ replay (new d name).dir ↔ r ∈ replay d := by
  simp [new, mem_replay_append]

lemma mem_replay_truncate : r ∈ replay (l.truncate beforeSeqNum removable).dir ↔
      ∃ name, r ∈ l.dir.contents name ∧ l.truncated beforeSeqNum removable name = false := by
  rw [mem_replay]
  constructor
  · rintro ⟨name, hr⟩
    obtain ⟨_, hkeep⟩ := (l.dir.mem_names_remove _ name).mp (Directory.mem_names_of_mem _ hr)
    rw [truncate, l.dir.contents_remove _ hkeep] at hr
    exact ⟨name, hr, hkeep⟩
  · rintro ⟨name, hr, hkeep⟩
    refine ⟨name, ?_⟩
    rw [truncate, l.dir.contents_remove _ hkeep]
    exact hr

lemma replay_append (hcur : l.dir.Newest l.current) (hclock : ∀ name ∈ rotate, l.current < name) :
    replay (l.append body rotate).dir = replay l.dir ++ [l.next body] := by
  cases rotate with
  | none => exact hcur.all_append _
  | some name =>
    have hnew := (hcur.append [l.next body]).mono (hclock name rfl)
    exact (hnew.all_append []).trans ((append_nil _).trans (hcur.all_append _))

lemma newest_append (hcur : l.dir.Newest l.current) (hclock : ∀ name ∈ rotate, l.current < name) :
    (l.append body rotate).dir.Newest (l.append body rotate).current := by
  cases rotate with
  | none => exact hcur.append _
  | some name => exact ((hcur.append _).mono (hclock name rfl)).append _

lemma replay_new (h : d.Newest name) : replay (new d name).dir = replay d :=
  (h.all_append []).trans (append_nil _)

structure Ordered : Prop where
  newest : l.dir.Newest l.current
  increasing : (replay l.dir).Pairwise (fun r r' => r.seqNum < r'.seqNum)
  bound : ∀ r ∈ replay l.dir, r.seqNum ≤ l.seqNum

variable {l}

lemma Ordered.concat (h : l.Ordered) (body : π) :
    (replay l.dir ++ [l.next body]).Pairwise (fun r r' => r.seqNum < r'.seqNum) := by
  rw [pairwise_append]
  refine ⟨h.increasing, pairwise_singleton _ _, fun r hr r' hr' => ?_⟩
  rw [mem_singleton.mp hr']
  exact Nat.lt_succ_of_le (h.bound r hr)

lemma Ordered.append (h : l.Ordered) (body : π)
    (hclock : ∀ name ∈ rotate, l.current < name) : (l.append body rotate).Ordered := by
  refine ⟨l.newest_append h.newest hclock, ?_, fun r hr => ?_⟩
  · rw [l.replay_append h.newest hclock]
    exact h.concat body
  · rw [append_seqNum]
    rcases (l.mem_replay_next body rotate r).mp hr with hr | rfl
    · exact (h.bound r hr).trans (Nat.le_succ _)
    · exact le_rfl

lemma Ordered.appendFail (h : l.Ordered) (body : π) (o : FailedAppend) :
    (l.appendFail body o).Ordered := by
  cases o with
  | refused => exact h
  | counted => exact ⟨h.newest, h.increasing, fun r hr => (h.bound r hr).trans (Nat.le_succ _)⟩
  | written => exact h.append body (by simp : ∀ name ∈ (none : Option ℕ), l.current < name)

lemma Ordered.truncate (h : l.Ordered) (beforeSeqNum : ℕ) (removable : ℕ → Bool) :
    (l.truncate beforeSeqNum removable).Ordered := by
  have hsub := l.dir.all_remove_sublist (l.truncated beforeSeqNum removable)
  exact ⟨h.newest.remove _, h.increasing.sublist hsub, fun r hr => h.bound r (hsub.subset hr)⟩

lemma ordered_new (h : d.Newest name)
    (hinc : (replay d).Pairwise (fun r r' => r.seqNum < r'.seqNum)) : (new d name).Ordered := by
  refine ⟨h.append [], ?_, fun r hr => ?_⟩
  · rw [replay_new h]
    exact hinc
  · exact le_maxSeq ((mem_replay_new d name r).mp hr)

lemma Ordered.lt_of_name_lt (h : l.Ordered) {name' : ℕ}
    (hr : r ∈ l.dir.contents name) (hr' : r' ∈ l.dir.contents name') (hlt : name < name') :
    r.seqNum < r'.seqNum := by
  have hsorted := l.dir.names_sorted
  obtain ⟨older, newer, heq⟩ := append_of_mem (l.dir.mem_names_of_mem hr)
  have hnewer : name' ∈ newer := by
    have hin := l.dir.mem_names_of_mem hr'
    rw [heq] at hin hsorted
    rcases mem_append.mp hin with hin | hin
    · have hbefore := (pairwise_append.mp hsorted).2.2 name' hin name (by simp)
      omega
    · exact (mem_cons.mp hin).resolve_left hlt.ne'
  have hfiles := (pairwise_flatMap.mp h.increasing).2
  rw [heq, pairwise_append, pairwise_cons] at hfiles
  exact hfiles.2.1.1 name' hnewer r hr r' hr'

lemma truncated_eq_false (hall : ∀ name, removable name) :
    l.truncated beforeSeqNum removable name = false ↔
      name = l.current ∨ beforeSeqNum < maxSeq (l.dir.contents name) := by
  simp [truncated, hall, or_iff_not_imp_left]

lemma Ordered.mem_truncate (h : l.Ordered) (hall : ∀ name, removable name)
    (hr : r ∈ replay (l.truncate beforeSeqNum removable).dir) (hr' : r' ∈ replay l.dir)
    (hlt : r.seqNum < r'.seqNum) : r' ∈ replay (l.truncate beforeSeqNum removable).dir := by
  obtain ⟨name, hname, hkept⟩ := l.mem_replay_truncate.mp hr
  obtain ⟨name', hname'⟩ := mem_replay.mp hr'
  refine l.mem_replay_truncate.mpr ⟨name', hname', ?_⟩
  rw [truncated_eq_false hall] at hkept ⊢
  by_contra hdeleted
  push Not at hdeleted
  obtain ⟨hclosed, hmax⟩ := hdeleted
  have hle := (le_maxSeq hname').trans hmax
  have hcurrent := h.newest name' (l.dir.mem_names_of_mem hname')
  rcases lt_trichotomy name name' with hbefore | rfl | hafter
  · rcases hkept with hkept | hkept
    · omega
    · -- the kept file holds a number above the bound, so above all of the later file
      obtain ⟨high, hhigh, hgt⟩ : ∃ x ∈ l.dir.contents name, beforeSeqNum < x.seqNum := by
        by_contra hnone
        push Not at hnone
        exact absurd ((maxSeq_le_iff _ _).mpr hnone) (not_le.mpr hkept)
      have hcross := h.lt_of_name_lt hhigh hname' hbefore
      omega
  · rcases hkept with hkept | hkept
    · exact hclosed hkept
    · omega
  · have hcross := h.lt_of_name_lt hname' hname hafter
    omega

end RecordLog
end MinIODB.Wal
