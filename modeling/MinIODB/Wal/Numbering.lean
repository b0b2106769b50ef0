import MinIODB.Wal.Log

/-!
# Sequence numbers

Within one process the counter only grows, so the records on disk carry different
numbers and every append returns a number above all of them, whatever writes, syncs,
rotations and deletions fail. Across processes the counter restarts from the files:
numbers stay unique exactly as long as every start still finds the highest one.
-/
namespace MinIODB.Wal
open Transition List State
open Directory (contents_append_self mem_names_append)

lemma foldl_le_iff {α S : Type*} (f : S → α → S) (μ : S → ℕ) (bounded : α → ℕ → Prop)
    (hf : ∀ s a n, μ (f s a) ≤ n ↔ μ s ≤ n ∧ bounded a n) (as : List α) (s : S) (n : ℕ) :
    μ (as.foldl f s) ≤ n ↔ μ s ≤ n ∧ ∀ a ∈ as, bounded a n := by
  induction as generalizing s with
  | nil => simp
  | cons a as ih => rw [foldl_cons, ih, hf, forall_mem_cons, and_assoc]

lemma toNat_max_le_iff (m q : UInt64) (n : ℕ) :
    (if q > m then q else m).toNat ≤ n ↔ m.toNat ≤ n ∧ q.toNat ≤ n := by
  split
  · rename_i hgt
    have hlt := UInt64.lt_iff_toNat_lt.mp hgt
    omega
  · rename_i hgt
    have hle : q.toNat ≤ m.toNat := not_lt.mp (fun hlt => hgt (UInt64.lt_iff_toNat_lt.mpr hlt))
    omega

section
variable (crc : List UInt8 → UInt32)

def seqs (file : List UInt8) : List ℕ := (delivered crc file).map (fun r => r.seqNum.toNat)

variable {file bs p data : List UInt8} {rs : List Record} {name bound : ℕ} {r : Record}
    {e : OpenEnv} {w' : Handle}

lemma delivered_of_error {e : WalError} (h : readRecords crc file = .error e) :
    delivered crc file = [] := by
  simp [delivered, replayFile, h]

lemma delivered_of_ok {stop : Option WalError}
    (h : readRecords crc file = .ok (rs, stop)) : delivered crc file = rs := by
  simp [delivered, replayFile, h, deliver_collect]

lemma getFileMaxSequence_le_iff {maxSeq : UInt64}
    (h : getFileMaxSequence crc file = .ok maxSeq) (n : ℕ) :
    maxSeq.toNat ≤ n ↔ ∀ q ∈ seqs crc file, q ≤ n := by
  unfold getFileMaxSequence at h
  split at h
  · cases h
  · rename_i rs stop hread
    rw [seqs, delivered_of_ok crc hread, ← Except.ok.inj h, forall_mem_map]
    rw [foldl_le_iff _ UInt64.toNat (fun r n => r.seqNum.toNat ≤ n)
      (fun m r n => toNat_max_le_iff m r.seqNum n)]
    simp

lemma seqs_of_error {e : WalError}
    (h : getFileMaxSequence crc file = .error e) : seqs crc file = [] := by
  unfold getFileMaxSequence at h
  split at h
  · rename_i e' hread
    rw [seqs, delivered_of_error crc hread, map_nil]
  · cases h

lemma findLastSequence_le_iff (d : Directory UInt8) (n : ℕ) : (findLastSequence crc d).toNat ≤ n ↔
      ∀ name ∈ d.names, ∀ q ∈ seqs crc (d.contents name), q ≤ n := by
  rw [findLastSequence, foldl_le_iff _ UInt64.toNat
    (fun name n => ∀ q ∈ seqs crc (d.contents name), q ≤ n)]
  · simp
  · intro m name n
    split
    · rename_i e herr
      simp [seqs_of_error crc herr]
    · rename_i seq hseq
      rw [toNat_max_le_iff, getFileMaxSequence_le_iff crc hseq]

lemma le_findLastSequence (d : Directory UInt8) (hname : name ∈ d.names) {q : ℕ}
    (hq : q ∈ seqs crc (d.contents name)) : q ≤ (findLastSequence crc d).toNat :=
  (findLastSequence_le_iff crc d _).mp le_rfl name hname q hq

lemma record_le_findLastSequence (d : Directory UInt8) (hr : r ∈ records crc d) :
    r.seqNum.toNat ≤ (findLastSequence crc d).toNat := by
  obtain ⟨name, hname, hr⟩ := mem_flatMap.mp hr
  exact le_findLastSequence crc d hname (mem_map.mpr ⟨r, hr, rfl⟩)

lemma delivered_of_part (hrs : ∀ r ∈ rs, r.data.length ≤ MaxRecordSize)
    (h : bs <+: fileStream crc rs) : ∃ k, delivered crc bs = rs.take k := by
  rw [prefix_iff_eq_take.mp h]
  exact ⟨_, delivered_take crc rs hrs bs.length⟩

lemma delivered_of_cut (hrs : ∀ r' ∈ rs ++ [r], r'.data.length ≤ MaxRecordSize)
    (h : bs <+: fileStream crc (rs ++ [r])) (hlt : bs.length < (fileStream crc (rs ++ [r])).length) :
    ∃ k, delivered crc bs = rs.take k := by
  have htake := delivered_take crc (rs ++ [r]) hrs bs.length
  rw [← prefix_iff_eq_take.mp h] at htake
  have hcount := ((recordCode crc).lt_wholeCount_iff (rs ++ [r]) (bs.length - FileHeaderSize)
    rs.length (by simp)).not
  have hlast : 25 ≤ ((recordCode crc).stream (rs ++ [r])).length := by
    simp [recordCode, writeRecord_length]
    omega
  have hle : (recordCode crc).wholeCount (rs ++ [r]) (bs.length - FileHeaderSize) ≤ rs.length := by
    rw [← not_lt, hcount, take_of_length_le (by simp), not_le]
    rw [fileStream, length_append, fileHeader_length] at hlt
    omega
  rw [htake, take_append_of_le_length hle]
  exact ⟨_, rfl⟩

structure Continues (d : Directory UInt8) (file : ℕ) (rs : List Record) : Prop where
  valid : ∀ r ∈ rs, r.data.length ≤ MaxRecordSize
  increasing : (rs.map (fun r => r.seqNum.toNat)).Pairwise (· < ·)
  above : ∀ name ∈ d.names, name ≠ file → ∀ q ∈ seqs crc (d.contents name),
    ∀ r ∈ rs, q < r.seqNum.toNat

structure DirInv (d : Directory UInt8) : Prop where
  written : ∀ name ∈ d.names, ∃ rs : List Record, (∀ r ∈ rs, r.data.length ≤ MaxRecordSize) ∧
    d.contents name <+: fileStream crc rs
  nodup : ∀ name ∈ d.names, (seqs crc (d.contents name)).Nodup
  disjoint : ∀ name ∈ d.names, ∀ other ∈ d.names, name ≠ other →
    List.Disjoint (seqs crc (d.contents name)) (seqs crc (d.contents other))

structure LogInv (d : Directory UInt8) (w : Handle) : Prop extends DirInv crc d where
  current : w.file ∈ d.names
  below : ∀ name ∈ d.names, ∀ q ∈ seqs crc (d.contents name), q ≤ w.seqNum.toNat
  writing : w.writeErr = false → ∃ rs, Continues crc d w.file rs ∧
    (∀ r ∈ rs, r.seqNum.toNat ≤ w.seqNum.toNat) ∧ d.contents w.file ++ w.buffered = fileStream crc rs

variable {crc} {d : Directory UInt8} {w : Handle}

lemma Continues.append {file : ℕ} (h : Continues crc d file rs)
    (p : List UInt8) : Continues crc (d.append file p) file rs := by
  refine ⟨h.valid, h.increasing, ?_⟩
  intro name hname hne q hq
  rw [d.contents_append_ne p hne] at hq
  rw [mem_names_append] at hname
  exact h.above name (hname.resolve_left hne) hne q hq

lemma Continues.concat {file : ℕ}
    (h : Continues crc d file rs) (hr : r.data.length ≤ MaxRecordSize)
    (hrs : ∀ r' ∈ rs, r'.seqNum.toNat ≤ bound)
    (hd : ∀ name ∈ d.names, ∀ q ∈ seqs crc (d.contents name), q ≤ bound)
    (hseq : bound < r.seqNum.toNat) : Continues crc d file (rs ++ [r]) := by
  constructor
  · intro r' hr'
    rcases mem_append.mp hr' with hr' | hr'
    · exact h.valid r' hr'
    · rw [mem_singleton.mp hr']
      exact hr
  · rw [map_append, pairwise_append]
    refine ⟨h.increasing, by simp, ?_⟩
    intro a ha b hb
    obtain ⟨r', hr', rfl⟩ := mem_map.mp ha
    rw [map_singleton, mem_singleton] at hb
    rw [hb]
    exact (hrs r' hr').trans_lt hseq
  · intro name hname hne q hq r' hr'
    rcases mem_append.mp hr' with hr' | hr'
    · exact h.above name hname hne q hq r' hr'
    · rw [mem_singleton.mp hr']
      exact (hd name hname q hq).trans_lt hseq

lemma Continues.nil (d : Directory UInt8) (file : ℕ) : Continues crc d file [] :=
  ⟨by simp, by simp, by simp⟩

lemma DirInv.extend (h : DirInv crc d) {file : ℕ}
    (hc : Continues crc d file rs) (hp : d.contents file ++ p <+: fileStream crc rs) :
    DirInv crc (d.append file p) := by
  obtain ⟨k, hk⟩ := delivered_of_part crc hc.valid hp
  have hself : ∀ q ∈ seqs crc ((d.append file p).contents file), ∃ r ∈ rs, r.seqNum.toNat = q := by
    intro q hq
    rw [contents_append_self, seqs, hk] at hq
    obtain ⟨r, hr, rfl⟩ := mem_map.mp hq
    exact ⟨r, mem_of_mem_take hr, rfl⟩
  have hother : ∀ name ∈ (d.append file p).names, name ≠ file →
      ∀ q ∈ seqs crc ((d.append file p).contents name),
        q ∉ seqs crc ((d.append file p).contents file) := by
    intro name hname hne q hq hq'
    obtain ⟨r, hr, rfl⟩ := hself q hq'
    exact ((hc.append p).above name hname hne _ hq r hr).false
  constructor
  · intro name hname
    by_cases hne : name = file
    · exact ⟨rs, hc.valid, by rwa [hne, contents_append_self]⟩
    · rw [d.contents_append_ne p hne]
      exact h.written name (((d.mem_names_append file name p).mp hname).resolve_left hne)
  · intro name hname
    by_cases hne : name = file
    · rw [hne, contents_append_self, seqs, hk, map_take]
      exact (hc.increasing.imp Nat.ne_of_lt).sublist (take_sublist k _)
    · rw [d.contents_append_ne p hne]
      exact h.nodup name (((d.mem_names_append file name p).mp hname).resolve_left hne)
  · intro name hname other hother' hne q hq hq'
    by_cases hn : name = file
    · subst hn
      exact hother other hother' (Ne.symm hne) q hq' hq
    · by_cases ho : other = file
      · subst ho
        exact hother name hname hn q hq hq'
      · rw [d.contents_append_ne p hn] at hq
        rw [d.contents_append_ne p ho] at hq'
        exact h.disjoint name (((d.mem_names_append file name p).mp hname).resolve_left hn)
          other (((d.mem_names_append file other p).mp hother').resolve_left ho) hne hq hq'

lemma below_append {file : ℕ} (h : ∀ name ∈ d.names, ∀ q ∈ seqs crc (d.contents name), q ≤ bound)
    (hp : ∀ q ∈ seqs crc (d.contents file ++ p), q ≤ bound) :
    ∀ name ∈ (d.append file p).names, ∀ q ∈ seqs crc ((d.append file p).contents name),
      q ≤ bound := by
  intro name hname q hq
  by_cases hne : name = file
  · rw [hne, contents_append_self] at hq
    exact hp q hq
  · rw [d.contents_append_ne p hne] at hq
    exact h name (((d.mem_names_append file name p).mp hname).resolve_left hne) q hq

lemma seqs_le_of_take {k : ℕ}
    (h : delivered crc bs = rs.take k) (hrs : ∀ r ∈ rs, r.seqNum.toNat ≤ bound) :
    ∀ q ∈ seqs crc bs, q ≤ bound := by
  intro q hq
  rw [seqs, h] at hq
  obtain ⟨r, hr, rfl⟩ := mem_map.mp hq
  exact hrs r (mem_of_mem_take hr)

lemma DirInv.remove (h : DirInv crc d) (p : ℕ → Bool) : DirInv crc (d.remove p) := by
  constructor
  · intro name hname
    obtain ⟨hname, hp⟩ := (d.mem_names_remove p name).mp hname
    rw [d.contents_remove p hp]
    exact h.written name hname
  · intro name hname
    obtain ⟨hname, hp⟩ := (d.mem_names_remove p name).mp hname
    rw [d.contents_remove p hp]
    exact h.nodup name hname
  · intro name hname other hother hne
    obtain ⟨hname, hp⟩ := (d.mem_names_remove p name).mp hname
    obtain ⟨hother, hp'⟩ := (d.mem_names_remove p other).mp hother
    rw [d.contents_remove p hp, d.contents_remove p hp']
    exact h.disjoint name hname other hother hne

variable (crc) in
lemma seqs_create (hname : name ∉ d.names) (hp : p <+: fileHeader) :
    seqs crc ((d.append name p).contents name) = [] := by
  have hpart : p <+: fileStream crc [] := by simpa [fileStream] using hp
  obtain ⟨k, hk⟩ := delivered_of_part crc (by simp) hpart
  rw [contents_append_self, d.contents_of_notMem name hname, nil_append, seqs, hk]
  simp

lemma DirInv.create (h : DirInv crc d) (hname : name ∉ d.names)
    (hp : p <+: fileHeader) : DirInv crc (d.append name p) := by
  refine h.extend (Continues.nil d name) ?_
  rw [d.contents_of_notMem name hname]
  simpa [fileStream] using hp

lemma LogInv.create (h : LogInv crc d w) (hname : name ∉ d.names)
    (hp : p <+: fileHeader) : LogInv crc (d.append name p) w := by
  have hne : w.file ≠ name := fun heq => hname (heq ▸ h.current)
  have hempty := seqs_create crc hname hp
  refine ⟨h.toDirInv.create hname hp, by simp [h.current], ?_, ?_⟩
  · refine below_append h.below ?_
    rw [← contents_append_self, hempty]
    simp
  · intro hw
    obtain ⟨rs, hc, hle, heq⟩ := h.writing hw
    refine ⟨rs, ⟨hc.valid, hc.increasing, ?_⟩, hle, by rwa [d.contents_append_ne p hne]⟩
    intro other hother hother' q hq
    by_cases heq' : other = name
    · rw [heq', hempty] at hq
      simp at hq
    · rw [d.contents_append_ne p heq'] at hq
      exact hc.above other (((d.mem_names_append name other p).mp hother).resolve_left heq')
        hother' q hq

lemma createFile_cases {P : Directory UInt8 → Prop} (h : P d)
    (hcreate : ∀ p, p <+: fileHeader → P (d.append e.name p)) : P (createFile d e).1 := by
  unfold createFile
  split
  · exact h
  · split
    · exact hcreate _ (List.take_prefix _ _)
    · exact hcreate _ (prefix_refl _)

lemma createFile_ok (h : (createFile d e).2) :
    (createFile d e).1 = d.append e.name fileHeader := by
  unfold createFile at h ⊢
  split
  · simp_all
  · split
    · simp_all
    · rfl

lemma DirInv.createFile (h : DirInv crc d) (hname : e.name ∉ d.names) :
    DirInv crc (createFile d e).1 :=
  createFile_cases h (fun _ hp => h.create hname hp)

lemma LogInv.createFile (h : LogInv crc d w) (hname : e.name ∉ d.names) :
    LogInv crc (createFile d e).1 w :=
  createFile_cases (P := fun d => LogInv crc d w) h (fun _ hp => h.create hname hp)

lemma LogInv.pass (h : LogInv crc d w) (hfile : w'.file = w.file) (hc : Continues crc d w.file rs)
    (hp : d.contents w.file ++ p <+: fileStream crc rs) (hseq : w.seqNum.toNat ≤ w'.seqNum.toNat)
    (hle : ∀ q ∈ seqs crc (d.contents w.file ++ p), q ≤ w'.seqNum.toNat)
    (hw : w'.writeErr = false → (∀ r ∈ rs, r.seqNum.toNat ≤ w'.seqNum.toNat) ∧
      d.contents w.file ++ p ++ w'.buffered = fileStream crc rs) :
    LogInv crc (d.append w.file p) w' := by
  refine ⟨h.toDirInv.extend hc hp, by simp [hfile], ?_, ?_⟩
  · exact below_append (fun name hname q hq => (h.below name hname q hq).trans hseq) hle
  · intro herr
    obtain ⟨hrs, heq⟩ := hw herr
    refine ⟨rs, ?_, hrs, ?_⟩
    · rw [hfile]
      exact hc.append p
    · rw [hfile, contents_append_self]
      exact heq

lemma LogInv.bufFlush (h : LogInv crc d w) (o : Outcome) :
    LogInv crc (bufFlush d w o).1 (bufFlush d w o).2.1 := by
  unfold Wal.bufFlush
  split
  · exact h
  · rename_i hw
    obtain ⟨rs, hc, hle, heq⟩ := h.writing (by simpa using hw)
    have hrs : ∀ {p : List UInt8}, d.contents w.file ++ p <+: fileStream crc rs →
        ∀ q ∈ seqs crc (d.contents w.file ++ p), q ≤ w.seqNum.toNat := by
      intro p hp
      obtain ⟨k, hk⟩ := delivered_of_part crc hc.valid hp
      exact seqs_le_of_take hk hle
    split
    · exact h
    · split
      · have hp : d.contents w.file ++ w.buffered <+: fileStream crc rs := by rw [heq]
        refine h.pass rfl hc hp le_rfl (hrs hp) (fun _ => ⟨hle, ?_⟩)
        rw [append_nil, heq]
      · have hp : d.contents w.file ++ w.buffered.take (min o.flushed (w.buffered.length - 1)) <+:
            fileStream crc rs := by
          rw [← heq]
          exact (prefix_append_right_inj _).mpr (List.take_prefix _ _)
        exact h.pass rfl hc hp le_rfl (hrs hp) (by simp)

lemma LogInv.sync (h : LogInv crc d w) (o : Outcome) (fsync : Bool) :
    LogInv crc (sync d w o fsync).1 (sync d w o fsync).2.1 :=
  h.bufFlush o

@[simp] theorem bufFlush_seqNum (d : Directory UInt8) (w : Handle) (o : Outcome) :
    (bufFlush d w o).2.1.seqNum = w.seqNum := by
  unfold bufFlush
  split_ifs <;> rfl

lemma bufFlush_append (d : Directory UInt8) (w : Handle) (o : Outcome) :
    (bufFlush d w o).1 = d ∨ ∃ p, (bufFlush d w o).1 = d.append w.file p := by
  unfold bufFlush
  split
  · exact .inl rfl
  · split
    · exact .inl rfl
    · split
      · exact .inr ⟨_, rfl⟩
      · exact .inr ⟨_, rfl⟩

section
variable (h : LogInv crc d w)
include h

lemma LogInv.move (hmem : w'.file ∈ d.names)
    (hheader : d.contents w'.file = fileHeader) (hbuf : w'.buffered = [])
    (hseq : w'.seqNum = w.seqNum) : LogInv crc d w' := by
  refine ⟨h.toDirInv, hmem, by rw [hseq]; exact h.below, ?_⟩
  intro _
  refine ⟨[], Continues.nil d w'.file, by simp, ?_⟩
  rw [hheader, hbuf]
  rfl

lemma LogInv.openNewFile (hname : e.name ∉ d.names)
    (o : Outcome) : LogInv crc (openNewFile d w e o).1 (openNewFile d w e o).2 := by
  have hcreated := h.createFile hname
  have hne : e.name ≠ w.file := fun heq => hname (heq ▸ h.current)
  unfold Wal.openNewFile
  split
  · rename_i hok
    have heq := createFile_ok hok
    have hmem : e.name ∈ (Wal.createFile d e).1.names := by simp [heq]
    have hcontents : (Wal.createFile d e).1.contents e.name = fileHeader := by
      simp [heq, d.contents_of_notMem e.name hname]
    refine (hcreated.bufFlush o).move ?_ ?_ rfl (by simp)
    · rcases bufFlush_append (Wal.createFile d e).1 w o with hsame | ⟨p, hp⟩
      · rwa [hsame]
      · rw [hp]
        simp [hmem]
    · rcases bufFlush_append (Wal.createFile d e).1 w o with hsame | ⟨p, hp⟩
      · rwa [hsame]
      · rw [hp]
        exact (Directory.contents_append_ne _ p hne).trans hcontents
  · exact hcreated

lemma LogInv.fresh_bufFlush (hname : name ∉ d.names)
    (o : Outcome) : name ∉ (Wal.bufFlush d w o).1.names := by
  rcases bufFlush_append d w o with heq | ⟨p, heq⟩
  · rwa [heq]
  · rw [heq, mem_names_append]
    rintro (rfl | hmem)
    · exact hname h.current
    · exact hname hmem

lemma LogInv.appendRotate (cfg : Config) {e : AppendEnv}
    (hname : e.rotate.name ∉ d.names) :
    LogInv crc (appendRotate cfg d w e).1 (appendRotate cfg d w e).2.1 := by
  unfold Wal.appendRotate
  split
  · exact h.openNewFile hname e.rotateFlush
  · exact h

lemma LogInv.appendSync (cfg : Config) {e : AppendEnv}
    (hname : e.rotate.name ∉ d.names) :
    LogInv crc (appendSync cfg d w e).1 (appendSync cfg d w e).2.1 := by
  have hsync := h.sync e.flush e.fsync
  have hfresh := h.fresh_bufFlush hname e.flush
  unfold Wal.appendSync
  split
  · split
    · exact hsync.appendRotate cfg hfresh
    · exact hsync
  · split
    · exact hsync.appendRotate cfg hfresh
    · exact h.appendRotate cfg hname

end

section
variable (cfg : Config)

@[simp] theorem appendRotate_seqNum (d : Directory UInt8) (w : Handle)
    (e : AppendEnv) : (appendRotate cfg d w e).2.1.seqNum = w.seqNum := by
  unfold appendRotate openNewFile
  split_ifs <;> rfl

@[simp] theorem appendRotate_result (d : Directory UInt8) (w : Handle)
    (e : AppendEnv) : (appendRotate cfg d w e).2.2 = .ok w.seqNum := by
  unfold appendRotate
  split_ifs <;> rfl

@[simp] theorem appendSync_seqNum (d : Directory UInt8) (w : Handle)
    (e : AppendEnv) : (appendSync cfg d w e).2.1.seqNum = w.seqNum := by
  unfold appendSync
  split_ifs <;> simp [sync]

lemma appendSync_result (d : Directory UInt8) (w : Handle) (e : AppendEnv)
    {seqNum : UInt64} (h : (appendSync cfg d w e).2.2 = .ok seqNum) : seqNum = w.seqNum := by
  unfold appendSync at h
  split_ifs at h <;> simp_all [sync]

end

@[simp] theorem bufWrite_seqNum (d : Directory UInt8) (w : Handle) (p : List UInt8) (o : Outcome) :
    (bufWrite d w p o).2.1.seqNum = w.seqNum := by
  unfold bufWrite
  split_ifs <;> rfl

@[simp] theorem appendWrite_seqNum (d : Directory UInt8) (w : Handle) (recordType : UInt8)
    (data : List UInt8) (e : AppendEnv) :
    (appendWrite crc d w recordType data e).2.1.seqNum = w.seqNum + 1 := by
  simp [appendWrite]

variable (crc) in
lemma append_seqNum (cfg : Config) (d : Directory UInt8) (w : Handle) (recordType : UInt8)
    (data : List UInt8) (e : AppendEnv) :
    (∀ seqNum, (append crc cfg d w recordType data e).2.2 = .ok seqNum →
      seqNum = w.seqNum + 1 ∧ (append crc cfg d w recordType data e).2.1.seqNum = w.seqNum + 1) ∧
    ((append crc cfg d w recordType data e).2.1.seqNum = w.seqNum ∨
      (append crc cfg d w recordType data e).2.1.seqNum = w.seqNum + 1) := by
  unfold append
  split
  · exact ⟨by simp, .inl rfl⟩
  · split
    · exact ⟨by simp, .inl rfl⟩
    · split
      · refine ⟨fun seqNum hok => ?_, by simp⟩
        have heq := appendSync_result cfg _ _ e hok
        exact ⟨by simpa using heq, by simp⟩
      · exact ⟨by simp, .inl (by simp)⟩

lemma toNat_succ {n : UInt64} (hn : n.toNat + 1 < 2 ^ 64) : (n + 1).toNat = n.toNat + 1 := by
  rw [UInt64.toNat_add]
  exact Nat.mod_eq_of_lt hn

lemma LogInv.next (h : LogInv crc d w) (hn : w.seqNum.toNat + 1 < 2 ^ 64)
    (hw : w.writeErr = false) (recordType : UInt8)
    (hdata : data.length ≤ MaxRecordSize) (e : AppendEnv) :
    ∃ rs, Continues crc d w.file (rs ++ [nextRecord w recordType data e]) ∧
      (∀ r ∈ rs, r.seqNum.toNat ≤ w.seqNum.toNat) ∧
      d.contents w.file ++ (w.buffered ++ writeRecord crc (nextRecord w recordType data e)) =
        fileStream crc (rs ++ [nextRecord w recordType data e]) := by
  obtain ⟨rs, hc, hle, heq⟩ := h.writing hw
  have hnext : w.seqNum.toNat < (nextRecord w recordType data e).seqNum.toNat := by
    rw [nextRecord, toNat_succ hn]
    omega
  refine ⟨rs, hc.concat hdata hle h.below hnext, hle, ?_⟩
  rw [← append_assoc, heq]
  simp [fileStream, recordCode]

lemma LogInv.appendWrite (h : LogInv crc d w) (hn : w.seqNum.toNat + 1 < 2 ^ 64)
    (recordType : UInt8) (hdata : data.length ≤ MaxRecordSize) (e : AppendEnv) :
    ((appendWrite crc d w recordType data e).2.2 →
      LogInv crc (appendWrite crc d w recordType data e).1
        (appendWrite crc d w recordType data e).2.1) ∧
    ((appendWrite crc d w recordType data e).2.2 = false →
      LogInv crc (appendWrite crc d w recordType data e).1
        { (appendWrite crc d w recordType data e).2.1 with seqNum := w.seqNum }) := by
  unfold Wal.appendWrite bufWrite
  split
  · exact ⟨by simp, fun _ => h⟩
  · rename_i hw
    obtain ⟨rs, hc, hle, hstream⟩ := h.next hn (by simpa using hw) recordType hdata e
    have hpart : ∀ n, d.contents w.file ++
        (w.buffered ++ writeRecord crc (nextRecord w recordType data e)).take n <+:
          fileStream crc (rs ++ [nextRecord w recordType data e]) := by
      intro n
      rw [← hstream]
      exact (prefix_append_right_inj _).mpr (List.take_prefix _ _)
    split
    · refine ⟨fun _ => ?_, by simp⟩
      have hle' : ∀ r ∈ rs ++ [nextRecord w recordType data e],
          r.seqNum.toNat ≤ (w.seqNum + 1).toNat := by
        rw [forall_mem_append, forall_mem_singleton, toNat_succ hn, nextRecord, toNat_succ hn]
        exact ⟨fun r hr => (hle r hr).trans (Nat.le_succ _), le_rfl⟩
      obtain ⟨k, hk⟩ := delivered_of_part crc hc.valid (hpart e.write.flushed)
      refine h.pass rfl hc (hpart _) ?_ (seqs_le_of_take hk hle') (fun _ => ⟨hle', ?_⟩)
      · dsimp only
        rw [toNat_succ hn]
        omega
      · dsimp only
        rw [append_assoc, take_append_drop, hstream]
    · refine ⟨by simp, fun _ => ?_⟩
      have hlen : (writeRecord crc (nextRecord w recordType data e)).length ≠ 0 := by
        rw [writeRecord_length]
        omega
      obtain ⟨k, hk⟩ := delivered_of_cut crc hc.valid
        (hpart (min e.write.flushed
          ((w.buffered ++ writeRecord crc (nextRecord w recordType data e)).length - 1))) (by
          rw [← hstream]
          simp only [length_append, length_take]
          omega)
      exact h.pass rfl hc (hpart _) le_rfl (seqs_le_of_take hk hle) (by simp)

lemma bufWrite_append (d : Directory UInt8) (w : Handle) (p : List UInt8) (o : Outcome) :
    (bufWrite d w p o).1 = d ∨ ∃ p', (bufWrite d w p o).1 = d.append w.file p' := by
  unfold bufWrite
  split
  · exact .inl rfl
  · split
    · exact .inr ⟨_, rfl⟩
    · exact .inr ⟨_, rfl⟩

lemma LogInv.fresh_appendWrite (h : LogInv crc d w) (hname : name ∉ d.names)
    (recordType : UInt8) (data : List UInt8) (e : AppendEnv) :
    name ∉ (Wal.appendWrite crc d w recordType data e).1.names := by
  rcases bufWrite_append d { w with seqNum := w.seqNum + 1 }
    (writeRecord crc (nextRecord w recordType data e)) e.write with heq | ⟨p, heq⟩
  · rwa [Wal.appendWrite, heq]
  · rw [Wal.appendWrite, heq, mem_names_append]
    rintro (rfl | hmem)
    · exact hname h.current
    · exact hname hmem

lemma LogInv.append (h : LogInv crc d w) (cfg : Config) (recordType : UInt8)
    (data : List UInt8) {e : AppendEnv} (hn : w.seqNum.toNat + 1 < 2 ^ 64)
    (hname : e.rotate.name ∉ d.names) : LogInv crc (append crc cfg d w recordType data e).1
      (append crc cfg d w recordType data e).2.1 := by
  unfold Wal.append
  split
  · exact h
  · split
    · exact h
    · rename_i hdata
      have hwrite := h.appendWrite hn recordType (not_lt.mp hdata) e
      have hfresh := h.fresh_appendWrite hname recordType data e
      split
      · rename_i hok
        have hdone := hwrite.1 hok
        have hsized : LogInv crc (Wal.appendWrite crc d w recordType data e).1
            { (Wal.appendWrite crc d w recordType data e).2.1 with
              currentSize := w.currentSize + (HeaderSize + 4 + 8 + data.length : ℕ) } :=
          ⟨hdone.toDirInv, hdone.current, hdone.below, hdone.writing⟩
        exact hsized.appendSync cfg hfresh
      · rename_i hfail
        have hback : w.seqNum + 1 - 1 = w.seqNum := by simp
        rw [appendWrite_seqNum, hback]
        exact hwrite.2 (by simpa using hfail)

lemma LogInv.new (h : DirInv crc d) (hname : e.name ∉ d.names) (hok : (Wal.createFile d e).2) :
    LogInv crc (Wal.createFile d e).1 (newHandle crc d e) := by
  have heq := createFile_ok hok
  have hempty := seqs_create crc hname (prefix_refl fileHeader)
  refine ⟨h.createFile hname, by simp [heq, newHandle], ?_, ?_⟩
  · rw [heq]
    refine below_append (fun name hmem q hq => le_findLastSequence crc d hmem hq) ?_
    rw [← contents_append_self, hempty]
    simp
  · intro _
    refine ⟨[], Continues.nil _ _, by simp, ?_⟩
    rw [heq, newHandle, contents_append_self, d.contents_of_notMem e.name hname]
    rfl

lemma LogInv.truncate (h : LogInv crc d w) (beforeSeqNum : UInt64) (removable : ℕ → Bool) :
    LogInv crc (truncate crc d w.file beforeSeqNum removable) w := by
  have hcur : truncated crc d w.file beforeSeqNum removable w.file = false := by
    simp [truncated]
  refine ⟨h.toDirInv.remove _, ?_, ?_, ?_⟩
  · exact (d.mem_names_remove _ _).mpr ⟨h.current, hcur⟩
  · intro name hname q hq
    obtain ⟨hname, hp⟩ := (d.mem_names_remove _ name).mp hname
    rw [Wal.truncate, d.contents_remove _ hp] at hq
    exact h.below name hname q hq
  · intro hw
    obtain ⟨rs, hc, hle, heq⟩ := h.writing hw
    refine ⟨rs, ⟨hc.valid, hc.increasing, ?_⟩, hle, ?_⟩
    · intro name hname hne q hq
      obtain ⟨hname, hp⟩ := (d.mem_names_remove _ name).mp hname
      rw [Wal.truncate, d.contents_remove _ hp] at hq
      exact hc.above name hname hne q hq
    · rwa [Wal.truncate, d.contents_remove _ hcur]

variable (crc) (cfg : Config)

def Numbered (s : State) : Action → Prop
  | .new e => e.name ∉ s.dir.names ∧ ∀ q ∈ s.issued, ∃ r ∈ records crc s.dir, q ≤ r.seqNum
  | .append _ _ e => e.rotate.name ∉ s.dir.names ∧
      ∀ w, s.log = some w → w.seqNum.toNat + 1 < 2 ^ 64
  | _ => True

instance (s : State) (a : Action) : Decidable (Numbered crc s a) := by
  cases a with
  | new =>
    -- by going through the list, not through all numbers
    haveI : Decidable (∀ q ∈ s.issued, ∃ r ∈ records crc s.dir, q ≤ r.seqNum) :=
      List.decidableBAll _ _
    exact inferInstanceAs (Decidable (_ ∧ ∀ q ∈ s.issued, ∃ r ∈ records crc s.dir, q ≤ r.seqNum))
  | append =>
    exact inferInstanceAs (Decidable (_ ∧ ∀ w ∈ s.log, w.seqNum.toNat + 1 < 2 ^ 64))
  | truncate | close | exit => exact isTrue trivial

structure StateInv (s : State) : Prop where
  dir : DirInv crc s.dir
  log : ∀ w, s.log = some w → LogInv crc s.dir w ∧ ∀ q ∈ s.issued, q.toNat ≤ w.seqNum.toNat
  issued : s.issued.Nodup

lemma stateInv_init : StateInv crc init :=
  ⟨⟨by simp [init], by simp [init], by simp [init]⟩, by simp [init],
    by simp [init]⟩

variable {crc} {cfg} {s : State}

lemma StateInv.append (h : StateInv crc s) {w : Handle} (hw : s.log = some w) (recordType : UInt8)
    (data : List UInt8) {e : AppendEnv} (hn : w.seqNum.toNat + 1 < 2 ^ 64)
    (hname : e.rotate.name ∉ s.dir.names) : StateInv crc
      { dir := (append crc cfg s.dir w recordType data e).1
        log := some (append crc cfg s.dir w recordType data e).2.1
        issued := issue s.issued (append crc cfg s.dir w recordType data e).2.2 } := by
  obtain ⟨hlog, hissued⟩ := h.log w hw
  have happend := hlog.append cfg recordType data hn hname
  obtain ⟨hok, hcount⟩ := append_seqNum crc cfg s.dir w recordType data e
  have hgrow : w.seqNum.toNat ≤ (Wal.append crc cfg s.dir w recordType data e).2.1.seqNum.toNat := by
    rcases hcount with heq | heq
    · rw [heq]
    · rw [heq, toNat_succ hn]
      omega
  have hold : ∀ q ∈ s.issued,
      q.toNat ≤ (Wal.append crc cfg s.dir w recordType data e).2.1.seqNum.toNat :=
    fun q hq => (hissued q hq).trans hgrow
  refine ⟨happend.toDirInv, ?_, ?_⟩
  · intro w' hw'
    cases hw'
    refine ⟨happend, ?_⟩
    cases hr : (Wal.append crc cfg s.dir w recordType data e).2.2 with
    | error => exact hold
    | ok seqNum =>
      obtain ⟨hseq, hnew⟩ := hok seqNum hr
      intro q hq
      rcases mem_append.mp hq with hq | hq
      · exact hold q hq
      · rw [mem_singleton.mp hq, hseq, hnew]
  · cases hr : (Wal.append crc cfg s.dir w recordType data e).2.2 with
    | error => exact h.issued
    | ok seqNum =>
      rw [issue, nodup_append]
      refine ⟨h.issued, by simp, ?_⟩
      intro q hq q' hq' heq
      have hle := hissued q hq
      rw [heq, mem_singleton.mp hq', (hok seqNum hr).1, toNat_succ hn] at hle
      omega

lemma StateInv.step (h : StateInv crc s) {a : Action} {t : State} (hg : Numbered crc s a)
    (hs : step crc cfg s a = some t) : StateInv crc t := by
  cases a with
  | new e =>
    obtain ⟨hname, hissued⟩ := hg
    simp only [Wal.step] at hs
    split at hs
    · cases hs
    · split at hs <;> cases hs
      · rename_i hok
        refine ⟨h.dir.createFile hname, ?_, h.issued⟩
        intro w hw
        cases hw
        refine ⟨LogInv.new h.dir hname hok, fun q hq => ?_⟩
        obtain ⟨r, hr, hle⟩ := hissued q hq
        exact (UInt64.le_iff_toNat_le.mp hle).trans (record_le_findLastSequence crc s.dir hr)
      · rename_i hclosed _
        refine ⟨h.dir.createFile hname, ?_, h.issued⟩
        intro w hw
        have hopen : s.log = some w := hw
        simp [hopen] at hclosed
  | append recordType data =>
    obtain ⟨w, hw, rfl⟩ := Option.map_eq_some_iff.mp hs
    exact h.append hw recordType data (hg.2 w hw) hg.1
  | truncate beforeSeqNum removable =>
    obtain ⟨w, hw, rfl⟩ := Option.map_eq_some_iff.mp hs
    obtain ⟨hlog, hissued⟩ := h.log w hw
    have htrunc := hlog.truncate beforeSeqNum removable
    refine ⟨htrunc.toDirInv, ?_, h.issued⟩
    intro w' hw'
    cases hw.symm.trans hw'
    exact ⟨htrunc, hissued⟩
  | close flush =>
    obtain ⟨w, hw, rfl⟩ := Option.map_eq_some_iff.mp hs
    obtain ⟨hlog, hissued⟩ := h.log w hw
    split
    · exact h
    · have hflush := hlog.bufFlush flush
      refine ⟨hflush.toDirInv, ?_, h.issued⟩
      intro w' hw'
      cases hw'
      exact ⟨⟨hflush.toDirInv, hflush.current, hflush.below, hflush.writing⟩, by simpa using hissued⟩
  | exit =>
    obtain ⟨w, hw, rfl⟩ := Option.map_eq_some_iff.mp hs
    exact ⟨h.dir, by simp, h.issued⟩

lemma DirInv.records_nodup (h : DirInv crc d) : ((records crc d).map Record.seqNum).Nodup := by
  have hnat : ((records crc d).map (fun r => r.seqNum.toNat)).Nodup := by
    rw [records, map_flatMap, nodup_flatMap]
    refine ⟨h.nodup, ?_⟩
    exact d.names_nodup.imp_of_mem (fun hname hother hne => h.disjoint _ hname _ hother hne)
  refine List.Nodup.of_map UInt64.toNat ?_
  rwa [map_map]

variable (crc cfg)

/-- Sequence numbers identify records: in every history whose starts find the highest number still
on disk, the readable records carry different numbers, no number has been returned twice, and the
next one is new. -/
theorem sequence_numbers_unique {as : List Action} {s : State}
    (hg : Guarded (step crc cfg) (Numbered crc) State.init as)
    (hrun : exec (step crc cfg) State.init as = some s) :
    ((records crc s.dir).map Record.seqNum).Nodup ∧ s.issued.Nodup ∧
    ∀ w recordType data e seqNum, s.log = some w → w.seqNum.toNat + 1 < 2 ^ 64 →
      (append crc cfg s.dir w recordType data e).2.2 = .ok seqNum →
      (∀ r ∈ records crc s.dir, r.seqNum < seqNum) ∧ seqNum ∉ s.issued := by
  have hinv : StateInv crc s :=
    exec_invariant (StateInv crc) (fun _ _ _ h hg hs => h.step hg hs) (stateInv_init crc) hg hrun
  refine ⟨hinv.dir.records_nodup, hinv.issued, ?_⟩
  intro w recordType data e seqNum hw hn hok
  obtain ⟨hlog, hissued⟩ := hinv.log w hw
  have hseq : seqNum.toNat = w.seqNum.toNat + 1 := by
    rw [((append_seqNum crc cfg s.dir w recordType data e).1 seqNum hok).1, toNat_succ hn]
  constructor
  · intro r hr
    obtain ⟨name, hname, hr⟩ := mem_flatMap.mp hr
    have hle := hlog.below name hname r.seqNum.toNat (mem_map.mpr ⟨r, hr, rfl⟩)
    rw [UInt64.lt_iff_toNat_lt, hseq]
    omega
  · intro hmem
    have hle := hissued seqNum hmem
    omega

end

def calm (name : ℕ) : AppendEnv :=
  ⟨0, ⟨true, 0⟩, ⟨true, 0⟩, true, false, ⟨name, true, FileHeaderSize⟩, ⟨true, 0⟩⟩

def restart : List Action :=
  [.new ⟨1, true, FileHeaderSize⟩, .append RecordTypeData [0x41] (calm 2),
    .append RecordTypeData [0x42] (calm 3), .close ⟨true, 0⟩, .exit,
    .new ⟨4, true, FileHeaderSize⟩, .append RecordTypeData [0x43] (calm 5)]

theorem sequence_numbers_unique_restart :
    (exec (step checksumIEEE ⟨true, 1000⟩) State.init restart).map State.issued = some [1, 2, 3] ∧
    ∀ s, exec (step checksumIEEE ⟨true, 1000⟩) State.init restart = some s →
      ((records checksumIEEE s.dir).map Record.seqNum).Nodup :=
  ⟨by decide +kernel, fun _ hrun =>
    (sequence_numbers_unique checksumIEEE ⟨true, 1000⟩ (by decide +kernel) hrun).1⟩

def restartAfterTruncate : List Action :=
  [.new ⟨1, true, FileHeaderSize⟩, .append RecordTypeData [0x41] (calm 2),
    .close ⟨true, 0⟩, .exit, .new ⟨3, true, FileHeaderSize⟩, .truncate 1 (fun _ => true),
    .close ⟨true, 0⟩, .exit, .new ⟨4, true, FileHeaderSize⟩, .append RecordTypeData [0x42] (calm 5)]

/-- After the truncation nothing on disk tells the second restart that number one is
taken, and its first append returns it again. -/
theorem sequence_number_returned_twice :
    ∃ s, exec (step checksumIEEE ⟨true, 1000⟩) State.init restartAfterTruncate = some s ∧
      s.issued = [1, 1] ∧ ¬s.issued.Nodup := by
  have hissued : (exec (step checksumIEEE ⟨true, 1000⟩) init restartAfterTruncate).map
      issued = some [1, 1] := by decide +kernel
  obtain ⟨s, hs, heq⟩ := Option.map_eq_some_iff.mp hissued
  refine ⟨s, hs, heq, ?_⟩
  rw [heq]
  decide

end MinIODB.Wal
