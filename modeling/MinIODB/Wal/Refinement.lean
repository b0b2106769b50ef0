import MinIODB.Wal.Numbering
import MinIODB.Wal.Records

/-!
# The files refine the log of records

With `syncOnWrite` an append ends with an empty writer buffer or with a writer that has
given up. What a replay reads from the files then changes exactly as the record log
says: a successful append adds one record, a failed one adds it, uses up its number or
does nothing, and a file whose header could not be written holds no records. The
content of a record is any function of what the file stores.
-/
namespace MinIODB.Wal
open Transition List Directory

section
variable (crc : List UInt8 → UInt32)

lemma delivered_fileStream {rs : List Record} (hrs : ∀ r ∈ rs, r.data.length ≤ MaxRecordSize) :
    delivered crc (fileStream crc rs) = rs := by
  rw [fileStream, delivered_header]
  exact (recordCode crc).frames_stream rs hrs

lemma delivered_between {rs : List Record} {r : Record}
    (hrs : ∀ r' ∈ rs ++ [r], r'.data.length ≤ MaxRecordSize) {n : ℕ}
    (hn : n < (writeRecord crc r).length) :
    delivered crc (fileStream crc rs ++ (writeRecord crc r).take n) = rs := by
  have hwhole : fileStream crc (rs ++ [r]) = fileStream crc rs ++ writeRecord crc r := by
    simp [fileStream, recordCode]
  have hcut := delivered_take crc (rs ++ [r]) hrs ((fileStream crc rs).length + n)
  rw [hwhole, take_length_add_append] at hcut
  have hlength : (fileStream crc rs).length + n - FileHeaderSize =
      ((recordCode crc).stream rs).length + n := by
    rw [fileStream, length_append, fileHeader_length]
    omega
  rw [hcut, hlength, (recordCode crc).wholeCount_concat rs hn, take_left]

end

def Accepts (w : Handle) (r : Record) : Prop :=
  w.writeErr = false ∧ r.data.length ≤ MaxRecordSize

inductive SyncedAppend (crc : List UInt8 → UInt32) (d : Directory UInt8) (w : Handle) (r : Record)
    (e : OpenEnv) : Directory UInt8 → Handle → Except AppendError UInt64 → Prop
  | refused (err : AppendError) : SyncedAppend crc d w r e d w (.error err)
  | torn {n : ℕ} {w' : Handle} (err : AppendError) (hr : Accepts w r)
      (hn : n < (writeRecord crc r).length) (hfile : w'.file = w.file) (hgiven : w'.writeErr = true)
      (hseq : w'.seqNum = w.seqNum ∨ w'.seqNum = w.seqNum + 1) :
      SyncedAppend crc d w r e (d.append w.file ((writeRecord crc r).take n)) w' (.error err)
  | unsynced {w' : Handle} (err : AppendError) (hr : Accepts w r)
      (hfile : w'.file = w.file) (hbuf : w'.buffered = []) (hseq : w'.seqNum = w.seqNum + 1) :
      SyncedAppend crc d w r e (d.append w.file (writeRecord crc r)) w' (.error err)
  | kept {d' : Directory UInt8} {w' : Handle} (hr : Accepts w r)
      (hdir : d' = d.append w.file (writeRecord crc r) ∨
        d' = (createFile (d.append w.file (writeRecord crc r)) e).1)
      (hfile : w'.file = w.file) (hbuf : w'.buffered = []) (hseq : w'.seqNum = w.seqNum + 1) :
      SyncedAppend crc d w r e d' w' (.ok (w.seqNum + 1))
  | rotated {w' : Handle} (hr : Accepts w r) (hfile : w'.file = e.name)
      (hbuf : w'.buffered = []) (hseq : w'.seqNum = w.seqNum + 1) :
      SyncedAppend crc d w r e ((d.append w.file (writeRecord crc r)).append e.name fileHeader) w'
        (.ok (w.seqNum + 1))

lemma bufFlush_rest (d : Directory UInt8) {w : Handle} {bytes : List UInt8} {k : ℕ}
    (hw : w.writeErr = false) (hbuf : w.buffered = bytes.drop k) (o : Outcome) :
    bufFlush (d.append w.file (bytes.take k)) w o =
      (d.append w.file bytes, { w with buffered := [] }, true) ∨
    ∃ n < bytes.length, bufFlush (d.append w.file (bytes.take k)) w o =
      (d.append w.file (bytes.take n), { w with writeErr := true }, false) := by
  rw [bufFlush, if_neg (by simp [hw])]
  split
  · rename_i hnil
    have htake : bytes.take k = bytes := take_of_length_le (drop_eq_nil_iff.mp (hbuf ▸ hnil))
    refine .inl ?_
    rw [htake, ← hnil]
  · rename_i hne
    split
    · refine .inl ?_
      rw [hbuf, append_append, take_append_drop]
    · refine .inr ⟨k + min o.flushed (w.buffered.length - 1), ?_, ?_⟩
      · have hpos := length_pos_iff.mpr hne
        rw [hbuf, length_drop] at hpos ⊢
        omega
      · rw [append_append, hbuf, take_add]

variable {crc : List UInt8 → UInt32} {cfg : Config} {w w' : Handle} {r : Record} {p : List UInt8} {e : OpenEnv}

lemma appendRotate_synced (d : Directory UInt8) (e : AppendEnv)
    (hr : Accepts w r) (hw' : w'.writeErr = false) (hfile : w'.file = w.file)
    (hbuf : w'.buffered = []) (hseq : w'.seqNum = w.seqNum + 1) : SyncedAppend crc d w r e.rotate
      (appendRotate cfg (d.append w.file (writeRecord crc r)) w' e).1
      (appendRotate cfg (d.append w.file (writeRecord crc r)) w' e).2.1
      (appendRotate cfg (d.append w.file (writeRecord crc r)) w' e).2.2 := by
  rw [appendRotate_result, hseq]
  unfold appendRotate
  split
  · unfold openNewFile
    split
    · rename_i hok
      -- nothing is left to flush into the old file
      simp only [bufFlush, hw', hbuf, createFile_ok hok, if_true, Bool.false_eq_true, if_false]
      exact .rotated hr rfl rfl hseq
    · exact .kept hr (.inr rfl) hfile hbuf hseq
  · exact .kept hr (.inl rfl) hfile hbuf hseq

lemma appendSync_synced (hcfg : cfg.syncOnWrite) (d : Directory UInt8) {k : ℕ} (e : AppendEnv) (hr : Accepts w r) (hw' : w'.writeErr = false)
    (hfile : w'.file = w.file) (hbuf : w'.buffered = (writeRecord crc r).drop k)
    (hseq : w'.seqNum = w.seqNum + 1) : SyncedAppend crc d w r e.rotate
      (appendSync cfg (d.append w.file ((writeRecord crc r).take k)) w' e).1
      (appendSync cfg (d.append w.file ((writeRecord crc r).take k)) w' e).2.1
      (appendSync cfg (d.append w.file ((writeRecord crc r).take k)) w' e).2.2 := by
  have hflush := bufFlush_rest d hw' hbuf e.flush
  rw [hfile] at hflush
  unfold appendSync sync
  rw [if_pos hcfg]
  rcases hflush with heq | ⟨n, hn, heq⟩
  · rw [heq]
    cases hfsync : e.fsync with
    | true => exact appendRotate_synced d e hr hw' rfl rfl hseq
    | false => exact .unsynced _ hr rfl rfl hseq
  · rw [heq]
    exact .torn _ hr hn rfl rfl (.inr hseq)

variable (crc)

lemma append_synced (hcfg : cfg.syncOnWrite) (d : Directory UInt8)
    (hsynced : w.writeErr = false → w.buffered = []) (recordType : UInt8) (data : List UInt8)
    (e : AppendEnv) : SyncedAppend crc d w (nextRecord w recordType data e) e.rotate
      (append crc cfg d w recordType data e).1 (append crc cfg d w recordType data e).2.1
      (append crc cfg d w recordType data e).2.2 := by
  have hlen : 0 < (writeRecord crc (nextRecord w recordType data e)).length := by
    rw [writeRecord_length]
    omega
  have hback : w.seqNum + 1 - 1 = w.seqNum := by simp
  unfold append
  split
  · exact .refused _
  · split
    · exact .refused _
    · rename_i hdata
      unfold appendWrite bufWrite
      cases hw : w.writeErr with
      | true =>
        simp only [hback, if_true, Bool.false_eq_true, if_false]
        rw [← hw]
        exact .refused _
      | false =>
        have hr : Accepts w (nextRecord w recordType data e) := ⟨hw, not_lt.mp hdata⟩
        rw [hsynced hw]
        cases hok : e.write.ok with
        | false =>
          simp only [hback, Bool.false_eq_true, if_false, nil_append]
          exact .torn _ hr (by omega) rfl rfl (.inl rfl)
        | true => exact appendSync_synced hcfg d e hr rfl rfl rfl rfl

/-! ### The relation between files and records -/

variable {π : Type*} (body : Record → π)

def view (r : Record) : LogRecord π := ⟨r.seqNum.toNat, body r⟩

def Shows (d : Directory UInt8) (ld : Directory (LogRecord π)) : Prop :=
  ∀ name, ld.contents name = (delivered crc (d.contents name)).map (view body)

structure Refines (d : Directory UInt8) (w : Handle) (l : RecordLog π) : Prop where
  shows : Shows crc body d l.dir
  inv : LogInv crc d w
  synced : w.writeErr = false → w.buffered = []
  current : l.current = w.file
  seqNum : l.seqNum = w.seqNum.toNat

variable {crc body} {d : Directory UInt8} {ld : Directory (LogRecord π)} {w : Handle}
  {l : RecordLog π}

lemma delivered_nil : delivered crc [] = [] := by
  have h := delivered_torn_header crc 0 (by decide)
  rwa [take_zero] at h

lemma Shows.append (h : Shows crc body d ld) {file : ℕ} {rs : List Record}
    (hp : delivered crc (d.contents file ++ p) = delivered crc (d.contents file) ++ rs) :
    Shows crc body (d.append file p) (ld.append file (rs.map (view body))) := by
  intro name
  by_cases hname : name = file
  · subst hname
    rw [contents_append_self, contents_append_self, hp, h, map_append]
  · rw [d.contents_append_ne p hname, ld.contents_append_ne _ hname, h]

lemma Shows.append_part (h : Shows crc body d ld) {file : ℕ}
    (hp : delivered crc (d.contents file ++ p) = delivered crc (d.contents file)) :
    Shows crc body (d.append file p) ld := by
  intro name
  by_cases hname : name = file
  · subst hname
    rw [contents_append_self, hp, h]
  · rw [d.contents_append_ne p hname, h]

lemma Shows.create (h : Shows crc body d ld) {name : ℕ} (hname : name ∉ d.names)
    (hp : p <+: fileHeader) : Shows crc body (d.append name p) ld := by
  have hempty := map_eq_nil_iff.mp (seqs_create crc hname hp)
  refine h.append_part ?_
  rw [← contents_append_self, hempty, d.contents_of_notMem name hname, delivered_nil]

lemma Shows.createFile (h : Shows crc body d ld) (hname : e.name ∉ d.names) :
    Shows crc body (createFile d e).1 ld :=
  createFile_cases (P := fun d => Shows crc body d ld) h (fun _ hp => h.create hname hp)

lemma Shows.list (h : Shows crc body d ld) (name : ℕ) : Shows crc body d (ld.append name []) := by
  intro other
  rw [← h other, contents_append]
  split
  · rename_i heq
    rw [heq, append_nil]
  · rfl

lemma Shows.replay (h : Shows crc body d ld) : replay ld = (records crc d).map (view body) := by
  have hlisted : ∀ m, ld.contents m ≠ [] → m ∈ d.names := by
    intro m hm
    by_contra hnot
    rw [h, d.contents_of_notMem m hnot, delivered_nil] at hm
    exact hm rfl
  rw [Wal.replay, all_eq_of_contents d.names_sorted hlisted, records, map_flatMap]
  exact flatMap_congr (fun name _ => h name)

lemma Shows.maxSeq_le_iff (h : Shows crc body d ld) (name n : ℕ) :
    maxSeq (ld.contents name) ≤ n ↔ ∀ q ∈ seqs crc (d.contents name), q ≤ n := by
  rw [Wal.maxSeq_le_iff, h, seqs, forall_mem_map, forall_mem_map]
  rfl

lemma Shows.findLastSequence (h : Shows crc body d ld) :
    maxSeq (Wal.replay ld) = (Wal.findLastSequence crc d).toNat := by
  refine eq_of_forall_ge_iff (fun n => ?_)
  rw [Wal.maxSeq_le_iff, h.replay, findLastSequence_le_iff, forall_mem_map, records,
    forall_mem_flatMap]
  simp only [seqs, forall_mem_map]
  rfl

lemma Shows.truncate (h : Shows crc body d l.dir) (beforeSeqNum : UInt64) (removable : ℕ → Bool) :
    Shows crc body (Wal.truncate crc d l.current beforeSeqNum removable)
      (l.truncate beforeSeqNum.toNat removable).dir := by
  intro name
  unfold Wal.truncate RecordLog.truncate
  cases hmax : getFileMaxSequence crc (d.contents name) with
  | error =>
    have hkept : truncated crc d l.current beforeSeqNum removable name = false := by
      simp [truncated, hmax]
    have hempty := map_eq_nil_iff.mp (seqs_of_error crc hmax)
    rw [d.contents_remove _ hkept, hempty, map_nil]
    cases hgone : l.truncated beforeSeqNum.toNat removable name with
    | true => exact l.dir.contents_removed _ hgone
    | false => rw [l.dir.contents_remove _ hgone, h, hempty, map_nil]
  | ok maxSeq =>
    have hsame : truncated crc d l.current beforeSeqNum removable name =
        l.truncated beforeSeqNum.toNat removable name := by
      have hle : maxSeq ≤ beforeSeqNum ↔
          Wal.maxSeq (l.dir.contents name) ≤ beforeSeqNum.toNat := by
        rw [h.maxSeq_le_iff, ← getFileMaxSequence_le_iff crc hmax, UInt64.le_iff_toNat_le]
      simp [truncated, RecordLog.truncated, hmax, hle]
    cases hgone : l.truncated beforeSeqNum.toNat removable name with
    | true =>
      rw [l.dir.contents_removed _ hgone, d.contents_removed _ (hsame.trans hgone), delivered_nil,
        map_nil]
    | false => rw [l.dir.contents_remove _ hgone, d.contents_remove _ (hsame.trans hgone), h]

lemma Refines.file (h : Refines crc body d w l) (hw : w.writeErr = false) :
    ∃ rs : List Record, (∀ r ∈ rs, r.data.length ≤ MaxRecordSize) ∧
      d.contents w.file = fileStream crc rs := by
  obtain ⟨rs, hc, _, heq⟩ := h.inv.writing hw
  rw [h.synced hw, append_nil] at heq
  exact ⟨rs, hc.valid, heq⟩

lemma Refines.shows_torn (h : Refines crc body d w l) (hr : Accepts w r) {n : ℕ}
    (hn : n < (writeRecord crc r).length) :
    Shows crc body (d.append w.file ((writeRecord crc r).take n)) l.dir := by
  obtain ⟨rs, hrs, heq⟩ := h.file hr.1
  have hvalid : ∀ r' ∈ rs ++ [r], r'.data.length ≤ MaxRecordSize :=
    forall_mem_append.mpr ⟨hrs, forall_mem_singleton.mpr hr.2⟩
  refine h.shows.append_part ?_
  rw [heq, delivered_between crc hvalid hn, delivered_fileStream crc hrs]

lemma Refines.shows_written (h : Refines crc body d w l) (hr : Accepts w r) :
    Shows crc body (d.append w.file (writeRecord crc r)) (l.dir.append w.file [view body r]) := by
  obtain ⟨rs, hrs, heq⟩ := h.file hr.1
  have hvalid : ∀ r' ∈ rs ++ [r], r'.data.length ≤ MaxRecordSize :=
    forall_mem_append.mpr ⟨hrs, forall_mem_singleton.mpr hr.2⟩
  have hwhole : fileStream crc rs ++ writeRecord crc r = fileStream crc (rs ++ [r]) := by
    simp [fileStream, recordCode]
  have hadds : delivered crc (d.contents w.file ++ writeRecord crc r) =
      delivered crc (d.contents w.file) ++ [r] := by
    rw [heq, hwhole, delivered_fileStream crc hvalid, delivered_fileStream crc hrs]
  exact h.shows.append hadds

def RecordLog.Appended (l : RecordLog π) (content : π) (e : OpenEnv) (l' : RecordLog π) :
    Except AppendError UInt64 → Prop
  | .ok seqNum => seqNum.toNat = l.seqNum + 1 ∧
      (l' = l.append content none ∨ l' = l.append content (some e.name))
  | .error _ => ∃ o, l' = l.appendFail content o

lemma Refines.appended (h : Refines crc body d w l)
    {d' : Directory UInt8} {result : Except AppendError UInt64}
    (hs : SyncedAppend crc d w r e d' w' result) (hinv : LogInv crc d' w')
    (hseq : r.seqNum = w.seqNum + 1) (hn : w.seqNum.toNat + 1 < 2 ^ 64) (hname : e.name ∉ d.names) :
    ∃ l', l.Appended (body r) e l' result ∧ Refines crc body d' w' l' := by
  have hcount : (w.seqNum + 1).toNat = l.seqNum + 1 := by rw [toNat_succ hn, h.seqNum]
  have hnext : view body r = l.next (body r) := by rw [view, hseq, hcount, RecordLog.next]
  have hfresh : e.name ∉ (d.append w.file (writeRecord crc r)).names := by
    rw [mem_names_append]
    rintro (heq | hmem)
    · exact hname (heq ▸ h.inv.current)
    · exact hname hmem
  have hwritten : Accepts w r → Shows crc body (d.append w.file (writeRecord crc r))
      (l.dir.append l.current [l.next (body r)]) := by
    intro hr
    rw [h.current, ← hnext]
    exact h.shows_written hr
  cases hs with
  | refused => exact ⟨l, ⟨.refused, rfl⟩, h⟩
  | torn err hr hcut hfile hgiven hcase =>
    have hshows := h.shows_torn hr hcut
    have hsynced : w'.writeErr = false → w'.buffered = [] := by simp [hgiven]
    rcases hcase with hold | hup
    · exact ⟨l, ⟨.refused, rfl⟩, hshows, hinv, hsynced, h.current.trans hfile.symm,
        by rw [hold, h.seqNum]⟩
    · exact ⟨_, ⟨.counted, rfl⟩, hshows, hinv, hsynced, h.current.trans hfile.symm,
        by rw [hup, hcount]; rfl⟩
  | unsynced err hr hfile hbuf hup =>
    exact ⟨_, ⟨.written, rfl⟩, hwritten hr, hinv, fun _ => hbuf, h.current.trans hfile.symm,
      by rw [hup, hcount]; rfl⟩
  | kept hr hdir hfile hbuf hup =>
    refine ⟨_, ⟨hcount, .inl rfl⟩, ?_, hinv, fun _ => hbuf, h.current.trans hfile.symm,
      by rw [hup, hcount]; rfl⟩
    rcases hdir with rfl | rfl
    · exact hwritten hr
    · exact (hwritten hr).createFile hfresh
  | rotated hr hfile hbuf hup =>
    refine ⟨_, ⟨hcount, .inr rfl⟩, ?_, hinv, fun _ => hbuf, hfile.symm, by rw [hup, hcount]; rfl⟩
    exact ((hwritten hr).create hfresh (prefix_refl _)).list e.name

lemma Shows.new (h : Shows crc body d ld) (hd : DirInv crc d)
    (hname : e.name ∉ d.names) (hok : (Wal.createFile d e).2) :
    Refines crc body (Wal.createFile d e).1 (newHandle crc d e) (RecordLog.new ld e.name) :=
  ⟨(h.createFile hname).list e.name, LogInv.new hd hname hok, fun _ => rfl, rfl, h.findLastSequence⟩

lemma Refines.truncate (h : Refines crc body d w l) (beforeSeqNum : UInt64)
    (removable : ℕ → Bool) : Refines crc body (Wal.truncate crc d w.file beforeSeqNum removable) w
      (l.truncate beforeSeqNum.toNat removable) := by
  refine ⟨?_, h.inv.truncate beforeSeqNum removable, h.synced, h.current, h.seqNum⟩
  rw [← h.current]
  exact h.shows.truncate beforeSeqNum removable

lemma Refines.bufFlush (h : Refines crc body d w l) (o : Outcome) :
    Wal.bufFlush d w o = (d, w, !w.writeErr) := by
  unfold Wal.bufFlush
  cases hw : w.writeErr with
  | true => rfl
  | false => simp [h.synced hw]

/-! ### Whole histories -/

inductive RecordLog.Step : RecordLog π → RecordLog π → Prop
  | append (l : RecordLog π) (content : π) (rotate : Option ℕ) : Step l (l.append content rotate)
  | appendFail (l : RecordLog π) (content : π) (o : FailedAppend) :
      Step l (l.appendFail content o)
  | truncate (l : RecordLog π) (beforeSeqNum : ℕ) (removable : ℕ → Bool) :
      Step l (l.truncate beforeSeqNum removable)
  | new (l : RecordLog π) (name : ℕ) : Step l (RecordLog.new l.dir name)

lemma RecordLog.Appended.step {content : π} {l' : RecordLog π}
    {result : Except AppendError UInt64} (h : l.Appended content e l' result) :
    RecordLog.Step l l' := by
  cases result with
  | ok =>
    rcases h.2 with rfl | rfl
    · exact .append l content none
    · exact .append l content (some e.name)
  | error =>
    obtain ⟨o, rfl⟩ := h
    exact .appendFail l content o

def Fresh (s : State) : Action → Prop
  | .new e => e.name ∉ s.dir.names
  | .append _ _ e => e.rotate.name ∉ s.dir.names ∧
      ∀ w, s.log = some w → w.seqNum.toNat + 1 < 2 ^ 64
  | _ => True

variable (crc body) in
structure StateRefines (s : State) (l : RecordLog π) : Prop where
  shows : Shows crc body s.dir l.dir
  dir : DirInv crc s.dir
  log : ∀ w, s.log = some w → Refines crc body s.dir w l

lemma Refines.state (h : Refines crc body d w l) (issued : List UInt64) :
    StateRefines crc body ⟨d, some w, issued⟩ l := by
  refine ⟨h.shows, h.inv.toDirInv, ?_⟩
  intro w' hw'
  cases hw'
  exact h

lemma StateRefines.step {s t : State} (h : StateRefines crc body s l)
    (hcfg : cfg.syncOnWrite) {a : Action} (hg : Fresh s a) (hs : step crc cfg s a = some t) :
    ∃ l', Relation.ReflTransGen RecordLog.Step l l' ∧ StateRefines crc body t l' := by
  cases a with
  | new e =>
    simp only [Wal.step] at hs
    split at hs
    · cases hs
    · split at hs <;> cases hs
      · rename_i hok
        exact ⟨_, .single (.new l e.name), (h.shows.new h.dir hg hok).state s.issued⟩
      · rename_i hclosed _
        refine ⟨l, .refl, h.shows.createFile hg, h.dir.createFile hg, ?_⟩
        intro w hw
        have hopen : s.log = some w := hw
        simp [hopen] at hclosed
  | append recordType data e =>
    obtain ⟨w, hw, rfl⟩ := Option.map_eq_some_iff.mp hs
    have hlog := h.log w hw
    have hn := hg.2 w hw
    obtain ⟨l', happended, hrefines⟩ := hlog.appended
      (append_synced crc hcfg s.dir hlog.synced recordType data e)
      (hlog.inv.append cfg recordType data hn hg.1) rfl hn hg.1
    exact ⟨l', .single happended.step, hrefines.state _⟩
  | truncate beforeSeqNum removable =>
    obtain ⟨w, hw, rfl⟩ := Option.map_eq_some_iff.mp hs
    refine ⟨_, .single (.truncate l beforeSeqNum.toNat removable), ?_⟩
    rw [hw]
    exact ((h.log w hw).truncate beforeSeqNum removable).state s.issued
  | close flush =>
    obtain ⟨w, hw, rfl⟩ := Option.map_eq_some_iff.mp hs
    have hlog := h.log w hw
    refine ⟨l, .refl, ?_⟩
    split
    · exact h
    · rw [hlog.bufFlush flush]
      have hclosed : Refines crc body s.dir { w with closed := true } l :=
        ⟨hlog.shows, ⟨hlog.inv.toDirInv, hlog.inv.current, hlog.inv.below, hlog.inv.writing⟩,
          hlog.synced, hlog.current, hlog.seqNum⟩
      exact hclosed.state s.issued
  | exit =>
    obtain ⟨w, hw, rfl⟩ := Option.map_eq_some_iff.mp hs
    exact ⟨l, .refl, h.shows, h.dir, by simp⟩

def RecordLog.fresh : RecordLog π := ⟨Directory.empty, 0, 0⟩

lemma stateRefines_init : StateRefines crc body State.init (RecordLog.fresh : RecordLog π) := by
  refine ⟨fun name => ?_, (stateInv_init crc).dir, by simp [State.init]⟩
  have hnil : (State.init.dir.contents name : List UInt8) = [] := rfl
  rw [hnil, delivered_nil, map_nil]
  rfl

variable (crc body)

/-- Every history on the files is a history of the record log, and what a replay reads
from the files at its end is the record log's replay. -/
theorem files_refine_record_log (hcfg : cfg.syncOnWrite) {as : List Action} {s : State}
    (hg : Guarded (step crc cfg) Fresh State.init as)
    (hrun : exec (step crc cfg) State.init as = some s) :
    ∃ l : RecordLog π, Relation.ReflTransGen RecordLog.Step RecordLog.fresh l ∧
      StateRefines crc body s l ∧ replay l.dir = (records crc s.dir).map (view body) := by
  obtain ⟨l, hsteps, hrefines⟩ := exec_simulates (StateRefines crc body)
    (fun _ _ _ _ h hfresh hs => h.step hcfg hfresh hs) stateRefines_init hg hrun
  exact ⟨l, hsteps, hrefines, hrefines.shows.replay⟩

theorem files_refine_record_log_append : ∃ s, exec (step checksumIEEE ⟨true, 1000⟩) State.init
      [.new ⟨1, true, FileHeaderSize⟩, .append RecordTypeData [0x41] (calm 2)] = some s ∧
    ∃ l : RecordLog (List UInt8), StateRefines checksumIEEE Record.data s l := by
  refine .imp (fun _ hrun => ⟨hrun, (files_refine_record_log checksumIEEE Record.data rfl
    ?_ hrun).imp (fun _ h => h.2.1)⟩) ⟨_, rfl⟩
  refine ⟨not_mem_nil, ?_⟩
  rintro t ⟨⟩
  exact ⟨⟨by decide, by rintro w ⟨⟩; decide⟩, fun _ _ => trivial⟩

end MinIODB.Wal
