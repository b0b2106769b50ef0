import MinIODB.Wal.Numbering

/-!
# Files of the old format and damaged files

A file without a header begins with the length of its first record. The magic number, read as
a length, is above the largest record, so the two formats are told apart by four bytes. A scan
ends at the first record it cannot read: what stands behind a damaged region is not seen by
`getFileMaxSequence`, and `Truncate` decides by what it sees.
-/
namespace MinIODB.Wal
open BigEndian Framing List

/-- A file is a sequence of records as they were written and of damaged regions. -/
inductive Piece where
  | intact (r : Record)
  | damaged (bs : List UInt8)

/-- No record follows a damaged region. -/
def DamageLast (ps : List Piece) : Prop :=
  ∃ (rs : List Record) (bs : List (List UInt8)), ps = rs.map .intact ++ bs.map .damaged

section
variable (crc : List UInt8 → UInt32)

def Piece.bytes (newCRCFormat : Bool) : Piece → List UInt8
  | .intact r => recordBytes crc newCRCFormat r
  | .damaged bs => bs

def fileBytes (newCRCFormat : Bool) (ps : List Piece) : List UInt8 :=
  (if newCRCFormat then fileHeader else []) ++ ps.flatMap (Piece.bytes crc newCRCFormat)

def oldFile (rs : List Record) : List UInt8 := fileBytes crc false (rs.map .intact)

variable {newCRCFormat : Bool} {rs : List Record}

lemma fileBytes_append (rs : List Record) (ps : List Piece) :
    fileBytes crc newCRCFormat (rs.map .intact ++ ps) = (if newCRCFormat then fileHeader else []) ++
        ((formatCode crc newCRCFormat).stream rs ++ ps.flatMap (Piece.bytes crc newCRCFormat)) := by
  rw [fileBytes, flatMap_append, flatMap_map]
  rfl

-- the first four bytes are the length of the first record, which the magic number exceeds
lemma take_recordBytes_ne (r : Record) (rest : List UInt8) (hr : r.data.length ≤ MaxRecordSize) :
    (recordBytes crc newCRCFormat r ++ rest).take MagicNumberSize ≠ MagicNumber := by
  intro h
  have htake : (recordBytes crc newCRCFormat r ++ rest).take 4 = (recordHeader r).take 4 := by
    rw [recordBytes, append_assoc, take_append_of_le_length (by simp)]
  have hlen := dataLen_recordHeader r hr
  rw [← htake, show List.take 4 _ = MagicNumber from h] at hlen
  rw [← hlen] at hr
  exact absurd hr (by decide)

lemma readFileHeader_old (r : Record) (rest : List UInt8) (hr : r.data.length ≤ MaxRecordSize) :
    readFileHeader (recordBytes crc false r ++ rest) =
      .ok (false, 0, recordBytes crc false r ++ rest) := by
  have hlen : ¬ (recordBytes crc false r ++ rest).length < MagicNumberSize := by
    rw [length_append, recordBytes_length, MagicNumberSize]
    omega
  rw [readFileHeader, if_neg hlen, if_pos (take_recordBytes_ne crc r rest hr)]

/-- A reader of either format finds the records before the first damaged region. -/
lemma readRecords_fileBytes (newCRCFormat : Bool) (hfirst : newCRCFormat ∨ rs ≠ [])
    (hrs : ∀ r ∈ rs, r.data.length ≤ MaxRecordSize) (ps : List Piece) :
    ∃ stop, readRecords crc (fileBytes crc newCRCFormat (rs.map .intact ++ ps)) =
      .ok (rs ++ (frames (readRecordWithFormat crc newCRCFormat)
        (ps.flatMap (Piece.bytes crc newCRCFormat))).1, stop) := by
  have hframes := (formatCode crc newCRCFormat).frames_stream_append rs
    (ps.flatMap (Piece.bytes crc newCRCFormat)) hrs
  refine ⟨_, Eq.trans ?_ (congrArg Except.ok (Prod.ext hframes rfl))⟩
  rw [fileBytes_append, readRecords]
  cases newCRCFormat with
  | true =>
    rw [if_pos rfl, readFileHeader_fileHeader]
    rfl
  | false =>
    cases rs with
    | nil => simp at hfirst
    | cons r rs =>
      have hread := readFileHeader_old crc r ((formatCode crc false).stream rs ++
        ps.flatMap (Piece.bytes crc false)) (hrs r (.head rs))
      rw [if_neg Bool.false_ne_true, nil_append, FrameCode.stream_cons, append_assoc,
        show (formatCode crc false).encode r = recordBytes crc false r from rfl, hread]
      rfl

/-- Files of the old format and files with a header are never confused: an old file is read
as one, replays to its records and cannot begin with the magic number, and every file that
begins with a header is read as having one. -/
theorem file_formats_told_apart :
    (∀ rs : List Record, rs ≠ [] → (∀ r ∈ rs, r.data.length ≤ MaxRecordSize) →
      readFileHeader (oldFile crc rs) = .ok (false, 0, oldFile crc rs) ∧
      (∀ (σ : Type) (handler : σ → Record → σ × Option String) (s : σ),
        replayFile crc handler (oldFile crc rs) s = deliver handler s rs) ∧
      delivered crc (oldFile crc rs) = rs ∧ ¬ MagicNumber <+: oldFile crc rs) ∧
    ∀ rest, readFileHeader (fileHeader ++ rest) = .ok (true, CurrentVersion, rest) := by
  refine ⟨fun rs hne hrs => ?_, readFileHeader_fileHeader⟩
  obtain ⟨stop, hread⟩ := readRecords_fileBytes crc false (.inr hne) hrs []
  rw [append_nil, flatMap_nil, show (frames (readRecordWithFormat crc false) []).1 = [] from
    (formatCode crc false).frames_nil, append_nil] at hread
  refine ⟨?_, fun σ handler s => by rw [replayFile, oldFile, hread], delivered_of_ok crc hread, ?_⟩
  all_goals
    cases rs with
    | nil => exact absurd rfl hne
    | cons r rs => ?_
  · exact readFileHeader_old crc r _ (hrs r (.head rs))
  · rintro hmagic
    exact take_recordBytes_ne crc r _ (hrs r (.head rs)) (prefix_iff_eq_take.mp hmagic).symm

end

def numbered (seqNum : UInt64) : Record := ⟨seqNum, RecordTypeData, 7, [1]⟩

/-- Two records in a file of the old format. -/
theorem file_formats_told_apart_two :
    readFileHeader (oldFile checksumIEEE [numbered 1, numbered 2]) =
      .ok (false, 0, oldFile checksumIEEE [numbered 1, numbered 2]) ∧
    delivered checksumIEEE (oldFile checksumIEEE [numbered 1, numbered 2]) =
      [numbered 1, numbered 2] := by
  have h := (file_formats_told_apart checksumIEEE).1 [numbered 1, numbered 2] (by decide) (by decide)
  exact ⟨h.1, h.2.2.1⟩

/-- A log of two files, the newer of them open and empty. -/
def twoFiles (ps : List Piece) : Directory UInt8 :=
  (Directory.empty.append 1 (fileBytes checksumIEEE true ps)).append 2 fileHeader

end MinIODB.Wal
