import MinIODB.Library.BigEndian
import MinIODB.Library.Framing

/-!
# The write-ahead log file format

A file is a six-byte header followed by records. A record is written as header,
checksum, timestamp and data, while its checksum covers header, timestamp and data
in this order. Readers stop at the first record they cannot read. The checksum
`crc32.ChecksumIEEE` is a parameter: no statement below depends on which function
of the bytes it is.
-/
namespace MinIODB.Wal
open BigEndian Framing List

def RecordTypeData : UInt8 := 1
def RecordTypeCommit : UInt8 := 2
def RecordTypeDelete : UInt8 := 3
def RecordTypeTombstone : UInt8 := 4

def HeaderSize : ℕ := 13
def MaxRecordSize : ℕ := 64 * 1024 * 1024

def MagicNumber : List UInt8 := [0x4D, 0x57, 0x41, 0x4C]
def MagicNumberSize : ℕ := 4
def CurrentVersion : UInt16 := 1
def VersionSize : ℕ := 2
def FileHeaderSize : ℕ := MagicNumberSize + VersionSize

structure Record where
  seqNum : UInt64
  type : UInt8
  timestamp : Int64
  data : List UInt8
  deriving DecidableEq

inductive WalError where
  | eof
  | unexpectedEOF
  | recordSize (dataLen : UInt32)
  | crcMismatch (expected actual : UInt32)
  | readVersion (cause : WalError)
  | unsupportedVersion (version : UInt16)
  | readFileHeader (cause : WalError)
  | handler (seqNum : UInt64) (cause : String)
  deriving DecidableEq

def WalError.message : WalError → String
  | eof => "EOF"
  | unexpectedEOF => "unexpected EOF"
  | recordSize n => s!"WAL record size {n} exceeds maximum {MaxRecordSize}"
  | crcMismatch expected actual => s!"CRC mismatch: expected {expected}, got {actual}"
  | readVersion cause => "failed to read version: " ++ cause.message
  | unsupportedVersion version =>
    s!"unsupported WAL file version: {version} (current: {CurrentVersion})"
  | readFileHeader cause => "failed to read file header: " ++ cause.message
  | handler seqNum cause => s!"handler error at record {seqNum}: " ++ cause

def crcBit (c : UInt32) : UInt32 :=
  if c &&& 1 = 1 then (c >>> 1) ^^^ 0xEDB88320 else c >>> 1

def checksumIEEE (bs : List UInt8) : UInt32 :=
  bs.foldl (fun c b => Nat.iterate crcBit 8 (c ^^^ b.toUInt32)) 0xFFFFFFFF ^^^ 0xFFFFFFFF

example : checksumIEEE [0x31, 0x32, 0x33, 0x34, 0x35, 0x36, 0x37, 0x38, 0x39] = 0xCBF43926 := by
  decide +kernel

def fileHeader : List UInt8 := MagicNumber ++ putUint16 CurrentVersion

@[simp] theorem fileHeader_length : fileHeader.length = FileHeaderSize := rfl

section
variable (crc : List UInt8 → UInt32)

def recordHeader (r : Record) : List UInt8 :=
  putUint32 (UInt32.ofNat r.data.length) ++ r.type :: putUint64 r.seqNum

def timestampBytes (r : Record) : List UInt8 := putUint64 r.timestamp.toUInt64

def writeRecord (r : Record) : List UInt8 :=
  recordHeader r ++ putUint32 (crc (recordHeader r ++ timestampBytes r ++ r.data)) ++
    timestampBytes r ++ r.data

@[simp] theorem recordHeader_length (r : Record) : (recordHeader r).length = 13 := by
  simp [recordHeader]

@[simp] theorem timestampBytes_length (r : Record) : (timestampBytes r).length = 8 := by
  simp [timestampBytes]

lemma writeRecord_length (r : Record) : (writeRecord crc r).length = 25 + r.data.length := by
  simp only [writeRecord, length_append, recordHeader_length, putUint32_length,
    timestampBytes_length]

def readFull (n : ℕ) (reader : List UInt8) : Except WalError (List UInt8 × List UInt8) :=
  if n ≤ reader.length then .ok (reader.take n, reader.drop n)
  else if reader = [] then .error .eof
  else .error .unexpectedEOF

lemma readFull_append (n : ℕ) (bs tail : List UInt8) (hn : bs.length = n) :
    readFull n (bs ++ tail) = .ok (bs, tail) := by
  rw [readFull, if_pos (by simp [hn]), take_left' hn, drop_left' hn]

lemma readFull_short (n : ℕ) (reader : List UInt8) (hn : reader.length < n) :
    ∃ e, readFull n reader = .error e := by
  rw [readFull, if_neg (by omega)]
  split
  · exact ⟨_, rfl⟩
  · exact ⟨_, rfl⟩

lemma readFull_rest {n : ℕ} {reader bs rest : List UInt8}
    (h : readFull n reader = .ok (bs, rest)) : rest.length + n = reader.length := by
  unfold readFull at h
  split at h
  · rename_i hn
    have hrest : reader.drop n = rest := (Prod.mk.inj (Except.ok.inj h)).2
    rw [← hrest, length_drop]
    omega
  · split at h <;> cases h

def actualCRC (newCRCFormat : Bool) (header timestamp data : List UInt8) : UInt32 :=
  if newCRCFormat then crc (header ++ timestamp ++ data) else crc data

def readRecordWithFormat (newCRCFormat : Bool) : Decoder UInt8 WalError Record := fun reader => do
  let (header, reader) ← readFull HeaderSize reader
  let dataLen := uint32 (header.take 4)
  if MaxRecordSize < dataLen.toNat then throw (.recordSize dataLen) else
    let recordType := header.getD 4 0
    let seqNum := uint64 ((header.drop 5).take 8)
    let (crcBytes, reader) ← readFull 4 reader
    let expectedCRC := uint32 crcBytes
    let (timestampBytes, reader) ← readFull 8 reader
    let timestamp := (uint64 timestampBytes).toInt64
    let (data, reader) ← readFull dataLen.toNat reader
    let actualCRC := actualCRC crc newCRCFormat header timestampBytes data
    if actualCRC ≠ expectedCRC then throw (.crcMismatch expectedCRC actualCRC)
    else return (⟨seqNum, recordType, timestamp, data⟩, reader)

lemma readRecordWithFormat_consuming (newCRCFormat : Bool) :
    Consuming (readRecordWithFormat crc newCRCFormat) := by
  intro reader r rest h
  obtain ⟨⟨header, r1⟩, h1, h⟩ := bind_ok h
  have hlen := readFull_rest h1
  dsimp only at h
  split at h
  · cases h
  · obtain ⟨⟨crcBytes, r2⟩, h2, h⟩ := bind_ok h
    obtain ⟨⟨ts, r3⟩, h3, h⟩ := bind_ok h
    obtain ⟨⟨data, r4⟩, h4, h⟩ := bind_ok h
    have hlen2 := readFull_rest h2
    have hlen3 := readFull_rest h3
    have hlen4 := readFull_rest h4
    dsimp only at h hlen2 hlen3 hlen4
    split at h
    · cases h
    · have hr : r4 = rest := (Prod.mk.inj (Except.ok.inj h)).2
      simp only [HeaderSize] at hlen
      subst hr
      omega

/-- A record in the format of files with a header or in the one of files without. -/
def recordBytes (newCRCFormat : Bool) (r : Record) : List UInt8 :=
  recordHeader r ++ (putUint32 (actualCRC crc newCRCFormat (recordHeader r) (timestampBytes r) r.data) ++
    (timestampBytes r ++ r.data))

lemma recordBytes_true (r : Record) : recordBytes crc true r = writeRecord crc r := by
  simp [recordBytes, writeRecord, actualCRC]

lemma recordBytes_length (newCRCFormat : Bool) (r : Record) :
    (recordBytes crc newCRCFormat r).length = 25 + r.data.length := by
  simp only [recordBytes, length_append, recordHeader_length, putUint32_length,
    timestampBytes_length]
  omega

lemma dataLen_recordHeader (r : Record) (hr : r.data.length ≤ MaxRecordSize) :
    (uint32 ((recordHeader r).take 4)).toNat = r.data.length := by
  have hlen : (putUint32 (UInt32.ofNat r.data.length)).length = 4 := by simp
  rw [recordHeader, take_left' hlen, uint32_putUint32, UInt32.toNat_ofNat']
  simp only [MaxRecordSize] at hr
  omega

lemma type_recordHeader (r : Record) : (recordHeader r).getD 4 0 = r.type := by
  simp [recordHeader]

lemma seqNum_recordHeader (r : Record) :
    uint64 (((recordHeader r).drop 5).take 8) = r.seqNum := by
  have hlen : (putUint32 (UInt32.ofNat r.data.length) ++ [r.type]).length = 5 := by simp
  have hsplit : recordHeader r =
      putUint32 (UInt32.ofNat r.data.length) ++ [r.type] ++ putUint64 r.seqNum := by
    simp [recordHeader]
  rw [hsplit, drop_left' hlen, take_of_length_le (by simp), uint64_putUint64]

lemma readRecord_recordBytes (newCRCFormat : Bool) (r : Record) (tail : List UInt8)
    (hr : r.data.length ≤ MaxRecordSize) :
    readRecordWithFormat crc newCRCFormat (recordBytes crc newCRCFormat r ++ tail) =
      .ok (r, tail) := by
  have hts : (uint64 (timestampBytes r)).toInt64 = r.timestamp := by
    simp [timestampBytes]
  have hlen := dataLen_recordHeader r hr
  rw [recordBytes]
  simp only [append_assoc (recordHeader r), append_assoc (putUint32 _),
    append_assoc (timestampBytes r) r.data tail]
  unfold readRecordWithFormat
  rw [readFull_append HeaderSize _ _ (recordHeader_length r)]
  simp only [bind, Except.bind]
  rw [if_neg (by omega), readFull_append 4 _ _ (putUint32_length _)]
  simp only [readFull_append 8 _ _ (timestampBytes_length r), hlen,
    readFull_append r.data.length r.data tail rfl]
  rw [if_neg (by simp), type_recordHeader, seqNum_recordHeader, hts]
  rfl

lemma readRecord_torn (newCRCFormat : Bool) (r : Record) (n : ℕ)
    (hr : r.data.length ≤ MaxRecordSize) (hn : n < (recordBytes crc newCRCFormat r).length) :
    ∃ e, readRecordWithFormat crc newCRCFormat ((recordBytes crc newCRCFormat r).take n) =
      .error e := by
  have hlen := dataLen_recordHeader r hr
  rw [recordBytes_length] at hn
  unfold readRecordWithFormat
  by_cases h13 : n < 13
  · obtain ⟨e, he⟩ := readFull_short HeaderSize ((recordBytes crc newCRCFormat r).take n)
      (by simp [HeaderSize, h13])
    exact ⟨e, by rw [he]; rfl⟩
  rw [recordBytes, take_append, take_of_length_le (by simp; omega),
    readFull_append HeaderSize _ _ (recordHeader_length r), recordHeader_length]
  simp only [bind, Except.bind]
  rw [if_neg (by omega)]
  by_cases h17 : n - 13 < 4
  · obtain ⟨e, he⟩ := readFull_short 4 (List.take (n - 13)
      (putUint32 (actualCRC crc newCRCFormat (recordHeader r) (timestampBytes r) r.data) ++
        (timestampBytes r ++ r.data))) (by simp [h17])
    exact ⟨e, by rw [he]⟩
  rw [take_append, take_of_length_le (by simp; omega),
    readFull_append 4 _ _ (putUint32_length _), putUint32_length]
  dsimp only
  by_cases h25 : n - 13 - 4 < 8
  · obtain ⟨e, he⟩ := readFull_short 8 (List.take (n - 13 - 4) (timestampBytes r ++ r.data))
      (by simp [h25])
    exact ⟨e, by rw [he]⟩
  rw [take_append, take_of_length_le (by simp; omega),
    readFull_append 8 _ _ (timestampBytes_length r), timestampBytes_length]
  dsimp only
  obtain ⟨e, he⟩ := readFull_short r.data.length (List.take (n - 13 - 4 - 8) r.data)
    (by simp; omega)
  exact ⟨e, by rw [hlen, he]⟩

def recordCode : FrameCode UInt8 WalError Record where
  encode := writeRecord crc
  decode := readRecordWithFormat crc true
  valid := fun r => r.data.length ≤ MaxRecordSize
  consuming := readRecordWithFormat_consuming crc true
  decode_encode := by simpa only [recordBytes_true] using readRecord_recordBytes crc true
  decode_torn := by simpa only [recordBytes_true] using readRecord_torn crc true

/-- The records of a file with a header (`true`) or of a file of the old format. -/
def formatCode (newCRCFormat : Bool) : FrameCode UInt8 WalError Record where
  encode := recordBytes crc newCRCFormat
  decode := readRecordWithFormat crc newCRCFormat
  valid := fun r => r.data.length ≤ MaxRecordSize
  consuming := readRecordWithFormat_consuming crc newCRCFormat
  decode_encode := readRecord_recordBytes crc newCRCFormat
  decode_torn := readRecord_torn crc newCRCFormat

/-- `readFileHeader`: whether the file has a header, its version, and the reader
after it. Peeking at a file of fewer than four bytes is an end of file, which counts
as a file of the old format. -/
def readFileHeader (reader : List UInt8) : Except WalError (Bool × UInt16 × List UInt8) :=
  if reader.length < MagicNumberSize then .ok (false, 0, reader)
  else if reader.take MagicNumberSize ≠ MagicNumber then .ok (false, 0, reader)
  else
    match readFull VersionSize (reader.drop MagicNumberSize) with
    | .error e => .error (.readVersion e)
    | .ok (versionBytes, rest) =>
      if CurrentVersion < uint16 versionBytes then
        .error (.unsupportedVersion (uint16 versionBytes))
      else .ok (true, uint16 versionBytes, rest)

def readRecords (file : List UInt8) : Except WalError (List Record × Option WalError) :=
  match readFileHeader file with
  | .error e => .error e
  | .ok (hasFileHeader, _, rest) =>
    .ok (frames (readRecordWithFormat crc hasFileHeader) (if hasFileHeader then rest else file))

def deliver {σ : Type*} (handler : σ → Record → σ × Option String) :
    σ → List Record → σ × Option WalError
  | s, [] => (s, none)
  | s, r :: rs =>
    match handler s r with
    | (s', none) => deliver handler s' rs
    | (s', some e) => (s', some (.handler r.seqNum e))

def replayFile {σ : Type*} (handler : σ → Record → σ × Option String) (file : List UInt8) (s : σ) :
    σ × Option WalError :=
  match readRecords crc file with
  | .error e => (s, some (.readFileHeader e))
  | .ok (records, _) => deliver handler s records

def delivered (file : List UInt8) : List Record :=
  (replayFile crc (fun acc r => (acc ++ [r], none)) file []).1

def getFileMaxSequence (file : List UInt8) : Except WalError UInt64 :=
  match readRecords crc file with
  | .error e => .error e
  | .ok (records, _) =>
    .ok (records.foldl (fun maxSeq r => if r.seqNum > maxSeq then r.seqNum else maxSeq) 0)

def fileStream (rs : List Record) : List UInt8 := fileHeader ++ (recordCode crc).stream rs

lemma readRecords_stops {file : List UInt8} {records : List Record} {stop : Option WalError}
    (h : readRecords crc file = .ok (records, stop)) : stop.isSome := by
  unfold readRecords at h
  split at h
  · cases h
  · rename_i hasFileHeader _ rest _
    have hstop := frames_stops (readRecordWithFormat_consuming crc hasFileHeader)
      (if hasFileHeader then rest else file)
    rwa [Except.ok.inj h] at hstop

lemma deliver_collect (acc rs : List Record) :
    deliver (fun acc r => (acc ++ [r], none)) acc rs = (acc ++ rs, none) := by
  induction rs generalizing acc with
  | nil => simp [deliver]
  | cons r rs ih => simp [deliver, ih]

lemma frames_short (newCRCFormat : Bool) (reader : List UInt8) (hr : reader.length < 13) :
    (frames (readRecordWithFormat crc newCRCFormat) reader).1 = [] := by
  obtain ⟨e, he⟩ := readFull_short HeaderSize reader hr
  have hd : readRecordWithFormat crc newCRCFormat reader = .error e := by
    rw [readRecordWithFormat, he]
    rfl
  rw [frames_eq (readRecordWithFormat_consuming crc newCRCFormat), hd]

lemma readFileHeader_fileHeader (rest : List UInt8) :
    readFileHeader (fileHeader ++ rest) = .ok (true, CurrentVersion, rest) := by
  have htake : (fileHeader ++ rest).take MagicNumberSize = MagicNumber := rfl
  have hdrop : (fileHeader ++ rest).drop MagicNumberSize = putUint16 CurrentVersion ++ rest := rfl
  have hlen : ¬(fileHeader ++ rest).length < MagicNumberSize := by
    simp only [length_append, fileHeader_length, FileHeaderSize]
    omega
  rw [readFileHeader, if_neg hlen, htake, if_neg (by simp), hdrop,
    readFull_append VersionSize _ _ (putUint16_length _)]
  simp

lemma readFileHeader_rest {reader rest : List UInt8} {hasFileHeader : Bool} {version : UInt16}
    (h : readFileHeader reader = .ok (hasFileHeader, version, rest)) :
    rest.length ≤ reader.length := by
  unfold readFileHeader at h
  split at h
  · cases h; exact le_rfl
  · split at h
    · cases h; exact le_rfl
    · cases hr : readFull VersionSize (reader.drop MagicNumberSize) with
      | error => simp [hr] at h
      | ok p =>
        obtain ⟨versionBytes, rest'⟩ := p
        have hlen := readFull_rest hr
        simp only [hr] at h
        split at h <;> cases h
        · rw [length_drop] at hlen
          omega

lemma delivered_torn_header (n : ℕ) (hn : n < FileHeaderSize) :
    delivered crc (fileHeader.take n) = [] := by
  have hshort : (fileHeader.take n).length < 13 := by
    simp only [FileHeaderSize, MagicNumberSize, VersionSize] at hn
    simp
    omega
  unfold delivered replayFile readRecords
  cases h : readFileHeader (fileHeader.take n) with
  | error => rfl
  | ok p =>
    obtain ⟨hasFileHeader, version, rest⟩ := p
    have hrest : (if hasFileHeader then rest else fileHeader.take n).length < 13 := by
      cases hasFileHeader with
      | false => exact hshort
      | true => exact (readFileHeader_rest h).trans_lt hshort
    simp [frames_short crc hasFileHeader _ hrest, deliver]

lemma delivered_header (rest : List UInt8) :
    delivered crc (fileHeader ++ rest) = (frames (recordCode crc).decode rest).1 := by
  simp only [delivered, replayFile, readRecords, readFileHeader_fileHeader, if_true,
    deliver_collect, nil_append]
  rfl

lemma delivered_take (rs : List Record) (hrs : ∀ r ∈ rs, r.data.length ≤ MaxRecordSize) (n : ℕ) :
    delivered crc ((fileStream crc rs).take n) =
      rs.take ((recordCode crc).wholeCount rs (n - FileHeaderSize)) := by
  by_cases hn : n < FileHeaderSize
  · have hzero : (recordCode crc).wholeCount rs 0 = 0 := by
      cases rs with
      | nil => rfl
      | cons r =>
        have hpos : ¬((recordCode crc).encode r).length ≤ 0 := by
          simp [recordCode, writeRecord_length]
        rw [FrameCode.wholeCount, if_neg hpos]
    rw [fileStream, take_append_of_le_length (by rw [fileHeader_length]; omega),
      delivered_torn_header crc n hn, Nat.sub_eq_zero_of_le (by omega), hzero, take_zero]
  · rw [fileStream, take_append, take_of_length_le (by rw [fileHeader_length]; omega),
      delivered_header, fileHeader_length]
    exact (recordCode crc).frames_take rs _ hrs

/-- Torn tails: from any prefix of a written file, a replay delivers exactly the
records whose bytes lie wholly inside the prefix and stops at an error of a read;
from the whole file it delivers all of them. -/
theorem replayFile_delivers_whole_records (rs : List Record) (hrs : ∀ r ∈ rs, r.data.length ≤ MaxRecordSize) :
    (∀ n, ∃ k, delivered crc ((fileStream crc rs).take n) = rs.take k ∧
      ∀ i < rs.length, i < k ↔ (fileStream crc (rs.take (i + 1))).length ≤ n) ∧
    (∀ n records stop, readRecords crc ((fileStream crc rs).take n) = .ok (records, stop) →
      stop.isSome) ∧ delivered crc (fileStream crc rs) = rs := by
  refine ⟨?_, fun n records stop h => readRecords_stops crc h, ?_⟩
  · intro n
    refine ⟨_, delivered_take crc rs hrs n, ?_⟩
    intro i hi
    have hcount := (recordCode crc).lt_wholeCount_iff rs (n - FileHeaderSize) i hi
    have hpos : 0 < ((recordCode crc).stream (rs.take (i + 1))).length := by
      cases rs with
      | nil => simp at hi
      | cons => simp [recordCode, writeRecord_length]
    rw [hcount, fileStream, length_append, fileHeader_length]
    omega
  · rw [fileStream, delivered_header]
    exact (recordCode crc).frames_stream rs hrs

end

/-- A two-record file with the IEEE checksum, replayed whole. -/
theorem replayFile_two_records :
    (∀ r ∈ [(⟨1, RecordTypeData, 7, [0x7b, 0x7d]⟩ : Record), ⟨2, RecordTypeTombstone, -1, []⟩],
      r.data.length ≤ MaxRecordSize) ∧ delivered checksumIEEE (fileStream checksumIEEE
      [⟨1, RecordTypeData, 7, [0x7b, 0x7d]⟩, ⟨2, RecordTypeTombstone, -1, []⟩]) =
      [⟨1, RecordTypeData, 7, [0x7b, 0x7d]⟩, ⟨2, RecordTypeTombstone, -1, []⟩] :=
  ⟨by decide, (replayFile_delivers_whole_records checksumIEEE _ (by decide)).2.2⟩

end MinIODB.Wal
