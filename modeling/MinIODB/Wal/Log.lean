import MinIODB.Wal.Format
import MinIODB.Library.Directory
import MinIODB.Library.Transition

/-!
# The write-ahead log on disk

The log is a directory of files and, while a process has it open, a handle with a
buffered writer on the newest of them. Every operation takes the answers of the
operating system as an argument: which writes fail and after how many bytes, whether
a file can be created or deleted, and the clock readings that name new files.

Sequence numbers are recomputed from the files whenever the log is opened, so a
number can come back once the record that carried it is gone.
-/
namespace MinIODB.Wal
open Transition

structure Config where
  syncOnWrite : Bool
  maxFileSize : ℤ

structure Handle where
  file : ℕ
  buffered : List UInt8
  writeErr : Bool
  seqNum : UInt64
  currentSize : ℤ
  rotateCount : ℕ
  closed : Bool

structure Outcome where
  ok : Bool
  flushed : ℕ

structure OpenEnv where
  name : ℕ
  opened : Bool
  headerBytes : ℕ

structure AppendEnv where
  timestamp : Int64
  write : Outcome
  flush : Outcome
  fsync : Bool
  elapsed : Bool
  rotate : OpenEnv
  rotateFlush : Outcome

inductive AppendError where
  | closed
  | tooLarge (size : ℕ)
  | write
  | sync

def bufWrite (d : Directory UInt8) (w : Handle) (p : List UInt8) (o : Outcome) :
    Directory UInt8 × Handle × Bool :=
  if w.writeErr then (d, w, false)
  else if o.ok then
    (d.append w.file ((w.buffered ++ p).take o.flushed),
      { w with buffered := (w.buffered ++ p).drop o.flushed }, true)
  else
    (d.append w.file ((w.buffered ++ p).take (min o.flushed ((w.buffered ++ p).length - 1))),
      { w with writeErr := true }, false)

def bufFlush (d : Directory UInt8) (w : Handle) (o : Outcome) : Directory UInt8 × Handle × Bool :=
  if w.writeErr then (d, w, false)
  else if w.buffered = [] then (d, w, true)
  else if o.ok then (d.append w.file w.buffered, { w with buffered := [] }, true)
  else
    (d.append w.file (w.buffered.take (min o.flushed (w.buffered.length - 1))),
      { w with writeErr := true }, false)

def sync (d : Directory UInt8) (w : Handle) (flush : Outcome) (fsync : Bool) :
    Directory UInt8 × Handle × Bool :=
  ((bufFlush d w flush).1, (bufFlush d w flush).2.1, (bufFlush d w flush).2.2 && fsync)

def createFile (d : Directory UInt8) (e : OpenEnv) : Directory UInt8 × Bool :=
  if e.opened = false then (d, false)
  else if e.headerBytes < FileHeaderSize then
    (d.append e.name (fileHeader.take e.headerBytes), false)
  else (d.append e.name fileHeader, true)

def openNewFile (d : Directory UInt8) (w : Handle) (e : OpenEnv) (flush : Outcome) :
    Directory UInt8 × Handle :=
  if (createFile d e).2 then
    ((bufFlush (createFile d e).1 w flush).1,
      { w with
        file := e.name
        buffered := []
        writeErr := false
        currentSize := FileHeaderSize
        rotateCount := w.rotateCount + 1 })
  else ((createFile d e).1, w)

variable (crc : List UInt8 → UInt32) (cfg : Config)

def appendRotate (d : Directory UInt8) (w : Handle) (e : AppendEnv) :
    Directory UInt8 × Handle × Except AppendError UInt64 :=
  if cfg.maxFileSize ≤ w.currentSize then
    ((openNewFile d w e.rotate e.rotateFlush).1, (openNewFile d w e.rotate e.rotateFlush).2,
      .ok w.seqNum)
  else (d, w, .ok w.seqNum)

def appendSync (d : Directory UInt8) (w : Handle) (e : AppendEnv) :
    Directory UInt8 × Handle × Except AppendError UInt64 :=
  if cfg.syncOnWrite then
    if (sync d w e.flush e.fsync).2.2 then
      appendRotate cfg (sync d w e.flush e.fsync).1 (sync d w e.flush e.fsync).2.1 e
    else ((sync d w e.flush e.fsync).1, (sync d w e.flush e.fsync).2.1, .error .sync)
  else if e.elapsed then
    appendRotate cfg (sync d w e.flush e.fsync).1 (sync d w e.flush e.fsync).2.1 e
  else appendRotate cfg d w e

def nextRecord (w : Handle) (recordType : UInt8) (data : List UInt8) (e : AppendEnv) : Record :=
  ⟨w.seqNum + 1, recordType, e.timestamp, data⟩

def appendWrite (d : Directory UInt8) (w : Handle) (recordType : UInt8) (data : List UInt8)
    (e : AppendEnv) : Directory UInt8 × Handle × Bool :=
  bufWrite d { w with seqNum := w.seqNum + 1 } (writeRecord crc (nextRecord w recordType data e))
    e.write

def append (d : Directory UInt8) (w : Handle) (recordType : UInt8) (data : List UInt8)
    (e : AppendEnv) : Directory UInt8 × Handle × Except AppendError UInt64 :=
  if w.closed then (d, w, .error .closed)
  else if MaxRecordSize < data.length then (d, w, .error (.tooLarge data.length))
  else if (appendWrite crc d w recordType data e).2.2 then
    appendSync cfg (appendWrite crc d w recordType data e).1
      { (appendWrite crc d w recordType data e).2.1 with
        currentSize := w.currentSize + (HeaderSize + 4 + 8 + data.length : ℕ) } e
  else
    ((appendWrite crc d w recordType data e).1,
      { (appendWrite crc d w recordType data e).2.1 with
        seqNum := (appendWrite crc d w recordType data e).2.1.seqNum - 1 }, .error .write)

def findLastSequence (d : Directory UInt8) : UInt64 :=
  d.names.foldl (fun maxSeq name =>
    match getFileMaxSequence crc (d.contents name) with
    | .error _ => maxSeq
    | .ok seq => if seq > maxSeq then seq else maxSeq) 0

def truncated (d : Directory UInt8) (currentFile : ℕ) (beforeSeqNum : UInt64)
    (removable : ℕ → Bool) (name : ℕ) : Bool :=
  name != currentFile && removable name &&
    match getFileMaxSequence crc (d.contents name) with
    | .error _ => false
    | .ok maxSeq => decide (maxSeq ≤ beforeSeqNum)

def truncate (d : Directory UInt8) (currentFile : ℕ) (beforeSeqNum : UInt64)
    (removable : ℕ → Bool) : Directory UInt8 :=
  d.remove (truncated crc d currentFile beforeSeqNum removable)

def records (d : Directory UInt8) : List Record :=
  d.names.flatMap (fun name => delivered crc (d.contents name))

structure State where
  dir : Directory UInt8
  log : Option Handle
  issued : List UInt64

def State.init : State := ⟨Directory.empty, none, []⟩

inductive Action where
  | new (e : OpenEnv)
  | append (recordType : UInt8) (data : List UInt8) (e : AppendEnv)
  | truncate (beforeSeqNum : UInt64) (removable : ℕ → Bool)
  | close (flush : Outcome)
  | exit

def newHandle (d : Directory UInt8) (e : OpenEnv) : Handle :=
  ⟨e.name, [], false, findLastSequence crc d, FileHeaderSize, 1, false⟩

def issue (issued : List UInt64) : Except AppendError UInt64 → List UInt64
  | .ok seqNum => issued ++ [seqNum]
  | .error _ => issued

def step (s : State) : Action → Option State
  | .new e =>
    if s.log.isSome then none
    else if (createFile s.dir e).2 then
      some { s with dir := (createFile s.dir e).1, log := some (newHandle crc s.dir e) }
    else some { s with dir := (createFile s.dir e).1 }
  | .append recordType data e =>
    s.log.map (fun w =>
      { dir := (append crc cfg s.dir w recordType data e).1
        log := some (append crc cfg s.dir w recordType data e).2.1
        issued := issue s.issued (append crc cfg s.dir w recordType data e).2.2 })
  | .truncate beforeSeqNum removable =>
    s.log.map (fun w => { s with dir := truncate crc s.dir w.file beforeSeqNum removable })
  | .close flush =>
    s.log.map (fun w =>
      if w.closed then s
      else { s with
        dir := (bufFlush s.dir w flush).1
        log := some { (bufFlush s.dir w flush).2.1 with closed := true } })
  | .exit => s.log.map (fun _ => { s with log := none })

end MinIODB.Wal
