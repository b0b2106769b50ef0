import Mathlib.Tactic

/-!
# Stream writes

The gRPC server and the service each read a stream of requests to its end and write the records
of every request with `WriteData`. The server goes on after a record that fails; the service
gives up the rest of the request, and counts the request as a whole. `WriteData` tells of a
failure by an error or by a response without success.

A call of `WriteData` comes with what its steps meet; the records that it ingests are kept in
order. Audit, cache invalidation and events are left out.
-/
namespace MinIODB.StreamWrite
open List

structure Config where
  defaultTable : String
  isValidTableName : String → Bool

structure WriteCall where
  id : String
  hasPayload : Bool
  ensureTableExists : Option String
  resolveRecordID : Except String String
  ingestData : Option String

structure StreamWriteRequest where
  table : String
  records : List WriteCall

structure StreamWriteResponse where
  success : Bool
  recordsCount : Int64
  errors : List String

inductive WriteOutcome where
  | error (err : String)
  | refused (message : String)
  | ingested

def statusError (code desc : String) : String := "rpc error: code = " ++ code ++ " desc = " ++ desc

inductive Received where
  | request (req : StreamWriteRequest)
  | cancelled (err : String)
  | failed (err : String)

section
variable (cfg : Config)

def writeData (table : String) (call : WriteCall) : WriteOutcome :=
  let tableName := if table = "" then cfg.defaultTable else table
  if call.hasPayload = false then .error (statusError "InvalidArgument" "Payload is required")
  else if cfg.isValidTableName tableName = false then .refused ("Invalid table name: " ++ tableName)
  else
    match call.ensureTableExists with
    | some err => .refused ("Table error: " ++ err)
    | none =>
      match call.resolveRecordID with
      | .error err => .error err
      | .ok _ =>
        match call.ingestData with
        | some err => .error (statusError "Internal" ("Failed to ingest data: " ++ err))
        | none => .ingested

structure ServerState where
  totalRecords : Int64
  errors : List String
  ingested : List WriteCall

def ServerState.write (table : String) (s : ServerState) (call : WriteCall) : ServerState :=
  match writeData cfg table call with
  | .error err => { s with errors := s.errors ++ ["Error writing record ID " ++ call.id ++ ": " ++ err] }
  | .refused _ => { s with totalRecords := s.totalRecords + 1 }
  | .ingested => { s with totalRecords := s.totalRecords + 1, ingested := s.ingested ++ [call] }

def ServerState.run (s : ServerState) : List Received → Except String StreamWriteResponse × List WriteCall
  | [] => (.ok ⟨s.errors.length == 0, s.totalRecords, s.errors⟩, s.ingested)
  | .request req :: rest => run (req.records.foldl (ServerState.write cfg req.table) s) rest
  | .cancelled err :: _ | .failed err :: _ => (.error err, s.ingested)

def serverStreamWrite (stream : List Received) : Except String StreamWriteResponse × List WriteCall :=
  ServerState.run cfg ⟨0, [], []⟩ stream

def processStreamWriteRequest (table : String) : List WriteCall → List WriteCall × Option String
  | [] => ([], none)
  | call :: rest =>
    match writeData cfg table call with
    | .error err => ([], some ("record " ++ call.id ++ " failed: " ++ err))
    | .refused message => ([], some ("record " ++ call.id ++ " failed: " ++ message))
    | .ingested =>
      (call :: (processStreamWriteRequest table rest).1, (processStreamWriteRequest table rest).2)

structure ServiceState where
  successCount : Int32
  errorCount : Int32
  lastError : Option String
  ingested : List WriteCall

def ServiceState.write (s : ServiceState) (req : StreamWriteRequest) : ServiceState :=
  match processStreamWriteRequest cfg req.table req.records with
  | (calls, some err) =>
    { s with
      errorCount := s.errorCount + Int32.ofNat req.records.length
      lastError := some err
      ingested := s.ingested ++ calls }
  | (calls, none) =>
    { s with
      successCount := s.successCount + Int32.ofNat req.records.length
      ingested := s.ingested ++ calls }

def ServiceState.run (s : ServiceState) : List Received → Except String StreamWriteResponse × List WriteCall
  | [] => (.ok ⟨s.errorCount == 0, s.successCount.toInt64, s.lastError.toList⟩, s.ingested)
  | .request req :: rest => run (s.write cfg req) rest
  | .cancelled err :: _ => (.error err, s.ingested)
  | .failed err :: _ => (.error (statusError "Internal" ("Failed to receive request: " ++ err)), s.ingested)

def serviceStreamWrite (stream : List Received) : Except String StreamWriteResponse × List WriteCall :=
  ServiceState.run cfg ⟨0, 0, none, []⟩ stream

end

section
variable (cfg : Config)

def records (stream : List StreamWriteRequest) : List WriteCall := stream.flatMap StreamWriteRequest.records

def Truthful (stream : List StreamWriteRequest)
    (result : Except String StreamWriteResponse × List WriteCall) : Prop :=
  ∃ answer, result.1 = .ok answer ∧ answer.recordsCount.toInt = result.2.length ∧
    (answer.success = true ↔ result.2 = records stream)

/-- `WriteData` fails by errors only. -/
def ErrorsOnly (req : StreamWriteRequest) : Prop :=
  ∀ call ∈ req.records, ∀ message, writeData cfg req.table call ≠ .refused message

def AllOrNone (req : StreamWriteRequest) : Prop :=
  ∀ call rest, req.records = call :: rest → writeData cfg req.table call = .ingested →
    ∀ other ∈ rest, writeData cfg req.table other = .ingested

variable {cfg}

structure ServerState.Fits (s : ServerState) (seen : List WriteCall) : Prop where
  count : s.totalRecords = Int64.ofNat s.ingested.length
  ingested : s.ingested.length + s.errors.length = seen.length
  all : s.errors = [] → s.ingested = seen

variable {s : ServerState} {seen done : List WriteCall} {table : String}
    {stream : List StreamWriteRequest} {req : StreamWriteRequest}

lemma ServerState.Fits.write {call : WriteCall}
    (h : s.Fits seen) (hcall : ∀ message, writeData cfg table call ≠ .refused message) :
    (s.write cfg table call).Fits (seen ++ [call]) := by
  unfold ServerState.write
  cases houtcome : writeData cfg table call with
  | error =>
    refine ⟨h.count, ?_, by simp⟩
    simp only [length_append, length_singleton]
    have hlength := h.ingested
    omega
  | refused message => exact absurd houtcome (hcall message)
  | ingested =>
    refine ⟨?_, ?_, fun hnil => by rw [h.all hnil]⟩
    · simp only [h.count, length_append, length_singleton, Int64.ofNat_add]
      rfl
    · simp only [length_append, length_singleton]
      have hlength := h.ingested
      omega

lemma ServerState.Fits.request (calls : List WriteCall)
    (hcalls : ∀ call ∈ calls, ∀ message, writeData cfg table call ≠ .refused message)
    (h : s.Fits seen) : (calls.foldl (ServerState.write cfg table) s).Fits (seen ++ calls) := by
  induction calls generalizing s seen with
  | nil => simpa using h
  | cons call rest ih =>
    have hrest := ih (fun other hother => hcalls other (mem_cons_of_mem call hother))
      (h.write (hcalls call (.head _)))
    simpa using hrest

lemma ServerState.Fits.run (stream : List StreamWriteRequest) (herrors : ∀ req ∈ stream, ErrorsOnly cfg req)
    (h : s.Fits seen) : ∃ s' : ServerState, s'.Fits (seen ++ records stream) ∧
      ServerState.run cfg s (stream.map .request) =
        (.ok ⟨s'.errors.length == 0, s'.totalRecords, s'.errors⟩, s'.ingested) := by
  induction stream generalizing s seen with
  | nil => exact ⟨s, by simpa [records] using h, rfl⟩
  | cons req rest ih =>
    have hreq := ServerState.Fits.request req.records (herrors req mem_cons_self) h
    obtain ⟨s', hfits, hrun⟩ := ih (fun other hother => herrors other (.tail req hother)) hreq
    exact ⟨s', by simpa [records] using hfits, hrun⟩

lemma serverStreamWrite_truthful
    (herrors : ∀ req ∈ stream, ErrorsOnly cfg req) (hlength : (records stream).length < 2 ^ 63) :
    Truthful stream (serverStreamWrite cfg (stream.map .request)) := by
  have h0 : ServerState.Fits ⟨0, [], []⟩ [] := ⟨rfl, rfl, fun _ => rfl⟩
  obtain ⟨s, hfits, hrun⟩ := ServerState.Fits.run stream herrors h0
  rw [nil_append] at hfits
  rw [serverStreamWrite, hrun]
  have hsum := hfits.ingested
  refine ⟨_, rfl, ?_, ?_⟩
  · rw [hfits.count, Int64.toInt_ofNat_of_lt (by omega)]
  · constructor
    · intro hsuccess
      exact hfits.all (length_eq_zero_iff.mp (beq_iff_eq.mp hsuccess))
    · intro hall
      have hlengths := congrArg length hall
      exact beq_iff_eq.mpr (by simp only at hlengths; omega)

lemma processStreamWriteRequest_ok {calls : List WriteCall}
    (h : processStreamWriteRequest cfg table calls = (done, none)) : done = calls := by
  induction calls generalizing done with
  | nil =>
    cases h
    rfl
  | cons call rest ih =>
    unfold processStreamWriteRequest at h
    split at h
    · cases h
    · cases h
    · obtain ⟨rfl, hnone⟩ := Prod.mk.inj h
      exact congrArg (call :: ·) (ih (Prod.ext rfl hnone))

lemma processStreamWriteRequest_error {err : String}
    (hreq : AllOrNone cfg req) (h : processStreamWriteRequest cfg req.table req.records = (done, some err)) :
    done = [] ∧ req.records ≠ [] := by
  have hall : ∀ calls : List WriteCall, (∀ call ∈ calls, writeData cfg req.table call = .ingested) →
      (processStreamWriteRequest cfg req.table calls).2 = none := by
    intro calls hcalls
    induction calls with
    | nil => rfl
    | cons call rest ih =>
      rw [processStreamWriteRequest, hcalls call mem_cons_self]
      exact ih (fun other hother => hcalls other (.tail call hother))
  cases hrecords : req.records with
  | nil =>
    rw [hrecords] at h
    cases h
  | cons call rest =>
    rw [hrecords, processStreamWriteRequest] at h
    cases houtcome : writeData cfg req.table call with
    | error | refused =>
      rw [houtcome] at h
      exact ⟨(Prod.mk.inj h).1.symm, cons_ne_nil call rest⟩
    | ingested =>
      rw [houtcome] at h
      have hnone := hall rest (hreq call rest hrecords houtcome)
      rw [(Prod.mk.inj h).2] at hnone
      cases hnone

structure ServiceState.Fits (s : ServiceState) (seen : List WriteCall) : Prop where
  count : s.successCount = Int32.ofNat s.ingested.length
  errors : ∃ failed, s.errorCount = Int32.ofNat failed ∧ s.ingested.length + failed = seen.length ∧
    (failed = 0 → s.ingested = seen)

lemma ServiceState.Fits.write {s : ServiceState}
    (h : s.Fits seen) (hreq : AllOrNone cfg req) : (s.write cfg req).Fits (seen ++ req.records) := by
  obtain ⟨failed, hfailed, hlength, hall⟩ := h.errors
  unfold ServiceState.write
  split
  · rename_i calls err hprocess
    obtain ⟨rfl, hne⟩ := processStreamWriteRequest_error hreq hprocess
    refine ⟨by simpa using h.count, failed + req.records.length, ?_, ?_, ?_⟩
    · simp [hfailed, Int32.ofNat_add]
    · simp only [append_nil, length_append]
      omega
    · intro hzero
      exact absurd (length_eq_zero_iff.mp (by omega)) hne
  · rename_i calls hprocess
    rw [processStreamWriteRequest_ok hprocess]
    refine ⟨?_, failed, hfailed, ?_, fun hzero => by rw [hall hzero]⟩
    · simp [h.count, Int32.ofNat_add]
    · simp only [length_append]
      omega

lemma ServiceState.Fits.run (stream : List StreamWriteRequest) (hall : ∀ req ∈ stream, AllOrNone cfg req)
    {s : ServiceState} (h : s.Fits seen) : ∃ s' : ServiceState, s'.Fits (seen ++ records stream) ∧
      ServiceState.run cfg s (stream.map .request) =
        (.ok ⟨s'.errorCount == 0, s'.successCount.toInt64, s'.lastError.toList⟩, s'.ingested) := by
  induction stream generalizing s seen with
  | nil => exact ⟨s, by simpa [records] using h, rfl⟩
  | cons req rest ih =>
    obtain ⟨s', hfits, hrun⟩ := ih (fun other hother => hall other (.tail req hother))
      (h.write (hall req (.head _)))
    exact ⟨s', by simpa [records] using hfits, hrun⟩

lemma serviceStreamWrite_truthful
    (hall : ∀ req ∈ stream, AllOrNone cfg req) (hlength : (records stream).length < 2 ^ 31) :
    Truthful stream (serviceStreamWrite cfg (stream.map .request)) := by
  have h0 : ServiceState.Fits ⟨0, 0, none, []⟩ [] := ⟨rfl, 0, rfl, rfl, fun _ => rfl⟩
  obtain ⟨s, hfits, hrun⟩ := ServiceState.Fits.run stream hall h0
  rw [nil_append] at hfits
  obtain ⟨failed, hfailed, hsum, hzero⟩ := hfits.errors
  rw [serviceStreamWrite, hrun]
  refine ⟨_, rfl, ?_, ?_⟩
  · simp only [Int32.toInt_toInt64]
    rw [hfits.count, Int32.toInt_ofNat_of_lt (by omega)]
  · have hcount : (s.errorCount == 0) = true ↔ failed = 0 := by
      rw [beq_iff_eq, ← Int32.toInt_inj, hfailed, Int32.toInt_ofNat_of_lt (by omega)]
      simp
    rw [hcount]
    constructor
    · exact hzero
    · intro hsame
      have hlengths := congrArg length hsame
      simp only at hlengths
      omega

end

def ordersOnly : Config := ⟨"orders", fun name => name == "orders"⟩

def goodRecord (id : String) : WriteCall := ⟨id, true, none, .ok id, none⟩

def failingRecord (id : String) : WriteCall := ⟨id, true, none, .ok id, some "disk full"⟩

def summary (result : Except String StreamWriteResponse × List WriteCall) :
    Option (Bool × Int64) × List String :=
  ((result.1.toOption).map (fun answer => (answer.success, answer.recordsCount)), result.2.map WriteCall.id)

def mixedStream : List StreamWriteRequest :=
  [⟨"orders", [goodRecord "u1", goodRecord "u2"]⟩, ⟨"orders", [failingRecord "u3"]⟩]

end MinIODB.StreamWrite
