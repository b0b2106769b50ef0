import MinIODB.Coordinator.Analyzer
import MinIODB.Query.TableExtractor

/-!
# The stream query of the gRPC server

The server asks the service for one batch after another, as long as the service reports that there
is more. The service runs the text of the query with a LIMIT of the batch size behind it, reports
that there is nothing more, returns an empty cursor and ignores the one that it is given. So a
stream consists of one batch, and a client that restarts gets the same batch again.

How a text is executed is a parameter, as are the decoding of the answer, the parsing of times, and
the sending of batches. A `$` in the name of the default table is taken as it is.
-/
namespace MinIODB.Stream
open Matching
open Query (isWord isSpace toLower trimSpace)
open Query.TableExtractor (Part parts reWhitespace)
open Coordinator (keyword char spaces word contains)

def words (l : List Char) : List (List Char) :=
  (parts l).filterMap (fun p =>
    match p with
    | .word w => some w
    | _ => none)

def dangerousRegexes : List ((List Char → Bool) × String) :=
  [(fun w => ["drop", "alter", "truncate", "create", "insert", "update", "delete"].any (fun kw => kw.toList = w),
      "only SELECT statements are allowed"),
    (fun w => w = "union".toList, "UNION is not allowed"),
    (fun w => w = "exec".toList || w = "execute".toList, "EXEC statements are not allowed"),
    (fun w => "xp_".toList.isPrefixOf w, "extended stored procedures are not allowed")]

def commentPatterns : List String := ["--", "/*", "#"]

def multiStatement : List Char → Bool
  | [] => false
  | c :: l => (c == ';' && !(l.dropWhile isSpace).isEmpty) || multiStatement l

def selectStart (l : List Char) : Bool :=
  (keyword "select" (l.dropWhile isSpace)).isSome ||
    (do
      let l ← (keyword "with" (l.dropWhile isSpace)).bind spaces
      let (_, l) ← word l
      let l ← (spaces l).bind (keyword "as")
      char '(' (l.dropWhile isSpace)).isSome

def normalizeWhitespace (l : List Char) : List Char := replaceAll reWhitespace l

def validateSelectQuery (sql : String) : Option String :=
  if sql = "" then some "SQL query cannot be empty"
  else if 10000 < sql.utf8ByteSize then some "SQL query too long: maximum 10000 characters"
  else
    let normalizedSQL := normalizeWhitespace (toLower (trimSpace sql.toList))
    match dangerousRegexes.find? (fun dr => (words normalizedSQL).any dr.1) with
    | some dr => some dr.2
    | none =>
      if commentPatterns.any (fun cp => contains normalizedSQL cp.toList) then
        some "SQL comments are not allowed"
      else if multiStatement normalizedSQL then some "multiple statements are not allowed"
      else if selectStart normalizedSQL then none
      else some "only SELECT statements (or WITH...SELECT CTEs) are allowed"

structure Config where
  defaultTable : String
  isValidTableName : String → Bool

def quoteIdentifier (identifier : String) : List Char :=
  '"' :: (identifier.toList.flatMap (fun c => if c = '"' then ['"', '"'] else [c]) ++ ['"'])

def fromTable (l : List Char) : Option (List Char) := do
  let l ← (keyword "from" l).bind spaces
  let l ← keyword "table" l
  if l.head?.any isWord then none else some l

def replaceFromTable (replacement : List Char) : Bool → ℕ → List Char → List Char
  | _, _, [] => []
  | _, skip + 1, c :: l => replaceFromTable replacement (isWord c) skip l
  | inWord, 0, c :: l =>
    match if inWord then none else fromTable (c :: l) with
    | none => c :: replaceFromTable replacement (isWord c) 0 l
    | some rest => replacement ++ replaceFromTable replacement (isWord c) (l.length - rest.length) l

def rewriteLegacyTable (cfg : Config) (sql : String) : Except String String :=
  if !contains (toLower sql.toList) "from table".toList then .ok sql
  else if !cfg.isValidTableName cfg.defaultTable then
    .error ("invalid default table name: " ++ cfg.defaultTable)
  else .ok (String.ofList (replaceFromTable ("FROM ".toList ++ quoteIdentifier cfg.defaultTable) false 0 sql.toList))

inductive Json where
  | null
  | bool (b : Bool)
  | number (q : ℚ)
  | string (s : String)
  | array (items : List Json)
  | object (fields : List (String × Json))

inductive ProtoValue where
  | null
  | bool (b : Bool)
  | number (q : ℚ)
  | string (s : String)
  | list (values : List ProtoValue)
  | struct (fields : List (String × ProtoValue))
  deriving Repr

mutual

def interfaceToProtobufValue : Json → ProtoValue
  | .null => .null
  | .bool b => .bool b
  | .number q => .number q
  | .string s => .string s
  | .array items => .list (listToProtobufValues items)
  | .object fields => .struct (mapToProtobufStruct fields)

def listToProtobufValues : List Json → List ProtoValue
  | [] => []
  | v :: vs => interfaceToProtobufValue v :: listToProtobufValues vs

def mapToProtobufStruct : List (String × Json) → List (String × ProtoValue)
  | [] => []
  | (key, v) :: fields => (key, interfaceToProtobufValue v) :: mapToProtobufStruct fields

end

abbrev JsonRow := List (String × Json)

structure DataRecord where
  id : String
  timestamp : Option ℤ
  payload : List (String × ProtoValue)

def recordOf (parseTime : String → Option ℤ) (row : JsonRow) : DataRecord where
  id :=
    match row.lookup "id" with
    | some (.string id) => id
    | _ => ""
  timestamp :=
    match row.lookup "timestamp" with
    | some (.string t) => parseTime t
    | _ => none
  payload := mapToProtobufStruct (row.filter (fun f => decide (f.1 ≠ "id" ∧ f.1 ≠ "timestamp")))

inductive StreamError where
  | invalidArgument (message : String)
  | internal (message : String)
  | unmarshal (message : String)
  | send (message : String)
  deriving DecidableEq

structure Env where
  executeQuery : String → Except String String
  unmarshal : String → Except String (List JsonRow)
  parseTime : String → Option ℤ
  send : ℕ → Option String

structure QueryDataRequest where
  sql : String
  limit : ℤ
  cursor : String

structure QueryDataResponse where
  resultJson : String
  hasMore : Bool
  nextCursor : String

def withLimit (sql : String) (limit : ℤ) : String := sql ++ " LIMIT " ++ toString limit

def queryData (cfg : Config) (env : Env) (req : QueryDataRequest) : Except StreamError QueryDataResponse :=
  match validateSelectQuery req.sql with
  | some message => .error (.invalidArgument message)
  | none =>
    match rewriteLegacyTable cfg req.sql with
    | .error message => .error (.invalidArgument message)
    | .ok sql =>
      let sql := if 0 < req.limit then withLimit sql req.limit else sql
      match validateSelectQuery sql with
      | some message => .error (.invalidArgument message)
      | none =>
        match env.executeQuery sql with
        | .error message => .error (.internal ("Query execution failed: " ++ message))
        | .ok result => .ok ⟨result, false, ""⟩

def convertResultToRecords (env : Env) (resultJson : String) : Except StreamError (List DataRecord) :=
  match env.unmarshal resultJson with
  | .error message => .error (.unmarshal ("failed to unmarshal JSON result: " ++ message))
  | .ok rows => .ok (rows.map (recordOf env.parseTime))

structure StreamQueryRequest where
  sql : String
  batchSize : ℤ
  cursor : String

structure Batch where
  records : List DataRecord
  hasMore : Bool
  cursor : String

def batchSizeOf (req : StreamQueryRequest) : ℤ := if 0 < req.batchSize then req.batchSize else 100

section
variable (cfg : Config) (env : Env) (sql : String) (batchSize : ℤ)

def streamLoop : ℕ → String → List Batch → Option (List Batch × Option StreamError)
  | 0, _, _ => none
  | fuel + 1, cursor, sent =>
    match queryData cfg env ⟨sql, batchSize, cursor⟩ with
    | .error e => some (sent, some e)
    | .ok queryResp =>
      match convertResultToRecords env queryResp.resultJson with
      | .error e => some (sent, some e)
      | .ok records =>
        match env.send sent.length with
        | some e => some (sent, some (.send e))
        | none =>
          let sent := sent ++ [⟨records, queryResp.hasMore, queryResp.nextCursor⟩]
          if queryResp.hasMore then streamLoop fuel queryResp.nextCursor sent else some (sent, none)

end

def streamQuery (fuel : ℕ) (cfg : Config) (env : Env) (req : StreamQueryRequest) :
    Option (List Batch × Option StreamError) :=
  streamLoop cfg env req.sql (batchSizeOf req) fuel req.cursor []

section
variable {cfg : Config} {env : Env} {sql sql' : String} {rows : List JsonRow} {n : ℕ}

def Answers (env : Env) (sql : String) (rows : List JsonRow) : Prop :=
  ∃ json, env.executeQuery sql = .ok json ∧ env.unmarshal json = .ok rows

structure Accepts (cfg : Config) (env : Env) (sql sql' : String) (n : ℕ) (rows : List JsonRow) : Prop where
  valid : validateSelectQuery sql = none
  rewritten : rewriteLegacyTable cfg sql = .ok sql'
  limited : validateSelectQuery (withLimit sql' n) = none
  answer : Answers env sql' rows
  first : Answers env (withLimit sql' n) (rows.take n)

lemma Accepts.streamQuery (h : Accepts cfg env sql sql' n rows) (hn : 1 ≤ n) (hsend : env.send 0 = none)
    (fuel : ℕ) (cursor : String) : streamQuery (fuel + 1) cfg env ⟨sql, n, cursor⟩ =
      some ([⟨(rows.take n).map (recordOf env.parseTime), false, ""⟩], none) := by
  obtain ⟨json, hexecute, hunmarshal⟩ := h.first
  have hpos : 0 < (n : ℤ) := by omega
  have hquery : queryData cfg env ⟨sql, n, cursor⟩ = .ok ⟨json, false, ""⟩ := by
    simp only [queryData, h.valid, h.rewritten, if_pos hpos, h.limited, hexecute]
  have hbatch : batchSizeOf ⟨sql, n, cursor⟩ = n := if_pos hpos
  have hconvert : convertResultToRecords env json = .ok ((rows.take n).map (recordOf env.parseTime)) := by
    rw [convertResultToRecords, hunmarshal]
  rw [Stream.streamQuery, streamLoop, hbatch, hquery]
  simp [hconvert, hsend]

end

def shopConfig : Config := ⟨"shop", fun _ => true⟩

def ordersEnv : Env where
  executeQuery sql :=
    if sql = "SELECT id FROM orders" ∨ sql = "SELECT id FROM orders LIMIT 5" then .ok "two"
    else if sql = "SELECT id FROM orders LIMIT 1" then .ok "one"
    else .error "Parser Error"
  unmarshal json :=
    if json = "two" then .ok [[("id", .string "a")], [("id", .string "b")]]
    else if json = "one" then .ok [[("id", .string "a")]]
    else .ok []
  parseTime _ := none
  send _ := none

def summary (r : Option (List Batch × Option StreamError)) : Option (List (List String × Bool) × Option StreamError) :=
  r.map (fun p => (p.1.map (fun b => (b.records.map DataRecord.id, b.hasMore)), p.2))

end MinIODB.Stream
