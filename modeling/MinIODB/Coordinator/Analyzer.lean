import MinIODB.Query.WhereClause

/-!
# Analysis of a query text

The coordinator decides how to merge the answers of the nodes from what eight patterns find in
the text of the query. The patterns know no words, literals or nesting: the name of a function
may be the end of a longer name, and whatever word follows a call is taken for its alias. All
of them ignore the case of letters.
-/
namespace MinIODB.Coordinator
open Matching
open Query (isWord isSpace toLower trimSpace)

inductive QueryType where
  | simple | aggregate | groupBy | orderBy | join
  deriving DecidableEq

inductive AggregationType where
  | none | count | sum | avg | min | max
  deriving DecidableEq

inductive OrderDirection where
  | asc | desc
  deriving DecidableEq

structure Aggregation where
  type : AggregationType
  column : String
  aliasName : String
  deriving DecidableEq

structure OrderBy where
  column : String
  direction : OrderDirection
  deriving DecidableEq

structure AnalyzedQuery where
  type : QueryType
  aggregations : List Aggregation
  groupByKeys : List String
  orderByKeys : List OrderBy
  limit : ℤ
  hasDistinct : Bool
  isSubQuery : Bool
  deriving DecidableEq

def aggTypeName : AggregationType → String
  | .count => "count"
  | .sum => "sum"
  | .avg => "avg"
  | .min => "min"
  | .max => "max"
  | .none => "unknown"

def keyword (kw : String) (l : List Char) : Option (List Char) :=
  if toLower (l.take kw.toList.length) = kw.toList then some (l.drop kw.toList.length) else none

def char (c : Char) : List Char → Option (List Char)
  | [] => none
  | d :: l => if d = c then some l else none

def spaces (l : List Char) : Option (List Char) :=
  if l.head?.any isSpace then some (l.dropWhile isSpace) else none

def word (l : List Char) : Option (List Char × List Char) :=
  if l.takeWhile isWord = [] then none else some (l.takeWhile isWord, l.dropWhile isWord)

def argument (star : Bool) (l : List Char) : Option (List Char × List Char) :=
  if star ∧ l.head? = some '*' then some (['*'], l.tail) else word l

def aliasGroup (l : List Char) : List Char × List Char :=
  match spaces l with
  | none => ([], l)
  | some l' =>
    match ((keyword "as" l').bind spaces).bind word with
    | some found => found
    | none => (word l').getD ([], l)

def aggPattern (name : String) (star : Bool) (l : List Char) :
    Option ((List Char × List Char) × List Char) := do
  let l ← keyword name l
  let l ← char '(' (l.dropWhile isSpace)
  let (column, l) ← argument star (l.dropWhile isSpace)
  let l ← char ')' (l.dropWhile isSpace)
  return ((column, (aliasGroup l).1), (aliasGroup l).2)

def countPattern := aggPattern "count" true
def sumPattern := aggPattern "sum" false
def avgPattern := aggPattern "avg" false
def minPattern := aggPattern "min" false
def maxPattern := aggPattern "max" false

def moreColumns : ℕ → List Char → List Char
  | 0, l => l
  | fuel + 1, l =>
    match (char ',' (l.dropWhile isSpace)).bind (fun l => word (l.dropWhile isSpace)) with
    | some (_, rest) => moreColumns fuel rest
    | none => l

def groupByPattern (l : List Char) : Option (List Char × List Char) := do
  let l ← (keyword "group" l).bind spaces
  let l ← (keyword "by" l).bind spaces
  let (_, rest) ← word l
  let rest := moreColumns rest.length rest
  return (l.take (l.length - rest.length), rest)

def directionGroup (l : List Char) : OrderDirection × List Char :=
  match (spaces l).bind (keyword "asc"), (spaces l).bind (keyword "desc") with
  | some rest, _ => (.asc, rest)
  | none, some rest => (.desc, rest)
  | none, none => (.asc, l)

def orderByPattern (l : List Char) : Option (OrderBy × List Char) := do
  let l ← (keyword "order" l).bind spaces
  let l ← (keyword "by" l).bind spaces
  let (column, rest) ← word l
  return (⟨String.ofList column, (directionGroup rest).1⟩, (directionGroup rest).2)

def limitPattern (l : List Char) : Option (List Char × List Char) := do
  let l ← (keyword "limit" l).bind spaces
  if l.takeWhile Char.isDigit = [] then none
  else return (l.takeWhile Char.isDigit, l.dropWhile Char.isDigit)

section
variable (sql : List Char)

def extractCalls (type : AggregationType) (pattern : List Char → Option ((List Char × List Char) × List Char)) :
    List Aggregation :=
  (findAll pattern sql).map (fun found => ⟨type, String.ofList found.1, String.ofList found.2⟩)

def extractAggregations : List Aggregation :=
  extractCalls sql .count countPattern ++ extractCalls sql .sum sumPattern ++
    extractCalls sql .avg avgPattern ++ extractCalls sql .min minPattern ++
    extractCalls sql .max maxPattern

def extractGroupBy : List String :=
  match findFirst groupByPattern sql with
  | none => []
  | some columns =>
    (((columns.splitOn ',').map trimSpace).filter (· ≠ [])).map String.ofList

def extractOrderBy : List OrderBy := (findFirst orderByPattern sql).toList

def wrapInt (n : ℤ) : ℤ := n.bmod (2 ^ 64)

def limitOf (digits : List Char) : ℤ :=
  digits.foldl (fun limit c => wrapInt (limit * 10 + (c.toNat - '0'.toNat : ℕ))) 0

def extractLimit : ℤ := ((findFirst limitPattern sql).map limitOf).getD 0

def determineQueryType (aggregations : List Aggregation) (groupByKeys : List String)
    (orderByKeys : List OrderBy) : QueryType :=
  if groupByKeys ≠ [] then .groupBy
  else if aggregations ≠ [] then .aggregate
  else if orderByKeys ≠ [] then .orderBy
  else .simple

def contains (s word : List Char) : Bool := decide (word = []) || (after word s).isSome

def countOf (s word : List Char) : ℕ :=
  (findAll (fun l => if word.isPrefixOf l then some ((), l.drop word.length) else none) s).length

end

def analyze (sql : String) : AnalyzedQuery :=
  let lowerSQL := toLower sql.toList
  let aggregations := extractAggregations sql.toList
  let groupByKeys := extractGroupBy sql.toList
  let orderByKeys := extractOrderBy sql.toList
  ⟨determineQueryType aggregations groupByKeys orderByKeys, aggregations, groupByKeys, orderByKeys,
    extractLimit sql.toList, contains lowerSQL "distinct".toList,
    decide (1 < countOf lowerSQL "select".toList)⟩

inductive Strategy where
  | simpleAggregate | avgDecompose | groupAggregate | topnMerge | union
  deriving DecidableEq

def getMapReduceStrategy (analyzed : AnalyzedQuery) : Strategy :=
  if analyzed.groupByKeys ≠ [] then .groupAggregate
  else if analyzed.aggregations.any (fun agg => decide (agg.type = .avg)) then .avgDecompose
  else if analyzed.aggregations ≠ [] then .simpleAggregate
  else if analyzed.orderByKeys ≠ [] ∧ 0 < analyzed.limit then .topnMerge
  else .union

example : analyze "SELECT id FROM orders ORDER BY price DESC LIMIT 10" =
    ⟨.orderBy, [], [], [⟨"price", .desc⟩], 10, false, false⟩ := by decide +kernel

-- the word after a call is its alias, whatever it is
example : (analyze "SELECT COUNT(*), sum( price ) FROM orders GROUP BY day, shop").aggregations =
    [⟨.count, "*", ""⟩, ⟨.sum, "price", "FROM"⟩] := by decide +kernel

end MinIODB.Coordinator
