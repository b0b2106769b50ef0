import MinIODB.Coordinator.Analyzer
import MinIODB.Library.Ranking

/-!
# Merging the answers of the nodes

Each strategy decodes the answers of the nodes into rows and reduces them to the rows of the
merged answer. An answer that cannot be decoded is passed over. The rewriting of the query text
that the strategies offer for the nodes (`MapSQL`) is never called: the nodes get the text of the
query as it is.

Numbers are exact here. Where the source goes through a map, the order is a parameter.
-/
namespace MinIODB.Coordinator
open Ranking
open Query (toLower)

inductive Value where
  | null
  | bool (b : Bool)
  | num (q : ℚ)
  | str (s : String)
  | other (printed : String)
  deriving DecidableEq

abbrev Row := AList (fun _ : String => Value)

abbrev Sums := AList (fun _ : String => ℚ)

def toFloat64 : Value → Option ℚ
  | .num q => some q
  | _ => none

structure Runtime where
  iterate : ℕ → Sums → List (Σ _ : String, ℚ)
  iterate_perm : ∀ i sums, (iterate i sums).Perm sums.entries
  formatFloat : ℚ → String
  sortSlice : SliceSort Row

def Sums.add (m : Sums) (key : String) (num : ℚ) : Sums := m.insert key ((m.lookup key).getD 0 + num)

def Sums.addValue (m : Sums) (entry : Σ _ : String, Value) : Sums :=
  match toFloat64 entry.2 with
  | some num => m.add entry.1 num
  | none => m

def Sums.addRow (m : Sums) (row : Row) : Sums := row.entries.foldl Sums.addValue m

def decodedRows (results : List (Option (List Row))) : List Row := (results.filterMap id).flatten

def outputKey (agg : Aggregation) : String :=
  if agg.aliasName = "" then aggTypeName agg.type ++ "_" ++ agg.column else agg.aliasName

def possibleKeys (agg : Aggregation) : List String := [outputKey agg, aggTypeName agg.type, agg.aliasName]

def findColumn (aggregated : Sums) (order : List (Σ _ : String, ℚ)) (agg : Aggregation) :
    Option (Σ _ : String, ℚ) :=
  match (possibleKeys agg).findSome? (fun key => (aggregated.lookup key).map (fun val => ⟨key, val⟩)) with
  | some found => some found
  | none => order.find? (fun entry =>
      contains (toLower entry.1.toList) (aggTypeName agg.type).toList)

def setColumn (row : Row) (found : Option (Σ _ : String, ℚ)) : Row :=
  match found with
  | some entry => row.insert entry.1 (.num entry.2)
  | none => row

def simpleAggregateReduce (rt : Runtime) (results : List (Option (List Row))) (analyzed : AnalyzedQuery) :
    List Row :=
  if results = [] then []
  else
    let aggregated := (decodedRows results).foldl Sums.addRow ∅
    if analyzed.aggregations = [] then
      [aggregated.entries.foldl (fun row entry => row.insert entry.1 (.num entry.2)) ∅]
    else
      [analyzed.aggregations.zipIdx.foldl (fun row agg =>
        setColumn row (findColumn aggregated (rt.iterate agg.2 aggregated) agg.1)) ∅]

def addStripped (start : String) (m : Sums) (entry : Σ _ : String, Value) : Sums :=
  match toFloat64 entry.2 with
  | some num =>
    if start.toList.isPrefixOf entry.1.toList then
      m.add (String.ofList (entry.1.toList.drop start.toList.length)) num
    else m
  | none => m

def avgDecomposeReduce (results : List (Option (List Row))) (analyzed : AnalyzedQuery) : List Row :=
  let entries := (decodedRows results).flatMap AList.entries
  let sums := entries.foldl (addStripped "_sum_") ∅
  let counts := entries.foldl (addStripped "_count_") ∅
  [(analyzed.aggregations.filter (fun agg => decide (agg.type = .avg))).foldl (fun row agg =>
    let sum := (sums.lookup agg.column).getD 0
    let count := (counts.lookup agg.column).getD 0
    row.insert (if agg.aliasName = "" then "avg_" ++ agg.column else agg.aliasName)
      (if 0 < count then .num (sum / count) else .null)) ∅]

structure Group where
  sums : Sums
  counts : Sums

def printValue (formatFloat : ℚ → String) : Value → String
  | .null => "<nil>"
  | .bool b => if b then "true" else "false"
  | .num q => formatFloat q
  | .str s => s
  | .other printed => printed

def buildGroupKey (formatFloat : ℚ → String) (row : Row) (groupByKeys : List String) : List Char :=
  ['|'].intercalate (groupByKeys.map (fun key => (((row.lookup key).map (printValue formatFloat)).getD "").toList))

def Group.addValue (groupByKeys : List String) (g : Group) (entry : Σ _ : String, Value) : Group :=
  match toFloat64 entry.2 with
  | some num =>
    if entry.1 ∈ groupByKeys then g else ⟨g.sums.add entry.1 num, g.counts.add entry.1 1⟩
  | none => g

abbrev Groups := AList (fun _ : List Char => Group)

def addToGroup (formatFloat : ℚ → String) (groupByKeys : List String) (groups : Groups) (row : Row) : Groups :=
  let groupKey := buildGroupKey formatFloat row groupByKeys
  let group := (groups.lookup groupKey).getD ⟨∅, ∅⟩
  groups.insert groupKey (row.entries.foldl (Group.addValue groupByKeys) group)

def groupValues (groupKey : List Char) (groupByKeys : List String) : Row :=
  (groupByKeys.zip (groupKey.splitOn '|')).foldl (fun row p => row.insert p.1 (.str (String.ofList p.2))) ∅

def groupColumn (aggregations : List Aggregation) (value count : ℚ) (row : Row) (key : String) : Row :=
  aggregations.foldl (fun row agg =>
    if agg.type = .avg then
      if 0 < count then row.insert key (.num (value / count)) else row
    else row.insert key (.num value)) row

def groupRow (analyzed : AnalyzedQuery) (groupKey : List Char) (group : Group) : Row :=
  group.sums.entries.foldl (fun row entry =>
    groupColumn analyzed.aggregations entry.2 ((group.counts.lookup entry.1).getD 0) row entry.1)
    (groupValues groupKey analyzed.groupByKeys)

def groupAggregateReduce (rt : Runtime) (results : List (Option (List Row))) (analyzed : AnalyzedQuery) :
    List Row :=
  ((decodedRows results).foldl (addToGroup rt.formatFloat analyzed.groupByKeys) ∅).entries.map
    (fun entry => groupRow analyzed entry.1 entry.2)

def compareInterface : Value → Value → ℤ
  | .num a, .num b => if a < b then -1 else if b < a then 1 else 0
  | .str a, .str b => if a < b then -1 else if b < a then 1 else 0
  | _, _ => 0

def rowLess (ob : OrderBy) (a b : Row) : Bool :=
  match a.lookup ob.column, b.lookup ob.column with
  | some va, some vb =>
    match ob.direction with
    | .desc => decide (0 < compareInterface va vb)
    | .asc => decide (compareInterface va vb < 0)
  | va, _ => va.isSome

def topNMergeReduce (rt : Runtime) (results : List (Option (List Row))) (analyzed : AnalyzedQuery) : List Row :=
  let allRows :=
    match analyzed.orderByKeys with
    | ob :: _ => rt.sortSlice.sort (rowLess ob) (decodedRows results)
    | [] => decodedRows results
  if 0 < analyzed.limit ∧ analyzed.limit < allRows.length then allRows.take analyzed.limit.toNat else allRows

def unionReduce (results : List (Option (List Row))) : List Row := decodedRows results

def Strategy.reduce (rt : Runtime) (results : List (Option (List Row))) (analyzed : AnalyzedQuery) :
    Strategy → List Row
  | .simpleAggregate => simpleAggregateReduce rt results analyzed
  | .avgDecompose => avgDecomposeReduce results analyzed
  | .groupAggregate => groupAggregateReduce rt results analyzed
  | .topnMerge => topNMergeReduce rt results analyzed
  | .union => unionReduce results

def mergeResults (rt : Runtime) (results : List (Option (List Row))) (sql : String) : List Row :=
  (getMapReduceStrategy (analyze sql)).reduce rt results (analyze sql)

@[simp] theorem decodedRows_map_some (answers : List (List Row)) :
    decodedRows (answers.map some) = answers.flatten := by
  rw [decodedRows, List.filterMap_map]
  exact congrArg List.flatten (List.filterMap_some)

end MinIODB.Coordinator
