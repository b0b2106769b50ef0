import MinIODB.Query.Pruning

/-!
# Column pruning

For every table of a query a view is made that has the columns the query is thought to
need: what stands between commas after the first SELECT, up to the first white space that
FROM follows. The list is taken for all tables of the query, and the rest of the text is
not looked at.

Memoized results of `ExtractRequiredColumns` are those of a new computation, so its cache
is left out.
-/
namespace MinIODB.Query
open Matching

def toUpper (l : List Char) : List Char := l.map Char.toUpper

def contains (l word : List Char) : Bool := (after word l).isSome

def startsWith (word l : List Char) : Bool := word.isPrefixOf (toLower l)

def foldName (name : String) : String := String.ofList (toLower name.toList)

def dropHead (word l : List Char) : List Char := if word.isPrefixOf l then l.drop word.length else l

def isSQLKeyword (word : String) : Bool :=
  ["select", "from", "where", "and", "or", "insert", "into", "values", "update", "set", "delete",
    "drop", "create", "table", "index", "alter", "add", "column", "truncate", "grant", "revoke",
    "union", "join", "left", "right", "inner", "outer", "on", "group", "by", "order", "having",
    "limit", "offset", "as", "distinct", "count", "sum", "avg", "max", "min", "null", "not", "in",
    "exists", "between", "like", "is", "case", "when", "then", "else", "end", "primary", "key",
    "foreign", "references", "constraint", "unique", "view", "database", "schema", "use", "exec",
    "execute", "procedure", "function", "trigger"].contains (foldName word)

def validateTableName (tableName : String) : Bool :=
  (match tableName.toList with
    | [] => false
    | c :: cs => c.isAlpha && cs.all (fun c => c.isAlphanum || c == '_')) &&
    decide (tableName.utf8ByteSize ≤ 128) && !isSQLKeyword tableName

def matchFrom (l : List Char) : Bool :=
  l.head?.any isSpace && startsWith "from".toList (l.dropWhile isSpace)

def matchUntilFrom : List Char → Option (List Char)
  | [] => none
  | c :: l =>
    if matchFrom (c :: l) then some []
    else if c = '\n' then none
    else (matchUntilFrom l).map (fun capture => c :: capture)

def matchSelectColumns (l : List Char) : Option (List Char × List Char) :=
  if startsWith "select".toList l then
    ((List.range ((l.drop 6).takeWhile isSpace).length).reverse.findSome? (fun j =>
      matchUntilFrom ((l.drop 6).drop (j + 1)))).map (fun capture => (capture, []))
  else none

def aggregateFuncs : List String :=
  ["COUNT(", "SUM(", "AVG(", "MIN(", "MAX(", "STDDEV(", "VARIANCE(", "GROUP_CONCAT(",
    "COUNT_DISTINCT("]

def isAggregateFunction (col : List Char) : Bool :=
  aggregateFuncs.any (fun fn => contains (toUpper col) fn.toList)

def unqualified (col : List Char) : List Char :=
  match col.splitOn '.' with
  | [_, name] => name
  | _ => col

def requiredColumn (col : List Char) : Option (List Char) :=
  if isAggregateFunction col then none
  else
    let name := trimSpace (dropHead "DISTINCT".toList (dropHead "DISTINCT ".toList (unqualified col)))
    if name = [] then none else some name

def addColumn (columns : List String) (col : List Char) : List String :=
  if columns.any (fun c => foldName c == foldName (String.ofList col)) then columns
  else columns ++ [String.ofList col]

def requiredColumns (columnsStr : List Char) : List String :=
  let columns := (((columnsStr.splitOn ',').map trimSpace).filterMap requiredColumn).foldl addColumn []
  if columns = [] then ["*"] else columns

def asksForAll (sql : List Char) : Bool :=
  contains (toUpper sql) "SELECT *".toList || contains (toUpper sql) "COUNT(*)".toList

def extractRequiredColumns (enabled : Bool) (sql : String) : List String :=
  let text := trimSpace sql.toList
  if text = [] then []
  else if !enabled then ["*"]
  else if asksForAll text then ["*"]
  else
    match findFirst matchSelectColumns text with
    | none => ["*"]
    | some columnsStr => if trimSpace columnsStr = [] then [] else requiredColumns (trimSpace columnsStr)

def optimizedColumns (enabled : Bool) (sql : String) : Option (List String) :=
  if !enabled || extractRequiredColumns enabled sql = [] || extractRequiredColumns enabled sql = ["*"] then
    none
  else some (extractRequiredColumns enabled sql)

inductive Expr where
  | column (qualifier : Option String) (name : String)
  | literal (text : String)
  | star
  | call (function : String) (argument : Expr)
  | binary (operator : String) (left right : Expr)
  deriving DecidableEq

def Expr.text : Expr → List Char
  | .column none name => name.toList
  | .column (some qualifier) name => qualifier.toList ++ '.' :: name.toList
  | .literal text => text.toList
  | .star => ['*']
  | .call function argument => function.toList ++ '(' :: (argument.text ++ [')'])
  | .binary operator left right => left.text ++ (operator.toList ++ right.text)

def Expr.refs : Expr → List (Option String × String)
  | .column qualifier name => [(qualifier, name)]
  | .literal _ | .star => []
  | .call _ argument => argument.refs
  | .binary _ left right => left.refs ++ right.refs

inductive SelectItem where
  | all
  | expr (e : Expr) (label : Option String)
  deriving DecidableEq

def SelectItem.text : SelectItem → List Char
  | .all => ['*']
  | .expr e none => e.text
  | .expr e (some name) => e.text ++ (" AS ".toList ++ name.toList)

def SelectItem.refs : SelectItem → List (Option String × String)
  | .all => []
  | .expr e _ => e.refs

inductive SelectClause where
  | filter
  | groupBy
  | having
  | orderBy

def SelectClause.keyword : SelectClause → String
  | .filter => " WHERE "
  | .groupBy => " GROUP BY "
  | .having => " HAVING "
  | .orderBy => " ORDER BY "

structure TableRef where
  table : String
  label : String

structure SelectStatement where
  distinct : Bool
  items : List SelectItem
  first : TableRef
  joins : List (TableRef × Expr)
  clauses : List (SelectClause × Expr)

namespace SelectStatement
variable (q : SelectStatement)

def tables : List TableRef := q.first :: q.joins.map Prod.fst

def refs : List (Option String × String) :=
  q.items.flatMap SelectItem.refs ++ (q.joins.flatMap (fun j => j.2.refs) ++
    q.clauses.flatMap (fun c => c.2.refs))

def aliases : List String :=
  q.items.filterMap (fun item =>
    match item with
    | .all => none
    | .expr _ label => label)

def itemTexts : List (List Char) :=
  match q.items.map SelectItem.text, q.distinct with
  | first :: more, true => ("DISTINCT ".toList ++ first) :: more
  | texts, _ => texts

def tableText (t : TableRef) : List Char := t.table.toList ++ (" AS ".toList ++ t.label.toList)

def text : String :=
  String.ofList ("SELECT ".toList ++ (", ".toList.intercalate q.itemTexts ++ (" FROM ".toList ++
    (tableText q.first ++ (q.joins.flatMap (fun j =>
      " JOIN ".toList ++ (tableText j.1 ++ (" ON ".toList ++ j.2.text))) ++
    q.clauses.flatMap (fun c => c.1.keyword.toList ++ c.2.text))))))

/-- The text is one of the statement, as far as column pruning looks at it: between the
keywords, in any letter case, the texts between commas are the items. White space and the
rest of the text are free. -/
structure TextOf (sql : String) : Prop where
  split : ∃ select blank list blank' fromWord rest,
    trimSpace sql.toList = select ++ (blank ++ (list ++ (blank' ++ (fromWord ++ rest)))) ∧
    toLower select = "select".toList ∧ blank ≠ [] ∧ (∀ c ∈ blank, isSpace c = true) ∧
    (list.splitOn ',').map trimSpace = q.itemTexts ∧ trimSpace list = list ∧ list ≠ [] ∧
    blank' ≠ [] ∧ (∀ c ∈ blank', isSpace c = true) ∧ toLower fromWord = "from".toList ∧
    '\n' ∉ list ∧ ∀ u v, list = u ++ v → matchFrom v = false

end SelectStatement
end MinIODB.Query
