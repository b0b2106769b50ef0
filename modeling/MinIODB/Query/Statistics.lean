import MinIODB.Query.WhereClause
import MinIODB.Library.BigEndian
import MinIODB.Library.Utf8

/-!
# Column bounds from file statistics

When a file is written, the bounds of its columns are taken from the footer of its first row
group, as the bytes that stand there. They are stored as JSON strings, and when they are
loaded again each of them is read as a number if it looks like one. The pruner compares them
with the literals of a query, which are typed in the same way after the query has been put
in lower case.
-/
namespace MinIODB.Query
open List

inductive Cell where
  | int (n : ℤ)
  | str (s : String)
  deriving DecidableEq

def Cell.Le : Cell → Cell → Prop
  | .int a, .int b => a ≤ b
  | .str a, .str b => a ≤ b
  | _, _ => False

instance decidableCellLe : ∀ a b : Cell, Decidable (a.Le b)
  | .int a, .int b => inferInstanceAs (Decidable (a ≤ b))
  | .str a, .str b => inferInstanceAs (Decidable (a ≤ b))
  | .int _, .str _ => isFalse id
  | .str _, .int _ => isFalse id

def Cell.encode : Cell → List UInt8
  | .int n => (BigEndian.put 8 (n % 2 ^ 64).toNat).reverse
  | .str s => Utf8.encode s.toList

structure ColumnStatistics where
  minValue : Option (List UInt8)
  maxValue : Option (List UInt8)

structure ColumnChunk where
  pathInSchema : List String
  statistics : Option ColumnStatistics
  values : List (Option Cell)

structure ParquetFile where
  rowGroups : List (List ColumnChunk)

def ColumnChunk.colName (c : ColumnChunk) : String := c.pathInSchema.getLast?.getD ""

def ColumnChunk.bound (which : ColumnStatistics → Option (List UInt8)) (c : ColumnChunk) :
    Option (List UInt8) :=
  c.statistics.bind which

def collectBounds (which : ColumnStatistics → Option (List UInt8)) (columns : List ColumnChunk) :
    String → Option (List UInt8) :=
  columns.foldl (fun bounds c =>
    match c.bound which with
    | some bytes => Function.update bounds c.colName (some bytes)
    | none => bounds) (fun _ => none)

def ParquetFile.getFileMetadata (which : ColumnStatistics → Option (List UInt8)) (file : ParquetFile) :
    String → Option (List UInt8) :=
  match file.rowGroups with
  | [] => fun _ => none
  | columns :: _ => collectBounds which columns

section
variable (fmt : Formats)

def convertMetadataValue (bytes : List UInt8) : Value := typedValue fmt (Utf8.decode bytes)

def ParquetFile.loadFileMetadata (objectName : String) (file : ParquetFile) : FileMetadata where
  filePath := objectName
  minValues := fun col =>
    (file.getFileMetadata ColumnStatistics.minValue col).map (convertMetadataValue fmt)
  maxValues := fun col =>
    (file.getFileMetadata ColumnStatistics.maxValue col).map (convertMetadataValue fmt)

def Cell.literal : Cell → List Char
  | .int n => (toString n).toList
  | .str s => s.toList

def Cell.typed (v : Cell) : Value := typedValue fmt (toLower v.literal)

end

/-- The statistics of a column are its smallest and its largest value. -/
structure ColumnChunk.Correct (c : ColumnChunk) : Prop where
  min : ∀ bytes, c.bound ColumnStatistics.minValue = some bytes →
    ∃ lo, bytes = lo.encode ∧ some lo ∈ c.values ∧ ∀ v, some v ∈ c.values → lo.Le v
  max : ∀ bytes, c.bound ColumnStatistics.maxValue = some bytes →
    ∃ hi, bytes = hi.encode ∧ some hi ∈ c.values ∧ ∀ v, some v ∈ c.values → v.Le hi

def ColumnChunk.Spans (c : ColumnChunk) (v : Cell) : Prop :=
  (∃ u, some u ∈ c.values ∧ u.Le v) ∧ ∃ u, some u ∈ c.values ∧ v.Le u

def specialFloats : List String :=
  ["inf", "+inf", "-inf", "infinity", "+infinity", "-infinity", "nan"]

/-- The bounds of the column can be compared as texts: the values are strings in lower case,
a value that is read as a number is printed as it was, and values of the first row group are
not read as numbers and span those of the others. -/
structure TextColumn (fmt : Formats) (file : ParquetFile) (col : String) : Prop where
  strings : ∀ columns ∈ file.rowGroups, ∀ c ∈ columns, c.colName = col → ∀ v, some v ∈ c.values →
    ∃ s, v = .str s ∧ toLower s.toList = s.toList ∧ s ∉ specialFloats ∧
      printed fmt (typedValue fmt s.toList) = s
  plain : ∀ columns ∈ file.rowGroups.head?, ∀ c ∈ columns, c.colName = col → ∀ s,
    some (Cell.str s) ∈ c.values → typedValue fmt s.toList = .str s
  spanned : ∀ first ∈ file.rowGroups.head?, ∀ c ∈ first, c.colName = col → c.statistics ≠ none →
    ∀ columns ∈ file.rowGroups, ∀ c' ∈ columns, c'.colName = col → ∀ v, some v ∈ c'.values → c.Spans v

section
variable {fmt : Formats} {file : ParquetFile} {col : String}

lemma Cell.Le.trans {a b c : Cell} (h : a.Le b) (h' : b.Le c) : a.Le c := by
  cases a <;> cases b <;> cases c <;> simp only [Cell.Le] at h h' ⊢
  · exact le_trans h h'
  · exact le_trans h h'

variable {which : ColumnStatistics → Option (List UInt8)} {bytes : List UInt8}

lemma exists_of_collectBounds
    {columns : List ColumnChunk} (h : collectBounds which columns col = some bytes) :
    ∃ c ∈ columns, c.colName = col ∧ c.bound which = some bytes := by
  have hrun : ∀ (columns : List ColumnChunk) (bounds : String → Option (List UInt8)),
      columns.foldl (fun bounds c =>
        match c.bound which with
        | some bytes => Function.update bounds c.colName (some bytes)
        | none => bounds) bounds col = some bytes →
      bounds col = some bytes ∨ ∃ c ∈ columns, c.colName = col ∧ c.bound which = some bytes := by
    intro columns
    induction columns with
    | nil => exact fun bounds h => .inl h
    | cons c cs ih =>
      intro bounds h
      rw [foldl_cons] at h
      rcases ih _ h with hbounds | ⟨c', hc', hrest⟩
      · split at hbounds
        · rename_i b hb
          by_cases hcol : col = c.colName
          · rw [hcol, Function.update_self] at hbounds
            cases hbounds
            exact .inr ⟨c, mem_cons_self, hcol.symm, hb⟩
          · rw [Function.update_of_ne hcol] at hbounds
            exact .inl hbounds
        · exact .inl hbounds
      · exact .inr ⟨c', .tail c hc', hrest⟩
  rcases hrun columns (fun _ => none) h with hnone | hfound
  · cases hnone
  · exact hfound

lemma exists_of_getFileMetadata (h : file.getFileMetadata which col = some bytes) :
    ∃ first ∈ file.rowGroups.head?, ∃ c ∈ first, c.colName = col ∧ c.bound which = some bytes := by
  obtain ⟨rowGroups⟩ := file
  cases rowGroups with
  | nil => cases h
  | cons columns => exact ⟨columns, rfl, exists_of_collectBounds h⟩

lemma convertMetadataValue_encode (fmt : Formats) (s : String) :
    convertMetadataValue fmt (Cell.str s).encode = typedValue fmt s.toList := by
  rw [convertMetadataValue, Cell.encode, Utf8.decode_encode]

lemma TextColumn.loaded (good : ColumnChunk → Cell → Prop) (hcol : TextColumn fmt file col)
    (hgood : ∀ columns ∈ file.rowGroups, ∀ c ∈ columns, c.bound which = some bytes →
      ∃ u, bytes = u.encode ∧ some u ∈ c.values ∧ good c u)
    (h : file.getFileMetadata which col = some bytes) :
    ∃ s, convertMetadataValue fmt bytes = .str s ∧ ∃ first ∈ file.rowGroups.head?, ∃ c ∈ first,
      c.colName = col ∧ c.statistics ≠ none ∧ good c (.str s) := by
  obtain ⟨first, hfirst, c, hc, hname, hbound⟩ := exists_of_getFileMetadata h
  have hmem : first ∈ file.rowGroups := mem_of_mem_head? hfirst
  obtain ⟨u, hbytes, hu, hgoodu⟩ := hgood first hmem c hc hbound
  obtain ⟨s, rfl, -⟩ := hcol.strings first hmem c hc hname u hu
  refine ⟨s, ?_, first, hfirst, c, hc, hname, ?_, hgoodu⟩
  · rw [hbytes, convertMetadataValue_encode]
    exact hcol.plain first hfirst c hc hname s hu
  · intro hnone
    rw [ColumnChunk.bound, hnone] at hbound
    cases hbound

end

def nameColumn (lo hi : Cell) (values : List Cell) : ColumnChunk :=
  ⟨["Schema", "name"], some ⟨some lo.encode, some hi.encode⟩, values.map some⟩

def boundsAgainst (rowGroups : List ColumnChunk) (v : Cell) : Option (Ordering × Ordering) :=
  let file := (ParquetFile.mk (rowGroups.map (fun c => [c]))).loadFileMetadata plainFormats "orders/1.parquet"
  (file.minValues "name").bind (fun lo => (file.maxValues "name").map (fun hi =>
    (compareValues plainFormats lo (v.typed plainFormats), compareValues plainFormats hi (v.typed plainFormats))))

def firstNames : ColumnChunk := nameColumn (.str "ada") (.str "zoe") [.str "ada", .str "zoe"]

def secondNames : ColumnChunk := nameColumn (.str "bob") (.str "bob") [.str "bob"]

def namesFile : ParquetFile := ⟨[[firstNames], [secondNames]]⟩

lemma mem_namesFile {columns : List ColumnChunk} {c : ColumnChunk} (h : columns ∈ namesFile.rowGroups)
    (hc : c ∈ columns) : c = firstNames ∨ c = secondNames := by
  rcases mem_pair.mp h with rfl | rfl
  · exact .inl (mem_singleton.mp hc)
  · exact .inr (mem_singleton.mp hc)

lemma mem_names {c : ColumnChunk} (hc : c = firstNames ∨ c = secondNames) {v : Cell}
    (hv : some v ∈ c.values) : v = .str "ada" ∨ v = .str "zoe" ∨ v = .str "bob" := by
  rcases hc with rfl | rfl <;> simp [firstNames, secondNames, nameColumn] at hv <;> tauto

lemma nameColumn_correct {lo hi : Cell} {values : List Cell} (hlo : lo ∈ values) (hhi : hi ∈ values)
    (hmin : ∀ v ∈ values, lo.Le v) (hmax : ∀ v ∈ values, v.Le hi) :
    (nameColumn lo hi values).Correct := by
  have hmem : ∀ v, some v ∈ (nameColumn lo hi values).values ↔ v ∈ values := by
    simp [nameColumn]
  constructor
  · intro bytes hbytes
    exact ⟨lo, (Option.some.inj hbytes).symm, (hmem lo).mpr hlo, fun v hv => hmin v ((hmem v).mp hv)⟩
  · intro bytes hbytes
    exact ⟨hi, (Option.some.inj hbytes).symm, (hmem hi).mpr hhi, fun v hv => hmax v ((hmem v).mp hv)⟩

lemma namesFile_text : TextColumn plainFormats namesFile "name" where
  strings := by
    intro columns hcolumns c hc _ v hv
    rcases mem_names (mem_namesFile hcolumns hc) hv with rfl | rfl | rfl
    all_goals exact ⟨_, rfl, by decide +kernel⟩
  plain := by
    intro columns hcolumns c hc _ s hs
    rcases mem_names (mem_namesFile (mem_of_mem_head? hcolumns) hc) hs with h | h | h
    all_goals
      cases h
      decide +kernel
  spanned := by
    intro first hfirst c hc _ _ columns hcolumns c' hc' _ v hv
    cases hfirst
    cases mem_singleton.mp hc
    rcases mem_names (mem_namesFile hcolumns hc') hv with rfl | rfl | rfl
    all_goals exact ⟨⟨.str "ada", by decide +kernel⟩, ⟨.str "zoe", by decide +kernel⟩⟩

end MinIODB.Query
