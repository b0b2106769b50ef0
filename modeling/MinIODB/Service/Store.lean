import MinIODB.Query.Completeness
import MinIODB.Buffer.Machine

/-!
# Stored files and their index

The objects in MinIO, the Redis index that names them, and the local copies that a node
keeps: files in its temporary directory, files in its cache, and rewritten files on their
way back to MinIO. The upload and all readers use one bucket.

Index keys are texts put together from a table, an id and a day. Redis finds them by
patterns, and a key is taken apart again at its colons.
-/
namespace MinIODB.Service
open Buffer Query List String AList Glob

structure StoredRow (φ : Type*) where
  id : Option String
  timestamp : Int64
  fields : φ
  tag : ℕ
  deriving DecidableEq

def stored {φ : Type*} (e : Entry φ) : StoredRow φ :=
  ⟨some e.row.id, e.row.timestamp, e.row.fields, e.tag⟩

abbrev Files (φ : Type*) := AList (fun _ : String => List (StoredRow φ))

structure Store (φ : Type*) where
  objects : Files φ
  index : Index
  tempDir : Files φ
  fileCache : Files φ
  rewrites : Files φ

section

def indexKey (tableName id day : String) : String :=
  "index:table:" ++ tableName ++ ":id:" ++ id ++ ":" ++ day

def recordPattern (tableName id : String) : String :=
  "index:table:" ++ tableName ++ ":id:" ++ id ++ ":" ++ "*"

def splitColon (s : String) : List String := (s.toList.splitOn ':').map String.ofList

def ofRecord (tableName id key : String) : Bool :=
  decide (6 ≤ (splitColon key).length) && (splitColon key)[0]? == some "index" &&
    (splitColon key)[2]? == some tableName && (splitColon key)[4]? == some id

def isLetter (c : Char) : Bool := ('a' ≤ c && c ≤ 'z') || ('A' ≤ c && c ≤ 'Z')

def isDigit (c : Char) : Bool := '0' ≤ c && c ≤ '9'

def isRequestChar (c : Char) : Bool := isLetter c || isDigit c || c == '-' || c == '_'

def validateID (id : String) : Bool :=
  id != "" && decide (id.utf8ByteSize ≤ 255) && id.toList.all isRequestChar

def isValidTableName (tableName : String) : Bool :=
  match tableName.toList with
  | [] => false
  | c :: cs => isLetter c && decide (cs.length ≤ 63) && cs.all (fun c => isLetter c || isDigit c || c == '_')

def PlainName (s : String) : Prop := ∀ c ∈ s.toList, isRequestChar c = true

variable {id t key t' : String} {c : Char}

lemma plainName_of_validateID (h : validateID id) : PlainName id := by
  simp only [validateID, Bool.and_eq_true] at h
  exact all_eq_true.mp h.2

lemma plainName_of_isValidTableName (h : isValidTableName t) : PlainName t := by
  intro c hc
  unfold isValidTableName at h
  cases hl : t.toList with
  | nil =>
    rw [hl] at hc
    cases hc
  | cons =>
    rw [hl] at h hc
    simp only [Bool.and_eq_true] at h
    rcases mem_cons.mp hc with rfl | hc
    · simp [isRequestChar, h.1.1]
    · have hchar := all_eq_true.mp h.2 c hc
      simp only [Bool.or_eq_true] at hchar
      simp only [isRequestChar, Bool.or_eq_true]
      tauto

lemma isPlain_of_isRequestChar (h : isRequestChar c) : isPlain c := by
  simp only [isPlain, Bool.and_eq_true, bne_iff_ne]
  refine ⟨⟨⟨?_, ?_⟩, ?_⟩, ?_⟩ <;>
  · rintro rfl
    revert h
    decide

lemma PlainName.not_mem {s : String} (h : PlainName s) (hc : isRequestChar c = false) :
    c ∉ s.toList := by
  intro hmem
  rw [h c hmem] at hc
  cases hc

def tableKeyHead (t : String) : String := "index:table:" ++ t ++ ":id:"

def recordKeyHead (t id : String) : String := tableKeyHead t ++ id ++ ":"

lemma isPlain_literal {s : String} (h : s.toList.all isPlain) :
    ∀ c ∈ s.toList, isPlain c := all_eq_true.mp h

lemma PlainName.isPlain {s : String} (h : PlainName s) : ∀ c ∈ s.toList, isPlain c :=
  fun c hc => isPlain_of_isRequestChar (h c hc)

lemma isPlain_tableKeyHead (ht : PlainName t) :
    ∀ c ∈ (tableKeyHead t).toList, isPlain c := by
  intro c hc
  simp only [tableKeyHead, toList_append, mem_append] at hc
  rcases hc with (hc | hc) | hc
  · exact isPlain_literal (s := "index:table:") (by decide) c hc
  · exact ht.isPlain c hc
  · exact isPlain_literal (s := ":id:") (by decide) c hc

lemma isMatch_tablePattern (ht : PlainName t) (key : String) :
    isMatch (tablePattern t) key ↔ (tableKeyHead t).toList <+: key.toList :=
  isMatch_plain_star (isPlain_tableKeyHead ht)

lemma isMatch_recordPattern (ht : PlainName t) (hid : PlainName id) (key : String) :
    isMatch (recordPattern t id) key ↔ (recordKeyHead t id).toList <+: key.toList := by
  have hpattern : recordPattern t id = recordKeyHead t id ++ "*" := rfl
  rw [hpattern]
  refine isMatch_plain_star (fun c hc => ?_)
  simp only [recordKeyHead, toList_append, mem_append] at hc
  rcases hc with (hc | hc) | hc
  · exact isPlain_tableKeyHead ht c hc
  · exact hid.isPlain c hc
  · exact isPlain_literal (s := ":") (by decide) c hc

lemma append_sep_inj {a b x y : List Char} (ha : c ∉ a) (hb : c ∉ b)
    (h : a ++ c :: x = b ++ c :: y) : a = b := by
  have hhead : ∀ {l z : List Char}, c ∉ l → (l ++ c :: z).takeWhile (· ≠ c) = l := by
    intro l z hl
    have hother : ∀ d ∈ l, decide (d ≠ c) = true := fun d hd => by simpa using ne_of_mem_of_not_mem hd hl
    rw [takeWhile_append_of_pos hother]
    simp
  rw [← hhead ha, h, hhead hb]

lemma inTable_unique (ht : '/' ∉ t.toList) (ht' : '/' ∉ t'.toList)
    (h : inTable t key) (h' : inTable t' key) : t = t' := by
  simp only [inTable, isPrefixOf_iff_prefix, toList_append] at h h'
  obtain ⟨rest, hrest⟩ := h
  obtain ⟨rest', hrest'⟩ := h'
  rw [List.append_assoc] at hrest hrest'
  exact toList_inj.mp (append_sep_inj ht ht' (hrest.trans hrest'.symm))

lemma tableKeyHead_iff : (tableKeyHead t).toList <+: key.toList ↔
    ∃ rest, key.toList = "index:table:".toList ++ (t.toList ++ ':' :: ("id:".toList ++ rest)) := by
  simp [prefix_iff_exists_eq_append, tableKeyHead]

lemma recordKeyHead_iff : (recordKeyHead t id).toList <+: key.toList ↔ ∃ rest, key.toList =
      "index:table:".toList ++ (t.toList ++ ':' :: ("id:".toList ++ (id.toList ++ ':' :: rest))) := by
  simp [prefix_iff_exists_eq_append, recordKeyHead, tableKeyHead]

lemma table_unique (ht : ':' ∉ t.toList) (ht' : ':' ∉ t'.toList)
    (h : (tableKeyHead t).toList <+: key.toList) (h' : (tableKeyHead t').toList <+: key.toList) :
    t = t' := by
  obtain ⟨rest, hrest⟩ := tableKeyHead_iff.mp h
  obtain ⟨rest', hrest'⟩ := tableKeyHead_iff.mp h'
  have heq := append_cancel_left (hrest.symm.trans hrest')
  exact toList_inj.mp (append_sep_inj ht ht' heq)

lemma tableKeyHead_indexKey (t id day : String) :
    (tableKeyHead t).toList <+: (indexKey t id day).toList := by
  have hkey : indexKey t id day = tableKeyHead t ++ id ++ ":" ++ day := rfl
  rw [hkey, String.append_assoc, String.append_assoc, toList_append]
  exact prefix_append _ _

lemma recordKeyHead_of_ofRecord (ht : ':' ∉ t.toList)
    (hkey : (tableKeyHead t).toList <+: key.toList) (h : ofRecord t id key) :
    (recordKeyHead t id).toList <+: key.toList := by
  obtain ⟨rest, hrest⟩ := tableKeyHead_iff.mp hkey
  have hparts : splitColon key =
      ["index", "table", t, "id"] ++ (rest.splitOn ':').map ofList := by
    have hlist : key.toList = "index".toList ++ ':' :: ("table".toList ++ ':' :: (t.toList ++ ':' ::
        ("id".toList ++ ':' :: rest))) := by
      rw [hrest]
      simp
    rw [splitColon, hlist, splitOn_append_cons_self, splitOn_append_cons_self,
      splitOn_append_cons_self, splitOn_append_cons_self,
      splitOn_eq_singleton (by decide), splitOn_eq_singleton (by decide),
      splitOn_eq_singleton ht, splitOn_eq_singleton (by decide)]
    simp
  simp only [ofRecord, hparts, Bool.and_eq_true, decide_eq_true_eq, List.length_append] at h
  obtain ⟨⟨⟨hlength, -⟩, -⟩, hid⟩ := h
  have hcolon : ':' ∈ rest := by
    by_contra hno
    rw [splitOn_eq_singleton hno] at hlength
    simp at hlength
  obtain ⟨before, after, rfl, hbefore⟩ := eq_append_cons_of_mem hcolon
  rw [splitOn_append_cons_self, splitOn_eq_singleton hbefore] at hid
  refine recordKeyHead_iff.mpr ⟨after, ?_⟩
  have hid : id.toList = before := by
    have heq : ofList before = id := by simpa using hid
    rw [← heq, toList_ofList]
  rw [hid]
  exact hrest

end

section
variable {φ : Type*}

lemma lookup_insert_apply (files : Files φ) (name name' : String) (rows : List (StoredRow φ)) :
    (files.insert name rows).lookup name' = if name' = name then some rows else files.lookup name' := by
  by_cases h : name' = name
  · rw [h, lookup_insert, if_pos rfl]
  · rw [lookup_insert_ne h, if_neg h]

lemma lookup_erase_apply (files : Files φ) (name name' : String) :
    (files.erase name).lookup name' = if name' = name then none else files.lookup name' := by
  by_cases h : name' = name
  · rw [h, lookup_erase, if_pos rfl]
  · rw [lookup_erase_ne h, if_neg h]

end

namespace Store
variable {φ : Type*} (s : Store φ)

def scanKeys (pattern : String) : List String :=
  (s.index.map Prod.fst).dedup.filter (Glob.isMatch pattern)

def members (key : String) : List String :=
  ((s.index.filter (fun p => p.1 == key)).map Prod.snd).dedup

def del (keys : List String) : Store φ :=
  { s with index := s.index.filter (fun p => decide (p.1 ∉ keys)) }

def srem (key name : String) : Store φ :=
  { s with index := s.index.filter (fun p => decide (p ≠ (key, name))) }

def servers : Servers := ⟨s.index, s.objects.keys⟩

def tableObjects (redisPool : Bool) (tableName : String) : List String :=
  if redisPool then
    (s.index.filter (fun p => Glob.isMatch (tablePattern tableName) p.1)).map Prod.snd
  else
    s.objects.keys.filter (fun name =>
      (tableName ++ "/").toList.isPrefixOf name.toList && isParquet name)

def file (redisPool : Bool) (name : String) : Option (List (StoredRow φ)) :=
  ((if redisPool then s.fileCache.lookup name else none).or (s.tempDir.lookup name)).or
    (s.objects.lookup name)

variable {s}

lemma mem_scanKeys {pattern key : String} :
    key ∈ s.scanKeys pattern ↔ (∃ name, (key, name) ∈ s.index) ∧ isMatch pattern key := by
  simp [scanKeys]

lemma mem_members {key name : String} : name ∈ s.members key ↔ (key, name) ∈ s.index := by
  simp [members]

@[simp] theorem mem_del {keys : List String} {p : String × String} :
    p ∈ (s.del keys).index ↔ p ∈ s.index ∧ p.1 ∉ keys := by
  simp [del]

@[simp] theorem mem_srem {key name : String} {p : String × String} :
    p ∈ (s.srem key name).index ↔ p ∈ s.index ∧ p ≠ (key, name) := by
  simp [srem]

lemma mem_tableObjects {redisPool : Bool} {tableName name : String} :
    name ∈ s.tableObjects redisPool tableName ↔ s.servers.Stored redisPool tableName name := by
  cases redisPool with
  | true =>
    simp only [tableObjects, if_true, mem_map, mem_filter, Servers.Stored, servers, Indexed]
    constructor
    · rintro ⟨⟨k, n⟩, ⟨hp, hmatch⟩, rfl⟩
      exact ⟨k, hp, hmatch⟩
    · rintro ⟨k, hp, hmatch⟩
      exact ⟨(k, name), ⟨hp, hmatch⟩, rfl⟩
  | false =>
    simp only [tableObjects, Bool.false_eq_true, if_false, mem_filter, Servers.Stored, servers,
      Bool.and_eq_true, isPrefixOf_iff_prefix, and_assoc]

end Store

variable {φ : Type*} {s : Store φ} {redisPool : Bool} {name name' : String} {rows rows' : List (StoredRow φ)}

def CopyOf (s : Store φ) (name : String) (rows : List (StoredRow φ)) : Prop :=
  s.fileCache.lookup name = some rows ∨ s.tempDir.lookup name = some rows ∨
    s.objects.lookup name = some rows

lemma copyOf_file (h : s.file redisPool name = some rows) : CopyOf s name rows := by
  rw [Store.file] at h
  rcases Option.or_eq_some_iff.mp h with h | ⟨-, h⟩
  · rcases Option.or_eq_some_iff.mp h with h | ⟨-, h⟩
    · exact .inl (Option.ite_none_right_eq_some.mp h).2
    · exact .inr (.inl h)
  · exact .inr (.inr h)

lemma mem_file {r : StoredRow φ} (h : r ∈ (s.file redisPool name).getD []) :
    ∃ rows, CopyOf s name rows ∧ r ∈ rows := by
  cases hfile : s.file redisPool name with
  | none =>
    rw [hfile] at h
    cases h
  | some rows =>
    rw [hfile] at h
    exact ⟨rows, copyOf_file hfile, h⟩

lemma lookup_of_insert {files : Files φ} (h : (files.insert name' rows').lookup name = some rows) :
    files.lookup name = some rows ∨ name = name' ∧ rows = rows' := by
  rw [lookup_insert_apply] at h
  split at h
  · rename_i heq
    cases h
    exact .inr ⟨heq, rfl⟩
  · exact .inl h

lemma CopyOf.of_insert_temp (h : CopyOf { s with tempDir := s.tempDir.insert name' rows' } name rows) :
    CopyOf s name rows ∨ name = name' ∧ rows = rows' := by
  rcases h with h | h | h
  · exact .inl (.inl h)
  · exact (lookup_of_insert h).imp_left (fun h => .inr (.inl h))
  · exact .inl (.inr (.inr h))

lemma CopyOf.of_insert_object (h : CopyOf { s with objects := s.objects.insert name' rows' } name rows) :
    CopyOf s name rows ∨ name = name' ∧ rows = rows' := by
  rcases h with h | h | h
  · exact .inl (.inl h)
  · exact .inl (.inr (.inl h))
  · exact (lookup_of_insert h).imp_left (fun h => .inr (.inr h))

lemma CopyOf.of_insert_cache (h : CopyOf { s with fileCache := s.fileCache.insert name' rows' } name rows) :
    CopyOf s name rows ∨ name = name' ∧ rows = rows' := by
  rcases h with h | h
  · exact (lookup_of_insert h).imp_left .inl
  · exact .inl (.inr h)

lemma lookup_of_erase {files : Files φ} (h : (files.erase name').lookup name = some rows) :
    files.lookup name = some rows := by
  rw [lookup_erase_apply] at h
  exact (Option.ite_none_left_eq_some.mp h).2

lemma CopyOf.of_erase_temp (h : CopyOf { s with tempDir := s.tempDir.erase name' } name rows) :
    CopyOf s name rows :=
  h.imp_right (Or.imp_left lookup_of_erase)

lemma CopyOf.of_erase_object (h : CopyOf { s with objects := s.objects.erase name' } name rows) :
    CopyOf s name rows :=
  h.imp_right (Or.imp_right lookup_of_erase)

lemma CopyOf.of_erase_cache (h : CopyOf { s with fileCache := s.fileCache.erase name' } name rows) :
    CopyOf s name rows :=
  h.imp_left lookup_of_erase

end MinIODB.Service
