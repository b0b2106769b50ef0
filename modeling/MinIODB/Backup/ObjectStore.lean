import Mathlib.Data.List.AList
import Mathlib.Tactic

/-!
# Buckets of an object store

A bucket maps names to objects. A recursive listing returns the objects whose names start
with a prefix; a listing that is not recursive cuts each name after the first slash behind the
prefix, and what it cuts off is one entry without a modification time. Server-side copies read
and write buckets of one server only.
-/
namespace MinIODB.Backup
open List String AList

variable {δ : Type*}

structure Object (δ : Type*) where
  content : δ
  lastModified : Int
  deriving DecidableEq

abbrev Bucket (δ : Type*) := AList (fun _ : String => Object δ)

structure ObjectInfo where
  name : String
  lastModified : Option Int
  deriving DecidableEq

def startsWith (text name : String) : Bool := text.toList.isPrefixOf name.toList

lemma startsWith_iff {text name : String} :
    startsWith text name ↔ ∃ rest, name = text ++ rest := by
  rw [startsWith, isPrefixOf_iff_prefix]
  constructor
  · rintro ⟨rest, hrest⟩
    exact ⟨ofList rest, toList_inj.mp (by simp [← hrest])⟩
  · rintro ⟨rest, rfl⟩
    exact ⟨rest.toList, by simp⟩

@[simp] theorem startsWith_append (text rest : String) : startsWith text (text ++ rest) :=
  startsWith_iff.mpr ⟨rest, rfl⟩

def cutStart (text name : String) : String := String.ofList (name.toList.drop text.toList.length)

@[simp] theorem cutStart_append (text rest : String) : cutStart text (text ++ rest) = rest :=
  toList_inj.mp (by simp [cutStart])

def firstElement (path : String) : String :=
  String.ofList (path.toList.takeWhile (fun c => decide (c ≠ '/')))

lemma firstElement_append {dir : String} (rest : String) (h : '/' ∉ dir.toList) :
    firstElement (dir ++ "/" ++ rest) = dir := by
  have hall : ∀ c ∈ dir.toList, decide (c ≠ '/') = true := by
    intro c hc
    exact decide_eq_true (fun heq => h (heq ▸ hc))
  refine toList_inj.mp ?_
  simp only [firstElement, toList_append, List.append_assoc, toList_ofList]
  rw [takeWhile_append_of_pos hall]
  simp

lemma not_mem_firstElement (path : String) : '/' ∉ (firstElement path).toList := by
  intro h
  rw [firstElement, toList_ofList] at h
  have htest := all_eq_true.mp List.all_takeWhile '/' h
  simp at htest

namespace Bucket

def listRecursive (b : Bucket δ) (start : String) : List ObjectInfo :=
  (b.entries.filter (fun e => startsWith start e.1)).map (fun e => ⟨e.1, some e.2.lastModified⟩)

lemma mem_listRecursive {b : Bucket δ} {start : String} {info : ObjectInfo} :
    info ∈ b.listRecursive start ↔ startsWith start info.name ∧
      ∃ o, b.lookup info.name = some o ∧ info.lastModified = some o.lastModified := by
  rw [listRecursive, mem_map]
  constructor
  · rintro ⟨e, he, rfl⟩
    obtain ⟨hmem, hstart⟩ := mem_filter.mp he
    exact ⟨hstart, e.2, mem_lookup_iff.mpr hmem, rfl⟩
  · rintro ⟨hstart, o, ho, hlast⟩
    refine ⟨⟨info.name, o⟩, mem_filter.mpr ⟨mem_lookup_iff.mp ho, hstart⟩, ?_⟩
    rw [← hlast]

def shallowEntry (start : String) (e : ObjectInfo) : ObjectInfo :=
  let rest := cutStart start e.name
  if '/' ∈ rest.toList then ⟨start ++ firstElement rest ++ "/", none⟩ else e

def listShallow (b : Bucket δ) (start : String) : List ObjectInfo :=
  ((b.listRecursive start).map (shallowEntry start)).dedup

lemma startsWith_shallowEntry {start : String} {e : ObjectInfo}
    (h : startsWith start e.name) : startsWith start (shallowEntry start e).name := by
  unfold shallowEntry
  simp only
  split
  case isTrue => rw [String.append_assoc, startsWith_append]
  case isFalse => exact h

end Bucket

abbrev Server (δ : Type*) := AList (fun _ : String => Bucket δ)

namespace Server

def get (s : Server δ) (bucket name : String) : Option (Object δ) :=
  (s.lookup bucket).bind (fun b => b.lookup name)

def put (s : Server δ) (bucket name : String) (o : Object δ) : Option (Server δ) :=
  (s.lookup bucket).map (fun b => s.insert bucket (b.insert name o))

def ensureBucket (s : Server δ) (bucket : String) : Server δ :=
  if (s.lookup bucket).isSome then s else s.insert bucket ∅

def copyObject (s : Server δ) (now : Int) (srcBucket src dstBucket dst : String) :
    Option (Server δ) :=
  (s.get srcBucket src).bind (fun o => s.put dstBucket dst { o with lastModified := now })

variable {s s' : Server δ} {bucket bucket' name name' : String} {o : Object δ}

lemma get_put (h : s.put bucket name o = some s') (bucket' name' : String) :
    s'.get bucket' name' = if bucket' = bucket ∧ name' = name then some o else s.get bucket' name' := by
  obtain ⟨b, hb, rfl⟩ := Option.map_eq_some_iff.mp h
  by_cases hbucket : bucket' = bucket
  · subst hbucket
    by_cases hname : name' = name
    · subst hname
      simp [get]
    · simp [get, hb, hname, lookup_insert_ne hname]
  · simp [get, hbucket, lookup_insert_ne hbucket]

lemma lookup_isSome_put (h : s.put bucket name o = some s') (bucket' : String) :
    (s'.lookup bucket').isSome = (s.lookup bucket').isSome := by
  obtain ⟨b, hb, rfl⟩ := Option.map_eq_some_iff.mp h
  by_cases hbucket : bucket' = bucket
  · subst hbucket
    simp [hb]
  · rw [lookup_insert_ne hbucket]

@[simp] theorem get_ensureBucket (s : Server δ) (bucket bucket' name : String) :
    (s.ensureBucket bucket).get bucket' name = s.get bucket' name := by
  unfold ensureBucket
  split
  case isTrue => rfl
  case isFalse hnone =>
    by_cases hbucket : bucket' = bucket
    · subst hbucket
      have hlookup : s.lookup bucket' = none := by simpa using hnone
      simp only [get, lookup_insert, hlookup]
      rfl
    · rw [get, get, lookup_insert_ne hbucket]

end Server

end MinIODB.Backup
