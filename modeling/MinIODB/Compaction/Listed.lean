import MinIODB.Compaction.Steps

/-!
# Compactions next to the listing of MinIO

Without Redis, queries read all objects of the table that MinIO lists, and a `DeleteData` call
does not get to the objects. From the first upload of a compaction to its last remove, rows are
seen more often than they should be. In the end they are seen as often as before, provided that no
row was changed on the way, and that no upload and no remove has failed.
-/
namespace MinIODB.Compaction
open Service Buffer Query List Option AList

def fileContents (store : Store Columns) (name : String) : List Content :=
  ((store.file false name).getD []).map content

def inputRows (store : Store Columns) (files : List String) : Multiset Content :=
  (files.flatMap (fileContents store) : List Content)

def outputRows (outputs : List Output) : Multiset Content :=
  (outputs.flatMap (fun output => output.2.map (fun rec => content (writtenRow rec))) : List Content)

def KeepsListed {ν : Type*} (json : Json ν) (table : String) (store : Store Columns) (job : Job) (e : StepTime) :
    Phase ν → Prop
  | .reading name rows _ _ => e.ok = true → (∀ r ∈ rows, Stable json r) ∧ store.file false name = some rows
  | .statting (_ :: _) => e.ok = true
  | .uploading output _ => e.ok = true ∧ store.file false (uploadName table job e.now output.1) = none
  | .removing (_ :: _) => e.ok = true
  | _ => True

instance {ν : Type*} (json : Json ν) (table : String) (store : Store Columns) (job : Job) (e : StepTime) :
    ∀ phase : Phase ν, Decidable (KeepsListed json table store job e phase)
  | .reading name rows _ _ =>
    inferInstanceAs (Decidable (e.ok = true → (∀ r ∈ rows, Stable json r) ∧ store.file false name = some rows))
  | .statting (_ :: _) | .removing (_ :: _) => inferInstanceAs (Decidable (e.ok = true))
  | .uploading output _ =>
    inferInstanceAs (Decidable (e.ok = true ∧ store.file false (uploadName table job e.now output.1) = none))
  | .statting [] | .removing [] | .downloading _ _ | .writing _ | .returned _ => isTrue trivial

section
variable {store : Store Columns} {table name : String} {files : List String} {rows : List (StoredRow Columns)}

lemma seen_eq (table : String) (store : Store Columns) :
    seen false table store = inputRows store (store.objects.keys.filter (listed table)) := rfl

lemma lookup_of_file_none (h : store.file false name = none) : store.objects.lookup name = none :=
  (or_eq_none_iff.mp h).2

lemma file_insert_of_ne {name' : String} (h : name' ≠ name) :
    Store.file { store with objects := store.objects.insert name rows } false name' =
      store.file false name' := by
  simp [Store.file, lookup_insert_apply, if_neg h]

lemma file_erase_of_ne {name' : String} (h : name' ≠ name) :
    Store.file { store with objects := store.objects.erase name } false name' = store.file false name' := by
  simp [Store.file, lookup_erase_apply, if_neg h]

lemma inputRows_congr {store' : Store Columns}
    (h : ∀ name ∈ files, store'.file false name = store.file false name) :
    inputRows store' files = inputRows store files := by
  refine congrArg _ (flatMap_congr (fun name hname => ?_))
  rw [fileContents, fileContents, h name hname]

@[simp] theorem inputRows_cons : inputRows store (name :: files) =
    (fileContents store name : Multiset Content) + inputRows store files := by
  simp [inputRows]

lemma inputRows_perm {files' : List String} (h : files.Perm files') :
    inputRows store files = inputRows store files' := by
  rw [inputRows, inputRows, Multiset.coe_eq_coe]
  exact h.flatMap (fun _ _ => List.Perm.refl _)

lemma seen_insert (hname : store.file false name = none) (hlisted : listed table name) :
    seen false table { store with objects := store.objects.insert name rows } =
      (rows.map content : Multiset Content) + seen false table store := by
  have hkeys : name ∉ store.objects.keys := by
    rw [← AList.mem_keys, ← lookup_eq_none]
    exact lookup_of_file_none hname
  have hfile : Store.file { store with objects := store.objects.insert name rows } false name = some rows := by
    have htemp := (or_eq_none_iff.mp hname).1
    simp only [Store.file, lookup_insert, htemp, none_or]
  rw [seen_eq, keys_insert, erase_of_not_mem hkeys, filter_cons_of_pos hlisted,
    inputRows_cons, fileContents, hfile, seen_eq]
  refine congrArg _ (inputRows_congr (fun name' hname' => file_insert_of_ne ?_))
  rintro rfl
  exact hkeys (mem_filter.mp hname').1

lemma seen_erase (hname : store.objects.lookup name ≠ none) (hlisted : listed table name) :
    seen false table store = (fileContents store name : Multiset Content) +
      seen false table { store with objects := store.objects.erase name } := by
  have hkeys : name ∈ store.objects.keys := by
    rw [← AList.mem_keys]
    by_contra hmem
    exact hname (lookup_eq_none.mpr hmem)
  have hperm : (store.objects.keys.filter (listed table)).Perm
      (name :: (store.objects.keys.erase name).filter (listed table)) := by
    rw [← filter_cons_of_pos hlisted]
    exact (perm_cons_erase hkeys).filter _
  rw [seen_eq, inputRows_perm hperm, inputRows_cons, seen_eq, keys_erase]
  refine congrArg _ (inputRows_congr (fun name' hname' => ?_)).symm
  refine file_erase_of_ne ?_
  rintro rfl
  exact store.objects.keys_nodup.not_mem_erase (mem_filter.mp hname').1

lemma inputRows_le_seen (hnodup : files.Nodup) (hlisted : ∀ name ∈ files, listed table name)
    (hobjects : ∀ name ∈ files, store.objects.lookup name ≠ none) :
    inputRows store files ≤ seen false table store := by
  have hsub : files ⊆ store.objects.keys.filter (listed table) := by
    intro name hname
    rw [mem_filter, ← AList.mem_keys]
    refine ⟨?_, hlisted name hname⟩
    by_contra hmem
    exact hobjects name hname (lookup_eq_none.mpr hmem)
  obtain ⟨files', hfiles, hsub⟩ := hnodup.subperm hsub
  obtain ⟨rest, hperm⟩ := hsub.exists_perm_append
  rw [← inputRows_perm hfiles, seen_eq, inputRows_perm hperm, inputRows, inputRows, flatMap_append,
    ← Multiset.coe_add]
  exact Multiset.le_add_right _ _

@[simp] theorem outputRows_cons (output : Output) (outputs : List Output) :
    outputRows (output :: outputs) =
      ((output.2.map writtenRow).map content : Multiset Content) + outputRows outputs := by
  simp [outputRows, Function.comp_def]

lemma isParquet_append {a b : String} (h : isParquet b) : isParquet (a ++ b) := by
  rw [isParquet, isSuffixOf_iff_suffix] at h ⊢
  rw [String.toList_append]
  exact h.trans (suffix_append _ _)

lemma listed_uploadName {job : Job} {now : ℕ} {base : String} (h : isParquet base) :
    listed table (uploadName table job now base) = true := by
  have hhead : ∃ rest, uploadName table job now base = table ++ "/" ++ (rest ++ base) := by
    unfold uploadName
    split
    · exact ⟨job.nextLevel ++ "_promoted_" ++ toString now ++ "_", by simp only [String.append_assoc]⟩
    · refine ⟨"compacted_" ++ toString now ++ "_", ?_⟩
      have hslash : "/compacted_" = "/" ++ "compacted_" := rfl
      simp only [hslash, String.append_assoc]
  obtain ⟨rest, hname⟩ := hhead
  rw [hname, listed, isParquet_append (isParquet_append h), Bool.and_true, inTable, isPrefixOf_iff_prefix]
  exact ⟨(rest ++ base).toList, String.toList_append.symm⟩

end

section
variable {ν : Type*} {json : Json ν} {store : Store Columns} {files : List String} {records : List (Record ν)}

structure ReadFrom (json : Json ν) (store : Store Columns) (files : List String) (records : List (Record ν)) :
    Prop where
  objects : ∀ name ∈ files, store.objects.lookup name ≠ none
  rows : ∀ now, records.map (fun r => content (writtenRow (convertToGenericRecord json now r))) =
    files.flatMap (fileContents store)

lemma ReadFrom.nil : ReadFrom json store [] [] := ⟨by simp, by simp⟩

lemma ReadFrom.concat {name : String} {rows : List (StoredRow Columns)} (h : ReadFrom json store files records)
    (hobject : store.objects.lookup name = some rows) (hstable : ∀ r ∈ rows, Stable json r)
    (hfile : store.file false name = some rows) :
    ReadFrom json store (files ++ [name]) (records ++ readFile json rows) where
  objects name' hname := by
    rcases mem_append.mp hname with hname | hname
    · exact h.objects name' hname
    · rw [mem_singleton.mp hname, hobject]
      exact some_ne_none rows
  rows now := by
    have hread : (readFile json rows).map
        (fun r => content (writtenRow (convertToGenericRecord json now r))) = rows.map content := by
      rw [readFile, List.map_map]
      exact map_congr_left (fun r hr => (hstable r hr).content_written now)
    rw [map_append, h.rows now, hread, flatMap_append, flatMap_singleton, fileContents, hfile,
      getD_some]

lemma outputRows_outputFiles (h : ReadFrom json store files records) (maxRowsPerFile : ℕ) (e : StepTime) :
    outputRows (outputFiles json maxRowsPerFile e records) = inputRows store files := by
  rw [inputRows, ← h.rows (Int64.ofNat (e.now / 1000)), outputRows, Multiset.coe_eq_coe, outputFiles]
  refine ((perm_insertionSort _ _).flatMap (fun _ _ => List.Perm.refl _)).trans (List.Perm.of_eq ?_)
  generalize hwritten : writeFiles maxRowsPerFile [] _ = written
  have hflatten := flatten_writeFiles maxRowsPerFile [] (records.map
    (convertToGenericRecord json (Int64.ofNat (e.now / 1000))))
  rw [hwritten, nil_append] at hflatten
  calc (written.zipIdx.map (fun p => (dataFileName e.opened p.2, p.1))).flatMap
        (fun output => output.2.map (fun rec => content (writtenRow rec)))
      = (written.zipIdx.map Prod.fst).flatMap (map (fun rec => content (writtenRow rec))) := by
        rw [flatMap_map, flatMap_map]
    _ = written.flatten.map (fun rec => content (writtenRow rec)) := by
        rw [zipIdx_map_fst, map_flatten, flatMap_def]
    _ = _ := by rw [hflatten, List.map_map]; rfl

lemma isParquet_outputFiles {maxRowsPerFile : ℕ} {e : StepTime} {output : Output}
    (h : output ∈ outputFiles json maxRowsPerFile e records) : isParquet output.1 := by
  obtain ⟨p, -, rfl⟩ := List.mem_map.mp ((perm_insertionSort _ _).mem_iff.mp h)
  exact isParquet_append (by decide)

end

variable {ν : Type*} {json : Json ν} {table : String} {before : Multiset Content} {store : Store Columns}
  {files : List String} {c : Call ν} {e : StepTime}

structure Uploading (table : String) (before : Multiset Content) (store : Store Columns) (files : List String)
    (outputs : List Output) : Prop where
  objects : ∀ name ∈ files, store.objects.lookup name ≠ none
  names : ∀ output ∈ outputs, isParquet output.1 = true
  rows : seen false table store + outputRows outputs = before + inputRows store files
  rest : outputRows outputs ≤ inputRows store files
  known : inputRows store files ≤ before

structure Removing (table : String) (before : Multiset Content) (store : Store Columns) (files : List String) :
    Prop where
  nodup : files.Nodup
  listed : ∀ name ∈ files, listed table name = true
  objects : ∀ name ∈ files, store.objects.lookup name ≠ none
  rows : seen false table store = before + inputRows store files
  known : inputRows store files ≤ before

def Progress (json : Json ν) (table : String) (before : Multiset Content) (store : Store Columns) (c : Call ν) :
    Prop :=
  match c.phase with
  | .downloading files records =>
    seen false table store = before ∧ ∃ done, c.job.files = done ++ files ∧ ReadFrom json store done records
  | .reading name rows files records =>
    seen false table store = before ∧ store.objects.lookup name = some rows ∧
      ∃ done, c.job.files = done ++ name :: files ∧ ReadFrom json store done records
  | .writing records => seen false table store = before ∧ ReadFrom json store c.job.files records
  | .statting outputs => Uploading table before store c.job.files outputs
  | .uploading output outputs => Uploading table before store c.job.files (output :: outputs)
  | .removing files => Removing table before store files
  | .returned _ => seen false table store = before

lemma Uploading.upload {output : Output} {outputs : List Output} {name : String}
    (h : Uploading table before store files (output :: outputs)) (hlisted : Compaction.listed table name)
    (hname : store.file false name = none) :
    Uploading table before { store with objects := store.objects.insert name (output.2.map writtenRow) }
      files outputs := by
  have hne : ∀ name' ∈ files, name' ≠ name := by
    rintro name' hmem rfl
    exact h.objects name' hmem (lookup_of_file_none hname)
  have hinput : inputRows { store with objects := store.objects.insert name (output.2.map writtenRow) } files =
      inputRows store files := inputRows_congr (fun name' hmem => file_insert_of_ne (hne name' hmem))
  refine ⟨fun name' hmem => ?_, fun o ho => h.names o (.tail _ ho), ?_, ?_, ?_⟩
  · rw [lookup_insert_apply, if_neg (hne name' hmem)]
    exact h.objects name' hmem
  · rw [seen_insert hname hlisted, hinput, ← h.rows, outputRows_cons]
    abel
  · rw [hinput]
    refine le_trans ?_ h.rest
    rw [outputRows_cons]
    exact Multiset.le_add_left _ _
  · rw [hinput]
    exact h.known

lemma Removing.remove {name : String} (h : Removing table before store (name :: files)) :
    Removing table before { store with objects := store.objects.erase name } files := by
  obtain ⟨hnot, hnodup⟩ := nodup_cons.mp h.nodup
  have hne : ∀ name' ∈ files, name' ≠ name := by
    rintro name' hmem rfl
    exact hnot hmem
  have hinput : inputRows { store with objects := store.objects.erase name } files = inputRows store files :=
    inputRows_congr (fun name' hmem => file_erase_of_ne (hne name' hmem))
  have hrows := h.rows
  rw [seen_erase (h.objects name mem_cons_self) (h.listed name mem_cons_self), inputRows_cons] at hrows
  refine ⟨hnodup, fun n hn => h.listed n (.tail name hn), fun name' hmem => ?_, ?_, ?_⟩
  · rw [lookup_erase_apply, if_neg (hne name' hmem)]
    exact h.objects name' (.tail name hmem)
  · rw [hinput]
    refine add_left_cancel (a := (fileContents store name : Multiset Content)) (hrows.trans ?_)
    abel
  · rw [hinput]
    refine le_trans ?_ h.known
    rw [inputRows_cons]
    exact Multiset.le_add_left _ _

lemma Progress.step {objects : Files Columns} {phase : Phase ν} (h : Progress json table before store c)
    (hvalid : c.job.Valid table) (hkeeps : KeepsListed json table store c.job e c.phase)
    (hs : CallStep json table e store.objects c objects phase) :
    Progress json table before { store with objects := objects } { c with phase := phase } := by
  unfold Progress at h
  cases hs with
  | downloaded records hphase =>
    simp only [hphase] at h
    obtain ⟨hseen, done, hfiles, hread⟩ := h
    rw [append_nil] at hfiles
    exact ⟨hseen, hfiles ▸ hread⟩
  | download name rows files records hphase hobject =>
    simp only [hphase] at h
    obtain ⟨hseen, hread⟩ := h
    exact ⟨hseen, hobject, hread⟩
  | read name rows files records hphase he =>
    simp only [hphase] at h
    rw [hphase] at hkeeps
    obtain ⟨hseen, hobject, done, hfiles, hread⟩ := h
    obtain ⟨hstable, hfile⟩ := hkeeps he
    exact ⟨hseen, done ++ [name], by simpa using hfiles, hread.concat hobject hstable hfile⟩
  | write records hphase =>
    simp only [hphase] at h
    obtain ⟨hseen, hread⟩ := h
    have hrows := outputRows_outputFiles hread c.job.maxRowsPerFile e
    exact
      { objects := hread.objects
        names := fun _ ho => isParquet_outputFiles ho
        rows := by rw [hrows]; exact congrArg (· + _) hseen
        rest := hrows.le
        known := (inputRows_le_seen hvalid.1 hvalid.2 hread.objects).trans hseen.le }
  | uploaded hphase =>
    simp only [hphase] at h
    exact ⟨hvalid.1, hvalid.2, h.objects, by simpa [outputRows] using h.rows, h.known⟩
  | stat output outputs hphase =>
    simp only [hphase] at h
    exact h
  | upload output outputs hphase =>
    simp only [hphase] at h
    rw [hphase] at hkeeps
    exact h.upload (listed_uploadName (h.names output (.head _))) hkeeps.2
  | abandon hphase =>
    rcases hphase with ⟨_, _, hphase⟩ | ⟨_, _, _, _, hphase⟩ | ⟨_, hphase⟩ <;>
    · simp only [hphase] at h
      exact h.1
  | removed hphase =>
    simp only [hphase] at h
    exact h.rows.trans (by simp [inputRows])
  | remove name files hphase =>
    simp only [hphase] at h
    exact h.remove
  | skip output outputs hphase he | uploadFail output outputs hphase he | removeFail name files hphase he =>
    rw [hphase] at hkeeps
    simp [KeepsListed, he] at hkeeps

lemma Progress.kept (h : Progress json table before store c) : before ≤ seen false table store := by
  unfold Progress at h
  have huploading : ∀ {outputs}, Uploading table before store c.job.files outputs →
      before ≤ seen false table store := by
    intro outputs hu
    refine le_of_add_le_add_right (a := inputRows store c.job.files) ?_
    rw [← hu.rows]
    exact add_le_add_right hu.rest _
  split at h
  · exact h.1.ge
  · exact h.1.ge
  · exact h.1.ge
  · exact huploading h
  · exact huploading h
  · rw [h.rows]
    exact Multiset.le_add_right _ _
  · exact h.ge

lemma Progress.known (h : Progress json table before store c) {r : Content}
    (hr : r ∈ seen false table store) : r ∈ before := by
  unfold Progress at h
  have hmem : ∀ {files}, r ∈ before + inputRows store files → inputRows store files ≤ before → r ∈ before := by
    intro files hr hknown
    rcases Multiset.mem_add.mp hr with hr | hr
    · exact hr
    · exact Multiset.mem_of_le hknown hr
  have huploading : ∀ {outputs}, Uploading table before store c.job.files outputs → r ∈ before := by
    intro outputs hu
    refine hmem ?_ hu.known
    rw [← hu.rows]
    exact Multiset.mem_add.mpr (.inl hr)
  split at h
  · exact h.1 ▸ hr
  · exact h.1 ▸ hr
  · exact h.1 ▸ hr
  · exact huploading h
  · exact huploading h
  · exact hmem (h.rows ▸ hr) h.known
  · exact h ▸ hr

end MinIODB.Compaction
