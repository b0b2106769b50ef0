import Mathlib.Tactic

/-!
# Directories of append-only files

A directory lists its files by name in increasing order. A file is the list of what
was appended to it; appending to a name that is not there creates the file. The
elements are arbitrary: bytes, or the records that a reader makes of them.
-/

structure Directory (β : Type*) where
  files : List (ℕ × List β)
  sorted : (files.map Prod.fst).Pairwise (· < ·)

namespace Directory
open List

variable {β γ : Type*}

def empty : Directory β := ⟨[], List.Pairwise.nil⟩

def names (d : Directory β) : List ℕ := d.files.map Prod.fst

/-- The contents of a file; a missing file reads as an empty one. -/
def contents (d : Directory β) (name : ℕ) : List β :=
  ((d.files.find? (fun f => f.1 = name)).map Prod.snd).getD []

/-- Appends keep the listing in order. -/
def appendFiles (name : ℕ) (xs : List β) : List (ℕ × List β) → List (ℕ × List β)
  | [] => [(name, xs)]
  | f :: fs =>
    if name < f.1 then (name, xs) :: f :: fs
    else if name = f.1 then (name, f.2 ++ xs) :: fs
    else f :: appendFiles name xs fs

lemma mem_names_appendFiles (name m : ℕ) (xs : List β) (fs : List (ℕ × List β)) :
    m ∈ (appendFiles name xs fs).map Prod.fst ↔ m = name ∨ m ∈ fs.map Prod.fst := by
  induction fs with
  | nil => simp [appendFiles]
  | cons f fs ih =>
    rw [appendFiles]
    split
    · simp
    · split
      · rename_i _ heq
        simp [heq]
      · simp only [map_cons, mem_cons, ih]
        tauto

lemma sorted_appendFiles (name : ℕ) (xs : List β) (fs : List (ℕ × List β))
    (hs : (fs.map Prod.fst).Pairwise (· < ·)) :
    ((appendFiles name xs fs).map Prod.fst).Pairwise (· < ·) := by
  induction fs with
  | nil => simp [appendFiles]
  | cons f fs ih =>
    rw [map_cons, pairwise_cons] at hs
    rw [appendFiles]
    split
    · rename_i hlt
      simp only [map_cons, pairwise_cons, mem_cons, forall_eq_or_imp]
      exact ⟨⟨hlt, fun m hm => hlt.trans (hs.1 m hm)⟩, hs⟩
    · split
      · rename_i _ heq
        simpa [heq] using hs
      · rename_i hlt hne
        rw [map_cons, pairwise_cons]
        refine ⟨fun m hm => ?_, ih hs.2⟩
        rcases (mem_names_appendFiles name m xs fs).mp hm with rfl | hm
        · omega
        · exact hs.1 m hm

/-- Open a file for appending, creating it when it is missing, and write to it. -/
def append (d : Directory β) (name : ℕ) (xs : List β) : Directory β :=
  ⟨appendFiles name xs d.files, sorted_appendFiles name xs d.files d.sorted⟩

/-- Delete the files whose names satisfy the test. -/
def remove (d : Directory β) (p : ℕ → Bool) : Directory β :=
  ⟨d.files.filter (fun f => !p f.1), by
    have hsub := (List.filter_sublist (p := fun f => !p f.1) (l := d.files)).map Prod.fst
    exact d.sorted.sublist hsub⟩

@[simp] theorem names_empty : (empty : Directory β).names = [] := rfl

section
variable (d : Directory β)

@[simp] theorem mem_names_append (name m : ℕ) (xs : List β) :
    m ∈ (d.append name xs).names ↔ m = name ∨ m ∈ d.names :=
  mem_names_appendFiles name m xs d.files

@[simp] theorem mem_names_remove (p : ℕ → Bool) (m : ℕ) :
    m ∈ (d.remove p).names ↔ m ∈ d.names ∧ p m = false := by
  simp only [names, remove, mem_map, mem_filter, Bool.not_eq_true']
  constructor
  · rintro ⟨f, ⟨hf, hp⟩, rfl⟩
    exact ⟨⟨f, hf, rfl⟩, hp⟩
  · rintro ⟨⟨f, hf, rfl⟩, hp⟩
    exact ⟨f, ⟨hf, hp⟩, rfl⟩

lemma names_sorted : d.names.Pairwise (· < ·) := d.sorted

lemma names_nodup : d.names.Nodup :=
  d.names_sorted.imp (fun h => Nat.ne_of_lt h)

lemma contents_of_notMem (name : ℕ) (h : name ∉ d.names) :
    d.contents name = [] := by
  have hnone : d.files.find? (fun f => f.1 = name) = none := by
    rw [find?_eq_none]
    intro f hf hname
    exact h (mem_map.mpr ⟨f, hf, by simpa using hname⟩)
  simp [contents, hnone]

end

variable {name m : ℕ} {d : Directory β} {fs : List (ℕ × List β)}

lemma mem_names_of_mem (d : Directory β) {x : β} (h : x ∈ d.contents name) : name ∈ d.names := by
  by_contra hname
  rw [d.contents_of_notMem name hname] at h
  exact not_mem_nil h

/-- Lookup in a list of files, the form in which appends are followed. -/
lemma find_appendFiles (name m : ℕ) (xs : List β) (fs : List (ℕ × List β))
    (hs : (fs.map Prod.fst).Pairwise (· < ·)) :
    (((appendFiles name xs fs).find? (fun f => f.1 = m)).map Prod.snd).getD [] =
      if m = name then ((fs.find? (fun f => f.1 = name)).map Prod.snd).getD [] ++ xs
      else ((fs.find? (fun f => f.1 = m)).map Prod.snd).getD [] := by
  induction fs with
  | nil =>
    by_cases hm : m = name
    · simp [appendFiles, hm]
    · simp [appendFiles, hm, Ne.symm hm]
  | cons f fs ih =>
    rw [map_cons, pairwise_cons] at hs
    have ih := ih hs.2
    rw [appendFiles]
    split
    · rename_i hlt
      have hnone : (f :: fs).find? (fun f => f.1 = name) = none := by
        rw [find?_eq_none]
        intro g hg hname
        have hle : f.1 ≤ g.1 := by
          rcases mem_cons.mp hg with rfl | hg
          · exact le_rfl
          · exact (hs.1 g.1 (mem_map.mpr ⟨g, hg, rfl⟩)).le
        simp only [decide_eq_true_eq] at hname
        omega
      by_cases hm : m = name
      · subst hm
        rw [hnone]
        simp
      · rw [find?_cons_of_neg (by simpa using Ne.symm hm)]
        simp [hm]
    · split
      · rename_i _ heq
        by_cases hm : m = name
        · simp [hm, heq]
        · have hf : f.1 ≠ m := by omega
          rw [find?_cons_of_neg (by simpa using Ne.symm hm), if_neg hm,
            find?_cons_of_neg (by simpa using hf)]
      · rename_i hlt hne
        by_cases hf : f.1 = m
        · have hm : m ≠ name := by omega
          simp [hf, hm]
        · rw [find?_cons_of_neg (by simpa using hf), ih,
            find?_cons_of_neg (by simpa using Ne.symm hne),
            find?_cons_of_neg (by simpa using hf)]

section
variable (d : Directory β)

lemma contents_append (name m : ℕ) (xs : List β) :
    (d.append name xs).contents m = if m = name then d.contents name ++ xs else d.contents m :=
  find_appendFiles name m xs d.files d.sorted

@[simp] theorem contents_append_self (name : ℕ) (xs : List β) :
    (d.append name xs).contents name = d.contents name ++ xs := by
  simp [contents_append]

lemma contents_append_ne (xs : List β) (h : m ≠ name) :
    (d.append name xs).contents m = d.contents m := by
  simp [contents_append, h]

lemma contents_remove (p : ℕ → Bool) (h : p m = false) :
    (d.remove p).contents m = d.contents m := by
  have hfind : (d.files.filter (fun f => !p f.1)).find? (fun f => f.1 = m) =
      d.files.find? (fun f => f.1 = m) := by
    rw [find?_filter]
    congr 1
    funext f
    by_cases hf : f.1 = m
    · simp [hf, h]
    · simp [hf]
  simp [contents, remove, hfind]

lemma contents_removed (p : ℕ → Bool) (h : p m) :
    (d.remove p).contents m = [] :=
  contents_of_notMem _ m (by simp [h])

end

lemma appendFiles_appendFiles (name : ℕ) (xs ys : List β) (fs : List (ℕ × List β)) :
    appendFiles name ys (appendFiles name xs fs) = appendFiles name (xs ++ ys) fs := by
  induction fs with
  | nil => simp [appendFiles]
  | cons f fs ih =>
    rw [appendFiles, appendFiles]
    split
    · simp [appendFiles]
    · split
      · simp [appendFiles]
      · rename_i hlt hne
        rw [appendFiles, if_neg hlt, if_neg hne, ih]

@[simp] theorem append_append (d : Directory β) (name : ℕ) (xs ys : List β) :
    (d.append name xs).append name ys = d.append name (xs ++ ys) := by
  simp [append, appendFiles_appendFiles]

/-- All contents, file by file in the order of the names. -/
def all (d : Directory β) : List β := d.names.flatMap d.contents

@[simp] theorem all_empty : (empty : Directory β).all = [] := rfl

lemma flatMap_filter_ne_nil (c : ℕ → List β) (names : List ℕ) :
    (names.filter (fun m => !(c m).isEmpty)).flatMap c = names.flatMap c := by
  induction names with
  | nil => rfl
  | cons m names ih =>
    by_cases hm : c m = []
    · simp [hm, ih]
    · simp [hm, ih]

/-- Empty files do not matter: the whole is determined by the contents of the files. -/
lemma all_eq_of_contents {names : List ℕ} (hnames : names.Pairwise (· < ·))
    (h : ∀ m, d.contents m ≠ [] → m ∈ names) : d.all = names.flatMap d.contents := by
  have hnodup : ∀ {ms : List ℕ}, ms.Pairwise (· < ·) →
      (ms.filter (fun m => !(d.contents m).isEmpty)).Nodup :=
    fun hms => (hms.filter _).imp (fun hlt => Nat.ne_of_lt hlt)
  have hperm : (d.names.filter (fun m => !(d.contents m).isEmpty)).Perm
      (names.filter (fun m => !(d.contents m).isEmpty)) := by
    rw [perm_ext_iff_of_nodup (hnodup d.names_sorted) (hnodup hnames)]
    intro m
    simp only [mem_filter, Bool.not_eq_true', isEmpty_eq_false_iff]
    constructor
    · rintro ⟨_, hm⟩
      exact ⟨h m hm, hm⟩
    · rintro ⟨_, hm⟩
      obtain ⟨x, hx⟩ := exists_mem_of_ne_nil _ hm
      exact ⟨d.mem_names_of_mem hx, hm⟩
  have heq := hperm.eq_of_pairwise (fun a b _ _ hab hba => absurd hab (lt_asymm hba))
    (d.names_sorted.filter _) (hnames.filter _)
  rw [all, ← flatMap_filter_ne_nil, heq, flatMap_filter_ne_nil]

/-- No name in the directory is higher. -/
def Newest (d : Directory β) (name : ℕ) : Prop := ∀ m ∈ d.names, m ≤ name

lemma appendFiles_names_of_mem (xs : List β)
    (hs : (fs.map Prod.fst).Pairwise (· < ·)) (h : name ∈ fs.map Prod.fst) :
    (appendFiles name xs fs).map Prod.fst = fs.map Prod.fst := by
  induction fs with
  | nil => simp at h
  | cons f fs ih =>
    rw [map_cons, pairwise_cons] at hs
    rw [map_cons, mem_cons] at h
    rw [appendFiles]
    split
    · rename_i hlt
      rcases h with heq | hmem
      · omega
      · have hgt := hs.1 name hmem
        omega
    · split
      · rename_i _ heq
        simp [heq]
      · rename_i _ hne
        rw [map_cons, map_cons, ih hs.2 (h.resolve_left hne)]

lemma appendFiles_names_of_gt (xs : List β) (h : ∀ m ∈ fs.map Prod.fst, m < name) :
    (appendFiles name xs fs).map Prod.fst = fs.map Prod.fst ++ [name] := by
  induction fs with
  | nil => rfl
  | cons f fs ih =>
    rw [map_cons, forall_mem_cons] at h
    have hlt := h.1
    rw [appendFiles, if_neg (by omega), if_neg (by omega), map_cons, ih h.2]
    rfl

lemma names_append_of_mem (xs : List β) (h : name ∈ d.names) :
    (d.append name xs).names = d.names :=
  appendFiles_names_of_mem xs d.sorted h

lemma names_append_of_gt (xs : List β)
    (h : ∀ m ∈ d.names, m < name) : (d.append name xs).names = d.names ++ [name] :=
  appendFiles_names_of_gt xs h

/-- The newest file is listed last. -/
lemma Newest.names_eq (h : d.Newest name) (hmem : name ∈ d.names) :
    ∃ older, d.names = older ++ [name] ∧ name ∉ older := by
  have hsorted := d.names_sorted
  obtain ⟨older, newer, heq⟩ := append_of_mem hmem
  rw [heq, pairwise_append] at hsorted
  obtain ⟨_, hnewer, hcross⟩ := hsorted
  have hnil : newer = [] := by
    rw [eq_nil_iff_forall_not_mem]
    intro m hm
    have hlt := (pairwise_cons.mp hnewer).1 m hm
    have hle := h m (by simp [heq, hm])
    omega
  refine ⟨older, by rw [heq, hnil], fun hmem => ?_⟩
  exact (hcross name hmem name (by simp)).false

/-- Appending to the newest file, or creating it, appends to the whole. -/
lemma Newest.all_append (h : d.Newest name) (xs : List β) :
    (d.append name xs).all = d.all ++ xs := by
  have hsame : ∀ older : List ℕ, name ∉ older →
      older.flatMap (d.append name xs).contents = older.flatMap d.contents := by
    intro older hnot
    refine flatMap_congr (fun m hm => ?_)
    exact d.contents_append_ne xs (fun hmn => hnot (hmn ▸ hm))
  by_cases hmem : name ∈ d.names
  · obtain ⟨older, heq, hnot⟩ := h.names_eq hmem
    rw [all, names_append_of_mem xs hmem, all, heq]
    simp [hsame older hnot]
  · have hlt : ∀ m ∈ d.names, m < name :=
      fun m hm => lt_of_le_of_ne (h m hm) (fun heq => hmem (heq ▸ hm))
    rw [all, names_append_of_gt xs hlt, flatMap_append, hsame d.names hmem]
    simp [all, d.contents_of_notMem name hmem]

lemma Newest.append (h : d.Newest name) (xs : List β) : (d.append name xs).Newest name := by
  intro m hm
  rcases (d.mem_names_append name m xs).mp hm with rfl | hm
  · exact le_rfl
  · exact h m hm

lemma Newest.mono {later : ℕ} (h : d.Newest name) (hlt : name < later) : d.Newest later :=
  fun m hm => (h m hm).trans hlt.le

lemma Newest.remove (h : d.Newest name) (p : ℕ → Bool) : (d.remove p).Newest name :=
  fun m hm => h m ((d.mem_names_remove p m).mp hm).1

/-- What is left after deletions keeps its order. -/
lemma all_remove_sublist (d : Directory β) (p : ℕ → Bool) :
    List.Sublist (d.remove p).all d.all := by
  have hnames : (d.remove p).names = d.names.filter (fun m => !p m) := by
    simp only [names, remove, filter_map]
    rfl
  have hsame : (d.remove p).all = (d.names.filter (fun m => !p m)).flatMap d.contents := by
    rw [all, hnames]
    refine flatMap_congr (fun m hm => d.contents_remove p ?_)
    simpa using (mem_filter.mp hm).2
  rw [hsame, all]
  exact filter_sublist.flatMap d.contents

end Directory
