import MinIODB.Service.Steps

/-!
# What a store keeps of other records

`DeleteData` finds the files of a record through the index keys that begin like its own,
rewrites them without the rows of the id, and deletes the keys. Rows of other records
survive in the store if the keys found are the record's own, their rows in shared files are
listed under another key, all copies of a file agree on them, and none of them has a NULL
id. Each change of the store that a call makes keeps them.
-/
namespace MinIODB.Service
open Buffer Query Wal Transition AList

section
variable {φ : Type*} (t a : String)

def Matched (k : String) : Prop := Glob.isMatch (recordPattern t a) k = true

def RecordKey (k : String) : Prop := ∃ day, ':' ∉ day.toList ∧ k = indexKey t a day

def Ours (s : Store φ) (name : String) : Prop := ∃ k, (k, name) ∈ s.index ∧ Matched t a k

def Other (s : Store φ) (name : String) (r : StoredRow φ) : Prop :=
  r.id ≠ some a ∧ ∃ rows, CopyOf s name rows ∧ r ∈ rows

structure Separated (valid : String → Bool) (s : Store φ) : Prop where
  ownKeys : ∀ p ∈ s.index, Matched t a p.1 → RecordKey t a p.1
  ownTable : ∀ name T, Ours t a s name → valid T = true → Indexed s.index T name → T = t
  shared : ∀ name, Ours t a s name → ∀ r ∈ (s.file true name).getD [], r.id ≠ some a →
    ∃ k, (k, name) ∈ s.index ∧ Glob.isMatch (tablePattern t) k = true ∧ ¬ Matched t a k
  held : ∀ p ∈ s.index, Ours t a s p.2 → ¬ Matched t a p.1 → ∃ r, Other a s p.2 r

structure Rewritable (s : Store φ) : Prop where
  notNull : ∀ name rows, Ours t a s name → CopyOf s name rows → ∀ r ∈ rows, r.id ≠ none
  agree : ∀ name rows rows', Ours t a s name → CopyOf s name rows → CopyOf s name rows' →
    ∀ r ∈ rows, r.id ≠ some a → r ∈ rows'

structure Kept (s s' : Store φ) : Prop where
  files : ∀ name, ¬ Ours t a s name → s'.file true name = s.file true name
  others : ∀ name r, Ours t a s name → r.id ≠ some a →
    (r ∈ (s'.file true name).getD [] ↔ r ∈ (s.file true name).getD [])
  sub : ∀ p ∈ s'.index, p ∈ s.index
  listed : ∀ p ∈ s.index, p ∈ s'.index ∨ Matched t a p.1

variable {t a} {s s' : Store φ}

lemma file_ne_none {name : String} {rows : List (StoredRow φ)} (h : CopyOf s name rows) :
    ∃ rows', s.file true name = some rows' := by
  rw [Store.file, if_pos rfl]
  rcases h with h | h | h
  · exact ⟨rows, by rw [h]; rfl⟩
  · cases hcache : s.fileCache.lookup name with
    | none => exact ⟨rows, by rw [h]; rfl⟩
    | some rows' => exact ⟨rows', rfl⟩
  · cases hcache : s.fileCache.lookup name with
    | none =>
      cases htemp : s.tempDir.lookup name with
      | none => exact ⟨rows, by rw [h]; rfl⟩
      | some rows' => exact ⟨rows', rfl⟩
    | some rows' => exact ⟨rows', rfl⟩

lemma Kept.rows_iff {valid : String → Bool} (h : Kept t a s s') (hsep : Separated t a valid s)
    {T : String} (hT : valid T) {r : StoredRow φ} (hr : ¬(T = t ∧ r.id = some a)) :
    (∃ name ∈ s'.tableObjects true T, r ∈ (s'.file true name).getD []) ↔
      ∃ name ∈ s.tableObjects true T, r ∈ (s.file true name).getD [] := by
  have hother : ∀ {name}, Ours t a s name → Indexed s.index T name → T = t ∧ r.id ≠ some a := by
    intro name hours hindexed
    have htable := hsep.ownTable name T hours hT hindexed
    exact ⟨htable, fun hid => hr ⟨htable, hid⟩⟩
  simp only [Store.mem_tableObjects]
  constructor
  · rintro ⟨name, ⟨k, hk, hmatch⟩, hrow⟩
    have hindexed : Indexed s.index T name := ⟨k, h.sub _ hk, hmatch⟩
    refine ⟨name, hindexed, ?_⟩
    by_cases hours : Ours t a s name
    · exact (h.others name r hours (hother hours hindexed).2).mp hrow
    · rw [← h.files name hours]
      exact hrow
  · rintro ⟨name, hstored, hrow⟩
    obtain ⟨k, hk, hmatch⟩ : Indexed s.index T name := hstored
    by_cases hours : Ours t a s name
    · obtain ⟨rfl, hid⟩ := hother hours ⟨k, hk, hmatch⟩
      obtain ⟨k', hk', htable, hunmatched⟩ := hsep.shared name hours r hrow hid
      have hkept := (h.listed _ hk').resolve_right hunmatched
      exact ⟨name, ⟨k', hkept, htable⟩, (h.others name r hours hid).mpr hrow⟩
    · have hkept := (h.listed _ hk).resolve_right (fun hmatched => hours ⟨k, hk, hmatched⟩)
      exact ⟨name, ⟨k, hkept, hmatch⟩, by rw [h.files name hours]; exact hrow⟩

end

variable {φ : Type*} (t a : String)

structure StoreKept (s s' : Store φ) : Prop where
  cache : s'.fileCache = s.fileCache
  temp : ∀ name, ¬ Ours t a s name → s'.tempDir.lookup name = s.tempDir.lookup name
  objects : ∀ name, ¬ Ours t a s name → s'.objects.lookup name = s.objects.lookup name
  agrees : ∀ name rows, Ours t a s name → CopyOf s' name rows → ∀ r, r.id ≠ some a →
    (r ∈ rows ↔ Other a s name r)
  copied : ∀ name r, Ours t a s name → Other a s name r → ∃ rows, CopyOf s' name rows
  stored : ∀ name r, Ours t a s name → Other a s name r → s.objects.lookup name ≠ none →
    s'.objects.lookup name ≠ none
  sub : ∀ p ∈ s'.index, p ∈ s.index
  listed : ∀ p ∈ s.index, p ∈ s'.index ∨ Matched t a p.1

variable {t a} {s s' : Store φ}

lemma StoreKept.refl (h : Rewritable t a s) : StoreKept t a s s where
  cache := rfl
  temp := fun _ _ => rfl
  objects := fun _ _ => rfl
  agrees := fun name rows hours hcopy r hr =>
    ⟨fun hmem => ⟨hr, rows, hcopy, hmem⟩, fun ⟨_, rows', hcopy', hmem⟩ =>
      h.agree name rows' rows hours hcopy' hcopy r hmem hr⟩
  copied := fun _ _ _ ⟨_, rows, hcopy, _⟩ => ⟨rows, hcopy⟩
  stored := fun _ _ _ _ h => h
  sub := fun _ hp => hp
  listed := fun _ hp => .inl hp

lemma StoreKept.kept (h : StoreKept t a s s') (hrefl : StoreKept t a s s) : Kept t a s s' where
  files := by
    intro name hours
    rw [Store.file, Store.file, h.cache, h.temp name hours, h.objects name hours]
  others := by
    have hrows : ∀ {s' : Store φ}, StoreKept t a s s' → ∀ name r, Ours t a s name → r.id ≠ some a →
        (r ∈ (s'.file true name).getD [] ↔ Other a s name r) := by
      intro s' h name r hours hr
      cases hfile : s'.file true name with
      | none =>
        refine ⟨by simp, fun hother => ?_⟩
        obtain ⟨rows, hcopy⟩ := h.copied name r hours hother
        obtain ⟨rows', hsome⟩ := file_ne_none hcopy
        rw [hfile] at hsome
        cases hsome
      | some rows => exact h.agrees name rows hours (copyOf_file hfile) r hr
    intro name r hours hr
    rw [hrows h name r hours hr, hrows hrefl name r hours hr]
  sub := h.sub
  listed := h.listed

def Agrees (t a : String) (s : Store φ) (name : String) (rows : List (StoredRow φ)) : Prop :=
  Ours t a s name ∧ ∀ r, r.id ≠ some a → (r ∈ rows ↔ Other a s name r)

variable {name : String} {rows : List (StoredRow φ)}

lemma StoreKept.change {s'' : Store φ} (h : StoreKept t a s s') (hours : Ours t a s name)
    (hcache : s''.fileCache = s'.fileCache) (hindex : s''.index = s'.index)
    (hother : ∀ name', name' ≠ name → s''.tempDir.lookup name' = s'.tempDir.lookup name' ∧
      s''.objects.lookup name' = s'.objects.lookup name')
    (hagrees : ∀ rows, CopyOf s'' name rows → CopyOf s' name rows ∨ Agrees t a s name rows)
    (hcopied : ∀ r, Other a s name r → ∃ rows, CopyOf s'' name rows)
    (hstored : ∀ r, Other a s name r → s'.objects.lookup name ≠ none → s''.objects.lookup name ≠ none) :
    StoreKept t a s s'' := by
  have hne : ∀ {name'}, ¬ Ours t a s name' → name' ≠ name := by
    rintro name' hours' rfl
    exact hours' hours
  have hcopy : ∀ {name'} rows, name' ≠ name → (CopyOf s'' name' rows ↔ CopyOf s' name' rows) := by
    intro name' rows hname
    rw [CopyOf, CopyOf, hcache, (hother name' hname).1, (hother name' hname).2]
  refine ⟨hcache.trans h.cache, ?_, ?_, ?_, ?_, ?_, by rw [hindex]; exact h.sub, by rw [hindex]; exact h.listed⟩
  · exact fun name' hours' => (hother name' (hne hours')).1.trans (h.temp name' hours')
  · exact fun name' hours' => (hother name' (hne hours')).2.trans (h.objects name' hours')
  · intro name' rows hours' hrows r hr
    by_cases hname : name' = name
    · subst hname
      rcases hagrees rows hrows with hrows | hrows
      · exact h.agrees name' rows hours' hrows r hr
      · exact hrows.2 r hr
    · exact h.agrees name' rows hours' ((hcopy rows hname).mp hrows) r hr
  · intro name' r hours' hr
    by_cases hname : name' = name
    · subst hname
      exact hcopied r hr
    · obtain ⟨rows, hrows⟩ := h.copied name' r hours' hr
      exact ⟨rows, (hcopy rows hname).mpr hrows⟩
  · intro name' r hours' hr hobject
    by_cases hname : name' = name
    · subst hname
      exact hstored r hr (h.stored name' r hours' hr hobject)
    · rw [(hother name' hname).2]
      exact h.stored name' r hours' hr hobject

section
variable (h : StoreKept t a s s')
include h

lemma StoreKept.saveTemp (hrows : Agrees t a s name rows) :
    StoreKept t a s { s' with tempDir := s'.tempDir.insert name rows } := by
  refine h.change hrows.1 rfl rfl (fun _ hne => ⟨lookup_insert_ne hne, rfl⟩) ?_ ?_ (fun _ _ => id)
  · intro rows' hcopy
    rcases CopyOf.of_insert_temp hcopy with hcopy | ⟨-, rfl⟩
    · exact .inl hcopy
    · exact .inr hrows
  · exact fun _ _ => ⟨rows, .inr (.inl (lookup_insert _))⟩

lemma StoreKept.putObject (hrows : Agrees t a s name rows) :
    StoreKept t a s { s' with objects := s'.objects.insert name rows } := by
  have hself : (s'.objects.insert name rows).lookup name = some rows := lookup_insert _
  refine h.change hrows.1 rfl rfl (fun _ hne => ⟨rfl, lookup_insert_ne hne⟩) ?_ ?_ ?_
  · intro rows' hcopy
    rcases CopyOf.of_insert_object hcopy with hcopy | ⟨-, rfl⟩
    · exact .inl hcopy
    · exact .inr hrows
  · exact fun _ _ => ⟨rows, .inr (.inr hself)⟩
  · exact fun _ _ _ => hself.trans_ne (Option.some_ne_none rows)

lemma StoreKept.removeObject (hours : Ours t a s name)
    (hnone : ∀ r, ¬ Other a s name r) :
    StoreKept t a s { s' with objects := s'.objects.erase name } := by
  refine h.change hours rfl rfl (fun _ hne => ⟨rfl, lookup_erase_ne hne⟩) ?_ ?_ ?_
  · exact fun _ hcopy => .inl (CopyOf.of_erase_object hcopy)
  · exact fun r hr => absurd hr (hnone r)
  · exact fun r hr => absurd hr (hnone r)

lemma StoreKept.removeTemp (hours : Ours t a s name)
    (hobject : s'.objects.lookup name ≠ none) :
    StoreKept t a s { s' with tempDir := s'.tempDir.erase name } := by
  refine h.change hours rfl rfl (fun _ hne => ⟨lookup_erase_ne hne, rfl⟩) ?_ ?_ (fun _ _ => id)
  · exact fun _ hcopy => .inl (CopyOf.of_erase_temp hcopy)
  · obtain ⟨rows, hrows⟩ := Option.ne_none_iff_exists'.mp hobject
    exact fun _ _ => ⟨rows, .inr (.inr hrows)⟩

lemma StoreKept.setIndex {index : Index}
    (hsub : ∀ p ∈ index, p ∈ s'.index) (hgone : ∀ p ∈ s'.index, p ∈ index ∨ Matched t a p.1) :
    StoreKept t a s { s' with index := index } where
  cache := h.cache
  temp := h.temp
  objects := h.objects
  agrees := h.agrees
  copied := h.copied
  stored := h.stored
  sub := fun p hp => h.sub p (hsub p hp)
  listed := by
    intro p hp
    rcases h.listed p hp with hkept | hgone'
    · exact hgone p hkept
    · exact .inr hgone'

lemma StoreKept.setRewrites (rewrites : Files φ) :
    StoreKept t a s { s' with rewrites := rewrites } :=
  ⟨h.cache, h.temp, h.objects, h.agrees, h.copied, h.stored, h.sub, h.listed⟩

end

end MinIODB.Service
