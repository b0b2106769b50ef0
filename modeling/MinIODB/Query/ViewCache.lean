import MinIODB.Query.PrunedViews
import MinIODB.Library.Transition

/-!
# The view cache

The querier remembers for a connection and a table name the files of the view it made last,
and does not make the view again for the same files. The connection is known by its
address and the files by a hash. Views that are made with column pruning, or that take the
place of another spelling of the name, do not touch what is remembered.

DuckDB binds the columns of a view when it is made, and compares names without letter case.
-/
namespace MinIODB.Query
open Transition List Option AList Function String

structure BoundView where
  columns : List String
  files : List String
  deriving DecidableEq

structure ViewState where
  columns : String → List String
  connections : ℕ → Option (String → Option BoundView)
  viewCache : AList (fun _ : ℕ × String => String)

structure ViewEnv where
  dropped : Bool
  created : Bool
  verified : Bool

inductive ViewAction where
  | createTableView (db : ℕ) (tableName : String) (files : List String) (e : ViewEnv)
  | createPrunedView (db : ℕ) (tableName : String) (files : List String) (sql : String) (e : ViewEnv)
  | openConnection (db : ℕ)
  | close (db : ℕ)
  | replaceFile (path : String) (columns : List String)

def isRemoved (c : Char) : Bool :=
  (c.toNat < 32 || (127 ≤ c.toNat && c.toNat ≤ 159)) && c != '\n' && c != '\r' && c != '\t'

def sanitizeControlChars (path : String) : String :=
  String.ofList (path.toList.filter (fun c => !isRemoved c))

def joinFiles (files : List String) : String :=
  String.ofList (['|'].intercalate (files.map String.toList))

namespace ViewState
variable (hash : String → String) (s : ViewState)

def filesHash (files : List String) : String := hash (joinFiles (files.insertionSort (· ≤ ·)))

def view (db : ℕ) (tableName : String) : Option BoundView :=
  (s.connections db).bind (fun views => views (foldName tableName))

def setView (db : ℕ) (tableName : String) (view : Option BoundView) : ViewState :=
  { s with
    connections := Function.update s.connections db ((s.connections db).map (fun views =>
      Function.update views (foldName tableName) view)) }

def isViewCurrent (db : ℕ) (tableName : String) (files : List String) : Bool :=
  decide (s.viewCache.lookup (db, tableName) = some (filesHash hash files))

def updateViewCache (db : ℕ) (tableName : String) (files : List String) : ViewState :=
  { s with
    viewCache := (if 10000 ≤ s.viewCache.entries.length then ∅ else s.viewCache).insert (db, tableName)
      (filesHash hash files) }

def unionColumns (files : List String) : List String := (files.flatMap s.columns).dedup

def dropView (db : ℕ) (tableName : String) (e : ViewEnv) : ViewState :=
  if e.dropped then s.setView db tableName none else s

def createTableViewWithDB (db : ℕ) (tableName : String) (files : List String) (e : ViewEnv) :
    Except ViewError Unit × ViewState :=
  if files = [] then (.ok (), s)
  else if s.isViewCurrent hash db tableName files then (.ok (), s)
  else if !validateTableName tableName then (.error .invalidName, s)
  else
    -- CREATE VIEW fails on a name that is taken
    if e.created && ((s.dropView db tableName e).view db tableName).isNone then
      let s' := (s.dropView db tableName e).setView db tableName
        (some ⟨s.unionColumns (files.map sanitizeControlChars), files.map sanitizeControlChars⟩)
      if e.verified then (.ok (), s'.updateViewCache hash db tableName files)
      else (.error .verificationFailed, s')
    else (.error .createFailed, s.dropView db tableName e)

def createTableViewWithDBWithColumnPruning (enabled : Bool) (db : ℕ) (tableName : String)
    (files : List String) (sql : String) (e : ViewEnv) : Except ViewError Unit × ViewState :=
  if files = [] then (.ok (), s)
  else if !validateTableName tableName then (.error .invalidName, s)
  else
    let all := s.unionColumns (files.map sanitizeControlChars)
    let columns := (optimizedColumns enabled sql).getD all
    if e.created && columns.all (fun c => (all.map foldName).contains (foldName c)) then
      let s' := (s.dropView db tableName e).setView db tableName
        (some ⟨columns, files.map sanitizeControlChars⟩)
      if e.verified && ((optimizedColumns enabled sql).getD []).all validateTableName then (.ok (), s')
      else (.error .verificationFailed, s')
    else (.error .createFailed, s.dropView db tableName e)

def step (enabled : Bool) : ViewAction → Option ViewState
  | .createTableView db tableName files e =>
    if (s.connections db).isSome then some (s.createTableViewWithDB hash db tableName files e).2 else none
  | .createPrunedView db tableName files sql e =>
    if (s.connections db).isSome then
      some (s.createTableViewWithDBWithColumnPruning enabled db tableName files sql e).2
    else none
  | .openConnection db =>
    if (s.connections db).isSome then none
    else some { s with connections := Function.update s.connections db (some (fun _ => none)) }
  | .close db =>
    if (s.connections db).isSome then
      some { s with connections := Function.update s.connections db none }
    else none
  | .replaceFile path columns => some { s with columns := Function.update s.columns path columns }

def new (columns : String → List String) : ViewState := ⟨columns, fun _ => none, ∅⟩

end ViewState

section
variable (hash : String → String)

structure Recorded (s : ViewState) (h : String) (v : BoundView) : Prop where
  hash : h = ViewState.filesHash hash v.files
  nonempty : v.files ≠ []
  names : ∀ f ∈ v.files, '|' ∉ f.toList
  columns : ∀ c, c ∈ v.columns ↔ ∃ f ∈ v.files, c ∈ s.columns f

def ViewInv (s : ViewState) : Prop :=
  ∀ db t h, s.viewCache.lookup (db, t) = some h → (s.connections db).isSome = true →
    ∃ v, s.view db t = some v ∧ Recorded hash s h v

def OnlySpelling (s : ViewState) (db : ℕ) (t : String) : Prop :=
  ∀ t', t' ≠ t → foldName t' = foldName t → s.viewCache.lookup (db, t') = none

def KeepsViews (s : ViewState) : ViewAction → Prop
  | .createTableView db t files e =>
    OnlySpelling s db t ∧ (∀ f ∈ files, '|' ∉ f.toList ∧ sanitizeControlChars f = f) ∧
      (s.viewCache.lookup (db, t) = none ∨ (e.dropped = true ∧ e.created = true ∧ e.verified = true) ∨
        (e.dropped = false ∧ e.created = false))
  | .createPrunedView db t _ _ _ =>
    ∀ t', foldName t' = foldName t → s.viewCache.lookup (db, t') = none
  | .openConnection db => ∀ t, s.viewCache.lookup (db, t) = none
  | .close _ => True
  | .replaceFile path columns => (∀ c, c ∈ columns ↔ c ∈ s.columns path) ∨
      ∀ db t h v, s.viewCache.lookup (db, t) = some h → s.view db t = some v → path ∉ v.files

structure ChangesOnly (db : ℕ) (t : String) (s s' : ViewState) : Prop where
  columns : s'.columns = s.columns
  viewCache : s'.viewCache = s.viewCache
  connections : ∀ db', (s'.connections db').isSome = (s.connections db').isSome
  view : ∀ db' t', ¬ (db' = db ∧ foldName t' = foldName t) → s'.view db' t' = s.view db' t'

variable {hash} {s s' s'' : ViewState} {db : ℕ} {t : String} {files : List String} {e : ViewEnv}

lemma ChangesOnly.refl : ChangesOnly db t s s := ⟨rfl, rfl, fun _ => rfl, fun _ _ _ => rfl⟩

lemma ChangesOnly.trans (h : ChangesOnly db t s s') (h' : ChangesOnly db t s' s'') :
    ChangesOnly db t s s'' where
  columns := h'.columns.trans h.columns
  viewCache := h'.viewCache.trans h.viewCache
  connections := fun db' => (h'.connections db').trans (h.connections db')
  view := fun db' t' hne => (h'.view db' t' hne).trans (h.view db' t' hne)

open ViewState

section
variable (view : Option BoundView)

lemma isSome_setView (db' : ℕ) :
    ((s.setView db t view).connections db').isSome = (s.connections db').isSome := by
  simp only [setView]
  by_cases hdb : db' = db
  · rw [hdb, update_self, isSome_map]
  · rw [update_of_ne hdb]

lemma view_setView_self (hopen : (s.connections db).isSome)
    {t' : String} (ht : foldName t' = foldName t) : (s.setView db t view).view db t' = view := by
  obtain ⟨views, hviews⟩ := isSome_iff_exists.mp hopen
  simp [ViewState.view, ViewState.setView, hviews, ht]

lemma changesOnly_setView : ChangesOnly db t s (s.setView db t view) where
  columns := rfl
  viewCache := rfl
  connections := isSome_setView view
  view := by
    intro db' t' hne
    simp only [ViewState.view, ViewState.setView]
    by_cases hdb : db' = db
    · subst hdb
      have ht : foldName t' ≠ foldName t := fun ht => hne ⟨rfl, ht⟩
      rw [update_self]
      cases s.connections db' with
      | none => rfl
      | some => exact update_of_ne ht _ _
    · rw [update_of_ne hdb]

end

lemma changesOnly_dropView : ChangesOnly db t s (s.dropView db t e) := by
  unfold dropView
  split
  · exact changesOnly_setView none
  · exact .refl

lemma changesOnly_pruned (enabled : Bool) (sql : String) :
    ChangesOnly db t s (s.createTableViewWithDBWithColumnPruning enabled db t files sql e).2 := by
  unfold ViewState.createTableViewWithDBWithColumnPruning
  split
  · exact .refl
  · split
    · exact .refl
    · dsimp only
      split
      · split <;> exact changesOnly_dropView.trans (changesOnly_setView _)
      · exact changesOnly_dropView

lemma createTableView_cases (hash : String → String) (t : String) (e : ViewEnv)
    (hopen : (s.connections db).isSome) (hplain : files.map sanitizeControlChars = files) :
    (s.createTableViewWithDB hash db t files e).2 = s ∨
      ((e.verified = false ∨ e.created = false ∨ e.dropped = false) ∧ (e.dropped ∨ e.created) ∧
        ChangesOnly db t s (s.createTableViewWithDB hash db t files e).2) ∨
      files ≠ [] ∧ ∃ s', ChangesOnly db t s s' ∧ s'.view db t = some ⟨s.unionColumns files, files⟩ ∧
        (s.createTableViewWithDB hash db t files e).2 = s'.updateViewCache hash db t files := by
  unfold ViewState.createTableViewWithDB
  split
  · exact .inl rfl
  · rename_i hne
    split
    · exact .inl rfl
    · split
      · exact .inl rfl
      · rw [hplain]
        have hopen' : ((s.dropView db t e).connections db).isSome :=
          (changesOnly_dropView.connections db).trans hopen
        split
        · rename_i hcreated
          rw [Bool.and_eq_true] at hcreated
          dsimp only
          split
          · exact .inr (.inr ⟨hne, _, changesOnly_dropView.trans (changesOnly_setView _),
              view_setView_self _ hopen' rfl, rfl⟩)
          · rename_i hverified
            exact .inr (.inl ⟨.inl (by simpa using hverified), .inr hcreated.1,
              changesOnly_dropView.trans (changesOnly_setView _)⟩)
        · rename_i hcreated
          cases hdropped : e.dropped with
          | false =>
            have hsame : s.dropView db t e = s := by simp [dropView, hdropped]
            exact .inl hsame
          | true =>
            have hnone : (s.dropView db t e).view db t = none := by
              rw [dropView, if_pos hdropped]
              exact view_setView_self none hopen rfl
            have hfalse : e.created = false := by simpa [hnone] using hcreated
            exact .inr (.inl ⟨.inr (.inl hfalse), .inl rfl, changesOnly_dropView⟩)

lemma ViewInv.changesOnly (h : ViewInv hash s) (hc : ChangesOnly db t s s')
    (hnone : ∀ t', foldName t' = foldName t → s.viewCache.lookup (db, t') = none) :
    ViewInv hash s' := by
  intro db' t' h' hlookup hopen
  rw [hc.viewCache] at hlookup
  rw [hc.connections] at hopen
  obtain ⟨v, hv, hrecorded⟩ := h db' t' h' hlookup hopen
  refine ⟨v, ?_, hrecorded.hash, hrecorded.nonempty, hrecorded.names, by
    rw [hc.columns]
    exact hrecorded.columns⟩
  rw [hc.view db' t', hv]
  rintro ⟨rfl, ht⟩
  rw [hnone t' ht] at hlookup
  cases hlookup

lemma ViewInv.updateViewCache (h : ViewInv hash s) (hc : ChangesOnly db t s s')
    (hone : OnlySpelling s db t) (hne : files ≠ []) (hnames : ∀ f ∈ files, '|' ∉ f.toList)
    (hview : s'.view db t = some ⟨s.unionColumns files, files⟩) :
    ViewInv hash (s'.updateViewCache hash db t files) := by
  intro db' t' h' hlookup hopen
  have hcolumns : (s'.updateViewCache hash db t files).columns = s.columns := hc.columns
  by_cases hkey : (db', t') = (db, t)
  · cases hkey
    have hhash : h' = ViewState.filesHash hash files := by
      rw [ViewState.updateViewCache, lookup_insert] at hlookup
      exact (Option.some.inj hlookup).symm
    refine ⟨_, hview, hhash, hne, hnames, fun c => ?_⟩
    simp [unionColumns, hcolumns]
  · have hold : s.viewCache.lookup (db', t') = some h' := by
      rw [ViewState.updateViewCache, lookup_insert_ne hkey] at hlookup
      split at hlookup
      · cases hlookup
      · rw [← hc.viewCache]
        exact hlookup
    have hopen' : (s.connections db').isSome := (hc.connections db').symm.trans hopen
    obtain ⟨v, hv, hrecorded⟩ := h db' t' h' hold hopen'
    have hsame : (s'.updateViewCache hash db t files).view db' t' = s'.view db' t' := rfl
    refine ⟨v, ?_, hrecorded.hash, hrecorded.nonempty, hrecorded.names, ?_⟩
    · rw [hsame, hc.view db' t', hv]
      rintro ⟨rfl, ht⟩
      have ht' : t' ≠ t := fun heq => hkey (by rw [heq])
      rw [hone t' ht' ht] at hold
      cases hold
    · rw [hcolumns]
      exact hrecorded.columns

lemma ViewInv.step (h : ViewInv hash s) {enabled : Bool} {a : ViewAction} (hg : KeepsViews s a)
    (hs : s.step hash enabled a = some s') : ViewInv hash s' := by
  cases a with
  | createTableView db t files e =>
    obtain ⟨hopen, hs⟩ := ite_none_right_eq_some.mp hs
    obtain ⟨hone, hfiles, houtcome⟩ := hg
    cases hs
    have hplain : files.map sanitizeControlChars = files :=
      (map_congr_left (fun f hf => (hfiles f hf).2)).trans (List.map_id files)
    rcases createTableView_cases hash t e hopen hplain with
      hsame | ⟨hfail, htried, hc⟩ | ⟨hne, s', hc, hview, hs'⟩
    · rw [hsame]
      exact h
    · refine h.changesOnly hc (fun t' ht => ?_)
      by_cases heq : t' = t
      · rw [heq]
        rcases houtcome with hnone | ⟨h1, h2, h3⟩ | ⟨h1, h2⟩
        · exact hnone
        · simp [h1, h2, h3] at hfail
        · simp [h1, h2] at htried
      · exact hone t' heq ht
    · rw [hs']
      exact h.updateViewCache hc hone hne (fun f hf => (hfiles f hf).1) hview
  | createPrunedView db t files sql =>
    obtain ⟨-, rfl⟩ := ite_some_none_eq_some.mp hs
    exact h.changesOnly (changesOnly_pruned enabled sql) hg
  | openConnection db =>
    obtain ⟨-, hs⟩ := ite_none_left_eq_some.mp hs
    cases hs
    intro db' t' h' hlookup hopen
    by_cases hdb : db' = db
    · rw [hdb, hg t'] at hlookup
      cases hlookup
    · have hsame : ∀ {β : Type} (f : Option (String → Option BoundView) → β),
          f (Function.update s.connections db (some fun _ => none) db') = f (s.connections db') := by
        intro β f
        rw [update_of_ne hdb]
      obtain ⟨v, hv, hrecorded⟩ := h db' t' h' hlookup ((hsame isSome).symm.trans hopen)
      exact ⟨v, (hsame (fun c => c.bind (fun views => views (foldName t')))).trans hv, hrecorded.hash,
        hrecorded.nonempty, hrecorded.names, hrecorded.columns⟩
  | close db =>
    obtain ⟨-, rfl⟩ := ite_some_none_eq_some.mp hs
    intro db' t' h' hlookup hopen
    by_cases hdb : db' = db
    · simp [hdb] at hopen
    · simp only [update_of_ne hdb] at hopen
      obtain ⟨v, hv, hrecorded⟩ := h db' t' h' hlookup hopen
      refine ⟨v, ?_, hrecorded.hash, hrecorded.nonempty, hrecorded.names, hrecorded.columns⟩
      rw [← hv]
      simp [view, update_of_ne hdb]
  | replaceFile path columns =>
    cases hs
    intro db' t' h' hlookup hopen
    obtain ⟨v, hv, hrecorded⟩ := h db' t' h' hlookup hopen
    refine ⟨v, hv, hrecorded.hash, hrecorded.nonempty, hrecorded.names, fun c => ?_⟩
    rw [hrecorded.columns c]
    refine exists_congr (fun f => and_congr_right (fun hf => ?_))
    dsimp only
    by_cases hpath : f = path
    · subst hpath
      rw [update_self]
      rcases hg with hsame | hunread
      · exact (hsame c).symm
      · exact absurd hf (hunread db' t' h' v hlookup hv)
    · rw [update_of_ne hpath]

lemma joinFiles_injective {l l' : List String} (hl : ∀ f ∈ l, '|' ∉ f.toList) (hne : l ≠ [])
    (hl' : ∀ f ∈ l', '|' ∉ f.toList) (hne' : l' ≠ []) (h : joinFiles l = joinFiles l') : l = l' := by
  have hsplit : ∀ m : List String, (∀ f ∈ m, '|' ∉ f.toList) → m ≠ [] →
      (joinFiles m).toList.splitOn '|' = m.map String.toList := by
    intro m hm hmne
    rw [joinFiles, String.toList_ofList]
    refine splitOn_intercalate '|' ?_ (by simpa using hmne)
    intro f hf
    obtain ⟨f', hf', rfl⟩ := List.mem_map.mp hf
    exact hm f' hf'
  have hmap : l.map String.toList = l'.map String.toList := by
    rw [← hsplit l hl hne, h, hsplit l' hl' hne']
  exact map_injective_iff.mpr (fun _ _ h => String.toList_inj.mp h) hmap

/-- In every run in which each step leaves the recorded views as they are, the cache tells
the truth: the view selects all columns of exactly the files asked for. -/
theorem view_cache_coherent {enabled : Bool} {columns : String → List String} {as : List ViewAction}
    (hg : Guarded (fun (s : ViewState) a => s.step hash enabled a) KeepsViews (.new columns) as)
    (hrun : exec (fun (s : ViewState) a => s.step hash enabled a) (.new columns) as = some s)
    (hopen : (s.connections db).isSome = true) (hne : files ≠ [])
    (hnames : ∀ f ∈ files, '|' ∉ f.toList)
    (hhash : ∀ x, hash x = ViewState.filesHash hash files → x = joinFiles (files.insertionSort (· ≤ ·)))
    (hcurrent : s.isViewCurrent hash db t files = true) :
    ∃ v, s.view db t = some v ∧ v.files.Perm files ∧
      ∀ c, c ∈ v.columns ↔ ∃ f ∈ files, c ∈ s.columns f := by
  have hnew : ViewInv hash (.new columns) := fun db t h hlookup => nomatch hlookup
  have hinv := exec_invariant (ViewInv hash) (fun s a s' h hg hs => h.step hg hs) hnew hg hrun
  obtain ⟨v, hv, hrecorded⟩ := hinv db t _ (of_decide_eq_true hcurrent) hopen
  have hsorted : v.files.insertionSort (· ≤ ·) = files.insertionSort (· ≤ ·) := by
    have hnonempty : ∀ l : List String, l ≠ [] → l.insertionSort (· ≤ ·) ≠ [] := by
      intro l hl hnil
      have hperm := perm_insertionSort (· ≤ ·) l
      rw [hnil] at hperm
      exact hl hperm.nil_eq.symm
    refine joinFiles_injective ?_ (hnonempty _ hrecorded.nonempty) ?_ (hnonempty _ hne)
      (hhash _ hrecorded.hash.symm)
    · exact fun f hf => hrecorded.names f ((mem_insertionSort _).mp hf)
    · exact fun f hf => hnames f ((mem_insertionSort _).mp hf)
  have hperm : v.files.Perm files :=
    (perm_insertionSort (· ≤ ·) v.files).symm.trans
      (hsorted ▸ perm_insertionSort (· ≤ ·) files)
  refine ⟨v, hv, hperm, fun c => (hrecorded.columns c).trans ?_⟩
  exact exists_congr (fun f => and_congr_left (fun _ => hperm.mem_iff))

def keepsViewsCheck (s : ViewState) : ViewAction → Bool
  | .createTableView db t files _ =>
    s.viewCache.keys.all (fun k => k.1 != db || foldName k.2 != foldName t) &&
      files.all (fun f => !f.toList.contains '|' && sanitizeControlChars f == f)
  | .createPrunedView db t _ _ _ => s.viewCache.keys.all (fun k => k.1 != db || foldName k.2 != foldName t)
  | .openConnection db => s.viewCache.keys.all (fun k => k.1 != db)
  | .close _ => true
  | .replaceFile _ _ => false

lemma keepsViews_of_check (s : ViewState) (a : ViewAction) (h : keepsViewsCheck s a) :
    KeepsViews s a := by
  have hnone : ∀ db t', s.viewCache.keys.all (fun k => k.1 != db || foldName k.2 != foldName t') = true →
      ∀ t, foldName t = foldName t' → s.viewCache.lookup (db, t) = none := by
    intro db t' hall t ht
    rw [lookup_eq_none]
    intro hmem
    simpa [ht] using List.all_eq_true.mp hall _ (AList.mem_keys.mp hmem)
  cases a with
  | createTableView db t =>
    obtain ⟨hall, hfiles⟩ := Bool.and_eq_true_iff.mp h
    refine ⟨fun t' _ ht => hnone db t hall t' ht, ?_, .inl (hnone db t hall t rfl)⟩
    intro f hf
    simpa using List.all_eq_true.mp hfiles f hf
  | createPrunedView db t => exact hnone db t h
  | openConnection =>
    intro t
    rw [lookup_eq_none]
    intro hmem
    simpa using List.all_eq_true.mp h _ (AList.mem_keys.mp hmem)
  | close => trivial
  | replaceFile => cases h

end

def orderColumns (path : String) : List String :=
  if path = "u.parquet" then ["id", "name"] else ["id", "amount"]

def preparations : List ViewAction :=
  [.openConnection 1, .createTableView 1 "orders" ["a.parquet", "b.parquet"] ⟨true, true, true⟩,
    .createPrunedView 1 "users" ["u.parquet"] "SELECT id FROM users" ⟨true, true, true⟩]

theorem view_cache_coherent_orders : ∃ s,
    exec (fun (s : ViewState) a => s.step id true a) (.new orderColumns) preparations = some s ∧
    s.isViewCurrent id 1 "orders" ["b.parquet", "a.parquet"] = true ∧
    ∃ v, s.view 1 "orders" = some v ∧ v.files.Perm ["b.parquet", "a.parquet"] ∧
      ∀ c, c ∈ v.columns ↔ ∃ f ∈ ["b.parquet", "a.parquet"], c ∈ s.columns f := by
  obtain ⟨s, hs⟩ := isSome_iff_exists.mp (show (exec (fun (s : ViewState) a => s.step id true a)
    (.new orderColumns) preparations).isSome = true by decide +kernel)
  have hcurrent : ((exec (fun (s : ViewState) a => s.step id true a) (.new orderColumns) preparations).all
      (fun s => s.isViewCurrent id 1 "orders" ["b.parquet", "a.parquet"] &&
        (s.connections 1).isSome)) = true := by decide +kernel
  rw [hs, all_some, Bool.and_eq_true] at hcurrent
  have hcheck : Guarded (fun (s : ViewState) a => s.step id true a) (fun s a => keepsViewsCheck s a = true)
      (.new orderColumns) preparations := by decide +kernel
  refine ⟨s, hs, hcurrent.1, view_cache_coherent (hcheck.mono keepsViews_of_check) hs hcurrent.2
    (by decide) (by decide) ?_ hcurrent.1⟩
  exact fun x hx => hx

def ordersView (files : List String) (as : List ViewAction) : Option (Bool × Option BoundView) :=
  (exec (fun (s : ViewState) a => s.step id true a) (.new orderColumns) as).map
    (fun s => (s.isViewCurrent id 1 "orders" files, s.view 1 "orders"))

/-- The view of the orders counts as current although it has lost columns to a pruned query, has
been replaced through another spelling of the name, has been dropped by a preparation that failed,
or was on a connection that has been closed. -/
theorem view_cache_stale : ordersView ["a.parquet"] [.openConnection 1,
        .createTableView 1 "orders" ["a.parquet"] ⟨true, true, true⟩,
        .createPrunedView 1 "orders" ["a.parquet"] "SELECT id FROM orders" ⟨true, true, true⟩] =
      some (true, some ⟨["id"], ["a.parquet"]⟩) ∧ ordersView ["a.parquet"] [.openConnection 1,
        .createTableView 1 "orders" ["a.parquet"] ⟨true, true, true⟩,
        .createTableView 1 "Orders" ["b.parquet"] ⟨true, true, true⟩] =
      some (true, some ⟨["id", "amount"], ["b.parquet"]⟩) ∧
    ordersView ["a.parquet"] [.openConnection 1,
        .createTableView 1 "orders" ["a.parquet"] ⟨true, true, true⟩,
        .createTableView 1 "orders" ["a.parquet", "b.parquet"] ⟨true, false, false⟩] =
      some (true, none) ∧ ordersView ["a.parquet"] [.openConnection 1,
        .createTableView 1 "orders" ["a.parquet"] ⟨true, true, true⟩,
        .close 1, .openConnection 1] = some (true, none) := by
  decide +kernel

end MinIODB.Query
