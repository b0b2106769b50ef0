import MinIODB.Query.CacheKey
import MinIODB.Library.Transition

/-!
# The query cache

Queries look for their answer in Redis before they are executed, and store it afterwards:
the entry first, and then its key in the index of each table. A hit starts a rewrite of the
entry with its new access count. A write ends with an invalidation, which lists the keys in
the index of each of its tables, deletes the index, and at last deletes the listed keys.

Every Redis command is one step, and steps of different calls interleave. Entries and indexes
can also disappear on their own, through eviction or because they expire.
-/
namespace MinIODB.Query
open Transition List Option

structure CacheEntry where
  query : String
  result : String
  tables : List String
  accessCount : ℕ
  started : ℕ
  deriving DecidableEq

inductive CachePhase where
  /-- The next command is GET; it is repeated after a miss if the key is in the local LRU. -/
  | looking (inLRU : Bool)
  | hit (e : CacheEntry)
  | missed
  | executing (started : ℕ)
  /-- The entry is stored, and its key is to be added to the indexes of these tables. -/
  | indexing (todo : List String)
  | uncached
  deriving DecidableEq

structure CachedQuery where
  query : String
  tables : List String
  phase : CachePhase

structure CacheWrite where
  tables : List String
  listed : List String
  keysToDelete : List String
  unindexing : Option String
  returned : Bool

structure CacheState where
  entries : String → Option CacheEntry
  index : String → List String
  queries : List CachedQuery
  rewrites : List (String × CacheEntry)
  writes : List CacheWrite

inductive CacheAction where
  | query (query : String) (tables : List String) (inLRU : Bool)
  | get (i : ℕ) (ok : Bool)
  | execute (i : ℕ)
  | fail (i : ℕ)
  | set (i : ℕ) (result : String) (ok : Bool)
  | addToIndex (i : ℕ) (ok : Bool)
  | rewrite (j : ℕ) (ok : Bool)
  | write (tables : List String)
  | members (n : ℕ) (ok : Bool)
  | deleteIndex (n : ℕ) (ok : Bool)
  | deleteKeys (n : ℕ) (ok : Bool)
  | evict (keys : List String)
  | expireIndex (table : String)

def CachePhase.todo : CachePhase → List String
  | .indexing todo => todo
  | _ => []

def CacheState.new : CacheState := ⟨fun _ => none, fun _ => [], [], [], []⟩

namespace CacheState
variable (key : String → List String → String) (s : CacheState)

def lookup (c : CachedQuery) (ok : Bool) : Option CacheEntry :=
  if ok then s.entries (key c.query c.tables) else none

def setPhase (i : ℕ) (c : CachedQuery) (phase : CachePhase) : CacheState :=
  { s with queries := s.queries.set i { c with phase := phase } }

def store (k : String) (e : CacheEntry) : CacheState :=
  { s with entries := Function.update s.entries k (some e) }

def setIndex (t : String) (keys : List String) : CacheState :=
  { s with index := Function.update s.index t keys }

def remove (keys : List String) : CacheState :=
  { s with entries := fun k => if k ∈ keys then none else s.entries k }

def setWrite (n : ℕ) (w : CacheWrite) : CacheState := { s with writes := s.writes.set n w }

def queryStep (i : ℕ) (c : CachedQuery) : CacheAction → Option CacheState
  | .get _ ok =>
    match c.phase with
    | .looking inLRU =>
      match s.lookup key c ok with
      | some e => some { s.setPhase i c (.hit e) with
          rewrites := s.rewrites ++
            [(key c.query c.tables, { e with accessCount := e.accessCount + 1 })] }
      | none => some (s.setPhase i c (if inLRU then .looking false else .missed))
    | _ => none
  | .execute _ =>
    match c.phase with
    | .missed => some (s.setPhase i c (.executing s.writes.length))
    | _ => none
  | .fail _ =>
    match c.phase with
    | .executing _ => some (s.setPhase i c .uncached)
    | _ => none
  | .set _ result ok =>
    match c.phase with
    | .executing started =>
      if ok then
        some ((s.setPhase i c (.indexing c.tables)).store (key c.query c.tables)
          ⟨c.query, result, c.tables, 1, started⟩)
      else some (s.setPhase i c .uncached)
    | _ => none
  | .addToIndex _ ok =>
    match c.phase with
    | .indexing (t :: todo) =>
      let s' := s.setPhase i c (.indexing todo)
      if ok then some (s'.setIndex t (key c.query c.tables :: s.index t)) else some s'
    | _ => none
  | _ => none

def writeStep (n : ℕ) (w : CacheWrite) : CacheAction → Option CacheState
  | .members _ ok =>
    match w.tables, w.unindexing with
    | t :: tables, none =>
      if ok then
        some (s.setWrite n { w with
          tables := tables, listed := t :: w.listed, keysToDelete := w.keysToDelete ++ s.index t,
          unindexing := some t })
      else some (s.setWrite n { w with tables := tables, listed := t :: w.listed })
    | _, _ => none
  | .deleteIndex _ ok =>
    match w.unindexing with
    | some t =>
      let s' := s.setWrite n { w with unindexing := none }
      if ok then some (s'.setIndex t []) else some s'
    | none => none
  | .deleteKeys _ ok =>
    match w.tables, w.unindexing with
    | [], none =>
      if w.returned then none
      else
        let s' := s.setWrite n { w with keysToDelete := [], returned := true }
        if ok then some (s'.remove w.keysToDelete) else some s'
    | _, _ => none
  | _ => none

def step : CacheAction → Option CacheState
  | .query query tables inLRU =>
    some { s with queries := s.queries ++ [⟨query, tables, .looking inLRU⟩] }
  | .get i ok => s.queries[i]?.bind (fun c => s.queryStep key i c (.get i ok))
  | .execute i => s.queries[i]?.bind (fun c => s.queryStep key i c (.execute i))
  | .fail i => s.queries[i]?.bind (fun c => s.queryStep key i c (.fail i))
  | .set i result ok => s.queries[i]?.bind (fun c => s.queryStep key i c (.set i result ok))
  | .addToIndex i ok => s.queries[i]?.bind (fun c => s.queryStep key i c (.addToIndex i ok))
  | .rewrite j ok =>
    s.rewrites[j]?.map (fun r =>
      let s' := { s with rewrites := s.rewrites.eraseIdx j }
      if ok then s'.store r.1 r.2 else s')
  | .write tables => some { s with writes := s.writes ++ [⟨tables, [], [], none, false⟩] }
  | .members n ok => s.writes[n]?.bind (fun w => s.writeStep n w (.members n ok))
  | .deleteIndex n ok => s.writes[n]?.bind (fun w => s.writeStep n w (.deleteIndex n ok))
  | .deleteKeys n ok => s.writes[n]?.bind (fun w => s.writeStep n w (.deleteKeys n ok))
  | .evict keys => some (s.remove keys)
  | .expireIndex t => some (s.setIndex t [])

end CacheState

inductive CacheStep (key : String → List String → String) (s : CacheState) :
    CacheAction → CacheState → Prop
  | query (query : String) (tables : List String) (inLRU : Bool) :
    CacheStep key s (.query query tables inLRU)
      { s with queries := s.queries ++ [⟨query, tables, .looking inLRU⟩] }
  | move {a : CacheAction} {i : ℕ} {c : CachedQuery} (phase : CachePhase) (hc : s.queries[i]? = some c)
    (hold : c.phase.todo = []) (hnew : phase.todo = []) (hhit : ∀ e, phase ≠ .hit e) :
    CacheStep key s a (s.setPhase i c phase)
  | hit {i : ℕ} {ok : Bool} {c : CachedQuery} {e : CacheEntry} (hc : s.queries[i]? = some c)
    (hold : c.phase.todo = []) (he : s.entries (key c.query c.tables) = some e) :
    CacheStep key s (.get i ok) { s.setPhase i c (.hit e) with
      rewrites := s.rewrites ++ [(key c.query c.tables, { e with accessCount := e.accessCount + 1 })] }
  | set {i : ℕ} {c : CachedQuery} {started : ℕ} (result : String) (hc : s.queries[i]? = some c)
    (hphase : c.phase = .executing started) :
    CacheStep key s (.set i result true)
      ((s.setPhase i c (.indexing c.tables)).store (key c.query c.tables)
        ⟨c.query, result, c.tables, 1, started⟩)
  | addToIndex {i : ℕ} {c : CachedQuery} {t : String} {todo : List String} (hc : s.queries[i]? = some c)
    (hphase : c.phase = .indexing (t :: todo)) :
    CacheStep key s (.addToIndex i true)
      ((s.setPhase i c (.indexing todo)).setIndex t (key c.query c.tables :: s.index t))
  | addToIndexFailed {i : ℕ} {c : CachedQuery} {t : String} {todo : List String}
    (hc : s.queries[i]? = some c) (hphase : c.phase = .indexing (t :: todo)) :
    CacheStep key s (.addToIndex i false) (s.setPhase i c (.indexing todo))
  | rewrite {j : ℕ} {k : String} {e : CacheEntry} (hr : s.rewrites[j]? = some (k, e)) :
    CacheStep key s (.rewrite j true) ({ s with rewrites := s.rewrites.eraseIdx j }.store k e)
  | rewriteFailed {j : ℕ} :
    CacheStep key s (.rewrite j false) { s with rewrites := s.rewrites.eraseIdx j }
  | write (tables : List String) :
    CacheStep key s (.write tables) { s with writes := s.writes ++ [⟨tables, [], [], none, false⟩] }
  | members {n : ℕ} {w : CacheWrite} {t : String} {tables : List String} (hw : s.writes[n]? = some w)
    (htables : w.tables = t :: tables) :
    CacheStep key s (.members n true) (s.setWrite n { w with
      tables := tables, listed := t :: w.listed, keysToDelete := w.keysToDelete ++ s.index t,
      unindexing := some t })
  | membersFailed {n : ℕ} {w : CacheWrite} {t : String} {tables : List String} :
    CacheStep key s (.members n false) (s.setWrite n { w with tables := tables, listed := t :: w.listed })
  | deleteIndex {n : ℕ} {w : CacheWrite} {t : String} (hw : s.writes[n]? = some w)
    (hunindexing : w.unindexing = some t) :
    CacheStep key s (.deleteIndex n true) ((s.setWrite n { w with unindexing := none }).setIndex t [])
  | deleteIndexFailed {n : ℕ} {w : CacheWrite} (hw : s.writes[n]? = some w) :
    CacheStep key s (.deleteIndex n false) (s.setWrite n { w with unindexing := none })
  | deleteKeys {n : ℕ} {w : CacheWrite} (hw : s.writes[n]? = some w) (htables : w.tables = []) :
    CacheStep key s (.deleteKeys n true)
      ((s.setWrite n { w with keysToDelete := [], returned := true }).remove w.keysToDelete)
  | deleteKeysFailed {n : ℕ} {w : CacheWrite} (hw : s.writes[n]? = some w) (htables : w.tables = []) :
    CacheStep key s (.deleteKeys n false)
      (s.setWrite n { w with keysToDelete := [], returned := true })
  | evict (keys : List String) : CacheStep key s (.evict keys) (s.remove keys)
  | expireIndex (t : String) : CacheStep key s (.expireIndex t) (s.setIndex t [])

section
variable {key : String → List String → String} {s s' : CacheState} {a : CacheAction}

open CacheState

lemma entries_store_self (k : String) (e : CacheEntry) : (s.store k e).entries k = some e := by
  simp [store]

lemma entries_store_of_ne {k k' : String} (h : k' ≠ k) (e : CacheEntry) :
    (s.store k e).entries k' = s.entries k' := by
  simp [store, h]

lemma index_setIndex_self (t : String) (keys : List String) : (s.setIndex t keys).index t = keys := by
  simp [setIndex]

lemma index_setIndex_of_ne {t t' : String} (h : t' ≠ t) (keys : List String) :
    (s.setIndex t keys).index t' = s.index t' := by
  simp [setIndex, h]

lemma step_cases (h : s.step key a = some s') : CacheStep key s a s' := by
  cases a with
    simp only [step, queryStep, writeStep, bind_eq_some_iff] at h
  | query query tables inLRU =>
    cases h
    exact .query query tables inLRU
  | get i ok =>
    obtain ⟨c, hc, h⟩ := h
    split at h
    · rename_i inLRU hphase
      have hold : c.phase.todo = [] := by rw [hphase]; rfl
      split at h <;> cases h
      · rename_i e he
        have he' : s.entries (key c.query c.tables) = some e := (ite_none_right_eq_some.mp he).2
        exact .hit hc hold he'
      · refine .move _ hc hold ?_ ?_ <;> split <;> simp [CachePhase.todo]
    · cases h
  | execute i | fail i =>
    obtain ⟨c, hc, h⟩ := h
    split at h <;> cases h
    · rename_i hphase
      exact .move _ hc (by rw [hphase]; rfl) rfl (by simp)
  | set i result ok =>
    obtain ⟨c, hc, h⟩ := h
    split at h
    · rename_i hphase
      cases ok <;> cases h
      · exact .move _ hc (by rw [hphase]; rfl) rfl (by simp)
      · exact .set result hc hphase
    · cases h
  | addToIndex i ok =>
    obtain ⟨c, hc, h⟩ := h
    split at h
    · rename_i hphase
      cases ok <;> cases h
      · exact .addToIndexFailed hc hphase
      · exact .addToIndex hc hphase
    · cases h
  | rewrite j ok =>
    obtain ⟨r, hr, h⟩ := map_eq_some_iff.mp h
    cases ok <;> cases h
    · exact .rewriteFailed
    · exact .rewrite hr
  | write tables =>
    cases h
    exact .write tables
  | members n ok =>
    obtain ⟨w, hw, h⟩ := h
    split at h
    · rename_i htables hunindexing
      cases ok <;> cases h
      · exact .membersFailed
      · exact .members hw htables
    · cases h
  | deleteIndex n ok =>
    obtain ⟨w, hw, h⟩ := h
    split at h
    · rename_i hunindexing
      cases ok <;> cases h
      · exact .deleteIndexFailed hw
      · exact .deleteIndex hw hunindexing
    · cases h
  | deleteKeys n ok =>
    obtain ⟨w, hw, h⟩ := h
    split at h
    · rename_i htables hunindexing
      split at h
      · cases h
      · cases ok <;> cases h
        · exact .deleteKeysFailed hw htables
        · exact .deleteKeys hw htables
    · cases h
  | evict keys =>
    cases h
    exact .evict keys
  | expireIndex t =>
    cases h
    exact .expireIndex t

def CacheState.AboutToIndex (key : String → List String → String) (s : CacheState) (k t : String) : Prop :=
  ∃ (i : ℕ) (c : CachedQuery), s.queries[i]? = some c ∧ key c.query c.tables = k ∧ t ∈ c.phase.todo

def CacheState.AboutToDelete (s : CacheState) (k t : String) : Prop :=
  ∃ (n : ℕ) (w : CacheWrite), s.writes[n]? = some w ∧ k ∈ w.keysToDelete ∧ t ∈ w.listed

/-- An invalidation that has listed a table will delete every older answer about it, and
the keys of all answers are in the indexes unless they are about to be put there or the
answer is about to be deleted. -/
structure CacheInv (key : String → List String → String) (s : CacheState) : Prop where
  collected : ∀ (n : ℕ) w, s.writes[n]? = some w → ∀ t ∈ w.listed, ∀ k e, s.entries k = some e →
    t ∈ e.tables → e.started ≤ n → k ∈ w.keysToDelete
  indexed : ∀ k e t, s.entries k = some e → t ∈ e.tables →
    k ∈ s.index t ∨ s.AboutToIndex key k t ∨ s.AboutToDelete k t
  unindexing : ∀ (n : ℕ) w, s.writes[n]? = some w → ∀ t, w.unindexing = some t → t ∈ w.listed
  returned : ∀ (n : ℕ) w, s.writes[n]? = some w → w.returned = true →
    w.tables = [] ∧ w.keysToDelete = []

/-- No step brings back or loses an older answer:
an answer is stored only while no write since the start of its execution has listed one of
its tables; a rewrite finds the answer of the same execution; the keys of a table are listed
while no query has still to index an answer about it and no other invalidation has still to
delete one; an index is deleted with the keys that were listed and no others; indexes do not
expire before the answers in them; and the commands that index, list and delete succeed. -/
def Careful (s : CacheState) : CacheAction → Prop
  | .set i _ ok => ok = true → ∀ c started, s.queries[i]? = some c → c.phase = .executing started →
      ∀ (n : ℕ) w, s.writes[n]? = some w → started ≤ n → ∀ t ∈ c.tables, t ∉ w.listed
  | .addToIndex _ ok => ok = true
  | .rewrite j ok => ok = true → ∀ k e, s.rewrites[j]? = some (k, e) →
      ∃ e', s.entries k = some e' ∧ e'.tables = e.tables ∧ e'.started = e.started
  | .members n ok => ok = true ∧ ∀ w t tables, s.writes[n]? = some w → w.tables = t :: tables →
      (∀ c ∈ s.queries, t ∉ c.phase.todo) ∧
      ∀ n' w', n' ≠ n → s.writes[n']? = some w' → t ∈ w'.listed → w'.keysToDelete = []
  | .deleteIndex n _ => ∀ w t, s.writes[n]? = some w → w.unindexing = some t →
      ∀ k ∈ s.index t, k ∈ w.keysToDelete
  | .deleteKeys n ok => ok = false → ∀ w, s.writes[n]? = some w → w.keysToDelete = []
  | .expireIndex t => ∀ k ∈ s.index t, ∀ e, s.entries k = some e → t ∉ e.tables
  | _ => True

variable {k t : String} {i n : ℕ} {c : CachedQuery} {w : CacheWrite} {phase : CachePhase}

lemma AboutToIndex.setPhase (h : s.AboutToIndex key k t) (hc : s.queries[i]? = some c)
    (hkeep : key c.query c.tables = k → t ∈ c.phase.todo → t ∈ phase.todo) :
    (s.setPhase i c phase).AboutToIndex key k t :=
  exists_getElem?_set h hc (fun ⟨hk, ht⟩ => ⟨hk, hkeep hk ht⟩)

lemma AboutToDelete.setWrite {w' : CacheWrite} (h : s.AboutToDelete k t) (hw : s.writes[n]? = some w)
    (hkeep : k ∈ w.keysToDelete → t ∈ w.listed → k ∈ w'.keysToDelete ∧ t ∈ w'.listed) :
    (s.setWrite n w').AboutToDelete k t :=
  exists_getElem?_set h hw (fun ⟨hk, ht⟩ => hkeep hk ht)

lemma forall_setWrite {P : ℕ → CacheWrite → Prop} {w' : CacheWrite}
    (h : P n w') (hother : ∀ m v, s.writes[m]? = some v → P m v) :
    ∀ (m : ℕ) v, (s.setWrite n w').writes[m]? = some v → P m v := by
  intro m v hv
  rcases getElem?_set_cases hv with ⟨rfl, rfl⟩ | ⟨-, hv⟩
  · exact h
  · exact hother m v hv

lemma CacheInv.of_entries (h : CacheInv key s) (hentries : ∀ k e, s'.entries k = some e → s.entries k = some e)
    (hindex : s'.index = s.index) (hwrites : s'.writes = s.writes)
    (hpending : ∀ k t, s.AboutToIndex key k t → s'.AboutToIndex key k t) : CacheInv key s' where
  collected := by
    rw [hwrites]
    exact fun n w hw t ht k e he => h.collected n w hw t ht k e (hentries k e he)
  indexed := by
    intro k e t he ht
    rw [hindex]
    refine (h.indexed k e t (hentries k e he) ht).imp_right (Or.imp (hpending k t) ?_)
    rw [CacheState.AboutToDelete, CacheState.AboutToDelete, hwrites]
    exact fun hd => hd
  unindexing := by
    rw [hwrites]
    exact h.unindexing
  returned := by
    rw [hwrites]
    exact h.returned

lemma CacheInv.set {started : ℕ} {result : String} (h : CacheInv key s) (hc : s.queries[i]? = some c)
    (hphase : c.phase = .executing started)
    (hyoung : ∀ (n : ℕ) w, s.writes[n]? = some w → started ≤ n → ∀ t ∈ c.tables, t ∉ w.listed) :
    CacheInv key ((s.setPhase i c (.indexing c.tables)).store (key c.query c.tables)
      ⟨c.query, result, c.tables, 1, started⟩) where
  collected := by
    intro n w hw t ht k e he hte hn
    by_cases hk : k = key c.query c.tables
    · subst hk
      rw [entries_store_self] at he
      cases he
      exact absurd ht (hyoung n w hw hn t hte)
    · rw [entries_store_of_ne hk] at he
      exact h.collected n w hw t ht k e he hte hn
  indexed := by
    intro k e t he hte
    by_cases hk : k = key c.query c.tables
    · subst hk
      rw [entries_store_self] at he
      cases he
      refine .inr (.inl ⟨i, { c with phase := .indexing c.tables }, ?_, rfl, hte⟩)
      exact getElem?_set_of_some hc
    · rw [entries_store_of_ne hk] at he
      rcases h.indexed k e t he hte with hindex | hpending | hdelete
      · exact .inl hindex
      · refine .inr (.inl (AboutToIndex.setPhase hpending hc ?_))
        rw [hphase]
        exact fun _ ht => absurd ht (by simp [CachePhase.todo])
      · exact .inr (.inr hdelete)
  unindexing := h.unindexing
  returned := h.returned

lemma CacheInv.addToIndex {todo : List String} (h : CacheInv key s) (hc : s.queries[i]? = some c)
    (hphase : c.phase = .indexing (t :: todo)) :
    CacheInv key ((s.setPhase i c (.indexing todo)).setIndex t (key c.query c.tables :: s.index t)) where
  collected := h.collected
  indexed := by
    intro k e t' he hte
    rcases h.indexed k e t' he hte with hindex | hpending | hdelete
    · left
      by_cases htt : t' = t
      · subst htt
        rw [index_setIndex_self]
        exact .tail _ hindex
      · rw [index_setIndex_of_ne htt]
        exact hindex
    · by_cases hdone : key c.query c.tables = k ∧ t' = t
      · obtain ⟨rfl, rfl⟩ := hdone
        left
        rw [index_setIndex_self]
        exact .head _
      · refine .inr (.inl (AboutToIndex.setPhase hpending hc ?_))
        intro hk ht'
        rw [hphase] at ht'
        exact (mem_cons.mp ht').resolve_left (fun htt => hdone ⟨hk, htt⟩)
    · exact .inr (.inr hdelete)
  unindexing := h.unindexing
  returned := h.returned

lemma CacheInv.rewrite {e e' : CacheEntry} {rewrites : List (String × CacheEntry)} (h : CacheInv key s)
    (he' : s.entries k = some e') (htables : e'.tables = e.tables) (hstarted : e'.started = e.started) :
    CacheInv key ({ s with rewrites := rewrites }.store k e) := by
  have hold : ∀ k' d, ({ s with rewrites := rewrites }.store k e).entries k' = some d →
      ∃ d', s.entries k' = some d' ∧ d'.tables = d.tables ∧ d'.started = d.started := by
    intro k' d hd
    by_cases hk : k' = k
    · subst hk
      rw [entries_store_self] at hd
      cases hd
      exact ⟨e', he', htables, hstarted⟩
    · rw [entries_store_of_ne hk] at hd
      exact ⟨d, hd, rfl, rfl⟩
  refine ⟨fun n w hw t ht k' d hd htd hn => ?_, fun k' d t hd htd => ?_, h.unindexing, h.returned⟩
  · obtain ⟨d', hd', htables', hstarted'⟩ := hold k' d hd
    exact h.collected n w hw t ht k' d' hd' (htables' ▸ htd) (hstarted' ▸ hn)
  · obtain ⟨d', hd', htables', -⟩ := hold k' d hd
    exact h.indexed k' d' t hd' (htables' ▸ htd)

lemma CacheInv.write (h : CacheInv key s) (tables : List String) :
    CacheInv key { s with writes := s.writes ++ [⟨tables, [], [], none, false⟩] } := by
  refine ⟨fun n w hw t ht k e he => ?_, fun k e t he ht => ?_, fun n w hw t hu => ?_, fun n w hw hr => ?_⟩
  · rcases getElem?_concat_cases hw with hw | ⟨-, rfl⟩
    · exact h.collected n w hw t ht k e he
    · cases ht
  · refine (h.indexed k e t he ht).imp_right (Or.imp_right ?_)
    rintro ⟨n, w, hw, hk⟩
    refine ⟨n, w, ?_, hk⟩
    exact (getElem?_append_left (List.getElem?_eq_some_iff.mp hw).1).trans hw
  · rcases getElem?_concat_cases hw with hw | ⟨-, rfl⟩
    · exact h.unindexing n w hw t hu
    · cases hu
  · rcases getElem?_concat_cases hw with hw | ⟨-, rfl⟩
    · exact h.returned n w hw hr
    · cases hr

lemma CacheInv.members {tables : List String} (h : CacheInv key s) (hw : s.writes[n]? = some w)
    (htables : w.tables = t :: tables) (hindexed : ∀ c ∈ s.queries, t ∉ c.phase.todo)
    (hdeleted : ∀ n' w', n' ≠ n → s.writes[n']? = some w' → t ∈ w'.listed → w'.keysToDelete = []) :
    CacheInv key (s.setWrite n { w with
      tables := tables, listed := t :: w.listed, keysToDelete := w.keysToDelete ++ s.index t,
      unindexing := some t }) where
  collected := by
    refine forall_setWrite ?_ h.collected
    intro t' ht' k e he hte hn
    rcases mem_cons.mp ht' with rfl | ht'
    · rw [mem_append]
      rcases h.indexed k e t' he hte with hindex | ⟨i, c, hc, -, htodo⟩ | ⟨m, v, hv, hk, hlisted⟩
      · exact .inr hindex
      · exact absurd htodo (hindexed c (mem_of_getElem? hc))
      · by_cases hm : m = n
        · subst hm
          obtain rfl : w = v := Option.some.inj (hw.symm.trans hv)
          exact .inl hk
        · rw [hdeleted m v hm hv hlisted] at hk
          cases hk
    · exact mem_append_left _ (h.collected n w hw t' ht' k e he hte hn)
  indexed := by
    intro k e t' he hte
    refine (h.indexed k e t' he hte).imp_right (Or.imp_right (fun hdelete => ?_))
    exact AboutToDelete.setWrite hdelete hw (fun hk ht' =>
      ⟨mem_append_left _ hk, .tail t ht'⟩)
  unindexing := by
    refine forall_setWrite (fun t' ht' => ?_) h.unindexing
    cases ht'
    exact .head _
  returned := by
    refine forall_setWrite ?_ h.returned
    intro hr
    rw [(h.returned n w hw hr).1] at htables
    cases htables

lemma CacheInv.setWrite {w' : CacheWrite} (h : CacheInv key s) (hw : s.writes[n]? = some w)
    (hlisted : w'.listed = w.listed) (hkeys : w'.keysToDelete = w.keysToDelete)
    (hunindexing : ∀ t, w'.unindexing = some t → w.unindexing = some t)
    (hreturned : w'.returned → w'.tables = [] ∧ w'.keysToDelete = []) :
    CacheInv key (s.setWrite n w') where
  collected := by
    refine forall_setWrite ?_ h.collected
    rw [hlisted, hkeys]
    exact h.collected n w hw
  indexed := by
    intro k e t he hte
    refine (h.indexed k e t he hte).imp_right (Or.imp_right (fun hdelete => ?_))
    refine AboutToDelete.setWrite hdelete hw (fun hk ht => ?_)
    rw [hkeys, hlisted]
    exact ⟨hk, ht⟩
  unindexing := by
    refine forall_setWrite (fun t ht => ?_) h.unindexing
    rw [hlisted]
    exact h.unindexing n w hw t (hunindexing t ht)
  returned := forall_setWrite hreturned h.returned

lemma CacheInv.clearIndex (h : CacheInv key s)
    (hdelete : ∀ k ∈ s.index t, ∀ e, s.entries k = some e → t ∈ e.tables → s.AboutToDelete k t) :
    CacheInv key (s.setIndex t []) where
  collected := h.collected
  indexed := by
    intro k e t' he hte
    rcases h.indexed k e t' he hte with hindex | hrest
    · by_cases htt : t' = t
      · subst htt
        exact .inr (.inr (hdelete k hindex e he hte))
      · left
        rw [index_setIndex_of_ne htt]
        exact hindex
    · exact .inr hrest
  unindexing := h.unindexing
  returned := h.returned

lemma CacheInv.deleteKeys (h : CacheInv key s) (hw : s.writes[n]? = some w) (htables : w.tables = []) :
    CacheInv key ((s.setWrite n { w with keysToDelete := [], returned := true }).remove
      w.keysToDelete) := by
  have hkept : ∀ k e, ((s.setWrite n { w with keysToDelete := [], returned := true }).remove
      w.keysToDelete).entries k = some e → k ∉ w.keysToDelete ∧ s.entries k = some e :=
    fun k e he => ite_none_left_eq_some.mp he
  refine ⟨forall_setWrite ?_ ?_, fun k e t he hte => ?_, ?_, forall_setWrite ?_ h.returned⟩
  · intro t ht k e he hte hn
    obtain ⟨hk, he⟩ := hkept k e he
    exact absurd (h.collected n w hw t ht k e he hte hn) hk
  · exact fun m v hv t ht k e he => h.collected m v hv t ht k e (hkept k e he).2
  · obtain ⟨hk, he⟩ := hkept k e he
    refine (h.indexed k e t he hte).imp_right (Or.imp_right (fun hdelete => ?_))
    exact AboutToDelete.setWrite hdelete hw (fun hmem => absurd hmem hk)
  · exact forall_setWrite (h.unindexing n w hw) h.unindexing
  · exact fun _ => ⟨htables, rfl⟩

lemma CacheInv.step (h : CacheInv key s) (hg : Careful s a) (hs : s.step key a = some s') :
    CacheInv key s' := by
  have hmoved : ∀ {i c phase} (_ : s.queries[i]? = some c) (_ : c.phase.todo = []) k t,
      s.AboutToIndex key k t → (s.setPhase i c phase).AboutToIndex key k t := by
    intro i c phase hc hold k t hpending
    refine AboutToIndex.setPhase hpending hc (fun _ ht => ?_)
    rw [hold] at ht
    cases ht
  cases step_cases hs with
  | query =>
    refine h.of_entries (fun _ _ => id) rfl rfl (fun k t hpending => ?_)
    obtain ⟨i, c, hc, hk⟩ := hpending
    exact ⟨i, c, (getElem?_append_left (List.getElem?_eq_some_iff.mp hc).1).trans hc, hk⟩
  | move phase hc hold | hit hc hold =>
    exact h.of_entries (fun _ _ => id) rfl rfl (hmoved hc hold)
  | set result hc hphase => exact h.set hc hphase (hg rfl _ _ hc hphase)
  | addToIndex hc hphase => exact h.addToIndex hc hphase
  | addToIndexFailed => cases hg
  | rewrite hr =>
    obtain ⟨e', he', htables, hstarted⟩ := hg rfl _ _ hr
    exact h.rewrite he' htables hstarted
  | rewriteFailed => exact h.of_entries (fun _ _ => id) rfl rfl (fun _ _ => id)
  | write tables => exact h.write tables
  | members hw htables =>
    obtain ⟨hindexed, hdeleted⟩ := hg.2 _ _ _ hw htables
    exact h.members hw htables hindexed hdeleted
  | membersFailed => cases hg.1
  | @deleteIndex n w t hw hunindexing =>
    have hset : CacheInv key (s.setWrite n { w with unindexing := none }) :=
      h.setWrite hw rfl rfl (by simp) (h.returned n w hw)
    refine hset.clearIndex (fun k hk e he hte => ?_)
    exact ⟨_, _, getElem?_set_of_some hw, hg _ _ hw hunindexing k hk,
      h.unindexing _ _ hw _ hunindexing⟩
  | @deleteIndexFailed n w hw => exact h.setWrite hw rfl rfl (by simp) (h.returned n w hw)
  | deleteKeys hw htables => exact h.deleteKeys hw htables
  | deleteKeysFailed hw htables =>
    exact h.setWrite hw rfl (hg rfl _ hw).symm (fun _ => id) (fun _ => ⟨htables, rfl⟩)
  | evict =>
    exact h.of_entries (fun k e he => (ite_none_left_eq_some.mp he).2) rfl rfl
      (fun _ _ => id)
  | expireIndex => exact h.clearIndex (fun k hk e he hte => absurd hte (hg k hk e he))

lemma entries_of_hit {ok : Bool} {e : CacheEntry} (hs : s.step key (.get i ok) = some s')
    (hc : s'.queries[i]? = some c) (hhit : c.phase = .hit e) :
    s.entries (key c.query c.tables) = some e := by
  obtain ⟨c', hc', hs⟩ := bind_eq_some_iff.mp hs
  have hself : ∀ phase, (s.setPhase i c' phase).queries[i]? = some { c' with phase := phase } :=
    fun _ => getElem?_set_of_some hc'
  simp only [queryStep] at hs
  split at hs
  · split at hs <;> cases hs
    · rename_i e' he'
      obtain rfl := Option.some.inj ((hself _).symm.trans hc)
      cases hhit
      exact (ite_none_right_eq_some.mp he').2
    · obtain rfl := Option.some.inj ((hself _).symm.trans hc)
      dsimp only at hhit
      split at hhit <;> cases hhit
  · cases hs

/-- In every run of careful steps: after the invalidation of a write has returned, no GET returns
an answer about its tables from an execution before the write; and the key of every answer is in
the indexes of its tables, or about to be put there, or about to be deleted. -/
theorem no_stale_answer {as : List CacheAction}
    (hg : Guarded (fun (s : CacheState) a => s.step key a) Careful .new as)
    (hrun : exec (fun (s : CacheState) a => s.step key a) .new as = some s) :
    (∀ (i : ℕ) ok s' c e, s.step key (.get i ok) = some s' → s'.queries[i]? = some c →
      c.phase = .hit e → ∀ (n : ℕ) w, s.writes[n]? = some w → w.returned = true → ∀ t ∈ w.listed,
        t ∈ e.tables → n < e.started) ∧
    ∀ k e t, s.entries k = some e → t ∈ e.tables → ¬ s.AboutToIndex key k t → ¬ s.AboutToDelete k t →
      k ∈ s.index t := by
  have hnew : CacheInv key .new :=
    ⟨by simp [new], by simp [new], by simp [new], by simp [new]⟩
  have h := exec_invariant (CacheInv key) (fun s a s' h hg hs => h.step hg hs) hnew hg hrun
  constructor
  · intro i ok s' c e hs hc hhit n w hw hreturned t ht hte
    have he := entries_of_hit hs hc hhit
    by_contra hn
    have hmem := h.collected n w hw t ht _ e he hte (Nat.le_of_not_lt hn)
    rw [(h.returned n w hw hreturned).2] at hmem
    cases hmem
  · intro k e t he hte hindex hdelete
    exact (h.indexed k e t he hte).resolve_right (fun hor => hor.elim hindex hdelete)

end

section
variable {key : String → List String → String} {s s' : CacheState} {a : CacheAction}

structure Keyed (key : String → List String → String) (k : String) (e : CacheEntry) : Prop where
  key : k = key e.query e.tables
  text : NormalizesWell e.query
  tables : ∀ t ∈ e.tables, '|' ∉ t.toList

structure KeyedInv (key : String → List String → String) (s : CacheState) : Prop where
  entries : ∀ k e, s.entries k = some e → Keyed key k e
  rewrites : ∀ r ∈ s.rewrites, Keyed key r.1 r.2
  queries : ∀ c ∈ s.queries, NormalizesWell c.query ∧ ∀ t ∈ c.tables, '|' ∉ t.toList

def AsksWell (_ : CacheState) : CacheAction → Prop
  | .query query tables _ => NormalizesWell query ∧ ∀ t ∈ tables, '|' ∉ t.toList
  | _ => True

lemma KeyedInv.store (h : KeyedInv key s) {k : String} {e : CacheEntry} (he : Keyed key k e) :
    KeyedInv key (s.store k e) := by
  refine ⟨fun k' e' he' => ?_, h.rewrites, h.queries⟩
  by_cases hk : k' = k
  · subst hk
    rw [entries_store_self] at he'
    cases he'
    exact he
  · rw [entries_store_of_ne hk] at he'
    exact h.entries k' e' he'

lemma KeyedInv.setPhase (h : KeyedInv key s) {i : ℕ} {c : CachedQuery} (hc : s.queries[i]? = some c)
    (phase : CachePhase) : KeyedInv key (s.setPhase i c phase) := by
  refine ⟨h.entries, h.rewrites, fun d hd => ?_⟩
  rcases mem_or_eq_of_mem_set hd with hd | rfl
  · exact h.queries d hd
  · exact h.queries c (mem_of_getElem? hc)

lemma KeyedInv.remove (h : KeyedInv key s) (keys : List String) : KeyedInv key (s.remove keys) :=
  ⟨fun k e he => h.entries k e (ite_none_left_eq_some.mp he).2, h.rewrites, h.queries⟩

lemma KeyedInv.step (h : KeyedInv key s) (hg : AsksWell s a) (hs : s.step key a = some s') :
    KeyedInv key s' := by
  cases step_cases hs with
  | query =>
    refine ⟨h.entries, h.rewrites, fun c hc => ?_⟩
    rcases mem_append.mp hc with hc | hc
    · exact h.queries c hc
    · rw [mem_singleton.mp hc]
      exact hg
  | move phase hc => exact h.setPhase hc phase
  | @hit i ok c e hc hold he =>
    refine ⟨h.entries, fun r hr => ?_, (h.setPhase hc _).queries⟩
    rcases mem_append.mp hr with hr | hr
    · exact h.rewrites r hr
    · have hkeyed := h.entries _ e he
      rw [mem_singleton.mp hr]
      exact ⟨hkeyed.key, hkeyed.text, hkeyed.tables⟩
  | @set i c started result hc hphase =>
    obtain ⟨htext, htables⟩ := h.queries c (mem_of_getElem? hc)
    exact (h.setPhase hc _).store ⟨rfl, htext, htables⟩
  | addToIndex hc => exact ⟨h.entries, h.rewrites, (h.setPhase hc _).queries⟩
  | addToIndexFailed hc => exact h.setPhase hc _
  | @rewrite j k e hr =>
    have hrest : KeyedInv key { s with rewrites := s.rewrites.eraseIdx j } :=
      ⟨h.entries, fun r hmem => h.rewrites r (mem_of_mem_eraseIdx hmem), h.queries⟩
    exact hrest.store (h.rewrites _ (mem_of_getElem? hr))
  | rewriteFailed =>
    exact ⟨h.entries, fun r hmem => h.rewrites r (mem_of_mem_eraseIdx hmem), h.queries⟩
  | @deleteKeys n w =>
    have hset : KeyedInv key (s.setWrite n { w with keysToDelete := [], returned := true }) :=
      ⟨h.entries, h.rewrites, h.queries⟩
    exact hset.remove w.keysToDelete
  | evict keys => exact h.remove keys
  | _ => exact ⟨h.entries, h.rewrites, h.queries⟩

end

def ordersCacheKey : String → List String → String := generateCacheKey id "query_cache:"

def oneKey : String → List String → String := generateCacheKey (fun _ => "0f") "query_cache:"

def nextGet (key : String → List String → String) (i : ℕ) (as : List CacheAction) : Option CachePhase :=
  (exec (fun (s : CacheState) a => s.step key a) .new as).bind (fun s =>
    (s.step key (.get i true)).bind (fun s' => s'.queries[i]?.map (fun c => c.phase)))

lemma exists_of_nextGet {key : String → List String → String} {i : ℕ} {as : List CacheAction}
    {phase : CachePhase} (h : nextGet key i as = some phase) :
    ∃ s s' c, exec (fun (s : CacheState) a => s.step key a) .new as = some s ∧
      s.step key (.get i true) = some s' ∧ s'.queries[i]? = some c ∧ c.phase = phase := by
  obtain ⟨s, hs, h⟩ := bind_eq_some_iff.mp h
  obtain ⟨s', hs', h⟩ := bind_eq_some_iff.mp h
  obtain ⟨c, hc, h⟩ := map_eq_some_iff.mp h
  exact ⟨s, s', c, hs, hs', hc, h⟩

def asksWellCheck : CacheAction → Bool
  | .query query tables _ => decide (NormalizesWell query) && tables.all (fun t => !t.toList.contains '|')
  | _ => true

lemma asksWell_of_check (s : CacheState) (a : CacheAction) (h : asksWellCheck a) :
    AsksWell s a := by
  cases a with
  | query =>
    obtain ⟨htext, htables⟩ := Bool.and_eq_true_iff.mp h
    refine ⟨of_decide_eq_true htext, fun t ht => ?_⟩
    simpa using List.all_eq_true.mp htables t ht
  | _ => trivial

def askedAgain : List CacheAction :=
  [.query "SELECT 'A b' FROM t" ["t"] false, .get 0 true, .execute 0, .set 0 "[1]" true,
    .addToIndex 0 true, .query "select  'A b'\n from t" ["t"] true]

def carefulCheck (s : CacheState) : CacheAction → Bool
  | .set i _ _ => s.queries[i]?.all (fun c =>
      match c.phase with
      | .executing started => decide (s.writes.length ≤ started)
      | _ => true)
  | .addToIndex _ ok => ok
  | .rewrite _ ok => !ok
  | .members n ok => ok && decide (n = 0) && decide (s.writes.length ≤ 1) &&
      s.queries.all (fun c => c.phase.todo = [])
  | .deleteIndex n _ => s.writes[n]?.all (fun w => w.unindexing.all (fun t =>
      (s.index t).all (fun k => w.keysToDelete.contains k)))
  | .deleteKeys _ ok => ok
  | .expireIndex _ => false
  | _ => true

lemma careful_of_check (s : CacheState) (a : CacheAction) (h : carefulCheck s a) :
    Careful s a := by
  cases a with
  | set =>
    intro _ c started hc hphase n w hw hn
    have hlength : s.writes.length ≤ started := by simpa [carefulCheck, hc, hphase] using h
    have hlt := (List.getElem?_eq_some_iff.mp hw).1
    omega
  | addToIndex => exact h
  | rewrite =>
    intro hok
    simp [carefulCheck, hok] at h
  | members =>
    simp only [carefulCheck, Bool.and_eq_true, decide_eq_true_eq] at h
    obtain ⟨⟨⟨hok, hn⟩, hlength⟩, htodo⟩ := h
    refine ⟨hok, fun w t tables _ _ => ⟨fun c hc => ?_, fun n' w' hne hw' => ?_⟩⟩
    · have hnone : c.phase.todo = [] := by simpa using List.all_eq_true.mp htodo c hc
      simp [hnone]
    · have hlt := (List.getElem?_eq_some_iff.mp hw').1
      omega
  | deleteIndex =>
    intro w t hw ht k hk
    have hall : ∀ k ∈ s.index t, k ∈ w.keysToDelete := by simpa [carefulCheck, hw, ht] using h
    exact hall k hk
  | deleteKeys =>
    intro hok
    rw [carefulCheck, hok] at h
    cases h
  | expireIndex => cases h
  | _ => trivial

def ask (inLRU : Bool) : CacheAction := .query "SELECT id FROM orders" ["orders"] inLRU

def recomputed : List CacheAction :=
  [ask false, .get 0 true, .execute 0, .set 0 "[]" true, .addToIndex 0 true, .write ["orders"],
    .members 0 true, .deleteIndex 0 true, .deleteKeys 0 true, ask false, .get 1 true, .execute 1,
    .set 1 "[1]" true, .addToIndex 1 true, ask true]

theorem no_stale_answer_orders : ∃ s s' c e,
    exec (fun (s : CacheState) a => s.step oneKey a) .new recomputed = some s ∧
    s.step oneKey (.get 2 true) = some s' ∧ s'.queries[2]? = some c ∧ c.phase = .hit e ∧
    (∀ w, s.writes[0]? = some w → w.returned = true → ∀ t ∈ w.listed, t ∈ e.tables → 0 < e.started) ∧
    ∀ k e t, s.entries k = some e → t ∈ e.tables → ¬ s.AboutToIndex oneKey k t →
      ¬ s.AboutToDelete k t → k ∈ s.index t := by
  have hhit : nextGet oneKey 2 recomputed =
      some (.hit ⟨"SELECT id FROM orders", "[1]", ["orders"], 1, 1⟩) := by decide +kernel
  obtain ⟨s, s', c, hrun, hs, hc, hphase⟩ := exists_of_nextGet hhit
  have hcheck : Guarded (fun (s : CacheState) a => s.step oneKey a)
      (fun s a => carefulCheck s a = true) .new recomputed := by decide +kernel
  have hsafe := no_stale_answer (hcheck.mono careful_of_check) hrun
  exact ⟨s, s', c, _, hrun, hs, hc, hphase, hsafe.1 2 true s' c _ hs hc hphase 0, hsafe.2⟩

def staleAnswer (i : ℕ) (as : List CacheAction) : Option (String × ℕ × ℕ × List String) :=
  (exec (fun (s : CacheState) a => s.step oneKey a) .new as).bind (fun s =>
    match nextGet oneKey i as with
    | some (.hit e) =>
      some (e.result, e.started, (s.writes.filter (fun w => w.returned)).length, s.index "orders")
    | _ => none)

def lateStore : List CacheAction :=
  [ask false, .get 0 true, .execute 0, .write ["orders"], .members 0 true, .deleteIndex 0 true,
    .deleteKeys 0 true, .set 0 "[]" true, .addToIndex 0 true, ask true]

def lateRewrite : List CacheAction :=
  [ask false, .get 0 true, .execute 0, .set 0 "[]" true, .addToIndex 0 true, ask true, .get 1 true,
    .write ["orders"], .members 0 true, .deleteIndex 0 true, .deleteKeys 0 true, .rewrite 0 true, ask true]

def lateIndex : List CacheAction :=
  [ask false, .get 0 true, .execute 0, .set 0 "[]" true, .write ["orders"], .members 0 true,
    .deleteIndex 0 true, .deleteKeys 0 true, .addToIndex 0 true, ask true]

/-- An answer from before the write is returned after its invalidation. In the second case
the index stays empty. -/
theorem stale_answer_after_write : staleAnswer 1 lateStore = some ("[]", 0, 1, ["query_cache:0f"]) ∧
    staleAnswer 2 lateRewrite = some ("[]", 0, 1, []) ∧
    staleAnswer 1 lateIndex = some ("[]", 0, 1, ["query_cache:0f"]) := by
  decide +kernel

end MinIODB.Query
