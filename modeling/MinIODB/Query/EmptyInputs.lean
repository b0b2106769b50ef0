import MinIODB.Query.Completeness

/-!
# Answers over empty tables

A table without rows is an empty relation: an aggregate over it has one row, and an outer
join with it keeps the rows of the other table. The querier, however, ends the whole query
with an empty list as soon as one of its tables has no file, or none left after pruning.
If every table keeps a file, and pruning takes away neither rows nor columns that matter,
the answer is that of the same query over the rows of the tables.
-/
namespace MinIODB.Query
open List

variable {ρ : Type*} {eng : Engine ρ} {redisPool : Bool} {p : Call ρ} {q : Querier ρ}

def Call.FindsOnce (eng : Engine ρ) (redisPool : Bool) (p : Call ρ) : Prop :=
  redisPool = true → ∀ t ∈ p.tables eng, ∀ keys, scanKeys (p.env.tables t).first.scanPages = some keys →
    ∀ name, p.Selects eng redisPool t name → timesListed p.servers.index keys name = 1

/-- The query is accepted, every table keeps a file, and all calls succeed. -/
structure Call.Succeeds (eng : Engine ρ) (redisPool : Bool) (p : Call ρ) : Prop where
  accepted : eng.validateSelectQuery p.sql = none
  extracted : eng.extractTableNames p.sql ≠ []
  valid : p.tables eng ≠ []
  connection : ∃ conn, p.env.connection = .ok conn
  views : ∀ t ∈ p.tables eng, (p.env.tables t).created = none ∧ (p.env.tables t).verified = none
  undisturbed : p.Undisturbed eng redisPool
  files : ∀ t ∈ p.tables eng, p.FetchesAll eng redisPool t
  once : p.FindsOnce eng redisPool

def Call.HoldsRows (p : Call ρ) (redisPool : Bool) (t : String) (rows : Multiset ρ) : Prop :=
  ∃ objects : List String, objects.Nodup ∧
    (∀ name, name ∈ objects ↔ p.servers.Stored redisPool t name) ∧
    rows = ↑((p.env.tables t).first.bufferKeys.flatMap p.env.contents.buffer ++
      objects.flatMap p.env.contents.object)

structure Call.PruningHarmless (eng : Engine ρ) (redisPool : Bool) (p : Call ρ)
    (relevant : String → ρ → Bool) : Prop where
  looks : ∀ v v' : String → Relation ρ,
    (∀ t ∈ eng.named p.sql, (v t).columns = (v' t).columns ∧
      (v t).rows.filter (fun r => relevant t r = true) = (v' t).rows.filter (fun r => relevant t r = true)) →
    eng.query p.sql (fun t => some (v t)) = eng.query p.sql (fun t => some (v' t))
  files : ∀ t ∈ eng.named p.sql, ∀ name, p.servers.Stored redisPool t name →
    selected eng.formats p.sql ((p.env.tables t).first.metadata name) = false →
    ∀ row ∈ p.env.contents.object name, relevant t row = false
  columns : ∀ rows : String → Multiset ρ,
    eng.query p.sql (fun t => some ⟨eng.extractRequiredColumns p.sql, rows t⟩) =
      eng.query p.sql (fun t => some ⟨none, rows t⟩)

variable {names objects : List String} {t : String}

lemma prepare_eq_ok (c : Contents ρ) (q : Querier ρ) (conn : ℕ) (tableName : String) {sql : String}
    {e : TableEnv} (hnames : storageObjects e.first redisPool = some names)
    (hfiles : allFiles c e.first eng.formats sql (names.map e.first.metadata) ≠ [])
    (hcreated : e.created = none) (hverified : e.verified = none) :
    (prepareTableDataWithPruning eng redisPool c q conn tableName sql e).1 = .ok () := by
  have hmetadata : getStorageFilesMetadata e.first redisPool = some (names.map e.first.metadata) := by
    rw [getStorageFilesMetadata, hnames]
    rfl
  unfold prepareTableDataWithPruning
  rw [hmetadata]
  simp only [if_neg hfiles]
  unfold createTableViewWithDBWithColumnPruning Querier.makeView
  rw [hcreated, hverified]

lemma prepareTables_eq_none (h : p.Succeeds eng redisPool) (q : Querier ρ) (conn : ℕ)
    (ts : List String) (hts : ∀ t ∈ ts, t ∈ p.tables eng) :
    (prepareTables eng redisPool p.env conn p.sql ts q).1 = none := by
  induction ts generalizing q with
  | nil => rfl
  | cons t ts ih =>
    have ht := hts t mem_cons_self
    obtain ⟨names, hobjects, hnames⟩ := h.undisturbed.names ht
    have hok := prepare_eq_ok p.env.contents q conn t hobjects
      ((h.files t ht).files_ne_nil (h.undisturbed.reads t ht) hnames) (h.views t ht).1 (h.views t ht).2
    unfold prepareTables
    cases hprepare : prepareTableDataWithPruning eng redisPool p.env.contents q conn t p.sql
        (p.env.tables t) with
    | mk result q' =>
      rw [hprepare] at hok
      cases hok
      exact ih q' (fun t' ht' => hts t' (.tail t ht'))

lemma Call.FindsOnce.nodup (honce : p.FindsOnce eng redisPool) (h : p.Undisturbed eng redisPool)
    (ht : t ∈ p.tables eng)
    (hobjects : storageObjects (p.env.tables t).first redisPool = some names) :
    (names.filter (fun n => selected eng.formats p.sql ((p.env.tables t).first.metadata n))).Nodup := by
  cases redisPool with
  | true =>
    obtain ⟨keys, hscan, hmembers⟩ := (h.reads t ht).index rfl
    rw [storageObjects, if_pos rfl, hscan] at hobjects
    cases hobjects
    exact (nodup_selected_iff ((p.honest t).answers hscan hmembers) eng.formats p.sql).mpr
      (fun name hin hsel => honce rfl t ht keys hscan name ⟨hin, hsel⟩)
  | false =>
    cases hobjects
    exact (((p.honest t).listing ((h.reads t ht).listing rfl)).1.filter _).filter _

lemma AllReady.relevant_rows {q : Querier ρ} {conn : ℕ} {relevant : String → ρ → Bool}
    (hready : AllReady eng redisPool p conn q (p.tables eng)) (h : p.Succeeds eng redisPool)
    (hpruning : p.PruningHarmless eng redisPool relevant) (ht : t ∈ eng.named p.sql)
    {rows : Multiset ρ} (hrows : p.HoldsRows redisPool t rows) :
    ∃ found : Multiset ρ, q.relation conn t = some ⟨eng.extractRequiredColumns p.sql, found⟩ ∧
      found.filter (fun r => relevant t r = true) = rows.filter (fun r => relevant t r = true) := by
  have htable := h.undisturbed.extracted t ht
  obtain ⟨hall, names, hnames, hobjects, hready⟩ := hready t htable
  have hrelation := hready.relation h.undisturbed.ownFiles (fun k hk => ⟨t, htable, hk⟩)
    (p.honest t).metadata (fun name hname hsel => hall.2 name ⟨(hnames name).mp hname, hsel⟩)
  refine ⟨_, hrelation, ?_⟩
  obtain ⟨objects, hnodup, hstored, rfl⟩ := hrows
  -- the objects that were read are the selected ones of the table, in some order
  have hperm : (names.filter (fun n => selected eng.formats p.sql
      ((p.env.tables t).first.metadata n))).Perm
      (objects.filter (fun n => selected eng.formats p.sql ((p.env.tables t).first.metadata n))) := by
    refine (perm_ext_iff_of_nodup (h.once.nodup h.undisturbed htable hobjects)
      (hnodup.filter _)).mpr (fun name => ?_)
    rw [mem_filter, mem_filter, hnames, hstored]
  -- and the others hold no relevant row
  have hleft : (objects.filter (fun n => selected eng.formats p.sql
        ((p.env.tables t).first.metadata n))).flatMap
        (fun name => (p.env.contents.object name).filter (relevant t)) =
      objects.flatMap (fun name => (p.env.contents.object name).filter (relevant t)) := by
    refine flatMap_filter_of_nil (fun name hname hsel => filter_eq_nil_iff.mpr (fun row hrow => ?_))
    rw [hpruning.files t ht name ((hstored name).mp hname) hsel row hrow]
    exact Bool.false_ne_true
  rw [flatMap_writtenKeys _ (h.undisturbed.reads t htable), Multiset.filter_coe, Multiset.filter_coe,
    Multiset.coe_eq_coe]
  simp only [filter_append, filter_flatMap, Bool.decide_eq_true]
  refine List.Perm.append_left _ ?_
  rw [← hleft]
  exact hperm.flatMap_right _

lemma executeQuery_eq_run (h : p.Succeeds eng redisPool)
    (hcache : redisPool → p.env.cacheRead → q.queryCache (eng.cacheKey p.sql) = none) :
    ∃ conn q', AllReady eng redisPool p conn q' (p.tables eng) ∧
      (executeQuery eng redisPool p.env p.sql q).1 =
        (eng.query p.sql (q'.relation conn)).mapError ("query execution failed: " ++ ·) := by
  obtain ⟨conn, hconn⟩ := h.connection
  obtain ⟨-, -, hready⟩ := prepareTables_spec q conn (p.tables eng) [] h.undisturbed (fun t ht => ht)
    (fun t ht => absurd ht not_mem_nil)
  have hnone := prepareTables_eq_none h q conn (p.tables eng) (fun t ht => ht)
  have hmiss : (if redisPool && p.env.cacheRead then q.queryCache (eng.cacheKey p.sql) else none) =
      none := by
    split
    · rename_i hread
      exact hcache (Bool.and_eq_true_iff.mp hread).1 (Bool.and_eq_true_iff.mp hread).2
    · rfl
  have hvalid : eng.validateTableNames (eng.extractTableNames p.sql) ≠ [] := h.valid
  have hready := hready hnone
  rw [append_nil] at hready
  have hprepare : prepareTables eng redisPool p.env conn p.sql (p.tables eng) q =
      (none, (prepareTables eng redisPool p.env conn p.sql (p.tables eng) q).2) := Prod.ext hnone rfl
  refine ⟨conn, (prepareTables eng redisPool p.env conn p.sql (p.tables eng) q).2, hready, ?_⟩
  unfold executeQuery
  rw [h.accepted]
  simp only [if_neg h.extracted]
  rw [if_neg hvalid, hmiss, hconn]
  dsimp only
  rw [show eng.validateTableNames (eng.extractTableNames p.sql) = p.tables eng from rfl, hprepare]
  unfold runQuery
  dsimp only
  cases eng.query p.sql (Querier.relation _ conn) <;> rfl

lemma whereClause_count : whereClause "SELECT COUNT(*) FROM orders" = none := by decide +kernel

lemma stored_ordersServers {name : String} :
    (ordersServers objects).Stored true "orders" name ↔ name ∈ objects := by
  constructor
  · rintro ⟨k, hk, -⟩
    exact (mem_ordersServers.mp hk).2
  · exact fun hname => ⟨ordersKey, mem_ordersServers.mpr ⟨rfl, hname⟩, isMatch_ordersKey⟩

lemma holdsRows_ordersCall (hnodup : objects.Nodup) (fetch : String → Option FetchError) :
    (ordersCall objects hnodup fetch).HoldsRows true "orders" ↑(objects.flatMap (fun _ => [1])) :=
  ⟨objects, hnodup, fun _ => stored_ordersServers.symm, rfl⟩

lemma succeeds_ordersCall (hnodup : objects.Nodup) (hne : objects ≠ []) :
    (ordersCall objects hnodup (fun _ => none)).Succeeds ordersEngine true where
  accepted := rfl
  extracted := cons_ne_nil _ _
  valid := cons_ne_nil _ _
  connection := ⟨0, rfl⟩
  views := by
    intro t ht
    rw [mem_singleton.mp ht]
    exact ⟨rfl, rfl⟩
  undisturbed := undisturbed_ordersCall hnodup hne
  files := by
    intro t ht
    rw [mem_singleton.mp ht]
    obtain ⟨o, ho⟩ := exists_mem_of_ne_nil objects hne
    exact ⟨.inr ⟨o, selects_ordersCall.mpr ho⟩, fun name _ => rfl⟩
  once := by
    intro _ t ht keys hkeys name hname
    rw [mem_singleton.mp ht] at hkeys hname
    have hname := selects_ordersCall.mp hname
    have hscan : scanKeys (ordersTable objects (fun _ => none)).scanPages = some [ordersKey] := by
      simp only [ordersTable, if_neg hne]
      rfl
    rw [Option.some.inj (hkeys.symm.trans hscan), timesListed, countP_singleton]
    exact if_pos (contains_iff_mem.mpr (mem_ordersServers.mpr ⟨rfl, hname⟩))

def emptyTable : ReadEnv := { unreadableTable with scanPages := [some []] }

lemma honest_emptyTable {s : Servers} (h : ∀ name, ¬ Indexed s.index t name) :
    Honest s t emptyTable where
  scan := by
    intro keys hkeys k
    cases hkeys
    exact ⟨nofun, fun ⟨⟨m, hm⟩, hmatch⟩ => absurd ⟨k, hm, hmatch⟩ (h m)⟩
  members := fun k ms hms => by cases hms
  listing := fun hall => by cases hall none (.head _)
  metadata := fun _ => rfl

lemma users_not_indexed (name : String) : ¬ Indexed (ordersServers ["a.parquet"]).index "users" name := by
  rintro ⟨k, hk, hmatch⟩
  obtain ⟨rfl, -⟩ := mem_ordersServers.mp hk
  have hother : Glob.isMatch (tablePattern "users") ordersKey = false := by decide +kernel
  rw [hother] at hmatch
  cases hmatch

def joinTables (t : String) : TableEnv :=
  if t = "users" then ⟨emptyTable, unreadableTable, true, none, none⟩
  else ordersTables ["a.parquet"] (fun _ => none) t

def joinCall : Call ℕ where
  sql := "SELECT COUNT(*) FROM orders LEFT JOIN users ON orders.user = users.id"
  servers := ordersServers ["a.parquet"]
  env := ⟨⟨fun _ => [], fun _ => [1]⟩, .ok 0, true, true, joinTables⟩
  honest := by
    intro t
    change Honest (ordersServers ["a.parquet"]) t (joinTables t).first
    rw [joinTables]
    split
    · rename_i ht
      rw [ht]
      exact honest_emptyTable users_not_indexed
    · exact (ordersCall ["a.parquet"] (by decide) (fun _ => none)).honest t

def joinEngine : Engine ℕ := countEngine ["orders", "users"] ["orders"] (by decide)

end MinIODB.Query
