import MinIODB.Metadata.Report
import MinIODB.Metadata.Snapshot

/-!
# Backup and restoration of metadata

A recovery that overwrites carries out the commands of all entries. `SET` replaces a value, but
`HMSET` and `SADD` only add to what is there, so that a hash or a set gets its old value back
only if nothing else was added meanwhile. A value that its group does not collect is not in the backup.
-/
namespace MinIODB.Metadata
open List Finmap Progress

open MinIODB.Backup (Bucket Object)

/-- The values of a key that the restoration of `v` turns into `v`. -/
def Mergeable (v : RedisValue) (old : Option RedisValue) : Prop :=
  match v, old with
  | .string _, _ => True
  | .hash _, none => True
  | .hash fields, some (.hash old) => ∀ k ∈ old, k ∈ fields
  | .set _, none => True
  | .set members, some (.set old) => old ⊆ members
  | _, _ => False

variable {r : Redis} {e : MetadataEntry} {key : String} {v : RedisValue}

lemma union_eq_left {fields old : Finmap (fun _ : String => String)}
    (h : ∀ k ∈ old, k ∈ fields) : fields ∪ old = fields := by
  refine ext_lookup fun k => ?_
  by_cases hk : k ∈ fields
  · rw [lookup_union_left hk]
  · rw [lookup_union_right hk, lookup_eq_none.mpr (fun hold => hk (h k hold)),
      lookup_eq_none.mpr hk]

lemma mergeable_self (value : EntryValue) : Mergeable value.redis (some value.redis) := by
  cases value with
  | text | other => trivial
  | object => exact fun k hk => hk
  | array members => exact Finset.Subset.refl members

lemma commands_spec (e : MetadataEntry) (he : e.value.redis.NonEmpty) :
    ∃ c cs, e.commands = c :: cs ∧ c.key = e.key ∧ c.malformed = false ∧
      (∀ old, Mergeable e.value.redis old → c.effect old = some (some e.value.redis)) ∧
      ∀ d ∈ cs, d = .expire e.key e.ttl := by
  have hexpire : ∀ d ∈ (if 0 < e.ttl then [Command.expire e.key e.ttl] else []),
      d = .expire e.key e.ttl := by
    intro d hd
    split at hd
    · exact mem_singleton.mp hd
    · cases hd
  cases hvalue : e.value with
  | text s =>
    exact ⟨.set e.key s e.ttl, [], by rw [MetadataEntry.commands, hvalue], rfl, rfl,
      fun _ _ => rfl, by simp⟩
  | other json =>
    exact ⟨.set e.key json e.ttl, [], by rw [MetadataEntry.commands, hvalue], rfl, rfl,
      fun _ _ => rfl, by simp⟩
  | object fields =>
    rw [hvalue] at he
    refine ⟨.hmset e.key fields, _, by rw [MetadataEntry.commands, hvalue], rfl, decide_eq_false he,
      fun old hold => ?_, hexpire⟩
    match old, hold with
    | none, _ => rfl
    | some (.hash old), hold => simp [Command.effect, EntryValue.redis, union_eq_left hold]
  | array members =>
    rw [hvalue] at he
    refine ⟨.sadd e.key members, _, by rw [MetadataEntry.commands, hvalue], rfl, decide_eq_false he,
      fun old hold => ?_, hexpire⟩
    match old, hold with
    | none, _ => rfl
    | some (.set old), hold =>
      simp [Command.effect, EntryValue.redis, Finset.union_eq_left.mpr hold]

lemma commands_wellFormed (he : e.value.redis.NonEmpty) :
    ∀ c ∈ e.commands, c.key = e.key ∧ c.malformed = false := by
  obtain ⟨c, cs, heq, hkey, hformed, -, hcs⟩ := commands_spec e he
  rw [heq]
  refine forall_mem_cons.mpr ⟨⟨hkey, hformed⟩, fun d hd => ?_⟩
  rw [hcs d hd]
  exact ⟨rfl, rfl⟩

lemma value_runCommand_of_ne {s : Redis × Bool} {c : Command} (h : key ≠ c.key) :
    (runCommand s c).1.value key = s.1.value key := by
  unfold runCommand
  split
  case h_1 r' happly => exact Redis.value_apply_of_ne happly h
  case h_2 => rfl

lemma value_foldl_runCommand {cs : List Command}
    (h : ∀ c ∈ cs, ∀ s, (runCommand s c).1.value key = s.1.value key) (s : Redis × Bool) :
    (cs.foldl runCommand s).1.value key = s.1.value key := by
  induction cs generalizing s with
  | nil => rfl
  | cons c cs ih => rw [foldl_cons, ih (fun d hd => h d (mem_cons_of_mem _ hd)), h c mem_cons_self]

lemma value_runCommand {s : Redis × Bool} {c : Command} {w : Option RedisValue}
    (hc : c.malformed = false) (hw : c.effect (s.1.value c.key) = some w) :
    (runCommand s c).1.value c.key = w := by
  obtain ⟨r', happly, hvalue⟩ := Redis.value_apply hc hw
  simp [runCommand, happly, hvalue]

lemma value_runEntry_of_ne (he : e.value.redis.NonEmpty) (h : key ≠ e.key) :
    (runEntry r e).1.value key = r.value key := by
  refine value_foldl_runCommand (fun c hc _ => value_runCommand_of_ne ?_) (r, true)
  rw [(commands_wellFormed he c hc).1]
  exact h

lemma value_runEntry (he : e.value.redis.NonEmpty) (h : Mergeable e.value.redis (r.value e.key)) :
    (runEntry r e).1.value e.key = some e.value.redis := by
  obtain ⟨c, cs, heq, hkey, hformed, heffect, hcs⟩ := commands_spec e he
  have hfirst : (runCommand (r, true) c).1.value c.key = some e.value.redis :=
    value_runCommand hformed (by rw [hkey]; exact heffect _ h)
  rw [runEntry, heq, foldl_cons, value_foldl_runCommand (fun d hd s => ?_), ← hkey, hfirst]
  rw [hcs d hd]
  exact value_runCommand (c := .expire e.key _) rfl rfl

def runEntries (r : Redis) (entries : List MetadataEntry) : Redis :=
  entries.foldl (fun r e => (runEntry r e).1) r

section

variable {entries : List MetadataEntry}

structure Agree (entries : List MetadataEntry) (key : String) (v : RedisValue) : Prop where
  nonEmpty : ∀ e ∈ entries, e.value.redis.NonEmpty
  value : ∀ e ∈ entries, e.key = key → e.value.redis = v

lemma Agree.tail (h : Agree (e :: entries) key v) : Agree entries key v :=
  ⟨fun d hd => h.nonEmpty d (mem_cons_of_mem _ hd), fun d hd => h.value d (mem_cons_of_mem _ hd)⟩

lemma value_runEntries_kept (h : Agree entries key v) (hr : r.value key = some v) :
    (runEntries r entries).value key = some v := by
  induction entries generalizing r with
  | nil => exact hr
  | cons e entries ih =>
    refine ih h.tail ?_
    have hne := h.nonEmpty e mem_cons_self
    by_cases hkey : e.key = key
    · have hv := h.value e mem_cons_self hkey
      subst hkey hv
      refine value_runEntry hne ?_
      rw [hr]
      exact mergeable_self e.value
    · rw [value_runEntry_of_ne hne (Ne.symm hkey), hr]

lemma value_runEntries (h : Agree entries key v) (hmem : ∃ e ∈ entries, e.key = key)
    (hr : Mergeable v (r.value key)) : (runEntries r entries).value key = some v := by
  induction entries generalizing r with
  | nil =>
    obtain ⟨e, he, -⟩ := hmem
    cases he
  | cons e entries ih =>
    have hne := h.nonEmpty e mem_cons_self
    by_cases hkey : e.key = key
    · have hv := h.value e mem_cons_self hkey
      subst hkey hv
      have hkept := value_runEntries_kept h.tail (value_runEntry hne hr)
      exact hkept
    · refine ih h.tail ?_ ?_
      · obtain ⟨d, hd, hdkey⟩ := hmem
        rcases mem_cons.mp hd with rfl | hd
        · exact absurd hdkey hkey
        · exact ⟨d, hd, hdkey⟩
      · rwa [value_runEntry_of_ne hne (Ne.symm hkey)]

end

structure Restores (r : Redis) (done : List MetadataEntry) (p : Progress) : Prop where
  queued : ∀ q ∈ p.pipe, q.2 = .write ∧ q.1.value.redis.NonEmpty
  redis : runEntries p.redis (p.pipe.map Prod.fst) = runEntries r done

lemma foldl_runQueued_redis {pipe : List (MetadataEntry × Queued)}
    (h : ∀ q ∈ pipe, q.2 = Queued.write) (s : Redis × List (MetadataEntry × Fate)) :
    (pipe.foldl runQueued s).1 = runEntries s.1 (pipe.map Prod.fst) := by
  induction pipe generalizing s with
  | nil => rfl
  | cons q pipe ih =>
    have hq : (runQueued s q).1 = (runEntry s.1 q.1).1 := by
      simp [runQueued, h q mem_cons_self]
    rw [foldl_cons, ih (fun d hd => h d (mem_cons_of_mem _ hd)), hq]
    rfl

section

variable {env : RecoveryEnv} {options : RecoveryOptions} {p : Progress} {done : List MetadataEntry}
  (hdelivered : ∀ n, env.delivered n = true)

include hdelivered in
lemma Restores.exec (h : Restores r done p) : Restores r done (p.exec env) := by
  have hformed : p.commands.any Command.malformed = false := by
    refine any_eq_false.mpr (fun c hc => ?_)
    obtain ⟨q, hq, hc⟩ := mem_flatMap.mp hc
    rw [(h.queued q hq).1] at hc
    rw [(commands_wellFormed (h.queued q hq).2 c hc).2]
    exact Bool.false_ne_true
  have hexecuted : p.executed env := by
    rw [executed, hdelivered, hformed]
    exact Bool.or_true _
  have hredis : (p.exec env).redis = runEntries r done := by
    rw [Progress.exec, if_pos hexecuted]
    exact (foldl_runQueued_redis (fun q hq => (h.queued q hq).1) _).trans h.redis
  have hpipe : (p.exec env).pipe = [] := by
    rw [Progress.exec, if_pos hexecuted]
  exact ⟨by rw [hpipe]; simp, by rw [hpipe]; exact hredis⟩

include hdelivered in
lemma Restores.recover (hover : options.overwrite) (h : Restores r done p)
    (he : e.value.redis.NonEmpty) (i : Nat) :
    Restores r (done ++ [e]) (p.recover env options (e, i)) := by
  have hqueued : Restores r (done ++ [e])
      { p with pipe := p.pipe ++ [(e, .write)], entriesOK := p.entriesOK + 1 } := by
    constructor
    · intro q hq
      rcases mem_append.mp hq with hq | hq
      · exact h.queued q hq
      · rw [mem_singleton.mp hq]
        exact ⟨rfl, he⟩
    · have hredis := h.redis
      simp only [runEntries, map_append, foldl_append] at hredis ⊢
      rw [hredis]
      rfl
  have hentry : recoverEntry env options p.redis i e = some .write := if_pos hover
  simp only [Progress.recover, hentry]
  split
  case isTrue => exact hqueued.exec hdelivered
  case isFalse => exact hqueued

include hdelivered in
lemma recoverAll_redis (hover : options.overwrite) {entries : List MetadataEntry}
    (hne : ∀ e ∈ entries, e.value.redis.NonEmpty) :
    (recoverAll env options r entries).redis = runEntries r entries := by
  have hloop : ∀ (turns : List (MetadataEntry × Nat)) (done : List MetadataEntry) (p : Progress),
      (∀ turn ∈ turns, turn.1.value.redis.NonEmpty) → Restores r done p →
      Restores r (done ++ turns.map Prod.fst) (turns.foldl (recover env options) p) := by
    intro turns
    induction turns with
    | nil =>
      intro done p _ h
      simpa using h
    | cons turn turns ih =>
      intro done p hturns h
      obtain ⟨hturn, hturns⟩ := forall_mem_cons.mp hturns
      simpa using ih _ _ hturns (h.recover hdelivered hover hturn turn.2)
  have hturns : ∀ turn ∈ entries.zipIdx, turn.1.value.redis.NonEmpty := by
    intro turn hturn
    exact hne turn.1 (fst_mem_of_mem_zipIdx hturn)
  have hend := hloop entries.zipIdx [] { redis := r } hturns ⟨by simp, rfl⟩
  rw [nil_append, zipIdx_map_fst] at hend
  unfold recoverAll finish
  split
  case isTrue =>
    have hexec := (hend.exec hdelivered).redis
    rwa [exec_pipe] at hexec
  case isFalse hempty =>
    have hredis := hend.redis
    rwa [eq_nil_of_length_eq_zero (Nat.eq_zero_of_not_pos hempty)] at hredis

end

lemma decrypt_of_encrypt {cfg : BackupConfig} {s : BackupSnapshot} {stored : Stored}
    (h : encrypt cfg s = some stored) : stored.decrypt cfg = some s := by
  unfold encrypt at h
  split at h
  case isTrue =>
    cases h
    rfl
  case isFalse hkey =>
    split at h
    case isTrue =>
      cases h
      have hon : cfg.encryptionEnabled := by
        cases henabled : cfg.encryptionEnabled with
        | true => rfl
        | false => simp [henabled] at hkey
      simp [Stored.decrypt, hon]
    case isFalse => cases h

lemma downloadBackup_performBackup {cfg : BackupConfig} {nodeID : String} {env : BackupEnv}
    {b : Bucket Stored} {mode : BackupMode}
    (h : (performBackup cfg nodeID env r b).result = .ok mode) :
    mode = (takeSnapshot cfg nodeID env r).backupMode ∧
      downloadBackup cfg (performBackup cfg nodeID env r b).bucket (objectName nodeID mode env.now) =
        some (takeSnapshot cfg nodeID env r) := by
  obtain ⟨hmode, stored, hstored, -, hbucket⟩ := performBackup_ok h
  refine ⟨hmode, ?_⟩
  rw [downloadBackup, hbucket, AList.lookup_insert, Option.bind_some]
  exact decrypt_of_encrypt hstored

lemma collectForBackup_full {cfg : BackupConfig} {env : BackupEnv}
    (h : (collectForBackup cfg env r).1 = .full) :
    (collectForBackup cfg env r).2 = collectMetadata r env.now := by
  unfold collectForBackup at h ⊢
  split at h
  case h_1 => rfl
  case h_2 =>
    split at h
    case h_1 => rfl
    case h_2 => cases h

lemma agree_collectMetadata (now : Int) (hv : r.value key = some v) :
    Agree (collectMetadata r now) key v := by
  constructor
  · intro e he
    exact Redis.value_nonEmpty (mem_collectSelected he)
  · rintro e he rfl
    exact Option.some.inj ((mem_collectSelected he).symm.trans hv)

lemma value_recoverBackup {cfg : BackupConfig} {env : RecoveryEnv} {options : RecoveryOptions}
    {rf : Redis} {tf : Int} {b : Bucket Stored} {name : String} {s : BackupSnapshot}
    (hdownload : downloadBackup cfg b name = some s) (hentries : s.entries = collectMetadata rf tf)
    (hover : options.overwrite) (hmode : options.mode ≠ .dryRun) (hfilter : ∀ e, options.selects e)
    (hclient : env.clientOk) (hdelivered : ∀ n, env.delivered n)
    (hv : rf.value key = some v) (hmem : ∃ e ∈ collectMetadata rf tf, e.key = key)
    (hmerge : Mergeable v (r.value key)) :
    (recoverBackup cfg env options r b name).redis.value key = some v := by
  have hagree : Agree (collectMetadata rf tf) key v := agree_collectMetadata tf hv
  have hselected : filterEntries (collectMetadata rf tf) options = collectMetadata rf tf :=
    filter_eq_self.mpr (fun e _ => hfilter e)
  rw [recoverBackup, hdownload, Option.map_some, hentries, recoverFromBackup_run hmode hclient,
    hselected]
  simp only [recoverAll_redis hdelivered hover hagree.nonEmpty]
  exact value_runEntries hagree hmem hmerge

def backedUp : Redis :=
  ((Redis.empty.put "service:a" ⟨.hash (Finmap.singleton "port" "80"), 30⟩ (by decide)).put "schema:t"
    ⟨.hash (Finmap.singleton "id" "int"), 0⟩ (by decide)).put "index:table:t"
    ⟨.set {"t/1.parquet"}, 0⟩ (by decide)

def changedLater : Redis :=
  (Redis.empty.put "service:a" ⟨.hash (Finmap.singleton "port" "81"), 0⟩ (by decide)).put
    "index:table:t" ⟨.set {"t/2.parquet"}, 0⟩ (by decide)

def fullBackup : BackupOutcome := performBackup {} "node-1" { now := 0 } backedUp ∅

def grownLater : Redis :=
  Redis.empty.put "service:a"
    ⟨.hash ((Finmap.singleton "port" "81").insert "zone" "b"), 0⟩ (by decide)

end MinIODB.Metadata
