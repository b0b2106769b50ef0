import MinIODB.Metadata.History

/-!
# Chains of incremental backups

Incremental backups are stored under names that the listing does not recognise, so that a
restoration from what is listed ends with the newest full backup. A key that is idle for a second has
an idle time of a billion nanoseconds, which is then multiplied by a second once more; the
product is compared with the time since the last backup, and wraps around in 64 bits.
-/
namespace MinIODB.Metadata
open Option

open MinIODB.Backup (Bucket Object)

def backupChain (mode : String → Option BackupMode) (offered : List BackupInfo) : List String :=
  let full := offered.find? (fun info => mode info.objectName = some .full)
  let later := offered.takeWhile (fun info => mode info.objectName ≠ some .full)
  full.toList.map (·.objectName) ++
    ((later.filter (fun info => mode info.objectName = some .incremental)).reverse.map
      (·.objectName))

def restoreChain (cfg : BackupConfig) (env : RecoveryEnv) (b : Bucket Stored) (names : List String)
    (r : Redis) : Redis :=
  names.foldl (fun r name => (recoverBackup cfg env { overwrite := true } r b name).redis) r

def restoreOffered (cfg : Setup) (env : RecoveryEnv) (w : World) (days : Nat) (r : Redis) : Redis :=
  restoreChain cfg.backup env w.bucket
    (backupChain (fun name => (downloadBackup cfg.backup w.bucket name).map (·.backupMode))
      (listBackups w.nodeID w.bucket w.now days)) r

lemma backupChain_cons_full {mode : String → Option BackupMode} {first : BackupInfo}
    {rest : List BackupInfo} (h : mode first.objectName = some .full) :
    backupChain mode (first :: rest) = [first.objectName] := by
  simp [backupChain, h]

variable {cfg : Setup} {w : World}

lemma value_restoreOffered {renv : RecoveryEnv} (hclient : renv.clientOk)
    (hdelivered : ∀ n, renv.delivered n) (h : Inv cfg w) {rf r : Redis} {tf : Int} {days : Nat}
    (hlast : w.lastFull = some (w.nodeID, rf, tf)) (hdays : w.now - days * day ≤ tf)
    (hretention : w.now - cfg.backup.retentionDays * day ≤ tf) {key : String} {v : RedisValue}
    (hv : rf.value key = some v) (hcollected : Collected key v) (hmerge : Mergeable v (r.value key)) :
    (restoreOffered cfg renv w days r).value key = some v := by
  obtain ⟨rest, stored, s, hlist, hlookup, hstored, hmode, hentries⟩ :=
    h.newest_listed hlast hdays hretention
  have hdownload : downloadBackup cfg.backup w.bucket (objectName w.nodeID .full tf) = some s := by
    rw [downloadBackup, hlookup, bind_some]
    exact decrypt_of_encrypt hstored
  have hchain : backupChain
      (fun name => (downloadBackup cfg.backup w.bucket name).map (·.backupMode))
      (listBackups w.nodeID w.bucket w.now days) = [objectName w.nodeID .full tf] := by
    rw [hlist]
    refine backupChain_cons_full ?_
    simp [hdownload, hmode]
  rw [restoreOffered, hchain, restoreChain, List.foldl_cons, List.foldl_nil]
  exact value_recoverBackup hdownload hentries rfl (by decide) (fun _ => rfl) hclient hdelivered hv
    (exists_mem_collectSelected hv hcollected rfl) hmerge

lemma changedSince_of_le {env : BackupEnv} {since : Int} {key : String}
    (h : ∀ n, env.idle key = some n →
      (n * second * second).bmod (2 ^ 64) ≤ saturate (env.now - since)) :
    changedSince env since key = true := by
  unfold changedSince
  cases hidle : env.idle key with
  | none => rfl
  | some n => simpa using h n hidle

lemma collectForBackup_incremental {bcfg : BackupConfig} {env : BackupEnv} {r : Redis}
    (h : (collectForBackup bcfg env r).1 = .incremental) :
    ∃ since, r.getTime backupStateKey = some since ∧ ((collectForBackup bcfg env r).2 =
      collectMetadataIncremental env r since ∨
      (collectForBackup bcfg env r).2 = collectMetadata r env.now) := by
  unfold collectForBackup at h ⊢
  cases hmode : determineBackupMode bcfg r with
  | full =>
    simp only [hmode] at h
    cases h
  | incremental =>
    simp only [hmode] at h ⊢
    cases hsince : r.getTime backupStateKey with
    | none =>
      simp only [hsince] at h
      cases h
    | some since =>
      refine ⟨since, rfl, ?_⟩
      simp only
      split
      case isTrue => exact .inr rfl
      case isFalse => exact .inl rfl

lemma exists_mem_incremental {bcfg : BackupConfig} {env : BackupEnv} {r : Redis} {since : Int}
    {key : String} {v : RedisValue} (hmode : (collectForBackup bcfg env r).1 = .incremental)
    (hsince : r.getTime backupStateKey = some since) (hv : r.value key = some v)
    (hcollected : Collected key v) (hidle : ∀ n, env.idle key = some n →
      (n * second * second).bmod (2 ^ 64) ≤ saturate (env.now - since)) :
    ∃ e ∈ (collectForBackup bcfg env r).2, e.key = key ∧ e.value.redis = v := by
  have hfound : ∀ select : String → Bool, select key →
      ∃ e ∈ collectSelected r select env.now, e.key = key ∧ e.value.redis = v := by
    intro select hselect
    obtain ⟨e, he, rfl⟩ := exists_mem_collectSelected hv hcollected hselect
    exact ⟨e, he, rfl, Option.some.inj ((mem_collectSelected he).symm.trans hv)⟩
  obtain ⟨since', hsince', hentries⟩ := collectForBackup_incremental hmode
  obtain rfl : since = since' := Option.some.inj (hsince.symm.trans hsince')
  rcases hentries with hentries | hentries
  · rw [hentries]
    exact hfound _ (changedSince_of_le hidle)
  · rw [hentries]
    exact hfound _ rfl

def plainSetup : Setup where
  backup := { retentionDays := 7 }
  md5 := fun _ => "0123456789abcdef".toList
  md5_hex := fun _ => List.all_eq_true.mp (by decide +kernel)

def lateWrites : List Action :=
  [.write (·.setString "table:a" "1"), .write (·.setString "table:c" "1"), .backup {},
    .setMode .incremental, .advance (60 * second), .write (·.setString "table:a" "2"),
    .advance (63 * second), .write (·.setString "table:b" "1"),
    .backup { idle := fun key =>
      if key = "table:a" then some 3 else if key = "table:c" then some 63 else some 0 }]

def afterLateWrites : World :=
  (Transition.exec (step plainSetup) (World.start plainSetup 0) lateWrites).get (by decide +kernel)

lemma isSome_lastFull_afterLateWrites : afterLateWrites.lastFull.isSome := by
  decide +kernel

lemma eq_some_of_get_fst {α β γ : Type*} {o : Option (α × β × γ)} {a : α} (h : o.isSome)
    (ha : (o.get h).1 = a) : o = some (a, (o.get h).2.1, (o.get h).2.2) := by
  obtain ⟨x, rfl⟩ := isSome_iff_exists.mp h
  rw [← ha]
  rfl

end MinIODB.Metadata
