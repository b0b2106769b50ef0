import MinIODB.Metadata.Recovery

/-!
# What a recovery reports

Every selected entry ends with one fate. `EntriesError` counts those whose check failed and
`EntriesOK` all others, also those whose key existed and those that an execution lost. The report
is therefore true of the runs in which no execution fails and no key is skipped.
-/
namespace MinIODB.Metadata
open List

structure Accounts (done : List MetadataEntry) (p : Progress) : Prop where
  entries : (p.fates.map Prod.fst ++ p.pipe.map Prod.fst).Perm done
  error : p.entriesError = p.fates.countP (fun f => f.2 = .failed)
  ok : p.entriesOK = p.fates.countP (fun f => f.2 ≠ .failed) + p.pipe.length
  lost : p.failedExecutions = 0 → ∀ f ∈ p.fates, f.2 ≠ .lost

lemma foldl_runQueued (pipe : List (MetadataEntry × Queued))
    (s : Redis × List (MetadataEntry × Fate)) : ∃ fates, (pipe.foldl runQueued s).2 = s.2 ++ fates ∧
      fates.map Prod.fst = pipe.map Prod.fst ∧ ∀ f ∈ fates, f.2 ≠ .failed := by
  induction pipe generalizing s with
  | nil => exact ⟨[], by simp, rfl, by simp⟩
  | cons q pipe ih =>
    obtain ⟨fates, heq, hmap, hfates⟩ := ih (runQueued s q)
    obtain ⟨fate, hq, hfate⟩ : ∃ fate, (runQueued s q).2 = s.2 ++ [(q.1, fate)] ∧ fate ≠ .failed := by
      unfold runQueued
      split
      case h_1 => exact ⟨.skipped, rfl, by decide⟩
      case h_2 => exact ⟨_, rfl, by split <;> decide⟩
    refine ⟨(q.1, fate) :: fates, ?_, by simp [hmap], ?_⟩
    · rw [foldl_cons, heq, hq, append_assoc, singleton_append]
    · exact forall_mem_cons.mpr ⟨hfate, hfates⟩

namespace Progress

variable {env : RecoveryEnv} {p : Progress}

lemma exec_spec (env : RecoveryEnv) (p : Progress) :
    ∃ fates, (p.exec env).fates = p.fates ++ fates ∧
      fates.map Prod.fst = p.pipe.map Prod.fst ∧ (∀ f ∈ fates, f.2 ≠ .failed) ∧
      ((p.exec env).failedExecutions = 0 → p.failedExecutions = 0 ∧ ∀ f ∈ fates, f.2 ≠ .lost) := by
  unfold exec
  split
  case isTrue =>
    obtain ⟨fates, heq, hmap, hfates⟩ := foldl_runQueued p.pipe (p.redis, [])
    rw [nil_append] at heq
    refine ⟨fates, by simp only [heq], hmap, hfates, ?_⟩
    simp only [heq]
    intro hzero
    split at hzero
    case isTrue => omega
    case isFalse hlost =>
      refine ⟨by omega, fun f hf hf' => hlost ?_⟩
      exact any_eq_true.mpr ⟨f, hf, decide_eq_true hf'⟩
  case isFalse =>
    refine ⟨p.pipe.map (fun q => (q.1, q.2.dropped)), rfl, by simp [Function.comp_def], ?_, ?_⟩
    · intro f hf
      obtain ⟨q, -, rfl⟩ := mem_map.mp hf
      cases q.2 <;> simp [Queued.dropped]
    · intro hzero
      simp only at hzero
      omega

@[simp] theorem exec_pipe : (p.exec env).pipe = [] := by
  unfold exec
  split <;> rfl

@[simp] theorem exec_entriesOK : (p.exec env).entriesOK = p.entriesOK := by
  unfold exec
  split <;> rfl

@[simp] theorem exec_entriesError : (p.exec env).entriesError = p.entriesError := by
  unfold exec
  split <;> rfl

variable {done : List MetadataEntry}

lemma accounts_exec (h : Accounts done p) : Accounts done (p.exec env) := by
  obtain ⟨fates, heq, hmap, hfates, hlost⟩ := exec_spec env p
  have hfailed : fates.countP (fun f => f.2 = .failed) = 0 :=
    countP_eq_zero.mpr (fun f hf => by simpa using hfates f hf)
  have hok : fates.countP (fun f => f.2 ≠ .failed) = p.pipe.length := by
    rw [countP_eq_length.mpr (fun f hf => by simpa using hfates f hf)]
    simpa using congrArg length hmap
  refine ⟨?_, ?_, ?_, ?_⟩
  · rw [heq, exec_pipe, map_append, hmap, map_nil, append_nil]
    exact h.entries
  · rw [exec_entriesError, heq, countP_append, hfailed, h.error, Nat.add_zero]
  · rw [exec_entriesOK, heq, countP_append, hok, h.ok, exec_pipe, length_nil, Nat.add_zero]
  · intro hzero f hf
    rw [heq] at hf
    rcases mem_append.mp hf with hf | hf
    · exact h.lost (hlost hzero).1 f hf
    · exact (hlost hzero).2 f hf

lemma accounts_recover (env : RecoveryEnv) (options : RecoveryOptions)
    (h : Accounts done p) (e : MetadataEntry) (i : Nat) :
    Accounts (done ++ [e]) (p.recover env options (e, i)) := by
  unfold recover
  split
  case h_1 =>
    refine ⟨?_, by simp [countP_append, h.error], by simp [countP_append, h.ok], ?_⟩
    · have hperm : (p.fates.map Prod.fst ++ [e] ++ p.pipe.map Prod.fst).Perm
          (p.fates.map Prod.fst ++ p.pipe.map Prod.fst ++ [e]) := by
        rw [append_assoc, append_assoc]
        exact List.Perm.append_left _ perm_append_comm
      simpa using hperm.trans (h.entries.append_right [e])
    · intro hzero f hf
      rcases mem_append.mp hf with hf | hf
      · exact h.lost hzero f hf
      · obtain rfl := mem_singleton.mp hf
        exact fun hlost => by cases hlost
  case h_2 queued _ =>
    have hqueued : Accounts (done ++ [e])
        { p with pipe := p.pipe ++ [(e, queued)], entriesOK := p.entriesOK + 1 } := by
      refine ⟨?_, h.error, ?_, h.lost⟩
      · simpa using h.entries.append_right [e]
      · simp only [h.ok, length_append, length_singleton, Nat.add_assoc]
    simp only
    split
    case isTrue => exact accounts_exec hqueued
    case isFalse => exact hqueued

lemma accounts_foldl (env : RecoveryEnv) (options : RecoveryOptions)
    (turns : List (MetadataEntry × Nat)) (h : Accounts done p) :
    Accounts (done ++ turns.map Prod.fst) (turns.foldl (recover env options) p) := by
  induction turns generalizing done p with
  | nil => simpa using h
  | cons turn turns ih => simpa using ih (accounts_recover env options h turn.1 turn.2)

lemma accounts_finish (h : Accounts done p) :
    Accounts done (p.finish env) ∧ (p.finish env).pipe = [] := by
  unfold finish
  split
  case isTrue => exact ⟨accounts_exec h, exec_pipe⟩
  case isFalse hempty => exact ⟨h, eq_nil_of_length_eq_zero (by omega)⟩

end Progress

lemma accounts_recoverAll (env : RecoveryEnv) (options : RecoveryOptions) (r : Redis)
    (entries : List MetadataEntry) : Accounts entries (recoverAll env options r entries) ∧
      (recoverAll env options r entries).pipe = [] := by
  have hstart : Accounts [] { redis := r } :=
    ⟨List.Perm.refl _, rfl, rfl, fun _ f hf => by cases hf⟩
  have hloop := Progress.accounts_foldl env options entries.zipIdx hstart
  rw [nil_append, zipIdx_map_fst] at hloop
  exact Progress.accounts_finish hloop

def RecoveryOutcome.count (o : RecoveryOutcome) (fate : Fate) : Nat :=
  o.fates.countP (fun f => f.2 = fate)

section
variable (fates : List (MetadataEntry × Fate))

lemma countP_add_countP_failed :
    fates.countP (fun f => f.2 ≠ .failed) + fates.countP (fun f => f.2 = .failed) =
      fates.length := by
  rw [length_eq_countP_add_countP (fun f => decide (f.2 ≠ .failed))]
  simp

lemma countP_not_failed :
    fates.countP (fun f => f.2 ≠ .failed) = fates.countP (fun f => f.2 = .written) +
      fates.countP (fun f => f.2 = .skipped) + fates.countP (fun f => f.2 = .lost) := by
  induction fates with
  | nil => rfl
  | cons f fates ih =>
    obtain ⟨e, fate⟩ := f
    simp only [countP_cons, ih]
    cases fate <;> simp <;> omega

end

variable {env : RecoveryEnv} {options : RecoveryOptions} {r : Redis} {entries : List MetadataEntry}

lemma recoverFromBackup_run (hmode : options.mode ≠ .dryRun) (hclient : env.clientOk) :
    recoverFromBackup env options r (some entries) =
      let p := recoverAll env options r (filterEntries entries options)
      { redis := p.redis
        result := { entriesTotal := entries.length
                    entriesOK := p.entriesOK
                    entriesError := p.entriesError
                    success := decide (p.entriesError = 0)
                    errors := p.errors }
        failedExecutions := p.failedExecutions
        fates := p.fates } := by
  simp [recoverFromBackup, if_neg hmode, if_pos hclient]

def reportedEntries : List MetadataEntry :=
  [{ type := .serviceRegistry, key := "service:a", value := .text "up" },
   { type := .tableSchema, key := "schema:t", value := .object (Finmap.singleton "id" "int") },
   { type := .clusterInfo, key := "node:1", value := .array {"x"} }]

def secondCheckFails : RecoveryEnv := { existsOk := fun i => decide (i ≠ 1) }

end MinIODB.Metadata
