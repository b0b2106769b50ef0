import MinIODB.Metadata.Collection

/-!
# Recovery of metadata from a backup

The selected entries are queued in a transaction that is executed when it holds a hundred
entries and at the end. An entry counts as recovered when it is queued; whether the execution
reached Redis, and what Redis answered, goes to the log only. Beside the counters of the source
the model keeps the fate of each entry, which is what really happened to it.
-/
namespace MinIODB.Metadata

inductive RecoveryMode
  | complete
  | part
  | dryRun
  deriving DecidableEq

structure RecoveryOptions where
  fromTime : Option Int := none
  toTime : Option Int := none
  metadataTypes : List MetadataType := []
  keyPatterns : List String := []
  mode : RecoveryMode := .complete
  overwrite : Bool := false

def contains (text pattern : String) : Bool := decide (pattern.toList <:+: text.toList)

def RecoveryOptions.selects (options : RecoveryOptions) (e : MetadataEntry) : Bool :=
  !options.fromTime.any (fun t => decide (e.timestamp < t)) &&
  !options.toTime.any (fun t => decide (t < e.timestamp)) &&
  (options.metadataTypes.isEmpty || options.metadataTypes.contains e.type) &&
  (options.keyPatterns.isEmpty || options.keyPatterns.any (contains e.key))

def filterEntries (entries : List MetadataEntry) (options : RecoveryOptions) :
    List MetadataEntry :=
  entries.filter options.selects

inductive Fate
  | failed
  | skipped
  | written
  | lost
  deriving DecidableEq

def MetadataEntry.commands (e : MetadataEntry) : List Command :=
  match e.value with
  | .text s => [.set e.key s e.ttl]
  | .object fields => .hmset e.key fields :: if 0 < e.ttl then [.expire e.key e.ttl] else []
  | .array members => .sadd e.key members :: if 0 < e.ttl then [.expire e.key e.ttl] else []
  | .other json => [.set e.key json e.ttl]

inductive Queued
  | skip
  | write

/-- The failures that a recovery meets: of the `EXISTS` for an entry, by its position, and of
the executions of the transaction, by their number. An execution that is not delivered changes
nothing in Redis. -/
structure RecoveryEnv where
  clientOk : Bool := true
  existsOk : Nat → Bool := fun _ => true
  delivered : Nat → Bool := fun _ => true

def recoverEntry (env : RecoveryEnv) (options : RecoveryOptions) (r : Redis) (i : Nat)
    (e : MetadataEntry) : Option Queued :=
  if options.overwrite then some .write
  else if env.existsOk i then
    if (r.value e.key).isSome then some .skip else some .write
  else none

def runCommand (s : Redis × Bool) (c : Command) : Redis × Bool :=
  match s.1.apply c with
  | some r => (r, s.2)
  | none => (s.1, false)

def runEntry (r : Redis) (e : MetadataEntry) : Redis × Bool :=
  e.commands.foldl runCommand (r, true)

def runQueued (s : Redis × List (MetadataEntry × Fate)) (q : MetadataEntry × Queued) :
    Redis × List (MetadataEntry × Fate) :=
  match q.2 with
  | .skip => (s.1, s.2 ++ [(q.1, .skipped)])
  | .write =>
    let t := runEntry s.1 q.1
    (t.1, s.2 ++ [(q.1, if t.2 then .written else .lost)])

def Queued.dropped : Queued → Fate
  | .skip => .skipped
  | .write => .lost

structure Progress where
  redis : Redis
  pipe : List (MetadataEntry × Queued) := []
  executions : Nat := 0
  failedExecutions : Nat := 0
  entriesOK : Nat := 0
  entriesError : Nat := 0
  errors : List String := []
  fates : List (MetadataEntry × Fate) := []

namespace Progress

def commands (p : Progress) : List Command :=
  p.pipe.flatMap (fun q => match q.2 with
    | .skip => []
    | .write => q.1.commands)

def executed (env : RecoveryEnv) (p : Progress) : Bool :=
  p.commands.isEmpty || (env.delivered p.executions && !p.commands.any Command.malformed)

def exec (env : RecoveryEnv) (p : Progress) : Progress :=
  if p.executed env then
    let s := p.pipe.foldl runQueued (p.redis, [])
    { p with
      redis := s.1
      pipe := []
      executions := p.executions + 1
      failedExecutions := p.failedExecutions + if s.2.any (·.2 = .lost) then 1 else 0
      fates := p.fates ++ s.2 }
  else
    { p with
      pipe := []
      executions := p.executions + 1
      failedExecutions := p.failedExecutions + 1
      fates := p.fates ++ p.pipe.map (fun q => (q.1, q.2.dropped)) }

def batchSize : Nat := 100

def recover (env : RecoveryEnv) (options : RecoveryOptions) (p : Progress)
    (turn : MetadataEntry × Nat) : Progress :=
  match recoverEntry env options p.redis turn.2 turn.1 with
  | none =>
    { p with
      entriesError := p.entriesError + 1
      errors := p.errors ++ ["Failed to recover " ++ turn.1.key ++ ": failed to check key existence"]
      fates := p.fates ++ [(turn.1, .failed)] }
  | some queued =>
    let p := { p with pipe := p.pipe ++ [(turn.1, queued)], entriesOK := p.entriesOK + 1 }
    if batchSize ≤ p.pipe.length then p.exec env else p

def finish (env : RecoveryEnv) (p : Progress) : Progress :=
  if 0 < p.pipe.length then p.exec env else p

end Progress

def recoverAll (env : RecoveryEnv) (options : RecoveryOptions) (r : Redis)
    (entries : List MetadataEntry) : Progress :=
  (entries.zipIdx.foldl (Progress.recover env options) { redis := r }).finish env

structure RecoveryResult where
  entriesTotal : Nat := 0
  entriesOK : Nat := 0
  entriesSkipped : Nat := 0
  entriesError : Nat := 0
  success : Bool := false
  errors : List String := []
  deriving DecidableEq

inductive RecoveryError
  | download
  | noClient

structure RecoveryOutcome where
  redis : Redis
  result : RecoveryResult
  error : Option RecoveryError := none
  failedExecutions : Nat := 0
  fates : List (MetadataEntry × Fate) := []

def recoverFromBackup (env : RecoveryEnv) (options : RecoveryOptions) (r : Redis)
    (download : Option (List MetadataEntry)) : RecoveryOutcome :=
  match download with
  | none =>
    { redis := r
      result := { errors := ["Failed to download backup"] }
      error := some .download }
  | some entries =>
    let filtered := filterEntries entries options
    if options.mode = .dryRun then
      { redis := r
        result := { entriesTotal := entries.length
                    entriesOK := filtered.length
                    success := true } }
    else if env.clientOk then
      let p := recoverAll env options r filtered
      { redis := p.redis
        result := { entriesTotal := entries.length
                    entriesOK := p.entriesOK
                    entriesError := p.entriesError
                    success := decide (p.entriesError = 0)
                    errors := p.errors }
        failedExecutions := p.failedExecutions
        fates := p.fates }
    else
      { redis := r
        result := { entriesTotal := entries.length
                    errors := ["Redis client not available"] }
        error := some .noClient }

end MinIODB.Metadata
