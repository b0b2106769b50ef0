import Mathlib.Data.Finmap
import MinIODB.Library.Glob

/-!
# Redis as the metadata manager uses it

Keys hold strings, hashes, sets or lists, and a collection without elements does not exist. A
command on a key of another type is refused. Commands that are queued in a transaction
are executed one by one, and one that is refused does not stop the others, but a command with
the wrong number of arguments makes Redis discard the whole transaction.
-/
namespace MinIODB.Metadata
open Option AList

inductive RedisValue
  | string (s : String)
  | hash (fields : Finmap (fun _ : String => String))
  | set (members : Finset String)
  | list (items : List String)
  deriving DecidableEq

def RedisValue.NonEmpty : RedisValue → Prop
  | .string _ => True
  | .hash fields => fields ≠ ∅
  | .set members => members ≠ ∅
  | .list items => items ≠ []

instance : DecidablePred RedisValue.NonEmpty
  | .string _ => isTrue trivial
  | .hash fields => inferInstanceAs (Decidable (fields ≠ ∅))
  | .set members => inferInstanceAs (Decidable (members ≠ ∅))
  | .list items => inferInstanceAs (Decidable (items ≠ []))

structure Item where
  value : RedisValue
  ttl : Nat := 0

structure Redis where
  items : AList (fun _ : String => Item)
  nonEmpty : ∀ key item, items.lookup key = some item → item.value.NonEmpty

namespace Redis

def empty : Redis := ⟨∅, fun _ _ h => by cases h⟩

variable (r : Redis)

def value (key : String) : Option RedisValue := (r.items.lookup key).map (·.value)

def keys (pattern : String) : List String :=
  r.items.keys.filter (fun key => Glob.isMatch pattern key)

def getString (key : String) : Option String :=
  match r.value key with
  | some (.string s) => some s
  | _ => none

def hashGetAll (key : String) : Option (Finmap (fun _ : String => String)) :=
  match r.value key with
  | some (.hash fields) => some fields
  | _ => none

def ttl (key : String) : Nat := ((r.items.lookup key).map (·.ttl)).getD 0

def put (key : String) (item : Item) (h : item.value.NonEmpty) : Redis where
  items := r.items.insert key item
  nonEmpty k i hi := by
    by_cases hk : k = key
    · subst hk
      rw [AList.lookup_insert, Option.some.injEq] at hi
      exact hi ▸ h
    · rw [AList.lookup_insert_ne hk] at hi
      exact r.nonEmpty k i hi

def del (key : String) : Redis where
  items := r.items.erase key
  nonEmpty k i hi := by
    by_cases hk : k = key
    · rw [hk, AList.lookup_erase] at hi
      cases hi
    · rw [AList.lookup_erase_ne hk] at hi
      exact r.nonEmpty k i hi

variable {r}

lemma value_del_of_ne {key k : String} (h : k ≠ key) : (r.del key).value k = r.value k := by
  rw [value, del, lookup_erase_ne h, value]

lemma value_put (key k : String) (item : Item) (h : item.value.NonEmpty) :
    (r.put key item h).value k = if k = key then some item.value else r.value k := by
  unfold put value
  split
  case isTrue hk => rw [hk, lookup_insert, map_some]
  case isFalse hk => rw [lookup_insert_ne hk]

lemma value_nonEmpty {key : String} {v : RedisValue} (h : r.value key = some v) : v.NonEmpty := by
  obtain ⟨item, hitem, rfl⟩ := map_eq_some_iff.mp h
  exact r.nonEmpty key item hitem

lemma mem_keys_plain_star {start key : String} (hplain : ∀ c ∈ start.toList, Glob.isPlain c)
    {v : RedisValue} (hv : r.value key = some v) (hstart : start.toList <+: key.toList) :
    key ∈ r.keys (start ++ "*") := by
  refine List.mem_filter.mpr ⟨?_, (Glob.isMatch_plain_star hplain).mpr hstart⟩
  obtain ⟨item, hitem, -⟩ := map_eq_some_iff.mp hv
  exact AList.mem_keys.mpr (lookup_isSome.mp (by rw [hitem]; rfl))

end Redis

inductive Command
  | set (key value : String) (ttl : Nat)
  | hmset (key : String) (fields : Finmap (fun _ : String => String))
  | sadd (key : String) (members : Finset String)
  | expire (key : String) (ttl : Nat)

namespace Command

def key : Command → String
  | .set key _ _ => key
  | .hmset key _ => key
  | .sadd key _ => key
  | .expire key _ => key

def malformed : Command → Bool
  | .hmset _ fields => decide (fields = ∅)
  | .sadd _ members => decide (members = ∅)
  | _ => false

def effect (c : Command) (v : Option RedisValue) : Option (Option RedisValue) :=
  match c, v with
  | .set _ s _, _ => some (some (.string s))
  | .hmset _ fields, none => some (some (.hash fields))
  | .hmset _ fields, some (.hash old) => some (some (.hash (fields ∪ old)))
  | .hmset _ _, some _ => none
  | .sadd _ members, none => some (some (.set members))
  | .sadd _ members, some (.set old) => some (some (.set (members ∪ old)))
  | .sadd _ _, some _ => none
  | .expire _ _, v => some v

end Command

namespace Command

def newTTL (c : Command) (old : Nat) : Nat :=
  match c with
  | .set _ _ ttl => ttl
  | .expire _ ttl => ttl
  | _ => old

lemma union_ne_empty {fields old : Finmap (fun _ : String => String)} (h : fields ≠ ∅) :
    fields ∪ old ≠ ∅ := by
  intro hunion
  refine h (Finmap.ext_lookup fun k => ?_)
  have hnone : k ∉ fields ∪ old := by
    rw [hunion]
    exact Finmap.notMem_empty
  rw [Finmap.lookup_eq_none.mpr (fun hk => hnone (Finmap.mem_union.mpr (.inl hk))),
    Finmap.lookup_empty]

lemma effect_nonEmpty {c : Command} {old : Option RedisValue} {v : RedisValue}
    (hc : c.malformed = false) (hold : ∀ w, old = some w → w.NonEmpty)
    (hv : c.effect old = some (some v)) : v.NonEmpty := by
  cases c with
  | set =>
    cases hv
    trivial
  | hmset key fields =>
    have hne : fields ≠ ∅ := by simpa [malformed] using hc
    match old, hv with
    | none, rfl => exact hne
    | some (.hash _), rfl => exact union_ne_empty hne
  | sadd key members =>
    have hne : members ≠ ∅ := by simpa [malformed] using hc
    match old, hv with
    | none, rfl => exact hne
    | some (.set _), rfl => exact fun h => hne (Finset.union_eq_empty.mp h).1
  | expire =>
    cases hv
    exact hold v rfl

lemma eq_none_of_effect {c : Command} {old : Option RedisValue} (h : c.effect old = some none) :
    old = none := by
  unfold effect at h
  split at h
  case h_8 => exact Option.some.inj h
  all_goals cases h

end Command

namespace Redis

def apply (r : Redis) (c : Command) : Option Redis :=
  if hc : c.malformed then none
  else
    match hv : c.effect (r.value c.key) with
    | none => none
    | some none => some r
    | some (some v) =>
      some (r.put c.key ⟨v, c.newTTL (r.ttl c.key)⟩
        (Command.effect_nonEmpty (by simpa using hc) (fun _ h => value_nonEmpty h) hv))

variable {r r' : Redis} {c : Command} {k : String}

lemma value_apply {v : Option RedisValue} (hc : c.malformed = false)
    (hv : c.effect (r.value c.key) = some v) :
    ∃ r', r.apply c = some r' ∧ ∀ k, r'.value k = if k = c.key then v else r.value k := by
  unfold apply
  rw [dif_neg (by simp [hc])]
  split
  case h_1 hnone =>
    rw [hnone] at hv
    cases hv
  case h_2 habsent =>
    refine ⟨r, rfl, fun k => ?_⟩
    obtain rfl : none = v := Option.some.inj (habsent.symm.trans hv)
    split
    case isTrue hk => rw [hk, Command.eq_none_of_effect habsent]
    case isFalse => rfl
  case h_3 w hw =>
    obtain rfl : some w = v := Option.some.inj (hw.symm.trans hv)
    exact ⟨_, rfl, fun k => value_put _ _ _ _⟩

lemma value_apply_of_ne (h : r.apply c = some r') (hk : k ≠ c.key) : r'.value k = r.value k := by
  unfold apply at h
  split at h
  case isTrue => cases h
  case isFalse =>
    split at h
    case h_1 => cases h
    case h_2 =>
      cases h
      rfl
    case h_3 =>
      cases h
      rw [value_put, if_neg hk]

end Redis

end MinIODB.Metadata
