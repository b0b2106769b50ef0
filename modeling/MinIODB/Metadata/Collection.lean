import MinIODB.Metadata.Redis

/-!
# The entries of a metadata backup

Each group of keys is read with commands of its own. The service registry is read by the type
of each key and cluster information likewise, but without sets; data indexes are read with
`GET` and schemas with `HGETALL`, and a key of another type is passed over. A backup is collected
without errors of the connection. JSON keeps strings, objects of strings and arrays of strings.
-/
namespace MinIODB.Metadata
open List

inductive MetadataType
  | serviceRegistry
  | dataIndex
  | tableSchema
  | tableConfig
  | clusterInfo
  deriving DecidableEq

inductive EntryValue
  | text (s : String)
  | object (fields : Finmap (fun _ : String => String))
  | array (members : Finset String)
  | other (json : String)
  deriving DecidableEq

structure MetadataEntry where
  type : MetadataType
  key : String
  value : EntryValue
  timestamp : Int := 0
  ttl : Nat := 0
  deriving DecidableEq

variable (r : Redis) (select : String → Bool) (now : Int)

def readByType (sets : Bool) (key : String) : Option EntryValue :=
  match r.value key with
  | some (.string s) => some (.text s)
  | some (.hash fields) => some (.object fields)
  | some (.set members) => if sets then some (.array members) else none
  | _ => none

def collectKeys (patterns : List String) (type : MetadataType) (ttl : String → Nat)
    (read : String → Option EntryValue) : List MetadataEntry :=
  patterns.flatMap (fun pattern => (r.keys pattern).filterMap (fun key =>
    if select key then
      (read key).map (fun value =>
        { type := type, key := key, value := value, timestamp := now, ttl := ttl key })
    else none))

def collectServiceRegistry : List MetadataEntry :=
  collectKeys r select now ["service:*"] .serviceRegistry r.ttl (readByType r true)

def collectDataIndex : List MetadataEntry :=
  collectKeys r select now ["index:*", "table:*", "partition:*"] .dataIndex (fun _ => 0)
    (fun key => (r.getString key).map .text)

def collectTableSchema : List MetadataEntry :=
  collectKeys r select now ["schema:*"] .tableSchema (fun _ => 0)
    (fun key => (r.hashGetAll key).map .object)

def collectClusterInfo : List MetadataEntry :=
  collectKeys r select now ["cluster:*", "node:*", "shard:*"] .clusterInfo (fun _ => 0)
    (readByType r false)

def collectSelected : List MetadataEntry :=
  collectServiceRegistry r select now ++ collectDataIndex r select now ++
    collectTableSchema r select now ++ collectClusterInfo r select now

def collectMetadata : List MetadataEntry := collectSelected r (fun _ => true) now

def EntryValue.redis : EntryValue → RedisValue
  | .text s => .string s
  | .object fields => .hash fields
  | .array members => .set members
  | .other json => .string json

def HasPrefixIn (starts : List String) (key : String) : Prop :=
  ∃ start ∈ starts, start.toList <+: key.toList

instance (starts : List String) (key : String) : Decidable (HasPrefixIn starts key) := by
  unfold HasPrefixIn
  infer_instance

def serviceStarts : List String := ["service:"]

def indexStarts : List String := ["index:", "table:", "partition:"]

def schemaStarts : List String := ["schema:"]

def clusterStarts : List String := ["cluster:", "node:", "shard:"]

def Collected (key : String) : RedisValue → Prop
  | .string _ =>
    HasPrefixIn serviceStarts key ∨ HasPrefixIn indexStarts key ∨ HasPrefixIn clusterStarts key
  | .hash _ =>
    HasPrefixIn serviceStarts key ∨ HasPrefixIn schemaStarts key ∨ HasPrefixIn clusterStarts key
  | .set _ => HasPrefixIn serviceStarts key
  | .list _ => False

variable {r select now} {key : String} {v : RedisValue}

variable {patterns : List String} {type : MetadataType} {ttl : String → Nat}
    {read : String → Option EntryValue} {e : MetadataEntry}

lemma of_mem_collectKeys
   
    (he : e ∈ collectKeys r select now patterns type ttl read) :
    ∃ pattern ∈ patterns, e.key ∈ r.keys pattern ∧ read e.key = some e.value := by
  obtain ⟨pattern, hpattern, he⟩ := mem_flatMap.mp he
  obtain ⟨key, hkey, he⟩ := mem_filterMap.mp he
  split at he
  case isFalse => cases he
  case isTrue =>
    obtain ⟨value, hvalue, rfl⟩ := Option.map_eq_some_iff.mp he
    exact ⟨pattern, hpattern, hkey, hvalue⟩

lemma mem_collectKeys
   
    (hread : ∀ key value, read key = some value → r.value key = some value.redis)
    (he : e ∈ collectKeys r select now patterns type ttl read) :
    r.value e.key = some e.value.redis := by
  obtain ⟨-, -, -, hvalue⟩ := of_mem_collectKeys he
  exact hread e.key e.value hvalue

variable {value : EntryValue}

lemma readByType_redis {sets : Bool}
    (h : readByType r sets key = some value) : r.value key = some value.redis := by
  unfold readByType at h
  split at h
  case h_1 s hs =>
    cases h
    exact hs
  case h_2 fields hf =>
    cases h
    exact hf
  case h_3 members hm =>
    split at h
    case isTrue =>
      cases h
      exact hm
    case isFalse => cases h
  case h_4 => cases h

lemma getString_redis (h : (r.getString key).map .text = some value) :
    r.value key = some value.redis := by
  obtain ⟨s, hs, rfl⟩ := Option.map_eq_some_iff.mp h
  unfold Redis.getString at hs
  split at hs
  case h_1 s' hs' =>
    cases hs
    exact hs'
  case h_2 => cases hs

lemma hashGetAll_redis (h : (r.hashGetAll key).map .object = some value) :
    r.value key = some value.redis := by
  obtain ⟨fields, hf, rfl⟩ := Option.map_eq_some_iff.mp h
  unfold Redis.hashGetAll at hf
  split at hf
  case h_1 fields' hf' =>
    cases hf
    exact hf'
  case h_2 => cases hf

lemma mem_collectSelected (he : e ∈ collectSelected r select now) :
    r.value e.key = some e.value.redis := by
  simp only [collectSelected, mem_append] at he
  rcases he with ((he | he) | he) | he
  · exact mem_collectKeys (fun _ _ => readByType_redis) he
  · exact mem_collectKeys (fun _ _ => getString_redis) he
  · exact mem_collectKeys (fun _ _ => hashGetAll_redis) he
  · exact mem_collectKeys (fun _ _ => readByType_redis) he

def metadataStarts : List String := serviceStarts ++ indexStarts ++ schemaStarts ++ clusterStarts

lemma hasPrefixIn_of_mem_collectKeys (starts : List String)
    (hpatterns : patterns = starts.map (· ++ "*"))
    (hplain : ∀ start ∈ starts, start.toList.all Glob.isPlain)
    (he : e ∈ collectKeys r select now patterns type ttl read) : HasPrefixIn starts e.key := by
  obtain ⟨pattern, hpattern, hkey, -⟩ := of_mem_collectKeys he
  rw [hpatterns] at hpattern
  obtain ⟨start, hstart, rfl⟩ := mem_map.mp hpattern
  have hmatch : Glob.isMatch (start ++ "*") e.key := (mem_filter.mp hkey).2
  exact ⟨start, hstart, (Glob.isMatch_plain_star (all_eq_true.mp (hplain start hstart))).mp hmatch⟩

lemma HasPrefixIn.mono {starts starts' : List String} (h : HasPrefixIn starts key)
    (hsub : starts ⊆ starts') : HasPrefixIn starts' key := by
  obtain ⟨start, hstart, hkey⟩ := h
  exact ⟨start, hsub hstart, hkey⟩

lemma hasPrefixIn_of_mem_collectSelected
    (he : e ∈ collectSelected r select now) : HasPrefixIn metadataStarts e.key := by
  simp only [collectSelected, mem_append] at he
  rcases he with ((he | he) | he) | he
  · exact (hasPrefixIn_of_mem_collectKeys serviceStarts (by decide) (by decide) he).mono (by decide)
  · exact (hasPrefixIn_of_mem_collectKeys indexStarts (by decide) (by decide) he).mono (by decide)
  · exact (hasPrefixIn_of_mem_collectKeys schemaStarts (by decide) (by decide) he).mono (by decide)
  · exact (hasPrefixIn_of_mem_collectKeys clusterStarts (by decide) (by decide) he).mono (by decide)

lemma exists_mem_collectKeys (starts : List String) (hpatterns : patterns = starts.map (· ++ "*"))
    (hplain : ∀ start ∈ starts, start.toList.all Glob.isPlain)
    (hv : r.value key = some v) (hselect : select key)
    (hsub : collectKeys r select now patterns type ttl read ⊆ collectSelected r select now)
    (hread : read key = some value) (hstart : HasPrefixIn starts key) :
    ∃ e ∈ collectSelected r select now, e.key = key := by
  obtain ⟨start, hmem, hkey⟩ := hstart
  have hpattern : start ++ "*" ∈ patterns := hpatterns ▸ mem_map.mpr ⟨start, hmem, rfl⟩
  have hkeys : key ∈ r.keys (start ++ "*") := Redis.mem_keys_plain_star (all_eq_true.mp (hplain start hmem)) hv hkey
  refine ⟨{ type := type, key := key, value := value, timestamp := now, ttl := ttl key },
    hsub (mem_flatMap.mpr ⟨start ++ "*", hpattern, mem_filterMap.mpr ⟨key, hkeys, ?_⟩⟩), rfl⟩
  rw [if_pos hselect, hread, Option.map_some]

lemma exists_mem_collectSelected (hv : r.value key = some v) (hcol : Collected key v)
    (hselect : select key) : ∃ e ∈ collectSelected r select now, e.key = key := by
  have hall : collectServiceRegistry r select now ++ collectDataIndex r select now ++
      collectTableSchema r select now ++ collectClusterInfo r select now ⊆ collectSelected r select now :=
    Subset.refl _
  simp only [append_subset] at hall
  obtain ⟨⟨⟨hservice, hindex⟩, hschema⟩, hcluster⟩ := hall
  cases v with
  | string s =>
    have htype (sets : Bool) : readByType r sets key = some (.text s) := by
      simp [readByType, hv]
    have hget : (r.getString key).map EntryValue.text = some (.text s) := by
      simp [Redis.getString, hv]
    rcases hcol with hstart | hstart | hstart
    · exact exists_mem_collectKeys _ (by decide) (by decide) hv hselect hservice (htype true) hstart
    · exact exists_mem_collectKeys _ (by decide) (by decide) hv hselect hindex hget hstart
    · exact exists_mem_collectKeys _ (by decide) (by decide) hv hselect hcluster (htype false) hstart
  | hash fields =>
    have htype (sets : Bool) : readByType r sets key = some (.object fields) := by
      simp [readByType, hv]
    have hget : (r.hashGetAll key).map EntryValue.object = some (.object fields) := by
      simp [Redis.hashGetAll, hv]
    rcases hcol with hstart | hstart | hstart
    · exact exists_mem_collectKeys _ (by decide) (by decide) hv hselect hservice (htype true) hstart
    · exact exists_mem_collectKeys _ (by decide) (by decide) hv hselect hschema hget hstart
    · exact exists_mem_collectKeys _ (by decide) (by decide) hv hselect hcluster (htype false) hstart
  | set members =>
    have htype : readByType r true key = some (.array members) := by
      simp [readByType, hv]
    exact exists_mem_collectKeys _ (by decide) (by decide) hv hselect hservice htype hcol
  | list => exact hcol.elim

end MinIODB.Metadata
