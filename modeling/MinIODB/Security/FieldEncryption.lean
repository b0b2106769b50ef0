import MinIODB.Library.Base64
import MinIODB.Library.Utf8
import MinIODB.Buffer.FieldNames

/-!
# Field encryption through storage

The values of configured fields are turned into text and sealed before a row enters the buffer.
The configured names are compared with the keys of the payload. When a query reads the row, the
same names are compared with the names of the columns, and whatever can be opened there becomes
a text. The cipher is ideal: what was sealed is opened again.
-/
namespace MinIODB.Security

open Buffer List Option AList

variable {φ : Type*}

/-! ## Values -/

inductive Value (φ : Type*)
  | null
  | bool (b : Bool)
  | number (x : φ)
  | text (s : String)
  | list (items : List (Value φ))
  | object (fields : List (String × Value φ))

def Value.text? : Value φ → Option String
  | .text s => some s
  | _ => none

structure Numbers (φ : Type*) where
  format : φ → String
  ofInt64 : Int64 → φ

mutual

def Value.format (num : Numbers φ) : Value φ → String
  | .null => "<nil>"
  | .bool b => toString b
  | .number x => num.format x
  | .text s => s
  | .list items => "[" ++ " ".intercalate (formatItems num items) ++ "]"
  | .object fields =>
    "map[" ++ " ".intercalate (((formatFields num fields).insertionSort (fun a b => a.1 ≤ b.1)).map
      (fun field => field.1 ++ ":" ++ field.2)) ++ "]"

def Value.formatItems (num : Numbers φ) : List (Value φ) → List String
  | [] => []
  | v :: items => v.format num :: formatItems num items

def Value.formatFields (num : Numbers φ) : List (String × Value φ) → List (String × String)
  | [] => []
  | (k, v) :: fields => (k, v.format num) :: formatFields num fields

end

/-! ## The encryptor -/

def nonceSize : ℕ := 12

def tagSize : ℕ := 16

abbrev Nonce := List.Vector UInt8 nonceSize

structure FieldEncryptor where
  sealBytes : Nonce → List UInt8 → List UInt8
  openBytes : Nonce → List UInt8 → Option (List UInt8)
  openBytes_sealBytes : ∀ nonce bytes, openBytes nonce (sealBytes nonce bytes) = some bytes
  length_sealBytes : ∀ nonce bytes, (sealBytes nonce bytes).length = bytes.length + tagSize

namespace FieldEncryptor

variable (e : FieldEncryptor)

def sealText (nonce : Nonce) (plaintext : String) : String :=
  String.ofList (Base64.encode (nonce.toList ++ e.sealBytes nonce (Utf8.encode plaintext.toList)))

def encrypt (rand : Except String Nonce) (plaintext : String) : Except String String :=
  if plaintext = "" then .ok ""
  else
    match rand with
    | .error err => .error ("encryption failed: " ++ err)
    | .ok nonce => .ok (e.sealText nonce plaintext)

def decrypt (ciphertext : String) : Except String String :=
  if ciphertext = "" then .ok ""
  else
    match Base64.decode ciphertext.toList with
    | none => .error "decryption failed: base64 decode failed"
    | some data =>
      if h : (data.take nonceSize).length = nonceSize then
        match e.openBytes ⟨data.take nonceSize, h⟩ (data.drop nonceSize) with
        | none => .error "decryption failed: GCM open failed"
        | some plaintext => .ok (String.ofList (Utf8.decode plaintext))
      else .error "invalid ciphertext: too short or corrupted"

end FieldEncryptor

/-! ## The manager -/

structure FieldEncryptionConfig where
  enabled : Bool
  encryptedFields : List String

structure FieldEncryptionManager where
  encryptor : Option FieldEncryptor
  config : FieldEncryptionConfig
  encryptedField : List String

def newFieldEncryptionManager (e : FieldEncryptor) (cfg : FieldEncryptionConfig) :
    FieldEncryptionManager :=
  if cfg.enabled then ⟨some e, cfg, cfg.encryptedFields⟩ else ⟨none, cfg, []⟩

namespace FieldEncryptionManager

variable (m : FieldEncryptionManager) (num : Numbers φ)

def isEnabled : Bool := m.config.enabled && m.encryptor.isSome

def isFieldEncrypted (fieldName : String) : Bool := fieldName ∈ m.encryptedField

def encryptValue (e : FieldEncryptor) (rand : String → Except String Nonce) (k : String)
    (v : Value φ) : Except String (Value φ) :=
  if m.isFieldEncrypted k then
    match e.encrypt (rand k) (v.format num) with
    | .error err => .error ("failed to encrypt field " ++ k ++ ": " ++ err)
    | .ok encrypted => .ok (.text encrypted)
  else .ok v

def encryptFields (rand : String → Except String Nonce) (payload : Fields (Value φ)) :
    Except String (Fields (Value φ)) :=
  match m.encryptor, m.config.enabled with
  | some e, true =>
    payload.entries.foldlM (fun result field => do
      return result.insert field.1 (← m.encryptValue num e rand field.1 field.2)) ∅
  | _, _ => .ok payload

def decryptValue (e : FieldEncryptor) (k : String) (v : Value φ) : Value φ :=
  if m.isFieldEncrypted k then
    match v.text? with
    | none => v
    | some strValue =>
      match e.decrypt strValue with
      | .error _ => v
      | .ok decrypted => .text decrypted
  else v

def decryptFields (payload : Fields (Value φ)) : Fields (Value φ) :=
  match m.encryptor, m.config.enabled with
  | some e, true => payload.rebuild (m.decryptValue e)
  | _, _ => payload

end FieldEncryptionManager

/-! ## Writing and reading -/

structure WriteRequest (φ : Type*) where
  table : String
  id : String
  timestamp : Int64
  payload : Fields (Value φ)

def ingestData (num : Numbers φ) (m : FieldEncryptionManager) (rand : String → Except String Nonce)
    (req : WriteRequest φ) : Except String (DataRow (Fields (Value φ))) :=
  match if m.isEnabled then m.encryptFields num rand req.payload else .ok req.payload with
  | .error err => .error ("failed to encrypt fields: " ++ err)
  | .ok fields =>
    .ok { table := if req.table = "" then "default" else req.table
          id := req.id
          timestamp := req.timestamp
          fields }

def systemValues (num : Numbers φ) : SystemValues (Value φ) where
  text := .text
  time t := .number (num.ofInt64 t)

def answerRow (m : FieldEncryptionManager) (row : Fields (Value φ)) : Fields (Value φ) :=
  if m.isEnabled then m.decryptFields row else row

/-! ## The round trip -/

namespace FieldEncryptor

variable (e : FieldEncryptor)

lemma length_sealText (nonce : Nonce) (plaintext : String) :
    plaintext.toList.length < (e.sealText nonce plaintext).toList.length := by
  have hutf8 := Utf8.length_le_encode plaintext.toList
  have hbase64 := Base64.length_le_encode
    (nonce.toList ++ e.sealBytes nonce (Utf8.encode plaintext.toList))
  have htag : 0 < tagSize := by decide
  rw [length_append, e.length_sealBytes] at hbase64
  rw [sealText, String.toList_ofList]
  omega

lemma sealText_ne (nonce : Nonce) (plaintext : String) : e.sealText nonce plaintext ≠ plaintext := by
  intro heq
  have hlength := e.length_sealText nonce plaintext
  rw [heq] at hlength
  exact lt_irrefl _ hlength

lemma decrypt_sealText (nonce : Nonce) (plaintext : String) :
    e.decrypt (e.sealText nonce plaintext) = .ok plaintext := by
  have hne : e.sealText nonce plaintext ≠ "" := by
    intro hempty
    have hlength := e.length_sealText nonce plaintext
    rw [hempty] at hlength
    exact Nat.not_lt_zero _ hlength
  have hdata : Base64.decode (e.sealText nonce plaintext).toList =
      some (nonce.toList ++ e.sealBytes nonce (Utf8.encode plaintext.toList)) := by
    rw [sealText, String.toList_ofList, Base64.decode_encode]
  have htake : (nonce.toList ++ e.sealBytes nonce (Utf8.encode plaintext.toList)).take nonceSize =
      nonce.toList := take_left' nonce.toList_length
  have hdrop : (nonce.toList ++ e.sealBytes nonce (Utf8.encode plaintext.toList)).drop nonceSize =
      e.sealBytes nonce (Utf8.encode plaintext.toList) := drop_left' nonce.toList_length
  have hlength : ((nonce.toList ++
      e.sealBytes nonce (Utf8.encode plaintext.toList)).take nonceSize).length = nonceSize := by
    rw [htake, nonce.toList_length]
  have hnonce : (⟨_, hlength⟩ : Nonce) = nonce := Subtype.ext htake
  unfold decrypt
  rw [if_neg hne]
  simp only [hdata]
  rw [dif_pos hlength, hnonce, hdrop]
  simp [e.openBytes_sealBytes, Utf8.decode_encode]

end FieldEncryptor

namespace FieldEncryptionManager

variable {m : FieldEncryptionManager} {num : Numbers φ} {e : FieldEncryptor} {nonces : String → Nonce}

def storedValue (m : FieldEncryptionManager) (num : Numbers φ) (e : FieldEncryptor)
    (nonces : String → Nonce) (k : String) (v : Value φ) : Value φ :=
  if m.isFieldEncrypted k then
    if v.format num = "" then .text "" else .text (e.sealText (nonces k) (v.format num))
  else v

lemma encryptValue_ok (k : String) (v : Value φ) :
    m.encryptValue num e (fun k => .ok (nonces k)) k v = .ok (m.storedValue num e nonces k v) := by
  unfold encryptValue storedValue FieldEncryptor.encrypt
  by_cases henc : m.isFieldEncrypted k
  · by_cases hempty : v.format num = ""
    · simp [henc, hempty]
    · simp [henc, hempty]
  · rw [if_neg henc, if_neg henc]

lemma foldlM_encryptValue (entries : List (Σ _ : String, Value φ)) (acc : Fields (Value φ)) :
    entries.foldlM (fun result field => do
      return result.insert field.1 (← m.encryptValue num e (fun k => .ok (nonces k)) field.1 field.2))
        acc = (.ok (entries.foldl (fun result field =>
        result.insert field.1 (m.storedValue num e nonces field.1 field.2)) acc) :
          Except String (Fields (Value φ))) := by
  induction entries generalizing acc with
  | nil => rfl
  | cons field entries ih =>
    rw [foldlM_cons, encryptValue_ok, foldl_cons]
    exact ih _

lemma decryptValue_storedValue {k colName s : String} (hk : m.isFieldEncrypted k)
    (hcol : m.isFieldEncrypted colName) :
    m.decryptValue e colName (m.storedValue num e nonces k (.text s)) = .text s := by
  have hformat : (Value.text s).format num = s := rfl
  unfold storedValue decryptValue
  rw [if_pos hk, if_pos hcol, hformat]
  by_cases hempty : s = ""
  · rw [if_pos hempty, hempty]
    rfl
  · rw [if_neg hempty]
    simp [Value.text?, e.decrypt_sealText]

lemma decryptValue_storedValue_of_not {k colName : String} {v : Value φ}
    (hk : m.isFieldEncrypted k = false) (hcol : m.isFieldEncrypted colName → v.text? = none) :
    m.decryptValue e colName (m.storedValue num e nonces k v) = v := by
  have hstored : m.storedValue num e nonces k v = v := if_neg (by rw [hk]; decide)
  rw [hstored, decryptValue]
  split
  case isTrue henc => rw [hcol henc]
  case isFalse => rfl

lemma storedValue_eq_text {k : String} {v : Value φ} (hk : m.isFieldEncrypted k)
    (hne : v.format num ≠ "") :
    ∃ s, m.storedValue num e nonces k v = .text s ∧ s ≠ v.format num := by
  refine ⟨e.sealText (nonces k) (v.format num), ?_, e.sealText_ne _ _⟩
  rw [storedValue, if_pos hk, if_neg hne]

end FieldEncryptionManager

open FieldEncryptionManager

variable {e : FieldEncryptor} {cfg : FieldEncryptionConfig} {num : Numbers φ}

lemma newFieldEncryptionManager_enabled (h : cfg.enabled) :
    newFieldEncryptionManager e cfg = ⟨some e, cfg, cfg.encryptedFields⟩ := if_pos h

lemma isEnabled_newFieldEncryptionManager :
    (newFieldEncryptionManager e cfg).isEnabled = cfg.enabled := by
  cases henabled : cfg.enabled with
  | true =>
    rw [newFieldEncryptionManager_enabled henabled, isEnabled, henabled]
    rfl
  | false =>
    have hmanager : newFieldEncryptionManager e cfg = ⟨none, cfg, []⟩ := if_neg (by simp [henabled])
    rw [hmanager, isEnabled, henabled]
    rfl

lemma isFieldEncrypted_disabled (h : cfg.enabled = false) (k : String) :
    (newFieldEncryptionManager e cfg).isFieldEncrypted k = false := by
  rw [newFieldEncryptionManager, h]
  rfl

lemma lookup_ingestData (nonces : String → Nonce) (req : WriteRequest φ) :
    ∃ row, ingestData num (newFieldEncryptionManager e cfg) (fun k => .ok (nonces k)) req = .ok row ∧
      ∀ k, row.fields.lookup k = (req.payload.lookup k).map
        ((newFieldEncryptionManager e cfg).storedValue num e nonces k) := by
  cases henabled : cfg.enabled with
  | true =>
    refine ⟨⟨req.id, req.timestamp, if req.table = "" then "default" else req.table,
      req.payload.rebuild ((newFieldEncryptionManager e cfg).storedValue num e nonces)⟩, ?_,
      fun k => Fields.lookup_rebuild _ _ _⟩
    have hfields : (newFieldEncryptionManager e cfg).encryptFields num (fun k => .ok (nonces k))
        req.payload =
          .ok (req.payload.rebuild ((newFieldEncryptionManager e cfg).storedValue num e nonces)) := by
      rw [encryptFields, newFieldEncryptionManager_enabled henabled]
      simp only [henabled]
      exact foldlM_encryptValue _ _
    rw [ingestData, isEnabled_newFieldEncryptionManager, if_pos henabled, hfields]
  | false =>
    refine ⟨⟨req.id, req.timestamp, if req.table = "" then "default" else req.table,
      req.payload⟩, ?_, fun k => ?_⟩
    · rw [ingestData, isEnabled_newFieldEncryptionManager, henabled]
      rfl
    · have hstored : (newFieldEncryptionManager e cfg).storedValue num e nonces k = id := by
        funext v
        rw [storedValue, isFieldEncrypted_disabled henabled]
        rfl
      rw [hstored, Option.map_id]
      rfl

lemma lookup_answerRow (row : Fields (Value φ)) (colName : String) :
    (answerRow (newFieldEncryptionManager e cfg) row).lookup colName = (row.lookup colName).map
      ((newFieldEncryptionManager e cfg).decryptValue e colName) := by
  cases henabled : cfg.enabled with
  | true =>
    rw [answerRow, isEnabled_newFieldEncryptionManager, if_pos henabled, ← Fields.lookup_rebuild,
      decryptFields, newFieldEncryptionManager_enabled henabled]
    simp [henabled]
  | false =>
    have hvalue : (newFieldEncryptionManager e cfg).decryptValue e colName = (id : Value φ → _) := by
      funext v
      rw [decryptValue, isFieldEncrypted_disabled henabled]
      rfl
    rw [hvalue, Option.map_id, answerRow, isEnabled_newFieldEncryptionManager, henabled]
    rfl

/-- A payload that comes back under the columns of a mapping: its configured fields are texts
whose columns are configured too, no other text has a configured column, and no two fields have
one column. -/
structure Restorable (m : FieldEncryptionManager) (mapping : AList (fun _ : String => String))
    (payload : Fields (Value φ)) : Prop where
  configured : ∀ field ∈ payload.entries, m.isFieldEncrypted field.1 = true →
    field.2.text?.isSome = true ∧ (mapping.lookup field.1).any m.isFieldEncrypted = true
  other : ∀ field ∈ payload.entries, m.isFieldEncrypted field.1 = false →
    (mapping.lookup field.1).any m.isFieldEncrypted = true → field.2.text? = none
  distinct : ∀ k ∈ payload.keys, ∀ k' ∈ payload.keys, mapping.lookup k = mapping.lookup k' → k = k'

lemma Value.eq_text_of_text? {v : Value φ} {s : String} (h : v.text? = some s) : v = .text s := by
  cases v with
  | text => rw [Option.some.inj h]
  | _ => cases h

lemma Restorable.decryptValue_eq {m : FieldEncryptionManager} {nonces : String → Nonce}
    {mapping : AList (fun _ : String => String)} {payload : Fields (Value φ)}
    (h : Restorable m mapping payload) {k colName : String} {v : Value φ}
    (hfield : payload.lookup k = some v) (hcol : mapping.lookup k = some colName) :
    m.decryptValue e colName (m.storedValue num e nonces k v) = v := by
  have hmem : ⟨k, v⟩ ∈ payload.entries := of_mem_dlookup hfield
  have hany : (mapping.lookup k).any m.isFieldEncrypted = m.isFieldEncrypted colName := by
    rw [hcol, any_some]
  cases henc : m.isFieldEncrypted k with
  | true =>
    obtain ⟨htext, hcolumn⟩ := h.configured _ hmem henc
    obtain ⟨s, hs⟩ := isSome_iff_exists.mp htext
    obtain rfl := v.eq_text_of_text? hs
    exact decryptValue_storedValue henc (hany ▸ hcolumn)
  | false => exact decryptValue_storedValue_of_not henc (fun hcolumn => h.other _ hmem henc (hany ▸ hcolumn))

def readBack (num : Numbers φ) (m : FieldEncryptionManager) (rand : String → Except String Nonce)
    (req : WriteRequest φ) (k : String) : Option (Value φ) :=
  match ingestData num m rand req with
  | .error _ => none
  | .ok row =>
    ((buildGlobalFieldMapping (allFieldKeys [row])).lookup k).bind (fun colName =>
      ((writeParquetFile (systemValues num) [row])[0]?).bind (fun stored =>
        (answerRow m stored).lookup colName))

def shiftEncryptor : FieldEncryptor where
  sealBytes _ bytes := bytes.map (· + 1) ++ List.replicate tagSize 0
  openBytes _ bytes := some ((bytes.take (bytes.length - tagSize)).map (· - 1))
  openBytes_sealBytes _ bytes := by
    simp [List.map_map, Function.comp_def]
  length_sealBytes _ bytes := by simp

def decimals : Numbers ℕ := ⟨toString, fun t => t.toInt.toNat⟩

def zeroNonce : Nonce := ⟨List.replicate nonceSize 0, by simp⟩

def shiftManager (encryptedFields : List String) : FieldEncryptionManager :=
  newFieldEncryptionManager shiftEncryptor ⟨true, encryptedFields⟩

def userRequest (fields : List (Σ _ : String, Value ℕ)) : WriteRequest ℕ :=
  ⟨"users", "u1", 0, fields.toAList⟩

def mailAndAge : WriteRequest ℕ := userRequest [⟨"email", .text "ann@host"⟩, ⟨"age", .number 30⟩]

def mailRow : DataRow (Fields (Value ℕ)) :=
  ⟨"u1", 0, "users", mailAndAge.payload.rebuild
    ((shiftManager ["email"]).storedValue decimals shiftEncryptor (fun _ => zeroNonce))⟩

lemma ingestData_mailAndAge :
    ingestData decimals (shiftManager ["email"]) (fun _ => .ok zeroNonce) mailAndAge = .ok mailRow := by
  rfl

lemma restorable_mailAndAge : Restorable (shiftManager ["email"])
    (buildGlobalFieldMapping (allFieldKeys [mailRow])) mailAndAge.payload where
  configured := by decide +kernel
  other := by decide +kernel
  distinct := by decide +kernel

lemma eq_text_of_bind_text? {found : Option (Value φ)} {s : String}
    (h : found.bind Value.text? = some s) : found = some (.text s) := by
  obtain ⟨v, rfl, hv⟩ := bind_eq_some_iff.mp h
  rw [v.eq_text_of_text? hv]

end MinIODB.Security
