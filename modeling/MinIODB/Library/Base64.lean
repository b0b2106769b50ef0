import Mathlib.Tactic

/-!
# Base64 text

Three bytes are written as four characters of an alphabet of 64, and the last group is padded.
The reader skips line breaks and does not look at the bits that the padding leaves over. What
was written is read back, and it is longer than the bytes it stands for.
-/
namespace Base64
open List

def alphabet : List Char :=
  "ABCDEFGHIJKLMNOPQRSTUVWXYZabcdefghijklmnopqrstuvwxyz0123456789+/".toList

def padding : Char := '='

/-- The character of a number below 64. -/
def digit (n : ℕ) : Char := alphabet.getD n padding

/-- The number of a character. -/
def value (c : Char) : Option ℕ := alphabet.idxOf? c

def encode : List UInt8 → List Char
  | [] => []
  | [a] => [digit (a.toNat / 4), digit (a.toNat % 4 * 16), padding, padding]
  | [a, b] =>
    [digit (a.toNat / 4), digit (a.toNat % 4 * 16 + b.toNat / 16), digit (b.toNat % 16 * 4), padding]
  | a :: b :: c :: rest =>
    digit (a.toNat / 4) :: digit (a.toNat % 4 * 16 + b.toNat / 16) ::
      digit (b.toNat % 16 * 4 + c.toNat / 64) :: digit (c.toNat % 64) :: encode rest

def firstByte (x y : ℕ) : UInt8 := UInt8.ofNat (x * 4 + y / 16)

def secondByte (y z : ℕ) : UInt8 := UInt8.ofNat (y % 16 * 16 + z / 4)

def thirdByte (z w : ℕ) : UInt8 := UInt8.ofNat (z % 4 * 64 + w)

/-- Groups of four characters, of which only the last may be padded. -/
def decodeGroups : List Char → Option (List UInt8)
  | [] => some []
  | c₁ :: c₂ :: c₃ :: c₄ :: rest => do
    let x ← value c₁
    let y ← value c₂
    if c₃ = padding ∧ c₄ = padding ∧ rest = [] then return [firstByte x y]
    let z ← value c₃
    if c₄ = padding ∧ rest = [] then return [firstByte x y, secondByte y z]
    let w ← value c₄
    let bytes ← decodeGroups rest
    return firstByte x y :: secondByte y z :: thirdByte z w :: bytes
  | _ => none

def isLineBreak (c : Char) : Bool := c = '\r' ∨ c = '\n'

def decode (text : List Char) : Option (List UInt8) :=
  decodeGroups (text.filter (fun c => !isLineBreak c))

lemma digit_spec : ∀ n : Fin 64,
    value (digit n) = some n.val ∧ digit n ≠ padding ∧ isLineBreak (digit n) = false := by
  decide +kernel

variable {n : ℕ} {bytes : List UInt8} {c : Char}

lemma value_digit (h : n < 64) : value (digit n) = some n := (digit_spec ⟨n, h⟩).1

lemma digit_ne_padding (h : n < 64) : digit n ≠ padding := (digit_spec ⟨n, h⟩).2.1

lemma firstByte_split (a : UInt8) (r : ℕ) (hr : r < 16) :
    firstByte (a.toNat / 4) (a.toNat % 4 * 16 + r) = a := by
  have ha := a.toNat_lt
  rw [firstByte, show a.toNat / 4 * 4 + (a.toNat % 4 * 16 + r) / 16 = a.toNat by omega]
  exact UInt8.ofNat_toNat

lemma secondByte_split (b : UInt8) (q r : ℕ) (hr : r < 4) :
    secondByte (q * 16 + b.toNat / 16) (b.toNat % 16 * 4 + r) = b := by
  have hb := b.toNat_lt
  rw [secondByte, show (q * 16 + b.toNat / 16) % 16 * 16 + (b.toNat % 16 * 4 + r) / 4 = b.toNat by
    omega]
  exact UInt8.ofNat_toNat

lemma thirdByte_split (c : UInt8) (q : ℕ) :
    thirdByte (q * 4 + c.toNat / 64) (c.toNat % 64) = c := by
  have hc := c.toNat_lt
  rw [thirdByte, show (q * 4 + c.toNat / 64) % 4 * 64 + c.toNat % 64 = c.toNat by omega]
  exact UInt8.ofNat_toNat

lemma decodeGroups_encode (bytes : List UInt8) : decodeGroups (encode bytes) = some bytes := by
  fun_induction encode bytes with
  | case1 => rfl
  | case2 a =>
    have ha := a.toNat_lt
    have hx : a.toNat / 4 < 64 := by omega
    have hy : a.toNat % 4 * 16 < 64 := by omega
    have hfirst := firstByte_split a 0 (by omega)
    simp only [decodeGroups, value_digit hx, value_digit hy, Option.bind_eq_bind, Option.bind_some,
      and_self, if_true]
    exact congrArg (fun b => some [b]) hfirst
  | case3 a b =>
    have ha := a.toNat_lt
    have hb := b.toNat_lt
    have hx : a.toNat / 4 < 64 := by omega
    have hy : a.toNat % 4 * 16 + b.toNat / 16 < 64 := by omega
    have hz : b.toNat % 16 * 4 < 64 := by omega
    have hsecond := secondByte_split b (a.toNat % 4) 0 (by omega)
    rw [Nat.add_zero] at hsecond
    simp [decodeGroups, value_digit hx, value_digit hy, value_digit hz, digit_ne_padding hz,
      firstByte_split a _ (show b.toNat / 16 < 16 by omega), hsecond]
  | case4 a b c rest ih =>
    have ha := a.toNat_lt
    have hb := b.toNat_lt
    have hc := c.toNat_lt
    have hx : a.toNat / 4 < 64 := by omega
    have hy : a.toNat % 4 * 16 + b.toNat / 16 < 64 := by omega
    have hz : b.toNat % 16 * 4 + c.toNat / 64 < 64 := by omega
    have hw : c.toNat % 64 < 64 := by omega
    simp [decodeGroups, value_digit hx, value_digit hy, value_digit hz, value_digit hw,
      digit_ne_padding hz, digit_ne_padding hw, ih,
      firstByte_split a _ (show b.toNat / 16 < 16 by omega),
      secondByte_split b _ _ (show c.toNat / 64 < 4 by omega), thirdByte_split]

lemma mem_encode (h : c ∈ encode bytes) : c = padding ∨ ∃ n < 64, c = digit n := by
  fun_induction encode bytes with
  | case1 => cases h
  | case2 a =>
    have ha := a.toNat_lt
    simp only [mem_cons, not_mem_nil, or_false, or_self] at h
    obtain rfl | rfl | rfl := h
    on_goal 3 => exact .inl rfl
    all_goals exact .inr ⟨_, by omega, rfl⟩
  | case3 a b =>
    have ha := a.toNat_lt
    have hb := b.toNat_lt
    simp only [mem_cons, not_mem_nil, or_false] at h
    obtain rfl | rfl | rfl | rfl := h
    on_goal 4 => exact .inl rfl
    all_goals exact .inr ⟨_, by omega, rfl⟩
  | case4 a b d rest ih =>
    have ha := a.toNat_lt
    have hb := b.toNat_lt
    have hd := d.toNat_lt
    simp only [mem_cons] at h
    obtain rfl | rfl | rfl | rfl | hrest := h
    on_goal 5 => exact ih hrest
    all_goals exact .inr ⟨_, by omega, rfl⟩

lemma isLineBreak_of_mem_encode (h : c ∈ encode bytes) : isLineBreak c = false := by
  obtain rfl | ⟨n, hn, rfl⟩ := mem_encode h
  · rfl
  · exact (digit_spec ⟨n, hn⟩).2.2

lemma decode_encode (bytes : List UInt8) : decode (encode bytes) = some bytes := by
  have hfilter : (encode bytes).filter (fun c => !isLineBreak c) = encode bytes :=
    filter_eq_self.mpr (fun c hc => by rw [isLineBreak_of_mem_encode hc]; rfl)
  rw [decode, hfilter, decodeGroups_encode]

lemma length_le_encode (bytes : List UInt8) : bytes.length ≤ (encode bytes).length := by
  fun_induction encode bytes with
  | case1 => exact le_rfl
  | case2 a => simp
  | case3 a b => simp
  | case4 a b c rest ih =>
    simp only [length_cons]
    omega

end Base64
