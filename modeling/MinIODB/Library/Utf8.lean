import Mathlib.Tactic

/-!
# UTF-8 with replacement

Bytes are read as text one character at a time, and a byte at which no character starts is
read as U+FFFD. Text that was written as UTF-8 is read back as it was.
-/
namespace Utf8
open List String

def encode (text : List Char) : List UInt8 := text.flatMap String.utf8EncodeChar

def replacement : Char := Char.ofNat 0xFFFD

/-- The characters that start within the first `fuel` steps. -/
def decodeSteps : ℕ → List UInt8 → List Char
  | 0, _ => []
  | _ + 1, [] => []
  | fuel + 1, b :: bs =>
    match (b :: bs).toByteArray.utf8DecodeChar? 0 with
    | some c => c :: decodeSteps fuel ((b :: bs).drop c.utf8Size)
    | none => replacement :: decodeSteps fuel bs

def decode (bytes : List UInt8) : List Char := decodeSteps bytes.length bytes

lemma encode_cons (c : Char) (text : List Char) :
    encode (c :: text) = utf8EncodeChar c ++ encode text := rfl

lemma decodeSteps_encode {text : List Char} {fuel : ℕ} (h : text.length ≤ fuel) :
    decodeSteps fuel (encode text) = text := by
  induction text generalizing fuel with
  | nil => cases fuel <;> rfl
  | cons c text ih =>
    obtain ⟨fuel, rfl⟩ : ∃ n, fuel = n + 1 := ⟨fuel - 1, by simp at h; omega⟩
    obtain ⟨b, bs, hbytes⟩ := exists_cons_of_ne_nil (utf8EncodeChar_ne_nil (c := c))
    have hchar : (b :: (bs ++ encode text)).toByteArray.utf8DecodeChar? 0 = some c := by
      have h := ByteArray.utf8DecodeChar?_utf8EncodeChar_append (b := (encode text).toByteArray) (c := c)
      rw [← List.toByteArray_append, hbytes] at h
      exact h
    have hrest : (b :: (bs ++ encode text)).drop c.utf8Size = encode text := by
      rw [← cons_append, ← hbytes, ← length_utf8EncodeChar, drop_left]
    rw [encode_cons, hbytes, cons_append, decodeSteps]
    simp only [hchar]
    rw [hrest, ih (by simpa using h)]

lemma length_le_encode (text : List Char) : text.length ≤ (encode text).length := by
  induction text with
  | nil => rfl
  | cons c =>
    have hpos := length_pos_of_ne_nil (utf8EncodeChar_ne_nil (c := c))
    rw [encode_cons, List.length_append, length_cons]
    omega

lemma decode_encode (text : List Char) : decode (encode text) = text :=
  decodeSteps_encode (length_le_encode text)

end Utf8
