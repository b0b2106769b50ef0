import Mathlib.Tactic

/-!
# Big-endian words in byte lists

Fixed-width words are written most significant byte first and read back by one
left fold. The width is a parameter, so the 16, 32 and 64 bit words are three
instances of one round trip.
-/
namespace BigEndian

/-- The `w` low-order bytes of `v`, most significant first. -/
def put : ℕ → ℕ → List UInt8
  | 0, _ => []
  | w + 1, v => UInt8.ofNat (v / 256 ^ w) :: put w v

/-- The number whose base-256 digits are the given bytes. -/
def get (bs : List UInt8) : ℕ := bs.foldl (fun acc b => 256 * acc + b.toNat) 0

@[simp] theorem put_length (w v : ℕ) : (put w v).length = w := by
  induction w with
  | zero => rfl
  | succ w ih => simp [put, ih]

/-- The fold started at `acc` shifts `acc` past all the bytes that follow. -/
lemma foldl_put (w v acc : ℕ) : (put w v).foldl (fun acc b => 256 * acc + b.toNat) acc =
      256 ^ w * acc + v % 256 ^ w := by
  induction w generalizing acc with
  | zero => simp [put, Nat.mod_one]
  | succ w ih =>
    have hdigit : (UInt8.ofNat (v / 256 ^ w)).toNat = v / 256 ^ w % 256 := by
      simp [UInt8.toNat_ofNat']
    have hmod : v % 256 ^ (w + 1) = 256 ^ w * (v / 256 ^ w % 256) + v % 256 ^ w := by
      rw [pow_succ, Nat.mod_mul]
      omega
    rw [put, List.foldl_cons, ih, hdigit, hmod, pow_succ]
    ring

lemma get_put (w v : ℕ) : get (put w v) = v % 256 ^ w := by
  simpa [get] using foldl_put w v 0

/-- `binary.BigEndian.PutUint16` into a two-byte slice. -/
def putUint16 (v : UInt16) : List UInt8 := put 2 v.toNat

/-- `binary.BigEndian.PutUint32` into a four-byte slice. -/
def putUint32 (v : UInt32) : List UInt8 := put 4 v.toNat

/-- `binary.BigEndian.PutUint64` into an eight-byte slice. -/
def putUint64 (v : UInt64) : List UInt8 := put 8 v.toNat

def uint16 (bs : List UInt8) : UInt16 := UInt16.ofNat (get bs)
def uint32 (bs : List UInt8) : UInt32 := UInt32.ofNat (get bs)
def uint64 (bs : List UInt8) : UInt64 := UInt64.ofNat (get bs)

@[simp] theorem putUint16_length (v : UInt16) : (putUint16 v).length = 2 := put_length 2 _
@[simp] theorem putUint32_length (v : UInt32) : (putUint32 v).length = 4 := put_length 4 _
@[simp] theorem putUint64_length (v : UInt64) : (putUint64 v).length = 8 := put_length 8 _

@[simp] theorem uint16_putUint16 (v : UInt16) : uint16 (putUint16 v) = v := by
  have hv := v.toNat_lt
  rw [uint16, putUint16, get_put, Nat.mod_eq_of_lt (by omega)]
  exact UInt16.ofNat_toNat

@[simp] theorem uint32_putUint32 (v : UInt32) : uint32 (putUint32 v) = v := by
  have hv := v.toNat_lt
  rw [uint32, putUint32, get_put, Nat.mod_eq_of_lt (by omega)]
  exact UInt32.ofNat_toNat

@[simp] theorem uint64_putUint64 (v : UInt64) : uint64 (putUint64 v) = v := by
  have hv := v.toNat_lt
  rw [uint64, putUint64, get_put, Nat.mod_eq_of_lt (by omega)]
  exact UInt64.ofNat_toNat

end BigEndian
