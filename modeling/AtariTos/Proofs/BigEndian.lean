import AtariTos.Bytes
import Mathlib.Data.List.Induction
import Mathlib.Tactic.Ring

namespace AtariTos

/-- The number that bytes spell, most significant first. -/
def bigEndian : List UInt8 → Nat
  | [] => 0
  | byte :: rest => byte.toNat * 256 ^ rest.length + bigEndian rest

theorem bigEndian_concat (bytes : List UInt8) (byte : UInt8) :
    bigEndian (bytes ++ [byte]) = 256 * bigEndian bytes + byte.toNat := by
  induction bytes with
  | nil => simp [bigEndian]
  | cons first rest ih =>
    rw [List.cons_append, bigEndian, ih, bigEndian, List.length_append, List.length_singleton]
    ring

theorem bigEndian_lt (bytes : List UInt8) : bigEndian bytes < 256 ^ bytes.length := by
  induction bytes with
  | nil => simp [bigEndian]
  | cons byte rest ih =>
    have small : byte.toNat < 256 := byte.toNat_lt
    have scaled : (byte.toNat + 1) * 256 ^ rest.length ≤ 256 * 256 ^ rest.length :=
      Nat.mul_le_mul_right _ small
    rw [bigEndian, List.length_cons, pow_succ']
    rw [Nat.add_mul, Nat.one_mul] at scaled
    omega

theorem toNat_longOfBytes {bytes : List UInt8} (h : bytes.length ≤ 4) :
    (longOfBytes bytes).toNat = bigEndian bytes := by
  induction bytes using List.reverseRecOn with
  | nil => rfl
  | append_singleton bytes byte ih =>
    rw [List.length_append, List.length_singleton] at h
    have before : (longOfBytes bytes).toNat = bigEndian bytes := ih (by omega)
    have small : byte.toNat < 2 ^ 8 := byte.toNat_lt
    have room : bigEndian bytes < 256 ^ 3 :=
      Nat.lt_of_lt_of_le (bigEndian_lt bytes) (Nat.pow_le_pow_right (by omega) (by omega))
    have shifted : (longOfBytes bytes <<< 8).toNat = 2 ^ 8 * bigEndian bytes := by
      have eight : (8 : UInt32).toNat % 32 = 8 := rfl
      rw [UInt32.toNat_shiftLeft, before, Nat.shiftLeft_eq, eight]
      omega
    have fold : longOfBytes (bytes ++ [byte]) = longOfBytes bytes <<< 8 ||| byte.toUInt32 := by
      simp only [longOfBytes, List.foldl_append, List.foldl_cons, List.foldl_nil]
    rw [fold, UInt32.toNat_or, UInt8.toNat_toUInt32, shifted, ← Nat.two_pow_add_eq_or_of_lt small,
      bigEndian_concat]

theorem getElem?_of_bigEndian {bytes : List UInt8} {i : Nat} (h : i < bytes.length) :
    bytes[i]? = some (bigEndian bytes / 256 ^ (bytes.length - 1 - i)).toUInt8 := by
  induction bytes generalizing i with
  | nil => simp at h
  | cons byte rest ih =>
    have positive : 0 < 256 ^ rest.length := Nat.pow_pos (by omega)
    have tail : bigEndian rest / 256 ^ rest.length = 0 := Nat.div_eq_of_lt (bigEndian_lt rest)
    rw [List.length_cons] at h ⊢
    cases i with
    | zero =>
      have quotient : (byte.toNat * 256 ^ rest.length + bigEndian rest) / 256 ^ rest.length =
          byte.toNat := by
        rw [Nat.mul_comm, Nat.mul_add_div positive, tail, Nat.add_zero]
      have whole : rest.length + 1 - 1 - 0 = rest.length := by omega
      rw [bigEndian, whole, quotient]
      simp
    | succ i =>
      have inside : i < rest.length := by omega
      have place : rest.length + 1 - 1 - (i + 1) = rest.length - 1 - i := by omega
      have power : 256 ^ rest.length =
          256 ^ (rest.length - 1 - i) * (256 * 256 ^ i) := by
        rw [← pow_succ', ← pow_add]
        congr 1
        omega
      have digits : (byte.toNat * 256 ^ rest.length + bigEndian rest) /
          256 ^ (rest.length - 1 - i) =
          256 * (byte.toNat * 256 ^ i) + bigEndian rest / 256 ^ (rest.length - 1 - i) := by
        rw [power, Nat.mul_comm byte.toNat, Nat.mul_assoc,
          Nat.mul_add_div (Nat.pow_pos (by omega))]
        ring_nf
      rw [List.getElem?_cons_succ, ih inside, bigEndian, place, digits]
      congr 1
      rw [← UInt8.toNat_inj]
      simp

namespace Width

/-- Byte `i` of what an access of this width stores of a value, most significant first. -/
def byteOf (width : Width) (value : UInt32) (i : Nat) : UInt8 :=
  (value.toNat % 256 ^ width.bytes / 256 ^ (width.bytes - 1 - i)).toUInt8

theorem bytes_le_four (width : Width) : width.bytes ≤ 4 := by
  cases width <;> decide

theorem bytes_pos (width : Width) : 0 < width.bytes := by
  cases width <;> decide

theorem getElem?_eq_byteOf {width : Width} {bytes : List UInt8} {i : Nat}
    (length : bytes.length = width.bytes) (h : i < width.bytes) :
    bytes[i]? = some (width.byteOf (longOfBytes bytes) i) := by
  have short : bytes.length ≤ 4 := length ▸ width.bytes_le_four
  have small := bigEndian_lt bytes
  rw [getElem?_of_bigEndian (length ▸ h), byteOf, toNat_longOfBytes short, ← length,
    Nat.mod_eq_of_lt small]

theorem longOfBytes_lt {width : Width} {bytes : List UInt8} (length : bytes.length = width.bytes) :
    (longOfBytes bytes).toNat < 256 ^ width.bytes := by
  rw [toNat_longOfBytes (length ▸ width.bytes_le_four), ← length]
  exact bigEndian_lt bytes

theorem getElem?_encode {width : Width} {i : Nat} (value : UInt32) (h : i < width.bytes) :
    (width.encode value)[i]? = some (width.byteOf value i) := by
  have byte_eq {byte : UInt8} {m d : Nat} (same : byte.toNat = value.toNat % m / d % 256) :
      some byte = some (value.toNat % m / d).toUInt8 := by
    rw [Option.some.injEq, ← UInt8.toNat_inj, same]
    simp
  cases width with
  | byte =>
    obtain rfl : i = 0 := by simpa [bytes] using h
    apply byte_eq
    simp [bytes]
  | word =>
    obtain rfl | rfl : i = 0 ∨ i = 1 := by
      simp only [bytes] at h
      omega
    · apply byte_eq
      simp [bytes, Nat.shiftRight_eq_div_pow]
      omega
    · apply byte_eq
      simp [bytes]
  | long =>
    obtain rfl | rfl | rfl | rfl : i = 0 ∨ i = 1 ∨ i = 2 ∨ i = 3 := by
      simp only [bytes] at h
      omega
    all_goals
      apply byte_eq
      simp [bytes, Nat.shiftRight_eq_div_pow]

end Width

end AtariTos
