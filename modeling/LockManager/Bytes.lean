import LockManager.Hex

set_option autoImplicit false

/-!
Little-endian words in byte strings.
-/

namespace LockManager
namespace Bytes

/-- The last `width` digits of `n` to base 256, the lowest first. -/
def ofNat (width n : Nat) : Bytes :=
  match width with
  | 0 => []
  | width + 1 => UInt8.ofNat n :: ofNat width (n / 256)

/-- The number whose digits to base 256 are the bytes, the lowest first. -/
def toNat : Bytes → Nat
  | [] => 0
  | b :: rest => b.toNat + 256 * toNat rest

@[simp] theorem length_ofNat (width n : Nat) : (ofNat width n).length = width := by
  induction width generalizing n with
  | zero => rfl
  | succ width ih => simp [ofNat, ih]

theorem toNat_ofNat (width n : Nat) : (ofNat width n).toNat = n % Nat.pow 256 width := by
  induction width generalizing n with
  | zero => exact (Nat.mod_one n).symm
  | succ width ih =>
    have hb : (UInt8.ofNat n).toNat = n % 256 := by simp
    have hp : Nat.pow 256 (width + 1) = 256 * Nat.pow 256 width := Nat.mul_comm _ 256
    rw [ofNat, toNat, ih, hb, hp, Nat.mod_mul]

theorem ofNat_toNat (bytes : Bytes) : ofNat bytes.length bytes.toNat = bytes := by
  induction bytes with
  | nil => rfl
  | cons b rest ih =>
    have hb := b.toNat_lt
    have hd : (b.toNat + 256 * toNat rest) / 256 = toNat rest := by omega
    have hm : UInt8.ofNat (b.toNat + 256 * toNat rest) = b := by
      apply UInt8.toNat_inj.1
      simp only [UInt8.toNat_ofNat']
      omega
    simp only [List.length_cons, ofNat, toNat, hd, hm, ih]

theorem toNat_lt (bytes : Bytes) : bytes.toNat < Nat.pow 256 bytes.length := by
  induction bytes with
  | nil => exact Nat.zero_lt_one
  | cons b rest ih =>
    have hb := b.toNat_lt
    have hp : Nat.pow 256 (rest.length + 1) = 256 * Nat.pow 256 rest.length := Nat.mul_comm _ 256
    rw [List.length_cons, hp, toNat]
    omega

def ofWord (n : UInt32) : Bytes := ofNat 4 n.toNat

/-- The word in the four bytes from `offset`. -/
def wordAt (offset : Nat) (bytes : Bytes) : UInt32 :=
  UInt32.ofNat (toNat ((bytes.drop offset).take 4))

end Bytes
end LockManager
