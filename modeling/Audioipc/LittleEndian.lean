import Mathlib.Algebra.Group.Nat.Defs

/-!
# Little-endian fixed-width naturals

`leBytes k n` is the `k`-byte little-endian encoding of `n` (truncating),
`ofLeBytes` reads bytes back. The two facts a binary format needs are the
width (`length_leBytes`) and the round trip below `256 ^ k`
(`ofLeBytes_leBytes`).
-/

namespace LittleEndian

def leBytes : Nat → Nat → List UInt8
  | 0, _ => []
  | k + 1, n => UInt8.ofNat (n % 256) :: leBytes k (n / 256)

def ofLeBytes : List UInt8 → Nat
  | [] => 0
  | b :: bs => b.toNat + 256 * ofLeBytes bs

@[simp] theorem length_leBytes (k n : Nat) : (leBytes k n).length = k := by
  induction k generalizing n with
  | zero => rfl
  | succ k ih => simp [leBytes, ih]

theorem ofLeBytes_leBytes {k n : Nat} (h : n < 256 ^ k) :
    ofLeBytes (leBytes k n) = n := by
  induction k generalizing n with
  | zero =>
      have : n = 0 := by simpa using h
      simp [leBytes, ofLeBytes, this]
  | succ k ih =>
      have hdiv : n / 256 < 256 ^ k := by
        rw [Nat.pow_succ] at h
        exact Nat.div_lt_of_lt_mul (by rwa [Nat.mul_comm] at h)
      simp only [leBytes, ofLeBytes, ih hdiv, UInt8.toNat_ofNat']
      omega

end LittleEndian
