import MessageChannel.Bytes
import Mathlib.Algebra.Group.Nat.Defs

namespace MessageChannel

theorem shiftRight_eight_mul (n width : Nat) : n >>> (8 * width) = n / 256 ^ width := by
  rw [Nat.shiftRight_eq_div_pow, Nat.pow_mul]

theorem bigEndian_succ (width n : Nat) :
    bigEndian (width + 1) n = UInt8.ofNat (n / 256 ^ width) :: bigEndian width n := by
  rw [bigEndian, shiftRight_eight_mul]

theorem bigEndian_one (n : Nat) : bigEndian 1 n = [UInt8.ofNat n] := by
  simp [bigEndian]

theorem foldl_digits (start : Nat) (bytes : List UInt8) :
    bytes.foldl (fun n b => 256 * n + b.toNat) start =
      256 ^ bytes.length * start + ofBigEndian bytes := by
  induction bytes generalizing start with
  | nil => simp [ofBigEndian]
  | cons b bytes ih =>
      have hfold : ofBigEndian (b :: bytes) =
          256 ^ bytes.length * (256 * 0 + b.toNat) + ofBigEndian bytes := ih (256 * 0 + b.toNat)
      rw [List.foldl_cons, ih, hfold, List.length_cons, Nat.pow_succ]
      grind

theorem ofBigEndian_cons (b : UInt8) (bytes : List UInt8) :
    ofBigEndian (b :: bytes) = 256 ^ bytes.length * b.toNat + ofBigEndian bytes := by
  rw [ofBigEndian, List.foldl_cons, foldl_digits]
  simp

theorem ofBigEndian_lt (bytes : List UInt8) : ofBigEndian bytes < 256 ^ bytes.length := by
  induction bytes with
  | nil => simp [ofBigEndian]
  | cons b bytes ih =>
      rw [ofBigEndian_cons, List.length_cons, Nat.pow_succ]
      have hb := b.toNat_lt
      have : 256 ^ bytes.length * b.toNat ≤ 256 ^ bytes.length * 255 :=
        Nat.mul_le_mul_left _ (by omega)
      omega

theorem ofBigEndian_bigEndian (width n : Nat) :
    ofBigEndian (bigEndian width n) = n % 256 ^ width := by
  induction width with
  | zero => simp [bigEndian, ofBigEndian, Nat.mod_one]
  | succ width ih =>
      rw [bigEndian_succ, ofBigEndian_cons, length_bigEndian, ih, Nat.pow_succ, Nat.mod_mul]
      simp only [UInt8.toNat_ofNat']
      exact Nat.add_comm _ _

theorem bigEndian_ofBigEndian (bytes : List UInt8) :
    bigEndian bytes.length (ofBigEndian bytes) = bytes := by
  suffices h : ∀ k, bigEndian bytes.length (256 ^ bytes.length * k + ofBigEndian bytes) = bytes by
    simpa using h 0
  induction bytes with
  | nil => simp [bigEndian]
  | cons b bytes ih =>
      intro k
      have hlt := ofBigEndian_lt bytes
      have hpos : 0 < 256 ^ bytes.length := Nat.pow_pos (by omega)
      have hsplit : 256 ^ (b :: bytes).length * k + ofBigEndian (b :: bytes) =
          256 ^ bytes.length * (256 * k + b.toNat) + ofBigEndian bytes := by
        rw [ofBigEndian_cons, List.length_cons, Nat.pow_succ]
        grind
      rw [hsplit, List.length_cons, bigEndian_succ, ih, Nat.mul_add_div hpos,
        Nat.div_eq_of_lt hlt]
      congr 1
      apply UInt8.toNat_inj.1
      have hb := b.toNat_lt
      simp only [UInt8.toNat_ofNat']
      omega

theorem bigEndian_ofBigEndian_of_length {width : Nat} {bytes : List UInt8}
    (h : bytes.length = width) : bigEndian width (ofBigEndian bytes) = bytes := by
  subst h
  exact bigEndian_ofBigEndian bytes

/-- The bytes of a number that is too large for them are those of its remainder. -/
theorem bigEndian_mod (width n : Nat) : bigEndian width (n % 256 ^ width) = bigEndian width n := by
  rw [← ofBigEndian_bigEndian, bigEndian_ofBigEndian_of_length (length_bigEndian width n)]

theorem bigEndian_toUInt32 (n : Nat) : bigEndian 4 n.toUInt32.toNat = bigEndian 4 n :=
  bigEndian_mod 4 n

theorem ofBigEndian_lt_of_length {width : Nat} {bytes : List UInt8} (h : bytes.length = width) :
    ofBigEndian bytes < 256 ^ width := by
  subst h
  exact ofBigEndian_lt bytes

theorem splitExactly?_bigEndian (width n : Nat) (rest : List UInt8) :
    splitExactly? width (bigEndian width n ++ rest) = some (bigEndian width n, rest) := by
  have h := splitExactly?_append (bigEndian width n) rest
  rwa [length_bigEndian] at h

end MessageChannel
