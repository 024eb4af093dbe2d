import Mathlib.Data.Nat.Digits.Lemmas

/-!
# Byte strings as numbers

`leNat bs` and `beNat bs` are the numbers written in base 256 by a byte string, least and most significant byte first;
`toLE w n` and `toBE w n` are the `w` low bytes of `n`. Reading back what was written gives the number modulo
`256 ^ w` (`leNat_toLE`, `beNat_toBE`), and writing what was read gives the bytes (`toLE_leNat`, `toBE_beNat`). Zero bytes
at the most significant end are invisible (`leNat_append_replicate_zero`), and a fixed width makes the writing injective
below `256 ^ w` (`toBE_inj`).
-/

namespace Endian

/-- The number with base-256 digits `bs`, least significant first. -/
def leNat (bs : List UInt8) : ℕ := Nat.ofDigits 256 (bs.map UInt8.toNat)

/-- The number with base-256 digits `bs`, most significant first. -/
def beNat (bs : List UInt8) : ℕ := leNat bs.reverse

/-- The `w` low bytes of `n`, least significant first. -/
def toLE : ℕ → ℕ → List UInt8
  | 0, _ => []
  | w + 1, n => UInt8.ofNat n :: toLE w (n / 256)

/-- The `w` low bytes of `n`, most significant first. -/
def toBE (w n : ℕ) : List UInt8 := (toLE w n).reverse

@[simp] theorem leNat_nil : leNat [] = 0 := rfl

@[simp] theorem leNat_cons (b : UInt8) (bs : List UInt8) : leNat (b :: bs) = b.toNat + 256 * leNat bs := by
  simp [leNat, Nat.ofDigits_cons]

theorem leNat_append_replicate_zero (bs : List UInt8) (k : ℕ) : leNat (bs ++ List.replicate k 0) = leNat bs := by
  simp [leNat, Nat.ofDigits_append_replicate_zero]

@[simp] theorem length_toLE (w n : ℕ) : (toLE w n).length = w := by
  induction w generalizing n with
  | zero => rfl
  | succ w ih => simp [toLE, ih]

@[simp] theorem length_toBE (w n : ℕ) : (toBE w n).length = w := by simp [toBE]

/-- Reading back the `w` low bytes. -/
theorem leNat_toLE (w n : ℕ) : leNat (toLE w n) = n % 256 ^ w := by
  induction w generalizing n with
  | zero => simp [toLE, Nat.mod_one]
  | succ w ih =>
    rw [toLE, leNat_cons, ih, pow_succ', Nat.mod_mul]
    simp

theorem beNat_toBE (w n : ℕ) : beNat (toBE w n) = n % 256 ^ w := by
  simp [beNat, toBE, leNat_toLE]

@[simp] theorem beNat_singleton (b : UInt8) : beNat [b] = b.toNat := by simp [beNat]

/-- Writing a number that was read gives its bytes. -/
theorem toLE_leNat (bs : List UInt8) : toLE bs.length (leNat bs) = bs := by
  induction bs with
  | nil => rfl
  | cons b bs ih =>
    have hlow : UInt8.ofNat (leNat (b :: bs)) = b := by
      rw [leNat_cons, UInt8.ofNat_add, UInt8.ofNat_mul]
      simp
    have hhigh : leNat (b :: bs) / 256 = leNat bs := by
      have hb := b.toNat_lt
      rw [leNat_cons]
      omega
    rw [List.length_cons, toLE, hlow, hhigh, ih]

theorem toBE_beNat {w : ℕ} {bs : List UInt8} (h : bs.length = w) : toBE w (beNat bs) = bs := by
  have hle := toLE_leNat bs.reverse
  rw [List.length_reverse, h] at hle
  rw [toBE, beNat, hle, List.reverse_reverse]

/-- A number of `w` bytes is below `256 ^ w`. -/
theorem leNat_lt (bs : List UInt8) : leNat bs < 256 ^ bs.length := by
  have hdigits : ∀ d ∈ bs.map UInt8.toNat, d < 256 := by
    intro d hd
    obtain ⟨b, -, rfl⟩ := List.mem_map.1 hd
    exact b.toNat_lt
  simpa [leNat] using Nat.ofDigits_lt_base_pow_length (by norm_num) hdigits

theorem beNat_lt (bs : List UInt8) : beNat bs < 256 ^ bs.length := by
  simpa [beNat] using leNat_lt bs.reverse

/-- Only the number modulo `256 ^ w` is written. -/
theorem toLE_mod (w n : ℕ) : toLE w (n % 256 ^ w) = toLE w n := by
  induction w generalizing n with
  | zero => rfl
  | succ w ih =>
    have hdiv : n % 256 ^ (w + 1) / 256 = n / 256 % 256 ^ w := by
      rw [pow_succ', Nat.mod_mul_right_div_self]
    have hlow : n % 256 ^ (w + 1) % 256 = n % 256 := Nat.mod_mod_of_dvd _ (Dvd.intro_left _ (pow_succ 256 w).symm)
    have hbyte : UInt8.ofNat (n % 256 ^ (w + 1)) = UInt8.ofNat n :=
      UInt8.toNat_inj.1 (by rw [UInt8.toNat_ofNat', UInt8.toNat_ofNat']; exact hlow)
    rw [toLE, toLE, hdiv, ih, hbyte]

theorem toBE_mod (w n : ℕ) : toBE w (n % 256 ^ w) = toBE w n := by
  rw [toBE, toLE_mod, toBE]

/-- Numbers with the same `w` low bytes agree modulo `256 ^ w`. -/
theorem toBE_inj {w m n : ℕ} (h : toBE w m = toBE w n) : m % 256 ^ w = n % 256 ^ w := by
  rw [← beNat_toBE, ← beNat_toBE, h]

/-- The low bytes of the low bytes. -/
theorem take_toLE {k w : ℕ} (n : ℕ) (h : k ≤ w) : (toLE w n).take k = toLE k n := by
  induction k generalizing w n with
  | zero => simp [toLE]
  | succ k ih =>
    cases w with
    | zero => omega
    | succ w => simp [toLE, ih (n / 256) (Nat.le_of_succ_le_succ h)]

end Endian
