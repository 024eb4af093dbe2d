import Mathlib.Data.Nat.Factorization.Basic
import JsWaku.Runtime.TypedArray

/-!
# JavaScript numbers

A `Number` that holds a whole value, where the code converts it from or to a bigint: the integer of at most 53
significant bits nearest to the exact value, ties to even. The integers that are not rounded are those that have as many
bits (`ofInt_eq_self_iff`), and a rounded number is one of them (`isExact_ofNat`); of a product with an odd number,
`isExact_mul_iff` tells when it is one.
-/

namespace JsWaku.Number

/-- The multiple of `2 ^ e` nearest to `n`, the even one of two equally near. -/
def roundHalfEven (n e : ℕ) : ℕ :=
  let quotient := n / 2 ^ e
  let rest := n % 2 ^ e
  if 2 ^ e < 2 * rest ∨ (2 ^ e = 2 * rest ∧ quotient % 2 = 1) then (quotient + 1) * 2 ^ e else quotient * 2 ^ e

/-- The nearest natural number of at most 53 significant bits. -/
def ofNat (n : ℕ) : ℕ := roundHalfEven n (Nat.log2 n - 52)

/-- The nearest integer of at most 53 significant bits. -/
def ofInt : ℤ → ℤ
  | .ofNat n => ofNat n
  | .negSucc n => -(ofNat (n + 1) : ℤ)

/-- `Number(n)` of a bigint; `none` is an infinity, from `2 ^ 1024` on. -/
def ofBigInt (n : ℤ) : Option ℤ := if Nat.log2 (ofInt n).natAbs < 1024 then some (ofInt n) else none

/-- The byte that a `Uint8Array` keeps of a number: the last eight bits of a finite value, zero of an infinity. -/
def toUint8 (value : Option ℤ) : UInt8 := UInt8.ofInt (value.getD 0)

/-- Rounding to a multiple of one changes nothing. -/
theorem roundHalfEven_zero (n : ℕ) : roundHalfEven n 0 = n := by
  simp [roundHalfEven, Nat.mod_one]

/-- Numbers of at most 53 bits are exact. -/
theorem ofNat_of_lt {n : ℕ} (h : n < 2 ^ 53) : ofNat n = n := by
  have hlog : Nat.log2 n - 52 = 0 := by
    rcases Nat.eq_zero_or_pos n with rfl | hn
    · rfl
    · have := (Nat.log2_lt hn.ne').2 h
      omega
  rw [ofNat, hlog, roundHalfEven_zero]

/-! ## Exact numbers -/

/-- The number has at most 53 significant bits. -/
def IsExact (n : ℕ) : Prop := ∃ m k, n = m * 2 ^ k ∧ m < 2 ^ 53

/-- Rounding changes what is not a multiple. -/
theorem roundHalfEven_eq_self_iff {n e : ℕ} : roundHalfEven n e = n ↔ 2 ^ e ∣ n := by
  constructor
  · intro h
    rw [← h]
    unfold roundHalfEven
    dsimp only
    split <;> exact Dvd.intro_left _ rfl
  · rintro ⟨m, rfl⟩
    simp [roundHalfEven, Nat.mul_comm]

theorem ofNat_eq_self_iff {n : ℕ} : ofNat n = n ↔ IsExact n := by
  rw [ofNat, roundHalfEven_eq_self_iff]
  constructor
  · rintro ⟨m, hm⟩
    refine ⟨m, Nat.log2 n - 52, hm.trans (Nat.mul_comm _ _), ?_⟩
    -- what is left of `n` without its last bits has 53 of them
    have hlt : n < 2 ^ (53 + (Nat.log2 n - 52)) :=
      Nat.lt_log2_self.trans_le (Nat.pow_le_pow_right (by norm_num) (by omega))
    rw [pow_add] at hlt
    by_contra hle
    have hmul := Nat.mul_le_mul_right (2 ^ (Nat.log2 n - 52)) (not_lt.1 hle)
    rw [Nat.mul_comm m, ← hm] at hmul
    omega
  · rintro ⟨m, k, rfl, hm⟩
    rcases Nat.eq_zero_or_pos m with rfl | hpos
    · simp
    · have hlog : Nat.log2 (m * 2 ^ k) < 53 + k := by
        rw [Nat.log2_lt (Nat.mul_pos hpos (Nat.two_pow_pos k)).ne', pow_add]
        exact Nat.mul_lt_mul_of_pos_right hm (Nat.two_pow_pos k)
      exact Dvd.dvd.mul_left (Nat.pow_dvd_pow 2 (by omega)) m

/-- The integers that `Number` does not round. -/
theorem ofInt_eq_self_iff {n : ℤ} : ofInt n = n ↔ IsExact n.natAbs := by
  rw [← ofNat_eq_self_iff]
  cases n with
  | ofNat n => exact Int.natCast_inj
  | negSucc n =>
    show -(ofNat (n + 1) : ℤ) = Int.negSucc n ↔ ofNat (n + 1) = n + 1
    rw [Int.negSucc_eq, neg_inj]
    exact_mod_cast Int.natCast_inj

/-- A product with an odd number is exact iff it is without its factors of two. -/
theorem isExact_mul_iff {n c : ℕ} (hc : Odd c) : IsExact (n * c) ↔ ∃ m k, n = m * 2 ^ k ∧ m * c < 2 ^ 53 := by
  constructor
  · rintro ⟨m, k, hm, hlt⟩
    rcases Nat.eq_zero_or_pos n with rfl | hn
    · exact ⟨0, 0, by simp, by simp⟩
    · obtain ⟨v, o, ho, rfl⟩ := Nat.exists_eq_two_pow_mul_odd hn.ne'
      refine ⟨o, v, Nat.mul_comm _ _, ?_⟩
      have hodd := ho.mul hc
      have hkv : k ≤ v := by
        by_contra hlt'
        obtain ⟨d, rfl⟩ := Nat.exists_eq_add_of_lt (not_le.1 hlt')
        have heq : o * c = 2 * (m * 2 ^ d) := by
          apply Nat.eq_of_mul_eq_mul_left (Nat.two_pow_pos v)
          rw [← Nat.mul_assoc, hm]
          ring
        rw [heq] at hodd
        exact Nat.not_odd_iff_even.2 (even_two_mul _) hodd
      obtain ⟨d, rfl⟩ := Nat.exists_eq_add_of_le hkv
      have heq : m = 2 ^ d * (o * c) := by
        apply Nat.eq_of_mul_eq_mul_left (Nat.two_pow_pos k)
        rw [Nat.mul_comm, ← hm]
        ring
      calc o * c ≤ 2 ^ d * (o * c) := Nat.le_mul_of_pos_left _ (Nat.two_pow_pos d)
        _ < 2 ^ 53 := heq ▸ hlt
  · rintro ⟨m, k, rfl, hlt⟩
    exact ⟨m * c, k, by ring, hlt⟩

/-- Factors of two do not matter. -/
theorem isExact_mul_two_pow {n j : ℕ} : IsExact (n * 2 ^ j) ↔ IsExact n := by
  constructor
  · rintro ⟨m, k, hm, hlt⟩
    rcases le_total k j with hkj | hjk
    · obtain ⟨d, rfl⟩ := Nat.exists_eq_add_of_le hkj
      have heq : m = n * 2 ^ d := by
        apply Nat.eq_of_mul_eq_mul_right (Nat.two_pow_pos k)
        rw [← hm]
        ring
      exact ⟨n, 0, by simp, (Nat.le_mul_of_pos_right _ (Nat.two_pow_pos d)).trans_lt (heq ▸ hlt)⟩
    · obtain ⟨d, rfl⟩ := Nat.exists_eq_add_of_le hjk
      refine ⟨m, d, ?_, hlt⟩
      apply Nat.eq_of_mul_eq_mul_right (Nat.two_pow_pos j)
      rw [hm]
      ring
  · rintro ⟨m, k, rfl, hlt⟩
    exact ⟨m, k + j, by ring, hlt⟩

/-! ## Rounded numbers -/

/-- Rounding keeps the place of the first bit, or moves it by one. -/
theorem log2_bounds_ofNat {n : ℕ} (hn : n ≠ 0) : 2 ^ Nat.log2 n ≤ ofNat n ∧ ofNat n ≤ 2 ^ (Nat.log2 n + 1) := by
  have hlow := Nat.log2_self_le hn
  have hhigh : n < 2 ^ (Nat.log2 n + 1) := Nat.lt_log2_self
  rcases Nat.lt_or_ge (Nat.log2 n) 53 with hlt | hge
  · have hexact : n < 2 ^ 53 := (Nat.log2_lt hn).1 hlt
    rw [ofNat_of_lt hexact]
    exact ⟨hlow, hhigh.le⟩
  · obtain ⟨e, he⟩ := Nat.exists_eq_add_of_le (show 52 ≤ Nat.log2 n by omega)
    have hsub : Nat.log2 n - 52 = e := by omega
    -- the quotient has 53 bits
    have hqlow : 2 ^ 52 ≤ n / 2 ^ e := by
      rw [Nat.le_div_iff_mul_le (Nat.two_pow_pos e), ← pow_add, ← he]
      exact hlow
    have hqhigh : n / 2 ^ e < 2 ^ 53 := by
      rw [Nat.div_lt_iff_lt_mul (Nat.two_pow_pos e), ← pow_add]
      exact hhigh.trans_eq (by rw [he]; congr 1; omega)
    have hbounds : ∀ q, 2 ^ 52 ≤ q → q ≤ 2 ^ 53 → 2 ^ Nat.log2 n ≤ q * 2 ^ e ∧ q * 2 ^ e ≤ 2 ^ (Nat.log2 n + 1) := by
      intro q hq hq'
      rw [he, pow_add, show 52 + e + 1 = 53 + e by omega, pow_add]
      exact ⟨Nat.mul_le_mul_right _ hq, Nat.mul_le_mul_right _ hq'⟩
    rw [ofNat, hsub, roundHalfEven]
    split
    · exact hbounds _ (by omega) (by omega)
    · exact hbounds _ hqlow (by omega)

/-- A rounded number is exact. -/
theorem isExact_ofNat (n : ℕ) : IsExact (ofNat n) := by
  rcases Nat.eq_zero_or_pos n with rfl | hn
  · exact ⟨0, 0, by rfl, by norm_num⟩
  · have hq : n / 2 ^ (Nat.log2 n - 52) < 2 ^ 53 := by
      rw [Nat.div_lt_iff_lt_mul (Nat.two_pow_pos _), ← pow_add]
      exact Nat.lt_log2_self.trans_le (Nat.pow_le_pow_right (by norm_num) (by omega))
    rw [ofNat, roundHalfEven]
    split
    · rcases Nat.lt_or_ge (n / 2 ^ (Nat.log2 n - 52) + 1) (2 ^ 53) with hlt | hge
      · exact ⟨_, _, rfl, hlt⟩
      · have heq : n / 2 ^ (Nat.log2 n - 52) + 1 = 2 ^ 53 := by omega
        rw [heq]
        exact isExact_mul_two_pow.2 ⟨1, 53, by norm_num, by norm_num⟩
    · exact ⟨_, _, rfl, hq⟩

/-- What is rounded to a number below `2 ^ 53` is the number. -/
theorem eq_of_ofNat_lt {n : ℕ} (h : ofNat n < 2 ^ 53) : ofNat n = n := by
  rcases Nat.lt_or_ge n (2 ^ 53) with hlt | hge
  · exact ofNat_of_lt hlt
  · have hn : n ≠ 0 := fun h0 => by subst h0; omega
    have hlog : 53 ≤ Nat.log2 n := by
      by_contra hlt
      exact absurd ((Nat.log2_lt hn).1 (not_le.1 hlt)) (not_lt.2 hge)
    have hle := (Nat.pow_le_pow_right (by norm_num) hlog).trans (log2_bounds_ofNat hn).1
    omega

/-! ## Bytes -/

/-- The byte of a bigint that is one. -/
theorem toUint8_ofBigInt {n : ℕ} (h : n < 256) : toUint8 (ofBigInt n) = UInt8.ofNat n := by
  have hbyte : ((n : ℤ) % 2 ^ 8).toNat = n := by omega
  have hn : ofInt (n : ℤ) = n := by
    show ((ofNat n : ℕ) : ℤ) = n
    rw [ofNat_of_lt (by omega)]
  have hfinite : Nat.log2 (ofInt (n : ℤ)).natAbs < 1024 := by
    rw [hn, Int.natAbs_natCast]
    exact ((Nat.log2_le_self n).trans_lt h).trans (by omega)
  rw [ofBigInt, if_pos hfinite, hn, toUint8, Option.getD_some, UInt8.ofInt, hbyte]

end JsWaku.Number
