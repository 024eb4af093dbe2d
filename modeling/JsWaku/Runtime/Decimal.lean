import JsWaku.Runtime.Number
import JsWaku.Runtime.Text
import Mathlib.Data.List.TakeWhile

/-!
# Whole numbers as text

A natural number in a template string is written with its decimal digits, all of them below `2 ^ 53`. `parseInt` reads
such a text back (`parseInt_toString`), and no separator occurs in it (`not_mem_toString`).
-/

namespace JsWaku.Text

theorem bounds_of_isDigit {c : Char} (h : c.isDigit = true) : 48 ≤ c.toNat ∧ c.toNat ≤ 57 := by
  obtain ⟨hlow, hhigh⟩ : 48 ≤ c.val ∧ c.val ≤ 57 := by simpa [Char.isDigit] using h
  exact ⟨hlow, hhigh⟩

/-- A digit is read as its value. -/
theorem digit_of_isDigit {c : Char} (h : c.isDigit = true) : digit 10 c = some (c.toNat - 48) := by
  obtain ⟨hlow, hhigh⟩ := bounds_of_isDigit h
  have hrange : '0' ≤ c ∧ c ≤ '9' := ⟨hlow, hhigh⟩
  have hlt : c.toNat - 48 < 10 := by omega
  simp only [digit, if_pos hrange, Option.filter_some, decide_eq_true hlt, if_true]

theorem isWhiteSpace_of_isDigit {c : Char} (h : c.isDigit = true) : isWhiteSpace c = false := by
  obtain ⟨hlow, hhigh⟩ := bounds_of_isDigit h
  have hno : ¬8192 ≤ c.toNat := by omega
  have hlist : c.toNat ∉ [9, 10, 11, 12, 13, 32, 160, 5760, 8232, 8233, 8239, 8287, 12288, 65279] := by
    simp only [List.mem_cons, List.not_mem_nil, or_false]
    omega
  simp only [isWhiteSpace, List.contains_eq_mem, decide_eq_false hlist, decide_eq_false hno]
  rfl

/-- A text of digits is read to its end. -/
theorem parseDigits_of_isDigit {cs : List Char} (hne : cs ≠ []) (h : ∀ c ∈ cs, c.isDigit = true) :
    parseDigits 10 cs = some (Nat.ofDigitChars 10 cs 0) := by
  have hall : cs.takeWhile (fun c => (digit 10 c).isSome) = cs := by
    rw [List.takeWhile_eq_self_iff]
    intro c hc
    rw [digit_of_isDigit (h c hc)]
    rfl
  have hfold : ∀ value, cs.foldl (fun value c => value * 10 + (digit 10 c).getD 0) value =
      Nat.ofDigitChars 10 cs value := by
    intro value
    rw [Nat.ofDigitChars_eq_foldl]
    refine List.foldl_ext _ _ _ fun acc c hc => ?_
    rw [digit_of_isDigit (h c hc), Nat.mul_comm]
    rfl
  obtain ⟨c, rest, rfl⟩ := List.exists_cons_of_ne_nil hne
  rw [parseDigits, hall]
  simp only [hfold]

/-- `parseInt` on a text of digits. -/
theorem parseInt_of_isDigit {cs : List Char} (hne : cs ≠ []) (h : ∀ c ∈ cs, c.isDigit = true) :
    parseInt (String.ofList cs) = some ((Nat.ofDigitChars 10 cs 0 : ℕ) : ℤ) := by
  have hdigits := parseDigits_of_isDigit hne h
  obtain ⟨c, rest, rfl⟩ := List.exists_cons_of_ne_nil hne
  have hc := h c List.mem_cons_self
  have htrim : (c :: rest).dropWhile isWhiteSpace = c :: rest := by
    rw [List.dropWhile_cons, isWhiteSpace_of_isDigit hc]
    rfl
  have hminus : c ≠ '-' := fun e => by subst e; cases hc
  have hplus : c ≠ '+' := fun e => by subst e; cases hc
  simp only [parseInt, String.toList_ofList, htrim]
  split
  next e => exact absurd (List.cons.inj e).1 hminus
  next e => exact absurd (List.cons.inj e).1 hplus
  next =>
    -- the number is not hexadecimal, as its second character is a digit
    split
    next e =>
      obtain ⟨-, rfl⟩ := List.cons.inj e
      exact absurd (h 'x' (by simp)) (by decide)
    next e =>
      obtain ⟨-, rfl⟩ := List.cons.inj e
      exact absurd (h 'X' (by simp)) (by decide)
    next => simp [hdigits]

/-- A number that is not negative is printed without a sign. -/
theorem toString_natCast (n : ℕ) : toString (n : ℤ) = toString n := rfl

theorem isDigit_of_mem_toString {n : ℕ} {c : Char} (h : c ∈ (toString n).toList) : c.isDigit = true := by
  rw [Nat.toString_eq_repr, Nat.toList_repr] at h
  exact Nat.isDigit_of_mem_toDigits (by norm_num) le_rfl h

/-- A character that is no digit does not occur in a number. -/
theorem not_mem_toString (n : ℕ) {c : Char} (hc : c.isDigit = false) : c ∉ (toString n).toList := fun h => by
  rw [isDigit_of_mem_toString h] at hc
  cases hc

/-- `parseInt` reads back a number that was printed. -/
theorem parseInt_toString (n : ℕ) : parseInt (toString n) = some (n : ℤ) := by
  have hdigits : ∀ c ∈ Nat.toDigits 10 n, c.isDigit = true :=
    fun c hc => Nat.isDigit_of_mem_toDigits (by norm_num) le_rfl hc
  rw [Nat.toString_eq_ofList_toDigits, parseInt_of_isDigit Nat.toDigits_ne_nil hdigits,
    Nat.ofDigitChars_toDigits (by norm_num) le_rfl]

theorem toString_injective : Function.Injective fun n : ℕ => toString n := by
  intro m n h
  have hparsed := congrArg parseInt h
  simp only [parseInt_toString, Option.some.injEq] at hparsed
  exact Int.ofNat.inj hparsed

end JsWaku.Text

namespace JsWaku.Number

theorem ofInt_natCast {n : ℕ} (h : n < 2 ^ 53) : ofInt n = n := by
  show ((ofNat n : ℕ) : ℤ) = n
  rw [ofNat_of_lt h]

end JsWaku.Number

namespace JsWaku.Text

/-- `parseInt(text)`; `none` is `NaN`. -/
def parseNumber (text : String) : Option ℤ := (parseInt text).map Number.ofInt

theorem parseNumber_toString {n : ℕ} (h : n < 2 ^ 53) : parseNumber (toString n) = some (n : ℤ) := by
  rw [parseNumber, parseInt_toString, Option.map_some, Number.ofInt_natCast h]

end JsWaku.Text
