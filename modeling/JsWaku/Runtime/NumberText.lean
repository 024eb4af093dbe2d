import JsWaku.Runtime.Decimal
import Mathlib.Data.List.DropRight

/-!
# The text of a number

`parseInt` with the rounding and the overflow of its result, and `Number::toString` for the numbers that it gives: of the
numerals that are read as the number, one with the fewest digits and nearest to it (`shortest`), written out up to 21
digits and with an exponent from there on. Such a text is read back as the number exactly if it is written out
(`text_eq_iff`).
-/

namespace JsWaku.Number

/-! ## The shortest numeral -/

/-- The multiple of `10 ^ j` that is rounded to `x`, the nearest of several, the even one of two equally near. -/
def candidate (x j : ℕ) : Option ℕ :=
  let low := x / 10 ^ j * 10 ^ j
  let high := low + 10 ^ j
  match decide (ofNat low = x), decide (ofNat high = x) with
  | true, true =>
    if x - low < high - x ∨ (x - low = high - x ∧ x / 10 ^ j % 2 = 0) then some low else some high
  | true, false => some low
  | false, true => some high
  | false, false => none

/-- The numeral with the most zeros at its end, at most `j`. -/
def shortestFrom (x : ℕ) : ℕ → ℕ
  | 0 => x
  | j + 1 => (candidate x (j + 1)).getD (shortestFrom x j)

/-- The number that the digits of `x` write. -/
def shortest (x : ℕ) : ℕ := shortestFrom x (Nat.log 10 x + 1)

example : shortest (2 ^ 53) = 9007199254740992 ∧ shortest (2 ^ 60) = 1152921504606847000 := by decide +kernel

theorem ofNat_candidate {x j y : ℕ} (h : candidate x j = some y) : ofNat y = x := by
  unfold candidate at h
  dsimp only at h
  split at h
  next hlow hhigh =>
    split at h
    · cases h
      exact of_decide_eq_true hlow
    · cases h
      exact of_decide_eq_true hhigh
  next hlow _ =>
    cases h
    exact of_decide_eq_true hlow
  next _ hhigh =>
    cases h
    exact of_decide_eq_true hhigh
  next => cases h

/-- The numeral of a number is rounded back to it. -/
theorem ofNat_shortest {x : ℕ} (hx : ofNat x = x) : ofNat (shortest x) = x := by
  suffices ∀ j, ofNat (shortestFrom x j) = x from this _
  intro j
  induction j with
  | zero => exact hx
  | succ j ih =>
    rw [shortestFrom]
    cases h : candidate x (j + 1) with
    | none => exact ih
    | some y => exact ofNat_candidate h

/-- Below `2 ^ 53` it is the number itself. -/
theorem shortest_of_lt {x : ℕ} (h : x < 2 ^ 53) : shortest x = x := by
  have hback := ofNat_shortest (ofNat_of_lt h)
  exact (eq_of_ofNat_lt (hback.trans_lt h)).symm.trans hback

end JsWaku.Number

namespace JsWaku.Text

open Number

/-! ## Texts -/

/-- The number with the digits of `y`, in exponential form. -/
def exponential (y : ℕ) : List Char :=
  let digits := Nat.toDigits 10 y
  let fraction := (digits.drop 1).rdropWhile (· == '0')
  digits.take 1 ++ (if fraction.isEmpty then [] else '.' :: fraction) ++
    'e' :: '+' :: Nat.toDigits 10 (digits.length - 1)

/-- `Number::toString`, for a natural number. -/
def naturalText (x : ℕ) : List Char :=
  if shortest x < 10 ^ 21 then Nat.toDigits 10 (shortest x) else exponential (shortest x)

/-- `Number::toString`, for an integer. -/
def integerText (x : ℤ) : List Char := if x < 0 then '-' :: naturalText x.natAbs else naturalText x.natAbs

/-- A number that `parseInt` gives. The zero has no sign, which no text shows. -/
inductive Whole
  | finite (x : ℤ)
  | infinity (negative : Bool)
  deriving DecidableEq, Repr

/-- The number nearest to an integer. -/
def Whole.ofInt (n : ℤ) : Whole :=
  match ofBigInt n with
  | some x => .finite x
  | none => .infinity (n < 0)

/-- `parseInt(text)`; `none` is `NaN`. -/
def parseWhole (text : String) : Option Whole := (parseInt text).map Whole.ofInt

/-- `String(x)`. -/
def Whole.text : Whole → String
  | .finite x => String.ofList (integerText x)
  | .infinity true => "-Infinity"
  | .infinity false => "Infinity"

example : ["100", "-7", "+0x10", " 007z", "123456789012345678901234"].map (fun text => (parseWhole text).map Whole.text) =
    [some "100", some "-7", some "16", some "7", some "1.2345678901234569e+23"] := by decide +kernel

/-! ## Reading a text -/

/-- A text that starts with a digit, and one with a minus before it, are read to the end of the digits. -/
theorem parseInt_digit {d : Char} {rest : List Char} (hd : d.isDigit = true) (hx : 'x' ∉ rest.head?)
    (hX : 'X' ∉ rest.head?) :
    parseInt (String.ofList (d :: rest)) = (parseDigits 10 (d :: rest)).map (fun n : ℕ => (n : ℤ)) ∧
      parseInt (String.ofList ('-' :: d :: rest)) = (parseDigits 10 (d :: rest)).map fun n : ℕ => -(n : ℤ) := by
  have htrim : (d :: rest).dropWhile isWhiteSpace = d :: rest := by
    rw [List.dropWhile_cons, isWhiteSpace_of_isDigit hd]
    rfl
  have hminus : ('-' :: d :: rest).dropWhile isWhiteSpace = '-' :: d :: rest := by
    rw [List.dropWhile_cons]
    rfl
  -- the number is not hexadecimal
  have hhex : ∀ tail, rest ≠ 'x' :: tail ∧ rest ≠ 'X' :: tail := by
    refine fun tail => ⟨?_, ?_⟩
    · rintro rfl
      exact hx rfl
    · rintro rfl
      exact hX rfl
  constructor
  · simp only [parseInt, String.toList_ofList, htrim]
    split
    next e =>
      obtain ⟨rfl, -⟩ := List.cons.inj e
      cases hd
    next e =>
      obtain ⟨rfl, -⟩ := List.cons.inj e
      cases hd
    next =>
      dsimp only
      split
      next e => exact absurd (List.cons.inj e).2 (hhex _).1
      next e => exact absurd (List.cons.inj e).2 (hhex _).2
      next => cases parseDigits 10 (d :: rest) <;> simp
  · simp only [parseInt, String.toList_ofList, hminus]
    split
    next e => exact absurd (List.cons.inj e).2 (hhex _).1
    next e => exact absurd (List.cons.inj e).2 (hhex _).2
    next => cases parseDigits 10 (d :: rest) <;> simp

theorem toDigits_eq_cons (n : ℕ) : ∃ d rest, Nat.toDigits 10 n = d :: rest ∧ d.isDigit = true ∧
    ∀ c ∈ rest, c.isDigit = true := by
  obtain ⟨d, rest, h⟩ := List.exists_cons_of_ne_nil (Nat.toDigits_ne_nil (b := 10) (n := n))
  have hdigits : ∀ c ∈ d :: rest, c.isDigit = true := fun c hc =>
    Nat.isDigit_of_mem_toDigits (by norm_num) le_rfl (h ▸ hc)
  exact ⟨d, rest, h, hdigits d List.mem_cons_self, fun c hc => hdigits c (List.mem_cons_of_mem d hc)⟩

theorem not_mem_head?_of_isDigit {rest : List Char} (h : ∀ c ∈ rest, c.isDigit = true) {x : Char}
    (hx : x.isDigit = false) : x ∉ rest.head? := fun hmem => by
  rw [h x (List.mem_of_mem_head? hmem)] at hx
  cases hx

/-- A numeral and its negative are read as what they write. -/
theorem parseInt_toDigits (n : ℕ) : parseInt (String.ofList (Nat.toDigits 10 n)) = some (n : ℤ) ∧
    parseInt (String.ofList ('-' :: Nat.toDigits 10 n)) = some (-(n : ℤ)) := by
  have hdigits : ∀ c ∈ Nat.toDigits 10 n, c.isDigit = true :=
    fun c hc => Nat.isDigit_of_mem_toDigits (by norm_num) le_rfl hc
  have hparse := parseDigits_of_isDigit Nat.toDigits_ne_nil hdigits
  rw [Nat.ofDigitChars_toDigits (by norm_num) le_rfl] at hparse
  obtain ⟨d, rest, heq, hd, hrest⟩ := toDigits_eq_cons n
  rw [heq] at hparse ⊢
  obtain ⟨hplus, hminus⟩ := parseInt_digit hd (not_mem_head?_of_isDigit hrest (by decide))
    (not_mem_head?_of_isDigit hrest (by decide))
  rw [hplus, hminus, hparse]
  exact ⟨rfl, rfl⟩

/-- Of a number in exponential form only the first digit is read. -/
theorem parseInt_exponential (y : ℕ) : ∃ k : ℕ, k < 10 ∧
    parseInt (String.ofList (exponential y)) = some (k : ℤ) ∧
      parseInt (String.ofList ('-' :: exponential y)) = some (-(k : ℤ)) := by
  obtain ⟨d, rest, heq, hd, -⟩ := toDigits_eq_cons y
  obtain ⟨c, tail, hexp, hc⟩ : ∃ c tail, exponential y = d :: c :: tail ∧ (c = '.' ∨ c = 'e') := by
    simp only [exponential, heq]
    split
    · exact ⟨_, _, rfl, .inr rfl⟩
    · exact ⟨_, _, rfl, .inl rfl⟩
  have hfirst : (digit 10 d).isSome = true := by
    rw [digit_of_isDigit hd]
    rfl
  have hstop : digit 10 c = none := by rcases hc with rfl | rfl <;> decide
  have hparse : parseDigits 10 (d :: c :: tail) = some (d.toNat - 48) := by
    rw [parseDigits, List.takeWhile_cons_of_pos (by simp [hfirst]), List.takeWhile_cons_of_neg (by simp [hstop])]
    simp [digit_of_isDigit hd]
  have hhex : ∀ x, x ≠ '.' → x ≠ 'e' → x ∉ (c :: tail).head? := by
    rintro x hdot he hx
    cases hx
    rcases hc with rfl | rfl
    · exact hdot rfl
    · exact he rfl
  obtain ⟨hplus, hminus⟩ := parseInt_digit hd (hhex 'x' (by decide) (by decide)) (hhex 'X' (by decide) (by decide))
  obtain ⟨hlow, hhigh⟩ := bounds_of_isDigit hd
  refine ⟨d.toNat - 48, by omega, ?_, ?_⟩
  · rw [hexp, hplus, hparse]
    rfl
  · rw [hexp, hminus, hparse]
    rfl

/-! ## Written numbers -/

/-- The text writes a number, with all its digits. -/
def IsNumeral (text : String) : Prop :=
  ∃ x : ℤ, Number.ofInt x = x ∧ shortest x.natAbs < 10 ^ 21 ∧ String.ofList (integerText x) = text

theorem integerText_of_lt {x : ℤ} (h : shortest x.natAbs < 10 ^ 21) :
    integerText x = if x < 0 then '-' :: Nat.toDigits 10 (shortest x.natAbs) else Nat.toDigits 10 (shortest x.natAbs) := by
  rw [integerText, naturalText, if_pos h]

/-- Small numbers are written with their own digits. -/
theorem integerText_natCast {n : ℕ} (h : n < 2 ^ 53) : integerText n = Nat.toDigits 10 n := by
  have hshort : shortest n = n := shortest_of_lt h
  have hpos : ¬(n : ℤ) < 0 := by omega
  rw [integerText, if_neg hpos, Int.natAbs_natCast, naturalText, hshort, if_pos (by omega)]

theorem natAbs_ofInt (n : ℤ) : (Number.ofInt n).natAbs = Number.ofNat n.natAbs := by
  cases n with
  | ofNat n => rfl
  | negSucc n => exact Int.natAbs_neg _

theorem ofInt_neg (n : ℕ) : Number.ofInt (-(n : ℤ)) = -(Number.ofNat n : ℤ) := by
  cases n with
  | zero => rfl
  | succ n => rfl

/-- Numbers of 21 digits are finite. -/
theorem Whole.ofInt_of_lt {n : ℤ} (h : n.natAbs < 10 ^ 21) : Whole.ofInt n = .finite (Number.ofInt n) := by
  have hlog : Nat.log2 (Number.ofInt n).natAbs < 1024 := by
    rw [natAbs_ofInt]
    rcases Nat.eq_zero_or_pos n.natAbs with h0 | hpos
    · rw [h0]
      decide +kernel
    · obtain ⟨hlow, hhigh⟩ := log2_bounds_ofNat hpos.ne'
      have h70 : Nat.log2 n.natAbs < 70 := (Nat.log2_lt hpos.ne').2 (h.trans (by norm_num))
      have hne : Number.ofNat n.natAbs ≠ 0 := ((Nat.two_pow_pos _).trans_le hlow).ne'
      have hlast : Nat.log2 (Number.ofNat n.natAbs) < Nat.log2 n.natAbs + 2 := by
        rw [Nat.log2_lt hne]
        exact hhigh.trans_lt (Nat.pow_lt_pow_right (by norm_num) (Nat.lt_succ_self _))
      omega
  rw [Whole.ofInt, ofBigInt, if_pos hlog]

theorem text_ofInt_natCast {n : ℕ} (h : n < 2 ^ 53) : (Whole.ofInt n).text = toString n := by
  have hlt : (n : ℤ).natAbs < 10 ^ 21 := by
    rw [Int.natAbs_natCast]
    omega
  rw [Whole.ofInt_of_lt hlt, ofInt_natCast h, Whole.text, integerText_natCast h, Nat.toString_eq_ofList_toDigits]

/-- A written number is read as its digits, and these are rounded to it. -/
theorem parseInt_integerText {x : ℤ} (hx : Number.ofInt x = x) (h : shortest x.natAbs < 10 ^ 21) :
    ∃ n : ℤ, parseInt (String.ofList (integerText x)) = some n ∧ n.natAbs < 10 ^ 21 ∧ Number.ofInt n = x := by
  obtain ⟨hplus, hminus⟩ := parseInt_toDigits (shortest x.natAbs)
  have hback : Number.ofNat (shortest x.natAbs) = x.natAbs := ofNat_shortest (by rw [← natAbs_ofInt, hx])
  rw [integerText_of_lt h]
  split
  next hneg =>
    refine ⟨_, hminus, by rwa [Int.natAbs_neg, Int.natAbs_natCast], ?_⟩
    rw [ofInt_neg, hback]
    omega
  next hpos =>
    refine ⟨_, hplus, by rwa [Int.natAbs_natCast], ?_⟩
    show ((Number.ofNat (shortest x.natAbs) : ℕ) : ℤ) = x
    rw [hback]
    omega

/-- A number in exponential form is not read back. -/
theorem parseInt_integerText_of_le {x : ℤ} (h : 10 ^ 21 ≤ shortest x.natAbs) :
    ∃ n : ℤ, parseInt (String.ofList (integerText x)) = some n ∧ n.natAbs < 10 := by
  obtain ⟨k, hk, hplus, hminus⟩ := parseInt_exponential (shortest x.natAbs)
  rw [integerText, naturalText, if_neg (not_lt.2 h)]
  split
  · exact ⟨_, hminus, by rwa [Int.natAbs_neg, Int.natAbs_natCast]⟩
  · exact ⟨_, hplus, by rwa [Int.natAbs_natCast]⟩

/-- **A text that is read as a number is the text of this number exactly if it is a numeral.** -/
theorem text_eq_iff {text : String} {n : ℤ} (h : parseInt text = some n) :
    (Whole.ofInt n).text = text ↔ IsNumeral text := by
  constructor
  · intro htext
    cases hfinite : ofBigInt n with
    | none =>
      rw [Whole.ofInt, hfinite] at htext
      have hnan : parseInt text = none := by
        rw [← htext]
        cases decide (n < 0) <;> decide +kernel
      rw [hnan] at h
      cases h
    | some x =>
      rw [Whole.ofInt, hfinite] at htext
      obtain rfl : Number.ofInt n = x := by
        unfold ofBigInt at hfinite
        split at hfinite
        · exact Option.some.inj hfinite
        · cases hfinite
      have hexact : Number.ofInt (Number.ofInt n) = Number.ofInt n := by
        rw [ofInt_eq_self_iff, natAbs_ofInt]
        exact isExact_ofNat _
      refine ⟨_, hexact, ?_, htext⟩
      by_contra hlarge
      obtain ⟨m, hm, hlt⟩ := parseInt_integerText_of_le (not_lt.1 hlarge)
      -- the text is read as its first digit, which is not rounded
      obtain rfl : m = n := Option.some.inj (hm.symm.trans ((congrArg parseInt htext).trans h))
      have hself : Number.ofNat m.natAbs = m.natAbs := ofNat_of_lt (by omega)
      rw [natAbs_ofInt, hself, shortest_of_lt (by omega)] at hlarge
      omega
  · rintro ⟨x, hx, hlt, rfl⟩
    obtain ⟨m, hm, hmlt, rfl⟩ := parseInt_integerText hx hlt
    obtain rfl : m = n := Option.some.inj (hm.symm.trans h)
    rw [Whole.ofInt_of_lt hmlt]
    rfl

/-- Of the texts of a number below `2 ^ 53` its decimal digits are the numeral. -/
theorem isNumeral_iff_of_lt {text : String} {n : ℤ} (h : parseInt text = some n) (hlt : n.natAbs < 2 ^ 53) :
    IsNumeral text ↔ text = toString n := by
  have hexact : Number.ofInt n = n := ofInt_eq_self_iff.2 ⟨n.natAbs, 0, by simp, hlt⟩
  have htext : String.ofList (integerText n) = toString n := by
    cases n with
    | ofNat n =>
      have hn : n < 2 ^ 53 := hlt
      rw [Int.ofNat_eq_natCast, integerText_natCast hn, toString_natCast, Nat.toString_eq_ofList_toDigits]
    | negSucc n =>
      have hshort : shortest (n + 1) = n + 1 := shortest_of_lt hlt
      have hsmall : n + 1 < 10 ^ 21 := hlt.trans (by norm_num)
      rw [integerText, if_pos (Int.negSucc_lt_zero n), Int.natAbs_negSucc, naturalText, hshort, if_pos hsmall,
        ← String.toList_inj]
      simp [toString, Int.repr]
  rw [← text_eq_iff h, Whole.ofInt_of_lt (hlt.trans (by norm_num)), hexact, ← htext]
  exact eq_comm

/-! ## Separators -/

theorem isDigit_or_of_mem_exponential {y : ℕ} {c : Char} (h : c ∈ exponential y) :
    c.isDigit = true ∨ c = '.' ∨ c = 'e' ∨ c = '+' := by
  have hdigit : ∀ n c, c ∈ Nat.toDigits 10 n → c.isDigit = true :=
    fun n c hc => Nat.isDigit_of_mem_toDigits (by norm_num) le_rfl hc
  simp only [exponential, List.mem_append, List.mem_cons] at h
  rcases h with (h | h) | rfl | rfl | h
  · exact .inl (hdigit y c (List.mem_of_mem_take h))
  · split at h
    · cases h
    · rcases List.mem_cons.1 h with rfl | h
      · exact .inr (.inl rfl)
      · exact .inl (hdigit y c (List.mem_of_mem_drop ((List.rdropWhile_prefix _ _).subset h)))
  · exact .inr (.inr (.inl rfl))
  · exact .inr (.inr (.inr rfl))
  · exact .inl (hdigit _ c h)

/-- No slash occurs in the text of a number. -/
theorem not_mem_text (value : Whole) : '/' ∉ value.text.toList := by
  have hnatural : ∀ x, '/' ∉ naturalText x := by
    intro x h
    rw [naturalText] at h
    split at h
    · exact absurd (Nat.isDigit_of_mem_toDigits (by norm_num) le_rfl h) (by decide)
    · exact absurd (isDigit_or_of_mem_exponential h) (by decide)
  cases value with
  | infinity negative => cases negative <;> decide
  | finite x =>
    rw [Whole.text, String.toList_ofList, integerText]
    split
    · exact fun h => (List.mem_cons.1 h).elim (by decide) (hnatural _)
    · exact hnatural _

end JsWaku.Text
