import Mathlib.Data.Int.Notation
import Mathlib.Data.List.Basic

/-!
# JavaScript strings

`startsWith`, `endsWith`, `includes`, `toLowerCase`, `slice` from an index on and up to one, the two uses of `split`: at a
character, and the first piece at a longer separator, and `parseInt`.
-/

namespace JsWaku.Text

/-- `text.startsWith(start)`. -/
def startsWith (text start : String) : Bool := start.toList.isPrefixOf text.toList

/-- `text.endsWith(stop)`. -/
def endsWith (text stop : String) : Bool := stop.toList.isSuffixOf text.toList

/-- `text.includes(part)`. -/
def includes (text part : String) : Bool := text.toList.tails.any part.toList.isPrefixOf

/-- `text.toLowerCase()` on the letters of ASCII. -/
def toLowerCase (text : String) : String := text.map Char.toLower

/-- `text.slice(start)`, for a start that is not negative. -/
def sliceFrom (text : String) (start : ℕ) : String := String.ofList (text.toList.drop start)

/-- `text.slice(0, stop)`, for a stop that is not negative. -/
def sliceTo (text : String) (stop : ℕ) : String := String.ofList (text.toList.take stop)

/-- `text.split(separator)`, for one character. -/
def split (separator : Char) (text : String) : List String := (text.toList.splitOn separator).map String.ofList

/-- The characters before the first occurrence of the separator, all if there is none. -/
def before (separator : List Char) : List Char → List Char
  | [] => []
  | c :: text => if separator.isPrefixOf (c :: text) then [] else c :: before separator text

/-- `text.split(separator)[0]`. -/
def splitHead (separator text : String) : String := String.ofList (before separator.toList text.toList)

/-- `text.split(separator)[1]`, for a text that starts with the separator. -/
def splitSecond (separator text : String) : String :=
  String.ofList (before separator.toList (text.toList.drop separator.toList.length))

/-- White space and line terminators. -/
def isWhiteSpace (c : Char) : Bool :=
  [9, 10, 11, 12, 13, 32, 160, 5760, 8232, 8233, 8239, 8287, 12288, 65279].contains c.toNat ||
    (8192 ≤ c.toNat && c.toNat ≤ 8202)

/-- The value of a digit of the radix. -/
def digit (radix : ℕ) (c : Char) : Option ℕ :=
  let value :=
    if '0' ≤ c ∧ c ≤ '9' then some (c.toNat - 48)
    else if 'a' ≤ c ∧ c ≤ 'f' then some (c.toNat - 87)
    else if 'A' ≤ c ∧ c ≤ 'F' then some (c.toNat - 55)
    else none
  value.filter (· < radix)

/-- The number that the digits at the start of a text write, `none` if there is no digit. -/
def parseDigits (radix : ℕ) (text : List Char) : Option ℕ :=
  match text.takeWhile fun c => (digit radix c).isSome with
  | [] => none
  | digits => some (digits.foldl (fun value c => value * radix + (digit radix c).getD 0) 0)

/-- `parseInt(text)`, before the rounding of large numbers; `none` is `NaN`. -/
def parseInt (text : String) : Option ℤ :=
  let trimmed := text.toList.dropWhile isWhiteSpace
  let (sign, unsigned) : ℤ × List Char :=
    match trimmed with
    | '-' :: rest => (-1, rest)
    | '+' :: rest => (1, rest)
    | rest => (1, rest)
  let value :=
    match unsigned with
    | '0' :: 'x' :: rest | '0' :: 'X' :: rest => parseDigits 16 rest
    | rest => parseDigits 10 rest
  value.map fun n => sign * n

theorem startsWith_append (start rest : String) : startsWith (start ++ rest) start = true := by
  rw [startsWith, List.isPrefixOf_iff_prefix, String.toList_append]
  exact List.prefix_append _ _

/-- What comes before a separator is not in a beginning without its first character. -/
theorem before_append {c : Char} {separator text : List Char} (h : c ∉ text) (rest : List Char) :
    before (c :: separator) (text ++ rest) = text ++ before (c :: separator) rest := by
  induction text with
  | nil => rfl
  | cons d text ih =>
    rw [List.mem_cons, not_or] at h
    rw [List.cons_append, before, if_neg (by simp [h.1]), ih h.2, List.cons_append]

/-- Its first character is passed over where the rest of the separator does not follow. -/
theorem before_append_cons {c : Char} {separator text rest : List Char} (h : c ∉ text)
    (hrest : separator.isPrefixOf rest = false) :
    before (c :: separator) (text ++ c :: rest) = text ++ c :: before (c :: separator) rest := by
  have hno : ¬(c :: separator).isPrefixOf (c :: rest) = true := by simp [hrest]
  rw [before_append h, before, if_neg hno]

theorem before_append_separator {c : Char} {separator text : List Char} (h : c ∉ text) (rest : List Char) :
    before (c :: separator) (text ++ c :: (separator ++ rest)) = text := by
  have hprefix : (c :: separator).isPrefixOf (c :: (separator ++ rest)) = true :=
    List.isPrefixOf_iff_prefix.2 (List.prefix_append (c :: separator) rest)
  rw [before_append h, before, if_pos hprefix, List.append_nil]

/-- A text without the first character of the separator has one piece. -/
theorem before_eq_self {c : Char} {separator text : List Char} (h : c ∉ text) :
    before (c :: separator) text = text := by
  have happend := @before_append c separator text h []
  rwa [List.append_nil, before, List.append_nil] at happend

/-- The pieces between separators, joined. -/
theorem toList_of_split {separator : Char} {text : String} {pieces : List String} (h : split separator text = pieces) :
    text.toList = [separator].intercalate (pieces.map String.toList) := by
  have hpieces : (text.toList.splitOn separator) = pieces.map String.toList := by
    rw [← h, split, List.map_map]
    exact ((List.map_congr_left fun piece _ => String.toList_ofList).trans (List.map_id _)).symm
  rw [← hpieces, List.intercalate_splitOn]

theorem not_mem_of_mem_splitOn {separator : Char} {text piece : List Char} (h : piece ∈ text.splitOn separator) :
    separator ∉ piece := by
  induction text generalizing piece with
  | nil =>
    rw [List.splitOn_nil, List.mem_singleton] at h
    rw [h]
    exact List.not_mem_nil
  | cons c text ih =>
    rw [List.splitOn_cons_eq_if_modifyHead] at h
    split at h
    · rcases List.mem_cons.1 h with rfl | h
      · exact List.not_mem_nil
      · exact ih h
    · next hc =>
      cases hsplit : text.splitOn separator with
      | nil => exact absurd hsplit (List.splitOn_ne_nil _ _)
      | cons first pieces =>
        rw [hsplit] at h ih
        rcases List.mem_cons.1 h with rfl | h
        · rw [List.mem_cons, not_or]
          exact ⟨fun heq => hc (beq_iff_eq.2 heq.symm), ih List.mem_cons_self⟩
        · exact ih (List.mem_cons_of_mem _ h)

/-- No piece has the separator. -/
theorem not_mem_of_mem_split {separator : Char} {text piece : String} (h : piece ∈ split separator text) :
    separator ∉ piece.toList := by
  obtain ⟨chars, hchars, rfl⟩ := List.mem_map.1 h
  rw [String.toList_ofList]
  exact not_mem_of_mem_splitOn hchars

/-- Splitting undoes joining, for pieces without the separator. -/
theorem split_intercalate {separator : Char} {pieces : List String} (hne : pieces ≠ [])
    (h : ∀ piece ∈ pieces, separator ∉ piece.toList) :
    split separator (String.ofList ([separator].intercalate (pieces.map String.toList))) = pieces := by
  have hpieces : ∀ piece ∈ pieces.map String.toList, separator ∉ piece := by
    intro piece hpiece
    obtain ⟨text, htext, rfl⟩ := List.mem_map.1 hpiece
    exact h text htext
  rw [split, String.toList_ofList, List.splitOn_intercalate separator hpieces (by simpa using hne), List.map_map]
  exact (List.map_congr_left fun piece _ => String.ofList_toList).trans (List.map_id _)

theorem split_injective (separator : Char) : Function.Injective (split separator) := fun s t h => by
  rw [← String.toList_inj, toList_of_split h, toList_of_split rfl]

/-- A text falls into the pieces that it joins and that have no separator. -/
theorem split_eq_iff {separator : Char} {text : String} {pieces : List String} (hne : pieces ≠ []) :
    split separator text = pieces ↔
      text.toList = [separator].intercalate (pieces.map String.toList) ∧ ∀ piece ∈ pieces, separator ∉ piece.toList := by
  constructor
  · rintro rfl
    exact ⟨toList_of_split rfl, fun piece => not_mem_of_mem_split⟩
  · rintro ⟨htext, hpieces⟩
    rw [← split_intercalate hne hpieces, ← htext, String.ofList_toList]

end JsWaku.Text
