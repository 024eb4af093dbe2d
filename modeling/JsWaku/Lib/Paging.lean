import Mathlib.Data.List.Basic

/-!
# Paging through a list with a cursor

The elements after and before a cursor in a list with distinct keys, and their pages of at most `L` elements. A page
ends where the next one starts: the elements past the cursor that a page leaves are those the page did not hold
(`remaining_next`).
-/

namespace Paging

variable {α κ : Type*}

/-! ## The elements past a cursor -/

section

variable (key : α → κ) [DecidableEq κ]

/-- The elements after the cursor, all of them without a cursor. -/
def after (xs : List α) : Option κ → List α
  | none => xs
  | some k => (xs.dropWhile fun x => key x ≠ k).tail

/-- The elements before the cursor, all of them without a cursor. -/
def before (xs : List α) : Option κ → List α
  | none => xs
  | some k => xs.takeWhile fun x => key x ≠ k

/-- The elements still to come. -/
def remaining (forward : Bool) (xs : List α) (cursor : Option κ) : List α :=
  if forward then after key xs cursor else before key xs cursor

omit [DecidableEq κ] in
/-- The elements before a key are not the one that has it. -/
theorem ne_of_split {l r : List α} {x : α} (h : ((l ++ x :: r).map key).Nodup) : ∀ y ∈ l, key y ≠ key x := by
  intro y hy heq
  rw [List.map_append, List.map_cons, List.nodup_append] at h
  exact h.2.2 (key y) (List.mem_map_of_mem hy) (key x) (by simp) heq

theorem after_split {l r : List α} {x : α} (h : ((l ++ x :: r).map key).Nodup) :
    after key (l ++ x :: r) (some (key x)) = r := by
  rw [after, List.dropWhile_append_of_pos (by simpa using ne_of_split key h)]
  simp

theorem before_split {l r : List α} {x : α} (h : ((l ++ x :: r).map key).Nodup) :
    before key (l ++ x :: r) (some (key x)) = l := by
  rw [before, List.takeWhile_append_of_pos (by simpa using ne_of_split key h)]
  simp

theorem isSuffix_after (xs : List α) (cursor : Option κ) : after key xs cursor <:+ xs := by
  cases cursor with
  | none => exact List.suffix_rfl
  | some k => exact (List.tail_suffix _).trans (List.dropWhile_suffix _)

theorem isPrefix_before (xs : List α) (cursor : Option κ) : before key xs cursor <+: xs := by
  cases cursor with
  | none => exact List.prefix_rfl
  | some k => exact List.takeWhile_prefix _

end

/-! ## Pages -/

/-- The next page: the first `L` of the elements forward, the last `L` of them backward. -/
def page (forward : Bool) (L : ℕ) (rest : List α) : List α :=
  if forward then rest.take L else rest.drop (rest.length - L)

/-- What the next page leaves. -/
def leftover (forward : Bool) (L : ℕ) (rest : List α) : List α :=
  if forward then rest.drop L else rest.take (rest.length - L)

/-- The element of a page next to what it leaves. -/
def cursorElem (forward : Bool) (xs : List α) (h : xs ≠ []) : α :=
  if forward then xs.getLast h else xs.head h

/-- Pages put back together: in the order they came, or backward in the reverse order. -/
def joined (forward : Bool) (pages : List (List α)) : List α :=
  if forward then pages.flatten else pages.reverse.flatten

theorem joined_nil (forward : Bool) : joined forward ([] : List (List α)) = [] := by
  cases forward <;> rfl

/-- The images of a page and of what comes after it give the images of the elements back. -/
theorem joined_cons_page {β : Type*} (f : α → β) (forward : Bool) (L : ℕ) (rest : List α) {pages : List (List β)}
    (h : joined forward pages = (leftover forward L rest).map f) :
    joined forward ((page forward L rest).map f :: pages) = rest.map f := by
  cases forward with
  | true =>
    have h' : pages.flatten = (rest.drop L).map f := h
    simp only [joined, page, if_true, List.flatten_cons, h']
    rw [← List.map_append, List.take_append_drop]
  | false =>
    have h' : pages.reverse.flatten = (rest.take (rest.length - L)).map f := h
    simp only [joined, page, Bool.false_eq_true, if_false, List.reverse_cons, List.flatten_append, h']
    rw [List.flatten_cons, List.flatten_nil, List.append_nil, ← List.map_append, List.take_append_drop]

theorem length_page (forward : Bool) (L : ℕ) (rest : List α) : (page forward L rest).length = min L rest.length := by
  cases forward with
  | true => simp [page]
  | false => simp [page]; omega

theorem length_leftover (forward : Bool) (L : ℕ) (rest : List α) :
    (leftover forward L rest).length = rest.length - L := by
  cases forward with
  | true => simp [leftover]
  | false => simp [leftover]

/-- Only the end gives an empty page. -/
theorem page_eq_nil_iff (forward : Bool) {L : ℕ} (hL : 0 < L) (rest : List α) :
    page forward L rest = [] ↔ rest = [] := by
  rw [← List.length_eq_zero_iff, ← List.length_eq_zero_iff, length_page]
  omega

/-- **A page leaves what it did not hold.** With distinct keys, the elements past the key of the page's last element
in the paging direction are the leftover. -/
theorem remaining_next [DecidableEq κ] {key : α → κ} (forward : Bool) (L : ℕ) {xs : List α} (hnd : (xs.map key).Nodup)
    (cursor : Option κ) (h : page forward L (remaining key forward xs cursor) ≠ []) :
    remaining key forward xs (some (key (cursorElem forward _ h))) =
      leftover forward L (remaining key forward xs cursor) := by
  cases forward with
  | true =>
    obtain ⟨pre, hpre⟩ := isSuffix_after key xs cursor
    have h' : (after key xs cursor).take L ≠ [] := h
    have hxs : pre ++ ((after key xs cursor).take L).dropLast ++
        ((after key xs cursor).take L).getLast h' :: (after key xs cursor).drop L = xs := by
      rw [List.append_assoc, List.append_cons _ _ (List.drop L _), List.dropLast_append_getLast, List.take_append_drop, hpre]
    have hafter := after_split key (hxs ▸ hnd)
    rw [hxs] at hafter
    exact hafter
  | false =>
    obtain ⟨post, hpost⟩ := isPrefix_before key xs cursor
    set rest := before key xs cursor with hrest
    have h' : rest.drop (rest.length - L) ≠ [] := h
    have hxs : rest.take (rest.length - L) ++
        (rest.drop (rest.length - L)).head h' :: ((rest.drop (rest.length - L)).tail ++ post) = xs := by
      rw [← List.cons_append, List.cons_head_tail, ← List.append_assoc, List.take_append_drop, hpost]
    have hbefore := before_split key (hxs ▸ hnd)
    rw [hxs] at hbefore
    exact hbefore

/-! ## How many pages -/

/-- The number of pages of size `L` that hold `n` elements: `n / L` rounded up. -/
def pageCount (n L : ℕ) : ℕ := (n + L - 1) / L

theorem pageCount_zero {L : ℕ} (hL : 0 < L) : pageCount 0 L = 0 :=
  Nat.div_eq_of_lt (by omega)

/-- Each page takes one off the count. -/
theorem pageCount_step {n L : ℕ} (hn : 0 < n) (hL : 0 < L) : pageCount n L = pageCount (n - L) L + 1 := by
  have hsplit : n + L - 1 = (n - 1) + L := by omega
  rw [pageCount, hsplit, Nat.add_div_right _ hL]
  rcases Nat.lt_or_ge L n with hlt | hge
  · rw [pageCount, show n - L + L - 1 = n - 1 by omega]
  · rw [Nat.sub_eq_zero_of_le hge, pageCount_zero hL, Nat.div_eq_of_lt (by omega)]

end Paging
