import Mathlib.Algebra.BigOperators.Group.Finset.Basic
import Mathlib.Algebra.Order.BigOperators.Group.Finset
import Mathlib.Data.Fintype.Basic

/-!
# Choosing items to fill quotas

Items have features, and of each feature a number is wanted. A list of items to which only useful ones were added, each
with a feature that was missing then, is `Greedy`; it is no longer than all that is wanted (`Greedy.length_le`), since
every item fills a part of the `deficit`. What is useless stays useless when items are added (`Useful.of_append`).
-/

namespace Quota

variable {ι α : Type*} {has : α → ι → Bool} {wanted : ι → ℕ} {items : List α} {item : α}

/-! ## Definitions -/

/-- How many of the items have a feature. -/
def provided (has : α → ι → Bool) (items : List α) (i : ι) : ℕ := items.countP (has · i)

/-- Fewer items have the feature than wanted. -/
def Missing (has : α → ι → Bool) (wanted : ι → ℕ) (items : List α) (i : ι) : Prop := provided has items i < wanted i

/-- The item has a feature that is missing. -/
def Useful (has : α → ι → Bool) (wanted : ι → ℕ) (items : List α) (item : α) : Prop :=
  ∃ i, Missing has wanted items i ∧ has item i = true

/-- Each item was useful when it was added. -/
def Greedy (has : α → ι → Bool) (wanted : ι → ℕ) (items : List α) : Prop :=
  ∀ before item after, items = before ++ item :: after → Useful has wanted before item

/-- What is missing of all features. -/
def deficit [Fintype ι] (has : α → ι → Bool) (wanted : ι → ℕ) (items : List α) : ℕ :=
  ∑ i, (wanted i - provided has items i)

/-! ## One more item -/

@[simp] theorem provided_nil (has : α → ι → Bool) (i : ι) : provided has [] i = 0 := rfl

theorem provided_append (has : α → ι → Bool) (items more : List α) (i : ι) :
    provided has (items ++ more) i = provided has items i + provided has more i :=
  List.countP_append

theorem provided_singleton (has : α → ι → Bool) (item : α) (i : ι) :
    provided has [item] i = if has item i then 1 else 0 := by
  simp [provided, List.countP_cons]

/-- What is useful was useful before. -/
theorem Useful.of_append {more : List α} (h : Useful has wanted (items ++ more) item) : Useful has wanted items item := by
  obtain ⟨i, hmissing, hhas⟩ := h
  refine ⟨i, ?_, hhas⟩
  rw [Missing, provided_append] at hmissing
  exact (Nat.le_add_right _ _).trans_lt hmissing

theorem greedy_nil : Greedy has wanted [] := by
  intro before item after h
  cases before <;> cases h

theorem Greedy.append_singleton (h : Greedy has wanted items) (hitem : Useful has wanted items item) :
    Greedy has wanted (items ++ [item]) := by
  intro before x after heq
  rcases List.eq_nil_or_concat after with rfl | ⟨after, y, rfl⟩
  · obtain ⟨rfl, hx⟩ := List.append_inj' heq rfl
    cases hx
    exact hitem
  · rw [List.concat_eq_append, ← List.cons_append, ← List.append_assoc] at heq
    exact h before x after (List.append_inj' heq rfl).1

/-- The items before the last one. -/
theorem Greedy.of_append_singleton (h : Greedy has wanted (items ++ [item])) :
    Greedy has wanted items ∧ Useful has wanted items item := by
  refine ⟨?_, h items item [] rfl⟩
  rintro before x after rfl
  exact h before x (after ++ [item]) (by simp)

/-! ## Length -/

section

variable [Fintype ι]

theorem deficit_nil : deficit has wanted [] = ∑ i, wanted i := rfl

/-- A useful item fills a part of the deficit. -/
theorem deficit_lt (h : Useful has wanted items item) :
    deficit has wanted (items ++ [item]) < deficit has wanted items := by
  obtain ⟨i, hmissing, hhas⟩ := h
  rw [Missing] at hmissing
  refine Finset.sum_lt_sum (fun j _ => ?_) ⟨i, Finset.mem_univ i, ?_⟩
  · rw [provided_append]
    omega
  · rw [provided_append, provided_singleton, if_pos hhas]
    omega

/-- **Greedy items are no more than is wanted.** -/
theorem Greedy.length_le (h : Greedy has wanted items) : items.length + deficit has wanted items ≤ ∑ i, wanted i := by
  induction items using List.reverseRecOn with
  | nil => rw [deficit_nil, List.length_nil, Nat.zero_add]
  | append_singleton items item ih =>
    obtain ⟨hitems, hitem⟩ := h.of_append_singleton
    have hlt := deficit_lt hitem
    have hle := ih hitems
    rw [List.length_append, List.length_singleton]
    omega

end

end Quota
