import Mathlib.Data.List.Nodup

/-!
# JavaScript sets

`Set` as the list of its members in the order in which they were first added: `add`, and `Array.from(new Set(list))`,
which is `List.eraseDups`. Adding the members of a list one by one gives the same (`foldl_add`), the result has no
duplicates (`nodup_eraseDups`), and an injective function commutes with it (`eraseDups_map`).
-/

namespace JsWaku.JsSet

variable {α β : Type*} [DecidableEq α] [DecidableEq β]

/-- `set.add(value)`. -/
def add (s : List α) (value : α) : List α := if value ∈ s then s else s ++ [value]

theorem nodup_eraseDups (l : List α) : l.eraseDups.Nodup := by
  match l with
  | [] => simp
  | a :: l =>
    have : (l.filter fun b => !b == a).length < l.length + 1 := Nat.lt_succ_of_le (List.length_filter_le _ l)
    rw [List.eraseDups_cons, List.nodup_cons]
    exact ⟨by simp, nodup_eraseDups _⟩
termination_by l.length

theorem eraseDups_of_nodup {l : List α} (h : l.Nodup) : l.eraseDups = l := by
  induction l with
  | nil => rfl
  | cons a l ih =>
    obtain ⟨ha, hl⟩ := List.nodup_cons.1 h
    have hfilter : (l.filter fun b => !b == a) = l := by
      rw [List.filter_eq_self]
      intro b hb
      have hne : b ≠ a := fun hba => ha (hba ▸ hb)
      simpa using hne
    rw [List.eraseDups_cons, hfilter, ih hl]

/-- An injective function keeps the members apart. -/
theorem eraseDups_map {f : α → β} (hf : Function.Injective f) (l : List α) :
    (l.map f).eraseDups = l.eraseDups.map f := by
  match l with
  | [] => rfl
  | a :: l =>
    have : (l.filter fun b => !b == a).length < l.length + 1 := Nat.lt_succ_of_le (List.length_filter_le _ l)
    have hfilter : ((l.map f).filter fun b => !b == f a) = (l.filter fun b => !b == a).map f := by
      rw [List.filter_map]
      exact congrArg (List.map f) (List.filter_congr fun b _ => by simp [hf.eq_iff])
    rw [List.map_cons, List.eraseDups_cons, hfilter, eraseDups_map hf, List.eraseDups_cons, List.map_cons]
termination_by l.length

/-- Adding the members of a list one by one. -/
theorem foldl_add {s : List α} (hs : s.Nodup) (l : List α) : l.foldl add s = (s ++ l).eraseDups := by
  induction l generalizing s with
  | nil => rw [List.append_nil, eraseDups_of_nodup hs]; rfl
  | cons a l ih =>
    by_cases ha : a ∈ s
    · have hdrop : (a :: l).removeAll s = l.removeAll s := by
        rw [List.removeAll, List.filter_cons_of_neg (by simpa using ha)]
        rfl
      rw [List.foldl_cons, add, if_pos ha, ih hs, List.eraseDups_append, List.eraseDups_append, hdrop]
    · have hnodup : (s ++ [a]).Nodup := List.Nodup.append hs (List.nodup_singleton a) (by simpa using ha)
      rw [List.foldl_cons, add, if_neg ha, ih hnodup, List.append_assoc]
      rfl

/-- All values equal: one member. -/
theorem eraseDups_replicate (a : α) {n : ℕ} (h : n ≠ 0) : (List.replicate n a).eraseDups = [a] := by
  obtain ⟨n, rfl⟩ := Nat.exists_eq_succ_of_ne_zero h
  simp [List.replicate_succ, List.eraseDups_cons]

theorem eraseDups_ne_nil {l : List α} (h : l ≠ []) : l.eraseDups ≠ [] := by
  obtain ⟨a, l, rfl⟩ := List.exists_cons_of_ne_nil h
  simp [List.eraseDups_cons]

end JsWaku.JsSet
