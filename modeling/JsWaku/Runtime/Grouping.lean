import JsWaku.Runtime.JsSet
import JsWaku.Runtime.Map
import Mathlib.Data.List.Induction

/-!
# Grouping into a map of lists

A loop that pushes each value onto the list of its key, which is made where there is none. The keys are those of the
values in order of first occurrence (`keys_grouped`), each with its values in order (`get_grouped`), and no value is lost
or put twice (`perm_grouped`).
-/

namespace JsWaku.Map

variable {κ ν : Type*} [DecidableEq κ]

/-- `map.get(key).push(value)`, on a new list if there is none. -/
def push (m : Map κ (List ν)) (key : κ) (value : ν) : Map κ (List ν) := m.set key ((m.get key).getD [] ++ [value])

/-- The values by their keys. -/
def grouped (l : List (κ × ν)) : Map κ (List ν) := l.foldl (fun m entry => m.push entry.1 entry.2) empty

theorem grouped_append (l : List (κ × ν)) (entry : κ × ν) :
    grouped (l ++ [entry]) = (grouped l).push entry.1 entry.2 := by
  rw [grouped, List.foldl_append]
  rfl

/-- Each key has its values in order. -/
theorem get_grouped (l : List (κ × ν)) (key : κ) :
    (grouped l).get key =
      if key ∈ l.map Prod.fst then some ((l.filter fun entry => entry.1 = key).map Prod.snd) else none := by
  induction l using List.reverseRecOn with
  | nil => rfl
  | append_singleton l entry ih =>
    obtain ⟨k, v⟩ := entry
    rw [grouped_append, push]
    by_cases hkey : key = k
    · subst hkey
      rw [get_set_self, ih]
      by_cases hmem : key ∈ l.map Prod.fst
      · rw [if_pos hmem]
        simp
      · have hnone : l.filter (fun entry => entry.1 = key) = [] := by
          refine List.filter_eq_nil_iff.2 fun entry hentry => ?_
          have hne : entry.1 ≠ key := fun h => hmem (h ▸ List.mem_map_of_mem hentry)
          simpa using hne
        rw [if_neg hmem]
        simp [hnone]
    · have hne : ¬k = key := fun h => hkey h.symm
      rw [get_set_ne _ _ hkey, ih, List.filter_append]
      have hmem : key ∈ (l ++ [(k, v)]).map Prod.fst ↔ key ∈ l.map Prod.fst := by
        rw [List.map_append, List.mem_append]
        exact or_iff_left fun h => hkey (List.mem_singleton.1 h)
      have hlast : [(k, v)].filter (fun entry : κ × ν => entry.1 = key) = [] := by simp [hne]
      rw [hlast, List.append_nil]
      simp only [hmem]

theorem keys_set (m : Map κ ν) (key : κ) (value : ν) : (m.set key value).keys = JsSet.add m.keys key :=
  map_fst_setEntry key value m.entries

/-- The keys come in order of first occurrence. -/
theorem keys_grouped (l : List (κ × ν)) : (grouped l).keys = (l.map Prod.fst).eraseDups := by
  have hfold : (l.map Prod.fst).foldl JsSet.add [] = (grouped l).keys := by
    induction l using List.reverseRecOn with
    | nil => rfl
    | append_singleton l entry ih =>
      rw [grouped_append, push, keys_set, List.map_append, List.foldl_append, ih]
      rfl
  rw [← hfold, JsSet.foldl_add List.nodup_nil, List.nil_append]

/-- A push adds one value. -/
theorem perm_push (m : Map κ (List ν)) (key : κ) (value : ν) :
    ((m.push key value).entries.flatMap Prod.snd).Perm (m.entries.flatMap Prod.snd ++ [value]) := by
  have hentries : ∀ entries : List (κ × List ν),
      ((setEntry key ((entries.lookup key).getD [] ++ [value]) entries).flatMap Prod.snd).Perm
        (entries.flatMap Prod.snd ++ [value]) := by
    intro entries
    induction entries with
    | nil => simp [setEntry]
    | cons entry rest ih =>
      obtain ⟨k, vs⟩ := entry
      by_cases hkey : k = key
      · subst hkey
        simp only [setEntry, if_true, List.lookup_cons_self, Option.getD_some, List.flatMap_cons, List.append_assoc]
        exact List.Perm.append_left vs List.perm_append_comm
      · have hbeq : (key == k) = false := by simpa using fun h : key = k => hkey h.symm
        rw [setEntry, if_neg hkey, List.lookup_cons, hbeq, List.flatMap_cons, List.flatMap_cons, List.append_assoc]
        exact List.Perm.append_left vs ih
  exact hentries m.entries

/-- No value is lost or put twice. -/
theorem perm_grouped (l : List (κ × ν)) : ((grouped l).entries.flatMap Prod.snd).Perm (l.map Prod.snd) := by
  induction l using List.reverseRecOn with
  | nil => exact List.Perm.refl _
  | append_singleton l entry ih =>
    rw [grouped_append, List.map_append]
    exact (perm_push _ _ _).trans (ih.append_right _)

end JsWaku.Map
