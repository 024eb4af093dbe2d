import Mathlib.Data.List.Nodup

/-!
# JavaScript maps

`Map`: entries with distinct keys in the order in which the keys were first set.
-/

namespace JsWaku

/-- A JavaScript `Map`. -/
structure Map (κ ν : Type*) where
  entries : List (κ × ν)
  nodup : (entries.map Prod.fst).Nodup
  deriving DecidableEq

namespace Map

variable {κ ν : Type*}

/-- `new Map()`. -/
def empty : Map κ ν := ⟨[], List.nodup_nil⟩

/-- `Array.from(map.keys())`. -/
def keys (m : Map κ ν) : List κ := m.entries.map Prod.fst

variable [DecidableEq κ]

/-- `map.get(key)`. -/
def get (m : Map κ ν) (key : κ) : Option ν := m.entries.lookup key

/-- Replaces the value of a key in place, or adds the entry at the end. -/
def setEntry (key : κ) (value : ν) : List (κ × ν) → List (κ × ν)
  | [] => [(key, value)]
  | (k, v) :: rest => if k = key then (k, value) :: rest else (k, v) :: setEntry key value rest

theorem map_fst_setEntry (key : κ) (value : ν) (l : List (κ × ν)) :
    (setEntry key value l).map Prod.fst =
      if key ∈ l.map Prod.fst then l.map Prod.fst else l.map Prod.fst ++ [key] := by
  induction l with
  | nil => simp [setEntry]
  | cons entry rest ih =>
    obtain ⟨k, v⟩ := entry
    by_cases hk : k = key
    · simp [setEntry, hk]
    · have hk' : ¬key = k := fun h => hk h.symm
      rw [setEntry, if_neg hk, List.map_cons, ih, List.map_cons]
      by_cases hmem : key ∈ rest.map Prod.fst
      · rw [if_pos hmem, if_pos (List.mem_cons_of_mem _ hmem)]
      · rw [if_neg hmem, if_neg (by simp only [List.mem_cons, not_or]; exact ⟨hk', hmem⟩)]
        rfl

/-- `map.set(key, value)`. -/
def set (m : Map κ ν) (key : κ) (value : ν) : Map κ ν where
  entries := setEntry key value m.entries
  nodup := by
    rw [map_fst_setEntry]
    split
    · exact m.nodup
    · rename_i h
      rw [List.nodup_append]
      refine ⟨m.nodup, List.nodup_singleton key, ?_⟩
      intro a ha b hb hab
      rw [List.mem_singleton] at hb
      exact h (hb ▸ hab ▸ ha)

/-- A key that was just set is found. -/
theorem lookup_setEntry_self (key : κ) (value : ν) (l : List (κ × ν)) :
    (setEntry key value l).lookup key = some value := by
  induction l with
  | nil => simp [setEntry]
  | cons entry rest ih =>
    obtain ⟨k, v⟩ := entry
    by_cases hk : k = key
    · simp [setEntry, hk]
    · have hbeq : (key == k) = false := by simpa using fun h : key = k => hk h.symm
      rw [setEntry, if_neg hk, List.lookup_cons, hbeq]
      exact ih

/-- Other keys keep their values. -/
theorem lookup_setEntry_ne {key other : κ} (value : ν) (h : other ≠ key) (l : List (κ × ν)) :
    (setEntry key value l).lookup other = l.lookup other := by
  induction l with
  | nil => simp [setEntry, h]
  | cons entry rest ih =>
    obtain ⟨k, v⟩ := entry
    by_cases hk : k = key
    · have hbeq : (other == k) = false := by simpa [hk] using h
      rw [setEntry, if_pos hk, List.lookup_cons, List.lookup_cons, hbeq]
    · rw [setEntry, if_neg hk, List.lookup_cons, List.lookup_cons, ih]

/-- `map.has(key)`. -/
def has (m : Map κ ν) (key : κ) : Bool := (m.get key).isSome

/-- `map.delete(key)`. -/
def delete (m : Map κ ν) (key : κ) : Map κ ν where
  entries := m.entries.filter fun entry => entry.1 ≠ key
  nodup := m.nodup.sublist (List.filter_sublist.map Prod.fst)

@[simp] theorem get_set_self (m : Map κ ν) (key : κ) (value : ν) : (m.set key value).get key = some value :=
  lookup_setEntry_self key value m.entries

theorem get_set_ne (m : Map κ ν) {key other : κ} (value : ν) (h : other ≠ key) :
    (m.set key value).get other = m.get other :=
  lookup_setEntry_ne value h m.entries

@[simp] theorem has_set_self (m : Map κ ν) (key : κ) (value : ν) : (m.set key value).has key = true := by
  simp [has]

theorem has_set_ne (m : Map κ ν) {key other : κ} (value : ν) (h : other ≠ key) :
    (m.set key value).has other = m.has other := by
  rw [has, get_set_ne m value h, has]

/-! ## Entries -/

/-- The entries of a map are what `get` finds. -/
theorem mem_entries_iff {m : Map κ ν} {key : κ} {value : ν} : (key, value) ∈ m.entries ↔ m.get key = some value := by
  obtain ⟨entries, hnodup⟩ := m
  simp only [get]
  induction entries with
  | nil => simp
  | cons entry rest ih =>
    obtain ⟨k, v⟩ := entry
    obtain ⟨hk, hrest⟩ := List.nodup_cons.1 hnodup
    by_cases hkey : key = k
    · subst hkey
      have hne : (key, value) ∉ rest := fun hmem => hk (List.mem_map.2 ⟨_, hmem, rfl⟩)
      simp [hne, eq_comm]
    · have hbeq : (key == k) = false := by simpa using hkey
      rw [List.lookup_cons, hbeq, List.mem_cons]
      simp [hkey, ih hrest]

/-- Maps with the same entries in some order are equal to `get`. -/
theorem get_eq_of_perm {m m' : Map κ ν} (h : m.entries.Perm m'.entries) (key : κ) : m.get key = m'.get key :=
  Option.ext fun value => by rw [← mem_entries_iff, ← mem_entries_iff, h.mem_iff]

theorem get_delete_ne (m : Map κ ν) {key other : κ} (h : other ≠ key) : (m.delete key).get other = m.get other := by
  refine Option.ext fun value => ?_
  rw [← mem_entries_iff, ← mem_entries_iff]
  simp [delete, h]

@[simp] theorem get_delete_self (m : Map κ ν) (key : κ) : (m.delete key).get key = none := by
  cases hget : (m.delete key).get key with
  | none => rfl
  | some value =>
    have hentry := mem_entries_iff.2 hget
    simp [delete] at hentry

@[simp] theorem get_empty (key : κ) : (empty : Map κ ν).get key = none := rfl

/-- Deleting the keys of a list. -/
theorem get_foldl_delete (keys : List κ) (m : Map κ ν) (other : κ) :
    (keys.foldl delete m).get other = if other ∈ keys then none else m.get other := by
  induction keys generalizing m with
  | nil => rfl
  | cons key keys ih =>
    rw [List.foldl_cons, ih]
    by_cases hother : other = key
    · simp [hother]
    · rw [get_delete_ne m hother]
      simp [hother]

theorem mem_keys_iff {m : Map κ ν} {key : κ} : key ∈ m.keys ↔ m.get key ≠ none := by
  rw [keys, List.mem_map, Option.ne_none_iff_exists']
  constructor
  · rintro ⟨⟨k, v⟩, hentry, rfl⟩
    exact ⟨v, mem_entries_iff.1 hentry⟩
  · rintro ⟨v, hget⟩
    exact ⟨(key, v), mem_entries_iff.2 hget, rfl⟩

theorem mem_keys_set {m : Map κ ν} {key other : κ} {value : ν} :
    other ∈ (m.set key value).keys ↔ other = key ∨ other ∈ m.keys := by
  rw [mem_keys_iff, mem_keys_iff]
  by_cases h : other = key
  · simp [h]
  · simp [h, get_set_ne]

/-- Deleting a key that is not there changes nothing. -/
theorem delete_of_not_has {m : Map κ ν} {key : κ} (h : m.has key = false) : m.delete key = m := by
  obtain ⟨entries, hnodup⟩ := m
  simp only [delete, mk.injEq, List.filter_eq_self, decide_eq_true_eq]
  rintro ⟨k, v⟩ hentry rfl
  have hget : get ⟨entries, hnodup⟩ k = some v := mem_entries_iff.1 hentry
  rw [has, hget] at h
  cases h

/-- Each key with the value that `get` finds. -/
theorem filterMap_keys (m : Map κ ν) : (m.keys.filterMap fun key => (m.get key).map (key, ·)) = m.entries := by
  rw [keys, List.filterMap_map]
  refine (List.filterMap_congr fun entry hentry => ?_).trans List.filterMap_some
  have hget : m.get entry.1 = some entry.2 := mem_entries_iff.1 hentry
  simp [hget]

theorem setEntry_of_not_mem {key : κ} (value : ν) {l : List (κ × ν)} (h : key ∉ l.map Prod.fst) :
    setEntry key value l = l ++ [(key, value)] := by
  induction l with
  | nil => rfl
  | cons entry rest ih =>
    rw [List.map_cons, List.mem_cons, not_or] at h
    rw [setEntry, if_neg (Ne.symm h.1), ih h.2, List.cons_append]

/-- Setting new keys adds their entries in order. -/
theorem entries_foldl_set (l : List (κ × ν)) (m : Map κ ν) (h : (m.keys ++ l.map Prod.fst).Nodup) :
    (l.foldl (fun m entry => m.set entry.1 entry.2) m).entries = m.entries ++ l := by
  induction l generalizing m with
  | nil => exact (List.append_nil _).symm
  | cons entry rest ih =>
    obtain ⟨k, v⟩ := entry
    have hk : k ∉ m.entries.map Prod.fst := by
      intro hmem
      exact (List.nodup_append.1 h).2.2 k hmem k List.mem_cons_self rfl
    have hset : (m.set k v).entries = m.entries ++ [(k, v)] := setEntry_of_not_mem v hk
    rw [List.foldl_cons, ih, hset, List.append_assoc]
    · rfl
    · simpa [keys, hset] using h

/-- Every value is replaced, as a loop over the entries does it. -/
def mapValues (f : κ → ν → ν) (m : Map κ ν) : Map κ ν where
  entries := m.entries.map fun entry => (entry.1, f entry.1 entry.2)
  nodup := by
    rw [List.map_map]
    exact m.nodup

@[simp] theorem get_mapValues (f : κ → ν → ν) (m : Map κ ν) (key : κ) :
    (m.mapValues f).get key = (m.get key).map (f key) := by
  refine Option.ext fun value => ?_
  rw [← mem_entries_iff, Option.map_eq_some_iff]
  constructor
  · intro hmem
    obtain ⟨⟨k, v⟩, hentry, heq⟩ := List.mem_map.1 hmem
    cases heq
    exact ⟨v, mem_entries_iff.1 hentry, rfl⟩
  · rintro ⟨v, hget, rfl⟩
    exact List.mem_map_of_mem (mem_entries_iff.2 hget)

end Map

end JsWaku
