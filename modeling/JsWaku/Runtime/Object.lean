import JsWaku.Runtime.Map
import JsWaku.Runtime.TypedArray
import Mathlib.Data.List.Sort

/-!
# Plain objects

An object literal used as a dictionary. An assignment to `__proto__` replaces the prototype, and an assignment to any
other key adds or changes a property of the object itself, unless the prototype has a property of this name that cannot
be written: the assignment then throws or does nothing. `Object.entries` lists array indices first.

A dictionary of primitive values keeps its prototype, `Object.prototype`, whose properties it inherits.
-/

namespace JsWaku

/-- An object made by `{}`; its prototype once that was assigned. -/
structure PlainObject (ν : Type*) where
  prototype : Option ν
  own : Map String ν

/-- The array index that a key is: a decimal number without leading zeros, below `2 ^ 32 - 1`. -/
def arrayIndex (key : String) : Option ℕ :=
  match key.toList with
  | [] => none
  | [c] => if c.isDigit then some (c.toNat - 48) else none
  | c :: cs =>
    let index := (c :: cs).foldl (fun n c => 10 * n + (c.toNat - 48)) 0
    if (c :: cs).all Char.isDigit ∧ c.toNat ≠ 48 ∧ index < 2 ^ 32 - 1 then some index else none

/-- The keys that cannot be assigned to an object whose prototype is this byte array: its properties without a setter,
and numbers that are not indices into it; `isNumeric` tells whether a key is how a number is printed. -/
def isReadOnly (isNumeric : String → Bool) (bytes : Bytes) (key : String) : Bool :=
  ["length", "byteLength", "byteOffset", "buffer", "BYTES_PER_ELEMENT"].contains key ||
    (isNumeric key && !(arrayIndex key).any (· < bytes.length))

namespace PlainObject

variable {ν : Type*}

/-- `{}`. -/
def empty : PlainObject ν := ⟨none, Map.empty⟩

/-- `obj[key] = value` in a `try`, for a value that is an object. -/
def assign (isReadOnly : ν → String → Bool) (obj : PlainObject ν) (key : String) (value : ν) : PlainObject ν :=
  if key = "__proto__" then { obj with prototype := some value }
  else if !obj.own.has key && obj.prototype.any (isReadOnly · key) then obj
  else { obj with own := obj.own.set key value }

/-- `Object.entries(obj)`. -/
def entries (obj : PlainObject ν) : List (String × ν) :=
  (obj.own.entries.filter fun entry => (arrayIndex entry.1).isSome).insertionSort
      (fun a b => (arrayIndex a.1).getD 0 ≤ (arrayIndex b.1).getD 0) ++
    obj.own.entries.filter fun entry => !(arrayIndex entry.1).isSome

/-- The entries of an object are its own properties, in another order. -/
theorem perm_entries (obj : PlainObject ν) : obj.entries.Perm obj.own.entries :=
  ((List.perm_insertionSort _ _).append_right _).trans (List.filter_append_perm _ _)

/-- No assignment makes `__proto__` a property of the object itself. -/
theorem proto_not_own {isReadOnly : ν → String → Bool} {obj : PlainObject ν} (key : String) (value : ν)
    (h : obj.own.get "__proto__" = none) : (obj.assign isReadOnly key value).own.get "__proto__" = none := by
  rw [assign]
  split
  · exact h
  · rename_i hkey
    split
    · exact h
    · exact (Map.get_set_ne _ _ (Ne.symm hkey)).trans h

/-- While the prototype is the usual one, the other keys become properties. -/
theorem foldl_assign {isReadOnly : ν → String → Bool} (l : List (String × ν)) (own : Map String ν)
    (h : ∀ entry ∈ l, entry.1 ≠ "__proto__") :
    l.foldl (fun obj entry => assign isReadOnly obj entry.1 entry.2) (⟨none, own⟩ : PlainObject ν) =
      ⟨none, l.foldl (fun own entry => own.set entry.1 entry.2) own⟩ := by
  induction l generalizing own with
  | nil => rfl
  | cons entry l ih =>
    have hassign : assign isReadOnly ⟨none, own⟩ entry.1 entry.2 = ⟨none, own.set entry.1 entry.2⟩ := by
      simp [assign, h entry List.mem_cons_self]
    rw [List.foldl_cons, hassign, ih _ fun entry hentry => h entry (List.mem_cons_of_mem _ hentry)]
    rfl

end PlainObject

/-! ## Dictionaries of primitive values -/

/-- The properties of `Object.prototype`, all of them objects. -/
def objectPrototype : List String :=
  ["constructor", "__defineGetter__", "__defineSetter__", "hasOwnProperty", "__lookupGetter__", "__lookupSetter__",
    "isPrototypeOf", "propertyIsEnumerable", "toString", "valueOf", "__proto__", "toLocaleString"]

/-- What a dictionary has for a key: a value of its own, or an inherited object. -/
inductive Property (ν : Type*)
  | own (value : ν)
  | inherited
  deriving DecidableEq

namespace Dictionary

variable {ν : Type*}

/-- `dictionary[key]`. -/
def get (own : Map String ν) (key : String) : Option (Property ν) :=
  match own.get key with
  | some value => some (.own value)
  | none => if objectPrototype.contains key then some .inherited else none

/-- `dictionary[key] = value`. A prototype is an object, so that an assignment to an inherited `__proto__` does
nothing. -/
def assign (own : Map String ν) (key : String) (value : ν) : Map String ν :=
  if key = "__proto__" ∧ !own.has key then own else own.set key value

theorem get_assign_ne (own : Map String ν) {key other : String} (value : ν) (h : other ≠ key) :
    get (assign own key value) other = get own other := by
  rw [assign]
  split
  · rfl
  · rw [get, Map.get_set_ne own value h, get]

/-- What was assigned is read, unless the assignment does nothing. -/
theorem get_assign_self (own : Map String ν) (key : String) (value : ν) :
    get (assign own key value) key = some (.own value) ∨
      (get own key = some .inherited ∧ assign own key value = own) := by
  by_cases h : key = "__proto__" ∧ !own.has key
  · right
    obtain ⟨rfl, hown⟩ := h
    have hnone : own.get "__proto__" = none := by simpa [Map.has] using hown
    refine ⟨?_, if_pos ⟨rfl, hown⟩⟩
    rw [get, hnone]
    rfl
  · left
    rw [assign, if_neg h, get, Map.get_set_self]

end Dictionary

end JsWaku
