import JsWaku.Lib.Endian

/-!
# JavaScript errors, byte arrays and data views

- `JsError` and `Except JsError`: what a function may throw (`bind_eq_ok` takes a successful computation apart);
- `Uint8Array`: a view of `length` bytes at `byteOffset` of an `ArrayBuffer`. Where a function only reads the elements
  of an array it is given its contents (`Bytes`); the view itself matters to code that opens a `DataView` on `.buffer`;
- `slice`, with indices counted from the end when negative;
- the `DataView` accessors used by the codecs, big endian unless said otherwise, which throw a `RangeError` past the
  end of the buffer;
- `concat` of `packages/utils/src/bytes/index.ts`.
-/

namespace JsWaku

open Endian

/-! ## Errors -/

/-- A thrown value: `new Error(message)`, or an error raised by the engine. -/
inductive JsError
  | error (message : String)
  | rangeError
  | typeError
  deriving DecidableEq, Repr

section Except

variable {ε : Type*} {α β : Type}

@[simp] theorem ok_bind (a : α) (f : α → Except ε β) : (Except.ok a >>= f) = f a := rfl

@[simp] theorem error_bind (e : ε) (f : α → Except ε β) : (Except.error e >>= f) = .error e := rfl

/-- A computation that returns has returned at each of its steps. -/
theorem bind_eq_ok {x : Except ε α} {f : α → Except ε β} {b : β} :
    (x >>= f) = .ok b ↔ ∃ a, x = .ok a ∧ f a = .ok b := by
  cases x with
  | error e => simp
  | ok a => simp

/-- A check that throws has passed where the code returns. -/
theorem check_eq_ok {γ : Type} {c : Prop} [Decidable c] {e : ε} {f : γ → Except ε β} {x : Except ε β} {b : β} :
    (if c then throw e >>= f else x) = .ok b ↔ ¬c ∧ x = .ok b := by
  split
  next h => exact ⟨nofun, fun hx => absurd h hx.1⟩
  next h => exact ⟨fun hx => ⟨h, hx⟩, fun hx => hx.2⟩

/-- A list is mapped iff each of its elements is. -/
theorem exists_mapM_iff {f : α → Except ε β} {l : List α} :
    (∃ bs, l.mapM f = .ok bs) ↔ ∀ a ∈ l, ∃ b, f a = .ok b := by
  induction l with
  | nil => exact iff_of_true ⟨[], rfl⟩ (by simp)
  | cons a l ih =>
    rw [List.forall_mem_cons, ← ih, List.mapM_cons]
    constructor
    · rintro ⟨bs, h⟩
      obtain ⟨b, hb, h⟩ := bind_eq_ok.1 h
      obtain ⟨bs', hbs', -⟩ := bind_eq_ok.1 h
      exact ⟨⟨b, hb⟩, bs', hbs'⟩
    · rintro ⟨⟨b, hb⟩, bs, hbs⟩
      exact ⟨b :: bs, by rw [hb, ok_bind, hbs]; rfl⟩

/-- The results of a list, one by one. -/
theorem mapM_eq_ok_iff {f : α → Except ε β} {l : List α} {bs : List β} :
    l.mapM f = .ok bs ↔ l.map f = bs.map Except.ok := by
  induction l generalizing bs with
  | nil =>
    constructor
    · intro h
      cases h
      rfl
    · intro h
      rw [List.map_eq_nil_iff.1 h.symm]
      rfl
  | cons a l ih =>
    rw [List.mapM_cons, List.map_cons]
    constructor
    · intro h
      obtain ⟨b, hb, h⟩ := bind_eq_ok.1 h
      obtain ⟨bs', hbs', h⟩ := bind_eq_ok.1 h
      cases h
      rw [List.map_cons, hb, ih.1 hbs']
    · intro h
      obtain ⟨b, bs', rfl, hb, hbs'⟩ := List.map_eq_cons_iff.1 h.symm
      rw [← hb, ok_bind, ih.2 hbs'.symm, ok_bind]
      rfl

/-- A computation whose success was evaluated has a result. -/
theorem exists_of_toBool {x : Except ε α} (h : x.toBool = true) : ∃ a, x = .ok a := by
  cases x with
  | error e => cases h
  | ok a => exact ⟨a, rfl⟩

end Except

/-! ## Byte arrays -/

/-- The contents of an array or of an `ArrayBuffer`. -/
abbrev Bytes := List UInt8

/-- A `Uint8Array`: a view into a buffer. -/
structure Uint8Array where
  buffer : Bytes
  byteOffset : ℕ
  length : ℕ
  inBounds : byteOffset + length ≤ buffer.length

namespace Uint8Array

/-- The elements of the array. -/
def bytes (a : Uint8Array) : Bytes := (a.buffer.drop a.byteOffset).take a.length

@[simp] theorem length_bytes (a : Uint8Array) : a.bytes.length = a.length := by
  have h := a.inBounds
  rw [bytes, List.length_take, List.length_drop]
  omega

/-- `new Uint8Array(buffer)`: the view of a whole buffer. -/
def ofBuffer (buffer : Bytes) : Uint8Array := ⟨buffer, 0, buffer.length, by simp⟩

@[simp] theorem length_ofBuffer (buffer : Bytes) : (ofBuffer buffer).length = buffer.length := rfl

@[simp] theorem bytes_ofBuffer (buffer : Bytes) : (ofBuffer buffer).bytes = buffer := by
  simp [ofBuffer, bytes]

end Uint8Array

/-- The absolute index named by an argument of `slice`. -/
def relativeIndex (length : ℕ) (i : ℤ) : ℕ := if i < 0 then (length + i).toNat else min i.toNat length

/-- `bytes.slice(start, end)`. -/
def slice (bytes : Bytes) (start stop : ℤ) : Bytes :=
  (bytes.take (relativeIndex bytes.length stop)).drop (relativeIndex bytes.length start)

/-- `bytes.slice(start)`. -/
def sliceFrom (bytes : Bytes) (start : ℤ) : Bytes := bytes.drop (relativeIndex bytes.length start)

theorem relativeIndex_natCast (length i : ℕ) : relativeIndex length i = min i length := by
  simp [relativeIndex]

theorem slice_natCast (bytes : Bytes) (start stop : ℕ) : slice bytes start stop = (bytes.take stop).drop start := by
  simp only [slice, relativeIndex_natCast]
  rw [← List.take_eq_take_min]
  rcases Nat.le_total start bytes.length with h | h
  · rw [Nat.min_eq_left h]
  · rw [Nat.min_eq_right h, List.drop_of_length_le (by simp), List.drop_of_length_le (by simp; omega)]

theorem sliceFrom_natCast (bytes : Bytes) (start : ℕ) : sliceFrom bytes start = bytes.drop start := by
  simp only [sliceFrom, relativeIndex_natCast]
  rcases Nat.le_total start bytes.length with h | h
  · rw [Nat.min_eq_left h]
  · rw [Nat.min_eq_right h, List.drop_of_length_le le_rfl, List.drop_of_length_le h]

/-- The prefix up to the length of its first part. -/
theorem slice_append_left (as bs : Bytes) (n : ℕ) (h : n = as.length) : slice (as ++ bs) 0 n = as := by
  subst h
  simpa using slice_natCast (as ++ bs) 0 as.length

/-- The part between two known ends. -/
theorem slice_append_mid (as bs cs : Bytes) (m n : ℕ) (hm : m = as.length) (hn : n = as.length + bs.length) :
    slice (as ++ bs ++ cs) m n = bs := by
  subst hm hn
  rw [slice_natCast, List.take_append_of_le_length (by simp), List.take_of_length_le (by simp)]
  simp

/-- The rest after a known prefix. -/
theorem sliceFrom_append (as bs : Bytes) (n : ℕ) (h : n = as.length) : sliceFrom (as ++ bs) n = bs := by
  subst h
  simp [sliceFrom_natCast]

/-! ## Writing at an offset -/

/-- `target.set(bytes, offset)`, also the effect of every multi-byte `DataView` setter. -/
def setBytes (target bytes : Bytes) (offset : ℕ) : Except JsError Bytes :=
  if offset + bytes.length ≤ target.length then
    .ok (target.take offset ++ bytes ++ target.drop (offset + bytes.length))
  else .error .rangeError

/-- Writing right after a prefix replaces as many bytes of the rest. -/
theorem setBytes_append (as rest bs : Bytes) {offset : ℕ} (ho : offset = as.length) (h : bs.length ≤ rest.length) :
    setBytes (as ++ rest) bs offset = .ok (as ++ bs ++ rest.drop bs.length) := by
  subst ho
  rw [setBytes, if_pos (by simp; omega)]
  simp

namespace DataView

/-- The `width` bytes at `offset`. -/
def read (view : Bytes) (offset width : ℕ) : Except JsError Bytes :=
  if offset + width ≤ view.length then .ok ((view.drop offset).take width) else .error .rangeError

/-- `view.getUint8(offset)`. -/
def getUint8 (view : Bytes) (offset : ℕ) : Except JsError UInt8 :=
  match view[offset]? with
  | some b => .ok b
  | none => .error .rangeError

/-- `view.getUint16(offset)`. -/
def getUint16 (view : Bytes) (offset : ℕ) : Except JsError ℕ := beNat <$> read view offset 2

/-- `view.getBigUint64(offset, false)`. -/
def getBigUint64 (view : Bytes) (offset : ℕ) : Except JsError ℕ := beNat <$> read view offset 8

/-- `view.getInt32(offset, true)`: a little-endian number in two's complement. -/
def getInt32LE (view : Bytes) (offset : ℕ) : Except JsError ℤ :=
  (fun bytes => (leNat bytes : ℤ).bmod (2 ^ 32)) <$> read view offset 4

/-- `view.setUint8(offset, value)`. -/
def setUint8 (view : Bytes) (offset value : ℕ) : Except JsError Bytes := setBytes view [UInt8.ofNat value] offset

/-- `view.setUint16(offset, value)`. -/
def setUint16 (view : Bytes) (offset value : ℕ) : Except JsError Bytes := setBytes view (toBE 2 value) offset

/-- `view.setUint32(offset, value, true)`. -/
def setUint32LE (view : Bytes) (offset value : ℕ) : Except JsError Bytes := setBytes view (toLE 4 value) offset

theorem getUint8_eq {view : Bytes} {offset : ℕ} {b : UInt8} (h : view[offset]? = some b) :
    getUint8 view offset = .ok b := by
  simp [getUint8, h]

/-- Reading what stands right after a prefix. -/
theorem read_append (as bs rest : Bytes) {offset width : ℕ} (ho : offset = as.length) (hw : width = bs.length) :
    read (as ++ (bs ++ rest)) offset width = .ok bs := by
  subst ho hw
  simp [read]

theorem getUint16_append (as rest : Bytes) {offset n : ℕ} (ho : offset = as.length) (hn : n < 2 ^ 16) :
    getUint16 (as ++ (toBE 2 n ++ rest)) offset = .ok n := by
  rw [getUint16, read_append as _ rest ho (by simp)]
  show Except.ok (beNat (toBE 2 n)) = _
  rw [beNat_toBE, Nat.mod_eq_of_lt (by simpa using hn)]

/-- Two bytes are a number below `2 ^ 16`. -/
theorem getUint16_lt {view : Bytes} {offset n : ℕ} (h : getUint16 view offset = .ok n) : n < 2 ^ 16 := by
  unfold getUint16 read at h
  split at h
  · cases h
    have hlen : ((view.drop offset).take 2).length ≤ 2 := List.length_take_le _ _
    exact (beNat_lt _).trans_le (Nat.pow_le_pow_right (n := 256) (by norm_num) hlen)
  · cases h

end DataView

/-! ## Concatenation -/

/-- The loop of `concat`: each array is copied to the current offset. -/
def concatLoop : Bytes → ℕ → List Bytes → Except JsError Bytes
  | res, _, [] => .ok res
  | res, offset, bytes :: rest => do
    let res ← setBytes res bytes offset
    concatLoop res (offset + bytes.length) rest

/-- `concat(byteArrays, totalLength)`. -/
def concat (byteArrays : List Bytes) (totalLength : Option ℕ) : Except JsError Bytes :=
  let len := totalLength.getD (byteArrays.foldl (fun acc curr => acc + curr.length) 0)
  concatLoop (List.replicate len 0) 0 byteArrays

/-- The loop fills the zeros after what is already written. -/
theorem concatLoop_eq (byteArrays : List Bytes) (done : Bytes) (k : ℕ) (h : byteArrays.flatten.length ≤ k) :
    concatLoop (done ++ List.replicate k 0) done.length byteArrays =
      .ok (done ++ byteArrays.flatten ++ List.replicate (k - byteArrays.flatten.length) 0) := by
  induction byteArrays generalizing done k with
  | nil => simp [concatLoop]
  | cons bytes rest ih =>
    simp only [List.flatten_cons, List.length_append] at h
    have hset : setBytes (done ++ List.replicate k 0) bytes done.length =
        .ok (done ++ bytes ++ List.replicate (k - bytes.length) 0) := by
      rw [setBytes_append done _ bytes rfl (by simp; omega), List.drop_replicate]
    have hrest := ih (done ++ bytes) (k - bytes.length) (by omega)
    rw [concatLoop, hset, ok_bind, ← List.length_append, hrest]
    simp [Nat.sub_sub]

theorem foldl_length (byteArrays : List Bytes) (n : ℕ) :
    byteArrays.foldl (fun acc curr => acc + curr.length) n = n + byteArrays.flatten.length := by
  induction byteArrays generalizing n with
  | nil => simp
  | cons bytes rest ih => simp [ih, Nat.add_assoc]

/-- Without a total length the arrays are joined. -/
theorem concat_none (byteArrays : List Bytes) : concat byteArrays none = .ok byteArrays.flatten := by
  have h := concatLoop_eq byteArrays [] byteArrays.flatten.length le_rfl
  simpa [concat, foldl_length] using h

/-- With a total length that suffices the arrays are joined and padded with zeros. -/
theorem concat_some (byteArrays : List Bytes) (len : ℕ) (h : byteArrays.flatten.length ≤ len) :
    concat byteArrays (some len) =
      .ok (byteArrays.flatten ++ List.replicate (len - byteArrays.flatten.length) 0) := by
  simpa [concat] using concatLoop_eq byteArrays [] len h

end JsWaku
