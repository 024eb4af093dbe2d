import JsWaku.Lib.Protobuf
import JsWaku.Runtime.TypedArray

/-!
# Protobuf codecs

What the generated files of `packages/proto/src/generated` share. They run on `protons-runtime`, which is a parameter
here: `Runtime` has the methods of its writers and readers, and `Runtime.Lawful` says that a reader takes back what a
writer wrote, and skips it as an unknown field. A `Codec` is what a generated file gives to `message`: the fields that it
writes, the object that it starts from, and the cases of its `switch`.

`Writes c s bs s'` says that the loop of the decoder reads these bytes as fields that take one object to the other. Bytes
written from an empty object are decoded (`Codec.decode_of_writes`), also inside another message (`Codec.reads_nested`).
The codecs pass no `limits`, and an encoder is given whole objects.
-/

namespace JsWaku.Proto

open Reading

/-! ## The runtime -/

/-- The methods of a writer: the bytes that each appends. -/
structure Writer where
  uint32 : ℕ → Bytes
  uint64 : ℕ → Bytes
  sint64 : ℤ → Bytes
  bool : Bool → Bytes
  bytes : Bytes → Bytes
  string : String → Bytes
  /-- The codec of an `enumeration` of `n` members, which are numbered from 0. -/
  enumeration : (n : ℕ) → Fin n → Bytes
  /-- What was written since `fork`, after its length. -/
  ldelim : Bytes → Bytes

/-- The methods of a reader. -/
structure Reader where
  uint32 : Reading.Reader JsError ℕ
  uint64 : Reading.Reader JsError ℕ
  sint64 : Reading.Reader JsError ℤ
  bool : Reading.Reader JsError Bool
  bytes : Reading.Reader JsError Bytes
  string : Reading.Reader JsError String
  enumeration : (n : ℕ) → Reading.Reader JsError (Fin n)
  /-- Skips a field with this wire type. -/
  skipType : ℕ → Reading.Reader JsError Unit

/-- The parts of `protons-runtime` that the codecs use. -/
structure Runtime where
  w : Writer
  reader : Reader

/-- The bytes can be a message: their length is a `uint32`. -/
def Short (bs : Bytes) : Prop := bs.length < 2 ^ 32

theorem Short.left {bs bs' : Bytes} (h : Short (bs ++ bs')) : Short bs := by
  rw [Short, List.length_append] at h
  exact lt_of_le_of_lt (Nat.le_add_right _ _) h

theorem Short.right {bs bs' : Bytes} (h : Short (bs ++ bs')) : Short bs' := by
  rw [Short, List.length_append] at h
  exact lt_of_le_of_lt (Nat.le_add_left _ _) h

theorem Short.of_mem {α : Type} {write : α → Bytes} {l : List α} (h : Short (l.flatMap write)) {a : α} (ha : a ∈ l) :
    Short (write a) := by
  obtain ⟨before, after, rfl⟩ := List.append_of_mem ha
  rw [List.flatMap_append, List.flatMap_cons] at h
  exact h.right.left

/-- Readers take back what was written, skip it by its wire type, and do not move back. -/
structure Runtime.Lawful (rt : Runtime) : Prop where
  uint32 : ∀ n < 2 ^ 32, Reads rt.reader.uint32 (rt.w.uint32 n) n
  uint64 : ∀ n < 2 ^ 64, Reads rt.reader.uint64 (rt.w.uint64 n) n
  sint64 : ∀ v : ℤ, -2 ^ 63 ≤ v → v < 2 ^ 63 → Reads rt.reader.sint64 (rt.w.sint64 v) v
  bool : ∀ b, Reads rt.reader.bool (rt.w.bool b) b
  bytes : ∀ bs, Short (rt.w.bytes bs) → Reads rt.reader.bytes (rt.w.bytes bs) bs
  string : ∀ s, Short (rt.w.string s) → Reads rt.reader.string (rt.w.string s) s
  enumeration : ∀ n ≤ 2 ^ 31, ∀ member, Reads (rt.reader.enumeration n) (rt.w.enumeration n member) member
  ldelim : ∀ bs, Short (rt.w.ldelim bs) → rt.w.ldelim bs = rt.w.uint32 bs.length ++ bs
  skip_uint32 : ∀ n < 2 ^ 32, Reads (rt.reader.skipType 0) (rt.w.uint32 n) ()
  skip_uint64 : ∀ n < 2 ^ 64, Reads (rt.reader.skipType 0) (rt.w.uint64 n) ()
  skip_sint64 : ∀ v : ℤ, -2 ^ 63 ≤ v → v < 2 ^ 63 → Reads (rt.reader.skipType 0) (rt.w.sint64 v) ()
  skip_bool : ∀ b, Reads (rt.reader.skipType 0) (rt.w.bool b) ()
  skip_fixed64 : ∀ bs : Bytes, bs.length = 8 → Reads (rt.reader.skipType 1) bs ()
  skip_bytes : ∀ bs, Short (rt.w.bytes bs) → Reads (rt.reader.skipType 2) (rt.w.bytes bs) ()
  skip_string : ∀ s, Short (rt.w.string s) → Reads (rt.reader.skipType 2) (rt.w.string s) ()
  skip_ldelim : ∀ bs, Short (rt.w.ldelim bs) → Reads (rt.reader.skipType 2) (rt.w.ldelim bs) ()
  skip_fixed32 : ∀ bs : Bytes, bs.length = 4 → Reads (rt.reader.skipType 5) bs ()
  progress_uint32 : Progress rt.reader.uint32
  forward_uint64 : Forward rt.reader.uint64
  forward_sint64 : Forward rt.reader.sint64
  forward_bool : Forward rt.reader.bool
  forward_bytes : Forward rt.reader.bytes
  forward_string : Forward rt.reader.string
  forward_enumeration : ∀ n, Forward (rt.reader.enumeration n)
  forward_skipType : ∀ wireType, Forward (rt.reader.skipType wireType)

namespace Writer

variable {α : Type} (w : Writer) (tag : ℕ) (write : α → Bytes)

/-- `if (value !== ZERO) { w.uint32(tag); … }`, where `ZERO` is the value that a field has when it is absent. -/
def required [DecidableEq α] (zero value : α) : Bytes := if value = zero then [] else w.uint32 tag ++ write value

/-- `if (value != null) { w.uint32(tag); … }`. -/
def optional : Option α → Bytes
  | none => []
  | some value => w.uint32 tag ++ write value

/-- `for (const value of values) { w.uint32(tag); … }`. -/
def repeated (values : List α) : Bytes := values.flatMap fun value => w.uint32 tag ++ write value

end Writer

/-! ## Codecs -/

/-- What a generated file gives to `message`: what is written between `fork` and `ldelim`, the object that the decoder
starts from, and the cases of its `switch`. -/
structure Codec (σ : Type) where
  fields : σ → Bytes
  empty : σ
  cases : σ → ℕ → Option (Reading.Reader JsError σ)

namespace Codec

variable {σ : Type} (rt : Runtime) (c : Codec σ)

/-- A round of the loop: a tag, and the case of its field. -/
def round (obj : σ) : Reading.Reader JsError σ := do
  let tag ← rt.reader.uint32
  match c.cases obj (tag >>> 3) with
  | some read => read
  | none => do
    rt.reader.skipType (tag &&& 7)
    return obj

/-- The decoder, up to the length or to the end of the buffer. -/
def read (length : Option ℕ) : Reading.Reader JsError σ := fun buf pos =>
  let stop := match length with
    | none => buf.length
    | some length => pos + length
  whileBefore (c.round rt) stop c.empty buf pos

/-- `codec().encode(obj, w)`, inside another message. -/
def writeNested (obj : σ) : Bytes := rt.w.ldelim (c.fields obj)

/-- `codec().decode(reader, reader.uint32())`, inside another message. -/
def readNested : Reading.Reader JsError σ := do
  let length ← rt.reader.uint32
  c.read rt (some length)

/-- `encodeMessage`. -/
def encode (obj : σ) : Bytes := c.fields obj

/-- `decodeMessage`. -/
def decode (buf : Bytes) : Except JsError σ := Prod.fst <$> c.read rt none buf 0

/-- No case moves back. -/
def IsForward : Prop := ∀ obj n read, c.cases obj n = some read → Forward read

/-- The bytes, if they are short, are fields that take one object to the other. -/
def Writes (s : σ) (bs : Bytes) (s' : σ) : Prop := Short bs → Rounds (c.round rt) s bs s'

end Codec

/-! ## Reading a field -/

section

variable {σ α : Type} {rt : Runtime} {c : Codec σ} {s s' s'' : σ} {bs bs' : Bytes}

theorem Codec.progress_round (hrt : rt.Lawful) (hc : c.IsForward) (obj : σ) : Progress (c.round rt obj) := by
  refine hrt.progress_uint32.bind fun tag => ?_
  cases hcase : c.cases obj (tag >>> 3) with
  | some read => exact hc obj _ read hcase
  | none => exact (hrt.forward_skipType _).bind fun _ => Forward.pure obj

/-- A field that the `switch` knows. -/
theorem Codec.reads_case (hrt : rt.Lawful) {tag : ℕ} (htag : tag < 2 ^ 32) {read : Reading.Reader JsError σ}
    (hcase : c.cases s (tag >>> 3) = some read) (hread : Reads read bs s') :
    Reads (c.round rt s) (rt.w.uint32 tag ++ bs) s' := by
  refine (hrt.uint32 tag htag).bind ?_
  rw [hcase]
  exact hread

/-- A field that the `switch` does not know. -/
theorem Codec.reads_skip (hrt : rt.Lawful) {tag : ℕ} (htag : tag < 2 ^ 32) (hcase : c.cases s (tag >>> 3) = none)
    (hskip : Reads (rt.reader.skipType (tag &&& 7)) bs ()) : Reads (c.round rt s) (rt.w.uint32 tag ++ bs) s := by
  refine (hrt.uint32 tag htag).bind ?_
  rw [hcase]
  exact hskip.map fun _ => s

namespace Codec.Writes

theorem nil (s : σ) : c.Writes rt s [] s := fun _ => .nil s

theorem append (h : c.Writes rt s bs s') (h' : c.Writes rt s' bs' s'') : c.Writes rt s (bs ++ bs') s'' :=
  fun hshort => (h hshort.left).append (h' hshort.right)

/-- A loop over elements; `set` is the object after the elements of a list. -/
theorem flatMap {write : α → Bytes} (set : List α → σ) {l : List α}
    (h : ∀ done, ∀ a ∈ l, c.Writes rt (set done) (write a) (set (done ++ [a]))) :
    c.Writes rt (set []) (l.flatMap write) (set l) :=
  fun hshort => .flatMap fun done a ha => h done a ha (hshort.of_mem ha)

variable (tag : ℕ) (htag : tag < 2 ^ 32) {write : α → Bytes} {read : Reading.Reader JsError α}
include htag

/-- A field with a value. -/
theorem field (hrt : rt.Lawful) {value : α} (set : α → σ) (hread : Short bs → Reads read bs value)
    (hcase : c.cases s (tag >>> 3) = some (do let value ← read; return set value)) :
    c.Writes rt s (rt.w.uint32 tag ++ bs) (set value) :=
  fun hshort => .single (reads_case hrt htag hcase ((hread hshort.right).map set))

theorem required [DecidableEq α] (hrt : rt.Lawful) (zero : α) {value : α} (set : α → σ)
    (hread : Short (write value) → Reads read (write value) value)
    (hcase : c.cases (set zero) (tag >>> 3) = some (do let value ← read; return set value)) :
    c.Writes rt (set zero) (rt.w.required tag write zero value) (set value) := by
  unfold Writer.required
  split
  · rename_i hzero
    rw [hzero]
    exact nil _
  · exact field tag htag hrt set hread hcase

theorem optional (hrt : rt.Lawful) (value : Option α) (set : Option α → σ)
    (hread : ∀ a ∈ value, Short (write a) → Reads read (write a) a)
    (hcase : c.cases (set none) (tag >>> 3) = some (do let value ← read; return set (some value))) :
    c.Writes rt (set none) (rt.w.optional tag write value) (set value) := by
  cases value with
  | none => exact nil _
  | some a => exact field tag htag hrt (fun a => set (some a)) (hread a rfl) hcase

theorem repeated (hrt : rt.Lawful) (values : List α) (set : List α → σ)
    (hread : ∀ a ∈ values, Short (write a) → Reads read (write a) a)
    (hcase : ∀ l, c.cases (set l) (tag >>> 3) = some (do let value ← read; return set (l ++ [value]))) :
    c.Writes rt (set []) (rt.w.repeated tag write values) (set values) :=
  flatMap set fun done a ha => field tag htag hrt (fun a => set (done ++ [a])) (hread a ha) (hcase done)

end Codec.Writes

/-! ## Whole messages -/

/-- Fields from the empty object on are decoded. -/
theorem Codec.decode_of_writes (hrt : rt.Lawful) (hc : c.IsForward) (h : c.Writes rt c.empty bs s) (hshort : Short bs) :
    c.decode rt bs = .ok s := by
  have hread := (h hshort).reads (c.progress_round hrt hc) [] []
  simp only [List.nil_append, List.append_nil, List.length_nil, Nat.zero_add] at hread
  simp only [Codec.decode, Codec.read, hread]
  rfl

/-- Objects of this kind are decoded as they were encoded. -/
def Codec.RoundTrips (rt : Runtime) (c : Codec σ) (kind : σ → Prop) : Prop :=
  ∀ obj, kind obj → Short (c.encode obj) → c.decode rt (c.encode obj) = .ok obj

theorem Codec.roundTrips (hrt : rt.Lawful) (hc : c.IsForward) {kind : σ → Prop}
    (h : ∀ obj, kind obj → c.Writes rt c.empty (c.fields obj) obj) : c.RoundTrips rt kind :=
  fun obj hobj => c.decode_of_writes hrt hc (h obj hobj)

theorem Codec.forward_read (hrt : rt.Lawful) (hc : c.IsForward) (length : Option ℕ) : Forward (c.read rt length) :=
  fun buf pos => forward_whileBefore (fun obj => (c.progress_round hrt hc obj).forward) _ c.empty buf pos

theorem Codec.forward_nested (hrt : rt.Lawful) (hc : c.IsForward) : Forward (c.readNested rt) :=
  hrt.progress_uint32.forward.bind fun length => c.forward_read hrt hc (some length)

/-- A message inside another one. -/
theorem Codec.reads_nested (hrt : rt.Lawful) (hc : c.IsForward) (h : c.Writes rt c.empty (c.fields s) s)
    (hshort : Short (c.writeNested rt s)) : Reads (c.readNested rt) (c.writeNested rt s) s := by
  have hldelim := hrt.ldelim (c.fields s) hshort
  rw [Codec.writeNested, hldelim] at hshort ⊢
  refine (hrt.uint32 _ hshort.right).bind ?_
  intro before after
  exact (h hshort.right).reads (c.progress_round hrt hc) before after

end

end JsWaku.Proto
