import JsWaku.Enr.Getters
import JsWaku.Lib.Framing

/-!
# Lists of multiaddrs

`encodeMultiaddrs` and `decodeMultiaddrs` of `packages/enr/src/multiaddrs_codec.ts`, loop by loop: what the first writes
into an array of its own, and what the second reads from any array, also one that is a view into a larger buffer.

The length of an entry is written by `setUint16`, which cuts it to 16 bits, so that a list is read back iff every
multiaddr is shorter than `2 ^ 16` bytes (`decode_encode_iff`). The reader looks for it at an index of the buffer
instead of the array, and takes the rest of the array where it is too large. `exactOn_iff` says when it accepts the
format and nothing else.
-/

namespace JsWaku.Enr.MultiaddrsCodec

open Endian Framing

/-! ## Encoding -/

/-- What `forEach` writes into the array from an index on. -/
def encodeLoop : Bytes → ℕ → List Multiaddr → Except JsError Bytes
  | bytes, _, [] => return bytes
  | bytes, index, multiaddr :: multiaddrs => do
    if multiaddr.peerId.any (· ≠ "") then throw (.error "`multiaddr` field MUST not contain peer id")
    -- Prepend the size of the next entry
    let bytes ← DataView.setUint16 bytes index multiaddr.bytes.length
    let index := index + MULTIADDR_LENGTH_SIZE
    let bytes ← setBytes bytes multiaddr.bytes index
    encodeLoop bytes (index + multiaddr.bytes.length) multiaddrs

/-- `encodeMultiaddrs`. -/
def encodeMultiaddrs (multiaddrs : List Multiaddr) : Except JsError Bytes :=
  let totalLength := multiaddrs.foldl (fun acc ma => acc + MULTIADDR_LENGTH_SIZE + ma.bytes.length) 0
  encodeLoop (List.replicate totalLength 0) 0 multiaddrs

/-! ## Decoding -/

section

variable (multiaddr : Bytes → Except JsError Multiaddr)

/-- One round of the loop of `decodeMultiaddrs` after another, from an index on. The data view is on the buffer, the
slice is of the array. -/
def decodeLoop (bytes : Uint8Array) (index : ℕ) : Except JsError (List Multiaddr) :=
  if index < bytes.length then do
    -- `new DataView(bytes.buffer, index, MULTIADDR_LENGTH_SIZE)`
    let sizeDataView ← DataView.read bytes.buffer index MULTIADDR_LENGTH_SIZE
    let size ← DataView.getUint16 sizeDataView 0
    let multiaddrBytes := slice bytes.bytes ((index + MULTIADDR_LENGTH_SIZE : ℕ) : ℤ)
      ((index + MULTIADDR_LENGTH_SIZE + size : ℕ) : ℤ)
    let ma ← multiaddr multiaddrBytes
    let multiaddrs ← decodeLoop bytes (index + MULTIADDR_LENGTH_SIZE + size)
    return ma :: multiaddrs
  else return []
termination_by bytes.length - index
decreasing_by
  rw [MULTIADDR_LENGTH_SIZE]
  omega

/-- `decodeMultiaddrs`. -/
def decodeMultiaddrs (bytes : Uint8Array) : Except JsError (List Multiaddr) := decodeLoop multiaddr bytes 0

end

/-! ## The format -/

section

variable (multiaddr : Bytes → Except JsError Multiaddr)

/-- The library accepts the bytes. -/
def Accepted (pieces : List Bytes) : Prop := ∀ piece ∈ pieces, ∃ ma, multiaddr piece = .ok ma

/-- The bytes are a concatenation of entries, each a length followed by as many bytes, which the library accepts as
these multiaddrs. -/
def Format (bytes : Bytes) (multiaddrs : List Multiaddr) : Prop :=
  ∃ pieces, Framed MULTIADDR_LENGTH_SIZE bytes pieces ∧
    List.Forall₂ (fun piece ma => multiaddr piece = .ok ma) pieces multiaddrs

/-- On this array `decodeMultiaddrs` returns what its bytes are entries of, and throws if they are not in the format. -/
def ExactOn (array : Uint8Array) : Prop :=
  ∀ multiaddrs, decodeMultiaddrs multiaddr array = .ok multiaddrs ↔ Format multiaddr array.bytes multiaddrs

/-- The lengths in the buffer and those in the array agree wherever one of them leads through accepted bytes. -/
structure LengthsAgree (array : Uint8Array) : Prop where
  /-- If the array is in the format, then the buffer has the length of each entry at its index. -/
  buffer : ∀ pieces, Framed MULTIADDR_LENGTH_SIZE array.bytes pieces → Accepted multiaddr pieces →
    Along MULTIADDR_LENGTH_SIZE (BufferAgrees MULTIADDR_LENGTH_SIZE array.buffer array.bytes) 0 pieces
  /-- If the lengths in the buffer cut the array into accepted bytes, then each is preceded by its length in the array. -/
  bytes : ∀ pieces, Cut MULTIADDR_LENGTH_SIZE array.buffer array.bytes 0 pieces → Accepted multiaddr pieces →
    Along MULTIADDR_LENGTH_SIZE (BytesAgree MULTIADDR_LENGTH_SIZE array.bytes) 0 pieces

end

/-! ## The encoder's array -/

theorem length_size_pos : 0 < MULTIADDR_LENGTH_SIZE := by decide

/-- One round, after what is already written: the entry replaces as many of the zeros. -/
theorem encodeLoop_cons {ma : Multiaddr} (multiaddrs : List Multiaddr) (done : Bytes) {k : ℕ}
    (hpeerId : ma.peerId.any (· ≠ "") = false) (h : (entry MULTIADDR_LENGTH_SIZE ma.bytes).length ≤ k) :
    encodeLoop (done ++ List.replicate k 0) done.length (ma :: multiaddrs) =
      encodeLoop (done ++ entry MULTIADDR_LENGTH_SIZE ma.bytes ++
          List.replicate (k - (entry MULTIADDR_LENGTH_SIZE ma.bytes).length) 0)
        (done ++ entry MULTIADDR_LENGTH_SIZE ma.bytes).length multiaddrs := by
  have hindex : (done ++ entry MULTIADDR_LENGTH_SIZE ma.bytes).length =
      done.length + MULTIADDR_LENGTH_SIZE + ma.bytes.length := by
    rw [List.length_append, length_entry, ← Nat.add_assoc]
  rw [length_entry] at h
  have hsize : DataView.setUint16 (done ++ List.replicate k 0) done.length ma.bytes.length =
      .ok (done ++ toBE MULTIADDR_LENGTH_SIZE ma.bytes.length ++ List.replicate (k - MULTIADDR_LENGTH_SIZE) 0) := by
    have hroom : (toBE 2 ma.bytes.length).length ≤ (List.replicate k (0 : UInt8)).length := by
      rw [length_toBE, List.length_replicate]
      exact (Nat.le_add_right _ _).trans h
    rw [DataView.setUint16, setBytes_append done _ _ rfl hroom, List.drop_replicate, length_toBE]
    rfl
  have hbytes : setBytes (done ++ toBE MULTIADDR_LENGTH_SIZE ma.bytes.length ++
        List.replicate (k - MULTIADDR_LENGTH_SIZE) 0) ma.bytes (done.length + MULTIADDR_LENGTH_SIZE) =
      .ok (done ++ entry MULTIADDR_LENGTH_SIZE ma.bytes ++
        List.replicate (k - (MULTIADDR_LENGTH_SIZE + ma.bytes.length)) 0) := by
    rw [setBytes_append _ _ _ (by simp) (by simp; omega), List.drop_replicate, entry, List.append_assoc done,
      Nat.sub_sub]
  rw [encodeLoop, if_neg (by rw [hpeerId]; decide), hindex, length_entry]
  simp only [hsize, hbytes, ok_bind]

/-- The loop writes the entries if there is room for them, and throws at a peer id. -/
theorem encodeLoop_eq (multiaddrs : List Multiaddr) (done : Bytes) (k : ℕ)
    (h : (join MULTIADDR_LENGTH_SIZE (multiaddrs.map (·.bytes))).length ≤ k) :
    encodeLoop (done ++ List.replicate k 0) done.length multiaddrs =
      if multiaddrs.any fun ma => ma.peerId.any (· ≠ "") then
        .error (.error "`multiaddr` field MUST not contain peer id")
      else .ok (done ++ join MULTIADDR_LENGTH_SIZE (multiaddrs.map (·.bytes)) ++
        List.replicate (k - (join MULTIADDR_LENGTH_SIZE (multiaddrs.map (·.bytes))).length) 0) := by
  induction multiaddrs generalizing done k with
  | nil => simp [encodeLoop, pure, Except.pure]
  | cons ma multiaddrs ih =>
    rw [List.map_cons, join_cons, List.length_append] at h ⊢
    rw [List.any_cons]
    cases hpeerId : ma.peerId.any (· ≠ "") with
    | true =>
      rw [encodeLoop, if_pos hpeerId]
      rfl
    | false =>
      rw [encodeLoop_cons multiaddrs done hpeerId (by omega), ih _ _ (by omega), Bool.false_or, Nat.sub_sub,
        ← List.append_assoc done]

theorem foldl_totalLength (multiaddrs : List Multiaddr) (n : ℕ) :
    multiaddrs.foldl (fun acc ma => acc + MULTIADDR_LENGTH_SIZE + ma.bytes.length) n =
      n + (join MULTIADDR_LENGTH_SIZE (multiaddrs.map (·.bytes))).length := by
  induction multiaddrs generalizing n with
  | nil => rfl
  | cons ma multiaddrs ih =>
    rw [List.foldl_cons, ih, List.map_cons, join_cons, List.length_append, length_entry]
    omega

/-- What the encoder returns. The array has room for the entries. -/
theorem encodeMultiaddrs_eq_ok_iff {multiaddrs : List Multiaddr} {bytes : Bytes} :
    encodeMultiaddrs multiaddrs = .ok bytes ↔ (multiaddrs.any fun ma => ma.peerId.any (· ≠ "")) = false ∧
      bytes = join MULTIADDR_LENGTH_SIZE (multiaddrs.map (·.bytes)) := by
  have h := encodeLoop_eq multiaddrs [] _ le_rfl
  rw [List.nil_append, List.nil_append, Nat.sub_self, List.replicate_zero, List.append_nil, List.length_nil] at h
  rw [encodeMultiaddrs, foldl_totalLength, Nat.zero_add, h]
  split
  · next hany =>
    rw [hany]
    exact iff_of_false (fun h => by cases h) fun h => by cases h.1
  · next hany =>
    rw [Bool.not_eq_true] at hany
    rw [hany, Except.ok.injEq]
    exact ⟨fun h => ⟨rfl, h.symm⟩, fun h => h.2.symm⟩

/-- The loops write what the record's setter stores. -/
theorem encodeMultiaddrs_eq (multiaddrs : List Multiaddr) :
    encodeMultiaddrs multiaddrs = Enr.encodeMultiaddrs multiaddrs := by
  have h := encodeLoop_eq multiaddrs [] _ le_rfl
  rw [List.nil_append, List.nil_append, Nat.sub_self, List.replicate_zero, List.append_nil, List.length_nil] at h
  rw [encodeMultiaddrs, foldl_totalLength, Nat.zero_add, h, Enr.encodeMultiaddrs, join, List.flatMap_map]
  rfl

/-! ## What the decoder reads -/

section

variable {multiaddr : Bytes → Except JsError Multiaddr}

/-- The data view on two bytes reads what a view on the buffer does. -/
theorem read_getUint16 (buffer : Bytes) (index : ℕ) :
    (do let view ← DataView.read buffer index MULTIADDR_LENGTH_SIZE; DataView.getUint16 view 0) =
      DataView.getUint16 buffer index := by
  rw [DataView.read, DataView.getUint16, DataView.read, MULTIADDR_LENGTH_SIZE]
  split
  · next h =>
    have hlen : ((buffer.drop index).take 2).length = 2 := by
      rw [List.length_take, List.length_drop]
      exact Nat.min_eq_left (Nat.le_sub_of_add_le' h)
    have hread := DataView.read_append [] ((buffer.drop index).take 2) [] rfl hlen.symm
    rw [List.nil_append, List.append_nil, List.length_nil] at hread
    rw [ok_bind, DataView.getUint16, hread]
  · rfl

/-- The size that a round reads. -/
theorem size_eq_ok_iff {buffer : Bytes} {index size : ℕ} :
    (do let view ← DataView.read buffer index MULTIADDR_LENGTH_SIZE; DataView.getUint16 view 0) = .ok size ↔
      index + MULTIADDR_LENGTH_SIZE ≤ buffer.length ∧ size = lengthAt MULTIADDR_LENGTH_SIZE buffer index := by
  rw [read_getUint16, DataView.getUint16, DataView.read, MULTIADDR_LENGTH_SIZE]
  split
  · next h =>
    show Except.ok (lengthAt 2 buffer index) = _ ↔ _
    rw [Except.ok.injEq]
    exact ⟨fun hsize => ⟨h, hsize.symm⟩, fun hsize => hsize.2.symm⟩
  · next h => exact iff_of_false (fun h => by cases h) fun hin => h hin.1

/-- The piece that a round slices. -/
theorem slice_piece (bytes : Bytes) (index size : ℕ) :
    slice bytes ((index + MULTIADDR_LENGTH_SIZE : ℕ) : ℤ) ((index + MULTIADDR_LENGTH_SIZE + size : ℕ) : ℤ) =
      (bytes.drop (index + MULTIADDR_LENGTH_SIZE)).take size := by
  rw [slice_natCast, List.drop_take, Nat.add_sub_cancel_left]

/-- The loop returns what the library makes of the pieces that the lengths in the buffer cut. -/
theorem decodeLoop_eq_ok_iff (array : Uint8Array) (index : ℕ) (multiaddrs : List Multiaddr) :
    decodeLoop multiaddr array index = .ok multiaddrs ↔
      ∃ pieces, Cut MULTIADDR_LENGTH_SIZE array.buffer array.bytes index pieces ∧
        List.Forall₂ (fun piece ma => multiaddr piece = .ok ma) pieces multiaddrs := by
  have hlength := array.length_bytes
  fun_induction decodeLoop multiaddr array index generalizing multiaddrs with
  | case1 index hmore ih =>
    rw [← hlength] at hmore
    constructor
    · intro h
      obtain ⟨view, hview, h⟩ := bind_eq_ok.1 h
      obtain ⟨size, hsize, h⟩ := bind_eq_ok.1 h
      obtain ⟨ma, hma, h⟩ := bind_eq_ok.1 h
      obtain ⟨rest, hrest, h⟩ := bind_eq_ok.1 h
      cases h
      obtain ⟨hbuffer, rfl⟩ := size_eq_ok_iff.1 (bind_eq_ok.2 ⟨view, hview, hsize⟩)
      obtain ⟨pieces, hcut, hpieces⟩ := (ih _ rest).1 hrest
      rw [slice_piece] at hma
      have hreads : Reads MULTIADDR_LENGTH_SIZE array.buffer array.bytes index _ := ⟨hmore, hbuffer, rfl⟩
      exact ⟨_, cut_cons_iff.2 ⟨hreads, (cut_next_iff hreads).2 hcut⟩, .cons hma hpieces⟩
    · rintro ⟨pieces, hcut, hpieces⟩
      cases hpieces with
      | nil => exact absurd (cut_nil_iff.1 hcut) hmore.not_ge
      | @cons piece ma pieces rest hma hpieces =>
        obtain ⟨hreads, hcut⟩ := cut_cons_iff.1 hcut
        obtain ⟨view, hview, hsize⟩ := bind_eq_ok.1 (size_eq_ok_iff.2 ⟨hreads.inBuffer, rfl⟩)
        have hrest := (ih _ rest).2 ⟨pieces, (cut_next_iff hreads).1 hcut, hpieces⟩
        rw [hreads.eq_take, ← slice_piece] at hma
        simp only [hview, hsize, hma, hrest, ok_bind]
        rfl
  | case2 index hmore =>
    rw [← hlength] at hmore
    constructor
    · intro h
      cases h
      exact ⟨[], cut_nil_iff.2 (Nat.le_of_not_lt hmore), .nil⟩
    · rintro ⟨pieces, hcut, hpieces⟩
      cases hpieces with
      | nil => rfl
      | cons _ _ => exact absurd (cut_cons_iff.1 hcut).1.more hmore

theorem decodeMultiaddrs_eq_ok_iff {array : Uint8Array} {multiaddrs : List Multiaddr} :
    decodeMultiaddrs multiaddr array = .ok multiaddrs ↔
      ∃ pieces, Cut MULTIADDR_LENGTH_SIZE array.buffer array.bytes 0 pieces ∧
        List.Forall₂ (fun piece ma => multiaddr piece = .ok ma) pieces multiaddrs :=
  decodeLoop_eq_ok_iff array 0 multiaddrs

/-- An array that spans its buffer is decoded as the record's getter does. -/
theorem decodeLoop_ofBuffer (getters : Getters) (bytes : Bytes) (index : ℕ) :
    decodeLoop getters.multiaddr (.ofBuffer bytes) index = decodeMultiaddrsFrom getters bytes index := by
  fun_induction decodeMultiaddrsFrom getters bytes index with
  | case1 index hmore ih =>
    have hsize := read_getUint16 bytes index
    rw [decodeLoop, Uint8Array.length_ofBuffer, if_pos hmore, Uint8Array.bytes_ofBuffer, ← hsize, bind_assoc]
    simp only [ih]
    rfl
  | case2 index hmore =>
    rw [decodeLoop, Uint8Array.length_ofBuffer, if_neg hmore]

theorem decodeMultiaddrs_ofBuffer (getters : Getters) (bytes : Bytes) :
    decodeMultiaddrs getters.multiaddr (.ofBuffer bytes) = Enr.decodeMultiaddrs getters (.bytes bytes) :=
  decodeLoop_ofBuffer getters bytes 0

/-- The library keeps the bytes of an address, so that a list of multiaddrs determines its pieces. -/
theorem eq_map_of_forall₂ (hbytes : ∀ bytes ma, multiaddr bytes = .ok ma → ma.bytes = bytes) {pieces : List Bytes}
    {multiaddrs : List Multiaddr} (h : List.Forall₂ (fun piece ma => multiaddr piece = .ok ma) pieces multiaddrs) :
    pieces = multiaddrs.map (·.bytes) := by
  induction h with
  | nil => rfl
  | cons hma _ ih => rw [List.map_cons, ← ih, hbytes _ _ hma]

/-- Accepted bytes are some multiaddrs. -/
theorem Accepted.exists_forall₂ {pieces : List Bytes} (h : Accepted multiaddr pieces) :
    ∃ multiaddrs, List.Forall₂ (fun piece ma => multiaddr piece = .ok ma) pieces multiaddrs := by
  induction pieces with
  | nil => exact ⟨[], .nil⟩
  | cons piece pieces ih =>
    obtain ⟨⟨ma, hma⟩, hpieces⟩ := List.forall_mem_cons.1 h
    obtain ⟨multiaddrs, hmultiaddrs⟩ := ih hpieces
    exact ⟨ma :: multiaddrs, .cons hma hmultiaddrs⟩

theorem Accepted.of_forall₂ {pieces : List Bytes} {multiaddrs : List Multiaddr}
    (h : List.Forall₂ (fun piece ma => multiaddr piece = .ok ma) pieces multiaddrs) : Accepted multiaddr pieces := by
  induction h with
  | nil => exact fun piece hmem => absurd hmem List.not_mem_nil
  | cons hma _ ih => exact List.forall_mem_cons.2 ⟨⟨_, hma⟩, ih⟩

/-! ## Round trip -/

/-- **The list of multiaddrs comes back** iff the length of each fits into 16 bits. -/
theorem decode_encode_iff {multiaddrs : List Multiaddr} {bytes : Bytes}
    (hread : ∀ ma ∈ multiaddrs, multiaddr ma.bytes = .ok ma)
    (hbytes : ∀ bytes ma, multiaddr bytes = .ok ma → ma.bytes = bytes)
    (hencode : encodeMultiaddrs multiaddrs = .ok bytes) :
    decodeMultiaddrs multiaddr (.ofBuffer bytes) = .ok multiaddrs ↔ ∀ ma ∈ multiaddrs, ma.bytes.length < 2 ^ 16 := by
  have hjoin := (encodeMultiaddrs_eq_ok_iff.1 hencode).2
  rw [decodeMultiaddrs_eq_ok_iff, Uint8Array.bytes_ofBuffer]
  constructor
  · rintro ⟨pieces, hcut, hpieces⟩ ma hma
    rw [eq_map_of_forall₂ hbytes hpieces] at hcut
    exact hcut.fits ma.bytes (List.mem_map_of_mem hma)
  · intro hfits
    have hframed : Framed MULTIADDR_LENGTH_SIZE bytes (multiaddrs.map (·.bytes)) :=
      ⟨hjoin, List.forall_mem_map.2 hfits⟩
    refine ⟨_, hframed.cut length_size_pos, ?_⟩
    rw [List.forall₂_map_left_iff, List.forall₂_same]
    exact hread

end

/-- `/tcp/443`. -/
def tcp443 : Multiaddr := ⟨[6, 1, 187], none⟩

/-- `multiaddr` on this address and on the empty one, and on bytes that are none. -/
def multiaddrTcp443 (bytes : Bytes) : Except JsError Multiaddr :=
  if bytes = [] ∨ bytes = tcp443.bytes then .ok ⟨bytes, none⟩ else .error .rangeError

theorem accepted_tcp443 :
    List.Forall₂ (fun piece ma => multiaddrTcp443 piece = .ok ma) [tcp443.bytes] [tcp443] :=
  .cons (if_pos (Or.inr rfl)) .nil

theorem bytes_multiaddrTcp443 (bytes : Bytes) (ma : Multiaddr) (h : multiaddrTcp443 bytes = .ok ma) :
    ma.bytes = bytes := by
  rw [multiaddrTcp443] at h
  split at h
  · cases h
    rfl
  · cases h

/-- A short address comes back. -/
theorem decode_encode_iff_tcp443 :
    decodeMultiaddrs multiaddrTcp443 (.ofBuffer [0, 3, 6, 1, 187, 0, 3, 6, 1, 187]) = .ok [tcp443, tcp443] :=
  (decode_encode_iff (by decide) bytes_multiaddrTcp443 (by decide)).2 (by decide)

/-- `/dns4` with a name of 65536 characters: 65540 bytes. -/
def longDns4 : Multiaddr := ⟨[54, 128, 128, 4] ++ List.replicate 65536 97, none⟩

/-- `multiaddr` on this address, and on the beginning of one, which it rejects. -/
def multiaddrLongDns4 (bytes : Bytes) : Except JsError Multiaddr :=
  if bytes = longDns4.bytes then .ok longDns4 else .error .rangeError

/-- An address of more than 65535 bytes is encoded, with the length 4, and does not come back. -/
theorem not_decode_encode : (∀ ma ∈ [longDns4], multiaddrLongDns4 ma.bytes = .ok ma) ∧
    ∃ bytes, encodeMultiaddrs [longDns4] = .ok bytes ∧
      decodeMultiaddrs multiaddrLongDns4 (.ofBuffer bytes) ≠ .ok [longDns4] := by
  have hread : ∀ ma ∈ [longDns4], multiaddrLongDns4 ma.bytes = .ok ma :=
    List.forall_mem_singleton.2 (if_pos rfl)
  refine ⟨hread, _, encodeMultiaddrs_eq_ok_iff.2 ⟨rfl, rfl⟩, fun h => ?_⟩
  obtain ⟨pieces, hcut, hpieces⟩ := decodeMultiaddrs_eq_ok_iff.1 h
  cases hpieces with
  | @cons piece _ _ _ hma _ =>
    have hlen := hcut.fits piece List.mem_cons_self
    have hpiece : piece = longDns4.bytes := by
      by_contra hne
      rw [multiaddrLongDns4, if_neg hne] at hma
      cases hma
    rw [hpiece, longDns4, List.length_append, List.length_replicate, MULTIADDR_LENGTH_SIZE] at hlen
    exact absurd hlen (by decide)

/-! ## Exactly the format -/

section

variable {multiaddr : Bytes → Except JsError Multiaddr}

/-- In an array that spans its buffer only the last entry can be wrong: its length must not go past the end. -/
theorem lengthsAgree_ofBuffer_iff (bytes : Bytes) :
    LengthsAgree multiaddr (.ofBuffer bytes) ↔
      ∀ pieces, Cut MULTIADDR_LENGTH_SIZE bytes bytes 0 pieces → Accepted multiaddr pieces →
        Along MULTIADDR_LENGTH_SIZE (fun index _ =>
          index + MULTIADDR_LENGTH_SIZE + lengthAt MULTIADDR_LENGTH_SIZE bytes index ≤ bytes.length) 0 pieces := by
  constructor
  · intro h pieces hcut haccepted
    have hbytes := h.bytes pieces (by rwa [Uint8Array.bytes_ofBuffer]) haccepted
    rw [Uint8Array.bytes_ofBuffer] at hbytes
    exact hcut.framed_self_iff.1 (hcut.framed_iff.2 hbytes)
  · intro h
    constructor
    · intro pieces hframed _
      rw [Uint8Array.bytes_ofBuffer] at hframed ⊢
      exact (hframed.cut_iff length_size_pos).1 (hframed.cut length_size_pos)
    · intro pieces hcut haccepted
      rw [Uint8Array.bytes_ofBuffer] at hcut ⊢
      exact hcut.framed_iff.1 (hcut.framed_self_iff.2 (h pieces hcut haccepted))

/-- **Exactly the format is accepted** iff the lengths in the buffer and in the array agree. -/
theorem exactOn_iff (hbytes : ∀ bytes ma, multiaddr bytes = .ok ma → ma.bytes = bytes) (array : Uint8Array) :
    ExactOn multiaddr array ↔ LengthsAgree multiaddr array := by
  constructor
  · intro h
    constructor
    · intro pieces hframed haccepted
      obtain ⟨multiaddrs, hmultiaddrs⟩ := haccepted.exists_forall₂
      obtain ⟨pieces', hcut, hpieces'⟩ := decodeMultiaddrs_eq_ok_iff.1 ((h multiaddrs).2 ⟨pieces, hframed, hmultiaddrs⟩)
      rw [eq_map_of_forall₂ hbytes hpieces', ← eq_map_of_forall₂ hbytes hmultiaddrs] at hcut
      exact (hframed.cut_iff length_size_pos).1 hcut
    · intro pieces hcut haccepted
      obtain ⟨multiaddrs, hmultiaddrs⟩ := haccepted.exists_forall₂
      obtain ⟨pieces', hframed, hpieces'⟩ := (h multiaddrs).1 (decodeMultiaddrs_eq_ok_iff.2 ⟨pieces, hcut, hmultiaddrs⟩)
      rw [eq_map_of_forall₂ hbytes hpieces', ← eq_map_of_forall₂ hbytes hmultiaddrs] at hframed
      exact hcut.framed_iff.1 hframed
  · intro hagree multiaddrs
    rw [decodeMultiaddrs_eq_ok_iff]
    constructor
    · rintro ⟨pieces, hcut, hpieces⟩
      exact ⟨pieces, hcut.framed_iff.2 (hagree.bytes pieces hcut (.of_forall₂ hpieces)), hpieces⟩
    · rintro ⟨pieces, hframed, hpieces⟩
      exact ⟨pieces, (hframed.cut_iff length_size_pos).2 (hagree.buffer pieces hframed (.of_forall₂ hpieces)), hpieces⟩

end

/-- A view that is in the format: the entry of `/tcp/443` after two bytes of the buffer. -/
def tcp443View : Uint8Array := ⟨[0, 0, 0, 3, 6, 1, 187], 2, 5, by decide⟩

/-- The entry with a buffer of its own is decoded, and nothing else would be. -/
theorem exactOn_iff_tcp443 : ExactOn multiaddrTcp443 (.ofBuffer [0, 3, 6, 1, 187]) := by
  refine (exactOn_iff bytes_multiaddrTcp443 _).2 ((lengthsAgree_ofBuffer_iff _).2 fun pieces hcut _ => ?_)
  cases pieces with
  | nil => trivial
  | cons piece pieces =>
    obtain ⟨hreads, hcut⟩ := cut_cons_iff.1 hcut
    cases hreads.eq_take
    refine ⟨by decide, ?_⟩
    cases pieces with
    | nil => trivial
    | cons piece pieces => exact absurd (cut_cons_iff.1 hcut).1.more (by decide)

/-- An entry whose length is 4 and that has three bytes left is accepted; and a view in the format is not, since the
first length is found before it. -/
theorem not_exactOn : ¬ExactOn multiaddrTcp443 (.ofBuffer [0, 4, 6, 1, 187]) ∧ ¬ExactOn multiaddrTcp443 tcp443View := by
  constructor
  · intro h
    have hcut : Cut MULTIADDR_LENGTH_SIZE (Uint8Array.ofBuffer [0, 4, 6, 1, 187]).buffer
        (Uint8Array.ofBuffer [0, 4, 6, 1, 187]).bytes 0 [tcp443.bytes] :=
      ⟨⟨⟨by decide, by decide, by decide⟩, trivial⟩, by decide⟩
    obtain ⟨pieces, hframed, hpieces⟩ := (h _).1 (decodeMultiaddrs_eq_ok_iff.2 ⟨_, hcut, accepted_tcp443⟩)
    rw [eq_map_of_forall₂ bytes_multiaddrTcp443 hpieces] at hframed
    exact absurd hframed.eq_join (by decide)
  · intro h
    have hframed : Framed MULTIADDR_LENGTH_SIZE tcp443View.bytes [tcp443.bytes] := ⟨by decide, by decide⟩
    obtain ⟨pieces, hcut, hpieces⟩ := decodeMultiaddrs_eq_ok_iff.1 ((h _).2 ⟨_, hframed, accepted_tcp443⟩)
    rw [eq_map_of_forall₂ bytes_multiaddrTcp443 hpieces] at hcut
    exact absurd (cut_cons_iff.1 hcut).1.eq_take (by decide)

end JsWaku.Enr.MultiaddrsCodec
