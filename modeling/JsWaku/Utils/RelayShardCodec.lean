import JsWaku.Runtime.TypedArray
import Mathlib.Data.Nat.Bitwise
import Mathlib.Data.List.Sort

/-!
# The relay-shard codec

`packages/utils/src/common/relay_shard_codec.ts`: a cluster id and a list of shard indices are written either as an
index list (`rs`, fewer than 64 indices) or as a bit vector of 1024 bits (`rsv`), and the decoder tells the two apart
by the length 130 alone.

- An index list written after the header is read back index by index (`encodeIndices_eq`, `decodeIndices_eq`).
- Setting a bit changes that bit only (`setBit_spec`), so after the loop bit `i` is set iff `i` was in the list
  (`setBits_spec`), and reading the 1024 bits filters the range by membership (`decodeBits_eq`).
- An encoding has length 130 exactly when it is a bit vector (`encodeRelayShard_rs`, `encodeRelayShard_rsv`), which
  gives the round trip `decodeRelayShard_encodeRelayShard`.
-/

namespace JsWaku

open Endian

/-- `ShardInfo` of `packages/interfaces/src/enr.ts`. -/
structure ShardInfo where
  clusterId : ℕ
  shards : List ℕ
  deriving DecidableEq, Repr

namespace RelayShardCodec

/-! ## The code -/

/-- The `rs` loop of the decoder, with `numIndices` indices to go. -/
def decodeIndices (bytes : Bytes) : (numIndices offset : ℕ) → Except JsError (List ℕ)
  | 0, _ => .ok []
  | numIndices + 1, offset => if offset + 1 ≥ bytes.length then throw (.error "Unexpected end of data") else do
    let shard ← DataView.getUint16 bytes offset
    let shards ← decodeIndices bytes numIndices (offset + 2)
    return shard :: shards

/-- The test of bit `i` in the `rsv` loop of the decoder. -/
def getBit (bytes : Bytes) (i : ℕ) : Except JsError Bool := do
  let byteIndex := i / 8 + 2
  let bitIndex := 7 - i % 8
  let byte ← DataView.getUint8 bytes byteIndex
  return byte.toNat &&& (1 <<< bitIndex) != 0

/-- The `rsv` loop of the decoder, over the remaining values of `i`. -/
def decodeBits (bytes : Bytes) : List ℕ → Except JsError (List ℕ)
  | [] => .ok []
  | i :: is => do
    let bit ← getBit bytes i
    let shards ← decodeBits bytes is
    return if bit then i :: shards else shards

/-- `decodeRelayShard`. The code copies its argument first, so only the contents of the array matter. -/
def decodeRelayShard (bytes : Bytes) : Except JsError ShardInfo :=
  if bytes.length < 3 then throw (.error "Insufficient data") else do
  let clusterId ← DataView.getUint16 bytes 0
  if bytes.length = 130 then
    let shards ← decodeBits bytes (List.range 1024)
    return { clusterId, shards }
  else
    let numIndices ← DataView.getUint8 bytes 2
    let shards ← decodeIndices bytes numIndices.toNat 3
    return { clusterId, shards }

/-- One round of the `rsv` loop of the encoder. -/
def setBit (view : Bytes) (index : ℕ) : Except JsError Bytes := do
  let byteIndex := index / 8 + 2
  let bitIndex := 7 - index % 8
  let byte ← DataView.getUint8 view byteIndex
  DataView.setUint8 view byteIndex (byte.toNat ||| (1 <<< bitIndex))

/-- The `rs` loop of the encoder. -/
def encodeIndices : (view : Bytes) → (offset : ℕ) → List ℕ → Except JsError Bytes
  | view, _, [] => .ok view
  | view, offset, index :: shards => do
    let view ← DataView.setUint16 view offset index
    encodeIndices view (offset + 2) shards

/-- `encodeRelayShard`. -/
def encodeRelayShard (shardInfo : ShardInfo) : Except JsError Bytes := do
  let { clusterId, shards } := shardInfo
  let totalLength := if shards.length ≥ 64 then 130 else 3 + 2 * shards.length
  let view ← DataView.setUint16 (List.replicate totalLength 0) 0 clusterId
  if shards.length ≥ 64 then
    shards.foldlM setBit view
  else
    let view ← DataView.setUint8 view 2 shards.length
    encodeIndices view 3 shards

/-! ## The index list -/

/-- The bytes of an index list. -/
def indexBytes (shards : List ℕ) : Bytes := shards.flatMap (toBE 2)

@[simp] theorem length_indexBytes (shards : List ℕ) : (indexBytes shards).length = 2 * shards.length := by
  induction shards with
  | nil => rfl
  | cons index shards ih => simp [indexBytes] at ih ⊢; omega

/-- The encoder's loop appends the bytes of the indices. -/
theorem encodeIndices_eq (shards : List ℕ) (done : Bytes) {offset : ℕ} (ho : offset = done.length) :
    encodeIndices (done ++ List.replicate (2 * shards.length) 0) offset shards =
      .ok (done ++ indexBytes shards) := by
  induction shards generalizing done offset with
  | nil => simp [encodeIndices, indexBytes]
  | cons index shards ih =>
    have hset : DataView.setUint16 (done ++ List.replicate (2 * (shards.length + 1)) 0) offset index =
        .ok (done ++ toBE 2 index ++ List.replicate (2 * shards.length) 0) := by
      rw [DataView.setUint16, setBytes_append _ _ _ ho (by simp), List.drop_replicate]
      simp [Nat.mul_add]
    rw [List.length_cons, encodeIndices, hset, ok_bind, ih (done ++ toBE 2 index) (by simp [ho])]
    simp [indexBytes]

/-- The decoder's loop reads the indices back. -/
theorem decodeIndices_eq (shards : List ℕ) (done : Bytes) (offset : ℕ) (ho : offset = done.length)
    (h : ∀ i ∈ shards, i < 2 ^ 16) :
    decodeIndices (done ++ indexBytes shards) shards.length offset = .ok shards := by
  induction shards generalizing done offset with
  | nil => rfl
  | cons index shards ih =>
    have hbytes : indexBytes (index :: shards) = toBE 2 index ++ indexBytes shards := rfl
    have hget : DataView.getUint16 (done ++ indexBytes (index :: shards)) offset = .ok index := by
      rw [hbytes, DataView.getUint16_append done _ ho (h index List.mem_cons_self)]
    have hin : ¬offset + 1 ≥ (done ++ indexBytes (index :: shards)).length := by simp [ho]; omega
    have hrest := ih (done ++ toBE 2 index) (offset + 2) (by simp [ho]) fun i hi => h i (List.mem_cons_of_mem _ hi)
    rw [List.append_assoc, ← hbytes] at hrest
    rw [List.length_cons, decodeIndices, if_neg hin, hget]
    simp only [ok_bind, hrest]
    rfl

/-! ## The bit vector -/

/-- Bit `i` of the vector that follows the cluster id. -/
def bitAt (view : Bytes) (i : ℕ) : Bool := (view.getD (i / 8 + 2) 0).toNat.testBit (7 - i % 8)

theorem bitAt_replicate (n i : ℕ) (c : Bytes) (hc : c.length = 2) : bitAt (c ++ List.replicate n 0) i = false := by
  have h : (c ++ List.replicate n 0).getD (i / 8 + 2) (0 : UInt8) = 0 := by
    rw [List.getD_eq_getElem?_getD, List.getElem?_append_right (by omega), List.getElem?_replicate]
    split <;> rfl
  rw [bitAt, h, UInt8.toNat_zero, Nat.zero_testBit]

/-- Inside the vector the decoder's test reads `bitAt`. -/
theorem getBit_eq {view : Bytes} (hv : view.length = 130) {i : ℕ} (hi : i < 1024) : getBit view i = .ok (bitAt view i) := by
  have hlt : i / 8 + 2 < view.length := by omega
  have hget := DataView.getUint8_eq (List.getElem?_eq_getElem hlt)
  simp only [getBit, hget, ok_bind, bitAt, List.getD_eq_getElem?_getD, List.getElem?_eq_getElem hlt,
    Option.getD_some, Nat.one_shiftLeft, Nat.and_two_pow]
  cases (view[i / 8 + 2]).toNat.testBit (7 - i % 8) <;> simp [pure, Except.pure]

/-- The decoder lists the positions of the set bits. -/
theorem decodeBits_eq {view : Bytes} (hv : view.length = 130) (is : List ℕ) (h : ∀ i ∈ is, i < 1024) :
    decodeBits view is = .ok (is.filter (bitAt view)) := by
  induction is with
  | nil => rfl
  | cons i is ih =>
    have hrest := ih fun j hj => h j (List.mem_cons_of_mem _ hj)
    rw [decodeBits, getBit_eq hv (h i List.mem_cons_self), ok_bind, hrest, ok_bind, List.filter_cons]
    rfl

/-- Two indices name the same bit of the same byte only when they are equal. -/
theorem bit_position_inj {i j : ℕ} (hbyte : i / 8 + 2 = j / 8 + 2) (hbit : 7 - i % 8 = 7 - j % 8) : i = j := by
  omega

/-- A round of the encoder sets the bit of its index and keeps the others and the cluster id. -/
theorem setBit_spec {view : Bytes} (hv : view.length = 130) {index : ℕ} (hi : index < 1024) :
    ∃ view', setBit view index = .ok view' ∧ view'.length = 130 ∧ view'.take 2 = view.take 2 ∧
      ∀ j, bitAt view' j = (bitAt view j || decide (index = j)) := by
  have hlt : index / 8 + 2 < view.length := by omega
  have hget := DataView.getUint8_eq (List.getElem?_eq_getElem hlt)
  set byte := view[index / 8 + 2] with hbyte
  set byte' := UInt8.ofNat (byte.toNat ||| (1 <<< (7 - index % 8))) with hbyte'
  have hset : setBytes view [byte'] (index / 8 + 2) = .ok (view.set (index / 8 + 2) byte') := by
    rw [setBytes, if_pos (by simpa using hlt), List.set_eq_take_append_cons_drop, if_pos hlt]
    simp
  refine ⟨view.set (index / 8 + 2) byte', ?_, by simpa using hv, List.take_set_of_le (by omega), fun j => ?_⟩
  · rw [setBit, hget, ok_bind, DataView.setUint8, hset]
  · have hlow : byte.toNat ||| (1 <<< (7 - index % 8)) < 256 := by
      refine Nat.or_lt_two_pow (n := 8) byte.toNat_lt ?_
      rw [Nat.one_shiftLeft]
      exact Nat.pow_lt_pow_right (by norm_num) (by omega)
    have hnat : byte'.toNat = byte.toNat ||| (1 <<< (7 - index % 8)) := by
      rw [hbyte', UInt8.toNat_ofNat', Nat.mod_eq_of_lt hlow]
    by_cases hj : index / 8 + 2 = j / 8 + 2
    · -- the byte that was written: its other bits are kept by the bitwise or
      have hold : view.getD (j / 8 + 2) 0 = byte := by
        rw [← hj, List.getD_eq_getElem?_getD, List.getElem?_eq_getElem hlt, Option.getD_some]
      have hnew : (view.set (index / 8 + 2) byte').getD (j / 8 + 2) 0 = byte' := by
        rw [← hj, List.getD_eq_getElem?_getD, List.getElem?_set_self hlt, Option.getD_some]
      simp only [bitAt, hold, hnew, hnat, Nat.testBit_or, Nat.one_shiftLeft, Nat.testBit_two_pow]
      congr 1
      exact decide_eq_decide.2 ⟨bit_position_inj hj, fun h => by rw [h]⟩
    · have hne : index ≠ j := fun h => hj (by rw [h])
      simp [bitAt, List.getD_eq_getElem?_getD, List.getElem?_set_ne hj, hne]

/-- After the encoder's loop, the bits set are those set before and those of the list. -/
theorem setBits_spec {shards : List ℕ} {view : Bytes} (hv : view.length = 130) (h : ∀ i ∈ shards, i < 1024) :
    ∃ view', shards.foldlM setBit view = .ok view' ∧ view'.length = 130 ∧ view'.take 2 = view.take 2 ∧
      ∀ j, bitAt view' j = (bitAt view j || decide (j ∈ shards)) := by
  induction shards generalizing view with
  | nil => exact ⟨view, rfl, hv, rfl, by simp⟩
  | cons index shards ih =>
    obtain ⟨v₁, hstep, hlen, hhead, hbits⟩ := setBit_spec hv (h index List.mem_cons_self)
    obtain ⟨v₂, hrest, hlen', hhead', hbits'⟩ := ih hlen fun i hi => h i (List.mem_cons_of_mem _ hi)
    refine ⟨v₂, by rw [List.foldlM_cons, hstep, ok_bind, hrest], hlen', hhead'.trans hhead, ?_⟩
    intro j
    rw [hbits', hbits, Bool.or_assoc]
    simp [eq_comm]

/-! ## The two formats -/

/-- The header of an encoding reads back the cluster id. -/
theorem getUint16_header {clusterId : ℕ} (hc : clusterId < 2 ^ 16) (rest : Bytes) :
    DataView.getUint16 (toBE 2 clusterId ++ rest) 0 = .ok clusterId := by
  simpa using DataView.getUint16_append [] rest rfl hc

/-- Fewer than 64 indices are written as an index list, whose length is odd. -/
theorem encodeRelayShard_rs {clusterId : ℕ} {shards : List ℕ} (h : shards.length < 64) :
    encodeRelayShard ⟨clusterId, shards⟩ =
      .ok (toBE 2 clusterId ++ [UInt8.ofNat shards.length] ++ indexBytes shards) := by
  have hn : ¬shards.length ≥ 64 := by omega
  have hhead : DataView.setUint16 (List.replicate (3 + 2 * shards.length) 0) 0 clusterId =
      .ok (toBE 2 clusterId ++ List.replicate (1 + 2 * shards.length) 0) := by
    have := setBytes_append [] (List.replicate (3 + 2 * shards.length) 0) (toBE 2 clusterId) rfl (by simp; omega)
    rw [DataView.setUint16]
    simpa [List.drop_replicate, show 3 + 2 * shards.length - 2 = 1 + 2 * shards.length by omega] using this
  have hcount : DataView.setUint8 (toBE 2 clusterId ++ List.replicate (1 + 2 * shards.length) 0) 2 shards.length =
      .ok (toBE 2 clusterId ++ [UInt8.ofNat shards.length] ++ List.replicate (2 * shards.length) 0) := by
    rw [DataView.setUint8, setBytes_append _ _ _ (by simp) (by simp), List.drop_replicate]
    simp
  simp only [encodeRelayShard, if_neg hn, hhead, ok_bind, hcount]
  exact encodeIndices_eq shards _ (by simp)

/-- From 64 indices on the encoding is a bit vector of 130 bytes. -/
theorem encodeRelayShard_rsv (clusterId : ℕ) {shards : List ℕ} (h : 64 ≤ shards.length) (hs : ∀ i ∈ shards, i < 1024) :
    ∃ bytes, encodeRelayShard ⟨clusterId, shards⟩ = .ok bytes ∧ bytes.length = 130 ∧
      bytes.take 2 = toBE 2 clusterId ∧ ∀ i, bitAt bytes i = decide (i ∈ shards) := by
  have hhead : DataView.setUint16 (List.replicate 130 0) 0 clusterId =
      .ok (toBE 2 clusterId ++ List.replicate 128 0) := by
    have := setBytes_append [] (List.replicate 130 0) (toBE 2 clusterId) rfl (by simp)
    rw [DataView.setUint16]
    simpa [List.drop_replicate] using this
  have hzeros : (toBE 2 clusterId ++ List.replicate 128 0).length = 130 := by simp
  obtain ⟨bytes, hrun, hlen, htake, hbits⟩ := setBits_spec hzeros hs
  refine ⟨bytes, ?_, hlen, by rw [htake]; simp, fun i => ?_⟩
  · simp only [encodeRelayShard, if_pos (show shards.length ≥ 64 from h), hhead, ok_bind, hrun]
  · rw [hbits, bitAt_replicate _ _ _ (by simp), Bool.false_or]

/-- An index list is decoded to itself. -/
theorem decodeRelayShard_rs {clusterId : ℕ} {shards : List ℕ} (hc : clusterId < 2 ^ 16) (h : shards.length < 64)
    (hs : ∀ i ∈ shards, i < 2 ^ 16) :
    decodeRelayShard (toBE 2 clusterId ++ [UInt8.ofNat shards.length] ++ indexBytes shards) =
      .ok ⟨clusterId, shards⟩ := by
  set bytes := toBE 2 clusterId ++ [UInt8.ofNat shards.length] ++ indexBytes shards with hbytes
  have hlen : bytes.length = 3 + 2 * shards.length := by simp [hbytes]; omega
  have hcluster : DataView.getUint16 bytes 0 = .ok clusterId := by
    rw [hbytes, List.append_assoc]; exact getUint16_header hc _
  have hcount : DataView.getUint8 bytes 2 = .ok (UInt8.ofNat shards.length) := by
    apply DataView.getUint8_eq
    rw [hbytes, List.append_assoc, List.getElem?_append_right (by simp)]
    simp
  have hnat : (UInt8.ofNat shards.length).toNat = shards.length := by
    rw [UInt8.toNat_ofNat', Nat.mod_eq_of_lt (by omega)]
  have hlist : decodeIndices bytes shards.length 3 = .ok shards :=
    decodeIndices_eq shards _ 3 (by simp) hs
  rw [decodeRelayShard, if_neg (by omega), hcluster, ok_bind, if_neg (by omega), hcount, ok_bind, hnat, hlist]
  rfl

/-- A bit vector is decoded to the ordered list of its set bits. -/
theorem decodeRelayShard_rsv {bytes : Bytes} {clusterId : ℕ} (hc : clusterId < 2 ^ 16) (hlen : bytes.length = 130)
    (hhead : bytes.take 2 = toBE 2 clusterId) :
    decodeRelayShard bytes = .ok ⟨clusterId, (List.range 1024).filter (bitAt bytes)⟩ := by
  have hcluster : DataView.getUint16 bytes 0 = .ok clusterId := by
    rw [← List.take_append_drop 2 bytes, hhead]; exact getUint16_header hc _
  have hbits := decodeBits_eq hlen (List.range 1024) (fun i hi => List.mem_range.1 hi)
  rw [decodeRelayShard, if_neg (by omega), hcluster, ok_bind, if_pos hlen, hbits]
  rfl

/-- A strictly increasing list of indices is what filtering the range by membership in it gives. -/
theorem filter_range_eq {shards : List ℕ} (hs : ∀ i ∈ shards, i < 1024) (hsorted : shards.Pairwise (· < ·)) :
    (List.range 1024).filter (fun i => decide (i ∈ shards)) = shards := by
  have hrange : ((List.range 1024).filter (fun i => decide (i ∈ shards))).Pairwise (· < ·) :=
    List.pairwise_lt_range.filter _
  refine List.Perm.eq_of_pairwise' hrange hsorted ?_
  rw [List.perm_ext_iff_of_nodup (hrange.imp Nat.ne_of_lt) (hsorted.imp Nat.ne_of_lt)]
  intro i
  simp only [List.mem_filter, List.mem_range, decide_eq_true_eq]
  exact ⟨fun h => h.2, fun h => ⟨hs i h, h⟩⟩

/-- **The relay-shard round trip.** Every cluster id and list of shard indices in range is encoded, is decoded to the
same cluster id and the same set of indices, and to the same list when it is strictly increasing; the encoding has the
length of a bit vector exactly when it is one. -/
theorem decodeRelayShard_encodeRelayShard (clusterId : ℕ) (shards : List ℕ) (hc : clusterId ≤ 65535)
    (hs : ∀ i ∈ shards, i ≤ 1023) :
    ∃ bytes decoded, encodeRelayShard ⟨clusterId, shards⟩ = .ok bytes ∧ decodeRelayShard bytes = .ok decoded ∧
      decoded.clusterId = clusterId ∧ (∀ i, i ∈ decoded.shards ↔ i ∈ shards) ∧
      (shards.Pairwise (· < ·) → decoded.shards = shards) ∧ (bytes.length = 130 ↔ shards.length ≥ 64) := by
  have hc' : clusterId < 2 ^ 16 := by omega
  have hs' : ∀ i ∈ shards, i < 1024 := fun i hi => by have := hs i hi; omega
  rcases Nat.lt_or_ge shards.length 64 with h | h
  · have hs16 : ∀ i ∈ shards, i < 2 ^ 16 := fun i hi => (hs' i hi).trans (by norm_num)
    refine ⟨_, ⟨clusterId, shards⟩, encodeRelayShard_rs h, decodeRelayShard_rs hc' h hs16, rfl, fun _ => Iff.rfl,
      fun _ => rfl, ?_⟩
    simp; omega
  · obtain ⟨bytes, henc, hlen, hhead, hbits⟩ := encodeRelayShard_rsv clusterId h hs'
    have hfilter : (List.range 1024).filter (bitAt bytes) = (List.range 1024).filter (fun i => decide (i ∈ shards)) :=
      List.filter_congr (fun i _ => hbits i)
    refine ⟨bytes, _, henc, decodeRelayShard_rsv hc' hlen hhead, rfl, fun i => ?_, fun hsorted => ?_, by simp [hlen, h]⟩
    · simp only [hfilter, List.mem_filter, List.mem_range, decide_eq_true_eq]
      exact ⟨fun hi => hi.2, fun hi => ⟨hs' i hi, hi⟩⟩
    · simp only [hfilter, filter_range_eq hs' hsorted]

/-- The round trip on a list below the boundary between the formats. -/
theorem decodeRelayShard_encodeRelayShard_pair :
    ∃ bytes decoded, encodeRelayShard ⟨1, [5, 2]⟩ = .ok bytes ∧ decodeRelayShard bytes = .ok decoded ∧
      decoded.clusterId = 1 ∧ (∀ i, i ∈ decoded.shards ↔ i ∈ [5, 2]) ∧
      ([5, 2].Pairwise (· < ·) → decoded.shards = [5, 2]) ∧ (bytes.length = 130 ↔ [5, 2].length ≥ 64) :=
  decodeRelayShard_encodeRelayShard 1 [5, 2] (by norm_num) (by norm_num)

end RelayShardCodec

end JsWaku
