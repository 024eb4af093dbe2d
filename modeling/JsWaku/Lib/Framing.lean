import JsWaku.Lib.Endian

/-!
# Entries with a length in front

A list of byte strings is written as one: each `piece` after its length in `w` bytes, most significant byte first
(`join`). `Framed w bytes pieces` says that `bytes` is written so and that the lengths fit.

A reader goes through the bytes by the lengths that it finds, which need not be those of the bytes themselves where it
looks for them in a larger `buffer`, and takes what is left where a length is too large (`Cut`). When both agree is a
matter of each position: `cut_iff` for bytes that are framed, `framed_iff` for bytes that were cut.
-/

namespace Framing

open Endian

variable {w index : ℕ} {bytes buffer piece : List UInt8} {pieces : List (List UInt8)}

/-! ## Definitions -/

/-- The piece after its length. -/
def entry (w : ℕ) (piece : List UInt8) : List UInt8 := toBE w piece.length ++ piece

/-- The entries of the pieces, one after another. -/
def join (w : ℕ) (pieces : List (List UInt8)) : List UInt8 := pieces.flatMap (entry w)

/-- The bytes are the entries of the pieces, and every length fits its field. -/
structure Framed (w : ℕ) (bytes : List UInt8) (pieces : List (List UInt8)) : Prop where
  eq_join : bytes = join w pieces
  fits : ∀ piece ∈ pieces, piece.length < 256 ^ w

/-- The relation holds between the position of each length and the piece after it. -/
def Along (w : ℕ) (P : ℕ → List UInt8 → Prop) : ℕ → List (List UInt8) → Prop
  | _, [] => True
  | index, piece :: pieces => P index piece ∧ Along w P (index + w + piece.length) pieces

/-- The length that is found at a position. -/
def lengthAt (w : ℕ) (buffer : List UInt8) (index : ℕ) : ℕ := beNat ((buffer.drop index).take w)

/-- The piece of `bytes` that a reader takes by the length it finds in `buffer`. -/
structure Reads (w : ℕ) (buffer bytes : List UInt8) (index : ℕ) (piece : List UInt8) : Prop where
  more : index < bytes.length
  inBuffer : index + w ≤ buffer.length
  eq_take : piece = (bytes.drop (index + w)).take (lengthAt w buffer index)

/-- A reader that starts at the position takes these pieces and comes to the end. -/
structure Cut (w : ℕ) (buffer bytes : List UInt8) (index : ℕ) (pieces : List (List UInt8)) : Prop where
  reads : Along w (Reads w buffer bytes) index pieces
  ends : bytes.length ≤ index + (join w pieces).length

/-- The length in `buffer`, cut where `bytes` ends, is the one of the piece. -/
def BufferAgrees (w : ℕ) (buffer bytes : List UInt8) (index : ℕ) (piece : List UInt8) : Prop :=
  index + w ≤ buffer.length ∧ piece.length = min (lengthAt w buffer index) (bytes.length - (index + w))

/-- The length in `bytes` itself is the one of the piece. -/
def BytesAgree (w : ℕ) (bytes : List UInt8) (index : ℕ) (piece : List UInt8) : Prop :=
  (bytes.drop index).take w = toBE w piece.length

/-! ## Simple facts -/

@[simp] theorem length_entry (w : ℕ) (piece : List UInt8) : (entry w piece).length = w + piece.length := by
  simp [entry]

@[simp] theorem join_nil (w : ℕ) : join w [] = [] := rfl

@[simp] theorem join_cons (w : ℕ) (piece : List UInt8) (pieces : List (List UInt8)) :
    join w (piece :: pieces) = entry w piece ++ join w pieces := rfl

@[simp] theorem along_nil (w : ℕ) (P : ℕ → List UInt8 → Prop) (index : ℕ) : Along w P index [] := trivial

@[simp] theorem along_cons {P : ℕ → List UInt8 → Prop} :
    Along w P index (piece :: pieces) ↔ P index piece ∧ Along w P (index + w + piece.length) pieces := Iff.rfl

/-- What follows at each position. -/
theorem Along.imp {P Q : ℕ → List UInt8 → Prop} (h : Along w P index pieces)
    (hPQ : ∀ index, ∀ piece ∈ pieces, P index piece → Q index piece) : Along w Q index pieces := by
  induction pieces generalizing index with
  | nil => trivial
  | cons piece pieces ih =>
    refine ⟨hPQ _ piece List.mem_cons_self h.1, ih h.2 ?_⟩
    exact fun index piece hmem => hPQ index piece (List.mem_cons_of_mem _ hmem)

/-- What is the same at each position. -/
theorem Along.congr {P Q R : ℕ → List UInt8 → Prop} (h : Along w R index pieces)
    (hPQ : ∀ index piece, R index piece → (P index piece ↔ Q index piece)) :
    Along w P index pieces ↔ Along w Q index pieces := by
  induction pieces generalizing index with
  | nil => exact Iff.rfl
  | cons piece pieces ih => exact and_congr (hPQ index piece h.1) (ih h.2)

/-- What follows for each piece. -/
theorem Along.forall_mem {P : ℕ → List UInt8 → Prop} {Q : List UInt8 → Prop} (h : Along w P index pieces)
    (hPQ : ∀ index piece, P index piece → Q piece) : ∀ piece ∈ pieces, Q piece := by
  induction pieces generalizing index with
  | nil => simp
  | cons piece pieces ih => exact List.forall_mem_cons.2 ⟨hPQ _ _ h.1, ih h.2⟩

theorem lengthAt_lt (w : ℕ) (buffer : List UInt8) (index : ℕ) : lengthAt w buffer index < 256 ^ w := by
  have hlt := beNat_lt ((buffer.drop index).take w)
  have hlen : ((buffer.drop index).take w).length ≤ w := List.length_take_le _ _
  exact hlt.trans_le (Nat.pow_le_pow_right (by decide) hlen)

/-- The length of a piece that was read. -/
theorem Reads.length_eq (h : Reads w buffer bytes index piece) :
    piece.length = min (lengthAt w buffer index) (bytes.length - (index + w)) := by
  rw [h.eq_take, List.length_take, List.length_drop]

theorem Reads.length_lt (h : Reads w buffer bytes index piece) : piece.length < 256 ^ w := by
  have hlt := lengthAt_lt w buffer index
  have hlen := h.length_eq
  omega

theorem Cut.fits (h : Cut w buffer bytes index pieces) : ∀ piece ∈ pieces, piece.length < 256 ^ w :=
  h.reads.forall_mem fun _ _ hreads => hreads.length_lt

/-- A reader at the end is done. -/
theorem cut_nil_iff : Cut w buffer bytes index [] ↔ bytes.length ≤ index :=
  ⟨fun h => by simpa using h.ends, fun h => ⟨trivial, by simpa using h⟩⟩

/-- One piece more. -/
theorem cut_cons_iff : Cut w buffer bytes index (piece :: pieces) ↔
    Reads w buffer bytes index piece ∧ Cut w buffer bytes (index + w + piece.length) pieces := by
  constructor
  · rintro ⟨⟨hpiece, hpieces⟩, hends⟩
    refine ⟨hpiece, hpieces, ?_⟩
    simp only [join_cons, List.length_append, length_entry] at hends
    omega
  · rintro ⟨hpiece, hpieces, hends⟩
    refine ⟨⟨hpiece, hpieces⟩, ?_⟩
    simp only [join_cons, List.length_append, length_entry]
    omega

/-- Past the end it does not matter where. -/
theorem cut_of_end {i j : ℕ} (hi : bytes.length ≤ i) (hj : bytes.length ≤ j) :
    Cut w buffer bytes i pieces ↔ Cut w buffer bytes j pieces := by
  cases pieces with
  | nil => simp only [cut_nil_iff, hi, hj]
  | cons piece pieces =>
    rw [cut_cons_iff, cut_cons_iff]
    exact iff_of_false (fun h => hi.not_gt h.1.more) fun h => hj.not_gt h.1.more

/-- The reader goes on by the length that it found. -/
theorem cut_next_iff (h : Reads w buffer bytes index piece) :
    Cut w buffer bytes (index + w + piece.length) pieces ↔
      Cut w buffer bytes (index + w + lengthAt w buffer index) pieces := by
  have hlen := h.length_eq
  by_cases hmore : lengthAt w buffer index ≤ bytes.length - (index + w)
  · rw [hlen, Nat.min_eq_left hmore]
  · exact cut_of_end (by omega) (by omega)

/-! ## Framed and cut -/

/-- Bytes that go on with the entries are cut into the pieces iff the lengths in the buffer are theirs. -/
theorem cut_append_iff (hw : 0 < w) (pre : List UInt8) :
    Cut w buffer (pre ++ join w pieces) pre.length pieces ↔
      Along w (BufferAgrees w buffer (pre ++ join w pieces)) pre.length pieces := by
  induction pieces generalizing pre with
  | nil => simp [cut_nil_iff]
  | cons piece pieces ih =>
    have hih := ih (pre ++ entry w piece)
    rw [List.append_assoc, ← join_cons, List.length_append, length_entry, ← Nat.add_assoc] at hih
    have hmore : pre.length < (pre ++ join w (piece :: pieces)).length := by
      simp only [List.length_append, join_cons, length_entry]
      omega
    have hdrop : (pre ++ join w (piece :: pieces)).drop (pre.length + w) = piece ++ join w pieces := by
      rw [← List.drop_drop, List.drop_left, join_cons, entry, List.append_assoc]
      exact List.drop_left' (length_toBE w piece.length)
    rw [cut_cons_iff, along_cons, hih]
    refine and_congr_left fun _ => ⟨fun h => ⟨h.inBuffer, h.length_eq⟩, fun ⟨hbuffer, hlen⟩ => ⟨hmore, hbuffer, ?_⟩⟩
    -- The length found is the one of the piece, or nothing is left after the piece.
    rw [← List.length_drop, hdrop] at hlen
    rw [hdrop, List.take_eq_take_min, ← hlen, List.take_left]

/-- **Framed bytes are cut** into their pieces iff the lengths in the buffer are theirs. -/
theorem Framed.cut_iff (h : Framed w bytes pieces) (hw : 0 < w) :
    Cut w buffer bytes 0 pieces ↔ Along w (BufferAgrees w buffer bytes) 0 pieces := by
  rw [h.eq_join]
  exact cut_append_iff hw []

/-- What is left at a position is framed if every length in the bytes is the one of its piece. -/
theorem Cut.drop_eq_join (h : Cut w buffer bytes index pieces) (hbytes : Along w (BytesAgree w bytes) index pieces) :
    bytes.drop index = join w pieces := by
  induction pieces generalizing index with
  | nil => exact List.drop_of_length_le (cut_nil_iff.1 h)
  | cons piece pieces ih =>
    obtain ⟨hreads, hcut⟩ := cut_cons_iff.1 h
    have hpiece : (bytes.drop (index + w)).take piece.length = piece := by
      rw [hreads.length_eq, ← List.length_drop, ← List.take_eq_take_min, ← hreads.eq_take]
    calc bytes.drop index
        = (bytes.drop index).take w ++ (bytes.drop (index + w)) := by
          rw [← List.drop_drop, List.take_append_drop]
      _ = (bytes.drop index).take w ++ ((bytes.drop (index + w)).take piece.length ++
            bytes.drop (index + w + piece.length)) := by
          rw [← List.drop_drop (i := piece.length), List.take_append_drop]
      _ = join w (piece :: pieces) := by
          rw [hbytes.1, hpiece, ih hcut hbytes.2, join_cons, entry, List.append_assoc]

/-- Each entry stands at its position. -/
theorem along_append (pre : List UInt8) : Along w (fun index piece => BytesAgree w (pre ++ join w pieces) index piece ∧
    index + w + piece.length ≤ (pre ++ join w pieces).length) pre.length pieces := by
  induction pieces generalizing pre with
  | nil => trivial
  | cons piece pieces ih =>
    have hindex : (pre ++ entry w piece).length = pre.length + w + piece.length := by
      rw [List.length_append, length_entry, ← Nat.add_assoc]
    have hih := ih (pre ++ entry w piece)
    rw [List.append_assoc, ← join_cons, hindex] at hih
    refine ⟨⟨?_, ?_⟩, hih⟩
    · rw [BytesAgree, List.drop_left, join_cons, entry, List.append_assoc]
      exact List.take_left' (length_toBE w piece.length)
    · simp only [List.length_append, join_cons, length_entry]
      omega

theorem Framed.along (h : Framed w bytes pieces) :
    Along w (fun index piece => BytesAgree w bytes index piece ∧ index + w + piece.length ≤ bytes.length) 0 pieces := by
  rw [h.eq_join]
  exact along_append []

/-- **Bytes that were cut are framed** iff each piece comes after its own length. -/
theorem Cut.framed_iff (h : Cut w buffer bytes 0 pieces) :
    Framed w bytes pieces ↔ Along w (BytesAgree w bytes) 0 pieces :=
  ⟨fun hframed => hframed.along.imp fun _ _ _ hentry => hentry.1,
    fun hbytes => ⟨by simpa using h.drop_eq_join hbytes, h.fits⟩⟩

/-! ## A reader of the bytes themselves -/

/-- Framed bytes are cut by their own lengths. -/
theorem Framed.cut (h : Framed w bytes pieces) (hw : 0 < w) : Cut w bytes bytes 0 pieces := by
  refine (h.cut_iff hw).2 (h.along.imp fun index piece hmem hentry => ?_)
  obtain ⟨hbytes, hin⟩ := hentry
  refine ⟨by omega, ?_⟩
  rw [lengthAt, hbytes, beNat_toBE, Nat.mod_eq_of_lt (h.fits piece hmem)]
  omega

/-- A piece that was read by the bytes' own length has this length, unless the bytes end before. -/
theorem Reads.bytesAgree_iff (h : Reads w bytes bytes index piece) :
    BytesAgree w bytes index piece ↔ index + w + lengthAt w bytes index ≤ bytes.length := by
  have hlen := h.length_eq
  have hin := h.inBuffer
  have htake : ((bytes.drop index).take w).length = w := by
    rw [List.length_take, List.length_drop]
    omega
  constructor
  · intro hbytes
    have hfound : lengthAt w bytes index = piece.length := by
      rw [lengthAt, hbytes, beNat_toBE, Nat.mod_eq_of_lt h.length_lt]
    omega
  · intro hfits
    have hfound : piece.length = beNat ((bytes.drop index).take w) := by
      rw [← lengthAt]
      omega
    rw [BytesAgree, hfound]
    exact (toBE_beNat htake).symm

/-- Bytes cut by their own lengths are framed iff the last length does not go past the end. -/
theorem Cut.framed_self_iff (h : Cut w bytes bytes 0 pieces) : Framed w bytes pieces ↔
    Along w (fun index _ => index + w + lengthAt w bytes index ≤ bytes.length) 0 pieces := by
  rw [h.framed_iff]
  exact h.reads.congr fun index piece hreads => hreads.bytesAgree_iff

end Framing
