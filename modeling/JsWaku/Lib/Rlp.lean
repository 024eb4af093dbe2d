import JsWaku.Lib.Endian

/-!
# Recursive length prefix

RLP writes byte strings and lists of items. A byte below `0x80` stands for itself; anything else is a payload after a
header of its length. `decode_encode`: decoding undoes encoding, where lengths fit in eight bytes.
-/

namespace Rlp

open Endian

/-- A byte string or a list of items. -/
inductive Item
  | bytes (bs : List UInt8)
  | list (items : List Item)

/-! ## Encoding -/

/-- How many bytes a length takes. -/
def lengthOfLength (n : ℕ) : ℕ := Nat.log2 n / 8 + 1

/-- The header of a payload of `n` bytes: one byte up to 55, else the length of the length before the length. -/
def header (base n : ℕ) : List UInt8 :=
  if n ≤ 55 then [UInt8.ofNat (base + n)]
  else UInt8.ofNat (base + 55 + lengthOfLength n) :: toBE (lengthOfLength n) n

mutual

/-- The encoding of an item. -/
def encode : Item → List UInt8
  | .bytes [b] => if b.toNat < 0x80 then [b] else header 0x80 1 ++ [b]
  | .bytes bs => header 0x80 bs.length ++ bs
  | .list items => header 0xc0 (encodeList items).length ++ encodeList items

/-- The payload of a list. -/
def encodeList : List Item → List UInt8
  | [] => []
  | item :: items => encode item ++ encodeList items

end

/-! ## Decoding -/

/-- The first `n` bytes and the rest. -/
def takeBytes (n : ℕ) (bs : List UInt8) : Option (List UInt8 × List UInt8) :=
  if n ≤ bs.length then some (bs.take n, bs.drop n) else none

/-- The payload announced by a header that starts with `b`, and the rest. -/
def payload (base : ℕ) (b : UInt8) (bs : List UInt8) : Option (List UInt8 × List UInt8) :=
  if b.toNat ≤ base + 55 then takeBytes (b.toNat - base) bs
  else (takeBytes (b.toNat - (base + 55)) bs).bind fun (length, bs) => takeBytes (beNat length) bs

mutual

/-- An item and the rest, with a bound on the nesting. -/
def decodeItem : ℕ → List UInt8 → Option (Item × List UInt8)
  | 0, _ | _ + 1, [] => none
  | fuel + 1, b :: bs =>
    if b.toNat < 0x80 then some (.bytes [b], bs)
    else if b.toNat < 0xc0 then (payload 0x80 b bs).map fun (bs, rest) => (.bytes bs, rest)
    else (payload 0xc0 b bs).bind fun (bs, rest) => (decodeList fuel bs).map fun items => (.list items, rest)

/-- All items of a payload. -/
def decodeList : ℕ → List UInt8 → Option (List Item)
  | 0, _ => none
  | _ + 1, [] => some []
  | fuel + 1, b :: bs =>
    (decodeItem fuel (b :: bs)).bind fun (item, rest) => (decodeList fuel rest).map fun items => item :: items

end

/-- The item that a byte string encodes. -/
def decode (bs : List UInt8) : Option Item :=
  match decodeItem (2 * bs.length) bs with
  | some (item, []) => some item
  | _ => none

/-! ## The round trip -/

theorem takeBytes_append {n : ℕ} (as bs : List UInt8) (h : n = as.length) : takeBytes n (as ++ bs) = some (as, bs) := by
  subst h
  simp [takeBytes]

theorem lt_pow_lengthOfLength (n : ℕ) : n < 256 ^ lengthOfLength n := by
  have hlog : n < 2 ^ (Nat.log2 n + 1) := Nat.lt_log2_self
  have hpow : (256 : ℕ) ^ lengthOfLength n = 2 ^ (8 * lengthOfLength n) := by
    rw [pow_mul]
    norm_num
  rw [hpow]
  exact hlog.trans_le (Nat.pow_le_pow_right (by omega) (by simp only [lengthOfLength]; omega))

theorem lengthOfLength_le {n : ℕ} (h : n < 2 ^ 64) (hpos : 0 < n) : lengthOfLength n ≤ 8 := by
  have := (Nat.log2_lt hpos.ne').2 h
  simp only [lengthOfLength]
  omega

/-- A header is read back, whatever follows the payload. -/
theorem payload_header (base : ℕ) (bs : List UInt8) (hbase : base ≤ 0xc0) (hlen : bs.length < 2 ^ 64) :
    ∃ b tail, header base bs.length = b :: tail ∧ base ≤ b.toNat ∧ b.toNat ≤ base + 63 ∧
      ∀ rest, payload base b (tail ++ (bs ++ rest)) = some (bs, rest) := by
  rw [header]
  split
  · rename_i hshort
    have hb : (UInt8.ofNat (base + bs.length)).toNat = base + bs.length := by
      rw [UInt8.toNat_ofNat']
      omega
    refine ⟨_, [], rfl, by omega, by omega, fun rest => ?_⟩
    rw [payload, hb, if_pos (by omega)]
    exact takeBytes_append bs rest (by omega)
  · have hle := lengthOfLength_le hlen (by omega)
    have hpos : 0 < lengthOfLength bs.length := Nat.succ_pos _
    have hb : (UInt8.ofNat (base + 55 + lengthOfLength bs.length)).toNat = base + 55 + lengthOfLength bs.length := by
      rw [UInt8.toNat_ofNat']
      omega
    refine ⟨_, _, rfl, by omega, by omega, fun rest => ?_⟩
    rw [payload, hb, if_neg (by omega), takeBytes_append (toBE _ _) (bs ++ rest) (by simp)]
    simp only [Option.bind_some, beNat_toBE, Nat.mod_eq_of_lt (lt_pow_lengthOfLength _)]
    exact takeBytes_append bs rest rfl

theorem header_ne_nil (base n : ℕ) : header base n ≠ [] := by
  rw [header]
  split <;> simp

theorem encode_ne_nil : ∀ item : Item, encode item ≠ []
  | .bytes [] => by simp [encode, header_ne_nil]
  | .bytes [b] => by rw [encode]; split <;> simp
  | .bytes (b :: c :: bs) => by simp [encode]
  | .list items => by simp [encode, header_ne_nil]

/-- A byte string after its header. -/
theorem decodeItem_header {fuel : ℕ} (bs rest : List UInt8) (hlen : bs.length < 2 ^ 64) :
    decodeItem (fuel + 1) (header 0x80 bs.length ++ bs ++ rest) = some (.bytes bs, rest) := by
  obtain ⟨b, tail, hheader, hge, hle, hpayload⟩ := payload_header 0x80 bs (by omega) hlen
  rw [hheader, List.append_assoc, List.cons_append, decodeItem, if_neg (by omega), if_pos (by omega), hpayload]
  rfl

mutual

/-- An item is read back, whatever follows it. -/
theorem decodeItem_encode : ∀ (item : Item) (fuel : ℕ) (rest : List UInt8), (encode item).length < 2 ^ 64 →
    2 * (encode item).length ≤ fuel → decodeItem fuel (encode item ++ rest) = some (item, rest)
  | item, 0, rest, _, hfuel => by
    have := List.length_pos_of_ne_nil (encode_ne_nil item)
    omega
  | .bytes [], fuel + 1, rest, hlen, _ => decodeItem_header [] rest (by simp)
  | .bytes [b], fuel + 1, rest, hlen, _ => by
    rw [encode]
    split
    · rename_i hb
      rw [List.singleton_append, decodeItem, if_pos hb]
    · exact decodeItem_header [b] rest (by simp)
  | .bytes (b :: c :: bs), fuel + 1, rest, hlen, _ => by
    refine decodeItem_header (b :: c :: bs) rest ?_
    simp only [encode, List.length_append] at hlen
    omega
  | .list items, fuel + 1, rest, hlen, hfuel => by
    have hheader := List.length_pos_of_ne_nil (header_ne_nil 0xc0 (encodeList items).length)
    simp only [encode, List.length_append] at hlen hfuel
    have ih := decodeList_encodeList items fuel (by omega) (by omega)
    obtain ⟨b, tail, heq, hge, -, hpayload⟩ := payload_header 0xc0 (encodeList items) (by omega) (by omega)
    rw [encode, heq, List.append_assoc, List.cons_append, decodeItem, if_neg (by omega), if_neg (by omega), hpayload]
    simp only [Option.bind_some, ih, Option.map_some]

/-- A payload is read back. -/
theorem decodeList_encodeList : ∀ (items : List Item) (fuel : ℕ), (encodeList items).length < 2 ^ 64 →
    2 * (encodeList items).length + 1 ≤ fuel → decodeList fuel (encodeList items) = some items
  | [], fuel + 1, _, _ => rfl
  | item :: items, fuel + 1, hlen, hfuel => by
    have hpos := List.length_pos_of_ne_nil (encode_ne_nil item)
    rw [encodeList] at hlen hfuel ⊢
    rw [List.length_append] at hlen hfuel
    have hitem := decodeItem_encode item fuel (encodeList items) (by omega) (by omega)
    have hitems := decodeList_encodeList items fuel (by omega) (by omega)
    obtain ⟨b, bs, heq⟩ := List.exists_cons_of_ne_nil (List.append_ne_nil_of_left_ne_nil (encode_ne_nil item)
      (encodeList items))
    rw [heq] at hitem ⊢
    rw [decodeList, hitem]
    simp only [Option.bind_some, hitems, Option.map_some]

end

/-- **Decoding undoes encoding.** -/
theorem decode_encode (item : Item) (hlen : (encode item).length < 2 ^ 64) : decode (encode item) = some item := by
  have h := decodeItem_encode item (2 * (encode item).length) [] hlen le_rfl
  rw [List.append_nil] at h
  rw [decode, h]

end Rlp
