import JsWaku.Core.Message

/-!
# The message hash

`messageHash` of `packages/message-hash/src/index.ts` and `createCursor` of `packages/sdk/src/store/store.ts`; SHA-256
is a parameter. The hash of a proto object takes its nanoseconds as they are, the hash of a decoded message takes the
milliseconds of its `Date` times a million. The two preimages end in the same timestamp bytes exactly when the
timestamp is a whole number of milliseconds (`preimage_eq_iff`), and so do the hashes (`messageHash_decoded_iff`).
-/

namespace JsWaku.MessageHash

open Endian

/-! ## The code -/

/-- The types of timestamp that `messageHash` meets. -/
inductive Timestamp
  | date (date : Date)
  | bigint (value : ℤ)
  deriving DecidableEq, Repr

/-- `IProtoMessage | IDecodedMessage`. -/
inductive Message
  | proto (m : IProtoMessage)
  | decoded (d : Version0.DecodedMessage)

namespace Message

/-- `message.payload`. -/
def payload : Message → Bytes
  | proto m => m.payload
  | decoded d => d.payload

/-- `message.contentTopic`. -/
def contentTopic : Message → String
  | proto m => m.contentTopic
  | decoded d => d.contentTopic

/-- `message.meta`. -/
def metaField : Message → Option Bytes
  | proto m => m.metaField
  | decoded d => d.metaField

/-- `message.timestamp`. -/
def timestamp : Message → Option Timestamp
  | proto m => m.timestamp.map .bigint
  | decoded d => d.timestamp.map .date

end Message

/-- `utf8ToBytes`, for strings without lone surrogates. -/
def utf8ToBytes (s : String) : Bytes := s.toUTF8.data.toList

/-- `numberToBytes` of a bigint: 64 bits in two's complement. -/
def numberToBytes (value : ℤ) : Bytes := toBE 8 (value % 2 ^ 64).toNat

/-- `tryConvertTimestampToBytes`. A zero bigint is falsy, a `Date` never is. -/
def tryConvertTimestampToBytes : Option Timestamp → Except JsError (Option Bytes)
  | none => .ok none
  | some (.bigint value) => if value = 0 then .ok none else .ok (some (numberToBytes value))
  | some (.date date) => do
    let millis ← date.toBigInt
    return some (numberToBytes (millis * 1000000))

/-- The bytes that `messageHash` hashes. -/
def preimage (pubsubTopic : String) (message : Message) : Except JsError Bytes := do
  let pubsubTopicBytes := utf8ToBytes pubsubTopic
  let contentTopicBytes := utf8ToBytes message.contentTopic
  let timestampBytes ← tryConvertTimestampToBytes message.timestamp
  concat ([some pubsubTopicBytes, some message.payload, some contentTopicBytes, message.metaField,
    timestampBytes].filterMap id) none

/-- `messageHash`. -/
def messageHash (sha256 : Bytes → Bytes) (pubsubTopic : String) (message : Message) : Except JsError Bytes := do
  let bytes ← preimage pubsubTopic message
  return sha256 bytes

/-- `bytesToHex`. -/
def bytesToHex (bytes : Bytes) : String :=
  String.ofList (bytes.flatMap fun b => [Nat.digitChar (b.toNat / 16), Nat.digitChar (b.toNat % 16)])

/-- `messageHashStr`. -/
def messageHashStr (sha256 : Bytes → Bytes) (pubsubTopic : String) (message : Message) : Except JsError String := do
  let hash ← messageHash sha256 pubsubTopic message
  return bytesToHex hash

/-- `createCursor` of the store. -/
def createCursor (sha256 : Bytes → Bytes) (message : Version0.DecodedMessage) : Except JsError Bytes :=
  messageHash sha256 message.pubsubTopic (.decoded message)

/-! ## The timestamp bytes -/

/-- What the preimage holds before the timestamp. -/
def fields (pubsubTopic : String) (message : Message) : Bytes :=
  utf8ToBytes pubsubTopic ++ message.payload ++ utf8ToBytes message.contentTopic ++ message.metaField.getD []

/-- Nanoseconds truncated to milliseconds. -/
def truncate (ns : ℤ) : ℤ := ns.tdiv 1000000 * 1000000

/-- A preimage ends in the timestamp bytes. -/
theorem preimage_eq (t : String) (message : Message) {timestampBytes : Option Bytes}
    (h : tryConvertTimestampToBytes message.timestamp = .ok timestampBytes) :
    preimage t message = .ok (fields t message ++ timestampBytes.getD []) := by
  rw [preimage, h, ok_bind, concat_none]
  cases hmeta : message.metaField <;> cases timestampBytes <;> simp [fields, hmeta]

/-- A proto object always has a hash. -/
theorem messageHashStr_proto (sha256 : Bytes → Bytes) (t : String) (m : IProtoMessage) :
    ∃ hash, messageHashStr sha256 t (.proto m) = .ok hash := by
  obtain ⟨timestampBytes, h⟩ : ∃ timestampBytes,
      tryConvertTimestampToBytes (Message.proto m).timestamp = .ok timestampBytes := by
    cases hm : m.timestamp with
    | none => exact ⟨none, by simp [Message.timestamp, hm, tryConvertTimestampToBytes]⟩
    | some ns =>
      by_cases h0 : ns = 0
      · exact ⟨none, by simp [Message.timestamp, hm, tryConvertTimestampToBytes, h0]⟩
      · exact ⟨some (numberToBytes ns), by simp [Message.timestamp, hm, tryConvertTimestampToBytes, h0]⟩
  exact ⟨_, by rw [messageHashStr, messageHash, preimage_eq t _ h]; rfl⟩

/-- The timestamp of a proto object without one, or with a zero one, leaves no bytes on either path. -/
theorem timestampBytes_absent (t : String) {m : IProtoMessage} (h : m.timestamp.getD 0 = 0) :
    tryConvertTimestampToBytes (Message.proto m).timestamp = .ok none ∧
      tryConvertTimestampToBytes (Message.decoded ⟨t, m⟩).timestamp = .ok none := by
  cases hm : m.timestamp with
  | none =>
    simp [Message.timestamp, Version0.DecodedMessage.timestamp, hm, tryConvertTimestampToBytes]
  | some ns =>
    have h0 : ns = 0 := by simpa [hm] using h
    simp [Message.timestamp, Version0.DecodedMessage.timestamp, hm, h0, tryConvertTimestampToBytes]

/-- Any other 64-bit timestamp leaves eight bytes, of the nanoseconds on one path and of the truncated nanoseconds on
the other. -/
theorem timestampBytes_present (t : String) {m : IProtoMessage} {ns : ℤ} (hm : m.timestamp = some ns) (h0 : ns ≠ 0)
    (hns : -2 ^ 63 ≤ ns ∧ ns < 2 ^ 63) :
    tryConvertTimestampToBytes (Message.proto m).timestamp = .ok (some (numberToBytes ns)) ∧
      tryConvertTimestampToBytes (Message.decoded ⟨t, m⟩).timestamp = .ok (some (numberToBytes (truncate ns))) := by
  have hdate : (ns.tdiv OneMillion).natAbs ≤ 8640000000000000 := by
    rw [OneMillion, Int.natAbs_tdiv]
    have : ns.natAbs ≤ 2 ^ 63 := by omega
    calc ns.natAbs / (1000000 : ℤ).natAbs ≤ 2 ^ 63 / 1000000 := Nat.div_le_div_right this
      _ ≤ 8640000000000000 := by norm_num
  constructor
  · simp [Message.timestamp, hm, tryConvertTimestampToBytes, h0]
  · simp only [Message.timestamp, Version0.DecodedMessage.timestamp, hm, if_neg h0, Option.map_some,
      tryConvertTimestampToBytes, Date.ofBigInt, if_pos hdate, Date.toBigInt, ok_bind]
    rfl

/-- 64-bit numbers are told apart by their bytes. -/
theorem numberToBytes_inj {a b : ℤ} (ha : -2 ^ 63 ≤ a ∧ a < 2 ^ 63) (hb : -2 ^ 63 ≤ b ∧ b < 2 ^ 63)
    (h : numberToBytes a = numberToBytes b) : a = b := by
  have hmod := toBE_inj h
  rw [Nat.mod_eq_of_lt (by omega), Nat.mod_eq_of_lt (by omega)] at hmod
  omega

/-- Truncation is towards zero. -/
theorem truncate_cases (ns : ℤ) : truncate ns = if 0 ≤ ns then ns / 1000000 * 1000000 else -(-ns / 1000000 * 1000000) := by
  rw [truncate]
  split
  · rename_i h; rw [Int.tdiv_eq_ediv_of_nonneg h]
  · rename_i h
    rw [← neg_neg ns, Int.neg_tdiv, Int.tdiv_eq_ediv_of_nonneg (by omega), neg_neg]; ring

theorem truncate_eq_iff (ns : ℤ) : truncate ns = ns ↔ ns % 1000000 = 0 := by
  rw [truncate_cases]; split <;> omega

theorem truncate_bounds {ns : ℤ} (h : -2 ^ 63 ≤ ns ∧ ns < 2 ^ 63) : -2 ^ 63 ≤ truncate ns ∧ truncate ns < 2 ^ 63 := by
  rw [truncate_cases]; split <;> omega

/-- The timestamp is a whole number of milliseconds, or absent. -/
def WholeMillis (m : IProtoMessage) : Prop := m.timestamp.getD 0 % 1000000 = 0

/-- The two paths hash the same bytes exactly for whole milliseconds. -/
theorem preimage_eq_iff (t : String) {m : IProtoMessage} (hns : ∀ ns, m.timestamp = some ns → -2 ^ 63 ≤ ns ∧ ns < 2 ^ 63) :
    ∃ a b, preimage t (.proto m) = .ok a ∧ preimage t (.decoded ⟨t, m⟩) = .ok b ∧ (a = b ↔ WholeMillis m) := by
  by_cases h0 : m.timestamp.getD 0 = 0
  · obtain ⟨hp, hd⟩ := timestampBytes_absent t h0
    refine ⟨_, _, preimage_eq t _ hp, preimage_eq t _ hd, ?_⟩
    simp [WholeMillis, h0, fields, Message.payload, Message.contentTopic, Message.metaField,
      Version0.DecodedMessage.payload, Version0.DecodedMessage.contentTopic, Version0.DecodedMessage.metaField]
  · obtain ⟨ns, hm⟩ : ∃ ns, m.timestamp = some ns := by
      cases hm : m.timestamp with
      | none => simp [hm] at h0
      | some ns => exact ⟨ns, rfl⟩
    have hne : ns ≠ 0 := by simpa [hm] using h0
    obtain ⟨hp, hd⟩ := timestampBytes_present t hm hne (hns ns hm)
    refine ⟨_, _, preimage_eq t _ hp, preimage_eq t _ hd, ?_⟩
    have hfields : fields t (.decoded ⟨t, m⟩) = fields t (.proto m) := rfl
    have hwhole : WholeMillis m ↔ ns % 1000000 = 0 := by simp [WholeMillis, hm]
    rw [hfields, List.append_cancel_left_eq, hwhole, ← truncate_eq_iff]
    constructor
    · intro h
      exact (numberToBytes_inj (hns ns hm) (truncate_bounds (hns ns hm)) h).symm
    · intro h
      simp [h]

/-- **The two message hashes agree exactly for whole milliseconds.** For every topic and proto object with a 64-bit
timestamp or none, and SHA-256 without a collision between the two preimages, the hash of the proto object is the hash
of the decoded message, and so the cursor the store makes of it, iff the timestamp is a multiple of a million
nanoseconds or absent. -/
theorem messageHash_decoded_iff (sha256 : Bytes → Bytes) (t : String) (m : IProtoMessage)
    (hns : ∀ ns, m.timestamp = some ns → -2 ^ 63 ≤ ns ∧ ns < 2 ^ 63)
    (hsha : ∀ a b, preimage t (.proto m) = .ok a → preimage t (.decoded ⟨t, m⟩) = .ok b → sha256 a = sha256 b → a = b) :
    createCursor sha256 ⟨t, m⟩ = messageHash sha256 t (.decoded ⟨t, m⟩) ∧
      (messageHash sha256 t (.proto m) = messageHash sha256 t (.decoded ⟨t, m⟩) ↔ WholeMillis m) := by
  obtain ⟨a, b, ha, hb, hiff⟩ := preimage_eq_iff t hns
  refine ⟨rfl, ?_⟩
  rw [messageHash, messageHash, ha, hb, ok_bind, ok_bind, ← hiff]
  constructor
  · intro h
    exact hsha a b ha hb (Except.ok.inj h)
  · intro h
    rw [h]

/-- A message stamped with one nanosecond. -/
def oneNanosecond : IProtoMessage :=
  { payload := [1], contentTopic := "c", version := none, timestamp := some 1, metaField := none,
    rateLimitProof := none, ephemeral := none }

/-- A hash function with the SHA-256 digests of the two preimages of `oneNanosecond` on the topic `t`. -/
def sampleSha256 (bytes : Bytes) : Bytes :=
  if bytes = [116, 1, 99, 0, 0, 0, 0, 0, 0, 0, 1] then
    toBE 32 0x25bcf74df50f7489107105e37863b5ab8c1c0a9069cecc2fd9fef49ba7340c40
  else toBE 32 0x5024a080b729e229d13bae85c8fa2bf61b89decc00d773b5d20582487dbfbfee

/-- The two hashes of a message stamped with one nanosecond differ. -/
theorem messageHash_ne_decoded :
    ¬∀ (t : String) (m : IProtoMessage), (∀ ns, m.timestamp = some ns → -2 ^ 63 ≤ ns ∧ ns < 2 ^ 63) →
      messageHash sampleSha256 t (.proto m) = messageHash sampleSha256 t (.decoded ⟨t, m⟩) := by
  intro h
  have := h "t" oneNanosecond (fun ns hns => by cases hns; norm_num)
  revert this
  decide +kernel

/-- The condition decides that message. -/
theorem messageHash_decoded_iff_oneNanosecond :
    createCursor sampleSha256 ⟨"t", oneNanosecond⟩ = messageHash sampleSha256 "t" (.decoded ⟨"t", oneNanosecond⟩) ∧
      (messageHash sampleSha256 "t" (.proto oneNanosecond) =
        messageHash sampleSha256 "t" (.decoded ⟨"t", oneNanosecond⟩) ↔ WholeMillis oneNanosecond) := by
  refine messageHash_decoded_iff sampleSha256 "t" oneNanosecond (fun ns hns => by cases hns; norm_num) ?_
  intro a b ha hb hab
  have ha' : preimage "t" (.proto oneNanosecond) = .ok [116, 1, 99, 0, 0, 0, 0, 0, 0, 0, 1] := by decide +kernel
  have hb' : preimage "t" (.decoded ⟨"t", oneNanosecond⟩) = .ok [116, 1, 99, 0, 0, 0, 0, 0, 0, 0, 0] := by
    decide +kernel
  cases Except.ok.inj (ha.symm.trans ha')
  cases Except.ok.inj (hb.symm.trans hb')
  revert hab
  decide +kernel

end JsWaku.MessageHash
