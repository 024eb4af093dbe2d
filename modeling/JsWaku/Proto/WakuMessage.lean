import JsWaku.Core.Message
import JsWaku.Proto.WireFormat

/-!
# The wire format of messages

`RateLimitProof` and `WakuMessage` of `packages/proto/src/generated/message.ts`, which the other generated files repeat,
and `TopicOnlyMessage` of `topic_only_message.ts`. A message whose numbers fit is decoded as it was encoded
(`WakuMessage.decode_encode`).

`Record` is a field that a peer may write, also one that the decoder does not know; groups, which the third version of
the language does not have, are left out. Both decoders take records in any
order, and the last of a field counts (`WakuMessage.decode_records`); they agree on the content topic
(`TopicOnlyMessage.decode_records`).
-/

namespace JsWaku.Proto

open Reading Codec.Writes

variable (rt : Runtime)

/-! ## Codecs -/

/-- `RateLimitProof.codec`. -/
def RateLimitProof.codec : Codec IRateLimitProof where
  fields obj :=
    rt.w.required 10 rt.w.bytes [] obj.proof ++ rt.w.required 18 rt.w.bytes [] obj.merkleRoot ++
      rt.w.required 26 rt.w.bytes [] obj.epoch ++ rt.w.required 34 rt.w.bytes [] obj.shareX ++
      rt.w.required 42 rt.w.bytes [] obj.shareY ++ rt.w.required 50 rt.w.bytes [] obj.nullifier ++
      rt.w.required 58 rt.w.bytes [] obj.rlnIdentifier
  empty := { proof := [], merkleRoot := [], epoch := [], shareX := [], shareY := [], nullifier := [], rlnIdentifier := [] }
  cases obj
    | 1 => some do return { obj with proof := ← rt.reader.bytes }
    | 2 => some do return { obj with merkleRoot := ← rt.reader.bytes }
    | 3 => some do return { obj with epoch := ← rt.reader.bytes }
    | 4 => some do return { obj with shareX := ← rt.reader.bytes }
    | 5 => some do return { obj with shareY := ← rt.reader.bytes }
    | 6 => some do return { obj with nullifier := ← rt.reader.bytes }
    | 7 => some do return { obj with rlnIdentifier := ← rt.reader.bytes }
    | _ => none

/-- The message without fields. -/
def WakuMessage.empty : IProtoMessage :=
  { payload := [], contentTopic := "", version := none, timestamp := none, metaField := none, rateLimitProof := none,
    ephemeral := none }

/-- `WakuMessage.codec`. -/
def WakuMessage.codec : Codec IProtoMessage where
  fields obj :=
    rt.w.required 10 rt.w.bytes [] obj.payload ++ rt.w.required 18 rt.w.string "" obj.contentTopic ++
      rt.w.optional 24 rt.w.uint32 obj.version ++ rt.w.optional 80 rt.w.sint64 obj.timestamp ++
      rt.w.optional 90 rt.w.bytes obj.metaField ++
      rt.w.optional 170 ((RateLimitProof.codec rt).writeNested rt) obj.rateLimitProof ++
      rt.w.optional 248 rt.w.bool obj.ephemeral
  empty := WakuMessage.empty
  cases obj
    | 1 => some do return { obj with payload := ← rt.reader.bytes }
    | 2 => some do return { obj with contentTopic := ← rt.reader.string }
    | 3 => some do return { obj with version := some (← rt.reader.uint32) }
    | 10 => some do return { obj with timestamp := some (← rt.reader.sint64) }
    | 11 => some do return { obj with metaField := some (← rt.reader.bytes) }
    | 21 => some do return { obj with rateLimitProof := some (← (RateLimitProof.codec rt).readNested rt) }
    | 31 => some do return { obj with ephemeral := some (← rt.reader.bool) }
    | _ => none

/-- `TopicOnlyMessage`. -/
structure TopicOnlyMessage where
  contentTopic : String
  deriving DecidableEq, Repr

/-- `TopicOnlyMessage.codec`. -/
def TopicOnlyMessage.codec : Codec TopicOnlyMessage where
  fields obj := rt.w.required 18 rt.w.string "" obj.contentTopic
  empty := { contentTopic := "" }
  cases obj
    | 2 => some do return { obj with contentTopic := ← rt.reader.string }
    | _ => none

/-- `WakuMessage.encode`. -/
def WakuMessage.encode (obj : IProtoMessage) : Bytes := (WakuMessage.codec rt).encode obj

/-- `WakuMessage.decode`. -/
def WakuMessage.decode (buf : Bytes) : Except JsError IProtoMessage := (WakuMessage.codec rt).decode rt buf

/-- `TopicOnlyMessage.decode`. -/
def TopicOnlyMessage.decode (buf : Bytes) : Except JsError TopicOnlyMessage := (TopicOnlyMessage.codec rt).decode rt buf

/-! ## Nested messages -/

section

variable {rt} (hrt : rt.Lawful)
include hrt

theorem RateLimitProof.forward : (RateLimitProof.codec rt).IsForward := by
  intro obj n read h
  simp only [codec] at h
  split at h <;> cases h <;> exact hrt.forward_bytes.bind fun _ => Forward.pure _

theorem RateLimitProof.writes (obj : IRateLimitProof) :
    (codec rt).Writes rt (codec rt).empty ((codec rt).fields obj) obj := by
  obtain ⟨proof, merkleRoot, epoch, shareX, shareY, nullifier, rlnIdentifier⟩ := obj
  have hproof := required (c := codec rt) 10 (by decide) hrt []
    (fun bs => ⟨bs, [], [], [], [], [], []⟩) (hrt.bytes proof) rfl
  have hmerkleRoot := required (c := codec rt) 18 (by decide) hrt []
    (fun bs => ⟨proof, bs, [], [], [], [], []⟩) (hrt.bytes merkleRoot) rfl
  have hepoch := required (c := codec rt) 26 (by decide) hrt []
    (fun bs => ⟨proof, merkleRoot, bs, [], [], [], []⟩) (hrt.bytes epoch) rfl
  have hshareX := required (c := codec rt) 34 (by decide) hrt []
    (fun bs => ⟨proof, merkleRoot, epoch, bs, [], [], []⟩) (hrt.bytes shareX) rfl
  have hshareY := required (c := codec rt) 42 (by decide) hrt []
    (fun bs => ⟨proof, merkleRoot, epoch, shareX, bs, [], []⟩) (hrt.bytes shareY) rfl
  have hnullifier := required (c := codec rt) 50 (by decide) hrt []
    (fun bs => ⟨proof, merkleRoot, epoch, shareX, shareY, bs, []⟩) (hrt.bytes nullifier) rfl
  have hrlnIdentifier := required (c := codec rt) 58 (by decide) hrt []
    (fun bs => ⟨proof, merkleRoot, epoch, shareX, shareY, nullifier, bs⟩) (hrt.bytes rlnIdentifier) rfl
  exact (((((hproof.append hmerkleRoot).append hepoch).append hshareX).append hshareY).append hnullifier).append
    hrlnIdentifier

theorem WakuMessage.forward : (WakuMessage.codec rt).IsForward := by
  intro obj n read h
  simp only [codec] at h
  split at h <;> cases h <;> refine Forward.bind ?_ fun _ => Forward.pure _
  · exact hrt.forward_bytes
  · exact hrt.forward_string
  · exact hrt.progress_uint32.forward
  · exact hrt.forward_sint64
  · exact hrt.forward_bytes
  · exact Codec.forward_nested hrt (RateLimitProof.forward hrt)
  · exact hrt.forward_bool

theorem TopicOnlyMessage.forward : (TopicOnlyMessage.codec rt).IsForward := by
  intro obj n read h
  simp only [codec] at h
  split at h <;> cases h
  exact hrt.forward_string.bind fun _ => Forward.pure _

end

/-! ## Records -/

/-- A field on the wire. -/
inductive Record
  | payload (bs : Bytes)
  | contentTopic (s : String)
  | version (n : ℕ)
  | timestamp (t : ℤ)
  | metaField (bs : Bytes)
  | rateLimitProof (p : IRateLimitProof)
  | ephemeral (b : Bool)
  /-- Another field, a varint. -/
  | varint (field n : ℕ)
  /-- Another field, eight bytes. -/
  | fixed64 (field : ℕ) (bs : Bytes)
  /-- Another field, bytes after their length. -/
  | delimited (field : ℕ) (bs : Bytes)
  /-- Another field, four bytes. -/
  | fixed32 (field : ℕ) (bs : Bytes)
  deriving DecidableEq, Repr

namespace Record

/-- The field numbers of `WakuMessage`. -/
def known : List ℕ := [1, 2, 3, 10, 11, 21, 31]

/-- The number of the field. -/
def field : Record → ℕ
  | payload _ => 1
  | contentTopic _ => 2
  | version _ => 3
  | timestamp _ => 10
  | metaField _ => 11
  | rateLimitProof _ => 21
  | ephemeral _ => 31
  | varint field _ | fixed64 field _ | delimited field _ | fixed32 field _ => field

/-- How the value is written: 0 for varints, 1 for eight bytes, 2 for bytes after their length, 5 for four bytes. -/
def wireType : Record → ℕ
  | version _ | timestamp _ | ephemeral _ | varint _ _ => 0
  | fixed64 _ _ => 1
  | fixed32 _ _ => 5
  | payload _ | contentTopic _ | metaField _ | rateLimitProof _ | delimited _ _ => 2

/-- The tag of the record. -/
def tag (r : Record) : ℕ := 8 * r.field + r.wireType

/-- The value of the field, as it is written. -/
def value : Record → Bytes
  | payload bs | metaField bs | delimited _ bs => rt.w.bytes bs
  | contentTopic s => rt.w.string s
  | version n => rt.w.uint32 n
  | varint _ n => rt.w.uint64 n
  | fixed64 _ bs | fixed32 _ bs => bs
  | timestamp t => rt.w.sint64 t
  | rateLimitProof p => (RateLimitProof.codec rt).writeNested rt p
  | ephemeral b => rt.w.bool b

/-- The bytes of the record. -/
def write (r : Record) : Bytes := rt.w.uint32 r.tag ++ r.value rt

/-- The message after the record. -/
def apply (obj : IProtoMessage) : Record → IProtoMessage
  | payload bs => { obj with payload := bs }
  | contentTopic s => { obj with contentTopic := s }
  | version n => { obj with version := some n }
  | timestamp t => { obj with timestamp := some t }
  | metaField bs => { obj with metaField := some bs }
  | rateLimitProof p => { obj with rateLimitProof := some p }
  | ephemeral b => { obj with ephemeral := some b }
  | varint _ _ | fixed64 _ _ | delimited _ _ | fixed32 _ _ => obj

/-- The numbers of the record are in range, and a field that is none of the message has another number. -/
def InRange : Record → Prop
  | version n => n < 2 ^ 32
  | timestamp t => -2 ^ 63 ≤ t ∧ t < 2 ^ 63
  | varint field n => field < 2 ^ 29 ∧ field ∉ known ∧ n < 2 ^ 64
  | fixed64 field bs => field < 2 ^ 29 ∧ field ∉ known ∧ bs.length = 8
  | delimited field _ => field < 2 ^ 29 ∧ field ∉ known
  | fixed32 field bs => field < 2 ^ 29 ∧ field ∉ known ∧ bs.length = 4
  | _ => True

variable {rt} (hrt : rt.Lawful) {r : Record}

theorem wireType_le (r : Record) : r.wireType ≤ 5 := by
  cases r <;> simp [wireType]

theorem tag_lt (h : r.InRange) : r.tag < 2 ^ 32 := by
  cases r <;> simp only [InRange, tag, field, wireType] at h ⊢ <;> omega

theorem shift_tag (r : Record) : r.tag >>> 3 = r.field := by
  have hle := r.wireType_le
  rw [tag, Nat.shiftRight_eq_div_pow]
  omega

theorem and_tag (r : Record) : r.tag &&& 7 = r.wireType := by
  have hle := r.wireType_le
  rw [tag, show (7 : ℕ) = 2 ^ 3 - 1 from rfl, Nat.and_two_pow_sub_one_eq_mod]
  omega

/-- `WakuMessage` has no case for other fields. -/
theorem cases_other (obj : IProtoMessage) {n : ℕ} (h : n ∉ known) : (WakuMessage.codec rt).cases obj n = none := by
  simp only [known, List.mem_cons, List.not_mem_nil, or_false, not_or] at h
  simp only [WakuMessage.codec]
  split <;> first | rfl | omega

/-- `TopicOnlyMessage` has a case for the content topic only. -/
theorem cases_topicOnly (obj : TopicOnlyMessage) {n : ℕ} (h : n ≠ 2) :
    (TopicOnlyMessage.codec rt).cases obj n = none := by
  simp only [TopicOnlyMessage.codec]

section

include hrt

/-- The value of a record can be skipped. -/
theorem reads_skipType (h : r.InRange) (hshort : Short (r.value rt)) :
    Reads (rt.reader.skipType r.wireType) (r.value rt) () := by
  cases r with
  | payload bs => exact hrt.skip_bytes bs hshort
  | contentTopic s => exact hrt.skip_string s hshort
  | version n => exact hrt.skip_uint32 n h
  | timestamp t => exact hrt.skip_sint64 t h.1 h.2
  | metaField bs => exact hrt.skip_bytes bs hshort
  | rateLimitProof p => exact hrt.skip_ldelim _ hshort
  | ephemeral b => exact hrt.skip_bool b
  | varint _ n => exact hrt.skip_uint64 n h.2.2
  | fixed64 _ bs => exact hrt.skip_fixed64 bs h.2.2
  | delimited _ bs => exact hrt.skip_bytes bs hshort
  | fixed32 _ bs => exact hrt.skip_fixed32 bs h.2.2

variable {σ : Type} {c : Codec σ}

/-- A record that the decoder has a case for. -/
theorem reads_case (h : r.InRange) {s s' : σ} {read : Reading.Reader JsError σ} (hcase : c.cases s r.field = some read)
    (hread : Reads read (r.value rt) s') : Reads (c.round rt s) (r.write rt) s' :=
  Codec.reads_case hrt (tag_lt h) (by rwa [shift_tag]) hread

/-- A record that the decoder skips. -/
theorem reads_skip (h : r.InRange) (hshort : Short (r.value rt)) {s : σ} (hcase : c.cases s r.field = none) :
    Reads (c.round rt s) (r.write rt) s := by
  refine Codec.reads_skip hrt (tag_lt h) (by rwa [shift_tag]) ?_
  rw [and_tag]
  exact reads_skipType hrt h hshort

/-- A round of `WakuMessage.decode`. -/
theorem reads_wakuMessage (h : r.InRange) (obj : IProtoMessage) (hshort : Short (r.write rt)) :
    Reads ((WakuMessage.codec rt).round rt obj) (r.write rt) (r.apply obj) := by
  have hvalue : Short (r.value rt) := hshort.right
  cases r with
  | payload bs => exact reads_case hrt h rfl ((hrt.bytes bs hvalue).map fun bs => { obj with payload := bs })
  | contentTopic s => exact reads_case hrt h rfl ((hrt.string s hvalue).map fun s => { obj with contentTopic := s })
  | version n => exact reads_case hrt h rfl ((hrt.uint32 n h).map fun n => { obj with version := some n })
  | timestamp t => exact reads_case hrt h rfl ((hrt.sint64 t h.1 h.2).map fun t => { obj with timestamp := some t })
  | metaField bs => exact reads_case hrt h rfl ((hrt.bytes bs hvalue).map fun bs => { obj with metaField := some bs })
  | rateLimitProof p =>
    have hproof := Codec.reads_nested hrt (RateLimitProof.forward hrt) (RateLimitProof.writes hrt p) hvalue
    exact reads_case hrt h rfl (hproof.map fun p => { obj with rateLimitProof := some p })
  | ephemeral b => exact reads_case hrt h rfl ((hrt.bool b).map fun b => { obj with ephemeral := some b })
  | varint | fixed64 | fixed32 => exact reads_skip hrt h hvalue (cases_other obj h.2.1)
  | delimited => exact reads_skip hrt h hvalue (cases_other obj h.2)

/-- A round of `TopicOnlyMessage.decode`, on the same record. -/
theorem reads_topicOnly (h : r.InRange) (obj : IProtoMessage) (hshort : Short (r.write rt)) :
    Reads ((TopicOnlyMessage.codec rt).round rt ⟨obj.contentTopic⟩) (r.write rt) ⟨(r.apply obj).contentTopic⟩ := by
  have hvalue : Short (r.value rt) := hshort.right
  cases r with
  | contentTopic s => exact reads_case hrt h rfl ((hrt.string s hvalue).map TopicOnlyMessage.mk)
  | varint n | fixed64 n | fixed32 n =>
    exact reads_skip hrt h hvalue (cases_topicOnly _ fun hn => h.2.1 (by rw [show n = 2 from hn]; decide))
  | delimited n => exact reads_skip hrt h hvalue (cases_topicOnly _ fun hn => h.2 (by rw [show n = 2 from hn]; decide))
  | payload | version | timestamp | metaField | rateLimitProof | ephemeral => exact reads_skip hrt h hvalue rfl

end

end Record

namespace Record

/-! ## Records of a message -/

/-- The message that records make up. -/
def message (rs : List Record) : IProtoMessage := rs.foldl apply WakuMessage.empty

theorem message_append (rs : List Record) (r : Record) : message (rs ++ [r]) = apply (message rs) r := by
  rw [message, List.foldl_append]
  rfl

variable {α : Type} (record : α → Record)

theorem foldl_required [DecidableEq α] (zero a : α) (set : α → IProtoMessage)
    (h : apply (set zero) (record a) = set a) :
    (if a = zero then [] else [record a]).foldl apply (set zero) = set a := by
  split
  · rename_i hzero
    rw [hzero]
    rfl
  · exact h

theorem foldl_optional (o : Option α) (set : Option α → IProtoMessage)
    (h : ∀ a, apply (set none) (record a) = set (some a)) : (o.map record).toList.foldl apply (set none) = set o := by
  cases o with
  | none => rfl
  | some a => exact h a

theorem forall_mem_required [DecidableEq α] {zero a : α} {P : Record → Prop} (h : P (record a)) :
    ∀ r ∈ if a = zero then [] else [record a], P r := by
  split <;> simp [h]

theorem forall_mem_optional {o : Option α} {P : Record → Prop} (h : ∀ a ∈ o, P (record a)) :
    ∀ r ∈ (o.map record).toList, P r := by
  cases o with
  | none => simp
  | some a => simpa using h a rfl

end Record

namespace WakuMessage

/-- The records of an encoded message. -/
def records (obj : IProtoMessage) : List Record :=
  (if obj.payload = [] then [] else [.payload obj.payload]) ++
    (if obj.contentTopic = "" then [] else [.contentTopic obj.contentTopic]) ++
    (obj.version.map Record.version).toList ++ (obj.timestamp.map Record.timestamp).toList ++
    (obj.metaField.map Record.metaField).toList ++ (obj.rateLimitProof.map Record.rateLimitProof).toList ++
    (obj.ephemeral.map Record.ephemeral).toList

/-- The numbers of a message are those of their fields. -/
structure InRange (obj : IProtoMessage) : Prop where
  version : ∀ n ∈ obj.version, n < 2 ^ 32
  timestamp : ∀ t ∈ obj.timestamp, -2 ^ 63 ≤ t ∧ t < 2 ^ 63

/-- They make up the message. -/
theorem message_records (obj : IProtoMessage) : Record.message (records obj) = obj := by
  obtain ⟨payload, contentTopic, version, timestamp, metaField, rateLimitProof, ephemeral⟩ := obj
  have hpayload := Record.foldl_required .payload [] payload (fun bs => ⟨bs, "", none, none, none, none, none⟩) rfl
  have hcontentTopic := Record.foldl_required .contentTopic "" contentTopic
    (fun s => ⟨payload, s, none, none, none, none, none⟩) rfl
  have hversion := Record.foldl_optional .version version
    (fun n => ⟨payload, contentTopic, n, none, none, none, none⟩) fun _ => rfl
  have htimestamp := Record.foldl_optional .timestamp timestamp
    (fun t => ⟨payload, contentTopic, version, t, none, none, none⟩) fun _ => rfl
  have hmeta := Record.foldl_optional .metaField metaField
    (fun bs => ⟨payload, contentTopic, version, timestamp, bs, none, none⟩) fun _ => rfl
  have hproof := Record.foldl_optional .rateLimitProof rateLimitProof
    (fun p => ⟨payload, contentTopic, version, timestamp, metaField, p, none⟩) fun _ => rfl
  have hephemeral := Record.foldl_optional .ephemeral ephemeral
    (fun b => ⟨payload, contentTopic, version, timestamp, metaField, rateLimitProof, b⟩) fun _ => rfl
  simp only [records, Record.message, empty, List.foldl_append, hpayload, hcontentTopic, hversion, htimestamp, hmeta,
    hproof, hephemeral]

theorem InRange.records {obj : IProtoMessage} (h : InRange obj) : ∀ r ∈ records obj, r.InRange := by
  simp only [WakuMessage.records, List.forall_mem_append]
  refine ⟨⟨⟨⟨⟨⟨?_, ?_⟩, ?_⟩, ?_⟩, ?_⟩, ?_⟩, ?_⟩
  · exact Record.forall_mem_required .payload trivial
  · exact Record.forall_mem_required .contentTopic trivial
  · exact Record.forall_mem_optional .version h.version
  · exact Record.forall_mem_optional .timestamp h.timestamp
  · exact Record.forall_mem_optional .metaField fun _ _ => trivial
  · exact Record.forall_mem_optional .rateLimitProof fun _ _ => trivial
  · exact Record.forall_mem_optional .ephemeral fun _ _ => trivial

end WakuMessage

section

variable {rt}

/-- A required field is at most one record. -/
theorem Record.flatMap_required {α : Type} [DecidableEq α] (zero a : α) (record : α → Record) (tag : ℕ)
    (write : α → Bytes) (h : ∀ a, (record a).write rt = rt.w.uint32 tag ++ write a) :
    (if a = zero then [] else [record a]).flatMap (Record.write rt) = rt.w.required tag write zero a := by
  unfold Writer.required
  split
  · rfl
  · rw [List.flatMap_singleton, h]

/-- An optional field is at most one record. -/
theorem Record.flatMap_optional {α : Type} (o : Option α) (record : α → Record) (tag : ℕ) (write : α → Bytes)
    (h : ∀ a, (record a).write rt = rt.w.uint32 tag ++ write a) :
    (o.map record).toList.flatMap (Record.write rt) = rt.w.optional tag write o := by
  cases o with
  | none => rfl
  | some a => rw [Option.map_some, Option.toList_some, List.flatMap_singleton, h]; rfl

open Record in
/-- An encoded message is its records. -/
theorem WakuMessage.encode_eq_records (obj : IProtoMessage) :
    encode rt obj = (records obj).flatMap (Record.write rt) := by
  simp only [records, List.flatMap_append]
  rw [flatMap_required [] obj.payload Record.payload 10 rt.w.bytes fun _ => rfl,
    flatMap_required "" obj.contentTopic Record.contentTopic 18 rt.w.string fun _ => rfl,
    flatMap_optional obj.version Record.version 24 rt.w.uint32 fun _ => rfl,
    flatMap_optional obj.timestamp Record.timestamp 80 rt.w.sint64 fun _ => rfl,
    flatMap_optional obj.metaField Record.metaField 90 rt.w.bytes fun _ => rfl,
    flatMap_optional obj.rateLimitProof Record.rateLimitProof 170 ((RateLimitProof.codec rt).writeNested rt) fun _ => rfl,
    flatMap_optional obj.ephemeral Record.ephemeral 248 rt.w.bool fun _ => rfl]
  rfl

/-! ## Decoding -/

variable (hrt : rt.Lawful) {rs : List Record} (h : ∀ r ∈ rs, r.InRange)
include hrt h

theorem WakuMessage.writes_records :
    (WakuMessage.codec rt).Writes rt WakuMessage.empty (rs.flatMap (Record.write rt)) (Record.message rs) := by
  refine Codec.Writes.flatMap Record.message fun done r hr hshort => ?_
  rw [Record.message_append]
  exact .single (Record.reads_wakuMessage hrt (h r hr) (Record.message done) hshort)

theorem TopicOnlyMessage.writes_records :
    (TopicOnlyMessage.codec rt).Writes rt ⟨""⟩ (rs.flatMap (Record.write rt)) ⟨(Record.message rs).contentTopic⟩ := by
  refine Codec.Writes.flatMap (fun rs => TopicOnlyMessage.mk (Record.message rs).contentTopic)
    fun done r hr hshort => ?_
  rw [Record.message_append]
  exact .single (Record.reads_topicOnly hrt (h r hr) (Record.message done) hshort)

/-- **Both decoders take records in any order, unknown ones too; the last of each field counts.** -/
theorem decode_records (hshort : Short (rs.flatMap (Record.write rt))) :
    WakuMessage.decode rt (rs.flatMap (Record.write rt)) = .ok (Record.message rs) ∧
      TopicOnlyMessage.decode rt (rs.flatMap (Record.write rt)) = .ok ⟨(Record.message rs).contentTopic⟩ :=
  ⟨Codec.decode_of_writes hrt (WakuMessage.forward hrt) (WakuMessage.writes_records hrt h) hshort,
    Codec.decode_of_writes hrt (TopicOnlyMessage.forward hrt) (TopicOnlyMessage.writes_records hrt h) hshort⟩

end

/-- Fields 4 and 5 that neither knows, a topic, a payload, and another topic. -/
theorem decode_records_sample :
    let data := [Record.varint 4 7, .fixed32 5 [1, 2, 3, 4], .contentTopic "a", .payload [1], .contentTopic "b"].flatMap (Record.write wireFormat)
    WakuMessage.decode wireFormat data = .ok { WakuMessage.empty with contentTopic := "b", payload := [1] } ∧
      TopicOnlyMessage.decode wireFormat data = .ok ⟨"b"⟩ := by
  refine decode_records wireFormat_lawful ?_ (by unfold Short; decide +kernel)
  simp [Record.InRange, Record.known]

section

variable {rt} (hrt : rt.Lawful) {obj : IProtoMessage} (h : WakuMessage.InRange obj)
include hrt h

theorem WakuMessage.writes : (codec rt).Writes rt (codec rt).empty ((codec rt).fields obj) obj := by
  have hrecords := writes_records hrt h.records
  rwa [message_records, ← encode_eq_records] at hrecords

/-- A message is decoded as it was encoded. -/
theorem WakuMessage.decode_encode (hshort : Short (encode rt obj)) : decode rt (encode rt obj) = .ok obj :=
  Codec.decode_of_writes hrt (WakuMessage.forward hrt) (WakuMessage.writes hrt h) hshort

/-- The content topic can be decoded alone. -/
theorem TopicOnlyMessage.decode_encode (hshort : Short (WakuMessage.encode rt obj)) :
    decode rt (WakuMessage.encode rt obj) = .ok ⟨obj.contentTopic⟩ := by
  have hrecords := writes_records hrt h.records
  rw [WakuMessage.message_records, ← WakuMessage.encode_eq_records] at hrecords
  exact Codec.decode_of_writes hrt (TopicOnlyMessage.forward hrt) hrecords hshort

end

end JsWaku.Proto
