import JsWaku.Core.Store

/-!
# Time bounds of store queries

A message is stamped with its date in nanoseconds, converted to a bigint before it is multiplied
(`EncoderFields.protoObj`); `StoreQueryRequest.create` multiplies first, so that the product is rounded to a `Number`
(`nanoseconds`). Both come to the same iff the date is, without its factors of two, at most 576460752303
(`exactAt_iff`).
-/

namespace JsWaku.Store

open Version0

/-! ## What a query selects -/

/-- The time is not before the start of the request. -/
def StoreQueryRequest.StartsBy (request : StoreQueryRequest) (time : ℤ) : Prop :=
  ∀ start, request.timeStart = some start → start ≤ time

/-- The time is strictly before the end of the request. -/
def StoreQueryRequest.EndsAfter (request : StoreQueryRequest) (time : ℤ) : Prop :=
  ∀ stop, request.timeEnd = some stop → time < stop

/-- A bound at the date is the timestamp of every message of that date, in a request that is made: such a message is not
excluded by the start and not included by the end. -/
def ExactAt (millis : ℤ) : Prop :=
  ∀ (uuid : String) (params : QueryRequestParams) (request : StoreQueryRequest) (enc : EncoderFields) (now : Date)
    (message : IMessage) (proto : IProtoMessage), StoreQueryRequest.create uuid params = .ok request →
    message.timestamp = some ⟨some millis⟩ → Encoder.toProtoObj enc now message = .ok proto →
    proto.timestamp = some (millis * OneMillion) ∧
      (params.timeStart = some ⟨some millis⟩ → request.timeStart = proto.timestamp ∧
        request.StartsBy (millis * OneMillion)) ∧
      (params.timeEnd = some ⟨some millis⟩ → request.timeEnd = proto.timestamp ∧
        ¬request.EndsAfter (millis * OneMillion))

/-! ## Requests and timestamps -/

/-- The bounds of a request that was made. -/
theorem timeBound_of_create {uuid : String} {params : QueryRequestParams} {request : StoreQueryRequest}
    (h : StoreQueryRequest.create uuid params = .ok request) :
    timeBound params.timeStart = .ok request.timeStart ∧ timeBound params.timeEnd = .ok request.timeEnd := by
  obtain ⟨timeStart, hstart, h⟩ := bind_eq_ok.1 h
  obtain ⟨timeEnd, hend, h⟩ := bind_eq_ok.1 h
  dsimp only at h
  split at h
  · cases h
  · split at h
    · cases h
    · cases h
      exact ⟨hstart, hend⟩

theorem timeBound_some (millis : ℤ) :
    timeBound (some ⟨some millis⟩) = .ok (some (Number.ofInt (millis * ONE_MILLION))) := rfl

/-- The timestamp of a message with a date. -/
theorem timestamp_of_toProtoObj {enc : EncoderFields} {now : Date} {message : IMessage} {proto : IProtoMessage}
    {millis : ℤ} (hdate : message.timestamp = some ⟨some millis⟩) (h : Encoder.toProtoObj enc now message = .ok proto) :
    proto.timestamp = some (millis * OneMillion) := by
  rw [Encoder.toProtoObj, hdate] at h
  obtain ⟨time, htime, h⟩ := bind_eq_ok.1 h
  cases htime
  dsimp only at h
  split at h
  · obtain ⟨bytes, -, h⟩ := bind_eq_ok.1 h
    cases h
    rfl
  · cases h
    rfl

/-- A request can be made with any date as its start. -/
def startParams (date : Date) : QueryRequestParams where
  includeData := true
  pubsubTopic := some "/waku/2/rs/1/0"
  contentTopics := some ["/app/1/messages/proto"]
  timeStart := some date
  timeEnd := none
  messageHashes := none
  paginationCursor := none
  paginationForward := true
  paginationLimit := none

theorem create_startParams (uuid : String) (millis : ℤ) :
    ∃ request, StoreQueryRequest.create uuid (startParams ⟨some millis⟩) = .ok request := ⟨_, rfl⟩

/-- An encoder without a setter of the field `meta`. -/
def plainEncoder : EncoderFields := ⟨"/waku/2/rs/1/0", "/app/1/messages/proto", false, none, by decide⟩

/-! ## Products -/

/-- The product with a million is exact iff the number is at most 576460752303 without factors of two. -/
theorem isExact_mul_million {n : ℕ} :
    Number.IsExact (n * 1000000) ↔ ∃ m k, n = m * 2 ^ k ∧ m ≤ 576460752303 := by
  have hfactors : n * 1000000 = n * 15625 * 2 ^ 6 := by omega
  rw [hfactors, Number.isExact_mul_two_pow, Number.isExact_mul_iff (by decide)]
  refine exists_congr fun m => exists_congr fun k => and_congr_right fun _ => ?_
  omega

theorem ofInt_mul_million {millis : ℤ} : Number.ofInt (millis * ONE_MILLION) = millis * OneMillion ↔
    ∃ m k, millis.natAbs = m * 2 ^ k ∧ m ≤ 576460752303 := by
  rw [← isExact_mul_million, OneMillion, ONE_MILLION, Number.ofInt_eq_self_iff, Int.natAbs_mul]
  rfl

/-- **Time bounds are exact** for the dates whose milliseconds are, without their factors of two, at most 576460752303. -/
theorem exactAt_iff (millis : ℤ) : ExactAt millis ↔ ∃ m k, millis.natAbs = m * 2 ^ k ∧ m ≤ 576460752303 := by
  rw [← ofInt_mul_million]
  constructor
  · intro h
    obtain ⟨request, hrequest⟩ := create_startParams "" millis
    obtain ⟨-, hstart, -⟩ := h "" _ request plainEncoder ⟨none⟩ ⟨[], some ⟨some millis⟩, none⟩ _ hrequest rfl rfl
    have hbound := (timeBound_of_create hrequest).1
    rw [startParams, timeBound_some, (hstart rfl).1] at hbound
    exact Option.some.inj (Except.ok.inj hbound)
  · intro hexact uuid params request enc now message proto hrequest hdate hproto
    obtain ⟨hstart, hend⟩ := timeBound_of_create hrequest
    have hstamp := timestamp_of_toProtoObj hdate hproto
    refine ⟨hstamp, fun h => ?_, fun h => ?_⟩
    · rw [h, timeBound_some, hexact] at hstart
      have hstart := (Except.ok.inj hstart).symm
      refine ⟨hstart.trans hstamp.symm, fun start h => ?_⟩
      rw [hstart] at h
      cases h
      exact le_rfl
    · rw [h, timeBound_some, hexact] at hend
      have hend := (Except.ok.inj hend).symm
      exact ⟨hend.trans hstamp.symm, fun h => lt_irrefl _ (h _ hend)⟩

/-- The second millisecond of 2024 is rounded. -/
theorem not_exactAt : ¬∀ millis : ℤ, |millis| ≤ 8640000000000000 → ExactAt millis := by
  intro h
  have hexact := h 1704067200001 (by decide)
  obtain ⟨request, hrequest⟩ := create_startParams "" 1704067200001
  obtain ⟨-, hstart, -⟩ := hexact "" _ request plainEncoder ⟨none⟩ ⟨[], some ⟨some 1704067200001⟩, none⟩ _ hrequest rfl rfl
  have hbound := (timeBound_of_create hrequest).1
  rw [startParams, timeBound_some, (hstart rfl).1] at hbound
  exact absurd (Option.some.inj (Except.ok.inj hbound)) (by decide)

end JsWaku.Store
