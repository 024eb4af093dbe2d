import JsWaku.Runtime.NumberText
import JsWaku.Utils.NetworkConfig

/-!
# Spellings of a pubsub topic

`singleShardInfoToPubsubTopic` and `pubsubTopicToSingleShardInfo` of `packages/utils/src/common/sharding/index.ts`, with
the numbers as JavaScript has them. Numbers below `2 ^ 53` survive the way to a topic and back; the topics that survive
the way to numbers and back are those with nothing before the first slash and two numerals at the end (`Spelled`).
-/

namespace JsWaku.TopicSpelling

open Text Sharding

/-- `SingleShardInfo`. -/
structure SingleShardInfo where
  clusterId : Option Whole
  shard : Option Whole
  deriving DecidableEq, Repr

/-- `singleShardInfoToPubsubTopic`. -/
def singleShardInfoToPubsubTopic (shardInfo : SingleShardInfo) : Except JsError String :=
  match shardInfo.shard with
  | none => throw (.error "Invalid shard")
  | some shard =>
    return "/waku/2/rs/" ++ (shardInfo.clusterId.getD (.finite DEFAULT_CLUSTER_ID)).text ++ "/" ++ shard.text

/-- `pubsubTopicToSingleShardInfo`, with its numbers rounded. -/
def pubsubTopicToSingleShardInfo (pubsubTopics : String) : Except JsError SingleShardInfo := do
  let { clusterId, shard } ← Sharding.pubsubTopicToSingleShardInfo pubsubTopics
  return { clusterId := some (Whole.ofInt clusterId), shard := some (Whole.ofInt shard) }

/-- Nothing stands before the first slash, and the last two segments are numerals. -/
def Spelled (topic : String) : Prop :=
  ∃ clusterId shard, split '/' topic = ["", "waku", "2", "rs", clusterId, shard] ∧ IsNumeral clusterId ∧ IsNumeral shard

/-! ## Formatting -/

theorem singleShardInfoToPubsubTopic_some (clusterId shard : Whole) :
    singleShardInfoToPubsubTopic ⟨some clusterId, some shard⟩ =
      .ok ("/waku/2/rs/" ++ clusterId.text ++ "/" ++ shard.text) :=
  rfl

/-- A formatted topic falls into its six parts. -/
theorem split_format (clusterId shard : Whole) :
    split '/' ("/waku/2/rs/" ++ clusterId.text ++ "/" ++ shard.text) =
      ["", "waku", "2", "rs", clusterId.text, shard.text] := by
  rw [split_eq_iff (by simp)]
  refine ⟨by simp [List.intercalate, List.intersperse], ?_⟩
  intro piece hpiece
  simp only [List.mem_cons, List.not_mem_nil, or_false] at hpiece
  rcases hpiece with rfl | rfl | rfl | rfl | rfl | rfl
  · decide
  · decide
  · decide
  · decide
  · exact not_mem_text clusterId
  · exact not_mem_text shard

/-- A formatted topic is another one exactly if their parts are the same. -/
theorem format_eq_iff {clusterId shard : Whole} {topic : String} :
    "/waku/2/rs/" ++ clusterId.text ++ "/" ++ shard.text = topic ↔
      split '/' topic = ["", "waku", "2", "rs", clusterId.text, shard.text] := by
  rw [← split_format]
  exact ⟨fun h => by rw [h], fun h => split_injective '/' h.symm⟩

/-! ## Parsing -/

/-- What a parsed topic looks like. -/
theorem parsed_iff {topic : String} {info : Sharding.SingleShardInfo} :
    Sharding.pubsubTopicToSingleShardInfo topic = .ok info ↔ ∃ start clusterId shard,
      split '/' topic = [start, "waku", "2", "rs", clusterId, shard] ∧ parseInt clusterId = some info.clusterId ∧
        parseInt shard = some info.shard := by
  unfold Sharding.pubsubTopicToSingleShardInfo
  constructor
  · intro h
    split at h
    next start clusterId shard hsplit =>
      split at h
      next c s hc hs =>
        cases h
        exact ⟨start, clusterId, shard, hsplit, hc, hs⟩
      next => cases h
    next => cases h
  · rintro ⟨start, clusterId, shard, hsplit, hc, hs⟩
    rw [hsplit]
    simp only [hc, hs]
    rfl

/-- A part of a small number is read back. -/
theorem parseInt_text {n : ℕ} (h : n < 2 ^ 53) :
    ∃ m : ℤ, parseInt (Whole.text (.finite n)) = some m ∧ Whole.ofInt m = .finite n := by
  have hlt : (n : ℤ).natAbs < 10 ^ 21 := by
    rw [Int.natAbs_natCast]
    omega
  have hn : Whole.ofInt n = .finite n := by rw [Whole.ofInt_of_lt hlt, Number.ofInt_natCast h]
  refine ⟨n, ?_, hn⟩
  rw [← hn, text_ofInt_natCast h, parseInt_toString]

/-- **Spellings of a pubsub topic.** Numbers below `2 ^ 53` are parsed back; a topic that is accepted is formatted back
exactly if nothing stands before its first slash and its numbers are written as numerals. -/
theorem formatted_back_iff_spelled (clusterId shard : ℕ) (hclusterId : clusterId < 2 ^ 53) (hshard : shard < 2 ^ 53)
    (topic : String) (info : SingleShardInfo) (h : pubsubTopicToSingleShardInfo topic = .ok info) :
    (singleShardInfoToPubsubTopic ⟨some (.finite clusterId), some (.finite shard)⟩ >>= pubsubTopicToSingleShardInfo) =
        .ok ⟨some (.finite clusterId), some (.finite shard)⟩ ∧
      (singleShardInfoToPubsubTopic info = .ok topic ↔ Spelled topic) := by
  constructor
  · obtain ⟨c, hc, hcback⟩ := parseInt_text hclusterId
    obtain ⟨s, hs, hsback⟩ := parseInt_text hshard
    have hparsed : Sharding.pubsubTopicToSingleShardInfo
        ("/waku/2/rs/" ++ (Whole.finite clusterId).text ++ "/" ++ (Whole.finite shard).text) = .ok ⟨c, s⟩ :=
      parsed_iff.2 ⟨"", _, _, split_format (.finite clusterId) (.finite shard), hc, hs⟩
    rw [singleShardInfoToPubsubTopic_some, ok_bind, pubsubTopicToSingleShardInfo, hparsed, ok_bind]
    dsimp only
    rw [hcback, hsback]
    rfl
  · obtain ⟨⟨c, s⟩, hparsed, hinfo⟩ := bind_eq_ok.1 h
    cases hinfo
    obtain ⟨start, clusterText, shardText, hsplit, hc, hs⟩ := parsed_iff.1 hparsed
    have hformat : singleShardInfoToPubsubTopic ⟨some (Whole.ofInt c), some (Whole.ofInt s)⟩ = .ok topic ↔
        split '/' topic = ["", "waku", "2", "rs", (Whole.ofInt c).text, (Whole.ofInt s).text] := by
      rw [← format_eq_iff, singleShardInfoToPubsubTopic_some, Except.ok.injEq]
    rw [hformat]
    constructor
    · intro hparts
      obtain ⟨-, hcluster, hshardText⟩ :
          start = "" ∧ clusterText = (Whole.ofInt c).text ∧ shardText = (Whole.ofInt s).text := by
        simpa [hsplit] using hparts
      refine ⟨_, _, hparts, ?_, ?_⟩
      · exact hcluster ▸ (text_eq_iff hc).1 hcluster.symm
      · exact hshardText ▸ (text_eq_iff hs).1 hshardText.symm
    · rintro ⟨clusterText', shardText', hparts, hnumeral, hnumeral'⟩
      rw [hsplit] at hparts
      obtain ⟨rfl, rfl, rfl⟩ : start = "" ∧ clusterText = clusterText' ∧ shardText = shardText' := by
        simpa using hparts
      rw [hsplit, (text_eq_iff hc).2 hnumeral, (text_eq_iff hs).2 hnumeral']

/-- The numbers of a topic that is formatted back. -/
theorem formatted_back_spelled :
    (singleShardInfoToPubsubTopic ⟨some (.finite 1), some (.finite 2)⟩ >>= pubsubTopicToSingleShardInfo) =
      .ok ⟨some (.finite 1), some (.finite 2)⟩ ∧ Spelled "/waku/2/rs/1/2" := by
  obtain ⟨hparsed, hspelled⟩ := formatted_back_iff_spelled 1 2 (by norm_num) (by norm_num) "/waku/2/rs/1/2"
    ⟨some (.finite 1), some (.finite 2)⟩ (by decide +kernel)
  exact ⟨hparsed, hspelled.1 (by decide +kernel)⟩

/-- What stands before the first slash, and a leading zero, are lost. -/
theorem not_formatted_back : ¬∀ topic info, pubsubTopicToSingleShardInfo topic = .ok info →
    singleShardInfoToPubsubTopic info = .ok topic := fun h => by
  have hlost := h "x/waku/2/rs/01/2" ⟨some (.finite 1), some (.finite 2)⟩ (by decide +kernel)
  exact absurd hlost (by decide +kernel)

end JsWaku.TopicSpelling
