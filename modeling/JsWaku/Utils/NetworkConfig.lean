import JsWaku.MessageHash
import JsWaku.Runtime.Decimal
import JsWaku.Runtime.JsSet
import JsWaku.Utils.RelayShardCodec
import JsWaku.Utils.Sharding

/-!
# Sharding configuration

`ensureShardingConfigured` of `packages/utils/src/common/sharding/index.ts`, the functions that it calls, and the way
back from pubsub topics to shards, `pubsubTopicsToShardInfo`; SHA-256 is a parameter. Sets are lists without duplicates.

- A pubsub topic is parsed back to its numbers (`pubsubTopicToSingleShardInfo_rsTopic`), so distinct shards of a cluster
  have distinct topics (`rsTopic_injective`).
- Whichever way a configuration names its shards, the topics returned are those of its distinct shards, in order of
  first occurrence (`topics_of_ensureShardingConfigured`); formatting them again and parsing them back is then one
  computation each (`shardInfoToPubsubTopics_shards`, `pubsubTopicsToShardInfo_map`).
-/

namespace JsWaku.Sharding

open Text

/-! ## The code -/

/-- `DEFAULT_CLUSTER_ID` of `packages/interfaces/src/constants.ts`. -/
def DEFAULT_CLUSTER_ID : ℕ := 1

/-- `Partial<NetworkConfig>`. A field that the code looks for with `in` may be absent or `undefined`, but for the cluster
id: one that is `undefined` is taken as absent. -/
structure NetworkConfig where
  clusterId : Option ℕ := none
  shards : Option (Option (List ℕ)) := none
  contentTopics : Option (Option (List String)) := none
  application : Option String := none
  version : Option String := none

/-- `ShardInfo` as it is parsed from text: a missing cluster id is `undefined`, a missing shard `NaN`. -/
structure ParsedShardInfo where
  clusterId : Option ℤ
  shards : List (Option ℤ)
  deriving DecidableEq, Repr

/-- `ContentTopic`. -/
structure ContentTopic where
  generation : ℤ
  application : String
  version : String
  topicName : String
  encoding : String
  deriving DecidableEq, Repr

/-- The topic of a shard, `/waku/2/rs/${clusterId}/${index}`. -/
def rsTopic (clusterId index : ℕ) : String := "/waku/2/rs/" ++ toString clusterId ++ "/" ++ toString index

/-- The generation field of `ensureValidContentTopic`. -/
def ensureValidGeneration (parts : List String) : Except JsError ℤ :=
  match parts with
  | [_, field, _, _, _, _] =>
    match parseNumber field with
    | none => throw (.error "Invalid generation field in content topic")
    | some generation =>
      if generation > 0 then throw (.error "Generation greater than 0 is not supported") else return generation
  | _ => return 0

/-- `ensureValidContentTopic`. -/
def ensureValidContentTopic (contentTopic : String) : Except JsError ContentTopic := do
  let parts := split '/' contentTopic
  if parts.length < 5 ∨ parts.length > 6 then throw (.error "Content topic format is invalid")
  let generation ← ensureValidGeneration parts
  match parts.drop (parts.length - 4) with
  | [application, version, topicName, encoding] =>
    if application.isEmpty then throw (.error "Application field cannot be empty")
    if version.isEmpty then throw (.error "Version field cannot be empty")
    if topicName.isEmpty then throw (.error "Topic name field cannot be empty")
    if encoding.isEmpty then throw (.error "Encoding field cannot be empty")
    return { generation, application, version, topicName, encoding }
  | _ => throw .typeError

section Topics

variable (sha256 : Bytes → Bytes)

/-- `contentTopicToShardIndex`. -/
def contentTopicToShardIndex (contentTopic : String) (networkShards : ℕ := 8) : Except JsError ℕ := do
  let { application, version, .. } ← ensureValidContentTopic contentTopic
  let bytes ← concat [MessageHash.utf8ToBytes application, MessageHash.utf8ToBytes version] none
  let digest := sha256 bytes
  let value ← DataView.getBigUint64 (sliceFrom digest (-8)) 0
  -- a division of bigints by zero throws
  if networkShards = 0 then throw .rangeError
  return value % networkShards

/-- `contentTopicToPubsubTopic`. -/
def contentTopicToPubsubTopic (contentTopic : String) (clusterId : ℕ := DEFAULT_CLUSTER_ID)
    (networkShards : ℕ := 8) : Except JsError String := do
  if contentTopic.isEmpty then throw (.error "Content topic must be specified")
  let shardIndex ← contentTopicToShardIndex sha256 contentTopic networkShards
  return rsTopic clusterId shardIndex

/-- `shardInfoToPubsubTopics`. -/
def shardInfoToPubsubTopics (shardInfo : NetworkConfig) : Except JsError (List String) :=
  let clusterId := shardInfo.clusterId.getD DEFAULT_CLUSTER_ID
  match shardInfo.contentTopics, shardInfo.shards, shardInfo.application, shardInfo.version with
  | some (some contentTopics), _, _, _ => do
    let pubsubTopics ← contentTopics.mapM fun contentTopic => contentTopicToPubsubTopic sha256 contentTopic clusterId
    return pubsubTopics.eraseDups
  | _, some none, _, _ => throw (.error "Invalid shard")
  | _, some (some shards), _, _ => return (shards.map (rsTopic clusterId)).eraseDups
  | _, none, some application, some version => do
    let contentTopic := "/" ++ application ++ "/" ++ version ++ "/default/default"
    let pubsubTopic ← contentTopicToPubsubTopic sha256 contentTopic clusterId
    return [pubsubTopic]
  | _, none, _, _ => throw (.error "Missing required configuration in shard parameters")

/-- `ensureShardingConfigured`. A list that is absent or `undefined` counts as empty. -/
def ensureShardingConfigured (networkConfig : NetworkConfig) : Except JsError (ShardInfo × List String) :=
  let clusterId := networkConfig.clusterId.getD DEFAULT_CLUSTER_ID
  let shards := (networkConfig.shards.getD (some [])).getD []
  let contentTopics := (networkConfig.contentTopics.getD (some [])).getD []
  if shards.length > 0 then do
    let pubsubTopics ← shardInfoToPubsubTopics sha256 { clusterId, shards := some (some shards) }
    return ({ clusterId, shards }, pubsubTopics)
  else if contentTopics.length > 0 then do
    let pubsubTopics ← contentTopics.mapM fun topic => contentTopicToPubsubTopic sha256 topic clusterId
    let shards ← contentTopics.mapM fun topic => contentTopicToShardIndex sha256 topic
    return ({ clusterId, shards := shards.eraseDups }, pubsubTopics.eraseDups)
  else
    throw (.error "Missing minimum required configuration options for static sharding or autosharding.")

end Topics

/-- The text under which `pubsubTopicsToShardInfo` remembers a shard. -/
def shardKey (clusterId shard : ℤ) : String := toString clusterId ++ ":" ++ toString shard

/-- The loop of `pubsubTopicsToShardInfo` over the topics. The parsed numbers are rounded to a `Number`. -/
def collectShards (shardInfoSet : List String) (clusterIds : List ℤ) :
    List String → Except JsError (List String × List ℤ)
  | [] => .ok (shardInfoSet, clusterIds)
  | topic :: topics => do
    let info ← pubsubTopicToSingleShardInfo topic
    let clusterId := Number.ofInt info.clusterId
    let shard := Number.ofInt info.shard
    collectShards (JsSet.add shardInfoSet (shardKey clusterId shard)) (JsSet.add clusterIds clusterId) topics

/-- `pubsubTopicsToShardInfo`. -/
def pubsubTopicsToShardInfo (pubsubTopics : List String) : Except JsError ParsedShardInfo := do
  let (shardInfoSet, clusterIds) ← collectShards [] [] pubsubTopics
  if shardInfoSet.length = 0 then throw (.error "No valid pubsub topics provided")
  if clusterIds.length > 1 then throw (.error "Pubsub topics from multiple cluster IDs are not supported")
  return {
    clusterId := clusterIds.head?
    shards := shardInfoSet.map fun info => (split ':' info)[1]?.bind parseNumber }

/-- A `ShardInfo` as a network configuration. -/
def toNetworkConfig (shardInfo : ShardInfo) : NetworkConfig :=
  { clusterId := some shardInfo.clusterId, shards := some (some shardInfo.shards) }

/-! ## Topics of shards -/

/-- A topic falls into its six parts. -/
theorem split_rsTopic (clusterId index : ℕ) :
    split '/' (rsTopic clusterId index) = ["", "waku", "2", "rs", toString clusterId, toString index] := by
  rw [split_eq_iff (by simp)]
  refine ⟨by simp [rsTopic, List.intercalate, List.intersperse], ?_⟩
  intro piece hpiece
  simp only [List.mem_cons, List.not_mem_nil, or_false] at hpiece
  rcases hpiece with rfl | rfl | rfl | rfl | rfl | rfl
  · decide
  · decide
  · decide
  · decide
  · exact not_mem_toString clusterId (by decide)
  · exact not_mem_toString index (by decide)

/-- A topic is parsed back to its numbers. -/
theorem pubsubTopicToSingleShardInfo_rsTopic (clusterId index : ℕ) :
    pubsubTopicToSingleShardInfo (rsTopic clusterId index) = .ok ⟨clusterId, index⟩ := by
  rw [pubsubTopicToSingleShardInfo, split_rsTopic]
  simp only [parseInt_toString]
  rfl

theorem rsTopic_injective (clusterId : ℕ) : Function.Injective (rsTopic clusterId) := by
  intro i j h
  have hparsed := congrArg pubsubTopicToSingleShardInfo h
  rw [pubsubTopicToSingleShardInfo_rsTopic, pubsubTopicToSingleShardInfo_rsTopic] at hparsed
  have hshard := congrArg SingleShardInfo.shard (Except.ok.inj hparsed)
  exact Int.ofNat.inj hshard

/-- The remembered text of a shard falls into its two numbers. -/
theorem split_shardKey (clusterId shard : ℕ) :
    split ':' (shardKey clusterId shard) = [toString clusterId, toString shard] := by
  rw [split_eq_iff (by simp), shardKey, toString_natCast, toString_natCast]
  refine ⟨by simp [List.intercalate, List.intersperse], ?_⟩
  intro piece hpiece
  simp only [List.mem_cons, List.not_mem_nil, or_false] at hpiece
  rcases hpiece with rfl | rfl
  · exact not_mem_toString clusterId (by decide)
  · exact not_mem_toString shard (by decide)

theorem shardKey_injective (clusterId : ℕ) : Function.Injective fun shard : ℕ => shardKey clusterId shard := by
  intro i j h
  have hparts := congrArg (split ':') h
  rw [split_shardKey, split_shardKey] at hparts
  simp only [List.cons.injEq, and_true, true_and] at hparts
  exact toString_injective hparts

/-! ## Topics parsed back -/

/-- The loop over topics of one cluster. -/
theorem collectShards_map {clusterId : ℕ} (hc : clusterId < 2 ^ 53) {shards : List ℕ} (hs : ∀ i ∈ shards, i < 2 ^ 53)
    (shardInfoSet : List String) (clusterIds : List ℤ) :
    collectShards shardInfoSet clusterIds (shards.map (rsTopic clusterId)) =
      .ok ((shards.map fun i : ℕ => shardKey clusterId i).foldl JsSet.add shardInfoSet,
        (List.replicate shards.length (clusterId : ℤ)).foldl JsSet.add clusterIds) := by
  induction shards generalizing shardInfoSet clusterIds with
  | nil => rfl
  | cons i shards ih =>
    have hrest := ih fun j hj => hs j (List.mem_cons_of_mem _ hj)
    rw [List.map_cons, collectShards, pubsubTopicToSingleShardInfo_rsTopic, ok_bind]
    simp only [Number.ofInt_natCast hc, Number.ofInt_natCast (hs i List.mem_cons_self), hrest, List.map_cons,
      List.length_cons, List.replicate_succ, List.foldl_cons]

/-- The topics of distinct shards of a cluster are parsed back to the cluster and the shards. -/
theorem pubsubTopicsToShardInfo_map {clusterId : ℕ} (hc : clusterId < 2 ^ 53) {shards : List ℕ} (hne : shards ≠ [])
    (hnodup : shards.Nodup) (hs : ∀ i ∈ shards, i < 2 ^ 53) :
    pubsubTopicsToShardInfo (shards.map (rsTopic clusterId)) =
      .ok ⟨some (clusterId : ℤ), shards.map fun i : ℕ => some (i : ℤ)⟩ := by
  have hkeys : (shards.map fun i : ℕ => shardKey clusterId i).foldl JsSet.add [] =
      shards.map fun i : ℕ => shardKey clusterId i := by
    rw [JsSet.foldl_add List.nodup_nil, List.nil_append,
      JsSet.eraseDups_of_nodup (hnodup.map (shardKey_injective clusterId))]
  have hclusters : (List.replicate shards.length (clusterId : ℤ)).foldl JsSet.add [] = [(clusterId : ℤ)] := by
    rw [JsSet.foldl_add List.nodup_nil, List.nil_append, JsSet.eraseDups_replicate _ (by simpa using hne)]
  have hshards : (shards.map fun i : ℕ => shardKey clusterId i).map (fun info => (split ':' info)[1]?.bind parseNumber) =
      shards.map fun i : ℕ => some (i : ℤ) := by
    rw [List.map_map]
    refine List.map_congr_left fun i hi => ?_
    rw [Function.comp_apply, split_shardKey, List.getElem?_cons_succ, List.getElem?_cons_zero, Option.bind_some,
      parseNumber_toString (hs i hi)]
  simp only [pubsubTopicsToShardInfo, collectShards_map hc hs, ok_bind, hkeys, hclusters, hshards]
  simp [hne]
  rfl

/-! ## Topics of a configuration -/

section Topics

variable (sha256 : Bytes → Bytes)

/-- Topics of static shards. -/
theorem shardInfoToPubsubTopics_shards (clusterId : ℕ) (shards : List ℕ) :
    shardInfoToPubsubTopics sha256 (toNetworkConfig ⟨clusterId, shards⟩) =
      .ok (shards.eraseDups.map (rsTopic clusterId)) := by
  rw [← JsSet.eraseDups_map (rsTopic_injective clusterId)]
  rfl

/-- A content topic that has a pubsub topic has the shard that is in its name. -/
theorem contentTopicToPubsubTopic_eq_ok {contentTopic : String} {clusterId : ℕ} {topic : String}
    (h : contentTopicToPubsubTopic sha256 contentTopic clusterId = .ok topic) :
    ∃ index, contentTopicToShardIndex sha256 contentTopic = .ok index ∧ topic = rsTopic clusterId index := by
  unfold contentTopicToPubsubTopic at h
  split at h
  · cases h
  · obtain ⟨-, -, h⟩ := bind_eq_ok.1 h
    obtain ⟨index, hindex, h⟩ := bind_eq_ok.1 h
    cases h
    exact ⟨index, hindex, rfl⟩

/-- An autosharding index is one of the network's shards. -/
theorem contentTopicToShardIndex_lt {contentTopic : String} {index : ℕ}
    (h : contentTopicToShardIndex sha256 contentTopic = .ok index) : index < 8 := by
  unfold contentTopicToShardIndex at h
  obtain ⟨_, -, h⟩ := bind_eq_ok.1 h
  obtain ⟨_, -, h⟩ := bind_eq_ok.1 h
  obtain ⟨value, -, h⟩ := bind_eq_ok.1 h
  simp only [show (8 : ℕ) ≠ 0 by decide, if_false] at h
  cases h
  exact Nat.mod_lt _ (by decide)

/-- The topics of a list of content topics are those of their shards. -/
theorem mapM_contentTopicToPubsubTopic {contentTopics : List String} {clusterId : ℕ} {topics : List String}
    (h : contentTopics.mapM (fun topic => contentTopicToPubsubTopic sha256 topic clusterId) = .ok topics) :
    ∃ indices, contentTopics.mapM (fun topic => contentTopicToShardIndex sha256 topic) = .ok indices ∧
      topics = indices.map (rsTopic clusterId) ∧ indices.length = contentTopics.length ∧ ∀ i ∈ indices, i < 8 := by
  induction contentTopics generalizing topics with
  | nil => cases h; exact ⟨[], rfl, rfl, rfl, by simp⟩
  | cons contentTopic contentTopics ih =>
    rw [List.mapM_cons] at h
    obtain ⟨topic, htopic, h⟩ := bind_eq_ok.1 h
    obtain ⟨rest, hrest, h⟩ := bind_eq_ok.1 h
    cases h
    obtain ⟨index, hindex, rfl⟩ := contentTopicToPubsubTopic_eq_ok sha256 htopic
    obtain ⟨indices, hindices, rfl, hlen, hlt⟩ := ih hrest
    refine ⟨index :: indices, ?_, rfl, by simp [hlen], ?_⟩
    · rw [List.mapM_cons, hindex, ok_bind, hindices]
      rfl
    · intro i hi
      rcases List.mem_cons.1 hi with rfl | hi
      · exact contentTopicToShardIndex_lt sha256 hindex
      · exact hlt i hi

/-- The numbers of a configuration are exact as JavaScript numbers. -/
structure NetworkConfig.Safe (networkConfig : NetworkConfig) : Prop where
  clusterId : ∀ clusterId, networkConfig.clusterId = some clusterId → clusterId < 2 ^ 53
  shards : ∀ shards, networkConfig.shards = some (some shards) → ∀ i ∈ shards, i < 2 ^ 53

/-- An accepted configuration gives the topics of its distinct shards, of which there is one at least. -/
theorem topics_of_ensureShardingConfigured {networkConfig : NetworkConfig} {shardInfo : ShardInfo}
    {pubsubTopics : List String} (hsafe : networkConfig.Safe)
    (h : ensureShardingConfigured sha256 networkConfig = .ok (shardInfo, pubsubTopics)) :
    pubsubTopics = shardInfo.shards.eraseDups.map (rsTopic shardInfo.clusterId) ∧ shardInfo.shards ≠ [] ∧
      shardInfo.clusterId < 2 ^ 53 ∧ ∀ i ∈ shardInfo.shards, i < 2 ^ 53 := by
  have hcluster : networkConfig.clusterId.getD DEFAULT_CLUSTER_ID < 2 ^ 53 := by
    cases hid : networkConfig.clusterId with
    | none => decide
    | some clusterId => exact hsafe.clusterId clusterId hid
  simp only [ensureShardingConfigured] at h
  split at h
  next hshards =>
    obtain ⟨topics, htopics, h⟩ := bind_eq_ok.1 h
    cases h
    have hformat := shardInfoToPubsubTopics_shards sha256 (networkConfig.clusterId.getD DEFAULT_CLUSTER_ID)
      ((networkConfig.shards.getD (some [])).getD [])
    rw [toNetworkConfig] at hformat
    rw [hformat] at htopics
    cases htopics
    refine ⟨rfl, List.ne_nil_of_length_pos hshards, hcluster, ?_⟩
    match hlist : networkConfig.shards with
    | none => simp
    | some none => simp
    | some (some shards) => exact hsafe.shards shards hlist
  next =>
    split at h
    next htopics =>
      obtain ⟨topics, hmap, h⟩ := bind_eq_ok.1 h
      obtain ⟨indices, hindices, rfl, hlen, hlt⟩ := mapM_contentTopicToPubsubTopic sha256 hmap
      rw [hindices, ok_bind] at h
      cases h
      have hne : indices ≠ [] := List.ne_nil_of_length_pos (hlen ▸ htopics)
      refine ⟨?_, JsSet.eraseDups_ne_nil hne, hcluster, fun i hi => ?_⟩
      · rw [JsSet.eraseDups_map (rsTopic_injective _), JsSet.eraseDups_of_nodup (JsSet.nodup_eraseDups indices)]
      · exact (hlt i (List.mem_eraseDups.1 hi)).trans (by norm_num)
    next => cases h

/-- **A sharding configuration agrees with itself.** The topics returned for an accepted configuration are distinct,
they are what the returned shard info is formatted to, and they are parsed back to its cluster id and its distinct
shards in order of first occurrence. -/
theorem ensureShardingConfigured_consistent (networkConfig : NetworkConfig) (shardInfo : ShardInfo)
    (pubsubTopics : List String) (hsafe : networkConfig.Safe)
    (h : ensureShardingConfigured sha256 networkConfig = .ok (shardInfo, pubsubTopics)) :
    pubsubTopics.Nodup ∧ shardInfoToPubsubTopics sha256 (toNetworkConfig shardInfo) = .ok pubsubTopics ∧
      pubsubTopicsToShardInfo pubsubTopics =
        .ok ⟨some (shardInfo.clusterId : ℤ), shardInfo.shards.eraseDups.map fun i : ℕ => some (i : ℤ)⟩ := by
  obtain ⟨rfl, hne, hcluster, hshards⟩ := topics_of_ensureShardingConfigured sha256 hsafe h
  have hnodup := JsSet.nodup_eraseDups shardInfo.shards
  refine ⟨hnodup.map (rsTopic_injective _), shardInfoToPubsubTopics_shards sha256 _ _, ?_⟩
  exact pubsubTopicsToShardInfo_map hcluster (JsSet.eraseDups_ne_nil hne) hnodup
    fun i hi => hshards i (List.mem_eraseDups.1 hi)

end Topics

/-- A hash function with the SHA-256 digests of `appv1` and `appv2`. -/
def sampleSha256 (bytes : Bytes) : Bytes :=
  if bytes = MessageHash.utf8ToBytes "appv1" then
    Endian.toBE 32 0x93ebfd1461592b6f486ab4b33bae94dacfb57d489861bbdfaeefb3b144750fa4
  else Endian.toBE 32 0xfe50d45dd3b75514c76dff3f0ac1b1efca8ce37f3e1102a5b79e390676d61678

/-- Three content topics of two applications. -/
def sampleConfig : NetworkConfig :=
  { contentTopics := some (some ["/app/v1/a/proto", "/app/v2/b/proto", "/0/app/v1/c/proto"]) }

theorem ensureShardingConfigured_consistent_sample :
    ["/waku/2/rs/1/4", "/waku/2/rs/1/0"].Nodup ∧
      shardInfoToPubsubTopics sampleSha256 (toNetworkConfig ⟨1, [4, 0]⟩) = .ok ["/waku/2/rs/1/4", "/waku/2/rs/1/0"] ∧
      pubsubTopicsToShardInfo ["/waku/2/rs/1/4", "/waku/2/rs/1/0"] =
        .ok ⟨some ((1 : ℕ) : ℤ), [4, 0].eraseDups.map fun i : ℕ => some (i : ℤ)⟩ := by
  have hsafe : sampleConfig.Safe := ⟨fun _ h => (by cases h), fun _ h => (by cases h)⟩
  exact ensureShardingConfigured_consistent sampleSha256 sampleConfig ⟨1, [4, 0]⟩ _ hsafe (by decide +kernel)

end JsWaku.Sharding
