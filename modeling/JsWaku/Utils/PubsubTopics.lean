import JsWaku.Runtime.Grouping
import JsWaku.Utils.NetworkConfig

/-!
# The pubsub topics of nodes, encoders and decoders

`derivePubsubTopicsFromNetworkConfig`, `determinePubsubTopic` and `contentTopicsByPubsubTopic` of
`packages/utils/src/common/sharding/index.ts`: the topics that a node is configured with, the topic of an encoder or
decoder, and content topics by their topics. Every protocol compares the second with the first.

The topic of an encoder or decoder is one of the node iff their clusters agree and its shard is one of the configuration
(`determined_mem_iff`). Content topics are grouped without loss, under the topics of a node that is configured with them
(`contentTopicsByPubsubTopic_spec`).
-/

namespace JsWaku.Sharding

/-! ## The code -/

/-- `isStaticSharding`. For the code a cluster id that is present and `undefined` is there; here it is absent. -/
def isStaticSharding (config : NetworkConfig) : Bool :=
  config.clusterId.isSome && config.shards.isSome && !config.contentTopics.isSome

/-- `isAutoSharding`. -/
def isAutoSharding (config : NetworkConfig) : Bool := config.contentTopics.isSome

/-- `SingleShardInfo`, with numbers that are exact. -/
structure ShardChoice where
  clusterId : Option ℕ
  shard : Option ℕ
  deriving DecidableEq, Repr

/-- The second argument of `determinePubsubTopic`, where it is given. -/
inductive PubsubTopicShardInfo
  | pubsubTopic (topic : String)
  | shardInfo (info : ShardChoice)
  deriving DecidableEq, Repr

section

variable (sha256 : Bytes → Bytes)

/-- `derivePubsubTopicsFromNetworkConfig`. -/
def derivePubsubTopicsFromNetworkConfig (networkConfig : NetworkConfig) : Except JsError (List String) :=
  if isStaticSharding networkConfig then
    match networkConfig.shards.getD none with
    | none => throw .typeError
    | some shards =>
      if shards.length = 0 then throw (.error "Invalid shards configuration: please provide at least one shard")
      else shardInfoToPubsubTopics sha256 networkConfig
  else if isAutoSharding networkConfig then
    match networkConfig.contentTopics.getD none with
    | none => throw .typeError
    | some contentTopics =>
      if contentTopics.length = 0 then
        throw (.error "Invalid content topics configuration: please provide at least one content topic")
      else
        contentTopics.mapM fun contentTopic =>
          contentTopicToPubsubTopic sha256 contentTopic (networkConfig.clusterId.getD DEFAULT_CLUSTER_ID)
  else throw (.error "Unknown shard config. Please use ShardInfo or ContentTopicInfo")

/-- `determinePubsubTopic`. -/
def determinePubsubTopic (contentTopic : String) : Option PubsubTopicShardInfo → Except JsError String
  | some (.pubsubTopic topic) => return topic
  | some (.shardInfo ⟨clusterId, some shard⟩) => return rsTopic (clusterId.getD DEFAULT_CLUSTER_ID) shard
  | some (.shardInfo ⟨clusterId, none⟩) =>
    contentTopicToPubsubTopic sha256 contentTopic (clusterId.getD DEFAULT_CLUSTER_ID)
  | none => contentTopicToPubsubTopic sha256 contentTopic

/-- `contentTopicsByPubsubTopic`. -/
def contentTopicsByPubsubTopic (contentTopics : List String) (clusterId : ℕ := DEFAULT_CLUSTER_ID)
    (networkShards : ℕ := 8) : Except JsError (Map String (List String)) :=
  contentTopics.foldlM (fun groupedContentTopics contentTopic => do
    let pubsubTopic ← contentTopicToPubsubTopic sha256 contentTopic clusterId networkShards
    return groupedContentTopics.push pubsubTopic contentTopic) Map.empty

/-! ## The topics of a node -/

/-- The shard that an encoder or decoder is for. -/
def shardOf (contentTopic : String) (info : ShardChoice) : Except JsError ℕ :=
  match info.shard with
  | some shard => return shard
  | none => contentTopicToShardIndex sha256 contentTopic

/-- The shards of a configuration. -/
def configuredShards (networkConfig : NetworkConfig) : Except JsError (List ℕ) :=
  match networkConfig.contentTopics.getD none with
  | some contentTopics => contentTopics.mapM fun contentTopic => contentTopicToShardIndex sha256 contentTopic
  | none => return (networkConfig.shards.getD none).getD []

theorem rsTopic_inj {clusterId clusterId' index index' : ℕ} :
    rsTopic clusterId index = rsTopic clusterId' index' ↔ clusterId = clusterId' ∧ index = index' := by
  constructor
  · intro h
    have hparsed := congrArg pubsubTopicToSingleShardInfo h
    rw [pubsubTopicToSingleShardInfo_rsTopic, pubsubTopicToSingleShardInfo_rsTopic] at hparsed
    have hinfo := Except.ok.inj hparsed
    exact ⟨Int.ofNat.inj (congrArg SingleShardInfo.clusterId hinfo), Int.ofNat.inj (congrArg SingleShardInfo.shard hinfo)⟩
  · rintro ⟨rfl, rfl⟩
    rfl

variable {sha256}

/-- A node has the topics of the shards of its configuration. -/
theorem derived_mem_iff {networkConfig : NetworkConfig} {topics : List String}
    (h : derivePubsubTopicsFromNetworkConfig sha256 networkConfig = .ok topics) :
    ∃ shards, configuredShards sha256 networkConfig = .ok shards ∧ ∀ clusterId index,
      rsTopic clusterId index ∈ topics ↔ clusterId = networkConfig.clusterId.getD DEFAULT_CLUSTER_ID ∧ index ∈ shards := by
  unfold derivePubsubTopicsFromNetworkConfig at h
  unfold configuredShards
  split at h
  · rename_i hstatic
    have hnone : networkConfig.contentTopics = none := by
      simp only [isStaticSharding, Bool.and_eq_true, Bool.not_eq_true', Option.isSome_eq_false_iff,
        Option.isNone_iff_eq_none] at hstatic
      exact hstatic.2
    split at h
    · cases h
    rename_i shards hshards
    split at h
    · cases h
    rw [hnone, hshards]
    refine ⟨shards, rfl, fun clusterId index => ?_⟩
    have hsome : networkConfig.shards = some (some shards) := by
      cases hconfig : networkConfig.shards with
      | none => simp [hconfig] at hshards
      | some shards' =>
        rw [hconfig, Option.getD_some] at hshards
        rw [hshards]
    simp only [shardInfoToPubsubTopics, hnone, hsome] at h
    cases h
    simp only [List.mem_eraseDups, List.mem_map, rsTopic_inj]
    constructor
    · rintro ⟨i, hi, rfl, rfl⟩
      exact ⟨rfl, hi⟩
    · rintro ⟨rfl, hindex⟩
      exact ⟨index, hindex, rfl, rfl⟩
  split at h
  · split at h
    · cases h
    rename_i contentTopics hcontent
    split at h
    · cases h
    obtain ⟨indices, hindices, rfl, -, -⟩ := mapM_contentTopicToPubsubTopic sha256 h
    rw [hcontent]
    refine ⟨indices, hindices, fun clusterId index => ?_⟩
    simp only [List.mem_map, rsTopic_inj]
    constructor
    · rintro ⟨i, hi, rfl, rfl⟩
      exact ⟨rfl, hi⟩
    · rintro ⟨rfl, hindex⟩
      exact ⟨index, hindex, rfl, rfl⟩
  · cases h

/-- The topic of an encoder or decoder is that of its shard. -/
theorem determined_eq {contentTopic topic : String} {info : ShardChoice}
    (h : determinePubsubTopic sha256 contentTopic (some (.shardInfo info)) = .ok topic) :
    ∃ index, shardOf sha256 contentTopic info = .ok index ∧
      topic = rsTopic (info.clusterId.getD DEFAULT_CLUSTER_ID) index := by
  obtain ⟨clusterId, shard⟩ := info
  cases shard with
  | some shard =>
    cases h
    exact ⟨shard, rfl, rfl⟩
  | none => exact contentTopicToPubsubTopic_eq_ok sha256 h

/-- Content topics of one application and version have one shard. -/
theorem shardIndex_congr {contentTopic contentTopic' : String} {parsed parsed' : ContentTopic}
    (h : ensureValidContentTopic contentTopic = .ok parsed) (h' : ensureValidContentTopic contentTopic' = .ok parsed')
    (happlication : parsed.application = parsed'.application) (hversion : parsed.version = parsed'.version) :
    contentTopicToShardIndex sha256 contentTopic = contentTopicToShardIndex sha256 contentTopic' := by
  simp only [contentTopicToShardIndex, h, h', ok_bind, happlication, hversion]

/-- **A topic is configured iff its cluster and shard are.** Let a configuration be accepted, and let an encoder or
decoder get its topic from shard info. The topic is one of the node iff the clusters agree and the shard of the encoder
or decoder is one of the configuration. In particular, where the clusters agree it is one of the node for every content
topic of the application and version of a configured one. -/
theorem determined_mem_iff (sha256 : Bytes → Bytes) (networkConfig : NetworkConfig) (contentTopic : String)
    (info : ShardChoice) (topics : List String) (topic : String)
    (hderived : derivePubsubTopicsFromNetworkConfig sha256 networkConfig = .ok topics)
    (hdetermined : determinePubsubTopic sha256 contentTopic (some (.shardInfo info)) = .ok topic) :
    (∃ index shards, shardOf sha256 contentTopic info = .ok index ∧ configuredShards sha256 networkConfig = .ok shards ∧
      (topic ∈ topics ↔ info.clusterId.getD DEFAULT_CLUSTER_ID = networkConfig.clusterId.getD DEFAULT_CLUSTER_ID ∧
        index ∈ shards)) ∧
    ∀ contentTopics configured parsed parsed', networkConfig.contentTopics = some (some contentTopics) →
      configured ∈ contentTopics → info.shard = none →
      info.clusterId.getD DEFAULT_CLUSTER_ID = networkConfig.clusterId.getD DEFAULT_CLUSTER_ID →
      ensureValidContentTopic contentTopic = .ok parsed → ensureValidContentTopic configured = .ok parsed' →
      parsed.application = parsed'.application → parsed.version = parsed'.version → topic ∈ topics := by
  obtain ⟨shards, hshards, hmem⟩ := derived_mem_iff hderived
  obtain ⟨index, hindex, rfl⟩ := determined_eq hdetermined
  refine ⟨⟨index, shards, hindex, hshards, hmem _ _⟩, ?_⟩
  intro contentTopics configured parsed parsed' hcontent hconfigured hauto hcluster h h' happlication hversion
  refine (hmem _ _).2 ⟨hcluster, ?_⟩
  rw [configuredShards, hcontent, Option.getD_some] at hshards
  rw [shardOf, hauto] at hindex
  have hsame : _ = contentTopicToShardIndex sha256 configured := shardIndex_congr h h' happlication hversion
  have hmapped : contentTopicToShardIndex sha256 configured ∈ shards.map Except.ok :=
    mapM_eq_ok_iff.1 hshards ▸ List.mem_map_of_mem hconfigured
  obtain ⟨index', hindex', heq⟩ := List.mem_map.1 hmapped
  rw [← heq] at hsame
  cases hindex.symm.trans hsame
  exact hindex'

theorem determined_mem_iff_sample :
    (∃ index shards, shardOf sampleSha256 "/app/v2/d/proto" ⟨none, none⟩ = .ok index ∧
      configuredShards sampleSha256 sampleConfig = .ok shards ∧
      ("/waku/2/rs/1/0" ∈ ["/waku/2/rs/1/4", "/waku/2/rs/1/0", "/waku/2/rs/1/4"] ↔
        (none : Option ℕ).getD DEFAULT_CLUSTER_ID = sampleConfig.clusterId.getD DEFAULT_CLUSTER_ID ∧ index ∈ shards)) ∧
    "/waku/2/rs/1/0" ∈ ["/waku/2/rs/1/4", "/waku/2/rs/1/0", "/waku/2/rs/1/4"] := by
  have h := determined_mem_iff sampleSha256 sampleConfig "/app/v2/d/proto" ⟨none, none⟩
    ["/waku/2/rs/1/4", "/waku/2/rs/1/0", "/waku/2/rs/1/4"] "/waku/2/rs/1/0" (by decide +kernel) (by decide +kernel)
  refine ⟨h.1, h.2 _ "/app/v2/b/proto" ⟨0, "app", "v2", "d", "proto"⟩ ⟨0, "app", "v2", "b", "proto"⟩ rfl ?_ rfl rfl
    ?_ ?_ rfl rfl⟩
  · exact List.mem_cons_of_mem _ List.mem_cons_self
  · decide +kernel
  · decide +kernel

/-! ## Content topics by their topics -/

/-- Topics are found one by one, and the content topics are grouped under them. -/
theorem contentTopicsByPubsubTopic_eq (sha256 : Bytes → Bytes) (contentTopics : List String)
    (clusterId networkShards : ℕ) :
    contentTopicsByPubsubTopic sha256 contentTopics clusterId networkShards = (do
      let pubsubTopics ← contentTopics.mapM fun contentTopic =>
        contentTopicToPubsubTopic sha256 contentTopic clusterId networkShards
      return Map.grouped (pubsubTopics.zip contentTopics)) := by
  have hfold : ∀ m : Map String (List String), contentTopics.foldlM (fun m contentTopic => do
      let pubsubTopic ← contentTopicToPubsubTopic sha256 contentTopic clusterId networkShards
      return m.push pubsubTopic contentTopic) m = (do
        let pubsubTopics ← contentTopics.mapM fun contentTopic =>
          contentTopicToPubsubTopic sha256 contentTopic clusterId networkShards
        return (pubsubTopics.zip contentTopics).foldl (fun m entry => m.push entry.1 entry.2) m) := by
    induction contentTopics with
    | nil => exact fun m => rfl
    | cons contentTopic contentTopics ih =>
      intro m
      rw [List.foldlM_cons, List.mapM_cons]
      cases contentTopicToPubsubTopic sha256 contentTopic clusterId networkShards with
      | error e => rfl
      | ok pubsubTopic =>
        simp only [ok_bind, pure_bind, ih, bind_assoc, List.zip_cons_cons, List.foldl_cons]
  exact hfold Map.empty

/-- The content topics of a topic. -/
theorem map_snd_filter_zip {ε α κ : Type} [DecidableEq ε] [DecidableEq κ] (f : α → Except ε κ) (key : κ) {l : List α}
    {keys : List κ} (h : l.map f = keys.map Except.ok) :
    ((keys.zip l).filter fun entry => entry.1 = key).map Prod.snd = l.filter fun a => f a = .ok key := by
  induction l generalizing keys with
  | nil => simp
  | cons a l ih =>
    obtain ⟨k, keys', rfl, hk, hkeys⟩ := List.map_eq_cons_iff.1 h.symm
    have hsame : f a = .ok key ↔ k = key := by rw [← hk, Except.ok.injEq]
    rw [List.zip_cons_cons, List.filter_cons, List.filter_cons]
    by_cases hkey : k = key
    · simp only [hkey, hsame, decide_true, if_true, List.map_cons, ih hkeys.symm]
    · simp only [hkey, hsame, decide_false, Bool.false_eq_true, if_false, ih hkeys.symm]

/-- **Content topics are grouped without loss.** They are grouped iff each has a pubsub topic. Then every one of them is
in one group, the group of a topic is the content topics that have it, in order, and the groups come in the order of
the topics of a node that is configured with these content topics. -/
theorem contentTopicsByPubsubTopic_spec (sha256 : Bytes → Bytes) (contentTopics : List String) (clusterId : ℕ) :
    ((∃ m, contentTopicsByPubsubTopic sha256 contentTopics clusterId = .ok m) ↔
      ∀ contentTopic ∈ contentTopics, ∃ topic, contentTopicToPubsubTopic sha256 contentTopic clusterId = .ok topic) ∧
    ∀ m, contentTopicsByPubsubTopic sha256 contentTopics clusterId = .ok m →
      (m.entries.flatMap Prod.snd).Perm contentTopics ∧
      (∀ topic, m.get topic = if topic ∈ m.keys then some (contentTopics.filter fun contentTopic =>
        contentTopicToPubsubTopic sha256 contentTopic clusterId = .ok topic) else none) ∧
      shardInfoToPubsubTopics sha256 { clusterId, contentTopics := some (some contentTopics) } = .ok m.keys := by
  rw [contentTopicsByPubsubTopic_eq, ← exists_mapM_iff]
  refine ⟨⟨?_, ?_⟩, fun m hm => ?_⟩
  · rintro ⟨m, hm⟩
    obtain ⟨pubsubTopics, htopics, -⟩ := bind_eq_ok.1 hm
    exact ⟨pubsubTopics, htopics⟩
  · rintro ⟨pubsubTopics, htopics⟩
    exact ⟨_, by rw [htopics, ok_bind]; rfl⟩
  obtain ⟨pubsubTopics, htopics, hm⟩ := bind_eq_ok.1 hm
  cases hm
  have hmap := mapM_eq_ok_iff.1 htopics
  have hlen : pubsubTopics.length = contentTopics.length := by simpa using (congrArg List.length hmap).symm
  have hkeys : (pubsubTopics.zip contentTopics).map Prod.fst = pubsubTopics := List.map_fst_zip hlen.le
  have hvalues : (pubsubTopics.zip contentTopics).map Prod.snd = contentTopics := List.map_snd_zip hlen.ge
  refine ⟨?_, fun topic => ?_, ?_⟩
  · have hperm := Map.perm_grouped (pubsubTopics.zip contentTopics)
    rwa [hvalues] at hperm
  · rw [Map.get_grouped, Map.keys_grouped, map_snd_filter_zip _ topic hmap]
    simp only [List.mem_eraseDups]
  · rw [Map.keys_grouped, hkeys]
    simp only [shardInfoToPubsubTopics, Option.getD_some, htopics, ok_bind]
    rfl

end

end JsWaku.Sharding
