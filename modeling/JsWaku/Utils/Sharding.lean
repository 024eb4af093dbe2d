import JsWaku.Runtime.Text
import JsWaku.Runtime.TypedArray

/-!
# Pubsub topics of shards

`pubsubTopicToSingleShardInfo` of `packages/utils/src/common/sharding/index.ts`.
-/

namespace JsWaku.Sharding

open Text

/-- `SingleShardInfo`. -/
structure SingleShardInfo where
  clusterId : ℤ
  shard : ℤ
  deriving DecidableEq, Repr

/-- `pubsubTopicToSingleShardInfo`. -/
def pubsubTopicToSingleShardInfo (pubsubTopics : String) : Except JsError SingleShardInfo :=
  match split '/' pubsubTopics with
  | [_, "waku", "2", "rs", clusterId, shard] =>
    match parseInt clusterId, parseInt shard with
    | some clusterId, some shard => return { clusterId, shard }
    | _, _ => throw (.error "Invalid clusterId or shard")
  | _ => throw (.error "Invalid pubsub topic")

example : (pubsubTopicToSingleShardInfo "/waku/2/rs/1/2").toOption = some ⟨1, 2⟩ := by decide

end JsWaku.Sharding
