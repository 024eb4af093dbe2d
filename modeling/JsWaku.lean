import JsWaku.Core.ConnectionManager.Bootstrap
import JsWaku.Core.ConnectionManager.DialPeer
import JsWaku.Core.ConnectionManager.KeepAlive
import JsWaku.Core.ConnectionManager.PeerDials
import JsWaku.Core.KeepAliveManager
import JsWaku.Core.Message
import JsWaku.Core.Metadata
import JsWaku.Core.RequestMethods
import JsWaku.Core.Service
import JsWaku.Core.Store
import JsWaku.Core.StreamManager.Exclusive
import JsWaku.Core.TimeBounds
import JsWaku.Discovery.CacheTransparency
import JsWaku.Discovery.Coverage
import JsWaku.Discovery.Dns
import JsWaku.Discovery.FetchContract
import JsWaku.Discovery.FetchNodes
import JsWaku.Discovery.GetPeers
import JsWaku.Discovery.LocalPeerCache
import JsWaku.Discovery.Lookups
import JsWaku.Discovery.PeerCacheAnnouncements
import JsWaku.Discovery.PeerDiscoveryDns
import JsWaku.Discovery.PeerExchange.Recurring
import JsWaku.Discovery.PeerExchange.Update
import JsWaku.Discovery.RootSignature
import JsWaku.Discovery.Search
import JsWaku.Discovery.SelectPath
import JsWaku.Discovery.SharedPeerCache
import JsWaku.Discovery.Traversal
import JsWaku.Discovery.Tree
import JsWaku.Enr.Canonical
import JsWaku.Enr.LocationMultiaddr
import JsWaku.Enr.MultiaddrsCodec
import JsWaku.Enr.RoundTrip
import JsWaku.Enr.Signatures
import JsWaku.Lib.Protobuf
import JsWaku.Lib.Reading
import JsWaku.MessageEncryption.EmptyMessage
import JsWaku.MessageEncryption.EnvelopeLimits
import JsWaku.MessageEncryption.ReadBounds
import JsWaku.MessageEncryption.Rejection
import JsWaku.MessageEncryption.RoundTrip
import JsWaku.MessageEncryption.Wire
import JsWaku.MessageHash
import JsWaku.Proto.Queries
import JsWaku.Proto.Requests
import JsWaku.Proto.Runtime
import JsWaku.Proto.WakuMessage
import JsWaku.Proto.WireFormat
import JsWaku.Relay.ActiveSubscriptions
import JsWaku.Relay.Network
import JsWaku.Relay.WaitForPeers
import JsWaku.Runtime.Grouping
import JsWaku.Sdk.Filter.Delivery
import JsWaku.Sdk.Filter.FrontEnd
import JsWaku.Sdk.Filter.KeepAlive
import JsWaku.Sdk.Filter.Provenance
import JsWaku.Sdk.Filter.ServingPeers
import JsWaku.Sdk.Filter.Unsubscribe
import JsWaku.Sdk.HealthIndicator
import JsWaku.Sdk.LightPush
import JsWaku.Sdk.LockedPeers
import JsWaku.Sdk.Store
import JsWaku.Sdk.StoreQuery
import JsWaku.Sdk.WaitForRemotePeer
import JsWaku.Utils.ContentTopics
import JsWaku.Utils.NetworkConfig
import JsWaku.Utils.PubsubTopics
import JsWaku.Utils.RelayShardCodec
import JsWaku.Utils.ShardReencoding
import JsWaku.Utils.ToAsyncIterator
import JsWaku.Utils.TopicSpelling
