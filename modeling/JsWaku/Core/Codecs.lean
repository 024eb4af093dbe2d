/-!
# Codecs

The libp2p protocols by which a peer says what it serves.
-/

namespace JsWaku

/-- `FilterCodecs.SUBSCRIBE`. -/
def FilterCodecs.SUBSCRIBE : String := "/vac/waku/filter-subscribe/2.0.0-beta1"

/-- `LightPushCodec`. -/
def LightPushCodec : String := "/vac/waku/lightpush/2.0.0-beta1"

/-- `StoreCodec`. -/
def StoreCodec : String := "/vac/waku/store-query/3.0.0"

/-- `PeerExchangeCodec`. -/
def PeerExchangeCodec : String := "/vac/waku/peer-exchange/2.0.0-alpha1"

end JsWaku
