import JsWaku.Enr.Codec

/-!
# Making and changing records

`EnrCreator.fromPublicKey` of `packages/enr/src/creator.ts`, the property setters of `raw_enr.ts` with
`multiaddrs_codec.ts` and `waku2_codec.ts`, and the `delete` that a record inherits from `Map`.
-/

namespace JsWaku.Enr

open Endian MessageHash

/-- The functions of other packages that change records. -/
structure SetterEnv extends Env where
  /-- `convertToBytes(proto, value)` -/
  convertToBytes : String → String → Except JsError Bytes
  /-- `secp.Point.fromHex(publicKey).toRawBytes(true)` -/
  compressPoint : Bytes → Except JsError Bytes

variable (env : SetterEnv)

/-! ## Making a record -/

/-- `compressPublicKey`. -/
def compressPublicKey (publicKey : Bytes) : Except JsError Bytes :=
  env.compressPoint (if publicKey.length = 64 then 4 :: publicKey else publicKey)

/-- The compressed form that `fromPublicKey` stores. -/
def storedPublicKey (publicKey : Bytes) : Except JsError Bytes :=
  if publicKey.length ≠ 33 then compressPublicKey env publicKey else return publicKey

/-- `EnrCreator.fromPublicKey`. -/
def fromPublicKey (publicKey : Bytes) (kvs : PlainObject ENRValue) : Except JsError ENR := do
  let publicKey ← storedPublicKey env publicKey
  let own := (kvs.own.set "id" (.bytes (utf8ToBytes "v4"))).set "secp256k1" (.bytes publicKey)
  return ENR.create env.toEnv ⟨none, own⟩ 1 none

/-! ## Codecs -/

/-- A multiaddr: its bytes, and what `getPeerId` finds in it. -/
structure Multiaddr where
  bytes : Bytes
  peerId : Option String
  deriving DecidableEq, Repr

/-- `MULTIADDR_LENGTH_SIZE`. -/
def MULTIADDR_LENGTH_SIZE : ℕ := 2

/-- `encodeMultiaddrs`. -/
def encodeMultiaddrs (multiaddrs : List Multiaddr) : Except JsError Bytes :=
  if multiaddrs.any fun multiaddr => multiaddr.peerId.any (· ≠ "") then
    throw (.error "`multiaddr` field MUST not contain peer id")
  else
    return multiaddrs.flatMap fun multiaddr =>
      toBE MULTIADDR_LENGTH_SIZE multiaddr.bytes.length ++ multiaddr.bytes

/-- `Waku2`. -/
structure Waku2 where
  relay : Bool
  store : Bool
  filter : Bool
  lightPush : Bool
  deriving DecidableEq, Repr

/-- `encodeWaku2`. -/
def encodeWaku2 (protocols : Waku2) : ℕ :=
  let byte := if protocols.lightPush then 1 else 0
  let byte := (byte <<< 1) + if protocols.filter then 1 else 0
  let byte := (byte <<< 1) + if protocols.store then 1 else 0
  (byte <<< 1) + if protocols.relay then 1 else 0

/-! ## Changing a record -/

namespace ENR

/-- `set`. -/
def set (enr : ENR) (k : String) (v : ENRValue) : ENR := { enr with toRawEnr := enr.toRawEnr.set k v }

/-- The `delete` of `Map`, which is not overridden. -/
def delete (enr : ENR) (k : String) : ENR := { enr with kvs := enr.kvs.delete k }

/-- `deleteUndefined`. -/
def deleteUndefined {ν : Type} (enr : ENR) (key : String) (value : Option ν) (transform : ν → Except JsError Bytes) :
    Except JsError ENR :=
  match value with
  | some value => do
    let bytes ← transform value
    return enr.set key (.bytes bytes)
  | none => return enr.delete key

/-- `setStringValue`. -/
def setStringValue (enr : ENR) (key proto : String) (value : Option String) : Except JsError ENR :=
  enr.deleteUndefined key value (env.convertToBytes proto)

/-- `setNumberAsStringValue`; a number is given by how `toString(10)` prints it. -/
def setNumberAsStringValue (enr : ENR) (key proto : String) (value : Option String) : Except JsError ENR :=
  enr.setStringValue env key proto value

/-- `ip = value`. -/
def setIp (enr : ENR) (ip : Option String) : Except JsError ENR := enr.setStringValue env "ip" "ip4" ip

/-- `tcp = value`. -/
def setTcp (enr : ENR) (port : Option String) : Except JsError ENR := enr.setNumberAsStringValue env "tcp" "tcp" port

/-- `udp = value`. -/
def setUdp (enr : ENR) (port : Option String) : Except JsError ENR := enr.setNumberAsStringValue env "udp" "udp" port

/-- `ip6 = value`. -/
def setIp6 (enr : ENR) (ip : Option String) : Except JsError ENR := enr.setStringValue env "ip6" "ip6" ip

/-- `tcp6 = value`. -/
def setTcp6 (enr : ENR) (port : Option String) : Except JsError ENR := enr.setNumberAsStringValue env "tcp6" "tcp" port

/-- `udp6 = value`. -/
def setUdp6 (enr : ENR) (port : Option String) : Except JsError ENR := enr.setNumberAsStringValue env "udp6" "udp" port

/-- `multiaddrs = value`. -/
def setMultiaddrs (enr : ENR) (multiaddrs : Option (List Multiaddr)) : Except JsError ENR :=
  enr.deleteUndefined "multiaddrs" multiaddrs encodeMultiaddrs

/-- `waku2 = value`. -/
def setWaku2 (enr : ENR) (waku2 : Option Waku2) : Except JsError ENR :=
  enr.deleteUndefined "waku2" waku2 fun w => .ok [UInt8.ofNat (encodeWaku2 w)]

end ENR

end JsWaku.Enr
