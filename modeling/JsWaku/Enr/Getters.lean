import JsWaku.Enr.Setters

/-!
# Reading a record

The getters `nodeId` of `packages/enr/src/enr.ts` with `v4.ts`, and `ip`, `multiaddrs` and `waku2` of `raw_enr.ts` with
`multiaddrs_codec.ts` and `waku2_codec.ts`. They decode what a remote peer has written, and `nodeId`, `ip` and
`multiaddrs` may throw.

The byte arrays of a record are made by `hexToBytes`, each with a buffer of its own. A nested list is an array of hex
strings (and arrays) instead.
-/

namespace JsWaku.Enr

open Endian MessageHash

/-- The functions of other packages that the getters call. -/
structure Getters where
  /-- `secp.Point.fromHex(publicKey).toRawBytes(false)` -/
  uncompressPoint : ENRValue → Except JsError Bytes
  /-- `convertToString(proto, value)` -/
  convertToString : String → ENRValue → Except JsError String
  /-- `multiaddr(bytes)` -/
  multiaddr : Bytes → Except JsError Multiaddr
  /-- `toString` of a multiaddr -/
  multiaddrToString : Multiaddr → Except JsError String

/-! ## Codecs -/

/-- One round of the loop of `decodeMultiaddrs` after another, from an index on. -/
def decodeMultiaddrsFrom (getters : Getters) (bytes : Bytes) (index : ℕ) : Except JsError (List Multiaddr) :=
  if index < bytes.length then do
    let size ← DataView.getUint16 bytes index
    let multiaddrBytes := slice bytes ((index + MULTIADDR_LENGTH_SIZE : ℕ) : ℤ)
      ((index + MULTIADDR_LENGTH_SIZE + size : ℕ) : ℤ)
    let multiaddr ← getters.multiaddr multiaddrBytes
    let multiaddrs ← decodeMultiaddrsFrom getters bytes (index + MULTIADDR_LENGTH_SIZE + size)
    return multiaddr :: multiaddrs
  else return []
termination_by bytes.length - index
decreasing_by
  rw [MULTIADDR_LENGTH_SIZE]
  omega

/-- `decodeMultiaddrs`. An array that is not empty has no buffer to view. -/
def decodeMultiaddrs (getters : Getters) : ENRValue → Except JsError (List Multiaddr)
  | .bytes bytes => decodeMultiaddrsFrom getters bytes 0
  | .list [] => return []
  | .list _ => throw .typeError

/-- The number that an element of an array stands for: the value of a hex string, or of how an array of one is printed;
`none` is not a number, or infinite. -/
def toNumber : ENRValue → Option ℤ
  | .bytes [] => none
  | .bytes bytes => Number.ofBigInt (beNat bytes)
  | .list [] => some 0
  | .list [value] => toNumber value
  | .list _ => none

/-- `raw[0]`, as a number. -/
def firstByte : ENRValue → Option ℤ
  | .bytes bytes => bytes.head?.map fun byte => (byte.toNat : ℤ)
  | .list values => values.head?.bind toNumber

/-- `byte % 2`, as a condition. -/
def isOdd (byte : Option ℤ) : Bool := byte.any (· % 2 ≠ 0)

/-- `byte >> 1`. -/
def shiftRight (byte : Option ℤ) : Option ℤ := some ((Int.bmod (byte.getD 0) (2 ^ 32)).shiftRight 1)

/-- `decodeWaku2`. -/
def decodeWaku2 (byte : Option ℤ) : Waku2 where
  relay := isOdd byte
  store := isOdd (shiftRight byte)
  filter := isOdd (shiftRight (shiftRight byte))
  lightPush := isOdd (shiftRight (shiftRight (shiftRight byte)))

/-- `decodeWaku2` reads what `encodeWaku2` writes. -/
theorem decodeWaku2_encodeWaku2 (protocols : Waku2) : decodeWaku2 (some (encodeWaku2 protocols : ℤ)) = protocols := by
  obtain ⟨relay, store, filter, lightPush⟩ := protocols
  cases relay <;> cases store <;> cases filter <;> cases lightPush <;> decide

/-! ## Getters -/

namespace ENR

variable (env : Env) (getters : Getters) (enr : ENR)

/-- `nodeId`. -/
def nodeId : Except JsError (Option String) := do
  let id ← enr.id env
  if id = "v4" then do
    match ← enr.publicKey env with
    | some publicKey => do
      let uncompressedPubkey ← getters.uncompressPoint publicKey
      return some (bytesToHex (env.keccak256 (sliceFrom uncompressedPubkey 1)))
    | none => return none
  else throw (.error ERR_INVALID_ID)

/-- `getStringValue`. -/
def getStringValue (key proto : String) : Except JsError (Option String) :=
  match enr.kvs.get key with
  | some raw => do
    let value ← getters.convertToString proto raw
    return some value
  | none => return none

/-- `ip`. -/
def ip : Except JsError (Option String) := enr.getStringValue getters "ip" "ip4"

/-- `multiaddrs`. -/
def multiaddrs : Except JsError (Option (List Multiaddr)) :=
  match enr.kvs.get "multiaddrs" with
  | some raw => do
    let multiaddrs ← decodeMultiaddrs getters raw
    return some multiaddrs
  | none => return none

/-- `waku2`. -/
def waku2 : Option Waku2 := (enr.kvs.get "waku2").map fun raw => decodeWaku2 (firstByte raw)

end ENR

end JsWaku.Enr
