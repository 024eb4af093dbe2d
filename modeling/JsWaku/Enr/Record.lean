import JsWaku.Lib.Rlp
import JsWaku.MessageHash
import JsWaku.Runtime.Libp2p
import JsWaku.Runtime.Number
import JsWaku.Runtime.Object

/-!
# Node records

`RawEnr` of `packages/enr/src/raw_enr.ts` and `ENR` of `enr.ts`, with `crypto.ts`, `v4.ts` and `peer_id.ts`, as far as
records are made, signed and verified. What the package imports is given by an `Env`; what it relies on is `Env.Lawful`.
A value is a byte array; what the decoder makes of a nested list is an array instead.
-/

namespace JsWaku.Enr

open Rlp MessageHash

/-! ## Imports -/

/-- The functions of other packages. -/
structure Env where
  /-- `hexToBytes(RLP.encode(data))` -/
  rlpEncode : Item → Bytes
  /-- `RLP.decode(bytes)`; a string stands for the bytes that `hexToBytes` makes of it -/
  rlpDecode : Bytes → Except JsError Item
  /-- `toString(bytes, "utf8")`, which replaces what is not UTF-8 -/
  bytesToUtf8 : Bytes → String
  localeCompare : String → String → ℤ
  /-- whether a string is how a number is printed -/
  isNumeric : String → Bool
  /-- `sha3.keccak256` -/
  keccak256 : Bytes → Bytes
  /-- `secp.sign(message, privateKey, { der: false })` -/
  sign : Bytes → Bytes → Except JsError Bytes
  /-- `secp.Signature.fromCompact`; the signature object is given by its compact form -/
  fromCompact : Bytes → Except JsError Bytes
  /-- `secp.verify(signature, message, publicKey)` -/
  verify : Bytes → Bytes → Bytes → Except JsError Bool
  /-- `secp.getPublicKey(privateKey, true)`: the compressed key -/
  getPublicKey : Bytes → Except JsError Bytes
  /-- `publicKeyFromRaw`: the type of a key, and the peer id that `peerIdFromPublicKey` makes of it -/
  publicKeyFromRaw : Bytes → Except JsError (String × PeerId)

/-- `MAX_RECORD_SIZE`. -/
def MAX_RECORD_SIZE : ℕ := 300

/-- `ERR_INVALID_ID`. -/
def ERR_INVALID_ID : String := "Invalid record id"

/-- `ERR_NO_SIGNATURE`. -/
def ERR_NO_SIGNATURE : String := "No valid signature found"

/-- `ERR_TYPE_NOT_IMPLEMENTED`. -/
def ERR_TYPE_NOT_IMPLEMENTED : String := "Keypair type not implemented"

/-- What the package relies on. -/
structure Env.Lawful (env : Env) : Prop where
  /-- RLP decoding inverts encoding on the byte strings of a record. -/
  rlp : ∀ values : List Bytes, (env.rlpEncode (.list (values.map .bytes))).length < MAX_RECORD_SIZE →
    env.rlpDecode (env.rlpEncode (.list (values.map .bytes))) = .ok (.list (values.map .bytes))
  /-- UTF-8 decoding inverts encoding. -/
  utf8 : ∀ s, env.bytesToUtf8 (utf8ToBytes s) = s
  /-- A signature has 64 bytes and verifies under the public key. -/
  verify : ∀ {message privateKey signature publicKey}, env.sign message privateKey = .ok signature →
    env.getPublicKey privateKey = .ok publicKey → signature.length = 64 ∧
      ∃ sig, env.fromCompact signature = .ok sig ∧ env.verify sig message publicKey = .ok true

/-! ## Records -/

/-- `ENRValue`. -/
abbrev ENRValue := Item

/-- `RawEnr`: a map with a sequence number and a signature. -/
structure RawEnr where
  kvs : Map String ENRValue
  seq : ℤ
  signature : Option Bytes

/-- `ENR`. -/
structure ENR extends RawEnr where
  peerId : Option PeerId

variable (env : Env)

/-- `bytesToUtf8` of a value, which throws on an array. -/
def valueToUtf8 : ENRValue → Except JsError String
  | .bytes bytes => .ok (env.bytesToUtf8 bytes)
  | .list _ => .error .typeError

namespace RawEnr

/-- `set`. -/
def set (enr : RawEnr) (k : String) (v : ENRValue) : RawEnr :=
  { kvs := enr.kvs.set k v, seq := enr.seq + 1, signature := none }

/-- The constructor. `super(Object.entries(kvs))` sets the entries through `set`, which increments a number that is not
there yet; it is assigned afterwards. -/
def new (kvs : PlainObject ENRValue) (seq : ℤ) (signature : Option Bytes) : RawEnr :=
  let enr : RawEnr := kvs.entries.foldl (fun enr entry => enr.set entry.1 entry.2) ⟨Map.empty, 0, none⟩
  { enr with seq, signature }

/-- `id`. -/
def id (enr : RawEnr) : Except JsError String :=
  match enr.kvs.get "id" with
  | none => .error (.error "id not found.")
  | some id => valueToUtf8 env id

/-- `publicKey`. -/
def publicKey (enr : RawEnr) : Except JsError (Option ENRValue) := do
  let id ← enr.id env
  if id = "v4" then return enr.kvs.get "secp256k1" else throw (.error ERR_INVALID_ID)

end RawEnr

/-- `createPeerIdFromPublicKey`. -/
def createPeerIdFromPublicKey : ENRValue → Except JsError PeerId
  | .bytes publicKey => do
    let (type, peerId) ← env.publicKeyFromRaw publicKey
    if type = "secp256k1" then return peerId else throw (.error ERR_TYPE_NOT_IMPLEMENTED)
  | .list _ => .error .typeError

/-- `verifySignature`, where everything thrown is a failure. -/
def verifySignature (signature message : Bytes) (publicKey : ENRValue) : Bool :=
  match publicKey with
  | .bytes publicKey =>
    ((env.fromCompact (slice signature 0 64)).bind fun sig => env.verify sig message publicKey).toOption.getD false
  | .list _ => false

namespace ENR

/-- The peer id of the public key, if there is one. -/
def peerIdOf (enr : RawEnr) : Except JsError (Option PeerId) := do
  match ← enr.publicKey env with
  | some publicKey => do
    let peerId ← createPeerIdFromPublicKey env publicKey
    return some peerId
  | none => return none

/-- `create`, which only logs what is thrown for the peer id. -/
def create (kvs : PlainObject ENRValue) (seq : ℤ) (signature : Option Bytes) : ENR :=
  let enr := RawEnr.new kvs seq signature
  { enr with peerId := (peerIdOf env enr).toOption.join }

/-- `verify`. -/
def verify (enr : ENR) (data signature : Bytes) : Except JsError Bool :=
  match enr.kvs.get "id" with
  | none => .error (.error ERR_INVALID_ID)
  | some _ => do
    let id ← enr.id env
    if id = "v4" then do
      match ← enr.publicKey env with
      | some publicKey => return verifySignature env signature (env.keccak256 data) publicKey
      | none => throw (.error "Failed to verify ENR: No public key")
    else throw (.error ERR_INVALID_ID)

/-- `sign`, which keeps the signature. -/
def sign (enr : ENR) (data privateKey : Bytes) : Except JsError (Bytes × ENR) := do
  let id ← enr.id env
  if id = "v4" then do
    let signature ← env.sign (env.keccak256 data) privateKey
    return (signature, { enr with signature := some signature })
  else throw (.error ERR_INVALID_ID)

end ENR

/-! ## What was set is found -/

variable {env}

theorem RawEnr.kvs_foldl_set (l : List (String × ENRValue)) (enr : RawEnr) :
    (l.foldl (fun enr entry => set enr entry.1 entry.2) enr).kvs =
      l.foldl (fun kvs entry => kvs.set entry.1 entry.2) enr.kvs := by
  induction l generalizing enr with
  | nil => rfl
  | cons entry l ih => exact ih (enr.set entry.1 entry.2)

/-- The entries of a new record are the properties of the object. -/
theorem RawEnr.perm_entries_new (kvs : PlainObject ENRValue) (seq : ℤ) (signature : Option Bytes) :
    (RawEnr.new kvs seq signature).kvs.entries.Perm kvs.own.entries := by
  have hnodup : (kvs.entries.map Prod.fst).Nodup := (kvs.perm_entries.map Prod.fst).nodup_iff.2 kvs.own.nodup
  rw [RawEnr.new]
  simp only [RawEnr.kvs_foldl_set]
  rw [Map.entries_foldl_set _ _ (by simpa [Map.keys, Map.empty] using hnodup)]
  exact kvs.perm_entries

theorem RawEnr.get_new (kvs : PlainObject ENRValue) (seq : ℤ) (signature : Option Bytes) (key : String) :
    (RawEnr.new kvs seq signature).kvs.get key = kvs.own.get key :=
  Map.get_eq_of_perm (perm_entries_new kvs seq signature) key

end JsWaku.Enr
