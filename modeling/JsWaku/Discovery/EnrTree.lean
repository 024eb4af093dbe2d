import JsWaku.Enr.RoundTrip
import JsWaku.Runtime.Text

/-!
# Entries of a DNS tree

`ENRTree` of `packages/discovery/src/dns/enrtree.ts`, and `EnrDecoder.fromString`. A root entry is five words; its
signature is over the first four.
-/

namespace JsWaku.Discovery

open Endian MessageHash Text

/-- `ENR.RECORD_PREFIX`. -/
def RECORD_PREFIX : String := "enr:"

/-- `ENRTree.BRANCH_PREFIX`. -/
def BRANCH_PREFIX : String := "enrtree-branch:"

/-- `ENRTree.ROOT_PREFIX`. -/
def ROOT_PREFIX : String := "enrtree-root:"

/-- `ENRTree.TREE_PREFIX`. -/
def TREE_PREFIX : String := "enrtree:"

/-! ## Trees -/

/-- `ENRTreeValues`. -/
structure ENRTreeValues where
  publicKey : String
  domain : String
  deriving DecidableEq

/-- The characters that `.` does not match in a regular expression. -/
def isLineTerminator (c : Char) : Bool := [10, 13, 8232, 8233].contains c.toNat

/-- `tree.match(/^enrtree:\/\/([^@]+)@(.+)$/)`. -/
def matchTree (tree : String) : Option ENRTreeValues :=
  if startsWith tree "enrtree://" then
    let rest := tree.toList.drop "enrtree://".toList.length
    match rest.takeWhile (· ≠ '@'), rest.dropWhile (· ≠ '@') with
    | c :: publicKey, _ :: c' :: domain =>
      if (c' :: domain).any isLineTerminator then none
      else some { publicKey := String.ofList (c :: publicKey), domain := String.ofList (c' :: domain) }
    | _, _ => none
  else none

/-- `parseTree`. The groups of a match are not empty, so that the checks that follow it never fail. -/
def parseTree (tree : String) : Except JsError ENRTreeValues :=
  if startsWith tree TREE_PREFIX then
    match matchTree tree with
    | some values => return values
    | none => throw (.error "Could not parse ENRTree tree entry")
  else throw (.error "ENRTree tree entry must start with 'enrtree:'")

/-! ## Root entries -/

/-- `ENRRootValues`. The sequence number is kept as its digits, which nothing reads. -/
structure ENRRootValues where
  eRoot : String
  lRoot : String
  seq : String
  signature : String
  deriving DecidableEq

/-- What follows `name=` in a word, if it is not empty. -/
def field (name : String) (word : String) : Option String :=
  if startsWith word name ∧ word ≠ name then some (Text.sliceFrom word name.toList.length) else none

/-- `txt.match(/^enrtree-root:v1 e=([^ ]+) l=([^ ]+) seq=(\d+) sig=([^ ]+)$/)`. -/
def matchRoot (txt : String) : Option ENRRootValues :=
  match split ' ' txt with
  | [version, e, l, seq, sig] => do
    guard (version = "enrtree-root:v1")
    let eRoot ← field "e=" e
    let lRoot ← field "l=" l
    let seq ← field "seq=" seq
    guard (seq.toList.all Char.isDigit)
    let signature ← field "sig=" sig
    return { eRoot, lRoot, seq, signature }
  | _ => none

/-- `parseRootValues`. The groups of a match are not empty, so that the checks that follow it never fail. -/
def parseRootValues (txt : String) : Except JsError ENRRootValues :=
  match matchRoot txt with
  | some values => return values
  | none => throw (.error "Could not parse ENRTree root entry")

/-- `parseAndVerifyRoot`, for some check of the signature, of the entry and under the key. -/
def parseAndVerifyRoot (verifyRoot : String → String → String → Except JsError Bool) (root publicKey : String) :
    Except JsError String := do
  if !startsWith root ROOT_PREFIX then throw (.error "ENRTree root entry must start with 'enrtree-root:'")
  let rootValues ← parseRootValues root
  let isVerified ← verifyRoot rootValues.signature root publicKey
  if isVerified then return rootValues.eRoot else throw (.error "Unable to verify ENRTree root signature")

/-! ## Branch entries -/

/-- `parseBranch`. -/
def parseBranch (branch : String) : Except JsError (List String) :=
  if startsWith branch BRANCH_PREFIX then return split ',' (splitSecond BRANCH_PREFIX branch)
  else throw (.error "ENRTree branch entry must start with 'enrtree-branch:'")

/-! ## What is imported -/

/-- The functions of other packages. -/
structure Env where
  enr : Enr.Env
  /-- `base32.decode.asBytes` -/
  base32 : String → Except JsError Bytes
  /-- `fromString(text, "base64url")` -/
  base64url : String → Except JsError Bytes

variable (env : Env)

/-- The check of `parseAndVerifyRoot`. -/
def verifyRoot (signature root publicKey : String) : Except JsError Bool := do
  let decodedPublicKey ← env.base32 publicKey
  let signedComponentBuffer := utf8ToBytes (splitHead " sig" root)
  let signatureBuffer ← env.base64url signature
  return Enr.verifySignature env.enr (slice signatureBuffer 0 64) (env.enr.keccak256 signedComponentBuffer)
    (.bytes decodedPublicKey)

/-- `EnrDecoder.fromString`: what it throws, or what its promise comes to. -/
def fromString (encoded : String) : Except JsError (Except JsError Enr.ENR) := do
  if !startsWith encoded RECORD_PREFIX then
    throw (.error "\"string encoded ENR must start with 'enr:'")
  let bytes ← env.base64url (Text.sliceFrom encoded 4)
  match ← env.enr.rlpDecode bytes with
  | .list values => return Enr.fromValues env.enr values
  | .bytes _ => throw .typeError

variable {env} in
/-- The text of a record after the prefix is decoded. -/
theorem fromString_append (text : String) : fromString env (RECORD_PREFIX ++ text) =
    (do
      let bytes ← env.base64url text
      match ← env.enr.rlpDecode bytes with
      | .list values => return Enr.fromValues env.enr values
      | .bytes _ => throw .typeError) := by
  have htext : Text.sliceFrom (RECORD_PREFIX ++ text) 4 = text := by
    rw [Text.sliceFrom, String.toList_append]
    exact String.ofList_toList
  rw [fromString, startsWith_append, htext]
  rfl

/-! ## A tree -/

/-- The public key of a tree. -/
def samplePublicKey : String := "AKA3AM6LPBYEUDMVNU3BSVQJ5AD45Y7YPOHJLEF6W26QOE4VTUDPE"

/-- The signed part of its root entry. -/
def sampleSigned : String := "enrtree-root:v1 e=JORXBYVVM7AEKETX5DGXW44EAY l=FDXN3SN67NA5DKA4J2GOK7BVQI seq=1839"

/-- The signature of its root entry. -/
def sampleSignature : String :=
  "Ma7yIqW2gj59dY8F6plfL7dfotaBPz285mu_XZK1e5VRzNrnf0pCAfacu4fBLuE7jMX-nDbqCM1sFiWWLq8WogE"

/-- The public key as bytes. -/
def sampleKeyBytes : Bytes := toBE 33 0x0281b033cb78704a0d956d36195609e807cee3f87b8e9590beb6bd0713959d06f2

/-- The signature as bytes, without its recovery bit. -/
def sampleSignatureBytes : Bytes :=
  toBE 32 0x31aef222a5b6823e7d758f05ea995f2fb75fa2d6813f3dbce66bbf5d92b57b95 ++
    toBE 32 0x51ccdae77f4a4201f69cbb87c12ee13b8cc5fe9c36ea08cd6c1625962eaf16a2

/-- The hash of the signed part. -/
def sampleHash : Bytes := toBE 32 0x6c1b8651d1d775ec7a29daa5ceb47d8e37ef3d8adcf6651566dac6e176200812

/-- Its root entry. -/
def sampleRoot : String := sampleSigned ++ " sig=" ++ sampleSignature

/-- The name that the root entry leads to. -/
def sampleName : String := "JORXBYVVM7AEKETX5DGXW44EAY"

/-- A record: its text, its sequence number, keys and values, with the hash of their encoding, and its signature. -/
structure SampleRecord where
  text : String
  values : List Bytes
  hash : Bytes
  signature : Bytes
  publicKey : Bytes
  peerId : PeerId

/-- The record of a node with relay. -/
def sampleRelay : SampleRecord where
  text := "-KO4QANhx2beNpDw8LfX8hdyoNocMD5WCBY28EjKA50DyJv9QDxE5IWafE_O_nhbA31gmasx3WjpH517do3GqmzQvmaAgmlkgnY0" ++
    "gmlwhMCosvuKbXVsdGlhZGRyc4wACgTAqLL7Bh9C3QOJc2VjcDI1NmsxoQOmp7OJvC-UX4KeIJDW1CQQvhSA33OWgRrKccOcTG7dYYN0" ++
    "Y3CCH0KFd2FrdTIB"
  values := [[], utf8ToBytes "id", utf8ToBytes "v4", utf8ToBytes "ip", [192, 168, 178, 251], utf8ToBytes "multiaddrs",
    [0, 10, 4, 192, 168, 178, 251, 6, 31, 66, 221, 3], utf8ToBytes "secp256k1",
    toBE 33 0x03a6a7b389bc2f945f829e2090d6d42410be1480df7396811aca71c39c4c6edd61, utf8ToBytes "tcp", [31, 66],
    utf8ToBytes "waku2", [1]]
  hash := toBE 32 0x4d30cd7ede14ff9d09f29dcd666ffcb74493f52afe4b31047fc57dd48d61bbd0
  signature := toBE 32 0x0361c766de3690f0f0b7d7f21772a0da1c303e56081636f048ca039d03c89bfd ++
    toBE 32 0x403c44e4859a7c4fcefe785b037d6099ab31dd68e91f9d7b768dc6aa6cd0be66
  publicKey := toBE 33 0x03a6a7b389bc2f945f829e2090d6d42410be1480df7396811aca71c39c4c6edd61
  peerId := "16Uiu2HAmPsYLvfKafxgRsb6tioYyGnSvGXS2iuMigptHrqHPNPzx"

/-- The record of a node with store. -/
def sampleStore : SampleRecord where
  text := "-Iu4QMTV1vSz_hVXxnEL-Kyz-OmaXhlXYfbtfcT58oR1xfIZc8Zx-03VijJs6p-BY_hMWEhmmSa58xm-Uj8xc2utdSgBgmlkgnY0" ++
    "gmlwhAAAAACJc2VjcDI1NmsxoQIJIvZxmUAqxvruSndgZqyiVBHXo3D52SnKRa4tj6vejoN0Y3CC6mCFd2FrdTIC"
  values := [[1], utf8ToBytes "id", utf8ToBytes "v4", utf8ToBytes "ip", [0, 0, 0, 0], utf8ToBytes "secp256k1",
    toBE 33 0x020922f67199402ac6faee4a776066aca25411d7a370f9d929ca45ae2d8fabde8e, utf8ToBytes "tcp", [234, 96],
    utf8ToBytes "waku2", [2]]
  hash := toBE 32 0x1838c32195ce6f750e28865f53d2cb8a34c1300e131c4561c89750f488a17630
  signature := toBE 32 0xc4d5d6f4b3fe1557c6710bf8acb3f8e99a5e195761f6ed7dc4f9f28475c5f219 ++
    toBE 32 0x73c671fb4dd58a326cea9f8163f84c5848669926b9f319be523f31736bad7528
  publicKey := toBE 33 0x020922f67199402ac6faee4a776066aca25411d7a370f9d929ca45ae2d8fabde8e
  peerId := "16Uiu2HAkv3La3ECgQpdYeEJfrX36EWdhkUDv4C9wvXM8TFZ9dNgd"

/-- The two records. -/
def sampleRecords : List SampleRecord := [sampleRelay, sampleStore]

/-- The functions of other packages, on the root entry and the records. -/
def sampleEnv : Env where
  enr :=
    { Enr.sampleEnv with
      keccak256 := fun data =>
        if data = utf8ToBytes sampleSigned then sampleHash
        else ((sampleRecords.find? fun r => Rlp.encode (.list (r.values.map .bytes)) = data).map (·.hash)).getD []
      verify := fun signature message publicKey =>
        .ok ((sampleSignatureBytes, sampleHash, sampleKeyBytes) = (signature, message, publicKey) ∨
          sampleRecords.any fun r => (r.signature, r.hash, r.publicKey) = (signature, message, publicKey))
      publicKeyFromRaw := fun publicKey =>
        match sampleRecords.find? fun r => r.publicKey = publicKey with
        | some r => .ok ("secp256k1", r.peerId)
        | none => .error .typeError }
  base32 text :=
    if text = samplePublicKey then .ok sampleKeyBytes else .error (.error "Invalid base32 characters")
  base64url text :=
    if text = sampleSignature then .ok (sampleSignatureBytes ++ [1])
    else
      match sampleRecords.find? fun r => r.text = text with
      | some r => .ok (Rlp.encode (.list ((r.signature :: r.values).map .bytes)))
      | none => .error (.error "Non-base64url character")

theorem toList_sampleRoot :
    sampleRoot.toList = sampleSigned.toList ++ " sig=".toList ++ sampleSignature.toList := by
  rw [sampleRoot, String.toList_append, String.toList_append]

theorem startsWith_sampleRoot : startsWith sampleRoot ROOT_PREFIX = true := by
  rw [startsWith, toList_sampleRoot]
  decide +kernel

/-- The root entry is verified. -/
theorem parseAndVerifyRoot_sampleRoot :
    parseAndVerifyRoot (verifyRoot sampleEnv) sampleRoot samplePublicKey = .ok sampleName := by
  have hwords : split ' ' sampleRoot = ["enrtree-root:v1", "e=JORXBYVVM7AEKETX5DGXW44EAY",
      "l=FDXN3SN67NA5DKA4J2GOK7BVQI", "seq=1839", "sig=" ++ sampleSignature] := by
    rw [split, toList_sampleRoot]
    decide +kernel
  have hmatch : matchRoot sampleRoot =
      some ⟨sampleName, "FDXN3SN67NA5DKA4J2GOK7BVQI", "1839", sampleSignature⟩ := by
    rw [matchRoot, hwords]
    decide +kernel
  have hsigned : splitHead " sig" sampleRoot = sampleSigned := by
    rw [splitHead, toList_sampleRoot]
    decide +kernel
  have hverified : verifyRoot sampleEnv sampleSignature sampleRoot samplePublicKey = .ok true := by
    rw [verifyRoot, hsigned]
    rfl
  rw [parseAndVerifyRoot, startsWith_sampleRoot, parseRootValues, hmatch]
  simp only [Bool.not_true, pure_bind, hverified]
  rfl

/-- What a record is decoded to. -/
def SampleRecord.enr (r : SampleRecord) : Except JsError Enr.ENR :=
  Enr.fromValues sampleEnv.enr ((r.signature :: r.values).map .bytes)

/-- The text of a record is the encoding of its values. -/
theorem base64url_sample {r : SampleRecord} (hr : r ∈ sampleRecords) :
    sampleEnv.base64url r.text = .ok (Rlp.encode (.list ((r.signature :: r.values).map .bytes))) := by
  rcases List.mem_cons.1 hr with rfl | hr
  · have hne : sampleRelay.text ≠ sampleSignature := by decide +kernel
    simp only [sampleEnv, if_neg hne, sampleRecords, List.find?_cons, decide_true]
  · obtain rfl := List.mem_singleton.1 hr
    have hne : sampleStore.text ≠ sampleSignature := by decide +kernel
    have hother : sampleRelay.text ≠ sampleStore.text := by decide +kernel
    simp only [sampleEnv, if_neg hne, sampleRecords, List.find?_cons, decide_true, decide_eq_false hother]

/-- The encoding is decoded to the values. -/
theorem rlpDecode_sample {r : SampleRecord} (hr : r ∈ sampleRecords) :
    sampleEnv.enr.rlpDecode (Rlp.encode (.list ((r.signature :: r.values).map .bytes))) =
      .ok (.list ((r.signature :: r.values).map .bytes)) := by
  have hlength : ∀ r ∈ sampleRecords, (Rlp.encode (.list ((r.signature :: r.values).map .bytes))).length < 2 ^ 64 := by
    decide +kernel
  simp only [sampleEnv, Enr.sampleEnv, Rlp.decode_encode _ (hlength r hr)]

/-- The records are decoded. -/
theorem fromString_sample {r : SampleRecord} (hr : r ∈ sampleRecords) :
    fromString sampleEnv (RECORD_PREFIX ++ r.text) = .ok r.enr := by
  rw [fromString_append, base64url_sample hr, ok_bind, rlpDecode_sample hr]
  rfl

end JsWaku.Discovery
