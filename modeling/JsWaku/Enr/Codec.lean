import JsWaku.Enr.Record

/-!
# Encoding and decoding records

`EnrEncoder.toValues` and `toBytes` of `packages/enr/src/encoder.ts`, `EnrDecoder.fromRLP` of `decoder.ts`. A record is
written as the list of its signature, its sequence number in one byte, and its keys and values in the order of the keys;
the decoder collects keys and values in a plain object.
-/

namespace JsWaku.Enr

open Endian MessageHash

variable (env : Env)

/-! ## The encoder -/

/-- The keys of a record in order. -/
def sortedKeys (enr : ENR) : List String :=
  enr.kvs.keys.insertionSort fun a b => env.localeCompare a b ≤ 0

/-- What is signed: the sequence number, then keys and values in turn. -/
def content (enr : ENR) : List ENRValue :=
  .bytes [Number.toUint8 (Number.ofBigInt enr.seq)] :: (sortedKeys env enr).flatMap fun k =>
    match enr.kvs.get k with
    | some v => [.bytes (utf8ToBytes k), v]
    | none => []

/-- `EnrEncoder.toValues`, with the record, which keeps the signature. -/
def toValues (enr : ENR) (privateKey : Option Bytes) : Except JsError (List ENRValue × ENR) :=
  match privateKey with
  | some privateKey => do
    let (signature, enr') ← enr.sign env (env.rlpEncode (.list (content env enr))) privateKey
    return (.bytes signature :: content env enr, enr')
  | none =>
    match enr.signature with
    | some signature => return (.bytes signature :: content env enr, enr)
    | none => throw (.error ERR_NO_SIGNATURE)

/-- `EnrEncoder.toBytes`. -/
def toBytes (enr : ENR) (privateKey : Option Bytes) : Except JsError (Bytes × ENR) := do
  let (values, enr) ← toValues env enr privateKey
  let encoded := env.rlpEncode (.list values)
  if encoded.length ≥ MAX_RECORD_SIZE then throw (.error "ENR must be less than 300 bytes") else return (encoded, enr)

/-! ## The decoder -/

/-- `checkValues`. -/
def checkValues (values : List ENRValue) : Except JsError (Bytes × Bytes × List ENRValue) :=
  if values.length % 2 ≠ 0 then throw (.error "Decoded ENR must have an even number of elements")
  else
    match values with
    | .bytes signature :: .bytes seq :: kvs => return (signature, seq, kvs)
    | .bytes _ :: _ => throw (.error "Decoded ENR invalid sequence number: must be a byte array")
    | _ => throw (.error "Decoded ENR invalid signature: must be a byte array")

/-- Whether a value, as the prototype of an object, keeps a key from being assigned. -/
def valueIsReadOnly : ENRValue → String → Bool
  | .bytes bytes, key => isReadOnly env.isNumeric bytes key
  | .list _, _ => false

/-- The loop of `fromValues`, which skips the keys that are not byte arrays. -/
def collect (obj : PlainObject ENRValue) : List ENRValue → PlainObject ENRValue
  | key :: value :: kvs =>
    match valueToUtf8 env key with
    | .ok key => collect (obj.assign (valueIsReadOnly env) key value) kvs
    | .error _ => collect obj kvs
  | _ => obj

/-- `decodeSeq`. -/
def decodeSeq (seq : Bytes) : ℤ := if seq.isEmpty then 0 else beNat seq

/-- `checkSignature`. -/
def checkSignature (seq : Bytes) (kvs : List ENRValue) (enr : ENR) (signature : Bytes) : Except JsError Unit := do
  let valid ← enr.verify env (env.rlpEncode (.list (.bytes seq :: kvs))) signature
  if valid then return () else throw (.error "Unable to verify ENR signature")

/-- `fromValues`. -/
def fromValues (values : List ENRValue) : Except JsError ENR := do
  let (signature, seq, kvs) ← checkValues values
  let obj := collect env PlainObject.empty kvs
  let enr := ENR.create env obj (decodeSeq seq) (some signature)
  checkSignature env seq kvs enr signature
  return enr

/-- `EnrDecoder.fromRLP`. A string has no `map`. -/
def fromRLP (encoded : Bytes) : Except JsError ENR := do
  match ← env.rlpDecode encoded with
  | .list values => fromValues env values
  | .bytes _ => throw .typeError

/-! ## What is written -/

section

variable {env} {enr : ENR}

/-- The entries of a record in the order of the keys. -/
def sortedEntries (env : Env) (enr : ENR) : List (String × ENRValue) :=
  (sortedKeys env enr).filterMap fun key => (enr.kvs.get key).map (key, ·)

theorem perm_sortedEntries (env : Env) (enr : ENR) : (sortedEntries env enr).Perm enr.kvs.entries := by
  rw [← Map.filterMap_keys]
  exact (List.perm_insertionSort _ _).filterMap _

/-- The content, by entries. -/
theorem content_eq (env : Env) (enr : ENR) : content env enr =
    .bytes [Number.toUint8 (Number.ofBigInt enr.seq)] ::
      (sortedEntries env enr).flatMap fun entry => [.bytes (utf8ToBytes entry.1), entry.2] := by
  rw [content, sortedEntries]
  congr 1
  induction sortedKeys env enr with
  | nil => rfl
  | cons key keys ih =>
    rw [List.flatMap_cons, List.filterMap_cons, ih]
    cases enr.kvs.get key <;> rfl

/-- What `toValues` has done with a private key when it returns. -/
theorem toValues_spec {privateKey : Bytes} {values : List ENRValue} {enr' : ENR}
    (h : toValues env enr (some privateKey) = .ok (values, enr')) :
    ∃ signature, env.sign (env.keccak256 (env.rlpEncode (.list (content env enr)))) privateKey = .ok signature ∧
      values = .bytes signature :: content env enr ∧ enr' = { enr with signature := some signature } := by
  obtain ⟨⟨signature, enr₁⟩, hsign, h⟩ := bind_eq_ok.1 h
  cases h
  obtain ⟨id, -, hsign⟩ := bind_eq_ok.1 hsign
  split at hsign
  · obtain ⟨signature', hsign', hret⟩ := bind_eq_ok.1 hsign
    cases hret
    exact ⟨signature, hsign', rfl, rfl⟩
  · cases hsign

/-- What `toBytes` has done when it returns. -/
theorem toBytes_spec {privateKey encoded : Bytes} {enr' : ENR}
    (h : toBytes env enr (some privateKey) = .ok (encoded, enr')) :
    ∃ signature, env.sign (env.keccak256 (env.rlpEncode (.list (content env enr)))) privateKey = .ok signature ∧
      encoded = env.rlpEncode (.list (.bytes signature :: content env enr)) ∧ encoded.length < MAX_RECORD_SIZE ∧
      enr' = { enr with signature := some signature } := by
  obtain ⟨⟨values, enr₁⟩, hvalues, h⟩ := bind_eq_ok.1 h
  obtain ⟨signature, hsign, rfl, rfl⟩ := toValues_spec hvalues
  simp only at h
  split at h
  · cases h
  · rename_i hsize
    cases h
    exact ⟨signature, hsign, rfl, not_le.1 hsize, rfl⟩

/-! ## What is read -/

/-- Keys that were written are assigned in turn. -/
theorem collect_flatMap (hutf8 : ∀ s, env.bytesToUtf8 (utf8ToBytes s) = s) (l : List (String × ENRValue))
    (obj : PlainObject ENRValue) :
    collect env obj (l.flatMap fun entry => [.bytes (utf8ToBytes entry.1), entry.2]) =
      l.foldl (fun obj entry => obj.assign (valueIsReadOnly env) entry.1 entry.2) obj := by
  induction l generalizing obj with
  | nil => rfl
  | cons entry l ih =>
    rw [List.flatMap_cons, List.cons_append, List.cons_append, List.nil_append, collect]
    simp only [valueToUtf8, hutf8]
    exact ih _

/-- No record that is read has the key `__proto__`. -/
theorem proto_not_collected : ∀ (kvs : List ENRValue) (obj : PlainObject ENRValue),
    obj.own.get "__proto__" = none → (collect env obj kvs).own.get "__proto__" = none
  | [], _, h => h
  | [_], _, h => h
  | key :: value :: kvs, obj, h => by
    rw [collect]
    split
    · exact proto_not_collected kvs _ (PlainObject.proto_not_own _ value h)
    · exact proto_not_collected kvs obj h

theorem checkValues_ok {signature seq : Bytes} {kvs : List ENRValue} (h : kvs.length % 2 = 0) :
    checkValues (.bytes signature :: .bytes seq :: kvs) = .ok (signature, seq, kvs) := by
  have hlength : (Rlp.Item.bytes signature :: .bytes seq :: kvs).length % 2 = 0 := by
    rw [List.length_cons, List.length_cons]
    omega
  rw [checkValues, if_neg (by rw [hlength]; simp)]
  rfl

/-- A record that is read is what was collected. -/
theorem fromValues_ok {signature seq : Bytes} {kvs : List ENRValue} {enr : ENR} (hlen : kvs.length % 2 = 0)
    (h : fromValues env (.bytes signature :: .bytes seq :: kvs) = .ok enr) :
    enr = ENR.create env (collect env PlainObject.empty kvs) (decodeSeq seq) (some signature) := by
  rw [fromValues, checkValues_ok hlen, ok_bind] at h
  obtain ⟨-, -, h⟩ := bind_eq_ok.1 h
  cases h
  rfl

/-- A record with a public key that verifies the signature is read. -/
theorem fromValues_of_verify {signature seq sig publicKey : Bytes} {id : ENRValue} {kvs : List ENRValue}
    (hlen : kvs.length % 2 = 0) (hid : (collect env PlainObject.empty kvs).own.get "id" = some id)
    (hv4 : valueToUtf8 env id = .ok "v4")
    (hkey : (collect env PlainObject.empty kvs).own.get "secp256k1" = some (.bytes publicKey))
    (hsignature : signature.length = 64) (hsig : env.fromCompact signature = .ok sig)
    (hverify : env.verify sig (env.keccak256 (env.rlpEncode (.list (.bytes seq :: kvs)))) publicKey = .ok true) :
    fromValues env (.bytes signature :: .bytes seq :: kvs) =
      .ok (ENR.create env (collect env PlainObject.empty kvs) (decodeSeq seq) (some signature)) := by
  set enr := ENR.create env (collect env PlainObject.empty kvs) (decodeSeq seq) (some signature) with henr
  have hget : ∀ key, enr.kvs.get key = (collect env PlainObject.empty kvs).own.get key := RawEnr.get_new _ _ _
  have hidv4 : enr.id env = .ok "v4" := by
    rw [RawEnr.id, hget, hid]
    exact hv4
  have hpublicKey : enr.publicKey env = .ok (some (.bytes publicKey)) := by
    rw [RawEnr.publicKey, hidv4, ok_bind, if_pos rfl, hget, hkey]
    rfl
  have hslice : slice signature 0 64 = signature := by
    simpa [hsignature] using slice_append_left signature [] 64 hsignature.symm
  have hvalid : enr.verify env (env.rlpEncode (.list (.bytes seq :: kvs))) signature = .ok true := by
    rw [ENR.verify, hget, hid]
    simp only [hidv4, ok_bind, if_true, hpublicKey]
    simp [verifySignature, hslice, hsig, hverify, Except.bind, Except.toOption, pure, Except.pure]
  rw [fromValues, checkValues_ok hlen, ok_bind]
  simp only [← henr]
  rw [checkSignature, hvalid]
  rfl

end

end JsWaku.Enr
