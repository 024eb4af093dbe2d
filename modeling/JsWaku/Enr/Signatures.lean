import JsWaku.Enr.RoundTrip
import JsWaku.Enr.Setters
import JsWaku.Lib.Transition

/-!
# The signature that a record keeps

`set` drops the signature and increments the sequence number; the `delete` of `Map`, which the setters use for
`undefined`, does neither. A key that is deleted from a signed record leaves it with the signature of what it was
(`signature_stale`). Where no key of a record is deleted while it is signed, its signature is one of its content
(`signature_valid`).
-/

namespace JsWaku.Enr

open Endian MessageHash Transition

/-- The keys that make a record one of its key pair. -/
def identityKeys : List String := ["id", "secp256k1"]

/-- An operation on a record. -/
inductive Operation
  | set (k : String) (v : ENRValue)
  | delete (k : String)
  | ip (value : Option String)
  | tcp (value : Option String)
  | udp (value : Option String)
  | ip6 (value : Option String)
  | tcp6 (value : Option String)
  | udp6 (value : Option String)
  | multiaddrs (value : Option (List Multiaddr))
  | waku2 (value : Option Waku2)
  /-- `EnrEncoder.toBytes` with the private key -/
  | toBytes

/-- The record after the operation; what throws leaves it alone, but for `toBytes`, which keeps the signature when the
record is too long. `toBytes` awaits `sign`; operations follow one another, so that none comes in between. -/
def apply (env : SetterEnv) (privateKey : Bytes) (enr : ENR) : Operation → ENR
  | .set k v => enr.set k v
  | .delete k => enr.delete k
  | .ip value => (enr.setIp env value).toOption.getD enr
  | .tcp value => (enr.setTcp env value).toOption.getD enr
  | .udp value => (enr.setUdp env value).toOption.getD enr
  | .ip6 value => (enr.setIp6 env value).toOption.getD enr
  | .tcp6 value => (enr.setTcp6 env value).toOption.getD enr
  | .udp6 value => (enr.setUdp6 env value).toOption.getD enr
  | .multiaddrs value => (enr.setMultiaddrs value).toOption.getD enr
  | .waku2 value => (enr.setWaku2 value).toOption.getD enr
  | .toBytes => ((toValues env.toEnv enr (some privateKey)).toOption.map Prod.snd).getD enr

/-- The key that an operation sets or deletes. -/
def Operation.key : Operation → Option String
  | set k _ | delete k => some k
  | ip _ => some "ip"
  | tcp _ => some "tcp"
  | udp _ => some "udp"
  | ip6 _ => some "ip6"
  | tcp6 _ => some "tcp6"
  | udp6 _ => some "udp6"
  | multiaddrs _ => some "multiaddrs"
  | waku2 _ => some "waku2"
  | toBytes => none

/-- Whether an operation deletes its key. -/
def Operation.isDelete : Operation → Bool
  | set _ _ | toBytes => false
  | delete _ => true
  | ip value | tcp value | udp value | ip6 value | tcp6 value | udp6 value => value.isNone
  | multiaddrs value => value.isNone
  | waku2 value => value.isNone

/-- One step, on keys other than those of the identity. -/
def step (env : SetterEnv) (privateKey : Bytes) (enr : ENR) (op : Operation) : Option ENR :=
  if op.key.any identityKeys.contains then none else some (apply env privateKey enr op)

/-- No key of the record is deleted while it is signed. -/
def DeletesUnsigned (enr : ENR) (op : Operation) : Prop :=
  op.isDelete = true → enr.signature = none ∨ ∀ k ∈ op.key, enr.kvs.has k = false

instance (enr : ENR) (op : Operation) : Decidable (DeletesUnsigned enr op) :=
  inferInstanceAs (Decidable (op.isDelete = true → _ ∨ ∀ k ∈ op.key, _))

/-- The record of a public key, with a signature of its content if it has one. -/
structure Signed (env : Env) (publicKey : Bytes) (enr : ENR) : Prop where
  id : enr.kvs.get "id" = some (.bytes (utf8ToBytes "v4"))
  key : enr.kvs.get "secp256k1" = some (.bytes publicKey)
  valid : ∀ signature, enr.signature = some signature →
    verifySignature env signature (env.keccak256 (env.rlpEncode (.list (content env enr)))) (.bytes publicKey) = true

section

variable {env : SetterEnv} {privateKey publicKey : Bytes} {enr enr' : ENR}

/-- What an operation with a key does: it sets the key, deletes it, or throws. -/
theorem apply_cases (env : SetterEnv) (privateKey : Bytes) (enr : ENR) {op : Operation} {k : String}
    (hkey : op.key = some k) :
    (op.isDelete = false ∧ ∃ v, apply env privateKey enr op = enr.set k v) ∨
      (op.isDelete = true ∧ apply env privateKey enr op = enr.delete k) ∨ apply env privateKey enr op = enr := by
  have hundefined : ∀ {ν : Type} (key : String) (value : Option ν) (transform : ν → Except JsError Bytes),
      (value.isNone = false ∧ ∃ v, (enr.deleteUndefined key value transform).toOption.getD enr = enr.set key v) ∨
        (value.isNone = true ∧ (enr.deleteUndefined key value transform).toOption.getD enr = enr.delete key) ∨
        (enr.deleteUndefined key value transform).toOption.getD enr = enr := by
    intro ν key value transform
    cases value with
    | none => exact Or.inr (Or.inl ⟨rfl, rfl⟩)
    | some value =>
      cases htransform : transform value with
      | error e =>
        refine Or.inr (Or.inr ?_)
        rw [ENR.deleteUndefined, htransform]
        rfl
      | ok bytes =>
        refine Or.inl ⟨rfl, .bytes bytes, ?_⟩
        rw [ENR.deleteUndefined, htransform]
        rfl
  cases op with
  | set k' v =>
    cases hkey
    exact Or.inl ⟨rfl, v, rfl⟩
  | delete k' =>
    cases hkey
    exact Or.inr (Or.inl ⟨rfl, rfl⟩)
  | toBytes => cases hkey
  | ip value | tcp value | udp value | ip6 value | tcp6 value | udp6 value | multiaddrs value | waku2 value =>
    cases hkey
    exact hundefined _ value _

/-- A signature with the private key verifies under the public key. -/
theorem verifySignature_of_sign {env : Env} (henv : env.Lawful) {message signature : Bytes}
    (hpublic : env.getPublicKey privateKey = .ok publicKey) (hsign : env.sign message privateKey = .ok signature) :
    verifySignature env signature message (.bytes publicKey) = true := by
  obtain ⟨hlength, sig, hsig, hverify⟩ := henv.verify hsign hpublic
  have hslice : slice signature 0 64 = signature := by
    simpa [hlength] using slice_append_left signature [] 64 hlength.symm
  simp [verifySignature, hslice, hsig, hverify, Except.bind, Except.toOption]

theorem ne_of_not_mem_identityKeys {k : String} (hk : k ∉ identityKeys) : "id" ≠ k ∧ "secp256k1" ≠ k := by
  constructor
  · rintro rfl
    exact hk List.mem_cons_self
  · rintro rfl
    exact hk (List.mem_cons_of_mem _ List.mem_cons_self)

namespace Signed

theorem set (hs : Signed env.toEnv publicKey enr) {k : String} (v : ENRValue) (hk : k ∉ identityKeys) :
    Signed env.toEnv publicKey (enr.set k v) where
  id := (Map.get_set_ne _ v (ne_of_not_mem_identityKeys hk).1).trans hs.id
  key := (Map.get_set_ne _ v (ne_of_not_mem_identityKeys hk).2).trans hs.key
  valid _ h := by cases h

theorem delete (hs : Signed env.toEnv publicKey enr) {k : String} (hk : k ∉ identityKeys)
    (hunsigned : enr.signature = none ∨ enr.kvs.has k = false) : Signed env.toEnv publicKey (enr.delete k) where
  id := (Map.get_delete_ne _ (ne_of_not_mem_identityKeys hk).1).trans hs.id
  key := (Map.get_delete_ne _ (ne_of_not_mem_identityKeys hk).2).trans hs.key
  valid signature h := by
    rcases hunsigned with hnone | hnot
    · cases hnone.symm.trans h
    · have hsame : enr.delete k = enr := by rw [ENR.delete, Map.delete_of_not_has hnot]
      rw [hsame] at h ⊢
      exact hs.valid signature h

theorem toBytes (henv : env.Lawful) (hpublic : env.getPublicKey privateKey = .ok publicKey)
    (hs : Signed env.toEnv publicKey enr) : Signed env.toEnv publicKey (apply env privateKey enr .toBytes) := by
  unfold apply
  cases hvalues : toValues env.toEnv enr (some privateKey) with
  | error e => exact hs
  | ok result =>
    obtain ⟨values, enr'⟩ := result
    obtain ⟨signature, hsign, -, rfl⟩ := toValues_spec hvalues
    refine ⟨hs.id, hs.key, ?_⟩
    intro signature' h
    cases h
    exact verifySignature_of_sign henv hpublic hsign

end Signed

/-- Every step keeps a signature valid, if it deletes no key while the record is signed. -/
theorem signed_step (henv : env.Lawful) (hpublic : env.getPublicKey privateKey = .ok publicKey) {op : Operation}
    (hs : Signed env.toEnv publicKey enr) (hdeletes : DeletesUnsigned enr op)
    (hstep : step env privateKey enr op = some enr') : Signed env.toEnv publicKey enr' := by
  unfold step at hstep
  split at hstep
  · cases hstep
  · rename_i hidentity
    cases hstep
    cases hkey : op.key with
    | none =>
      obtain rfl : op = .toBytes := by
        cases op with
        | toBytes => rfl
        | _ => cases hkey
      exact hs.toBytes henv hpublic
    | some k =>
      have hk : k ∉ identityKeys := by simpa [hkey] using hidentity
      rcases apply_cases env privateKey enr hkey with
        ⟨-, v, heq⟩ | ⟨hdelete, heq⟩ | heq
      · rw [heq]
        exact hs.set v hk
      · rw [heq]
        exact hs.delete hk ((hdeletes hdelete).imp_right fun h => h k hkey)
      · rw [heq]
        exact hs

/-- A new record has the public key, and no signature. -/
theorem signed_fromPublicKey {publicKey' : Bytes} {kvs : PlainObject ENRValue}
    (hstored : storedPublicKey env publicKey' = .ok publicKey) (h : fromPublicKey env publicKey' kvs = .ok enr) :
    Signed env.toEnv publicKey enr := by
  rw [fromPublicKey, hstored, ok_bind] at h
  cases h
  refine ⟨?_, ?_, fun _ h => by cases h⟩
  · refine (RawEnr.get_new _ _ _ "id").trans ?_
    rw [Map.get_set_ne _ _ (by decide), Map.get_set_self]
  · exact (RawEnr.get_new _ _ _ "secp256k1").trans (Map.get_set_self _ _ _)

/-- **A stored signature is one of the content** in every run from a new record in which no key is deleted while the
record is signed. -/
theorem signature_valid (henv : env.Lawful) (hpublic : env.getPublicKey privateKey = .ok publicKey)
    {publicKey' : Bytes} {kvs : PlainObject ENRValue} {enr₀ : ENR}
    (hstored : storedPublicKey env publicKey' = .ok publicKey) (hnew : fromPublicKey env publicKey' kvs = .ok enr₀)
    (ops : List Operation) (hrun : run (step env privateKey) enr₀ ops = some enr)
    (hdeletes : Meets (step env privateKey) DeletesUnsigned enr₀ ops) :
    ∀ signature, enr.signature = some signature →
      verifySignature env.toEnv signature (env.keccak256 (env.rlpEncode (.list (content env.toEnv enr))))
        (.bytes publicKey) = true :=
  (run_invariant_of_meets (fun _ _ _ hs hdeletes hstep => signed_step henv hpublic hs hdeletes hstep) ops
    (signed_fromPublicKey hstored hnew) hdeletes hrun).valid

/-! ## Deleting from a signed record -/

/-- A key that is deleted leaves the signature as it was, and the content shorter. -/
theorem signature_stale {k : String} (hhas : enr.kvs.has k = true) :
    (enr.delete k).signature = enr.signature ∧
      (content env.toEnv (enr.delete k)).length < (content env.toEnv enr).length := by
  have hlength : ∀ enr : ENR, (content env.toEnv enr).length = 1 + 2 * enr.kvs.entries.length := by
    intro enr
    rw [content_eq, List.length_cons, ← (perm_sortedEntries env.toEnv enr).length_eq, List.length_flatMap]
    simp [Nat.add_comm, Nat.mul_comm]
  refine ⟨rfl, ?_⟩
  rw [hlength, hlength]
  have hfewer : (enr.delete k).kvs.entries.length < enr.kvs.entries.length := by
    obtain ⟨v, hv⟩ := Option.isSome_iff_exists.1 hhas
    refine List.length_filter_lt_length_iff_exists.2 ⟨(k, v), Map.mem_entries_iff.2 hv, ?_⟩
    simp
  omega

end

/-! ## Two runs -/

/-- The content of the first record of the sample keys with an address. -/
def addressContent : List ENRValue :=
  [.bytes [1], .bytes (utf8ToBytes "id"), .bytes (utf8ToBytes "v4"), .bytes (utf8ToBytes "ip"), .bytes [127, 0, 0, 1],
    .bytes (utf8ToBytes "secp256k1"), .bytes samplePublicKey]

/-- The hash of this content. -/
def addressHash : Bytes := toBE 32 0x499c59f19134cd36b10b018daaac314b469ea5f2f02ae9ed848ba496a987280e

/-- Its signature. -/
def addressSignature : Bytes :=
  toBE 32 0xc0a991592f3033bd8776407f35b82cdb080a372e159e4b3c7b709659b9578cba ++
    toBE 32 0x563c568d8bad8772da3b3eb22c47f4bb0fc0df7064de538f1f33eeaa41da2e96

/-- The sample functions with this record. -/
def addressEnv : SetterEnv where
  __ := sampleEnv
  keccak256 data := if data = Rlp.encode (.list addressContent) then addressHash else sampleEnv.keccak256 data
  sign message privateKey :=
    if message = addressHash ∧ privateKey = samplePrivateKey then .ok addressSignature
    else sampleEnv.sign message privateKey
  verify signature message publicKey :=
    if message = addressHash then .ok (publicKey = samplePublicKey ∧ signature = addressSignature)
    else sampleEnv.verify signature message publicKey
  convertToBytes proto value :=
    if proto = "ip4" ∧ value = "127.0.0.1" then .ok [127, 0, 0, 1] else .error .typeError
  compressPoint publicKey := if publicKey = samplePublicKey then .ok samplePublicKey else .error .typeError

theorem addressEnv_lawful : addressEnv.Lawful where
  rlp := sampleEnv_lawful.rlp
  utf8 := sampleEnv_lawful.utf8
  verify {message privateKey signature publicKey} hsign hpublic := by
    obtain rfl : privateKey = samplePrivateKey := by
      by_contra hne
      simp [addressEnv, sampleEnv, hne] at hpublic
    by_cases haddress : message = addressHash
    · subst haddress
      obtain rfl : addressSignature = signature := by
        simpa [addressEnv] using hsign
      obtain rfl : samplePublicKey = publicKey := by
        simpa [addressEnv, sampleEnv] using hpublic
      exact ⟨by decide, addressSignature, by decide, by decide⟩
    · have hsample : sampleEnv.sign message samplePrivateKey = .ok signature := by
        simpa [addressEnv, haddress] using hsign
      obtain ⟨hlength, sig, hsig, hverify⟩ := sampleEnv_lawful.verify hsample hpublic
      refine ⟨hlength, sig, hsig, ?_⟩
      simpa [addressEnv, haddress] using hverify

/-- A record with this address. -/
def addressKvs : PlainObject ENRValue := ⟨none, Map.empty.set "ip" (.bytes [127, 0, 0, 1])⟩

/-- The address is removed before the record is signed. -/
def unsignedRun : List Operation := [.ip none, .toBytes, .tcp none]

/-- The address is removed after the record was signed. -/
def staleRun : List Operation := [.toBytes, .ip none]

theorem signature_valid_unsignedRun :
    ∃ enr₀ enr signature, fromPublicKey addressEnv samplePublicKey addressKvs = .ok enr₀ ∧
      run (step addressEnv samplePrivateKey) enr₀ unsignedRun = some enr ∧ enr.signature = some signature ∧
      verifySignature addressEnv.toEnv signature
        (addressEnv.keccak256 (addressEnv.rlpEncode (.list (content addressEnv.toEnv enr)))) (.bytes samplePublicKey) =
        true := by
  have hnew : (fromPublicKey addressEnv samplePublicKey addressKvs).toBool = true := by decide +kernel
  obtain ⟨enr₀, hnew⟩ := exists_of_toBool hnew
  have hsigned : ∀ enr₀ ∈ (fromPublicKey addressEnv samplePublicKey addressKvs).toOption,
      Meets (step addressEnv samplePrivateKey) DeletesUnsigned enr₀ unsignedRun ∧
        ((run (step addressEnv samplePrivateKey) enr₀ unsignedRun).bind (·.signature)).isSome = true := by
    decide +kernel
  obtain ⟨hdeletes, hsignature⟩ := hsigned enr₀ (by rw [hnew]; rfl)
  obtain ⟨signature, hsignature⟩ := Option.isSome_iff_exists.1 hsignature
  obtain ⟨enr, hrun, hsignature⟩ := Option.bind_eq_some_iff.1 hsignature
  exact ⟨enr₀, enr, signature, hnew, hrun, hsignature,
    signature_valid addressEnv_lawful (by rfl) (by rfl) hnew unsignedRun hrun hdeletes signature hsignature⟩

/-- The record keeps the signature of what it was. -/
theorem signature_not_valid :
    ¬∀ (env : SetterEnv) (privateKey publicKey publicKey' : Bytes) (kvs : PlainObject ENRValue) (enr₀ enr : ENR)
      (ops : List Operation), env.Lawful → env.getPublicKey privateKey = .ok publicKey →
      storedPublicKey env publicKey' = .ok publicKey → fromPublicKey env publicKey' kvs = .ok enr₀ →
      run (step env privateKey) enr₀ ops = some enr → ∀ signature, enr.signature = some signature →
      verifySignature env.toEnv signature (env.keccak256 (env.rlpEncode (.list (content env.toEnv enr))))
        (.bytes publicKey) = true := by
  intro hall
  have hnew : (fromPublicKey addressEnv samplePublicKey addressKvs).toBool = true := by decide +kernel
  obtain ⟨enr₀, hnew⟩ := exists_of_toBool hnew
  have hstale : ∀ enr₀ ∈ (fromPublicKey addressEnv samplePublicKey addressKvs).toOption,
      (run (step addressEnv samplePrivateKey) enr₀ staleRun).isSome = true ∧
        ∀ enr ∈ run (step addressEnv samplePrivateKey) enr₀ staleRun, enr.signature = some addressSignature ∧
          verifySignature addressEnv.toEnv addressSignature
            (addressEnv.keccak256 (addressEnv.rlpEncode (.list (content addressEnv.toEnv enr))))
            (.bytes samplePublicKey) = false := by
    decide +kernel
  obtain ⟨hrun, hstale⟩ := hstale enr₀ (by rw [hnew]; rfl)
  obtain ⟨enr, hrun⟩ := Option.isSome_iff_exists.1 hrun
  obtain ⟨hsignature, hinvalid⟩ := hstale enr hrun
  have hvalid := hall addressEnv samplePrivateKey samplePublicKey samplePublicKey addressKvs enr₀ enr staleRun
    addressEnv_lawful (by rfl) (by rfl) hnew hrun addressSignature hsignature
  rw [hinvalid] at hvalid
  cases hvalid

end JsWaku.Enr
