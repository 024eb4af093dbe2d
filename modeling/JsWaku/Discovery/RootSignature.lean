import JsWaku.Discovery.EnrTree

/-!
# What a root signature covers

`ENRTree.parseAndVerifyRoot` of `packages/discovery/src/dns/enrtree.ts` takes the values out of a root entry by one
regular expression, and the text whose hash is checked by a split at `" sig"`. Both agree on where the signature starts:
the values of a verified root are in the text that was signed, and nothing after it changes them (`root_authenticated`).
-/

namespace JsWaku.Discovery

open MessageHash Text

/-- The entry is a text and a signature, which verifies the text under the key. -/
structure Signed (env : Env) (root publicKey signed signature : String) : Prop where
  root_eq : root = signed ++ " sig=" ++ signature
  verified : ∃ key bytes, env.base32 publicKey = .ok key ∧ env.base64url signature = .ok bytes ∧
    Enr.verifySignature env.enr (slice bytes 0 64) (env.enr.keccak256 (utf8ToBytes signed)) (.bytes key) = true

/-! ## Root entries -/

namespace ENRRootValues

/-- The words of a root entry before the signature. -/
def words (values : ENRRootValues) : List String :=
  ["enrtree-root:v1", "e=" ++ values.eRoot, "l=" ++ values.lRoot, "seq=" ++ values.seq]

/-- The part of a root entry that is signed. -/
def signed (values : ENRRootValues) : String := " ".intercalate values.words

end ENRRootValues

variable {values values' : ENRRootValues}

/-- A word with a field is its name and its value. -/
theorem field_eq_some {name word value : String} (h : field name word = some value) : word = name ++ value := by
  unfold field at h
  split at h
  · next hname =>
    cases h
    obtain ⟨rest, hrest⟩ := List.isPrefixOf_iff_prefix.1 hname.1
    rw [Text.sliceFrom, ← hrest, List.drop_left, ← String.toList_inj, String.toList_append, String.toList_ofList, hrest]
  · cases h

/-- An entry that matches is its signed part and its signature. -/
theorem matchRoot_eq_some {root : String} (h : matchRoot root = some values) :
    root = values.signed ++ " sig=" ++ values.signature ∧ ∀ word ∈ values.words, ' ' ∉ word.toList := by
  unfold matchRoot at h
  split at h
  · next version e l seq sig hwords =>
    obtain ⟨_, hversion, h⟩ := Option.bind_eq_some_iff.1 h
    obtain ⟨eRoot, he, h⟩ := Option.bind_eq_some_iff.1 h
    obtain ⟨lRoot, hl, h⟩ := Option.bind_eq_some_iff.1 h
    obtain ⟨digits, hseq, h⟩ := Option.bind_eq_some_iff.1 h
    obtain ⟨_, hdigits, h⟩ := Option.bind_eq_some_iff.1 h
    obtain ⟨signature, hsig, h⟩ := Option.bind_eq_some_iff.1 h
    cases h
    obtain rfl : version = "enrtree-root:v1" := by
      by_contra hne
      simp [guard, hne] at hversion
    cases field_eq_some he
    cases field_eq_some hl
    cases field_eq_some hseq
    cases field_eq_some hsig
    constructor
    · rw [← String.toList_inj, toList_of_split hwords]
      simp [ENRRootValues.signed, ENRRootValues.words]
    · intro word hword
      have hmem : word ∈ split ' ' root := by
        rw [hwords]
        exact List.mem_append_left [_] hword
      exact not_mem_of_mem_split hmem
  · cases h

/-- The signed part of a root entry is what the split at the signature takes. -/
theorem splitHead_signed (hwords : ∀ word ∈ values.words, ' ' ∉ word.toList) (signature : String) :
    splitHead " sig" (values.signed ++ " sig=" ++ signature) = values.signed := by
  have hchars : (values.signed ++ " sig=" ++ signature).toList =
      "enrtree-root:v1".toList ++ ' ' :: (("e=" ++ values.eRoot).toList ++ ' ' :: (("l=" ++ values.lRoot).toList ++
        ' ' :: (("seq=" ++ values.seq).toList ++ ' ' :: (['s', 'i', 'g'] ++ ('=' :: signature.toList))))) := by
    simp [ENRRootValues.signed, ENRRootValues.words]
  have he : ' ' ∉ ("e=" ++ values.eRoot).toList := hwords _ (by simp [ENRRootValues.words])
  have hl : ' ' ∉ ("l=" ++ values.lRoot).toList := hwords _ (by simp [ENRRootValues.words])
  have hseq : ' ' ∉ ("seq=" ++ values.seq).toList := hwords _ (by simp [ENRRootValues.words])
  have hbefore : before [' ', 's', 'i', 'g'] (values.signed ++ " sig=" ++ signature).toList = values.signed.toList := by
    rw [hchars, before_append_cons (by decide) (by simp [List.isPrefixOf]),
      before_append_cons he (by simp [List.isPrefixOf]), before_append_cons hl (by simp [List.isPrefixOf]),
      before_append_separator hseq]
    simp [ENRRootValues.signed, ENRRootValues.words]
  rw [splitHead, ← String.toList_inj, String.toList_ofList]
  exact hbefore

/-- The signed part determines the values before the signature. -/
theorem signed_inj (hwords : ∀ word ∈ values.words, ' ' ∉ word.toList)
    (hwords' : ∀ word ∈ values'.words, ' ' ∉ word.toList) (h : values.signed = values'.signed) :
    values'.eRoot = values.eRoot ∧ values'.lRoot = values.lRoot ∧ values'.seq = values.seq := by
  have hsplit : ∀ {values : ENRRootValues}, (∀ word ∈ values.words, ' ' ∉ word.toList) →
      split ' ' values.signed = values.words := by
    intro values hwords
    have hsigned : values.signed = String.ofList ([' '].intercalate (values.words.map String.toList)) := by
      rw [← String.toList_inj, String.toList_ofList]
      exact String.toList_intercalate
    rw [hsigned]
    exact split_intercalate (by simp [ENRRootValues.words]) hwords
  have hwordsEq : values'.words = values.words := by rw [← hsplit hwords', ← h, hsplit hwords]
  simpa [ENRRootValues.words] using hwordsEq

/-! ## Verified roots -/

/-- What an accepted root entry is. -/
theorem parseAndVerifyRoot_eq_ok {env : Env} {root publicKey e : String}
    (h : parseAndVerifyRoot (verifyRoot env) root publicKey = .ok e) :
    ∃ values, parseRootValues root = .ok values ∧ values.eRoot = e ∧ (∀ word ∈ values.words, ' ' ∉ word.toList) ∧
      Signed env root publicKey values.signed values.signature := by
  cases hprefix : startsWith root ROOT_PREFIX with
  | false =>
    rw [parseAndVerifyRoot, hprefix] at h
    cases h
  | true =>
    rw [parseAndVerifyRoot, hprefix] at h
    obtain ⟨-, -, h⟩ := bind_eq_ok.1 h
    obtain ⟨values, hvalues, h⟩ := bind_eq_ok.1 h
    obtain ⟨isVerified, hverified, h⟩ := bind_eq_ok.1 h
    cases isVerified with
    | false => cases h
    | true =>
      cases h
      have hmatch : matchRoot root = some values := by
        unfold parseRootValues at hvalues
        split at hvalues
        · next found hfound =>
          cases hvalues
          exact hfound
        · cases hvalues
      obtain ⟨hroot, hwords⟩ := matchRoot_eq_some hmatch
      refine ⟨values, hvalues, rfl, hwords, hroot, ?_⟩
      obtain ⟨key, hkey, h⟩ := bind_eq_ok.1 hverified
      obtain ⟨bytes, hbytes, h⟩ := bind_eq_ok.1 h
      rw [hroot, splitHead_signed hwords] at h
      exact ⟨key, bytes, hkey, hbytes, Except.ok.inj h⟩

/-- **A verified root is authenticated**: it is a text and the signature by which the text was verified, and the text
determines the values of the entry, whatever signature and key it comes with. -/
theorem root_authenticated {env : Env} {root publicKey e : String}
    (h : parseAndVerifyRoot (verifyRoot env) root publicKey = .ok e) :
    ∃ signed signature values, Signed env root publicKey signed signature ∧ parseRootValues root = .ok values ∧
      values.signature = signature ∧ values.eRoot = e ∧
      ∀ root' publicKey' e' signature', parseAndVerifyRoot (verifyRoot env) root' publicKey' = .ok e' →
        root' = signed ++ " sig=" ++ signature' → ∃ values', parseRootValues root' = .ok values' ∧ e' = e ∧
          values'.lRoot = values.lRoot ∧ values'.seq = values.seq := by
  obtain ⟨values, hvalues, heRoot, hwords, hsigned⟩ := parseAndVerifyRoot_eq_ok h
  refine ⟨_, _, values, hsigned, hvalues, rfl, heRoot, fun root' publicKey' e' signature' h' hroot' => ?_⟩
  obtain ⟨values', hvalues', heRoot', hwords', hsigned'⟩ := parseAndVerifyRoot_eq_ok h'
  have hsame : values.signed = values'.signed := by
    rw [← splitHead_signed hwords signature', ← hroot', hsigned'.root_eq, splitHead_signed hwords']
  obtain ⟨he, hl, hseq⟩ := signed_inj hwords hwords' hsame
  exact ⟨values', hvalues', by rw [← heRoot', he, heRoot], hl, hseq⟩

/-- The root entry of the sample tree. -/
theorem root_authenticated_sample : ∃ signed signature, Signed sampleEnv sampleRoot samplePublicKey signed signature := by
  obtain ⟨signed, signature, -, hsigned, -⟩ := root_authenticated parseAndVerifyRoot_sampleRoot
  exact ⟨signed, signature, hsigned⟩

end JsWaku.Discovery
