import Wayfinder.App.Embedded
import Wayfinder.Reference

/-! Whether the server and the browser accept the same claims.

Both read the same proof and hash the same text. They differ in how they get from the DID of
a verification method to the key: the server cuts out the first `did:key:` wherever it
stands, the browser only one in front. So the server accepts claims that the browser
refuses, those with a `Misplaced` one, and there is no other difference
(`verifiers_agree_iff`). -/
namespace Wayfinder.App.Crypto

open Js Service.Credentials
open Service.Crypto (didKeyFromPublicKey ED25519_PUB_MULTICODEC publicKeyFromMultibase_iff)

variable {P : Primitives} {E : Env}

/-! ### From a DID to a key -/

/-- A text that is read as a key has no colon in it. -/
theorem no_colon_of_key (hb : P.Base58) (hexact : P.Base58Exact) {s : Str} {k : Bytes}
    (h : Service.Crypto.publicKeyFromMultibase P s = .ok k) : 58 ∉ s := by
  rw [(publicKeyFromMultibase_iff hb hexact).mp h]
  show 58 ∉ lit "z" ++ P.base58Encode (ED25519_PUB_MULTICODEC ++ k)
  rw [List.mem_append]
  intro hmem
  rcases hmem with hmem | hmem
  · exact absurd hmem (by decide)
  · exact absurd (hb.alphabet _ _ hmem) (by unfold Primitives.IsBase58; decide)

theorem colon_mem (a b : Str) : 58 ∈ a ++ lit "did:key:" ++ b :=
  List.mem_append_left _ (List.mem_append_right _ (show 58 ∈ lit "did:key:" by decide))

/-- A `did:key:` in front is what both take away. -/
theorem multibase_of_tagged {did : Str} (h : startsWith did (lit "did:key:") = true) :
    multibaseFromDid did = removeFirst (lit "did:key:") did := by
  obtain ⟨rest, rfl⟩ := List.isPrefixOf_iff_prefix.mp h
  rw [multibaseFromDid, if_pos h, slice_append, removeFirst_append _ _ (by decide)]

theorem multibase_of_untagged {did : Str} (h : ¬ startsWith did (lit "did:key:") = true) :
    multibaseFromDid did = did := by
  rw [multibaseFromDid, if_neg h]

/-- The key that the browser reads, the server reads too. -/
theorem issuerPublicKeyFor_of_keyOfMethod (hb : P.Base58) (hexact : P.Base58Exact)
    {verificationMethod : Str} {k : Bytes} (h : keyOfMethod P verificationMethod = .ok k) :
    issuerPublicKeyFor P verificationMethod = .ok k := by
  rw [keyOfMethod, publicKeyFromMultibase_eq] at h
  by_cases hprefix : startsWith (splitHead verificationMethod 35) (lit "did:key:") = true
  · rw [multibase_of_tagged hprefix] at h
    exact h
  · rw [multibase_of_untagged hprefix] at h
    rcases removeFirst_cases (lit "did:key:") (splitHead verificationMethod 35) with
      hsame | ⟨a, b, hdid, _⟩
    · rw [issuerPublicKeyFor, hsame]
      exact h
    · have hcolon := no_colon_of_key hb hexact h
      rw [hdid] at hcolon
      exact absurd (colon_mem a b) hcolon

/-- The key that the server reads, the browser reads too, unless it is behind a misplaced
`did:key:`. -/
theorem keyOfMethod_of_issuerPublicKeyFor {verificationMethod : Str} {k : Bytes}
    (h : issuerPublicKeyFor P verificationMethod = .ok k) :
    keyOfMethod P verificationMethod = .ok k ∨
      ∃ a b, splitHead verificationMethod 35 = a ++ lit "did:key:" ++ b ∧ a ≠ [] ∧
        Service.Crypto.publicKeyFromMultibase P (a ++ b) = .ok k := by
  rw [keyOfMethod, publicKeyFromMultibase_eq]
  by_cases hprefix : startsWith (splitHead verificationMethod 35) (lit "did:key:") = true
  · rw [multibase_of_tagged hprefix]
    exact .inl h
  · rw [multibase_of_untagged hprefix]
    rcases removeFirst_cases (lit "did:key:") (splitHead verificationMethod 35) with
      hsame | ⟨a, b, hdid, hremoved⟩
    · rw [issuerPublicKeyFor, hsame] at h
      exact .inl h
    · rw [issuerPublicKeyFor, hremoved] at h
      refine .inr ⟨a, b, hdid, fun ha => hprefix ?_, h⟩
      rw [hdid, ha, List.nil_append]
      exact startsWith_append _ b

/-- Behind a misplaced `did:key:` the browser reads no key, the server the one around it. -/
theorem keys_of_misplaced (hb : P.Base58) (hexact : P.Base58Exact) {verificationMethod a b : Str}
    {k : Bytes} (hdid : splitHead verificationMethod 35 = a ++ lit "did:key:" ++ b) (ha : a ≠ [])
    (h : Service.Crypto.publicKeyFromMultibase P (a ++ b) = .ok k) :
    issuerPublicKeyFor P verificationMethod = .ok k ∧ ∀ k',
      keyOfMethod P verificationMethod ≠ .ok k' := by
  have hcolon : 58 ∉ a := fun hmem => no_colon_of_key hb hexact h (List.mem_append_left b hmem)
  have hremoved : removeFirst (lit "did:key:") (a ++ lit "did:key:" ++ b) = a ++ b :=
    removeFirst_behind (q := lit "did") (r := lit "key:") (by decide) hcolon b
  refine ⟨by rw [issuerPublicKeyFor, hdid, hremoved, h], fun k' hk' => ?_⟩
  have hprefix : ¬ startsWith (splitHead verificationMethod 35) (lit "did:key:") = true := by
    rw [hdid]
    cases a with
    | nil => exact absurd rfl ha
    | cons u rest =>
      -- a multibase text begins with `z`
      have hz := (publicKeyFromMultibase_iff hb hexact).mp h
      obtain rfl : u = 122 := (List.cons.inj hz).1
      exact Bool.false_ne_true
  rw [keyOfMethod, publicKeyFromMultibase_eq, multibase_of_untagged hprefix, hdid] at hk'
  exact no_colon_of_key hb hexact hk' (colon_mem a b)

/-! ### The verdicts -/

/-- The DID of the proof's method has a `did:key:` behind its start, and what is left without
it is the multibase form of a key under which the claim's signature verifies. -/
def Misplaced (P : Primitives) (claim : Fields) : Prop :=
  ∃ verificationMethod proofValue a b pub, HasProof claim verificationMethod proofValue ∧
    splitHead verificationMethod 35 = a ++ lit "did:key:" ++ b ∧ a ≠ [] ∧
    Service.Crypto.publicKeyFromMultibase P (a ++ b) = .ok pub ∧
    verifyHashHex P pub (signedHash P claim) proofValue = true

/-- The server accepts what the browser accepts. -/
theorem server_of_browser (hb : P.Base58) (hexact : P.Base58Exact) {claim : Fields}
    (h : verifyEmbeddedCredential P claim = true) : verifyVcSignature P (.obj claim) = true := by
  obtain ⟨m, v, pub, hproof, _, _, hpub, hverify⟩ := verifyEmbeddedCredential_iff.mp h
  exact verifyVcSignature_iff.mpr
    ⟨claim, m, v, pub, rfl, hproof, issuerPublicKeyFor_of_keyOfMethod hb hexact hpub, hverify⟩

/-- No key is read from an empty method. -/
theorem method_ne_nil {verificationMethod : Str} {k : Bytes}
    (h : issuerPublicKeyFor P verificationMethod = .ok k) :
    verificationMethod ≠ [] := by
  intro hnil
  rw [hnil] at h
  cases h

/-- No signature is empty. -/
theorem proofValue_ne_nil (hs : P.SignatureLength) {k : Bytes} {hash proofValue : Str}
    (h : verifyHashHex P k hash proofValue = true) : proofValue ≠ [] := by
  intro hnil
  rw [hnil, verifyHashHex, show hexToBytes [] = some [] from rfl] at h
  split at h
  · next hsignature _ =>
    cases hsignature
    cases hs _ _ _ h
  · cases h

/-- The browser accepts what the server accepts, or the claim has a misplaced `did:key:`. -/
theorem browser_of_server (hs : P.SignatureLength) {claim : Fields}
    (h : verifyVcSignature P (.obj claim) = true) :
    verifyEmbeddedCredential P claim = true ∨ Misplaced P claim := by
  obtain ⟨fs, m, v, pub, hfs, hproof, hpub, hverify⟩ := verifyVcSignature_iff.mp h
  cases hfs
  rcases keyOfMethod_of_issuerPublicKeyFor hpub with hkey | ⟨a, b, hdid, ha, hkey⟩
  · exact .inl (verifyEmbeddedCredential_iff.mpr
      ⟨m, v, pub, hproof, method_ne_nil hpub, proofValue_ne_nil hs hverify, hkey, hverify⟩)
  · exact .inr ⟨m, v, a, b, pub, hproof, hdid, ha, hkey, hverify⟩

/-- A claim with a misplaced `did:key:` is accepted by the server and refused by the browser. -/
theorem verdicts_of_misplaced (hb : P.Base58) (hexact : P.Base58Exact) {claim : Fields}
    (h : Misplaced P claim) :
    verifyVcSignature P (.obj claim) = true ∧ verifyEmbeddedCredential P claim = false := by
  obtain ⟨m, v, a, b, pub, hproof, hdid, ha, hkey, hverify⟩ := h
  obtain ⟨hserver, hbrowser⟩ := keys_of_misplaced hb hexact hdid ha hkey
  refine ⟨verifyVcSignature_iff.mpr ⟨claim, m, v, pub, rfl, hproof, hserver, hverify⟩, ?_⟩
  rw [Bool.eq_false_iff]
  intro haccepts
  obtain ⟨m', v', pub', hproof', _, _, hpub', _⟩ := verifyEmbeddedCredential_iff.mp haccepts
  obtain ⟨rfl, _⟩ := hproof.unique hproof'
  exact hbrowser pub' hpub'

/-- **The server and the browser agree on a claim exactly when it has no misplaced `did:key:`.** -/
theorem verifiers_agree_iff (hb : P.Base58) (hexact : P.Base58Exact) (hs : P.SignatureLength)
    (claim : Fields) :
    verifyVcSignature P (.obj claim) = verifyEmbeddedCredential P claim ↔ ¬ Misplaced P claim := by
  refine ⟨fun hagree hmisplaced => ?_, fun hnot => ?_⟩
  · obtain ⟨hserver, hbrowser⟩ := verdicts_of_misplaced hb hexact hmisplaced
    rw [hserver, hbrowser] at hagree
    cases hagree
  · rw [Bool.eq_iff_iff]
    exact ⟨fun h => (browser_of_server hs h).resolve_right hnot, server_of_browser hb hexact⟩

/-- Somebody to issue a credential to. -/
def someone : IssueInput := ⟨lit "did:example:a", none, none, none⟩

/-- What the issuer signed has nothing misplaced, and both accept it. -/
theorem verifiers_agree_iff_signed :
    verifyVcSignature Reference.primitives
      (.obj (signedVc Reference.primitives Reference.env 2 someone).fields) =
      verifyEmbeddedCredential Reference.primitives
      (signedVc Reference.primitives Reference.env 2 someone).fields ∧
      verifyEmbeddedCredential Reference.primitives
        (signedVc Reference.primitives Reference.env 2 someone).fields = true := by
  have haccepts : verifyEmbeddedCredential Reference.primitives
      (signedVc Reference.primitives Reference.env 2 someone).fields = true :=
    verifyEmbeddedCredential_issued Reference.ed25519 Reference.base58 2 someone
  refine ⟨?_, haccepts⟩
  refine (verifiers_agree_iff Reference.base58 Reference.base58Exact Reference.signatureLength
    _).mpr fun hmisplaced => ?_
  have hrefuses := (verdicts_of_misplaced Reference.base58 Reference.base58Exact hmisplaced).2
  rw [haccepts] at hrefuses
  cases hrefuses

/-! ### A misplaced `did:key:` -/

variable (P E)

/-- An issued credential with the `did:key:` of its method moved behind the `z`. -/
def displaced (n : Nat) (input : IssueInput) : Vc :=
  { unsignedVc P E n input with
    proof := some { proofOf P E n (bytesToHex (issuerSignature P E (unsignedVc P E n input))) with
      verificationMethod := lit "zdid:key:" ++
        P.base58Encode (ED25519_PUB_MULTICODEC ++ (issuerKeys P E).publicKey) ++ lit "#key-1" } }

variable {P E}

theorem misplaced_displaced (he : P.Ed25519) (hb : P.Base58) (n : Nat) (input : IssueInput) :
    Misplaced P (displaced P E n input).fields := by
  refine ⟨_, _, lit "z", P.base58Encode (ED25519_PUB_MULTICODEC ++ (issuerKeys P E).publicKey),
    (issuerKeys P E).publicKey, ⟨_, getField_fields_proof _, rfl, rfl⟩, ?_, by decide, ?_, ?_⟩
  · refine splitHead_append _ _ _ fun hmem => ?_
    rcases List.mem_append.mp hmem with hmem | hmem
    · exact absurd hmem (by decide)
    · exact absurd (hb.alphabet _ _ hmem) (by unfold Primitives.IsBase58; decide)
  · exact Service.Crypto.publicKeyFromMultibase_didKey hb _
  · rw [signedHash, dropField_fields]
    exact issuerSignature_verifies he _

/-- **The server accepts a claim that the browser refuses.** -/
theorem displaced_disagree :
    verifyVcSignature Reference.primitives (displaced Reference.primitives Reference.env 2
      ⟨lit "did:example:a", none, none, none⟩).toJson = true ∧
      verifyEmbeddedCredential Reference.primitives (displaced Reference.primitives Reference.env 2
        ⟨lit "did:example:a", none, none, none⟩).fields = false :=
  verdicts_of_misplaced Reference.base58 Reference.base58Exact (misplaced_displaced
    Reference.ed25519 Reference.base58 2 ⟨lit "did:example:a", none, none, none⟩)

end Wayfinder.App.Crypto
