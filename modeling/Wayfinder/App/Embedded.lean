import Wayfinder.App.Crypto
import Wayfinder.Js.Canonical
import Wayfinder.Service.Credentials.Issued

/-! The browser's check of an embedded credential.

The text that it hashes is the one that the service hashes, and stands for a value up to the
order of keys (`canonical_faithful`).
What `verifyEmbeddedCredential` reads is what the server's check reads: a proof with a
method and a signature, and the hash of the rest (`verifyEmbeddedCredential_iff`). So it
does not see the order of keys, and accepts what the issuer signed
(`verifyEmbeddedCredential_issued`). -/
namespace Wayfinder.App.Crypto

open Js Service.Credentials
open Service.Crypto (didKeyFromPublicKey ED25519_PUB_MULTICODEC)

/-! ### The text that is hashed -/

/-- **The canonical text is a faithful encoding.** Two values have one text exactly when they are
alike but for the order of keys, and the ledger's copy, the issuer's copy and the browser's all
make the text that sorts the keys and looks each of them up. -/
theorem canonical_faithful (a b : Value) :
    (Service.Ledger.canonical a.json = Service.Ledger.canonical b.json ↔ a.json.Same b.json) ∧
      Service.Ledger.canonical a.json = keyedText a.json ∧
      Service.Credentials.canonical a.json = keyedText a.json ∧
      canonicalJson a.json = keyedText a.json := by
  have htext := keyedText_eq a.unique
  refine ⟨?_, htext.symm, htext.symm, htext.symm⟩
  rw [← keyEquiv_iff_same a.unique b.unique, ← sameText_iff a.finite b.finite]
  exact stableText_eq_iff a.json b.json

/-! ### The check -/

variable (P : Primitives) (E : Env)

/-- The key that a verification method names. -/
def keyOfMethod (verificationMethod : Str) : Except Thrown Bytes :=
  publicKeyFromMultibase P (multibaseFromDid (splitHead verificationMethod 35))

variable {P E}

theorem publicKeyFromMultibase_eq :
    publicKeyFromMultibase P = Service.Crypto.publicKeyFromMultibase P :=
  rfl

/-- The browser accepts exactly a proof whose method and signature are not empty, with a
key under which the signature verifies. -/
theorem verifyEmbeddedCredential_iff {claim : Fields} : verifyEmbeddedCredential P claim = true ↔
    ∃ verificationMethod proofValue pub, HasProof claim verificationMethod proofValue ∧
      verificationMethod ≠ [] ∧ proofValue ≠ [] ∧ keyOfMethod P verificationMethod = .ok pub ∧
      verifyHashHex P pub (signedHash P claim) proofValue = true := by
  refine ⟨fun h => ?_, fun h => ?_⟩
  · simp only [verifyEmbeddedCredential] at h
    split at h
    · cases h
    · next hpresent =>
      simp only [Bool.or_eq_true, Bool.not_eq_true', not_or, Bool.not_eq_false] at hpresent
      split at h
      · next m v hm hv =>
        cases hp : getField claim (lit "proof") with
        | none =>
          rw [hp] at hm
          cases hm
        | some proof =>
          rw [hp] at hm hv hpresent
          obtain ⟨ps, rfl, hm'⟩ := prop_str hm
          rw [hm, hv] at hpresent
          split at h
          · next pub hpub =>
            exact ⟨m, v, pub, ⟨ps, hp, hm', hv⟩, by simpa [truthy, Json.truthy] using hpresent.1,
              by simpa [truthy, Json.truthy] using hpresent.2, hpub, h⟩
          · cases h
      · cases h
  · obtain ⟨m, v, pub, ⟨ps, hp, hm, hv⟩, hm0, hv0, hpub, h⟩ := h
    have hkey : publicKeyFromMultibase P (multibaseFromDid (splitHead m 35)) = .ok pub := hpub
    simp only [verifyEmbeddedCredential, hp, readProp?, Json.prop, hm, hv, hkey]
    rw [if_neg (by simp [truthy, Json.truthy, hm0, hv0])]
    exact h

theorem verifyEmbeddedCredential_congr {fs gs : Fields} (h : SameText (.obj fs) (.obj gs))
    (hf : verifyEmbeddedCredential P fs = true) : verifyEmbeddedCredential P gs = true := by
  obtain ⟨m, v, pub, hproof, hm, hv, hpub, hverify⟩ := verifyEmbeddedCredential_iff.mp hf
  exact verifyEmbeddedCredential_iff.mpr
    ⟨m, v, pub, hproof.congr h, hm, hv, hpub, signedHash_congr h ▸ hverify⟩

theorem multibaseFromDid_did (k : Bytes) :
    multibaseFromDid (didKeyFromPublicKey P k).did =
      (didKeyFromPublicKey P k).publicKeyMultibase := by
  show (if startsWith (lit "did:key:" ++ _) (lit "did:key:") then _ else _) = _
  rw [startsWith_append, if_pos rfl]
  exact slice_append _ _

/-- A DID names its key, alone and with a fragment behind it. -/
theorem keyOfMethod_alone (hb : P.Base58) (k : Bytes) :
    keyOfMethod P (didKeyFromPublicKey P k).did = .ok k := by
  rw [keyOfMethod, splitHead_self (did_no_hash hb k), multibaseFromDid_did,
    publicKeyFromMultibase_eq, Service.Crypto.publicKeyFromMultibase_didKey hb]

theorem keyOfMethod_did (hb : P.Base58) (k : Bytes) (fragment : Str) :
    keyOfMethod P ((didKeyFromPublicKey P k).did ++ 35 :: fragment) = .ok k := by
  rw [keyOfMethod, splitHead_append _ _ _ (did_no_hash hb k), multibaseFromDid_did,
    publicKeyFromMultibase_eq, Service.Crypto.publicKeyFromMultibase_didKey hb]

/-- The browser accepts an issued credential. -/
theorem verifyEmbeddedCredential_issued (he : P.Ed25519) (hb : P.Base58) (n : Nat)
    (input : IssueInput) :
    verifyEmbeddedCredential P (signedVc P E n input).fields = true := by
  refine verifyEmbeddedCredential_iff.mpr
    ⟨_, _, (issuerKeys P E).publicKey, signedVc_hasProof n input, ?_, ?_, ?_, ?_⟩
  · exact List.append_ne_nil_of_right_ne_nil _ (by decide)
  · intro hnil
    have hlen := congrArg List.length hnil
    rw [bytesToHex_length, issuerSignature, he.signature_length] at hlen
    exact absurd hlen (by decide)
  · exact keyOfMethod_did hb _ (lit "key-1")
  · rw [signedHash_signedVc]
    exact issuerSignature_verifies he _

end Wayfinder.App.Crypto
