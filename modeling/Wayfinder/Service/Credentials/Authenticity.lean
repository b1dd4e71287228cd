import Wayfinder.App.Embedded
import Wayfinder.Reference

/-! Whose signature a verifier checks.

Both verifiers take the key from `proof.verificationMethod`, and both leave `proof` out of
what is signed. Nothing compares that key with the issuer: a credential in the issuer's
name that anyone signed with a key of their own passes (`forged_accepted`). A credential
that passes is its issuer's exactly when the method and the issuer name one key
(`authentic_iff`). -/
namespace Wayfinder.Service.Credentials

open Js Crypto
open App.Crypto (verifyEmbeddedCredential keyOfMethod)

variable (P : Primitives) (E : Env)

/-- The signature of a credential verifies under a key, and was made with its private key. -/
structure SignedUnder (vc : Fields) (pub : Bytes) : Prop where
  verifies : ∃ method proofValue, HasProof vc method proofValue ∧
    verifyHashHex P pub (signedHash P vc) proofValue = true
  made : ∃ method proofValue privateKey hash, HasProof vc method proofValue ∧
    P.getPublicKey privateKey = pub ∧ hexToBytes (signedHash P vc) = some hash ∧
    hexToBytes proofValue = some (P.ed25519Sign hash privateKey)

/-- A credential comes from the DID that it names as its issuer. -/
def Authentic (keyOf : Str → Except Thrown Bytes) (vc : Fields) (issuer : Str) : Prop :=
  getField vc (lit "issuer") = some (.str issuer) ∧ ∃ pub, keyOf issuer = .ok pub ∧
    SignedUnder P vc pub

/-- The issuer is a DID with the key that the verification method names. -/
def KeysAgree (keyOf : Str → Except Thrown Bytes) (vc : Fields) (method : Str) : Prop :=
  ∃ issuer pub, getField vc (lit "issuer") = some (.str issuer) ∧ keyOf issuer = .ok pub ∧
    keyOf method = .ok pub

/-- The signature verifies under the key that the verification method names. -/
def VerifiesUnderMethod (keyOf : Str → Except Thrown Bytes) (vc : Fields) (method : Str) : Prop :=
  ∃ proofValue pub, HasProof vc method proofValue ∧ keyOf method = .ok pub ∧
    verifyHashHex P pub (signedHash P vc) proofValue = true

/-- The checks of `verifyCredential` apart from the signature. -/
structure PassesChecks (n : Nat) (s : State) (credential : Json) (vc : Fields) : Prop where
  first : readFirst (credential.prop (lit "claims")) = .ok (some (.obj vc))
  schema : validateCredential P credential = true
  notRevoked : ∃ status, statusOf s credential = .ok status ∧ isRevoked status = false
  notExpired : beforeEnd P E n (getField vc (lit "validUntil")) = .ok true

variable {P E}

theorem verifyHashHex_bytes {pub : Bytes} {hashHex signatureHex : Str}
    (h : verifyHashHex P pub hashHex signatureHex = true) :
    ∃ signature hash, hexToBytes signatureHex = some signature ∧ hexToBytes hashHex = some hash ∧
      P.ed25519Verify signature hash pub = true := by
  rw [verifyHashHex] at h
  split at h
  · next signature hash hs hh => exact ⟨signature, hash, hs, hh, h⟩
  · cases h

/-- What verifies under a key was signed under it. -/
theorem signedUnder_of_verifies (hu : P.Unforgeable) {vc : Fields} {method proofValue : Str}
    {pub : Bytes} (hproof : HasProof vc method proofValue)
    (hverify : verifyHashHex P pub (signedHash P vc) proofValue = true) : SignedUnder P vc pub := by
  obtain ⟨signature, hash, hs, hh, hv⟩ := verifyHashHex_bytes hverify
  obtain ⟨privateKey, hkey, hsign⟩ := hu.signed _ _ _ hv
  exact ⟨⟨method, proofValue, hproof, hverify⟩,
    ⟨method, proofValue, privateKey, hash, hproof, hkey, hh, by rw [hs, hsign]⟩⟩

/-- No signature is of two keys. -/
theorem verifies_unique (hu : P.Unforgeable) {k k' : Bytes} {hashHex signatureHex : Str}
    (h : verifyHashHex P k hashHex signatureHex = true)
    (h' : verifyHashHex P k' hashHex signatureHex = true) :
    k = k' := by
  obtain ⟨signature, hash, hs, hh, hv⟩ := verifyHashHex_bytes h
  obtain ⟨signature', hash', hs', hh', hv'⟩ := verifyHashHex_bytes h'
  rw [hs] at hs'
  rw [hh] at hh'
  cases hs'
  cases hh'
  obtain ⟨p, hp, hps⟩ := hu.signed _ _ _ hv
  obtain ⟨q, hq, hqs⟩ := hu.signed _ _ _ hv'
  rw [← hp, ← hq]
  exact hu.signer _ _ p q (hps.trans hqs.symm)

/-- A signature that verifies under the method's key is the issuer's exactly when the two
keys are one. -/
theorem authentic_iff_keysAgree (hu : P.Unforgeable) {keyOf : Str → Except Thrown Bytes}
    {vc : Fields} {method : Str} (h : VerifiesUnderMethod P keyOf vc method) :
    (∃ issuer, Authentic P keyOf vc issuer) ↔ KeysAgree keyOf vc method := by
  obtain ⟨proofValue, pub, hproof, hpub, hverify⟩ := h
  refine ⟨fun h => ?_, fun h => ?_⟩
  · obtain ⟨issuer, hissuer, pub', hpub', hsigned⟩ := h
    obtain ⟨method', proofValue', hproof', hverify'⟩ := hsigned.verifies
    obtain ⟨_, rfl⟩ := hproof.unique hproof'
    have : pub = pub' := verifies_unique hu hverify hverify'
    exact ⟨issuer, pub, hissuer, this ▸ hpub', hpub⟩
  · obtain ⟨issuer, pub', hissuer, hkey, hmethod⟩ := h
    rw [hpub] at hmethod
    cases hmethod
    exact ⟨issuer, hissuer, pub, hkey, signedUnder_of_verifies hu hproof hverify⟩

theorem PassesChecks.valid {n : Nat} {s : State} {credential : Json} {vc : Fields}
    (h : PassesChecks P E n s credential vc) (hsig : verifyVcSignature P (.obj vc) = true) :
    ∃ result, verifyCredential P E n s credential = .ok result ∧ result.valid = true ∧
      result.issuer = orElse (getField vc (lit "issuer")) (.str (issuerInfo P E).did) := by
  obtain ⟨status, hstatus, hrevoked⟩ := h.notRevoked
  refine ⟨_, verifyCredential_ok.mpr ⟨_, _, _, h.first, hstatus, h.notExpired, rfl⟩, ?_, rfl⟩
  simp [Checks.valid, checksOf, h.schema, hsig, hrevoked, Json.truthy]

/-- What a valid verdict says of the credential. -/
theorem passesChecks_of_valid {n : Nat} {s : State} {credential : Json}
    {result : VerificationResult} (h : verifyCredential P E n s credential = .ok result)
    (hvalid : result.valid = true) :
    ∃ vc, PassesChecks P E n s credential vc ∧ verifyVcSignature P (.obj vc) = true ∧
      result.issuer = orElse (getField vc (lit "issuer")) (.str (issuerInfo P E).did) := by
  obtain ⟨vc, status, notExpired, hfirst, hstatus, hend, rfl⟩ := verifyCredential_ok.mp h
  simp only [Checks.valid, checksOf, Bool.and_eq_true, Bool.not_eq_true'] at hvalid
  obtain ⟨⟨⟨hschema, hsig⟩, hrevoked⟩, rfl⟩ := hvalid
  cases vc with
  | none => cases hsig
  | some vc =>
    simp only [Bool.and_eq_true] at hsig
    obtain ⟨fs, _, _, _, rfl, _⟩ := verifyVcSignature_iff.mp hsig.2
    exact ⟨fs, ⟨hfirst, hschema, ⟨status, hstatus, hrevoked⟩, hend⟩, hsig.2, rfl⟩

theorem verifyVcSignature_obj {vc : Fields} : verifyVcSignature P (.obj vc) = true ↔
    ∃ method, VerifiesUnderMethod P (issuerPublicKeyFor P) vc method := by
  rw [verifyVcSignature_iff]
  refine ⟨fun h => ?_, fun h => ?_⟩
  · obtain ⟨fs, m, v, pub, hfs, hproof, hpub, hverify⟩ := h
    cases hfs
    exact ⟨m, v, pub, hproof, hpub, hverify⟩
  · obtain ⟨m, v, pub, hproof, hpub, hverify⟩ := h
    exact ⟨vc, m, v, pub, rfl, hproof, hpub, hverify⟩

/-- **What passes is the issuer's exactly when the method and the issuer name one key.**
The first part is the server's verdict, the second the browser's check. -/
theorem authentic_iff (hu : P.Unforgeable) :
    (∀ n s credential,
      (∀ result, verifyCredential P E n s credential = .ok result → result.valid = true →
        ∃ vc issuer, readFirst (credential.prop (lit "claims")) = .ok (some (.obj vc)) ∧
          result.issuer = .str issuer ∧ Authentic P (issuerPublicKeyFor P) vc issuer) ↔
      ∀ vc method, PassesChecks P E n s credential vc →
        VerifiesUnderMethod P (issuerPublicKeyFor P) vc method →
        KeysAgree (issuerPublicKeyFor P) vc method) ∧
      (∀ claim, (verifyEmbeddedCredential P claim = true →
        ∃ issuer, Authentic P (keyOfMethod P) claim issuer) ↔ ∀ method, method ≠ [] →
          ¬ HasProof claim method [] → VerifiesUnderMethod P (keyOfMethod P) claim method →
          KeysAgree (keyOfMethod P) claim method) := by
  refine ⟨fun n s credential =>
    ⟨fun h vc method hpasses hmethod => ?_, fun h result hresult hvalid => ?_⟩,
    fun claim => ⟨fun h method hm hv hmethod => ?_, fun h haccept => ?_⟩⟩
  · obtain ⟨result, hresult, hvalid, _⟩ :=
      hpasses.valid (verifyVcSignature_obj.mpr ⟨method, hmethod⟩)
    obtain ⟨vc', issuer, hfirst, _, hauth⟩ := h result hresult hvalid
    rw [hpasses.first] at hfirst
    cases hfirst
    exact (authentic_iff_keysAgree hu hmethod).mp ⟨issuer, hauth⟩
  · obtain ⟨vc, hpasses, hsig, hissuer⟩ := passesChecks_of_valid hresult hvalid
    obtain ⟨method, hmethod⟩ := verifyVcSignature_obj.mp hsig
    obtain ⟨issuer, hauth⟩ := (authentic_iff_keysAgree hu hmethod).mpr (h vc method hpasses hmethod)
    refine ⟨vc, issuer, hpasses.first, ?_, hauth⟩
    rw [hissuer, hauth.1]
    rfl
  · obtain ⟨v, pub, hproof, hpub, hverify⟩ := hmethod
    refine (authentic_iff_keysAgree hu ⟨v, pub, hproof, hpub, hverify⟩).mp (h ?_)
    refine App.Crypto.verifyEmbeddedCredential_iff.mpr ⟨method, v, pub, hproof, hm, ?_,
      hpub, hverify⟩
    intro hnil
    exact hv (hnil ▸ hproof)
  · obtain ⟨m, v, pub, hproof, hm, hv, hpub, hverify⟩ :=
      App.Crypto.verifyEmbeddedCredential_iff.mp haccept
    refine (authentic_iff_keysAgree hu ⟨v, pub, hproof, hpub, hverify⟩).mpr
      (h m hm (fun hnil => hv (hproof.unique hnil).2) ⟨v, pub, hproof, hpub, hverify⟩)

/-! ### A forged credential -/

section
variable (P E)

/-- A credential that names the service's issuer, signed by somebody else. -/
def forgedVc (attacker : Bytes) : Vc :=
  let vc := unsignedVc P E 2 { holderDid := lit "did:key:zMallory" }
  { vc with
    proof := some { proofOf P E 2 (bytesToHex
      (P.ed25519Sign (P.sha256 (utf8Encode (canonical (.obj vc.claimFields)))) attacker)) with
        verificationMethod :=
          (didKeyFromPublicKey P (P.getPublicKey attacker)).did ++ lit "#key-1" } }

def forgedCredential (attacker : Bytes) : CredentialToken :=
  wrap P E 2 { holderDid := lit "did:key:zMallory" } (lit "enhanced") (forgedVc P E attacker)

variable {P E}

theorem forged_hasProof (attacker : Bytes) :
    ∃ proofValue, HasProof (forgedVc P E attacker).fields
      ((didKeyFromPublicKey P (P.getPublicKey attacker)).did ++ lit "#key-1")
      (bytesToHex proofValue) ∧ proofValue = P.ed25519Sign (P.sha256 (utf8Encode (canonical
        (.obj (unsignedVc P E 2 { holderDid := lit "did:key:zMallory" }).claimFields)))) attacker :=
  ⟨_, ⟨_, getField_fields_proof _, rfl, rfl⟩, rfl⟩

theorem forged_verifies (he : P.Ed25519) {attacker : Bytes} (hlen : attacker.length = 32) :
    verifyHashHex P (P.getPublicKey attacker) (signedHash P (forgedVc P E attacker).fields)
      (bytesToHex (P.ed25519Sign (P.sha256 (utf8Encode (canonical (.obj (unsignedVc P E 2
        { holderDid := lit "did:key:zMallory" }).claimFields)))) attacker)) = true := by
  rw [signedHash, dropField_fields]
  show verifyHashHex P _ (sha256Hex P (canonical (.obj (unsignedVc P E 2 _).claimFields))) _ = _
  rw [verifyHashHex_sha256Hex]
  exact he.verify_sign _ _ hlen

theorem forged_method (hb : P.Base58) (he : P.Ed25519) {attacker : Bytes}
    (hlen : attacker.length = 32) :
    VerifiesUnderMethod P (issuerPublicKeyFor P) (forgedVc P E attacker).fields
      ((didKeyFromPublicKey P (P.getPublicKey attacker)).did ++ lit "#key-1") ∧
      VerifiesUnderMethod P (keyOfMethod P) (forgedVc P E attacker).fields
        ((didKeyFromPublicKey P (P.getPublicKey attacker)).did ++ lit "#key-1") := by
  obtain ⟨v, hproof, rfl⟩ := forged_hasProof (P := P) (E := E) attacker
  exact ⟨⟨_, _, hproof, issuerPublicKeyFor_method hb _ (lit "key-1"), forged_verifies he hlen⟩,
    ⟨_, _, hproof, App.Crypto.keyOfMethod_did hb _ (lit "key-1"), forged_verifies he hlen⟩⟩

/-- The keys of a forged credential are two. -/
theorem forged_not_agree {attacker : Bytes}
    (hne : P.getPublicKey attacker ≠ (issuerKeys P E).publicKey) {keyOf : Str → Except Thrown Bytes}
    (hdid : ∀ k, keyOf (didKeyFromPublicKey P k).did = .ok k)
    (hmethod : ∀ k, keyOf ((didKeyFromPublicKey P k).did ++ lit "#key-1") = .ok k) :
    ¬ KeysAgree keyOf (forgedVc P E attacker).fields
      ((didKeyFromPublicKey P (P.getPublicKey attacker)).did ++ lit "#key-1") := by
  intro h
  obtain ⟨issuer, pub, hissuer, hpub, hpub'⟩ := h
  have hfield :
    getField (forgedVc P E attacker).fields (lit "issuer") = some (.str (issuerInfo P E).did) := rfl
  rw [hfield] at hissuer
  cases hissuer
  rw [issuerInfo, hdid, Except.ok.injEq] at hpub
  rw [hmethod, Except.ok.injEq] at hpub'
  exact hne (hpub'.trans hpub.symm)

theorem forged_passes (hd : P.DateParse) (hformat : ∀ f t, P.validFormat f t = true)
    (attacker : Bytes) :
    PassesChecks P E 3 JsMap.empty (forgedCredential P E attacker).toJson
      (forgedVc P E attacker).fields where
  first := rfl
  schema := validateCredential_wrap hformat 2 _ _ _ _ rfl rfl rfl
  notRevoked := ⟨some (.str (lit "active")), rfl, rfl⟩
  notExpired := beforeEnd_oneYear hd 3

/-- Both verifiers accept a forged credential. -/
theorem forged_valid (he : P.Ed25519) (hb : P.Base58) (hd : P.DateParse) (hu : P.Unforgeable)
    (hformat : ∀ f t, P.validFormat f t = true) {attacker : Bytes} (hlen : attacker.length = 32)
    (hne : P.getPublicKey attacker ≠ (issuerKeys P E).publicKey) :
    (∃ result,
      verifyCredential P E 3 JsMap.empty (forgedCredential P E attacker).toJson = .ok result ∧
      result.valid = true ∧ result.issuer = .str (issuerInfo P E).did) ∧
      verifyEmbeddedCredential P (forgedVc P E attacker).fields = true ∧
      (∀ issuer, ¬ Authentic P (issuerPublicKeyFor P) (forgedVc P E attacker).fields issuer) ∧
      ∀ issuer, ¬ Authentic P (keyOfMethod P) (forgedVc P E attacker).fields issuer := by
  obtain ⟨hserver, hbrowser⟩ := forged_method (E := E) hb he hlen
  obtain ⟨result, hresult, hvalid, hissuer⟩ :=
    (forged_passes (E := E) hd hformat attacker).valid (verifyVcSignature_obj.mpr ⟨_, hserver⟩)
  refine ⟨⟨result, hresult, hvalid, hissuer⟩, ?_, fun issuer hauth => ?_, fun issuer hauth => ?_⟩
  · obtain ⟨v, pub, hproof, hpub, hverify⟩ := hbrowser
    refine App.Crypto.verifyEmbeddedCredential_iff.mpr ⟨_, v, pub, hproof, ?_, ?_, hpub, hverify⟩
    · exact List.append_ne_nil_of_right_ne_nil _ (by decide)
    · intro hnil
      obtain ⟨v', hproof', rfl⟩ := forged_hasProof (P := P) (E := E) attacker
      have hlen' := congrArg List.length ((hproof'.unique hproof).2.trans hnil)
      rw [bytesToHex_length, he.signature_length] at hlen'
      exact absurd hlen' (by decide)
  · exact forged_not_agree hne (issuerPublicKeyFor_did hb)
      (fun k => issuerPublicKeyFor_method hb k (lit "key-1"))
      ((authentic_iff_keysAgree hu hserver).mp ⟨issuer, hauth⟩)
  · exact forged_not_agree hne (App.Crypto.keyOfMethod_alone hb)
      (fun k => App.Crypto.keyOfMethod_did hb k (lit "key-1"))
      ((authentic_iff_keysAgree hu hbrowser).mp ⟨issuer, hauth⟩)

end

/-- A credential signed by Mallory in the issuer's name: the verdict is valid and reports the
issuer, the browser accepts its claim, and neither is the issuer's. -/
theorem forged_accepted :
    (∃ result, verifyCredential Reference.primitives Reference.env 3 JsMap.empty
      (forgedCredential Reference.primitives Reference.env (Reference.privateKey 1)).toJson =
      .ok result ∧ result.valid = true ∧
      result.issuer = .str (issuerInfo Reference.primitives Reference.env).did) ∧
      verifyEmbeddedCredential Reference.primitives
        (forgedVc Reference.primitives Reference.env (Reference.privateKey 1)).fields = true ∧
      (∀ issuer, ¬ Authentic Reference.primitives (issuerPublicKeyFor Reference.primitives)
        (forgedVc Reference.primitives Reference.env (Reference.privateKey 1)).fields issuer) ∧
      ∀ issuer, ¬ Authentic Reference.primitives (keyOfMethod Reference.primitives)
        (forgedVc Reference.primitives Reference.env (Reference.privateKey 1)).fields issuer := by
  refine forged_valid Reference.ed25519 Reference.base58 Reference.dateParse Reference.unforgeable
    (fun _ _ => rfl) rfl fun he => ?_
  have := Reference.freshKeys (n := 2) (by decide) 1 0 (by decide) (by decide) he
  cases this

/-! ### A credential of the service -/

section
variable (P E)

/-- A credential that the service issued. -/
def genuineInput : IssueInput := { holderDid := lit "did:key:zAlice" }

def genuineCredential : CredentialToken := issued P E 2 genuineInput (lit "enhanced")

variable {P E}

theorem genuine_passes (hd : P.DateParse) (hformat : ∀ f t, P.validFormat f t = true) :
    PassesChecks P E 3 JsMap.empty (genuineCredential P E).toJson
      (signedVc P E 2 genuineInput).fields where
  first := rfl
  schema := validateCredential_wrap hformat 2 _ _ _ _ rfl rfl rfl
  notRevoked := ⟨some (.str (lit "active")), rfl, rfl⟩
  notExpired := beforeEnd_oneYear hd 3

/-- Its issuer and its method name one key. -/
theorem genuine_agrees {keyOf : Str → Except Thrown Bytes}
    (hdid : ∀ k, keyOf (didKeyFromPublicKey P k).did = .ok k)
    (hmethod : ∀ k, keyOf ((didKeyFromPublicKey P k).did ++ lit "#key-1") = .ok k) {method : Str}
    (h : VerifiesUnderMethod P keyOf (signedVc P E 2 genuineInput).fields method) :
    KeysAgree keyOf (signedVc P E 2 genuineInput).fields method := by
  obtain ⟨_, _, hproof, _⟩ := h
  obtain ⟨rfl, _⟩ := hproof.unique (signedVc_hasProof 2 genuineInput)
  exact ⟨_, _, rfl, hdid _, hmethod _⟩

end

/-- What the service issued passes, and is the issuer's to both verifiers. -/
theorem authentic_iff_issued :
    (∃ result vc issuer, verifyCredential Reference.primitives Reference.env 3 JsMap.empty
      (genuineCredential Reference.primitives Reference.env).toJson = .ok result ∧
      result.valid = true ∧
      readFirst ((genuineCredential Reference.primitives Reference.env).toJson.prop
        (lit "claims")) = .ok (some (.obj vc)) ∧ result.issuer = .str issuer ∧
      Authentic Reference.primitives (issuerPublicKeyFor Reference.primitives) vc issuer) ∧
      verifyEmbeddedCredential Reference.primitives
        (signedVc Reference.primitives Reference.env 2 genuineInput).fields = true ∧
      ∃ issuer, Authentic Reference.primitives (keyOfMethod Reference.primitives)
        (signedVc Reference.primitives Reference.env 2 genuineInput).fields issuer := by
  have haccepted : verifyEmbeddedCredential Reference.primitives
      (signedVc Reference.primitives Reference.env 2 genuineInput).fields = true :=
    App.Crypto.verifyEmbeddedCredential_issued Reference.ed25519 Reference.base58 2 genuineInput
  have hpasses := genuine_passes (E := Reference.env) Reference.dateParse fun _ _ => rfl
  obtain ⟨result, hresult, hvalid, _⟩ := hpasses.valid
    (verifyVcSignature_issued Reference.ed25519 Reference.base58 2 genuineInput)
  obtain ⟨hserver, hbrowser⟩ := authentic_iff (E := Reference.env) Reference.unforgeable
  obtain ⟨vc, issuer, hfirst, hissuer, hauth⟩ :=
      (hserver 3 JsMap.empty _).mpr (fun vc method hpasses' hmethod => by
    cases hpasses'.first.symm.trans hpasses.first
    exact genuine_agrees (issuerPublicKeyFor_did Reference.base58) (fun k =>
      issuerPublicKeyFor_method Reference.base58 k (lit "key-1")) hmethod) result hresult hvalid
  refine ⟨⟨result, vc, issuer, hresult, hvalid, hfirst, hissuer, hauth⟩, haccepted,
    (hbrowser _).mpr (fun method _ _ hmethod => ?_) haccepted⟩
  exact genuine_agrees (App.Crypto.keyOfMethod_alone Reference.base58)
    (fun k => App.Crypto.keyOfMethod_did Reference.base58 k (lit "key-1")) hmethod

end Wayfinder.Service.Credentials
