import Wayfinder.Js.KeyEquiv
import Wayfinder.Service.Credentials

/-! Credentials as the service issues them.

`issued` is the credential of an issuance, signed. Its signature verifies
(`verifyVcSignature_issued`), and the verdict on a stored credential is spelled out check
by check (`verifyCredential_stored`). What a signature check reads is said once, for any
JSON value (`verifyVcSignature_iff`): the proof, and the hash of the rest. -/
namespace Wayfinder.Service.Credentials

open Js Crypto

/-! ### What a signature check reads -/

/-- The method and the signature that `proof` names. -/
def HasProof (vc : Fields) (verificationMethod proofValue : Str) : Prop :=
  ∃ proof, getField vc (lit "proof") = some (.obj proof) ∧
    getField proof (lit "verificationMethod") = some (.str verificationMethod) ∧
    getField proof (lit "proofValue") = some (.str proofValue)

theorem HasProof.congr {fs gs : Fields} (h : SameText (.obj fs) (.obj gs))
    {verificationMethod proofValue : Str} (hp : HasProof fs verificationMethod proofValue) :
    HasProof gs verificationMethod proofValue := by
  obtain ⟨proof, hproof, hmethod, hvalue⟩ := hp
  obtain ⟨j, hj, he⟩ := h.getField_some hproof
  obtain ⟨proof', rfl⟩ := he.obj_left
  obtain ⟨m, hm, hme⟩ := he.getField_some hmethod
  obtain ⟨v, hv, hve⟩ := he.getField_some hvalue
  exact ⟨proof', hj, by rw [hm, hme.str_left], by rw [hv, hve.str_left]⟩

theorem HasProof.unique {vc : Fields} {m m' v v' : Str} (h : HasProof vc m v)
    (h' : HasProof vc m' v') :
    m = m' ∧ v = v' := by
  obtain ⟨proof, hproof, hm, hv⟩ := h
  obtain ⟨proof', hproof', hm', hv'⟩ := h'
  rw [hproof] at hproof'
  cases hproof'
  rw [hm] at hm'
  rw [hv] at hv'
  cases hm'
  cases hv'
  exact ⟨rfl, rfl⟩

variable (P : Primitives) (E : Env)

/-- The hash of the fields without `proof`. -/
def signedHash (vc : Fields) : Str := sha256Hex P (canonical (.obj (dropField vc (lit "proof"))))

variable {P E}

theorem signedHash_congr {fs gs : Fields} (h : SameText (.obj fs) (.obj gs)) :
    signedHash P fs = signedHash P gs := by
  rw [signedHash, signedHash, canonical, canonical, (h.dropField _).stableText]

theorem prop_str {proof : Json} {k s : Str} (h : readProp? (some proof) k = some (.str s)) :
    ∃ fs, proof = .obj fs ∧ getField fs k = some (.str s) := by
  cases proof with
  | obj fs => exact ⟨fs, rfl, h⟩
  | _ => cases h

/-- The signature check accepts exactly an object with a proof whose method decodes to a
key under which the signature verifies. -/
theorem verifyVcSignature_iff {vc : Json} :
    verifyVcSignature P vc = true ↔ ∃ fs verificationMethod proofValue pub,
      vc = .obj fs ∧ HasProof fs verificationMethod proofValue ∧
      issuerPublicKeyFor P verificationMethod = .ok pub ∧
      verifyHashHex P pub (signedHash P fs) proofValue = true := by
  refine ⟨fun h => ?_, fun h => ?_⟩
  · simp only [verifyVcSignature] at h
    split at h
    · cases h
    · next hproof =>
      cases vc with
      | obj fs =>
        cases hp : getField fs (lit "proof") with
        | none =>
          rw [Json.prop, hp] at hproof
          exact absurd rfl hproof
        | some proof =>
          rw [Json.prop, hp] at h
          split at h
          · next m v hm hv =>
            obtain ⟨ps, rfl, hm⟩ := prop_str hm
            split at h
            · next pub hpub => exact ⟨fs, m, v, pub, rfl, ⟨ps, hp, hm, hv⟩, hpub, h⟩
            · cases h
          · cases h
      | _ => exact absurd rfl hproof
  · obtain ⟨fs, m, v, pub, rfl, ⟨ps, hp, hm, hv⟩, hpub, h⟩ := h
    simp only [verifyVcSignature, Json.prop, hp, truthy, Json.truthy, readProp?, hm, hv, hpub]
    exact h

theorem verifyVcSignature_congr {a b : Json} (h : SameText a b)
    (ha : verifyVcSignature P a = true) :
    verifyVcSignature P b = true := by
  obtain ⟨fs, m, v, pub, rfl, hproof, hpub, hv⟩ := verifyVcSignature_iff.mp ha
  obtain ⟨gs, rfl⟩ := h.obj_left
  exact verifyVcSignature_iff.mpr ⟨gs, m, v, pub, rfl, hproof.congr h, hpub,
    signedHash_congr h ▸ hv⟩

/-! ### The issuance -/

variable (P E)

/-- The signature that the issuer puts on a credential. -/
def issuerSignature (vc : Vc) : Bytes :=
  P.ed25519Sign (P.sha256 (utf8Encode (canonical (.obj vc.claimFields))))
    (issuerKeys P E).privateKey

/-- The signed credential of an issuance. -/
def signedVc (n : Nat) (input : IssueInput) : Vc :=
  { unsignedVc P E n input with
    proof := some (proofOf P E n (bytesToHex (issuerSignature P E (unsignedVc P E n input)))) }

/-- The credential token of an issuance. -/
def issued (n : Nat) (input : IssueInput) (levelText : Str) : CredentialToken :=
  wrap P E n input levelText (signedVc P E n input)

variable {P E}

theorem dropField_claimFields (vc : Vc) : dropField vc.claimFields (lit "proof") = vc.claimFields :=
  rfl

/-- The proof is no part of what is hashed. -/
theorem dropField_fields (vc : Vc) : dropField vc.fields (lit "proof") = vc.claimFields := by
  rw [Vc.fields, dropField, List.filter_append, ← dropField, dropField_claimFields]
  cases vc.proof with
  | none => exact List.append_nil _
  | some proof => exact List.append_nil _

theorem vcSigningHash_toJson (vc : Vc) :
    vcSigningHash P vc.toJson = sha256Hex P (canonical (.obj vc.claimFields)) := by
  rw [vcSigningHash, Vc.toJson, Json.spread, dropField_fields]

theorem getField_fields_proof (vc : Vc) :
    getField vc.fields (lit "proof") = vc.proof.map VcProof.toJson := by
  cases h : vc.proof <;> simp only [Vc.fields, h] <;> rfl

/-- An issuance stores the signed credential, and the schema accepts it. -/
theorem issueCredential_ok {n : Nat} {s s' : State} {input : IssueInput}
    {credential : CredentialToken} (h : issueCredential P E n s input = .ok (s', credential)) :
    ∃ levelText, credential = issued P E n input levelText ∧ s' = s.set credential.id credential ∧
      validateCredential P credential.toJson = true := by
  obtain ⟨signature, hsign, hsig⟩ :=
    signHashHex_sha256Hex (P := P) (issuerKeys P E).privateKey
      (canonical (.obj (unsignedVc P E n input).claimFields))
  simp only [issueCredential, vcSigningHash_toJson, hsign, bind_ok, Except.ok.injEq,
    exists_eq_left'] at h
  obtain ⟨levelText, _, h⟩ := h
  subst hsig
  split at h
  · next hvalid =>
    cases h
    exact ⟨levelText, rfl, rfl, hvalid⟩
  · cases h

/-- With every text of the right format, the schema accepts a credential issued without type
and level, whoever it is about, whoever signed it and under any id. -/
theorem validateCredential_wrap (hformat : ∀ f t, P.validFormat f t = true) (n : Nat)
    (input : IssueInput) (subject id : Str) (proof : VcProof)
    (htype : input.credentialType = none) (hlevel : input.verificationLevel = none)
    (hpurpose : proof.proofPurpose = lit "assertionMethod") :
    validateCredential P { wrap P E n input (lit "enhanced")
      { unsignedVc P E n input with
        credentialSubject := [(lit "id", .str subject)], proof := some proof } with
          id }.toJson = true := by
  obtain ⟨holderDid, _, _, _⟩ := input
  obtain ⟨_, _, _, _, _⟩ := proof
  have hvalid : P.validFormat = fun _ _ => true := by
    funext f t
    exact hformat f t
  rw [validateCredential, hvalid]
  cases htype
  cases hlevel
  cases hpurpose
  rfl

/-- The schema accepts a credential still once it is revoked: both statuses are among those it
lists. -/
theorem validateCredential_revoked {credential : CredentialToken}
    (h : validateCredential P credential.toJson = true) :
    validateCredential P credential.revoked.toJson = true := by
  have hmetadata :=
    Schema.record_field (k := "metadata") (s := CredentialSchema.credentialMetadata) h (by simp) rfl
  have hstate :=
    Schema.record_field (k := "state") (s := CredentialSchema.credentialState) h (by simp) rfl
  have hdeprecated : Schema.validate P.validFormat CredentialSchema.credentialMetadata
      (.obj (setField credential.metadata (lit "status") (.str (lit "deprecated")))) = true :=
    Schema.record_setField hmetadata (by decide) (by simp; rfl) rfl
  have hrevoked : Schema.validate P.validFormat CredentialSchema.credentialState
      (.obj (setField credential.state (lit "status") (.str (lit "revoked")))) = true :=
    Schema.record_setField hstate (by decide) (by simp; rfl) rfl
  have hwith := Schema.record_setField (k := "metadata")
    (s := CredentialSchema.credentialMetadata) h (by decide) (by simp) hdeprecated
  exact Schema.record_setField (k := "state") (s := CredentialSchema.credentialState) hwith
    (by decide) (by simp) hrevoked

/-- The holder of an issued credential is the one it was asked for. -/
theorem heldBy_issued (n : Nat) (input : IssueInput) (levelText did : Str) :
    (issued P E n input levelText).heldBy did = (input.holderDid == did) := by
  have hissuer : (lit "issuer" == lit "holder") = false := by decide
  have hsubject : (lit "subject" == lit "holder") = false := by decide
  have hidentities : (issued P E n input levelText).identities =
      [⟨(issuerInfo P E).did, lit "issuer"⟩, ⟨input.holderDid, lit "subject"⟩,
        ⟨input.holderDid, lit "holder"⟩] := rfl
  simp only [CredentialToken.heldBy, hidentities, List.any_cons, List.any_nil, hissuer, hsubject,
    Bool.false_and, Bool.false_or, Bool.or_false, beq_self_eq_true, Bool.true_and]

/-! ### Keys and DIDs -/

theorem did_no_hash (hb : P.Base58) (k : Bytes) : 35 ∉ (didKeyFromPublicKey P k).did := by
  show 35 ∉ lit "did:key:" ++ (lit "z" ++ P.base58Encode (ED25519_PUB_MULTICODEC ++ k))
  rw [List.mem_append, List.mem_append]
  intro h
  rcases h with h | h | h
  · exact absurd h (by decide)
  · exact absurd h (by decide)
  · exact absurd (hb.alphabet _ _ h) (by unfold Primitives.IsBase58; decide)

theorem issuerPublicKeyFor_of_split (hb : P.Base58) (k : Bytes) {verificationMethod : Str}
    (h : splitHead verificationMethod 35 = (didKeyFromPublicKey P k).did) :
    issuerPublicKeyFor P verificationMethod = .ok k := by
  rw [issuerPublicKeyFor, h]
  show publicKeyFromMultibase P (removeFirst (lit "did:key:")
    (lit "did:key:" ++ (didKeyFromPublicKey P k).publicKeyMultibase)) = _
  rw [removeFirst_append _ _ (by decide), publicKeyFromMultibase_didKey hb]

/-- A DID names its key, alone and with a fragment behind it. -/
theorem issuerPublicKeyFor_did (hb : P.Base58) (k : Bytes) :
    issuerPublicKeyFor P (didKeyFromPublicKey P k).did = .ok k :=
  issuerPublicKeyFor_of_split hb k (splitHead_self (did_no_hash hb k))

theorem issuerPublicKeyFor_method (hb : P.Base58) (k : Bytes) (fragment : Str) :
    issuerPublicKeyFor P ((didKeyFromPublicKey P k).did ++ 35 :: fragment) = .ok k :=
  issuerPublicKeyFor_of_split hb k (splitHead_append _ _ _ (did_no_hash hb k))

/-- The proof of an issued credential names the issuer's method and signature. -/
theorem signedVc_hasProof (n : Nat) (input : IssueInput) :
    HasProof (signedVc P E n input).fields (issuerVerificationMethod P E)
      (bytesToHex (issuerSignature P E (unsignedVc P E n input))) :=
  ⟨_, getField_fields_proof _, rfl, rfl⟩

theorem signedHash_signedVc (n : Nat) (input : IssueInput) :
    signedHash P (signedVc P E n input).fields =
      sha256Hex P (canonical (.obj (unsignedVc P E n input).claimFields)) := by
  rw [signedHash, dropField_fields]
  rfl

theorem issuerSignature_verifies (he : P.Ed25519) (vc : Vc) :
    verifyHashHex P (issuerKeys P E).publicKey (sha256Hex P (canonical (.obj vc.claimFields)))
      (bytesToHex (issuerSignature P E vc)) = true := by
  rw [verifyHashHex_sha256Hex]
  exact he.verify_sign _ _ (E.privateKey_length 0)

/-- The signature of an issued credential verifies. -/
theorem verifyVcSignature_issued (he : P.Ed25519) (hb : P.Base58) (n : Nat) (input : IssueInput) :
    verifyVcSignature P (signedVc P E n input).toJson = true := by
  refine verifyVcSignature_iff.mpr ⟨_, _, _, (issuerKeys P E).publicKey, rfl,
    signedVc_hasProof n input, ?_, ?_⟩
  · exact issuerPublicKeyFor_method hb _ (lit "key-1")
  · rw [signedHash_signedVc]
    exact issuerSignature_verifies he _

/-! ### The verdict -/

variable (P E)

/-- The checks of a presented credential, from its first claim, its status and its end. -/
def checksOf (credential : Json) (vc : Option Json) (status : Option Json)
    (notExpired : Bool) : Checks :=
  { schemaValid := validateCredential P credential
    signatureValid := match vc with
      | some vc => vc.truthy && verifyVcSignature P vc
      | none => false
    notRevoked := !isRevoked status
    notExpired }

variable {P E}

/-- What a verdict comes from: the first claim, the status that counts and the clock. -/
theorem verifyCredential_ok {n : Nat} {s : State} {credential : Json}
    {result : VerificationResult} :
    verifyCredential P E n s credential = .ok result ↔
      ∃ vc status notExpired, readFirst (credential.prop (lit "claims")) = .ok vc ∧
        statusOf s credential = .ok status ∧
        beforeEnd P E n (readProp? vc (lit "validUntil")) = .ok notExpired ∧
        result =
          { valid := (checksOf P credential vc status notExpired).valid
            checks := checksOf P credential vc status notExpired
            issuer := orElse (readProp? vc (lit "issuer")) (.str (issuerInfo P E).did)
            reason := reasonOf (checksOf P credential vc status notExpired) } := by
  simp only [verifyCredential, bind_ok]
  refine ⟨fun h => ?_, fun h => ?_⟩
  · obtain ⟨vc, hvc, status, hstatus, notExpired, hend, hresult⟩ := h
    cases hresult
    exact ⟨vc, status, notExpired, hvc, hstatus, hend, rfl⟩
  · obtain ⟨vc, status, notExpired, hvc, hstatus, hend, hresult⟩ := h
    exact ⟨vc, hvc, status, hstatus, notExpired, hend, hresult ▸ rfl⟩

theorem beforeEnd_toISOString (hd : P.DateParse) (n : Nat) {t : Nat} (ht : t ≤ Date.lastInstant) :
    beforeEnd P E n (some (.str (Date.toISOString t))) = .ok (decide (E.clock n < t)) := by
  have hne : Date.toISOString t ≠ [] := by simp [Date.toISOString, Date.pad4]
  have htruthy : truthy (some (.str (Date.toISOString t))) = true := by
    simpa [truthy, Json.truthy] using hne
  simp only [beforeEnd, htruthy, if_true, toText?, toText, bind, Except.bind, pure, Except.pure,
    hd t ht, Nat.cast_lt]

/-- A year from now has not come. -/
theorem beforeEnd_oneYear (hd : P.DateParse) (n : Nat) :
    beforeEnd P E n (some (.str (Date.toISOString (E.clock n + oneYear)))) = .ok true := by
  rw [beforeEnd_toISOString hd n (E.clock_le n)]
  simp [oneYear]

/-- A stored credential that the schema accepts and whose claim is signed is valid
exactly when it is not revoked and its end has not come. -/
theorem verifyCredential_stored (hd : P.DateParse) (n : Nat) {s : State}
    {credential : CredentialToken} {vc : Vc} {t : Nat}
    (hget : s.get credential.id = some credential) (hclaims : credential.claims = [vc])
    (huntil : vc.validUntil = Date.toISOString t) (ht : t ≤ Date.lastInstant)
    (hsigned : verifyVcSignature P vc.toJson = true) :
    ∃ result, verifyCredential P E n s credential.toJson = .ok result ∧
      result.checks =
        { schemaValid := validateCredential P credential.toJson, signatureValid := true
          notRevoked := !isRevoked (getField credential.state (lit "status"))
          notExpired := decide (E.clock n < t) } ∧
      result.valid = result.checks.valid := by
  have hfirst : readFirst (credential.toJson.prop (lit "claims")) = .ok (some vc.toJson) := by
    show readFirst (some (.arr (credential.claims.map Vc.toJson))) = _
    rw [hclaims]
    rfl
  have hstatus : statusOf s credential.toJson = .ok (getField credential.state (lit "status")) := by
    have hid : credential.toJson.prop (lit "id") = some (.str credential.id) := rfl
    simp only [statusOf, hid, getCredential, hget]
  have hend : beforeEnd P E n (readProp? (some vc.toJson) (lit "validUntil")) =
      .ok (decide (E.clock n < t)) := by
    have hprop : readProp? (some vc.toJson) (lit "validUntil") = some (.str vc.validUntil) := rfl
    rw [hprop, huntil, beforeEnd_toISOString hd n ht]
  refine ⟨_, verifyCredential_ok.mpr ⟨_, _, _, hfirst, hstatus, hend, rfl⟩, ?_, rfl⟩
  simp only [checksOf, hsigned, Bool.and_true]
  rfl

end Wayfinder.Service.Credentials
