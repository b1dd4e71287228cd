import Wayfinder.Hash.Binding
import Wayfinder.Service.Credentials.Authenticity
import Wayfinder.Service.Handlers.Revocation

/-! Which alterations of an issued credential are noticed.

The issuer signs the first claim without its proof, and nothing else of the token. With the
proof kept, the signature binds that content (`content_of_signature`); the metadata, the
identities and any further claims are held to the schema alone, so a token that names
another holder is as valid as the issued one (`reassigned_valid`). Exactly when an altered
token is refused is `altered_refused_iff`. -/
namespace Wayfinder.Service.Handlers

open Js Crypto Credentials Hash

/-! ### Altered tokens -/

/-- The claim keeps the proof of an issued one. -/
def CarriesProof (vc : Vc) (claim : Json) : Prop :=
  ∃ issuedProof proof, vc.proof = some issuedProof ∧ claim.prop (lit "proof") = some proof ∧
    SameText issuedProof.toJson proof

/-- The token is another one in its claims, its identities or its metadata. -/
def Altered (credential : CredentialToken) (presented : Json) : Prop :=
  ∃ k ∈ [lit "claims", lit "identities", lit "metadata"],
    (presented.prop k).map Json.sortKeys ≠ (credential.toJson.prop k).map Json.sortKeys

/-- What a claim says, apart from its proof. -/
def content (claim : Json) : Json := .obj (dropField claim.spread (lit "proof"))

/-- An alteration that is noticed: the first claim says something else, the schema refuses the
token, or its status does. -/
def Noticed (P : Primitives) (E : Env) (requests : List Request) (vc : Vc)
    (presented claim : Json) : Prop :=
  ¬ SameText (content vc.toJson) (content claim) ∨ validateCredential P presented = false ∨
    RefusedByStatus P E requests presented

/-- Two different hashes with one signature, under one public key. -/
def SignedAlike (P : Primitives) (hash hash' : Bytes) : Prop :=
  hash ≠ hash' ∧ ∃ p q, P.getPublicKey p = P.getPublicKey q ∧
    P.ed25519Sign hash p = P.ed25519Sign hash' q

/-- The hash of what a claim says. -/
def contentHash (P : Primitives) (claim : Json) : Bytes :=
  P.sha256 (utf8Encode (canonical (content claim)))

variable {P : Primitives} {E : Env}

theorem content_toJson (vc : Vc) : content vc.toJson = .obj vc.claimFields := by
  rw [content, Vc.toJson, Json.spread, dropField_fields]

theorem CarriesProof.hasProof {m : Nat} {input : IssueInput} {claim : Json}
    (h : CarriesProof (signedVc P E m input) claim) :
    ∃ fields, claim = .obj fields ∧ HasProof fields (issuerVerificationMethod P E)
      (bytesToHex (issuerSignature P E (unsignedVc P E m input))) := by
  obtain ⟨issuedProof, proof, hissued, hclaim, hequiv⟩ := h
  have hissued : some (proofOf P E m (bytesToHex (issuerSignature P E (unsignedVc P E m input)))) =
      some issuedProof := hissued
  obtain rfl := Option.some.inj hissued
  cases claim with
  | obj fields =>
    obtain ⟨fs, rfl⟩ := hequiv.obj_left
    obtain ⟨method, hmethod, hm⟩ :=
      hequiv.getField_some (show getField _ (lit "verificationMethod") = _ from rfl)
    obtain ⟨value, hvalue, hv⟩ :=
      hequiv.getField_some (show getField _ (lit "proofValue") = _ from rfl)
    rw [hm.str_left] at hmethod
    rw [hv.str_left] at hvalue
    exact ⟨fields, rfl, fs, hclaim, hmethod, hvalue⟩
  | _ => cases hclaim

/-! ### What the signature binds -/

/-- The same content under the same proof verifies. -/
theorem verifies_of_content (he : P.Ed25519) (hb : P.Base58) {m : Nat} {input : IssueInput}
    {fields : Fields}
    (hproof : HasProof fields (issuerVerificationMethod P E)
      (bytesToHex (issuerSignature P E (unsignedVc P E m input))))
    (hcontent : SameText (content (signedVc P E m input).toJson) (content (.obj fields))) :
    verifyVcSignature P (.obj fields) = true := by
  refine verifyVcSignature_iff.mpr ⟨fields, _, _, (issuerKeys P E).publicKey, rfl, hproof,
    issuerPublicKeyFor_method hb _ (lit "key-1"), ?_⟩
  rw [content_toJson] at hcontent
  have hhash : signedHash P fields =
      sha256Hex P (canonical (.obj (unsignedVc P E m input).claimFields)) := by
    rw [signedHash, canonical, canonical]
    exact congrArg (sha256Hex P) hcontent.stableText.symm
  rw [hhash]
  exact issuerSignature_verifies he _

/-- **A proof that still verifies is on the same content**; or two texts have one hash, or
two hashes one signature. -/
theorem content_of_signature (hb : P.Base58) (hu : P.Unforgeable) {m : Nat} {input : IssueInput}
    {fields : Fields}
    (hproof : HasProof fields (issuerVerificationMethod P E)
      (bytesToHex (issuerSignature P E (unsignedVc P E m input))))
    (hsig : verifyVcSignature P (.obj fields) = true) :
    SameText (content (signedVc P E m input).toJson) (content (.obj fields)) ∨
      Collision (sha256Hex P) [canonical (content (signedVc P E m input).toJson),
        canonical (content (.obj fields))] ∨ SignedAlike P
          (contentHash P (signedVc P E m input).toJson) (contentHash P (.obj fields)) := by
  obtain ⟨fs, method, value, pub, hfs, hproof', hpub, hverify⟩ := verifyVcSignature_iff.mp hsig
  cases hfs
  obtain ⟨rfl, rfl⟩ := hproof'.unique hproof
  have hissuer := issuerPublicKeyFor_method hb (issuerKeys P E).publicKey (lit "key-1")
  obtain rfl : (issuerKeys P E).publicKey = pub := Except.ok.inj (hissuer.symm.trans hpub)
  have hverify : P.ed25519Verify (issuerSignature P E (unsignedVc P E m input))
      (contentHash P (.obj fields)) (issuerKeys P E).publicKey = true := by
    rw [contentHash, ← verifyHashHex_sha256Hex]
    exact hverify
  obtain ⟨p, hp, hsign⟩ := hu.signed _ _ _ hverify
  have hissued : contentHash P (signedVc P E m input).toJson =
      P.sha256 (utf8Encode (canonical (.obj (unsignedVc P E m input).claimFields))) := by
    rw [contentHash, content_toJson]
    rfl
  by_cases hhash : contentHash P (signedVc P E m input).toJson = contentHash P (.obj fields)
  · by_cases htext :
      canonical (content (signedVc P E m input).toJson) = canonical (content (.obj fields))
    · exact Or.inl ((stableText_eq_iff _ _).mp htext)
    · exact Or.inr (Or.inl ⟨_, List.mem_cons_self .., _,
        List.mem_cons_of_mem _ (List.mem_singleton_self _), htext, congrArg bytesToHex hhash⟩)
  · refine Or.inr (Or.inr ⟨hhash, (issuerKeys P E).privateKey, p, hp.symm, ?_⟩)
    rw [hissued, hsign]
    rfl

/-! ### The verdict on an altered token -/

/-- A verdict on a token with the proof of an issued, unexpired credential is not valid exactly
when something is noticed. -/
theorem refused_iff_noticed (he : P.Ed25519) (hb : P.Base58) (hd : P.DateParse) (hu : P.Unforgeable)
    {requests : List Request} (hstored : Stored P E requests) {i : Issuance}
    (hi : i ∈ issuances (history P E requests)) {vc : Vc} (hvc : i.credential.claims = [vc])
    {n : Nat} (hnow : Unexpired vc (E.clock n)) {presented claim : Json}
    (hfirst : readFirst (presented.prop (lit "claims")) = .ok (some claim))
    (hproof : CarriesProof vc claim) :
    ((∀ result, verifyCredential P E n (after P E requests).credentials presented = .ok result →
      result.valid = false) ↔ Noticed P E requests vc presented claim) ∨
      Collision (sha256Hex P) [canonical (content vc.toJson), canonical (content claim)] ∨
      SignedAlike P (contentHash P vc.toJson) (contentHash P claim) := by
  obtain ⟨m, input, hclaims, _, huntil⟩ := (hstored.issued i hi).claim
  rw [hvc, List.cons.injEq] at hclaims
  obtain ⟨rfl, _⟩ := hclaims
  obtain ⟨fields, rfl, hnames⟩ := hproof.hasProof
  by_cases hconfused : Collision (sha256Hex P)
      [canonical (content (signedVc P E m input).toJson), canonical (content (.obj fields))] ∨
    SignedAlike P (contentHash P (signedVc P E m input).toJson) (contentHash P (.obj fields))
  · exact Or.inr hconfused
  left
  rw [Noticed, refusedByStatus_iff hstored]
  apply Iff.intro
  · intro hrefused
    by_contra hunnoticed
    simp only [not_or, not_not, Bool.not_eq_false, not_forall, Bool.not_eq_true] at hunnoticed
    obtain ⟨hcontent, hschema, status, hstatus, hnotRevoked⟩ := hunnoticed
    have hfield :
        getField fields (lit "validUntil") = some (.str (signedVc P E m input).validUntil) := by
      have hcontent := hcontent
      rw [content_toJson] at hcontent
      obtain ⟨v, hv, hequiv⟩ :=
        SameText.getField_some hcontent (show getField _ (lit "validUntil") =
          some (.str (signedVc P E m input).validUntil) from rfl)
      rw [hequiv.str_left] at hv
      exact (getField_dropField fields (lit "proof") (lit "validUntil")).symm.trans hv
    obtain ⟨result, hresult, hvalid⟩ :=
      (valid_iff_of_signed hd (E.clock_le (m + 1)) huntil n (after P E requests).credentials hfirst
        (verifies_of_content he hb hnames hcontent) hfield).mpr ⟨⟨status, hstatus, hnotRevoked⟩,
          hschema, hnow⟩
    rw [hrefused result hresult] at hvalid
    cases hvalid
  · intro hnoticed result hresult
    by_contra hvalid
    obtain ⟨vc, hpasses, hsig, _⟩ := passesChecks_of_valid hresult (Bool.not_eq_false _ ▸ hvalid)
    have hvc := hpasses.first
    rw [hfirst] at hvc
    cases hvc
    obtain ⟨status, hstatus, hnotRevoked⟩ := hpasses.notRevoked
    rcases hnoticed with h | h | h
    · rcases content_of_signature hb hu hnames hsig with hsame | hcoll
      · exact h hsame
      · exact hconfused hcoll
    · rw [hpasses.schema] at h
      cases h
    · rw [h status hstatus] at hnotRevoked
      cases hnotRevoked

/-- **An altered token is refused exactly when its first claim says something else, the schema
refuses it or its status does**; or two texts have one hash, or two hashes one signature.
Under the credential's own id the status does not refuse it. -/
theorem altered_refused_iff (he : P.Ed25519) (hb : P.Base58) (hd : P.DateParse) (hu : P.Unforgeable)
    (requests : List Request) (hfresh : E.FreshIds (after P E requests).draws) {i : Issuance}
    (hi : i ∈ issuances (history P E requests))
    (hactive : i.credential.id ∉ revocations (history P E requests)) {vc : Vc}
    (hvc : i.credential.claims = [vc]) {n : Nat} (hnow : Unexpired vc (E.clock n))
    {presented claim : Json} (hfirst : readFirst (presented.prop (lit "claims")) = .ok (some claim))
    (hproof : CarriesProof vc claim) :
    (((Altered i.credential presented → ∀ result,
      verifyCredential P E n (after P E requests).credentials presented = .ok result →
      result.valid = false) ↔
      (Altered i.credential presented → Noticed P E requests vc presented claim)) ∨
      Collision (sha256Hex P) [canonical (content vc.toJson), canonical (content claim)] ∨
      SignedAlike P (contentHash P vc.toJson) (contentHash P claim)) ∧
      (presented.prop (lit "id") = some (.str i.credential.id) →
        ¬ RefusedByStatus P E requests presented) := by
  have hstored := stored_after requests hfresh
  refine ⟨?_, fun hid hrefused => ?_⟩
  · exact (refused_iff_noticed he hb hd hu hstored hi hvc hnow hfirst hproof).imp_left fun h =>
      imp_congr_right fun _ => h
  · rcases hrefused with ⟨id, hid', hmem⟩ | ⟨hnone, _⟩
    · rw [hid] at hid'
      cases hid'
      exact hactive hmem
    · have hget := hstored.mem_get.mpr ⟨i, hi, rfl, rfl⟩
      rw [hid] at hnone
      rw [show (after P E requests).credentials.get i.credential.id = none from hnone] at hget
      cases hget

/-! ### A credential in another name -/

section
variable (P E)

/-- Alice's credential with Mallory as its subject and its holder. -/
def reassigned : CredentialToken :=
  { aliceCredential P E none with
    identities := [⟨(issuerInfo P E).did, lit "issuer"⟩, ⟨lit "did:example:mallory", lit "subject"⟩,
      ⟨lit "did:example:mallory", lit "holder"⟩] }

variable {P E}

theorem reassigned_altered : Altered (aliceCredential P E none) (reassigned P E).toJson := by
  refine ⟨lit "identities", by decide, fun h => ?_⟩
  have hidentities : KeyEquiv (.arr ((reassigned P E).identities.map Identity.toJson))
      (.arr ((aliceCredential P E none).identities.map Identity.toJson)) := Option.some.inj h
  rw [KeyEquiv, sortKeys_arr, sortKeys_arr, Json.arr.injEq] at hidentities
  have hsubject : KeyEquiv (Identity.toJson ⟨lit "did:example:mallory", lit "subject"⟩)
    (Identity.toJson ⟨(aliceAccount P E).did, lit "subject"⟩) :=
    (List.cons.inj (List.cons.inj hidentities).2).1
  obtain ⟨v, hv, hequiv⟩ := hsubject.getField_some (show getField _ (lit "id") = _ from rfl)
  have hv : some (.str (aliceAccount P E).did) = some v := hv
  rw [hequiv.str_left, Option.some.injEq, Json.str.injEq] at hv
  have htake : (aliceAccount P E).did.take 5 = lit "did:k" := rfl
  rw [hv] at htake
  exact absurd htake (by decide)

/-- Alice's credential is issued and not revoked. -/
theorem alice_active (h : Reliable P E) :
    ⟨(aliceAccount P E).did, aliceCredential P E none⟩ ∈
      issuances (history P E (deedBefore P E none)) ∧
      (aliceCredential P E none).id ∉ revocations (history P E (deedBefore P E none)) := by
  have hnone : revocations (history P E (deedBefore P E none)) = [] := rfl
  rw [issuances_deedBefore h, hnone]
  exact ⟨List.mem_singleton_self _, List.not_mem_nil⟩

theorem alice_unexpired (h : Reliable P E) :
    Unexpired (signedVc P E 14 (aliceInput P E none)) (E.clock 20) :=
  ⟨_, E.clock_le 15, rfl, h.clock 20 (by decide)⟩

theorem reassigned_first : readFirst ((reassigned P E).toJson.prop (lit "claims")) =
    .ok (some (signedVc P E 14 (aliceInput P E none)).toJson) := rfl

theorem alice_carriesProof :
    CarriesProof (signedVc P E 14 (aliceInput P E none))
      (signedVc P E 14 (aliceInput P E none)).toJson :=
  ⟨_, _, rfl, getField_fields_proof _, SameText.refl _⟩

theorem reassigned_accepted (h : Reliable P E) :
    ∃ result, verifyCredential P E 20 (after P E (deedBefore P E none)).credentials
      (reassigned P E).toJson = .ok result ∧ result.valid = true := by
  have hafter : after P E (deedBefore P E none) = deedWorld P E none := after_deedBefore h
  have hissued :
      IssuedIn P E (deedBefore P E none) ⟨(aliceAccount P E).did, aliceCredential P E none⟩ :=
    (stored_after _ (by rw [hafter]; exact h.fresh.mono (show 20 ≤ 44 by decide))).issued
      _ (alice_active h).1
  have hget : (deedWorld P E none).credentials.get (reassigned P E).id =
      some (aliceCredential P E none) :=
    JsMap.get_set_self _ _ _
  have hstatus : statusOf (deedWorld P E none).credentials (reassigned P E).toJson =
      .ok (some (.str (lit "active"))) := by
    have hid : (reassigned P E).toJson.prop (lit "id") = some (.str (reassigned P E).id) := rfl
    simp only [statusOf, hid, getCredential, hget]
    rfl
  rw [hafter]
  exact (valid_iff_of_issued h.ed25519 h.base58 h.dateParse hissued rfl 20
    (deedWorld P E none).credentials (reassigned P E).toJson
    (signedVc P E 14 (aliceInput P E none)).toJson rfl (SameText.refl _)).mpr
    ⟨⟨_, hstatus, by decide⟩, validateCredential_wrap h.format 14
      { aliceInput P E none with holderDid := lit "did:example:mallory" } _ _ _ rfl rfl rfl,
      alice_unexpired h⟩

/-- **Alice's credential is valid in Mallory's name.** -/
theorem reassigned_valid :
    ⟨(aliceAccount Reference.primitives Reference.env).did,
      aliceCredential Reference.primitives Reference.env none⟩ ∈ issuances (history
        Reference.primitives Reference.env (deedBefore Reference.primitives Reference.env none)) ∧
      (aliceCredential Reference.primitives Reference.env none).id ∉ revocations (history
        Reference.primitives Reference.env (deedBefore Reference.primitives Reference.env none)) ∧
      (aliceCredential Reference.primitives Reference.env none).claims =
        [signedVc Reference.primitives Reference.env 14
          (aliceInput Reference.primitives Reference.env none)] ∧
      Unexpired (signedVc Reference.primitives Reference.env 14
        (aliceInput Reference.primitives Reference.env none)) (Reference.env.clock 20) ∧
      readFirst ((reassigned Reference.primitives Reference.env).toJson.prop (lit "claims")) =
        .ok (some (signedVc Reference.primitives Reference.env 14
          (aliceInput Reference.primitives Reference.env none)).toJson) ∧
      Altered (aliceCredential Reference.primitives Reference.env none)
        (reassigned Reference.primitives Reference.env).toJson ∧
      ∃ result, verifyCredential Reference.primitives Reference.env 20 (after Reference.primitives
        Reference.env (deedBefore Reference.primitives Reference.env none)).credentials
        (reassigned Reference.primitives Reference.env).toJson = .ok result ∧ result.valid = true :=
  ⟨(alice_active reliable_reference).1, (alice_active reliable_reference).2,
    rfl, alice_unexpired reliable_reference,
    reassigned_first, reassigned_altered, reassigned_accepted reliable_reference⟩

/-- Nothing in Mallory's token is noticed. -/
theorem altered_refused_iff_reassigned :
    ¬ Noticed Reference.primitives Reference.env
      (deedBefore Reference.primitives Reference.env none) (signedVc Reference.primitives
        Reference.env 14 (aliceInput Reference.primitives Reference.env none))
      (reassigned Reference.primitives Reference.env).toJson (signedVc Reference.primitives
        Reference.env 14 (aliceInput Reference.primitives Reference.env none)).toJson := by
  have h := altered_refused_iff Reference.ed25519 Reference.base58 Reference.dateParse
    Reference.unforgeable (deedBefore Reference.primitives Reference.env none)
    (Reference.freshIds _) (i := ⟨(aliceAccount Reference.primitives Reference.env).did,
      aliceCredential Reference.primitives Reference.env none⟩) (alice_active reliable_reference).1
    (alice_active reliable_reference).2 rfl (alice_unexpired reliable_reference) reassigned_first
    alice_carriesProof
  obtain ⟨result, hresult, hvalid⟩ := reassigned_accepted reliable_reference
  intro hnoticed
  rcases h.1 with h | hcollision | hsigned
  · rw [h.mpr (fun _ => hnoticed) reassigned_altered result hresult] at hvalid
    cases hvalid
  · obtain ⟨s, hs, t, ht, hne, _⟩ := hcollision
    simp only [List.mem_cons, List.not_mem_nil, or_false, or_self] at hs ht
    exact hne (hs.trans ht.symm)
  · exact hsigned.1 rfl

end

end Wayfinder.Service.Handlers
