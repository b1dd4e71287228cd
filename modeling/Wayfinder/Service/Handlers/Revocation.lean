import Wayfinder.Service.Handlers.Issuance

/-! Revocation, and who it reaches.

The store keeps the status under the id of the wrapper, and the issuer signs the
credential inside. A revoked credential in a wrapper with another id is looked up under
that id, so its verdict is that of a credential that was never revoked. When exactly a
presentation of a revoked credential is refused is `revoked_refused_iff`. -/
namespace Wayfinder.Service.Handlers

open Js Envelope Credentials

variable {P : Primitives} {E : Env}

/-- The service knows a presented credential by its id as revoked, or does not know it and
it says itself that it is revoked or says nothing. -/
def RefusedByStatus (P : Primitives) (E : Env) (requests : List Request)
    (presented : Json) : Prop :=
  (∃ id, presented.prop (lit "id") = some (.str id) ∧ id ∈ revocations (history P E requests)) ∨
  (getCredential (after P E requests).credentials (presented.prop (lit "id")) = none ∧
    ∀ status, readProp (presented.prop (lit "state")) (lit "status") = .ok status →
      isRevoked status = true)

theorem refusedByStatus_iff {requests : List Request} (h : Stored P E requests) (presented : Json) :
    RefusedByStatus P E requests presented ↔
      ∀ status, statusOf (after P E requests).credentials presented = .ok status →
        isRevoked status = true := by
  unfold statusOf
  cases hget : getCredential (after P E requests).credentials (presented.prop (lit "id")) with
  | none =>
    constructor
    · intro hrefused
      rcases hrefused with ⟨id, hid, hmem⟩ | ⟨_, hstatus⟩
      · have := h.revoked id hmem
        rw [hid] at hget
        rw [show (after P E requests).credentials.get id = none from hget] at this
        cases this
      · exact hstatus
    · exact fun hstatus => .inr ⟨hget, hstatus⟩
  | some c =>
    obtain ⟨id, hid, hc⟩ : ∃ id, presented.prop (lit "id") = some (.str id) ∧
        (after P E requests).credentials.get id = some c := by
      unfold getCredential at hget
      split at hget
      · next id hid => exact ⟨id, hid, hget⟩
      · cases hget
    obtain ⟨i, hi, rfl, rfl⟩ := h.mem_get.mp hc
    have hrevoked := (h.issued i hi).isRevoked_stored (revocations (history P E requests))
    refine ⟨fun hrefused => ?_, fun hstatus => ?_⟩
    · rcases hrefused with ⟨id', hid', hmem⟩ | ⟨hnone, _⟩
      · rw [hid] at hid'
        cases hid'
        intro status hstatus
        cases hstatus
        rw [hrevoked, decide_eq_true hmem]
      · rw [hget] at hnone
        cases hnone
    · have := hstatus _ rfl
      rw [hrevoked] at this
      exact .inl ⟨_, hid, of_decide_eq_true this⟩

/-- The verdict on a claim whose signature verifies, in any wrapper: it is valid exactly when
the wrapper fits the schema, the status that counts is not `revoked`, and the claim has not
ended. -/
theorem valid_iff_of_signed (hd : P.DateParse) {vc : Vc} {t : Nat} (ht : t ≤ Date.lastInstant)
    (huntil : vc.validUntil = Date.toISOString t) (n : Nat) (s : Credentials.State)
    {presented : Json} {fields : Fields}
    (hfirst : readFirst (presented.prop (lit "claims")) = .ok (some (.obj fields)))
    (hsig : verifyVcSignature P (.obj fields) = true)
    (hfield : getField fields (lit "validUntil") = some (.str vc.validUntil)) :
    (∃ result, verifyCredential P E n s presented = .ok result ∧ result.valid = true) ↔
      (∃ status, statusOf s presented = .ok status ∧ isRevoked status = false) ∧
      validateCredential P presented = true ∧ Unexpired vc (E.clock n) := by
  have hend : beforeEnd P E n (readProp? (some (.obj fields)) (lit "validUntil")) =
      .ok (decide (E.clock n < t)) := by
    have hprop : readProp? (some (.obj fields)) (lit "validUntil") = some (.str vc.validUntil) :=
      hfield
    rw [hprop, huntil, beforeEnd_toISOString hd n ht]
  rw [unexpired_iff ht huntil]
  refine ⟨fun h => ?_, fun h => ?_⟩
  · obtain ⟨result, hresult, hvalid⟩ := h
    obtain ⟨claim', status, notExpired, hfirst', hstatus, hend', rfl⟩ :=
      verifyCredential_ok.mp hresult
    rw [hfirst] at hfirst'
    cases hfirst'
    rw [hend] at hend'
    cases hend'
    simp only [Checks.valid, checksOf, Bool.and_eq_true, Bool.not_eq_true',
      decide_eq_true_eq] at hvalid
    exact ⟨⟨status, hstatus, hvalid.1.2⟩, hvalid.1.1.1, hvalid.2⟩
  · obtain ⟨⟨status, hstatus, hrevoked⟩, hschema, hnow⟩ := h
    refine ⟨_, verifyCredential_ok.mpr ⟨_, _, _, hfirst, hstatus, hend, rfl⟩, ?_⟩
    simp [Checks.valid, checksOf, hsig, hschema, hrevoked, hnow, Json.truthy]

/-- So is the verdict on a claim that the service issued. -/
theorem valid_iff_of_issued (he : P.Ed25519) (hb : P.Base58) (hd : P.DateParse)
    {requests : List Request} {i : Issuance} (hi : IssuedIn P E requests i) {vc : Vc}
    (hvc : i.credential.claims = [vc]) (n : Nat) (s : Credentials.State) (presented claim : Json)
    (hfirst : readFirst (presented.prop (lit "claims")) = .ok (some claim))
    (hclaim : SameText vc.toJson claim) :
    (∃ result, verifyCredential P E n s presented = .ok result ∧ result.valid = true) ↔
      (∃ status, statusOf s presented = .ok status ∧ isRevoked status = false) ∧
      validateCredential P presented = true ∧ Unexpired vc (E.clock n) := by
  obtain ⟨m, input, hclaims, _, huntil⟩ := hi.claim
  rw [hvc, List.cons.injEq] at hclaims
  obtain ⟨rfl, _⟩ := hclaims
  have hsig : verifyVcSignature P claim = true :=
    verifyVcSignature_congr hclaim (verifyVcSignature_issued he hb m input)
  obtain ⟨fields, rfl⟩ := hclaim.obj_left
  obtain ⟨v, hv, hve⟩ :=
    hclaim.getField_some (k := lit "validUntil") (v := .str (signedVc P E m input).validUntil) rfl
  rw [hve.str_left] at hv
  exact valid_iff_of_signed hd (E.clock_le (m + 1)) huntil n s hfirst hsig hv

/-- An object that is presented is verified as it comes, by the clock of the request. -/
theorem credentialVerify_object {w : World} {context payload : Option Json} {fields : Fields}
    (hpresented : readProp payload (lit "credential") = .ok (some (.obj fields)))
    (result : VerificationResult) :
    (handle P E w ⟨context, .credentialVerify payload⟩).2.body = some (.verdict result) ↔
      verifyCredential P E w.draws w.credentials (.obj fields) = .ok result := by
  have hchosen : chosenCredential w.credentials payload = .ok (some (.obj fields)) := by
    simp only [chosenCredential, hpresented]
    rfl
  have htruthy : (Json.obj fields).truthy = true := rfl
  simp only [handle, credentialVerify, hchosen, htruthy]
  cases verifyCredential P E w.draws w.credentials (.obj fields) with
  | error e =>
    refine ⟨fun h => ?_, fun h => ?_⟩
    · cases h
    · cases h
  | ok r =>
    refine ⟨fun h => ?_, fun h => ?_⟩
    · cases h
      rfl
    · cases h
      rfl

/-- So is whatever has a first claim. -/
theorem credentialVerify_verdict {w : World} {context payload : Option Json}
    {presented claim : Json}
    (hpresented : readProp payload (lit "credential") = .ok (some presented))
    (hfirst : readFirst (presented.prop (lit "claims")) = .ok (some claim))
    (result : VerificationResult) :
    (handle P E w ⟨context, .credentialVerify payload⟩).2.body = some (.verdict result) ↔
      verifyCredential P E w.draws w.credentials presented = .ok result := by
  obtain ⟨fields, rfl⟩ : ∃ fields, presented = .obj fields := by
    cases presented with
    | obj fields => exact ⟨fields, rfl⟩
    | _ => cases hfirst
  exact credentialVerify_object hpresented result

/-- **A revoked credential is refused exactly when the service knows the wrapper's id as
revoked, when it does not know the id and the wrapper itself says revoked, when the wrapper
fails the schema, or when the credential has ended.** So it is refused under its own id. -/
theorem revoked_refused_iff (he : P.Ed25519) (hb : P.Base58) (hd : P.DateParse)
    (requests : List Request) (hfresh : E.FreshIds (after P E requests).draws) {i : Issuance}
    (hi : i ∈ issuances (history P E requests))
    (hrevoked : i.credential.id ∈ revocations (history P E requests)) {vc : Vc}
    (hvc : i.credential.claims = [vc]) (context payload : Option Json) {presented claim : Json}
    (hpresented : readProp payload (lit "credential") = .ok (some presented))
    (hfirst : readFirst (presented.prop (lit "claims")) = .ok (some claim))
    (hclaim : SameText vc.toJson claim) :
    ((∀ result, (handle P E (after P E requests) ⟨context, .credentialVerify payload⟩).2.body =
      some (.verdict result) → result.valid = false) ↔
      RefusedByStatus P E requests presented ∨ validateCredential P presented = false ∨
      ¬ Unexpired vc (E.clock (after P E requests).draws)) ∧
      (presented.prop (lit "id") = some (.str i.credential.id) →
        RefusedByStatus P E requests presented) := by
  refine ⟨?_, fun hid => .inl ⟨_, hid, hrevoked⟩⟩
  have hstored := stored_after requests hfresh
  have hvalid := valid_iff_of_issued he hb hd (hstored.issued i hi) hvc (after P E requests).draws
    (after P E requests).credentials presented claim hfirst hclaim
  simp only [credentialVerify_verdict hpresented hfirst]
  have hnot : (∀ result, verifyCredential P E (after P E requests).draws
      (after P E requests).credentials presented = .ok result → result.valid = false) ↔
      ¬ ∃ result, verifyCredential P E (after P E requests).draws
        (after P E requests).credentials presented = .ok result ∧ result.valid = true := by
    simp
  rw [hnot, hvalid, refusedByStatus_iff hstored]
  refine ⟨fun h => ?_, fun h hvalid => ?_⟩
  · by_contra hc
    simp only [not_or, not_forall, Bool.not_eq_true, Bool.not_eq_false, not_not] at hc
    obtain ⟨⟨status, hstatus, hnotRevoked⟩, hschema, hnow⟩ := hc
    exact h ⟨⟨status, hstatus, hnotRevoked⟩, hschema, hnow⟩
  · obtain ⟨⟨status, hstatus, hnotRevoked⟩, hschema, hnow⟩ := hvalid
    rcases h with h | h | h
    · rw [h status hstatus] at hnotRevoked
      cases hnotRevoked
    · rw [h] at hschema
      cases hschema
    · exact h hnow

/-! ### A revoked credential in another wrapper -/

section
variable (P E)

def revokeAlice : Request :=
  ⟨none, .credentialRevoke (some (.obj [(lit "credentialId", .str (aliceCredential P E none).id)]))⟩

/-- Alice's credential in a wrapper with another id. -/
def rewrapped : CredentialToken :=
  { aliceCredential P E none with id := lit "urn:example:rewrapped" }

variable {P E}

theorem handle_revokeAlice (h : Reliable P E) :
    handle P E (after P E (deedBefore P E none)) (revokeAlice P E) =
      ({ deedWorld P E none with
          credentials := (deedWorld P E none).credentials.set (aliceCredential P E none).id
            (aliceCredential P E none).revoked
          draws := 22 },
        .answered (ok E 20 none
          (.status (aliceCredential P E none).id (some (.str (lit "revoked")))) 200)) := by
  have hget : (deedWorld P E none).credentials.get (aliceCredential P E none).id =
      some (aliceCredential P E none) :=
    JsMap.get_set_self _ _ _
  have hrevoke := credentialRevoke_succeeds (P := P) (E := E) (w := deedWorld P E none) none
    (some (.obj [(lit "credentialId", .str (aliceCredential P E none).id)])) rfl hget
  rw [after_deedBefore h]
  exact hrevoke

/-- Alice's credential is issued, and then revoked. -/
theorem alice_revoked (h : Reliable P E) :
    issuances (history P E (deedBefore P E none ++ [revokeAlice P E])) =
      [⟨(aliceAccount P E).did, aliceCredential P E none⟩] ∧
      revocations (history P E (deedBefore P E none ++ [revokeAlice P E])) =
        [(aliceCredential P E none).id] := by
  have hhistory :
      history P E (deedBefore P E none ++ [revokeAlice P E]) = history P E (deedBefore P E none) ++
        [(revokeAlice P E, (handle P E (after P E (deedBefore P E none)) (revokeAlice P E)).2)] :=
    Machine.history_snoc _ _ _
  have hnone : revocations (history P E (deedBefore P E none)) = [] := rfl
  rw [hhistory, issuances_snoc, revocations_snoc, issuances_deedBefore h, hnone,
    handle_revokeAlice h]
  exact ⟨rfl, rfl⟩

/-- Alice's credential is issued and revoked, and no longer valid in its own wrapper. -/
theorem revoked_refused_iff_alice :
    ¬ ∃ result, (handle Reference.primitives Reference.env (after Reference.primitives Reference.env
      (deedBefore Reference.primitives Reference.env none ++ [revokeAlice Reference.primitives
        Reference.env])) ⟨none, .credentialVerify (some (.obj [(lit "credential",
          (aliceCredential Reference.primitives Reference.env none).toJson)]))⟩).2.body =
      some (.verdict result) ∧ result.valid = true := by
  have h := revoked_refused_iff Reference.ed25519 Reference.base58 Reference.dateParse (deedBefore
    Reference.primitives Reference.env none ++ [revokeAlice Reference.primitives Reference.env])
    (Reference.freshIds _) (i := ⟨_, aliceCredential Reference.primitives Reference.env none⟩)
    (by rw [(alice_revoked reliable_reference).1]; exact List.mem_singleton_self _)
    (by rw [(alice_revoked reliable_reference).2]; exact List.mem_singleton_self _) rfl none (some
      (.obj [(lit "credential", (aliceCredential Reference.primitives Reference.env none).toJson)]))
    rfl rfl (SameText.refl _)
  intro hvalid
  obtain ⟨result, hresult, hvalid⟩ := hvalid
  rw [h.1.mpr (.inl (h.2 rfl)) result hresult] at hvalid
  cases hvalid

/-- The signature is over the claim alone, and the service does not know the new id: the
rewrapped credential gets a valid verdict after its revocation. -/
theorem rewrapped_valid (h : Reliable P E) : ∃ result,
    (handle P E (after P E (deedBefore P E none ++ [revokeAlice P E]))
      ⟨none, .credentialVerify (some (.obj [(lit "credential", (rewrapped P E).toJson)]))⟩).2.body =
        some (.verdict result) ∧ result.valid = true := by
  have hafter : after P E (deedBefore P E none ++ [revokeAlice P E]) =
      { deedWorld P E none with
        credentials := (deedWorld P E none).credentials.set (aliceCredential P E none).id
          (aliceCredential P E none).revoked
        draws := 22 } := congrArg Prod.fst (handle_revokeAlice h)
  have hissued : IssuedIn P E (deedBefore P E none ++ [revokeAlice P E]) ⟨(aliceAccount P E).did,
      aliceCredential P E none⟩ := by
    apply (stored_after _ (by rw [hafter]; exact h.fresh.mono (show 22 ≤ 44 by decide))).issued _
    rw [(alice_revoked h).1]
    exact List.mem_singleton_self _
  have hother : (aliceCredential P E none).id ≠ lit "urn:example:rewrapped" := by
    intro hsame
    have htake : (aliceCredential P E none).id.take 5 = lit "urn:u" := rfl
    rw [hsame] at htake
    exact absurd htake (by decide)
  have hunknown : ((deedWorld P E none).credentials.set (aliceCredential P E none).id
      (aliceCredential P E none).revoked).get (lit "urn:example:rewrapped") = none := by
    rw [JsMap.get_set_ne _ _ hother]
    exact JsMap.get_set_ne _ _ hother
  have hstatus : statusOf ((deedWorld P E none).credentials.set (aliceCredential P E none).id
      (aliceCredential P E none).revoked) (rewrapped P E).toJson =
      .ok (some (.str (lit "active"))) := by
    have hid : (rewrapped P E).toJson.prop (lit "id") = some (.str (lit "urn:example:rewrapped")) :=
      rfl
    simp only [statusOf, hid, getCredential, hunknown]
    rfl
  have hvalid := valid_iff_of_issued h.ed25519 h.base58 h.dateParse hissued rfl 22
    ((deedWorld P E none).credentials.set (aliceCredential P E none).id
      (aliceCredential P E none).revoked) (rewrapped P E).toJson
    (signedVc P E 14 (aliceInput P E none)).toJson rfl (SameText.refl _)
  obtain ⟨result, hresult, htrue⟩ :=
    hvalid.mpr ⟨⟨_, hstatus, by decide⟩, validateCredential_wrap h.format 14 _ _ _ _ rfl rfl rfl,
      ⟨_, E.clock_le 15, rfl, h.clock 22 (by decide)⟩⟩
  refine ⟨result, (credentialVerify_verdict rfl rfl result).mpr ?_, htrue⟩
  rw [hafter]
  exact hresult

/-- **A revoked credential is accepted in a new wrapper.** -/
theorem rewrapped_accepted :
    ∃ requests i vc presented result,
      i ∈ issuances (history Reference.primitives Reference.env requests) ∧
      i.credential.id ∈ revocations (history Reference.primitives Reference.env requests) ∧
      i.credential.claims = [vc] ∧
      readFirst (presented.prop (lit "claims")) = .ok (some vc.toJson) ∧
      (handle Reference.primitives Reference.env (after Reference.primitives Reference.env requests)
        ⟨none, .credentialVerify (some (.obj [(lit "credential", presented)]))⟩).2.body =
        some (.verdict result) ∧ result.valid = true := by
  obtain ⟨result, hresult, hvalid⟩ := rewrapped_valid reliable_reference
  obtain ⟨hissuances, hrevocations⟩ := alice_revoked reliable_reference
  refine ⟨_, ⟨(aliceAccount Reference.primitives Reference.env).did,
    aliceCredential Reference.primitives Reference.env none⟩, _, _, result, ?_, ?_, rfl, rfl,
    hresult, hvalid⟩
  · rw [hissuances]
    exact List.mem_singleton_self _
  · rw [hrevocations]
    exact List.mem_singleton_self _

end

end Wayfinder.Service.Handlers
