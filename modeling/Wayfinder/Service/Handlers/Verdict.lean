import Wayfinder.Service.Handlers.Revocation

/-! The verdict on a stored credential, over its whole life.

Once a credential is issued its verdict depends on two things: whether it was asked to be
revoked since, and whether the clock has reached its end. Neither is ever undone, so a
credential that is no longer valid never is again (`verdict_settled`). -/
namespace Wayfinder.Service.Handlers

open Js Envelope Credentials

variable {P : Primitives} {E : Env}

/-! ### Being asked to revoke -/

/-- The id that a request asks to revoke. -/
def Request.revokes (request : Request) : Option Str :=
  match request.payload with
  | .credentialRevoke payload =>
    match readProp payload (lit "credentialId") with
    | .ok (some (.str id)) => some id
    | _ => none
  | _ => none

theorem revokes_of_revocationOf {request : Request} {outcome : Outcome} {id : Str}
    (h : revocationOf (request, outcome) = some id) : request.revokes = some id := by
  obtain ⟨context, payload⟩ := request
  cases payload with
  | credentialRevoke payload =>
    simp only [revocationOf] at h
    split at h
    · next hid _ =>
      simp only [Request.revokes, hid]
      exact h
    · cases h
  | _ => cases h

/-- A stored credential is revoked by whoever asks. -/
theorem revocationOf_of_revokes {w : World} {request : Request} {id : Str}
    {credential : CredentialToken} (h : request.revokes = some id)
    (hget : w.credentials.get id = some credential) :
    revocationOf (request, (handle P E w request).2) = some id := by
  obtain ⟨context, payload⟩ := request
  cases payload with
  | credentialRevoke payload =>
    simp only [Request.revokes] at h
    split at h
    · next id' hid =>
      cases h
      have hrevoke := credentialRevoke_succeeds (P := P) (E := E) context payload hid hget
      simp only [revocationOf, hid, hrevoke]
      rfl
    · cases h
  | _ => cases h

theorem issuances_append {pre : List Request} {i : Issuance} (h : i ∈ issuances (history P E pre))
    (post : List Request) : i ∈ issuances (history P E (pre ++ post)) := by
  rw [history_append, issuances, List.filterMap_append]
  exact List.mem_append_left _ h

/-- From its issuance on, a credential is revoked exactly when a request asked for it. -/
theorem revoked_iff_asked {pre : List Request} {i : Issuance} (hi : i ∈ issuances (history P E pre))
    (post : List Request) (hfresh : E.FreshIds (after P E (pre ++ post)).draws) :
    i.credential.id ∈ revocations (history P E (pre ++ post)) ↔
      i.credential.id ∈ revocations (history P E pre) ∨ ∃ request ∈ post,
        request.revokes = some i.credential.id := by
  induction post using List.reverseRecOn with
  | nil => simp
  | append_singleton post request ih =>
    have hdraws := draws_le_append (P := P) (E := E) (pre ++ post) [request]
    rw [← List.append_assoc] at hfresh ⊢
    have ih := ih (hfresh.mono hdraws)
    have hstored := stored_after (pre ++ post) (hfresh.mono hdraws)
    have hget := hstored.mem_get.mpr ⟨i, issuances_append hi post, rfl, rfl⟩
    have hlast : i.credential.id ∈
        (revocationOf (request, (handle P E (after P E (pre ++ post)) request).2)).toList ↔
          request.revokes = some i.credential.id := by
      rw [Option.mem_toList]
      exact ⟨revokes_of_revocationOf, fun h => revocationOf_of_revokes h hget⟩
    have hhistory : history P E (pre ++ post ++ [request]) = history P E (pre ++ post) ++
        [(request, (handle P E (after P E (pre ++ post)) request).2)] := Machine.history_snoc _ _ _
    rw [hhistory, revocations_snoc, List.mem_append, ih, hlast]
    simp only [List.mem_append, List.mem_singleton, or_and_right, exists_or,
      exists_eq_left, or_assoc]

/-! ### Being issued -/

/-- Only an issuance answers with a credential, under an id that no one has revoked. -/
theorem issued_of_body {pre : List Request} {request : Request} {credential : CredentialToken}
    (hbody : (handle P E (after P E pre) request).2.body = some (.credential credential))
    (hfresh : E.FreshIds (after P E (pre ++ [request])).draws) :
    ∃ i ∈ issuances (history P E (pre ++ [request])), i.credential = credential ∧
      i.credential.id ∉ revocations (history P E (pre ++ [request])) := by
  obtain ⟨outcome, hchange, hhistory⟩ := after_snoc_change (P := P) (E := E) pre request
  have hstored := stored_after pre (hfresh.mono (draws_le_append pre [request]))
  rw [outcome_eq hhistory] at hbody
  rw [hhistory, issuances_snoc, revocations_snoc]
  generalize hw : after P E (pre ++ [request]) = w' at hchange hfresh
  cases hchange with
  | quiet _ hquiet => exact absurd (body_quiet hquiet hbody) (by simp [Body.reports])
  | @issued context payload holderDid credentials c hholder hissue =>
    cases hbody
    obtain ⟨levelText, hcredential, _, _⟩ := issueCredential_ok hissue
    have hid : credential.id = lit "urn:uuid:cred-" ++ E.uuid ((after P E pre).draws + 2) := by
      rw [hcredential]
      rfl
    have hnew : (after P E pre).credentials.get credential.id = none := by
      rw [hid]
      refine hstored.unissued hfresh ?_
      show (after P E pre).draws + 2 < (after P E pre).draws + 4 + 2
      omega
    refine ⟨⟨holderDid, credential⟩, List.mem_append_right _ ?_, rfl, fun hmem => ?_⟩
    · simp only [issuanceOf, hholder]
      exact List.mem_singleton_self _
    · rcases List.mem_append.mp hmem with hmem | hmem
      · have hknown := hstored.revoked _ hmem
        rw [hnew] at hknown
        cases hknown
      · cases hmem
  | _ => cases hbody

/-! ### The verdict -/

/-- The verdict on the stored credential of an id, with the clock read at the draw `n`. -/
def StoredVerdict (P : Primitives) (E : Env) (requests : List Request) (n : Nat) (id : Str)
    (result : VerificationResult) : Prop :=
  ∃ stored, (after P E requests).credentials.get id = some stored ∧
    verifyCredential P E n (after P E requests).credentials stored.toJson = .ok result

/-- A verdict that depends on a revocation and on the time, and on nothing else. -/
structure Settled (vc : Vc) (revoked : Prop) (now : Nat) (result : VerificationResult) : Prop where
  schemaValid : result.checks.schemaValid = true
  signatureValid : result.checks.signatureValid = true
  notRevoked : result.checks.notRevoked = true ↔ ¬ revoked
  notExpired : result.checks.notExpired = true ↔ Unexpired vc now
  valid : result.valid = true ↔ ¬ revoked ∧ Unexpired vc now

theorem Unexpired.mono {vc : Vc} {now later : Nat} (h : Unexpired vc later) (hle : now ≤ later) :
    Unexpired vc now := by
  obtain ⟨t, ht, huntil, hlater⟩ := h
  exact ⟨t, ht, huntil, Nat.lt_of_le_of_lt hle hlater⟩

/-- The verdict on what a run issued. -/
theorem settled_after (he : P.Ed25519) (hb : P.Base58) (hd : P.DateParse) {requests : List Request}
    (hfresh : E.FreshIds (after P E requests).draws) {i : Issuance}
    (hi : i ∈ issuances (history P E requests)) {vc : Vc} (hvc : i.credential.claims = [vc])
    (n : Nat) :
    ∃ result, StoredVerdict P E requests n i.credential.id result ∧
      Settled vc (i.credential.id ∈ revocations (history P E requests)) (E.clock n) result := by
  have hstored := stored_after requests hfresh
  have hissued := hstored.issued i hi
  obtain ⟨m, input, hclaims, _, huntil⟩ := hissued.claim
  rw [hvc, List.cons.injEq] at hclaims
  obtain ⟨rfl, _⟩ := hclaims
  obtain ⟨hid, hsame, _⟩ := stored_same (revocations (history P E requests)) i
  have hget :
      (after P E requests).credentials.get (i.stored (revocations (history P E requests))).id =
        some (i.stored (revocations (history P E requests))) := by
    rw [hid]
    exact hstored.mem_get.mpr ⟨i, hi, rfl, rfl⟩
  have hschema :
      validateCredential P (i.stored (revocations (history P E requests))).toJson = true := by
    unfold Issuance.stored
    split
    · exact validateCredential_revoked hissued.valid
    · exact hissued.valid
  obtain ⟨result, hverify, hchecks, hvalid⟩ := verifyCredential_stored hd n hget
    (hsame.trans hvc) huntil (E.clock_le (m + 1)) (verifyVcSignature_issued he hb m input)
  rw [hschema, hissued.isRevoked_stored] at hchecks
  refine ⟨result, ⟨_, hid ▸ hget, hverify⟩, ?_⟩
  have hunexpired : Unexpired _ (E.clock n) ↔ _ := unexpired_iff (E.clock_le (m + 1)) huntil
  rw [hchecks] at hvalid
  constructor
  · rw [hchecks]
  · rw [hchecks]
  · rw [hchecks]
    simp
  · rw [hchecks, hunexpired]
    simp
  · rw [hvalid, hunexpired]
    simp [Checks.valid]

/-- The verdict on a credential that is presented as it was issued. -/
theorem presented_settled (he : P.Ed25519) (hb : P.Base58) (hd : P.DateParse)
    {requests : List Request} (h : Stored P E requests) {i : Issuance}
    (hi : i ∈ issuances (history P E requests)) {n : Nat} {result : VerificationResult}
    (hverify : verifyCredential P E n (after P E requests).credentials i.credential.toJson =
      .ok result) :
    ∃ vc, i.credential.claims = [vc] ∧
      Settled vc (i.credential.id ∈ revocations (history P E requests)) (E.clock n) result := by
  have hissued := h.issued i hi
  obtain ⟨m, input, hclaims, _, huntil⟩ := hissued.claim
  refine ⟨_, hclaims, ?_⟩
  obtain ⟨vc, status, notExpired, hfirst, hstatus, hend, rfl⟩ := verifyCredential_ok.mp hverify
  -- the claim is the signed one, its status the stored one, and its end a year after the issuance
  have hvc : vc = some (signedVc P E m input).toJson := by
    have : readFirst (i.credential.toJson.prop (lit "claims")) =
        .ok (some (signedVc P E m input).toJson) := by
      show readFirst (some (.arr (i.credential.claims.map Vc.toJson))) = _
      rw [hclaims]
      rfl
    exact Except.ok.inj (hfirst.symm.trans this)
  subst hvc
  have hstored :
      isRevoked status = decide (i.credential.id ∈ revocations (history P E requests)) := by
    have hget := h.mem_get.mpr ⟨i, hi, rfl, rfl⟩
    have hid : i.credential.toJson.prop (lit "id") = some (.str i.credential.id) := rfl
    simp only [statusOf, hid, getCredential, hget, Except.ok.injEq] at hstatus
    rw [← hstatus, hissued.isRevoked_stored]
  have hexpiry : notExpired = decide (E.clock n < E.clock (m + 1) + oneYear) := by
    have hprop : readProp? (some (signedVc P E m input).toJson) (lit "validUntil") =
        some (.str (signedVc P E m input).validUntil) := rfl
    rw [hprop, huntil, beforeEnd_toISOString hd n (E.clock_le (m + 1))] at hend
    exact (Except.ok.inj hend).symm
  have hsigned := verifyVcSignature_issued (E := E) he hb m input
  have htruthy : (signedVc P E m input).toJson.truthy = true := rfl
  have hunexpired : Unexpired _ (E.clock n) ↔ _ := unexpired_iff (E.clock_le (m + 1)) huntil
  constructor
  · exact hissued.valid
  · exact hsigned
  · simp [checksOf, hstored]
  · simp [checksOf, hexpiry, hunexpired]
  · simp [checksOf, Checks.valid, hissued.valid, hsigned, htruthy, hstored, hexpiry, hunexpired]

theorem StoredVerdict.unique {requests : List Request} {n : Nat} {id : Str}
    {a b : VerificationResult} (ha : StoredVerdict P E requests n id a)
    (hb : StoredVerdict P E requests n id b) : a = b := by
  obtain ⟨stored, hget, hverify⟩ := ha
  obtain ⟨stored', hget', hverify'⟩ := hb
  rw [hget, Option.some.injEq] at hget'
  rw [← hget', hverify, Except.ok.injEq] at hverify'
  exact hverify'

/-- **The verdict on an issued credential depends on revocation and time alone, and never
recovers.** -/
theorem verdict_settled (he : P.Ed25519) (hb : P.Base58) (hd : P.DateParse) {pre : List Request}
    {request : Request} {credential : CredentialToken}
    (hissued : (handle P E (after P E pre) request).2.body = some (.credential credential))
    (post : List Request) (hfresh : E.FreshIds (after P E (pre ++ [request] ++ post)).draws)
    (n : Nat) :
    ∃ vc result, credential.claims = [vc] ∧
      StoredVerdict P E (pre ++ [request] ++ post) n credential.id result ∧
      Settled vc (∃ asked ∈ post, asked.revokes = some credential.id) (E.clock n) result ∧
      (result.valid = false →
        ∀ more, E.FreshIds (after P E (pre ++ [request] ++ post ++ more)).draws →
          ∀ m, E.clock n ≤ E.clock m → ∀ later,
            StoredVerdict P E (pre ++ [request] ++ post ++ more) m credential.id later →
            later.valid = false) := by
  obtain ⟨i, hi, rfl, hunrevoked⟩ := issued_of_body hissued (hfresh.mono (draws_le_append _ post))
  obtain ⟨_, _, hclaims, _, _⟩ :=
    ((stored_after _ (hfresh.mono (draws_le_append _ post))).issued i hi).claim
  have hasked := (revoked_iff_asked hi post hfresh).trans (or_iff_right hunrevoked)
  obtain ⟨result, hresult, hsettled⟩ :=
    settled_after he hb hd hfresh (issuances_append hi post) hclaims n
  refine ⟨_, result, hclaims, hresult, ?_, fun hinvalid more hmore m hclock later hlater => ?_⟩
  · rw [← hasked]
    exact hsettled
  · obtain ⟨later', hlater', hsettled'⟩ :=
      settled_after he hb hd hmore (issuances_append (issuances_append hi post) more) hclaims m
    obtain rfl := hlater.unique hlater'
    -- what was revoked stays revoked, and what had ended has ended
    have hstays := (revoked_iff_asked (issuances_append hi post) more hmore).mpr
    rw [Bool.eq_false_iff, Ne, hsettled'.valid, not_and]
    intro hnot hunexpired
    rw [hsettled.valid.mpr ⟨fun hrevoked => hnot (hstays (.inl hrevoked)), hunexpired.mono hclock⟩]
      at hinvalid
    cases hinvalid

/-- Alice's credential is signed and fits the schema to the end, and is invalid once revoked. -/
theorem verdict_settled_alice :
    ∃ result, StoredVerdict Reference.primitives Reference.env (deedBefore Reference.primitives
      Reference.env none ++ [revokeAlice Reference.primitives Reference.env]) 22
      (aliceCredential Reference.primitives Reference.env none).id result ∧
      result.checks.schemaValid = true ∧ result.checks.signatureValid = true ∧
      result.valid = false := by
  have hissued : (handle Reference.primitives Reference.env (after Reference.primitives
      Reference.env [⟨none, .accountCreate alice⟩, ⟨none, .accountCreate bob⟩]) _).2.body =
      some (.credential (aliceCredential Reference.primitives Reference.env none)) :=
    congrArg (fun r => r.2.body) (handle_issueAlice reliable_reference)
  obtain ⟨vc, result, _, hresult, hsettled, _⟩ :=
    verdict_settled Reference.ed25519 Reference.base58 Reference.dateParse hissued
      [revokeAlice Reference.primitives Reference.env] (Reference.freshIds _) 22
  refine ⟨result, hresult, hsettled.schemaValid, hsettled.signatureValid, ?_⟩
  rw [Bool.eq_false_iff, Ne, hsettled.valid, not_and_or, not_not]
  exact .inl ⟨_, List.mem_singleton_self _, rfl⟩

end Wayfinder.Service.Handlers
