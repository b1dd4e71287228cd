import Wayfinder.Service.Handlers.Succeeds

/-! The credential store against the history of a run.

`issuances` are the credentials a run issued, in order, and `revocations` the ids it
revoked. The store holds exactly the issued credentials, in that order, the revoked ones
with their new status and all else unchanged (`Stored`): no other request writes to it. -/
namespace Wayfinder.Service.Handlers

open Js Envelope Credentials

/-! ### What a history says of credentials -/

structure Issuance where
  holderDid : Str
  credential : CredentialToken

def issuanceOf : Request × Outcome → Option Issuance
  | (⟨_, .credentialIssue payload⟩, outcome) =>
    match readProp? payload (lit "holderDid"), outcome.body with
    | some (.str holderDid), some (.credential credential) => some ⟨holderDid, credential⟩
    | _, _ => none
  | _ => none

def revocationOf : Request × Outcome → Option Str
  | (⟨_, .credentialRevoke payload⟩, outcome) =>
    match readProp payload (lit "credentialId"), outcome.body with
    | .ok (some (.str id)), some (.status _ _) => some id
    | _, _ => none
  | _ => none

/-- The credentials that were issued, in order. -/
def issuances (events : List (Request × Outcome)) : List Issuance := events.filterMap issuanceOf

/-- The ids that were revoked. -/
def revocations (events : List (Request × Outcome)) : List Str := events.filterMap revocationOf

/-- The credential as the store holds it when some ids are revoked. -/
def Issuance.stored (revoked : List Str) (i : Issuance) : CredentialToken :=
  if i.credential.id ∈ revoked then i.credential.revoked else i.credential

theorem issuances_snoc (events : List (Request × Outcome)) (event : Request × Outcome) :
    issuances (events ++ [event]) = issuances events ++ (issuanceOf event).toList := by
  rw [issuances, List.filterMap_append, List.filterMap_cons]
  cases issuanceOf event <;> rfl

theorem revocations_snoc (events : List (Request × Outcome)) (event : Request × Outcome) :
    revocations (events ++ [event]) = revocations events ++ (revocationOf event).toList := by
  rw [revocations, List.filterMap_append, List.filterMap_cons]
  cases revocationOf event <;> rfl

theorem body_quiet {outcome : Outcome} (h : outcome.reports = false) {body : Body}
    (hbody : outcome.body = some body) :
    body.reports = false := by
  rw [Outcome.reports, hbody] at h
  exact h

theorem issuanceOf_quiet {request : Request} {outcome : Outcome} (h : outcome.reports = false) :
    issuanceOf (request, outcome) = none := by
  obtain ⟨context, payload⟩ := request
  cases payload with
  | credentialIssue payload =>
    simp only [issuanceOf]
    split
    · next hbody => exact absurd (body_quiet h hbody) (by simp [Body.reports])
    · rfl
  | _ => rfl

theorem revocationOf_quiet {request : Request} {outcome : Outcome} (h : outcome.reports = false) :
    revocationOf (request, outcome) = none := by
  obtain ⟨context, payload⟩ := request
  cases payload with
  | credentialRevoke payload =>
    simp only [revocationOf]
    split
    · next hbody => exact absurd (body_quiet h hbody) (by simp [Body.reports])
    · rfl
  | _ => rfl

/-! ### Revoking -/

theorem setField_setField (fs : Fields) (k : Str) (v : Json) :
    setField (setField fs k v) k v = setField fs k v := by
  induction fs with
  | nil => simp [setField]
  | cons p rest ih =>
    obtain ⟨k', w⟩ := p
    by_cases hk : k' = k
    · simp [setField, hk]
    · simp [setField, hk, ih]

theorem revoked_revoked (c : CredentialToken) : c.revoked.revoked = c.revoked := by
  simp only [CredentialToken.revoked, setField_setField]

theorem stored_revoked (revoked : List Str) (i : Issuance) :
    (i.stored revoked).revoked = i.credential.revoked := by
  unfold Issuance.stored
  split
  · exact revoked_revoked _
  · rfl

/-- Revocation leaves the id, the claims and the identities alone. -/
theorem stored_same (revoked : List Str) (i : Issuance) :
    (i.stored revoked).id = i.credential.id ∧ (i.stored revoked).claims = i.credential.claims ∧
      (i.stored revoked).identities = i.credential.identities := by
  unfold Issuance.stored
  split <;> exact ⟨rfl, rfl, rfl⟩

/-! ### The invariant -/

variable (P : Primitives) (E : Env)

/-- A credential is of an issuance that a run asked for, and the schema accepted it. -/
structure IssuedIn (requests : List Request) (i : Issuance) : Prop where
  request : ∃ context payload outcome n levelText,
    (⟨context, .credentialIssue payload⟩, outcome) ∈ history P E requests ∧
    issuanceOf (⟨context, .credentialIssue payload⟩, outcome) = some i ∧
    n + issueDraws ≤ (after P E requests).draws ∧
    i.credential = issued P E n (issueInput payload i.holderDid) levelText
  valid : validateCredential P i.credential.toJson = true

/-- The store holds what the run issued, as the run revoked it. -/
structure Stored (requests : List Request) : Prop where
  entries :
    (after P E requests).credentials.entries = (issuances (history P E requests)).map fun i =>
    (i.credential.id, i.stored (revocations (history P E requests)))
  issued : ∀ i ∈ issuances (history P E requests), IssuedIn P E requests i
  revoked : ∀ id ∈ revocations (history P E requests),
    ((after P E requests).credentials.get id).isSome

variable {P E}

theorem IssuedIn.mono {requests : List Request} {i : Issuance} (h : IssuedIn P E requests i)
    (post : List Request) :
    IssuedIn P E (requests ++ post) i := by
  obtain ⟨context, payload, outcome, n, levelText, hmem, hissue, hn, hi⟩ := h.request
  refine ⟨⟨context, payload, outcome, n, levelText, ?_, hissue,
    Nat.le_trans hn (draws_le_append _ _), hi⟩, h.valid⟩
  rw [history_append]
  exact List.mem_append_left _ hmem

theorem IssuedIn.id_eq {requests : List Request} {i : Issuance} (h : IssuedIn P E requests i) :
    ∃ n, n + issueDraws ≤ (after P E requests).draws ∧
      i.credential.id = lit "urn:uuid:cred-" ++ E.uuid (n + 2) := by
  obtain ⟨_, _, _, n, _, _, _, hn, hi⟩ := h.request
  exact ⟨n, hn, by rw [hi]; rfl⟩

theorem Stored.mem_get {requests : List Request} (h : Stored P E requests) {id : Str}
    {c : CredentialToken} :
    (after P E requests).credentials.get id = some c ↔
      ∃ i ∈ issuances (history P E requests), i.credential.id = id ∧
        c = i.stored (revocations (history P E requests)) := by
  rw [JsMap.get_eq_some, h.entries, List.mem_map]
  refine ⟨fun h => ?_, fun h => ?_⟩
  · obtain ⟨i, hi, he⟩ := h
    rw [Prod.mk.injEq] at he
    exact ⟨i, hi, he.1, he.2.symm⟩
  · obtain ⟨i, hi, hid, hc⟩ := h
    exact ⟨i, hi, by rw [hid, hc]⟩

/-- What neither issues nor revokes leaves the store as it was. -/
theorem Stored.quiet {requests : List Request} {request : Request} {outcome : Outcome}
    (h : Stored P E requests)
    (hstore : (after P E (requests ++ [request])).credentials = (after P E requests).credentials)
    (hhistory : history P E (requests ++ [request]) = history P E requests ++ [(request, outcome)])
    (hissue : issuanceOf (request, outcome) = none)
    (hrevoke : revocationOf (request, outcome) = none) :
    Stored P E (requests ++ [request]) := by
  have hi : issuances (history P E (requests ++ [request])) = issuances (history P E requests) := by
    rw [hhistory, issuances_snoc, hissue, Option.toList_none, List.append_nil]
  have hr :
      revocations (history P E (requests ++ [request])) = revocations (history P E requests) := by
    rw [hhistory, revocations_snoc, hrevoke, Option.toList_none, List.append_nil]
  constructor
  · rw [hstore, hi, hr, h.entries]
  · rw [hi]
    exact fun i hmem => (h.issued i hmem).mono _
  · rw [hr, hstore]
    exact h.revoked

/-- The id of an issuance is new. -/
theorem Stored.unissued {requests : List Request} (h : Stored P E requests) {n : Nat}
    (hfresh : E.FreshIds n) (hn : (after P E requests).draws + 2 < n) :
    (after P E requests).credentials.get
      (lit "urn:uuid:cred-" ++ E.uuid ((after P E requests).draws + 2)) = none := by
  cases hget : (after P E requests).credentials.get
      (lit "urn:uuid:cred-" ++ E.uuid ((after P E requests).draws + 2)) with
  | none => rfl
  | some c =>
    obtain ⟨i, hi, hid, _⟩ := h.mem_get.mp hget
    obtain ⟨m, hm, hid'⟩ := (h.issued i hi).id_eq
    rw [hid'] at hid
    have hd : issueDraws = 4 := rfl
    have := hfresh (m + 2) _ (by omega) hn (List.append_cancel_left hid)
    omega

theorem Stored.issue {requests : List Request} {request : Request} {outcome : Outcome}
    (h : Stored P E requests)
    (hhistory : history P E (requests ++ [request]) = history P E requests ++ [(request, outcome)])
    {i : Issuance} (hissue : issuanceOf (request, outcome) = some i)
    (hrevoke : revocationOf (request, outcome) = none) (hi : IssuedIn P E (requests ++ [request]) i)
    (hnew : (after P E requests).credentials.get i.credential.id = none)
    (hstore : (after P E (requests ++ [request])).credentials =
      (after P E requests).credentials.set i.credential.id i.credential) :
    Stored P E (requests ++ [request]) := by
  have hissuances : issuances (history P E (requests ++ [request])) =
      issuances (history P E requests) ++ [i] := by
    rw [hhistory, issuances_snoc, hissue, Option.toList_some]
  have hrevocations :
      revocations (history P E (requests ++ [request])) = revocations (history P E requests) := by
    rw [hhistory, revocations_snoc, hrevoke, Option.toList_none, List.append_nil]
  have hunrevoked : i.credential.id ∉ revocations (history P E requests) := by
    intro hmem
    have := h.revoked _ hmem
    rw [hnew] at this
    cases this
  constructor
  · rw [hstore, JsMap.entries_set_new _ hnew, hissuances, hrevocations, List.map_append, h.entries]
    simp [Issuance.stored, hunrevoked]
  · intro j hj
    rw [hissuances] at hj
    rcases List.mem_append.mp hj with hj | hj
    · exact (h.issued j hj).mono _
    · exact List.mem_singleton.mp hj ▸ hi
  · intro id hid
    rw [hrevocations] at hid
    obtain ⟨c, hc⟩ := Option.isSome_iff_exists.mp (h.revoked id hid)
    rw [hstore, JsMap.get_set_new _ hnew hc]
    rfl

theorem Stored.revoke {requests : List Request} {request : Request} {outcome : Outcome}
    (h : Stored P E requests)
    (hhistory : history P E (requests ++ [request]) = history P E requests ++ [(request, outcome)])
    {id : Str} {credential : CredentialToken} (hissue : issuanceOf (request, outcome) = none)
    (hrevoke : revocationOf (request, outcome) = some id)
    (hget : (after P E requests).credentials.get id = some credential)
    (hstore : (after P E (requests ++ [request])).credentials =
      (after P E requests).credentials.set id credential.revoked) :
    Stored P E (requests ++ [request]) := by
  have hissuances :
      issuances (history P E (requests ++ [request])) = issuances (history P E requests) := by
    rw [hhistory, issuances_snoc, hissue, Option.toList_none, List.append_nil]
  have hrevocations : revocations (history P E (requests ++ [request])) =
      revocations (history P E requests) ++ [id] := by
    rw [hhistory, revocations_snoc, hrevoke, Option.toList_some]
  constructor
  · rw [hstore, JsMap.entries_set_old _ hget, hissuances, hrevocations, h.entries, List.map_map]
    refine List.map_congr_left fun i hi => ?_
    show (if i.credential.id = id then _ else _) = _
    split
    · next hid =>
      have hi : (after P E requests).credentials.get id =
          some (i.stored (revocations (history P E requests))) :=
        h.mem_get.mpr ⟨i, hi, hid, rfl⟩
      rw [hget, Option.some.injEq] at hi
      rw [hi, stored_revoked]
      simp [Issuance.stored, hid]
    · next hid => simp [Issuance.stored, hid]
  · rw [hissuances]
    exact fun i hi => (h.issued i hi).mono _
  · intro id' hid'
    rw [hrevocations] at hid'
    rw [hstore, JsMap.get_set]
    split
    · rfl
    · next hne =>
      rcases List.mem_append.mp hid' with hid' | hid'
      · exact h.revoked id' hid'
      · exact absurd (List.mem_singleton.mp hid').symm hne

/-- **The store is what the history says.** -/
theorem stored_after (requests : List Request) (hfresh : E.FreshIds (after P E requests).draws) :
    Stored P E requests := by
  refine run_induction (F := E.FreshIds) (fun hmn h => h.mono hmn)
    ⟨rfl, (fun i hi => nomatch hi), (fun id hid => nomatch hid)⟩ ?_ requests hfresh
  intro requests request outcome hchange hhistory hfresh h
  generalize hw : after P E (requests ++ [request]) = w' at hchange
  cases hchange with
  | quiet _ hquiet =>
    exact h.quiet (by rw [hw]) hhistory (issuanceOf_quiet hquiet) (revocationOf_quiet hquiet)
  | created => exact h.quiet (by rw [hw]) hhistory rfl rfl
  | registered => exact h.quiet (by rw [hw]) hhistory rfl rfl
  | minted => exact h.quiet (by rw [hw]) hhistory rfl rfl
  | moved => exact h.quiet (by rw [hw]) hhistory rfl rfl
  | @issued context payload holderDid credentials credential hholder hissue =>
    obtain ⟨levelText, hcredential, hset, hvalid⟩ := issueCredential_ok hissue
    have hw' : (after P E (requests ++ [⟨context, .credentialIssue payload⟩])).draws =
        (after P E requests).draws + issueDraws + responseDraws := by rw [hw]
    have hid : credential.id = lit "urn:uuid:cred-" ++ E.uuid ((after P E requests).draws + 2) := by
      rw [hcredential]
      rfl
    have hissuance : issuanceOf (⟨context, .credentialIssue payload⟩, .answered (ok E
        ((after P E requests).draws + issueDraws) context (.credential credential) 201)) =
          some ⟨holderDid, credential⟩ := by
      simp only [issuanceOf, hholder]
      rfl
    refine h.issue hhistory hissuance rfl ⟨⟨context, payload, _, _, levelText, ?_, hissuance, ?_,
      hcredential⟩, hvalid⟩ ?_ ?_
    · rw [hhistory]
      exact List.mem_append_right _ (List.mem_singleton_self _)
    · rw [hw']
      omega
    · have hd : issueDraws = 4 := rfl
      rw [hid]
      exact h.unissued hfresh (by rw [hw']; omega)
    · rw [hw]
      exact hset
  | @revoked context payload id credential hid hget =>
    refine h.revoke hhistory rfl ?_ hget (by rw [hw])
    simp only [revocationOf, hid]
    rfl

/-! ### Verifying what was issued -/

/-- The end of a credential is later than an instant. -/
def Unexpired (vc : Vc) (now : Nat) : Prop :=
  ∃ t, t ≤ Date.lastInstant ∧ vc.validUntil = Date.toISOString t ∧ now < t

/-- The one claim of an issued credential is signed, and has an end. -/
theorem IssuedIn.claim {requests : List Request} {i : Issuance} (h : IssuedIn P E requests i) :
    ∃ n input, i.credential.claims = [signedVc P E n input] ∧ input.holderDid = i.holderDid ∧
      (signedVc P E n input).validUntil = Date.toISOString (E.clock (n + 1) + oneYear) := by
  obtain ⟨_, payload, _, n, levelText, _, _, _, hi⟩ := h.request
  exact ⟨n, issueInput payload i.holderDid, by rw [hi]; rfl, rfl, rfl⟩

theorem unexpired_iff {vc : Vc} {t now : Nat} (ht : t ≤ Date.lastInstant)
    (hvc : vc.validUntil = Date.toISOString t) :
    Unexpired vc now ↔ now < t := by
  constructor
  · intro h
    obtain ⟨t', ht', hvc', hnow⟩ := h
    have := Date.parseISO_toISOString ht'
    rw [← hvc', hvc, Date.parseISO_toISOString ht, Option.some.injEq] at this
    omega
  · exact fun hnow => ⟨t, ht, hvc, hnow⟩

/-- The stored status says `revoked` exactly of what was revoked. -/
theorem IssuedIn.isRevoked_stored {requests : List Request} {i : Issuance}
    (h : IssuedIn P E requests i) (revoked : List Str) :
    isRevoked (getField (i.stored revoked).state (lit "status")) =
      decide (i.credential.id ∈ revoked) := by
  unfold Issuance.stored
  split
  · next hmem =>
    show isRevoked (getField (setField i.credential.state (lit "status") (.str (lit "revoked")))
      (lit "status")) = _
    rw [getField_setField, if_pos rfl, decide_eq_true hmem]
    exact beq_self_eq_true _
  · next hmem =>
    obtain ⟨_, _, _, _, _, _, _, _, hi⟩ := h.request
    rw [hi, decide_eq_false (hi ▸ hmem)]
    rfl

/-- The deed's run issues one credential, Alice's. -/
theorem issuances_deedBefore (h : Reliable P E) :
    issuances (history P E (deedBefore P E none)) =
      [⟨(aliceAccount P E).did, aliceCredential P E none⟩] := by
  have hhistory : history P E (deedBefore P E none) =
      history P E [⟨none, .accountCreate alice⟩, ⟨none, .accountCreate bob⟩] ++
        [(⟨none, .credentialIssue (holderPayload (aliceAccount P E).did none)⟩,
          (handle P E (after P E [⟨none, .accountCreate alice⟩, ⟨none, .accountCreate bob⟩])
            ⟨none, .credentialIssue (holderPayload (aliceAccount P E).did none)⟩).2)] :=
    Machine.history_snoc (service P E) [_, _] _
  rw [hhistory, issuances_snoc, handle_issueAlice h]
  rfl

end Wayfinder.Service.Handlers
