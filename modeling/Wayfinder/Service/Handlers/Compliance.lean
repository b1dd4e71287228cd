import Wayfinder.Service.Handlers.Issuance

/-! The compliance hook over a run.

A class that requires KYC is minted for a holder exactly when the run issued that holder a
credential that it did not revoke and that has not ended. The hook searches the store and
verifies each credential anew, at a reading of the clock of its own; since the store is what
the history says (`Stored`), the search is one over the issuances of the holder, in their
order, and the token keeps the claim of the first that passes. -/
namespace Wayfinder.Service.Handlers

open Js Envelope Credentials TokenClasses Tokens

/-! ### The first that passes -/

/-- The first member of a list to pass the test of its position. -/
structure FirstAt {α : Type} (test : Nat → α → Prop) (l : List α) (k : Nat) (a : α) : Prop where
  get : l[k]? = some a
  passes : test k a
  earlier : ∀ j b, j < k → l[j]? = some b → ¬ test j b

namespace FirstAt

variable {α : Type} {test : Nat → α → Prop} {l : List α} {a b : α} {k : Nat}

theorem head (h : test 0 a) : FirstAt test (a :: l) 0 a where
  get := rfl
  passes := h
  earlier := fun _ _ hj => absurd hj (Nat.not_lt_zero _)

theorem tail (ha : ¬ test 0 a) (h : FirstAt (fun j => test (j + 1)) l k b) :
    FirstAt test (a :: l) (k + 1) b where
  get := h.get
  passes := h.passes
  earlier := by
    intro j c hj hc
    cases j with
    | zero =>
      cases hc
      exact ha
    | succ j => exact h.earlier j c (Nat.lt_of_succ_lt_succ hj) hc

end FirstAt

/-! ### Live credentials -/

variable {P : Primitives} {E : Env}

/-- A credential that was not revoked and has not ended. -/
def Issuance.Live (revoked : List Str) (now : Nat) (i : Issuance) : Prop :=
  i.credential.id ∉ revoked ∧ ∃ vc, i.credential.claims = [vc] ∧ Unexpired vc now

/-- The same at the reading of the clock that a position in a search from the draw `n` gets. -/
def LiveAt (E : Env) (revoked : List Str) (n k : Nat) (i : Issuance) : Prop :=
  i.Live revoked (E.clock (n + k))

/-- The credentials that were issued to a holder, in order. -/
def heldIssuances (events : List (Request × Outcome)) (holderDid : Str) : List Issuance :=
  (issuances events).filter (·.holderDid == holderDid)

/-- The verdict on a stored credential is whether it is live. -/
theorem verifyCredential_live (he : P.Ed25519) (hb : P.Base58) (hd : P.DateParse)
    {requests : List Request} (h : Stored P E requests) {i : Issuance}
    (hi : i ∈ issuances (history P E requests)) (n : Nat) :
    ∃ result, verifyCredential P E n (after P E requests).credentials
      (i.stored (revocations (history P E requests))).toJson = .ok result ∧
      (result.valid = true ↔ i.Live (revocations (history P E requests)) (E.clock n)) := by
  have hissued := h.issued i hi
  obtain ⟨m, input, hclaims, _, huntil⟩ := hissued.claim
  obtain ⟨hid, hsame, _⟩ := stored_same (revocations (history P E requests)) i
  have hget :
    (after P E requests).credentials.get (i.stored (revocations (history P E requests))).id =
      some (i.stored (revocations (history P E requests))) := h.mem_get.mpr ⟨i, hi, hid.symm, rfl⟩
  obtain ⟨result, hresult, hchecks, hvalid⟩ := verifyCredential_stored (E := E) hd n hget
    (hsame.trans hclaims) huntil (E.clock_le (m + 1)) (verifyVcSignature_issued he hb m input)
  refine ⟨result, hresult, ?_⟩
  have hlive : i.Live (revocations (history P E requests)) (E.clock n) ↔
      i.credential.id ∉ revocations (history P E requests) ∧
      E.clock n < E.clock (m + 1) + oneYear := by
    simp only [Issuance.Live, hclaims, List.cons.injEq, and_true, exists_eq_left',
      unexpired_iff (E.clock_le (m + 1)) huntil]
  rw [hlive, hvalid, hchecks]
  simp only [Checks.valid, hissued.isRevoked_stored]
  by_cases hrevoked : i.credential.id ∈ revocations (history P E requests)
  · simp [hrevoked]
  · have hschema :
        validateCredential P (i.stored (revocations (history P E requests))).toJson = true := by
      rw [Issuance.stored, if_neg hrevoked]
      exact hissued.valid
    simp [hrevoked, hschema]

/-- What a holder has in the store is what was issued to the holder. -/
theorem credentialsForHolder_stored {requests : List Request} (h : Stored P E requests)
    (holderDid : Str) :
    credentialsForHolder (after P E requests).credentials holderDid =
      (heldIssuances (history P E requests) holderDid).map
      (·.stored (revocations (history P E requests))) := by
  have hvalues : (after P E requests).credentials.values =
      (issuances (history P E requests)).map (·.stored (revocations (history P E requests))) := by
    rw [JsMap.values, h.entries, List.map_map]
    rfl
  rw [credentialsForHolder, hvalues, List.filter_map, heldIssuances]
  refine congrArg _ (List.filter_congr fun i hi => ?_)
  obtain ⟨_, payload, _, n, levelText, _, _, _, hcredential⟩ := (h.issued i hi).request
  have hsame := (stored_same (revocations (history P E requests)) i).2.2
  show (i.stored (revocations (history P E requests))).heldBy holderDid = _
  rw [CredentialToken.heldBy, hsame, ← CredentialToken.heldBy, hcredential, heldBy_issued]
  rfl

/-! ### The search -/

/-- The search stops at the first credential that is live when it is asked, or finds none. -/
theorem findValid_first {s : Credentials.State} {revoked : List Str} {is : List Issuance}
    (h : ∀ i ∈ is, ∀ n, ∃ result, verifyCredential P E n s (i.stored revoked).toJson = .ok result ∧
      (result.valid = true ↔ i.Live revoked (E.clock n))) (n : Nat) :
    (∃ next, findValid P E n s (is.map (·.stored revoked)) = .ok (none, next) ∧
      ∀ k i, is[k]? = some i → ¬ LiveAt E revoked n k i) ∨ (∃ next k i,
        findValid P E n s (is.map (·.stored revoked)) = .ok (some (i.stored revoked), next) ∧
        FirstAt (LiveAt E revoked n) is k i) := by
  induction is generalizing n with
  | nil => exact .inl ⟨n, rfl, fun k i hk => by simp at hk⟩
  | cons i rest ih =>
    obtain ⟨result, hresult, hvalid⟩ := h i (List.mem_cons_self ..) n
    have hfind : findValid P E n s ((i :: rest).map (·.stored revoked)) =
        if result.valid then .ok (some (i.stored revoked), n + 1)
        else findValid P E (n + 1) s (rest.map (·.stored revoked)) := by
      rw [List.map_cons, findValid, hresult]
      rfl
    have hsucc : ∀ k, LiveAt E revoked n (k + 1) = LiveAt E revoked (n + 1) k := by
      intro k
      unfold LiveAt
      rw [Nat.add_right_comm, Nat.add_assoc]
    rw [hfind]
    by_cases hlive : i.Live revoked (E.clock n)
    · rw [if_pos (hvalid.mpr hlive)]
      exact .inr ⟨_, 0, i, rfl, .head hlive⟩
    · rw [if_neg (fun hv => hlive (hvalid.mp hv))]
      rcases ih (fun j hj => h j (List.mem_cons_of_mem i hj)) (n + 1) with
        ⟨next, hnone, hdead⟩ | ⟨next, k, j, hsome, hfirst⟩
      · refine .inl ⟨next, hnone, fun k j hk => ?_⟩
        cases k with
        | zero =>
          cases hk
          exact hlive
        | succ k => exact hsucc k ▸ hdead k j hk
      · refine .inr ⟨next, k + 1, j, hsome, .tail hlive ?_⟩
        simpa only [hsucc] using hfirst

/-- The search of a holder's valid credential. -/
theorem validCredentialFor_first (he : P.Ed25519) (hb : P.Base58) (hd : P.DateParse)
    {requests : List Request} (h : Stored P E requests) (n : Nat) (holderDid : Str) :
    (∃ next,
      validCredentialFor P E n (after P E requests).credentials holderDid = .ok (none, next) ∧
      ∀ k i, (heldIssuances (history P E requests) holderDid)[k]? = some i →
        ¬ LiveAt E (revocations (history P E requests)) n k i) ∨
      (∃ next k i, validCredentialFor P E n (after P E requests).credentials holderDid =
        .ok (some (i.stored (revocations (history P E requests))), next) ∧
        FirstAt (LiveAt E (revocations (history P E requests)) n)
          (heldIssuances (history P E requests) holderDid) k i) := by
  rw [validCredentialFor, credentialsForHolder_stored h]
  exact findValid_first
    (fun i hi m => verifyCredential_live he hb hd h (List.mem_of_mem_filter hi) m) n

/-! ### The hook -/

/-- **The compliance hook refuses exactly a holder without a live credential**, and a token
that is minted embeds the claim of the first live one. The k-th credential of the holder
is asked at the k-th reading of the clock. -/
theorem mintToken_compliance (he : P.Ed25519) (hb : P.Base58) (hd : P.DateParse)
    (requests : List Request) (hfresh : E.FreshIds (after P E requests).draws) (n : Nat)
    (input : MintInput) {tc : TokenClass}
    (htc : (after P E requests).tokenclasses.get input.tokenClass = some tc)
    (hkyc : tc.requiresKYC = true) :
    ((∃ message next, mintToken P E n (after P E requests).credentials
      (after P E requests).tokenclasses (after P E requests).tokens
      (after P E requests).ledger input = .ok (.refused .complianceCheckFailed message next)) ↔
      ∀ k i, (heldIssuances (history P E requests) input.ownerDid)[k]? = some i →
        ¬ LiveAt E (revocations (history P E requests)) n k i) ∧
      (∀ tokens ledger token next, mintToken P E n (after P E requests).credentials
        (after P E requests).tokenclasses (after P E requests).tokens
        (after P E requests).ledger input = .ok (.ok tokens ledger token next) →
        ∃ k i vc, FirstAt (LiveAt E (revocations (history P E requests)) n)
          (heldIssuances (history P E requests) input.ownerDid) k i ∧
          i.credential.claims = [vc] ∧ token.claims = some [vc]) := by
  have hsearch := validCredentialFor_first he hb hd (stored_after requests hfresh) n input.ownerDid
  constructor
  · refine ⟨fun h => ?_, fun hdead => ?_⟩
    · obtain ⟨message, next, hmint⟩ := h
      rcases mintToken_refused hmint with ⟨_, hcode, _⟩ | ⟨tc', _, _, hgate⟩
      · cases hcode
      · obtain ⟨_, hnone⟩ := complianceHook_refused.mp hgate
        rcases hsearch with ⟨_, _, hdead⟩ | ⟨_, k, i, hsome, _⟩
        · exact hdead
        · rw [hnone] at hsome
          cases hsome
    · rcases hsearch with ⟨next, hnone, _⟩ | ⟨_, k, i, _, hfirst⟩
      · obtain ⟨message, hmint⟩ := mintToken_of_refused (after P E requests).tokens
          (after P E requests).ledger htc (complianceHook_refused.mpr ⟨hkyc, hnone⟩)
        exact ⟨message, next, hmint⟩
      · exact absurd hfirst.passes (hdead k i hfirst.get)
  · intro tokens ledger token next hmint
    obtain ⟨tc', claim, m, htc', hgate, _, hstored, _⟩ := mintToken_ok hmint
    rw [htc, Option.some.injEq] at htc'
    subst htc'
    rw [storeMinted_eq, Prod.mk.injEq, Prod.mk.injEq] at hstored
    obtain ⟨_, _, rfl⟩ := hstored
    rcases (complianceHook_passed hgate).2 with ⟨hnone, _⟩ | ⟨_, credential, hfound, hclaim⟩
    · rw [hkyc] at hnone
      cases hnone
    · rcases hsearch with ⟨_, hnone, _⟩ | ⟨_, k, i, hsome, hfirst⟩
      · rw [hfound] at hnone
        cases hnone
      · rw [hfound] at hsome
        cases hsome
        obtain ⟨vc, hvc, _⟩ := hfirst.passes.2
        refine ⟨k, i, vc, hfirst, hvc, ?_⟩
        rw [(stored_same _ i).2.1, hvc] at hclaim
        cases hclaim
        rfl

/-- Alice holds the one credential of the deed's run. -/
theorem alice_held (h : Reliable P E) :
    heldIssuances (history P E (deedBefore P E none)) (aliceAccount P E).did =
      [⟨(aliceAccount P E).did, aliceCredential P E none⟩] := by
  rw [heldIssuances, issuances_deedBefore h, List.filter_cons, List.filter_nil]
  exact if_pos (beq_self_eq_true _)

/-- With her live credential, Alice is not refused a deed. -/
theorem mintToken_compliance_alice :
    ¬ ∃ message next,
      mintToken Reference.primitives Reference.env 20 (after Reference.primitives Reference.env
        (deedBefore Reference.primitives Reference.env none)).credentials
        (after Reference.primitives Reference.env (deedBefore Reference.primitives
          Reference.env none)).tokenclasses (after Reference.primitives Reference.env
            (deedBefore Reference.primitives Reference.env none)).tokens (after Reference.primitives
              Reference.env (deedBefore Reference.primitives Reference.env none)).ledger
        (mintInput (aliceAccount Reference.primitives Reference.env).did deedPayload) =
        .ok (.refused .complianceCheckFailed message next) := by
  have hclass : (after Reference.primitives Reference.env
      (deedBefore Reference.primitives Reference.env none)).tokenclasses.get (lit "PROP-DEED") =
        some (propDeed Reference.primitives Reference.env) := by
    rw [after_deedBefore reliable_reference]
    exact JsMap.get_set_self _ _ _
  have h := (mintToken_compliance Reference.ed25519 Reference.base58 Reference.dateParse
    (deedBefore Reference.primitives Reference.env none) (Reference.freshIds _) 20
    (mintInput (aliceAccount Reference.primitives Reference.env).did deedPayload) hclass rfl).1
  intro hrefused
  refine h.mp hrefused 0 _ (congrArg (·[0]?) (alice_held reliable_reference))
    ⟨(fun hmem => nomatch hmem), _, rfl, ?_⟩
  exact ⟨_, Reference.env.clock_le 15, rfl, Reference.env_clock (by decide)⟩

end Wayfinder.Service.Handlers
