import Wayfinder.Service.Handlers.Compliance
import Wayfinder.Service.Handlers.History

/-! Where a token of a gated class comes from.

Every such token was minted at a step of the run, for the account behind the request, with
a credential that the compliance hook found for it (`Authorised`). Its claims stay those of
that credential, and its history opens with that account. What the credential says follows
from the request that it was issued for; the hook asks for no type, and a subject in the
payload may rename the holder, so a token is about its minter with a KYC credential where no
such request was answered (`gated_kyc`), and not in general (`renamed_deed`). -/
namespace Wayfinder.Service.Handlers

open Js Envelope Credentials TokenClasses Tokens
open Ledger (TokenTransaction tokenTransactions)

section
variable (P : Primitives) (E : Env)

/-- A token's mint: the step of the run, the account it was for and the credential that let
it through. -/
structure Authorised (requests : List Request) (id : Str) (token : TokenInstance) (holderDid : Str)
    (credential : CredentialToken) : Prop where
  minted : ∃ pre context payload post account next,
    requests = pre ++ ⟨context, .tokenMint payload⟩ :: post ∧
    (after P E pre).tokens.byId.get id = none ∧
    ((after P E (pre ++ [⟨context, .tokenMint payload⟩])).tokens.byId.get id).isSome ∧
    tokenAccount (after P E pre).accounts context = .ok (some account) ∧ account.did = holderDid ∧
    validCredentialFor P E (after P E pre).draws (after P E pre).credentials holderDid =
      .ok (some credential, next)
  claims : token.claims = credential.claims.head?.map fun vc => [vc]
  genesis : ∃ genesis transfers,
    tokenTransactions (after P E requests).ledger id = genesis :: transfers ∧
    genesis.toAccount = some holderDid

/-- The class of a token is registered, and where it requires KYC the mint was authorised. -/
def Classed (requests : List Request) (id : Str) (token : TokenInstance) : Prop :=
  ∃ tc, (after P E requests).tokenclasses.get token.metadata.tokenClass = some tc ∧
    (tc.requiresKYC = true → ∃ holderDid credential,
      Authorised P E requests id token holderDid credential)

/-- Classes stand under their names, and every token is classed. -/
structure Gated (requests : List Request) : Prop where
  named : ∀ {name tc}, (after P E requests).tokenclasses.get name = some tc → tc.tokenClass = name
  classed : ∀ {id token}, (after P E requests).tokens.byId.get id = some token →
    Classed P E requests id token

end

variable {P : Primitives} {E : Env}

/-! ### The invariant -/

/-- A mint stays authorised while its token keeps its claims. -/
theorem Authorised.snoc {requests : List Request} {request : Request} {id holderDid : Str}
    {token token' : TokenInstance} {credential : CredentialToken}
    (h : Authorised P E requests id token holderDid credential)
    (hgrows : tokenTransactions (after P E requests).ledger id <+:
      tokenTransactions (after P E (requests ++ [request])).ledger id)
    (hclaims : token'.claims = token.claims) :
    Authorised P E (requests ++ [request]) id token' holderDid credential where
  minted := by
    obtain ⟨pre, context, payload, post, account, next, rfl, hminted⟩ := h.minted
    exact ⟨pre, context, payload, post ++ [request], account, next, by simp, hminted⟩
  claims := hclaims.trans h.claims
  genesis := by
    obtain ⟨genesis, transfers, htransactions, hreceiver⟩ := h.genesis
    obtain ⟨more, hmore⟩ := hgrows
    rw [htransactions] at hmore
    exact ⟨genesis, transfers ++ more, hmore.symm, hreceiver⟩

theorem Classed.snoc {requests : List Request} {request : Request} {id : Str}
    {token token' : TokenInstance} (h : Classed P E requests id token)
    (hclasses : ∀ {name tc}, (after P E requests).tokenclasses.get name = some tc →
      (after P E (requests ++ [request])).tokenclasses.get name = some tc)
    (hgrows : tokenTransactions (after P E requests).ledger id <+:
      tokenTransactions (after P E (requests ++ [request])).ledger id)
    (hclass : token'.metadata.tokenClass = token.metadata.tokenClass)
    (hclaims : token'.claims = token.claims) : Classed P E (requests ++ [request]) id token' := by
  obtain ⟨tc, htc, hauthorised⟩ := h
  refine ⟨tc, hclass ▸ hclasses htc, fun hkyc => ?_⟩
  obtain ⟨holderDid, credential, h⟩ := hauthorised hkyc
  exact ⟨holderDid, credential, h.snoc hgrows hclaims⟩

/-- What writes to neither tokens nor classes keeps every token classed. -/
theorem Gated.quiet {requests : List Request} {request : Request} (h : Gated P E requests)
    (hgrows : ∀ id, tokenTransactions (after P E requests).ledger id <+:
      tokenTransactions (after P E (requests ++ [request])).ledger id)
    (hclasses : (after P E (requests ++ [request])).tokenclasses =
      (after P E requests).tokenclasses)
    (htokens : (after P E (requests ++ [request])).tokens = (after P E requests).tokens) :
    Gated P E (requests ++ [request]) where
  named := by
    rw [hclasses]
    exact h.named
  classed := by
    rw [htokens]
    exact fun hget => (h.classed hget).snoc (fun htc => hclasses.symm ▸ htc) (hgrows _) rfl rfl

/-- A token that was just minted is classed. -/
theorem classed_minted {requests : List Request} (hgated : Gated P E requests)
    (hrecorded : Recorded P E (after P E requests)) {context : Option Json}
    {payload : MintTokenRequest} {account : Store.Account} {tokens : Tokens.State}
    {ledger : Ledger.State} {token : TokenInstance} {next : Nat}
    (haccount : tokenAccount (after P E requests).accounts context = .ok (some account))
    (hmint : mintToken P E (after P E requests).draws (after P E requests).credentials
      (after P E requests).tokenclasses (after P E requests).tokens (after P E requests).ledger
      (mintInput account.did payload) = .ok (.ok tokens ledger token next))
    (hw : after P E (requests ++ [⟨context, .tokenMint payload⟩]) =
      { after P E requests with tokens, ledger, draws := next + 1 + responseDraws })
    (hfresh : E.FreshIds (after P E (requests ++ [⟨context, .tokenMint payload⟩])).draws) {id : Str}
    {found : TokenInstance} (hget : tokens.byId.get id = some found) :
    Classed P E (requests ++ [⟨context, .tokenMint payload⟩]) id found := by
  obtain ⟨tc, claim, m, log, htc, hgate, hm, rfl, hbyId, hledger, rfl, _⟩ := mintToken_writes hmint
  have hdraws : m + 4 < (after P E (requests ++ [⟨context, .tokenMint payload⟩])).draws := by
    rw [hw]
    exact lt_mintDraws m
  have hledger : (after P E (requests ++ [⟨context, .tokenMint payload⟩])).ledger =
      (after P E requests).ledger.append P (mintOf P E (m + 2)
        (newToken P E m tc claim (mintInput account.did payload)) account.did) log := by
    rw [hw]
    exact hledger
  obtain ⟨hnone, hempty⟩ :=
    hrecorded.unborn hfresh (show (after P E requests).draws ≤ m + 1 by omega)
      (Nat.lt_trans (by omega) hdraws)
  have htransactions := hrecorded.transactions (i := m + 4) hfresh hledger ⟨by omega, hdraws⟩ rfl
  rw [hbyId, JsMap.get_set] at hget
  split at hget
  · next hid =>
    cases hget
    subst hid
    refine ⟨tc, ?_, fun hkyc => ?_⟩
    · rw [hw]
      show (after P E requests).tokenclasses.get tc.tokenClass = some tc
      rw [hgated.named htc]
      exact htc
    · rcases (complianceHook_passed hgate).2 with ⟨hnone, _⟩ | ⟨_, credential, hfound, rfl⟩
      · rw [hkyc] at hnone
        cases hnone
      · have hgenesis := htransactions (lit "urn:uuid:token-" ++ E.uuid (m + 1))
        rw [hempty, if_pos (by rfl)] at hgenesis
        refine ⟨account.did, credential, ?_, rfl, ?_⟩
        · refine ⟨requests, context, payload, [], account, m, rfl, hnone, ?_, haccount, rfl, hfound⟩
          rw [hw, hbyId, JsMap.get_set_self]
          rfl
        · exact ⟨_, [], hgenesis, rfl⟩
  · refine (hgated.classed hget).snoc (fun htc => ?_) ?_ rfl rfl
    · rw [hw]
      exact htc
    · rw [htransactions]
      exact List.prefix_append _ _

/-- A class that was set under its name stands under its name. -/
theorem named_set (classes : TokenClasses.State) (tc : TokenClass)
    (h : ∀ {name tc}, classes.get name = some tc → tc.tokenClass = name) {name : Str}
    {found : TokenClass} (hget : (classes.set tc.tokenClass tc).get name = some found) :
    found.tokenClass = name := by
  rw [JsMap.get_set] at hget
  split at hget
  · next hname =>
    cases hget
    exact hname
  · exact h hget

theorem gated_initial : Gated P E [] where
  named := named_set .empty (propDeed P E) (fun h => nomatch h)
  classed := fun h => nomatch h

theorem gated_after (requests : List Request) (hfresh : E.FreshIds (after P E requests).draws) :
    Gated P E requests := by
  refine run_induction (F := E.FreshIds) (fun hmn h => h.mono hmn) gated_initial ?_ requests hfresh
  intro requests request outcome hchange _ hfresh h
  have hrecorded := recorded_after requests (hfresh.mono hchange.draws_le)
  have hgrows := transactions_prefix hchange hfresh hrecorded
  generalize hw : after P E (requests ++ [request]) = w' at hchange
  cases hchange with
  | quiet => exact h.quiet hgrows (by rw [hw]) (by rw [hw])
  | created => exact h.quiet hgrows (by rw [hw]) (by rw [hw])
  | issued => exact h.quiet hgrows (by rw [hw]) (by rw [hw])
  | revoked => exact h.quiet hgrows (by rw [hw]) (by rw [hw])
  | @registered context payload hnew =>
    have hclasses : ∀ {name tc}, (after P E requests).tokenclasses.get name = some tc →
        (after P E (requests ++ [⟨context, .tokenClassRegister payload⟩])).tokenclasses.get name =
          some tc := by
      intro name tc htc
      rw [hw]
      exact JsMap.get_set_new _ hnew htc
    constructor
    · rw [hw]
      exact named_set _ (newTokenClass P E (after P E requests).draws payload) h.named
    · intro id token hget
      rw [hw] at hget
      exact (h.classed hget).snoc hclasses (hgrows _) rfl rfl
  | minted haccount hmint =>
    constructor
    · rw [hw]
      exact h.named
    · intro id token hget
      rw [hw] at hget
      exact classed_minted h hrecorded haccount hmint hw hfresh hget
  | @moved context payload account recipient movedId toAddress token haccount hoperation hid hto
      hrecipient hget howner =>
    have hclasses : (after P E (requests ++ [⟨context, .tokenTransact payload⟩])).tokenclasses =
        (after P E requests).tokenclasses := by rw [hw]
    constructor
    · rw [hclasses]
      exact h.named
    · intro id found hfound
      rw [hw, moveToken_eq] at hfound
      have hfound :
        ((after P E requests).tokens.byId.set movedId (token.movedTo recipient.did (transferOf P E
          (after P E requests).draws token account.did recipient.did).stateAfter.stateCommitment
          (E.now ((after P E requests).draws + Ledger.recordDraws)))).get id = some found := hfound
      rw [JsMap.get_set] at hfound
      split at hfound
      · next he =>
        cases hfound
        subst he
        exact (h.classed hget).snoc (fun htc => hclasses ▸ htc) (hgrows _) rfl rfl
      · exact (h.classed hfound).snoc (fun htc => hclasses ▸ htc) (hgrows _) rfl rfl

/-! ### What a gated token carries -/

/-- A token of a gated class was authorised. -/
theorem Gated.authorised {requests : List Request} (h : Gated P E requests) {id : Str}
    {token : TokenInstance} {tc : TokenClass}
    (hget : (after P E requests).tokens.byId.get id = some token)
    (htc : (after P E requests).tokenclasses.get token.metadata.tokenClass = some tc)
    (hkyc : tc.requiresKYC = true) :
    ∃ holderDid credential, Authorised P E requests id token holderDid credential := by
  obtain ⟨tc', htc', hauthorised⟩ := h.classed hget
  rw [htc, Option.some.injEq] at htc'
  exact hauthorised (htc' ▸ hkyc)

/-- The credential that let a mint through was issued in the run, to the minter. -/
theorem Authorised.issuance {requests : List Request}
    (hfresh : E.FreshIds (after P E requests).draws) {id holderDid : Str} {token : TokenInstance}
    {credential : CredentialToken} (h : Authorised P E requests id token holderDid credential) :
    ∃ i revoked, IssuedIn P E requests i ∧ i.holderDid = holderDid ∧
      credential = i.stored revoked := by
  obtain ⟨pre, context, payload, post, account, next, rfl, _, _, _, _, hfound⟩ := h.minted
  have hstored := stored_after pre (hfresh.mono (draws_le_append pre _))
  have hmem := findValid_mem hfound
  rw [credentialsForHolder_stored hstored, List.mem_map] at hmem
  obtain ⟨i, hi, rfl⟩ := hmem
  rw [heldIssuances, List.mem_filter] at hi
  exact ⟨i, _, (hstored.issued i hi.1).mono _, eq_of_beq hi.2, rfl⟩

/-- A gated token carries one claim, signed by the issuer when it was issued to the minter. -/
theorem Authorised.claim {requests : List Request} (hfresh : E.FreshIds (after P E requests).draws)
    {id holderDid : Str} {token : TokenInstance} {credential : CredentialToken}
    (h : Authorised P E requests id token holderDid credential) :
    ∃ n input, token.claims = some [signedVc P E n input] ∧ input.holderDid = holderDid := by
  obtain ⟨i, revoked, hissued, hholder, rfl⟩ := h.issuance hfresh
  obtain ⟨n, input, hclaims, hinput, _⟩ := hissued.claim
  refine ⟨n, input, ?_, hinput.trans hholder⟩
  rw [h.claims, (stored_same revoked i).2.1, hclaims]
  rfl

/-- A request for a KYC credential about its holder: of no other type, and with no subject
that names someone else. -/
def AsksForKyc (payload : Option Json) (holderDid : Str) : Prop :=
  orElse (readProp? payload (lit "credentialType")) (.str (lit "kycVerification")) =
    .str (lit "kycVerification") ∧
    ∀ p ∈ (orElse (readProp? payload (lit "subject")) (.obj [])).spread, p.1 = lit "id" →
      p.2 = .str holderDid

theorem stored_credentialType (revoked : List Str) (i : Issuance) :
    getField (i.stored revoked).metadata (lit "credentialType") =
      getField i.credential.metadata (lit "credentialType") := by
  unfold Issuance.stored
  split
  · show getField (setField i.credential.metadata (lit "status") _) (lit "credentialType") = _
    rw [getField_setField, if_neg (by decide)]
  · rfl

/-- **In a run that was answered a credential only for a KYC credential about its holder,
every gated token carries a KYC credential about its minter.** -/
theorem gated_kyc (requests : List Request) (hfresh : E.FreshIds (after P E requests).draws)
    (hasks : ∀ context payload outcome i,
      (⟨context, .credentialIssue payload⟩, outcome) ∈ history P E requests →
      issuanceOf (⟨context, .credentialIssue payload⟩, outcome) = some i →
      AsksForKyc payload i.holderDid) {id : Str} {token : TokenInstance} {tc : TokenClass}
    (hget : (after P E requests).tokens.byId.get id = some token)
    (htc : (after P E requests).tokenclasses.get token.metadata.tokenClass = some tc)
    (hkyc : tc.requiresKYC = true) :
    ∃ holderDid credential vc, Authorised P E requests id token holderDid credential ∧
      getField credential.metadata (lit "credentialType") = some (.str (lit "kycVerification")) ∧
      token.claims = some [vc] ∧
      getField vc.credentialSubject (lit "id") = some (.str holderDid) := by
  obtain ⟨holderDid, credential, hauthorised⟩ :=
    (gated_after requests hfresh).authorised hget htc hkyc
  obtain ⟨i, revoked, hissued, rfl, rfl⟩ := hauthorised.issuance hfresh
  obtain ⟨context, payload, outcome, n, levelText, hmem, hissue, _, hcredential⟩ := hissued.request
  obtain ⟨htype, hsubject⟩ := hasks context payload outcome i hmem hissue
  refine ⟨_, _, signedVc P E n (issueInput payload i.holderDid), hauthorised, ?_, ?_, ?_⟩
  · rw [stored_credentialType, hcredential]
    exact congrArg some htype
  · rw [hauthorised.claims, (stored_same revoked i).2.1, hcredential]
    rfl
  · exact getField_assignFields_same rfl hsubject

/-! ### The deed -/

/-- In the deed's run, only Alice's credential is asked for. -/
theorem deed_asks {context payload : Option Json} {outcome : Outcome}
    (hmem : (⟨context, .credentialIssue payload⟩, outcome) ∈
      history P E (deedBefore P E none ++ [mintRequest E, moveRequest P E none]))
    (holderDid : Str) :
    AsksForKyc payload holderDid := by
  have hrequest := mem_requests hmem
  obtain ⟨_, rfl⟩ : context = none ∧ payload = holderPayload (aliceAccount P E).did none := by
    simpa [deedBefore, mintRequest, moveRequest] using hrequest
  exact ⟨rfl, fun p hp => absurd hp List.not_mem_nil⟩

/-- The deed that Alice gave to Bob is still about Alice. -/
theorem gated_kyc_deed :
    ∃ token holderDid credential vc, (after Reference.primitives Reference.env
      (deedBefore Reference.primitives Reference.env none ++ [mintRequest Reference.env,
        moveRequest Reference.primitives Reference.env none])).tokens.byId.get
      (newDeed Reference.primitives Reference.env none).id = some token ∧
      Authorised Reference.primitives Reference.env (deedBefore Reference.primitives Reference.env
        none ++ [mintRequest Reference.env, moveRequest Reference.primitives Reference.env none])
        (newDeed Reference.primitives Reference.env none).id token holderDid credential ∧
      getField credential.metadata (lit "credentialType") = some (.str (lit "kycVerification")) ∧
      token.claims = some [vc] ∧
      getField vc.credentialSubject (lit "id") = some (.str holderDid) := by
  obtain ⟨token, hget, hclass, _⟩ := deed_moved reliable_reference none
  obtain ⟨holderDid, credential, vc, h⟩ := gated_kyc _ (Reference.freshIds _)
    (fun _ _ _ i hmem _ => deed_asks hmem i.holderDid) hget hclass rfl
  exact ⟨_, holderDid, credential, vc, hget, h⟩

/-- The history of a deed about someone else. -/
theorem renamed_history (h : Reliable P E) (about : Option Str) :
    ∃ genesis, tokenTransactions (after P E (deedBefore P E about ++ [mintRequest E])).ledger
      (newDeed P E about).id = [genesis] ∧ genesis.toAccount = some (aliceAccount P E).did := by
  have hempty : (Ledger.State.empty).KeepsHistories := fun h => nomatch h
  refine ⟨mintOf P E 23 (newDeed P E about) (aliceAccount P E).did, ?_, rfl⟩
  rw [after_mint h about, mintedWorld, storeMinted_eq,
    Ledger.tokenTransactions_append hempty _ rfl]
  exact if_pos rfl

/-- **A deed about someone else.** The payload of Alice's credential names another subject,
and the deed she mints carries the credential about that one. -/
theorem renamed_deed :
    ∃ requests id token tc vc genesis transfers,
      (after Reference.primitives Reference.env requests).tokens.byId.get id = some token ∧
      (after Reference.primitives Reference.env requests).tokenclasses.get
        token.metadata.tokenClass = some tc ∧ tc.requiresKYC = true ∧ token.claims = some [vc] ∧
      tokenTransactions (after Reference.primitives Reference.env requests).ledger id = genesis ::
        transfers ∧ getField vc.credentialSubject (lit "id") ≠ genesis.toAccount.map Json.str := by
  have hworld := after_mint reliable_reference (some (lit "did:example:someone"))
  obtain ⟨genesis, htransactions, hreceiver⟩ :=
    renamed_history reliable_reference (some (lit "did:example:someone"))
  have hget := congrArg (fun w => w.tokens.byId.get
    (newDeed Reference.primitives Reference.env (some (lit "did:example:someone"))).id) hworld
  have hclass := congrArg (fun w => w.tokenclasses.get (lit "PROP-DEED")) hworld
  refine ⟨_, _, _, _, _, genesis, [], hget.trans deed_minted,
    hclass.trans (JsMap.get_set_self _ _ _), rfl, rfl, htransactions, ?_⟩
  rw [hreceiver]
  intro hsame
  have hsubject : getField (signedVc Reference.primitives Reference.env 14 (aliceInput
    Reference.primitives Reference.env (some (lit "did:example:someone")))).credentialSubject
    (lit "id") = some (.str (lit "did:example:someone")) := rfl
  rw [hsubject, Option.map_some, Option.some.injEq, Json.str.injEq] at hsame
  have htake : (aliceAccount Reference.primitives Reference.env).did.take 5 = lit "did:k" := rfl
  rw [← hsame] at htake
  exact absurd htake (by decide)

end Wayfinder.Service.Handlers
