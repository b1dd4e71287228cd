import Wayfinder.App.Journey
import Wayfinder.Service.Handlers.Acceptance

/-! A visitor whom nobody disturbs.

Each step of the lifecycle, by itself and from any state of the service that a run leaves, goes
through: the account is made, the credential is issued and found valid, the deed is minted, and the
transfer is made and proved. So the whole journey does (`journey_completes`). Asked for are only an
address that is free and well-formed, a recipient with one, and that less than a year passes. -/
namespace Wayfinder.App

open Js Service Service.Handlers Service.App Client
open Service.Credentials (CredentialToken validateCredential issued Identity)
open Service.Tokens (TokenInstance)

/-- The libraries keep their promises. -/
structure Dependable (P : Primitives) (E : Env) : Prop where
  ed25519 : P.Ed25519
  base58 : P.Base58
  dateParse : P.DateParse
  formats : P.Formats
  uris : P.Uris
  uuidText : E.UuidText

variable {P : Primitives} {E : Env} {stamps : Nat → Stamp}

/-! ### What the handlers answer -/

section
variable {w : World} {context : Option Json} {account : Store.Account}

theorem accountGet_succeeds (haccount : tokenAccount w.accounts context = .ok (some account)) :
    handle P E w ⟨context, .accountGet⟩ = reply E w context
      (.profile ⟨account.did, account.address, account.name, account.entityType⟩) := by
  simp only [handle, accountGet, withAccount, haccount]

theorem keysSearch_succeeds (haccount : tokenAccount w.accounts context = .ok (some account)) :
    handle P E w ⟨context, .keysSearch⟩ = reply E w context (.keys [listedKey account]) := by
  simp only [handle, keysSearch, withAccount, haccount, listedKey]

theorem tokenSearch_succeeds (haccount : tokenAccount w.accounts context = .ok (some account)) :
    handle P E w ⟨context, .tokenSearch⟩ =
      reply E w context (.tokens (Tokens.tokensForOwner w.tokens account.did)
        ⟨(Tokens.tokensForOwner w.tokens account.did).length, 50, 0⟩) := by
  simp only [handle, tokenSearch, withAccount, haccount]

theorem tokenGet_succeeds {id : Str} {token : TokenInstance}
    (hget : w.tokens.byId.get id = some token) :
    handle P E w ⟨context, .tokenGet id⟩ = reply E w context (.token token) := by
  simp only [handle, tokenGet, Tokens.getToken, hget]

theorem transactionGet_succeeds {txId : Str} {log : Ledger.TransactionLog}
    (hget : w.ledger.txLogs.get txId = some log) :
    handle P E w ⟨context, .transactionGet txId⟩ = reply E w context (.log log) := by
  simp only [handle, transactionGet, Ledger.getTransaction, hget]

theorem transactionProof_succeeds {txId : Str} {proof : Ledger.ProofDetails}
    (hget : Ledger.getProof P w.ledger txId = some proof) :
    handle P E w ⟨context, .transactionProof txId⟩ = reply E w context (.proof proof) := by
  simp only [handle, transactionProof, hget]

end

/-! ### The account -/

/-- The world with the account in it. -/
def createdWorld (P : Primitives) (E : Env) (w : World)
    (payload : Store.RegistrationRequest) : World :=
  { w with accounts := (Store.createAccount P E (w.draws + 2) w.accounts payload).1,
           draws := w.draws + 12 }

theorem createdWorld_signedIn (w : World) {payload : Store.RegistrationRequest}
    (haddress : isFinternetAddress payload.address = true) :
    SignedIn P E (createdWorld P E w payload) (sessionAt P E (w.draws + 2) payload)
      (Store.newAccount P E (w.draws + 2) payload) :=
  sessionAt_signedIn (w := { w with draws := w.draws + 2 }) haddress rfl

theorem create_succeeds {run : List Request} {w : World} (hworld : served P E run = w)
    {payload : Store.RegistrationRequest} (haddress : isFinternetAddress payload.address = true)
    (hfree : w.accounts.byAddress.get payload.address = none) :
    Succeeds P E stamps (CreateAccount.create payload.address payload.name payload.entityType) run
      fun run' session => run <+: run' ∧ served P E run' = createdWorld P E w payload ∧
        session = sessionAt P E (w.draws + 2) payload := by
  have htaken : Store.addressTaken w.accounts payload.address = false := by
    rw [Store.addressTaken, JsMap.has, hfree]
    rfl
  have hfiled := (createdWorld_signedIn (P := P) (E := E) w haddress).filed
  refine Program.succeeds_andThen (call_succeeds hworld
    (a := !Store.addressTaken w.accounts payload.address) fun stamp => ⟨_, rfl, rfl⟩)
    fun run₁ available havailable => ?_
  obtain ⟨hrun₁, hworld₁, rfl⟩ := havailable
  rw [htaken]
  refine Program.succeeds_andThen (call_succeeds hworld₁
      (a := { accessToken := Store.accessTokenAt E (w.draws + 5) }) fun stamp =>
    ⟨_, accountCreate_succeeds _ _ haddress hfree, rfl⟩) fun run₂ success hsuccess => ?_
  obtain ⟨hrun₂, hworld₂, rfl⟩ := hsuccess
  have haccount : ∀ id stamp, tokenAccount (createdWorld P E w payload).accounts
      (some (context id (some (Store.accessTokenAt E (w.draws + 5))) stamp)) =
        .ok (some (Store.newAccount P E (w.draws + 2) payload)) :=
    fun id stamp => hfiled.tokenAccount (context_authorizes stamp hfiled.token)
  refine Program.succeeds_andThen (Program.succeeds_both (T := fun run' replies => run <+: run' ∧
    served P E run' = createdWorld P E w payload ∧ replies =
      ((sessionAt P E (w.draws + 2) payload).profile, [(sessionAt P E (w.draws + 2) payload).key]))
    (call_succeeds hworld₂ (a := (sessionAt P E (w.draws + 2) payload).profile) fun stamp =>
      ⟨_, accountGet_succeeds (haccount _ stamp), rfl⟩) fun run₃ profile hprofile => ?_)
        fun run₄ replies hreplies => ?_
  · obtain ⟨hrun₃, hworld₃, rfl⟩ := hprofile
    refine (call_succeeds hworld₃ (a := [(sessionAt P E (w.draws + 2) payload).key]) fun stamp =>
      ⟨_, keysSearch_succeeds (haccount _ stamp), rfl⟩).mono fun run₄ keys hkeys => ?_
    obtain ⟨hrun₄, hworld₄, rfl⟩ := hkeys
    exact ⟨((hrun₁.trans hrun₂).trans hrun₃).trans hrun₄, hworld₄, rfl⟩
  · obtain ⟨hrun₄, hworld₄, rfl⟩ := hreplies
    exact Program.succeeds_ok ⟨hrun₄, hworld₄, rfl⟩

/-! ### The credential -/

/-- What the page asks to be attested. -/
def kycPayload (profile : AccountProfile) : Option Json :=
  some (.obj [(lit "holderDid", .str profile.did), (lit "subject", .obj
    [(lit "fullName", .str profile.name), (lit "verificationLevel", .str (lit "enhanced"))])])

def kycInput (profile : AccountProfile) : Credentials.IssueInput :=
  issueInput (kycPayload profile) profile.did

def kycCredential (P : Primitives) (E : Env) (n : Nat)
    (profile : AccountProfile) : CredentialToken :=
  issued P E n (kycInput profile) (lit "enhanced")

def certifiedWorld (P : Primitives) (E : Env) (w : World) (profile : AccountProfile) : World :=
  { w with
    credentials :=
      w.credentials.set (kycCredential P E w.draws profile).id (kycCredential P E w.draws profile)
    draws := w.draws + 9 }

/-- What the page asks for is issuable to an account that the service drew. -/
theorem kycInput_issuable (h : Dependable P E) {profile : AccountProfile} {k : Bytes}
    (hdid : profile.did = (Service.Crypto.didKeyFromPublicKey P k).did) :
    Issuable P (kycInput profile) := by
  have hholder : P.validFormat .uri profile.did = true := hdid ▸ did_uri h.uris h.base58 k
  refine ⟨hholder, rfl, rfl, ?_⟩
  apply Schema.record_intro rfl
  simp only [List.forall_mem_cons, List.not_mem_nil, false_imp_iff, implies_true, and_true]
  exact ⟨validate_uri hholder, rfl, rfl, rfl, rfl, rfl, rfl, rfl⟩

theorem kycCredential_valid (h : Dependable P E) (n : Nat) {profile : AccountProfile} {k : Bytes}
    (hdid : profile.did = (Service.Crypto.didKeyFromPublicKey P k).did) :
    validateCredential P (kycCredential P E n profile).toJson = true :=
  (validateCredential_issued h.uris h.formats h.base58 h.uuidText n _ _).mpr
    (kycInput_issuable h hdid)

theorem credentialVerify_succeeds {w : World} {context : Option Json} {credential : CredentialToken}
    {result : Credentials.VerificationResult}
    (h : Credentials.verifyCredential P E w.draws w.credentials credential.toJson = .ok result) :
    handle P E w ⟨context,
      .credentialVerify (some (.obj [(lit "credential", credential.toJson)]))⟩ = reply E
      { w with draws := w.draws + 1 } context (.verdict result) := by
  have hchosen :
    chosenCredential w.credentials (some (.obj [(lit "credential", credential.toJson)])) =
      .ok (some credential.toJson) := rfl
  have htruthy : credential.toJson.truthy = true := rfl
  simp only [handle, credentialVerify, hchosen, htruthy, h, Bool.not_true,
    Bool.false_eq_true, if_false]

theorem issue_succeeds (h : Dependable P E) {run : List Request} {w : World}
    (hworld : served P E run = w) {profile : AccountProfile} {k : Bytes}
    (hdid : profile.did = (Service.Crypto.didKeyFromPublicKey P k).did)
    (hclock : E.clock (w.draws + 6) < E.clock (w.draws + 1) + oneYear) :
    Succeeds P E stamps (CredentialsPanel.issue profile {}) run fun run' panel => run <+: run' ∧
      served P E run' = certifiedWorld P E w profile ∧ ∃ result,
        panel = ⟨some (kycCredential P E w.draws profile), some result, none⟩ ∧
        result.valid = true := by
  have hvalid := kycCredential_valid h w.draws hdid
  have hstarts : startsWith profile.did (lit "did:") = true :=
    hdid ▸ Service.Crypto.startsWith_did k
  refine Program.succeeds_bind (call_succeeds hworld (a := kycCredential P E w.draws profile)
    fun stamp => ⟨_, credentialIssue_succeeds _ _ rfl hstarts rfl hvalid, rfl⟩)
    fun run₁ credential hissued => ?_
  obtain ⟨hrun₁, hworld₁, rfl⟩ := hissued
  obtain ⟨result, hresult, hverdict⟩ := issued_verifies h.ed25519 h.base58 h.dateParse hvalid
    (JsMap.get_set_self w.credentials _ _) hclock
  refine Program.succeeds_bind (call_succeeds hworld₁ (a := result.reparsed) fun stamp =>
    ⟨_, credentialVerify_succeeds hresult, rfl⟩) fun run₂ shown hverified => ?_
  obtain ⟨hrun₂, hworld₂, rfl⟩ := hverified
  exact Program.succeeds_ok ⟨hrun₁.trans hrun₂, hworld₂, result.reparsed, rfl, hverdict⟩

/-! ### The token -/

/-- Whoever qualifies is minted the page's deed. -/
theorem pageDeed_minted (h : Dependable P E) {w : World} {ownerDid : Str} {k : Bytes}
    (hdid : ownerDid = (Service.Crypto.didKeyFromPublicKey P k).did)
    (hclass : w.tokenclasses.get (lit "PROP-DEED") = some (TokenClasses.propDeed P E))
    {credential : CredentialToken} {next : Nat}
    (hfound : Credentials.validCredentialFor P E w.draws w.credentials ownerDid =
      .ok (some credential, next)) :
    ∃ tokens ledger token,
      Tokens.mintToken P E w.draws w.credentials w.tokenclasses w.tokens w.ledger
        (mintInput ownerDid TokensPanel.deedRequest) = .ok (.ok tokens ledger token (next + 9)) ∧
      tokens.byId.get token.id = some token ∧ token.ownerIdent.map Identity.id = some ownerDid := by
  have hkyc : (TokenClasses.propDeed P E).requiresKYC = true := rfl
  have hgate : Tokens.complianceHook P E w.draws w.credentials
      (TokenClasses.propDeed P E) ownerDid = .ok (.passed credential.claims.head? next) := by
    rw [Tokens.complianceHook, if_pos hkyc, hfound]
    rfl
  have howner : P.validFormat .uriReference ownerDid = true :=
    hdid ▸ TokenClasses.did_uriReference h.formats h.base58 k
  have hissuer :
      P.validFormat .uriReference (Tokens.issuerOf P E (TokenClasses.propDeed P E)) = true :=
    TokenClasses.did_uriReference h.formats h.base58 _
  have hvalid : Tokens.validateToken P (Tokens.newToken P E next (TokenClasses.propDeed P E)
      credential.claims.head? (mintInput ownerDid TokensPanel.deedRequest)).toJson = true :=
    (Tokens.validateToken_iff h.formats h.uuidText rfl (by decide) hissuer howner
      (Tokens.complianceHook_claim h.formats hgate)).mpr ⟨rfl, rfl⟩
  exact ⟨_, _, _, Tokens.mintToken_succeeds w.tokens w.ledger hclass hgate hvalid,
    JsMap.get_set_self _ _ _, rfl⟩

theorem SignedIn.did {w : World} {session : Session} {account : Store.Account}
    (h : SignedIn P E w session account) :
    ∃ k, account.did = (Service.Crypto.didKeyFromPublicKey P k).did := by
  obtain ⟨n, input, rfl⟩ := h.drawn
  exact ⟨_, rfl⟩

theorem mint_succeeds (h : Dependable P E) {run : List Request} {w : World}
    (hworld : served P E run = w) {session : Session} {account : Store.Account}
    (hsigned : SignedIn P E w session account) {credential : CredentialToken} {next : Nat}
    (hfound : Credentials.validCredentialFor P E w.draws w.credentials account.did =
      .ok (some credential, next)) :
    Succeeds P E stamps (TokensPanel.mint session.token {}) run fun run' panel =>
      run <+: run' ∧ (served P E run').accounts = w.accounts ∧
      (served P E run').draws = next + 14 ∧ ∃ token, panel = { minted := some token.reparsed } ∧
        (served P E run').tokens.byId.get token.id = some token ∧
        token.ownerIdent.map Identity.id = some account.did := by
  obtain ⟨k, hkey⟩ := hsigned.did
  obtain ⟨tokens, ledger, token, hmint, hstored, howner⟩ :=
    pageDeed_minted h hkey (hworld ▸ propDeed_served run) hfound
  have hcall : Succeeds P E stamps (Client.mintToken session.token TokensPanel.deedRequest) run
      fun run₁ accepted => run <+: run₁ ∧ served P E run₁ = _ ∧ accepted = _ :=
      call_succeeds hworld fun stamp =>
    ⟨_, tokenMint_succeeds
      (hsigned.filed.tokenAccount (context_authorizes stamp hsigned.filed.token)) hmint, rfl⟩
  refine Program.succeeds_bind (Program.succeeds_andThen hcall fun run₁ accepted haccepted =>
    ?_) (Q := fun run₂ shown => run <+: run₂ ∧ (served P E run₂).accounts = w.accounts ∧
      (served P E run₂).draws = next + 14 ∧
      (served P E run₂).tokens.byId.get token.id = some token ∧ shown = token.reparsed)
    fun run₂ shown hshown => ?_
  · obtain ⟨hrun₁, hworld₁, rfl⟩ := haccepted
    refine Program.Succeeds.mono (call_succeeds hworld₁ fun stamp =>
      ⟨_, tokenGet_succeeds hstored, rfl⟩) fun run₂ shown hshown => ?_
    obtain ⟨hrun₂, hworld₂, rfl⟩ := hshown
    rw [hworld₂]
    exact ⟨hrun₁.trans hrun₂, rfl, rfl, hstored, rfl⟩
  · obtain ⟨hrun₂, haccounts, hdraws, hget, rfl⟩ := hshown
    exact Program.succeeds_ok ⟨hrun₂, haccounts, hdraws, token, rfl, hget, howner⟩

/-! ### The transfer -/

/-- The token that was minted is the one that is held. -/
theorem heldOf_minted {tokens : List TokenInstance} {token : TokenInstance} (hmem : token ∈ tokens)
    (honly : ∀ other ∈ tokens, other.id = token.id → other = token) :
    TransferPanel.heldOf (some token.id) tokens = some token := by
  unfold TransferPanel.heldOf
  cases hfind : tokens.find? fun other => some other.id = some token.id with
  | none =>
    have hnot := List.find?_eq_none.mp hfind token hmem
    exact absurd (decide_eq_true rfl) hnot
  | some other =>
    have hid : other.id = token.id := by simpa using List.find?_some hfind
    rw [honly other (List.mem_of_find?_eq_some hfind) hid, Option.some_or]

/-- What comes through is chosen as what was sent. -/
theorem heldOf_reparsed (mintedId : Option Str) (tokens : List TokenInstance) :
    TransferPanel.heldOf mintedId (tokens.map TokenInstance.reparsed) =
      (TransferPanel.heldOf mintedId tokens).map TokenInstance.reparsed := by
  rw [TransferPanel.heldOf, TransferPanel.heldOf, List.find?_map, List.head?_map, Option.map_or]
  rfl

section
variable {run : List Request} {w : World} {session : Session} {account : Store.Account}

theorem refreshHeld_succeeds (hworld : served P E run = w)
    (hsigned : SignedIn P E w session account) (panel : TransferPanel.Panel) :
    Succeeds P E stamps (TransferPanel.refreshHeld session.token panel) run fun run' panel' =>
      run <+: run' ∧ served P E run' = { w with draws := w.draws + 2 } ∧
      panel' = { panel with
          held := (TransferPanel.heldOf panel.mintedId
            (Tokens.tokensForOwner w.tokens account.did)).map TokenInstance.reparsed } := by
  have hcall : Succeeds P E stamps (Client.searchTokens session.token) run fun run₁ tokens =>
      run <+: run₁ ∧ served P E run₁ = _ ∧ tokens = _ := call_succeeds hworld fun stamp =>
    ⟨_, tokenSearch_succeeds
      (hsigned.filed.tokenAccount (context_authorizes stamp hsigned.filed.token)), rfl⟩
  refine Program.succeeds_bind hcall fun run₁ tokens htokens => ?_
  obtain ⟨hrun₁, hworld₁, rfl⟩ := htokens
  exact Program.succeeds_ok ⟨hrun₁, hworld₁, by rw [heldOf_reparsed]⟩

/-- A new token is found in the wallet. -/
theorem renew_succeeds (hworld : served P E run = w) (hsigned : SignedIn P E w session account)
    (hindexed : Tokens.Indexed w.tokens) {token : TokenInstance}
    (hget : w.tokens.byId.get token.id = some token)
    (howner : token.ownerIdent.map Identity.id = some account.did) (panel : TransferPanel.Panel) :
    Succeeds P E stamps (TransferPanel.renew session.token (some token.id) panel) run
      fun run' panel' => run <+: run' ∧ served P E run' = { w with draws := w.draws + 2 } ∧
        panel' = { mintedId := some token.id, held := some token.reparsed } := by
  refine (refreshHeld_succeeds hworld hsigned _).mono fun run' panel' hrefreshed => ?_
  obtain ⟨hrun', hworld', rfl⟩ := hrefreshed
  have hheld : TransferPanel.heldOf (some token.id) (Tokens.tokensForOwner w.tokens account.did) =
      some token := by
    refine heldOf_minted ?_ fun other hother hid => ?_
    · obtain ⟨did, howned⟩ := hindexed.owned hget
      rw [howned.ownerIdent, Option.some.injEq] at howner
      exact hindexed.mem_tokensForOwner.mpr ⟨JsMap.mem_values.mpr ⟨_, hget⟩, howner ▸ howned⟩
    · obtain ⟨id, hget'⟩ := JsMap.mem_values.mp (hindexed.mem_tokensForOwner.mp hother).1
      rw [← hindexed.ids hget', hid, hget, Option.some.injEq] at hget'
      exact hget'.symm
  rw [hheld]
  exact ⟨hrun', hworld', rfl⟩

/-- The account of the recipient is there, or is made. -/
theorem recipientReady_succeeds (hworld : served P E run = w) {recipient : Str}
    (hrecipient : isFinternetAddress recipient = true) :
    Succeeds P E stamps (TransferPanel.recipientReady recipient) run fun run' _ => run <+: run' ∧
      (served P E run').tokens = w.tokens ∧ (served P E run').draws ≤ w.draws + 8 ∧
      ∃ other, (served P E run').accounts.byAddress.get recipient = some other := by
  refine Program.succeeds_andThen (call_succeeds hworld
    (a := !Store.addressTaken w.accounts recipient) fun stamp => ⟨_, rfl, rfl⟩)
    fun run₁ available havailable => ?_
  obtain ⟨hrun₁, hworld₁, rfl⟩ := havailable
  cases hget : w.accounts.byAddress.get recipient with
  | some other =>
    have htaken : Store.addressTaken w.accounts recipient = true := by
      rw [Store.addressTaken, JsMap.has, hget]
      rfl
    rw [htaken]
    refine Program.succeeds_ok ⟨hrun₁, ?_, ?_, other, ?_⟩
    · rw [hworld₁]
    · rw [hworld₁]
      show w.draws + 2 ≤ w.draws + 8
      omega
    · rw [hworld₁]
      exact hget
  | none =>
    have htaken : Store.addressTaken w.accounts recipient = false := by
      rw [Store.addressTaken, JsMap.has, hget]
      rfl
    rw [htaken]
    refine Program.succeeds_andThen (call_succeeds hworld₁ fun stamp =>
        ⟨_, accountCreate_succeeds _ _ hrecipient hget, rfl⟩)
      fun run₂ success hsuccess => ?_
    obtain ⟨hrun₂, hworld₂, rfl⟩ := hsuccess
    refine Program.succeeds_ok ⟨hrun₁.trans hrun₂, ?_, ?_,
      Store.newAccount P E (w.draws + 2) ⟨recipient, recipient, .personal⟩, ?_⟩
    · rw [hworld₂]
    · rw [hworld₂]
      show w.draws + 2 + 4 + 2 ≤ w.draws + 8
      omega
    · rw [hworld₂]
      exact JsMap.get_set_self _ _ _

theorem fresh_of_draws {n : Nat} (hids : E.FreshIds n) (hkeys : E.FreshKeys P n)
    (h : (served P E run).draws ≤ n) :
    Fresh P E run :=
  ⟨hids.mono h, hkeys.mono h⟩

/-- The owner's transfer to an account that is there is accepted, and moves the token. -/
theorem transferCall_succeeds (hworld : served P E run = w)
    (hsigned : SignedIn P E w session account) (hindexed : Tokens.Indexed w.tokens)
    {token : TokenInstance} (hget : w.tokens.byId.get token.id = some token)
    (howner : token.ownerIdent.map Identity.id = some account.did) {recipient : Str}
    {other : Store.Account} (hne : recipient ≠ [])
    (hother : w.accounts.byAddress.get recipient = some other) :
    Succeeds P E stamps (Client.transfer session.token token.id recipient) run fun run' _ =>
      run <+: run' ∧
      (served P E run').accounts = w.accounts ∧ (served P E run').draws = w.draws + 11 ∧
      ∃ moved, (served P E run').tokens.byId.get token.id = some moved ∧
        moved.ownerIdent.map Identity.id = some other.did := by
  obtain ⟨did, howned⟩ := hindexed.owned hget
  have hcall : Succeeds P E stamps (Client.transfer session.token token.id recipient) run
      fun run' accepted => run <+: run' ∧ served P E run' = _ ∧ accepted = _ :=
      call_succeeds hworld fun stamp =>
    ⟨_, tokenTransact_succeeds (hsigned.filed.tokenAccount
        (context_authorizes stamp hsigned.filed.token)) rfl rfl rfl hne
      hother hget howner, rfl⟩
  refine hcall.mono fun run' accepted haccepted => ?_
  obtain ⟨hrun', hworld', _⟩ := haccepted
  rw [hworld']
  exact ⟨hrun', rfl, rfl, _, JsMap.get_set_self _ _ _, (howned.movedTo _ _ _).ownerIdent⟩

/-- The calls of a transfer end with the token moved to the account at the address. -/
theorem calls_succeeds (hb : P.Base58) {n : Nat} (hids : E.FreshIds n) (hkeys : E.FreshKeys P n)
    (hn : (served P E run).draws + 25 ≤ n) (hsigned : SignedIn P E (served P E run) session account)
    {token : TokenInstance} (hget : (served P E run).tokens.byId.get token.id = some token)
    (howner : token.ownerIdent.map Identity.id = some account.did) {recipient : Str}
    (hrecipient : isFinternetAddress recipient = true) :
    Succeeds P E stamps (TransferPanel.calls session.token token.id recipient) run
      fun run' replies => run <+: run' ∧ (served P E run').draws ≤ (served P E run).draws + 25 ∧
        ∃ other, (served P E run').accounts.byAddress.get recipient = some other ∧ ∃ moved,
          (served P E run').tokens.byId.get token.id = some moved ∧ replies.2.2 = moved.reparsed ∧
          moved.ownerIdent.map Identity.id = some other.did := by
  have hfresh : ∀ {run' : List Request}, (served P E run').draws ≤ (served P E run).draws + 25 →
      Fresh P E run' :=
    fun h => fresh_of_draws hids hkeys (h.trans hn)
  refine Program.succeeds_andThen (recipientReady_succeeds rfl hrecipient) fun run₁ _ hready => ?_
  obtain ⟨hrun₁, htokens, hdraws₁, other, hother⟩ := hready
  have hfresh₁ : Fresh P E run₁ := hfresh (by omega)
  have hsigned₁ := hsigned.later hb hrun₁ hfresh₁
  refine Program.succeeds_andThen ((transferCall_succeeds rfl hsigned₁ (indexed_served hfresh₁)
    (htokens ▸ hget) howner (isFinternetAddress_ne hrecipient) hother).ensured
    (TransferPanel.transfer_ensures hb hsigned₁ token.id recipient) fun run₂ _ htransfer =>
      hfresh (by omega)) fun run₂ accepted haccepted => ?_
  obtain ⟨_, ⟨hrun₂, haccounts, hdraws₂, moved, hmoved, hreceiver⟩, before, stamp, _, entry,
    hpassed, htxId⟩ := haccepted
  have hlogged := hpassed.logged.later hpassed.taken (hfresh (by omega))
  obtain ⟨proof, hproof⟩ := hlogged.proof
  rw [htxId]
  refine Program.succeeds_both (call_succeeds rfl fun stamp =>
    ⟨_, transactionProof_succeeds hproof, rfl⟩) fun run₃ _ hread₃ => ?_
  obtain ⟨hrun₃, hworld₃, rfl⟩ := hread₃
  refine Program.succeeds_both (call_succeeds hworld₃ fun stamp =>
    ⟨_, transactionGet_succeeds hlogged.log, rfl⟩) fun run₄ _ hread₄ => ?_
  obtain ⟨hrun₄, hworld₄, rfl⟩ := hread₄
  refine Program.Succeeds.mono (call_succeeds hworld₄ fun stamp =>
    ⟨_, tokenGet_succeeds hmoved, rfl⟩) fun run₅ _ hread₅ => ?_
  obtain ⟨hrun₅, hworld₅, rfl⟩ := hread₅
  refine ⟨hrun₁.trans (hrun₂.trans (hrun₃.trans (hrun₄.trans hrun₅))), ?_, other, ?_, moved, ?_,
    rfl, hreceiver⟩
  · rw [hworld₅]
    show (served P E run₂).draws + 2 + 2 + 2 ≤ _
    omega
  · rw [hworld₅]
    exact haccounts ▸ hother
  · rw [hworld₅]
    exact hmoved

/-- A transfer shows the recipient as the new owner, and a proof that verifies. -/
theorem transfer_succeeds (hb : P.Base58) {n : Nat} (hids : E.FreshIds n) (hkeys : E.FreshKeys P n)
    (hn : (served P E run).draws + 27 ≤ n) (hsigned : SignedIn P E (served P E run) session account)
    {token : TokenInstance} (hget : (served P E run).tokens.byId.get token.id = some token)
    (howner : token.ownerIdent.map Identity.id = some account.did) {recipient : Str}
    (hrecipient : isFinternetAddress recipient = true) {panel : TransferPanel.Panel}
    (hheld : panel.held = some token.reparsed) :
    Succeeds P E stamps (TransferPanel.transfer session.token recipient panel) run
      fun run' panel' => run <+: run' ∧ (served P E run').draws ≤ (served P E run).draws + 27 ∧
        panel'.proof.isSome ∧ TransferPanel.verdict P panel' = some true ∧
        ∃ other, (served P E run').accounts.byAddress.get recipient = some other ∧
          panel'.newOwner = some other.did ∧
          ownerOf (served P E run') token.id = some other.did := by
  rw [TransferPanel.transfer, hheld]
  refine Program.succeeds_bind
    ((calls_succeeds hb hids hkeys (by omega) hsigned hget howner hrecipient).ensured
      (TransferPanel.calls_ensures hb hsigned token.id recipient) fun run₁ _ hcalls =>
      fresh_of_draws hids hkeys (by omega)) fun run₁ replies hreplies => ?_
  obtain ⟨_, ⟨hrun₁, hdraws, other, hother, moved, hmoved, hread, hreceiver⟩, _, _, _, _, _,
    hshows⟩ := hreplies
  obtain ⟨proof, log, shown⟩ := replies
  obtain rfl : shown = moved.reparsed := hread
  have hsigned₁ := hsigned.later hb hrun₁ (fresh_of_draws hids hkeys (by omega))
  refine (refreshHeld_succeeds rfl hsigned₁ _).mono fun run₂ panel' hrefreshed => ?_
  obtain ⟨hrun₂, hworld₂, rfl⟩ := hrefreshed
  refine ⟨hrun₁.trans hrun₂, ?_, rfl, hshows.valid, other, ?_, hreceiver, ?_⟩
  · rw [hworld₂]
    show (served P E run₁).draws + 2 ≤ _
    omega
  · rw [hworld₂]
    exact hother
  · rw [hworld₂, ownerOf]
    show ((served P E run₁).tokens.byId.get token.id).bind _ = _
    rw [hmoved]
    exact hreceiver

end

/-! ### The journey -/

/-- Each step after the other, with the token handed down from its mint to its transfer. -/
def walk (payload : Store.RegistrationRequest) (recipient : Str) : PageFlow (Session × Panels) :=
  (CreateAccount.create payload.address payload.name payload.entityType).andThen fun session =>
    (CredentialsPanel.presses session.profile [.issue] {}).andThen fun credentials =>
      (TokensPanel.presses session.token [()] {}).andThen fun tokens =>
        (TransferPanel.presses session.token [.renew (tokens.minted.map TokenInstance.id),
            .transfer recipient] {}).andThen
          fun transfer => .done (.ok (session, ⟨credentials, tokens, transfer⟩))

/-- Less than a year passes between two draws. -/
def WithinAYear (E : Env) (m n : Nat) : Prop :=
  ∀ i j, m ≤ i → i < n → m ≤ j → j < n → E.clock i < E.clock j + oneYear

theorem WithinAYear.since {m m' n : Nat} (h : WithinAYear E m n) (hle : m ≤ m') :
    WithinAYear E m' n :=
  fun i j hi hin hj hjn => h i j (hle.trans hi) hin (hle.trans hj) hjn

theorem length_values_set_le {κ ν : Type} [DecidableEq κ] (m : JsMap κ ν) (k : κ) (v : ν) :
    (m.set k v).values.length ≤ m.values.length + 1 := by
  rw [JsMap.values, JsMap.values, List.length_map, List.length_map]
  cases hget : m.get k with
  | none => rw [JsMap.entries_set_new v hget, List.length_append, List.length_singleton]
  | some w =>
    rw [JsMap.entries_set_old v hget, List.length_map]
    exact Nat.le_succ _

/-- Whoever is issued the page's credential qualifies. -/
theorem certified_qualifies (h : Dependable P E) {run : List Request} {w : World}
    {profile : AccountProfile} {n : Nat} (hworld : served P E run = certifiedWorld P E w profile)
    (hfresh : Fresh P E run) (hn : w.draws + w.credentials.values.length + 10 ≤ n)
    (hclock : WithinAYear E w.draws n) :
    ∃ credential next, Credentials.validCredentialFor P E (w.draws + 9)
      (certifiedWorld P E w profile).credentials profile.did = .ok (some credential, next) ∧
      next ≤ w.draws + w.credentials.values.length + 10 := by
  have hlength :
      (certifiedWorld P E w profile).credentials.values.length ≤ w.credentials.values.length + 1 :=
    length_values_set_le w.credentials _ _
  have hget :
    (certifiedWorld P E w profile).credentials.get (kycCredential P E w.draws profile).id =
      some (kycCredential P E w.draws profile) := JsMap.get_set_self _ _ _
  have hstored := stored_served hfresh
  rw [← hworld, served_eq] at hget hlength ⊢
  obtain ⟨credential, next, hfound, hnext⟩ :=
    qualifies (m := w.draws + 9) h.ed25519 h.base58 h.dateParse hstored hget
      fun k hk => hclock _ _ (by omega) (by omega) (by omega) (by omega)
  exact ⟨credential, next, hfound, by omega⟩

/-- The button of the first panel, pressed once. -/
theorem credentials_succeed (h : Dependable P E) {run : List Request} {w : World}
    (hworld : served P E run = w) {profile : AccountProfile} {k : Bytes}
    (hdid : profile.did = (Service.Crypto.didKeyFromPublicKey P k).did)
    (hclock : E.clock (w.draws + 6) < E.clock (w.draws + 1) + oneYear) :
    Succeeds P E stamps (CredentialsPanel.presses profile [.issue] {}) run fun run' panel =>
      run <+: run' ∧
      served P E run' = certifiedWorld P E w profile ∧ panel.result.any (·.valid) = true := by
  refine Program.succeeds_andThen (issue_succeeds h hworld hdid hclock) fun run' panel hissued => ?_
  obtain ⟨hrun', hworld', result, rfl, hvalid⟩ := hissued
  exact Program.succeeds_ok ⟨hrun', hworld', hvalid⟩

/-- The token of the second panel, found and transferred in the third. -/
theorem moves_succeed (hb : P.Base58) {run : List Request} {n : Nat} (hids : E.FreshIds n)
    (hkeys : E.FreshKeys P n) (hn : (served P E run).draws + 29 ≤ n) {session : Session}
    {account : Store.Account} (hsigned : SignedIn P E (served P E run) session account)
    {token : TokenInstance} (hget : (served P E run).tokens.byId.get token.id = some token)
    (howner : token.ownerIdent.map Identity.id = some account.did) {recipient : Str}
    (hrecipient : isFinternetAddress recipient = true) :
    Succeeds P E stamps
      (TransferPanel.presses session.token [.renew (some token.id), .transfer recipient] {}) run
      fun run' panel => run <+: run' ∧ (served P E run').draws ≤ (served P E run).draws + 29 ∧
        panel.proof.isSome ∧ TransferPanel.verdict P panel = some true ∧ ∃ other,
          (served P E run').accounts.byAddress.get recipient = some other ∧
          panel.newOwner = some other.did ∧
          ownerOf (served P E run') token.id = some other.did := by
  have hfresh : Fresh P E run := fresh_of_draws hids hkeys (by omega)
  refine Program.succeeds_andThen (renew_succeeds rfl hsigned (indexed_served hfresh) hget howner
    {}) fun run₁ panel hrenewed => ?_
  obtain ⟨hrun₁, hworld₁, rfl⟩ := hrenewed
  have hdraws₁ : (served P E run₁).draws = (served P E run).draws + 2 := by rw [hworld₁]
  have hsigned₁ := hsigned.later hb hrun₁ (fresh_of_draws hids hkeys (by omega))
  have hget₁ : (served P E run₁).tokens.byId.get token.id = some token := by
    rw [hworld₁]
    exact hget
  have hthere : TransferPanel.press session.token (.transfer recipient)
      { mintedId := some token.id, held := some token.reparsed } =
      TransferPanel.transfer session.token recipient
      { mintedId := some token.id, held := some token.reparsed } :=
    if_pos (by simpa using isFinternetAddress_ne hrecipient)
  rw [Program.each, hthere]
  refine Program.succeeds_andThen
    (transfer_succeeds hb hids hkeys (by omega) hsigned₁ hget₁ howner hrecipient rfl)
    fun run₂ panel hmoved => ?_
  obtain ⟨hrun₂, hdraws₂, hproof, hverdict, hother⟩ := hmoved
  exact Program.succeeds_ok ⟨hrun₁.trans hrun₂, by omega, hproof, hverdict, hother⟩

/-- **An undisturbed visitor gets every light.** From any state of the service that a run leaves,
whoever asks for a free and well-formed address, and for a transfer to a well-formed one, goes
through the whole journey: an account of their own, a credential found valid, a token minted,
transferred to the account at the recipient's address, and a proof that verifies. The page shows the
new owner that the service has. It takes that no id and no key is drawn twice and less than a year
passes, over as many draws as the page makes and one for each stored credential; and that the
validator lets through what the page asks and what it is answered, with the stamps that it draws. -/
theorem journey_completes (h : Dependable P E) (run : List Request)
    {payload : Store.RegistrationRequest} {recipient : Str}
    (haddress : isFinternetAddress payload.address = true)
    (hfree : (served P E run).accounts.byAddress.get payload.address = none)
    (hrecipient : isFinternetAddress recipient = true) {n : Nat}
    (hn : (served P E run).draws + (served P E run).credentials.values.length + 65 ≤ n)
    (hids : E.FreshIds n) (hkeys : E.FreshKeys P n)
    (hclock : WithinAYear E (served P E run).draws n) (stamps : Nat → Stamp) :
    Succeeds P E stamps (walk payload recipient) run fun run' shown =>
      ∃ account other minted, SignedIn P E (served P E run') shown.1 account ∧
        shown.1.profile = ⟨account.did, payload.address, payload.name, payload.entityType⟩ ∧
        shown.2.journey P = ⟨true, true, true, true⟩ ∧ shown.2.tokens.minted = some minted ∧
        (served P E run').accounts.byAddress.get recipient = some other ∧
        ownerOf (served P E run') minted.id = some other.did ∧
        shown.2.transfer.newOwner = some other.did := by
  refine Program.succeeds_andThen (create_succeeds rfl haddress hfree)
    fun run₁ session hcreated => ?_
  obtain ⟨hrun₁, hworld₁, rfl⟩ := hcreated
  have hsession := createdWorld_signedIn (P := P) (E := E) (served P E run) haddress
  have hyear : E.clock ((served P E run).draws + 12 + 6) <
      E.clock ((served P E run).draws + 12 + 1) + oneYear :=
    hclock _ _ (by omega) (by omega) (by omega) (by omega)
  refine Program.succeeds_andThen (credentials_succeed h hworld₁ rfl hyear)
    fun run₂ credentials hcertified => ?_
  obtain ⟨hrun₂, hworld₂, hvalid⟩ := hcertified
  have hdraws₂ : (served P E run₂).draws = (served P E run).draws + 21 :=
    congrArg World.draws hworld₂
  obtain ⟨credential, next, hfound, hnext⟩ :=
    certified_qualifies (n := n) h hworld₂ (fresh_of_draws hids hkeys (by omega))
      (show (served P E run).draws + 12 + (served P E run).credentials.values.length + 10 ≤
        n by omega) (hclock.since (Nat.le_add_right _ 12))
  have hnext :
    next ≤ (served P E run).draws + 12 + (served P E run).credentials.values.length + 10 := hnext
  -- one press is the press and then nothing
  refine Program.succeeds_andThen
    (Program.succeeds_andThen (mint_succeeds h hworld₂ (hsession.same rfl) hfound)
      fun _ _ hminted => Program.succeeds_ok hminted) fun run₃ tokens hminted => ?_
  obtain ⟨hrun₃, haccounts, hdraws₃, minted, rfl, hget, howner⟩ := hminted
  have hsigned₃ := hsession.same haccounts
  refine Program.succeeds_andThen
    (moves_succeed h.base58 hids hkeys (by omega) hsigned₃ hget howner hrecipient)
    fun run₄ transfer hmoved => ?_
  obtain ⟨hrun₄, hdraws₄, hproof, hverdict, other, hother, howner', hreceiver⟩ := hmoved
  have hsigned₄ := hsigned₃.later h.base58 hrun₄ (fresh_of_draws hids hkeys (by omega))
  refine Program.succeeds_ok ⟨_, other, minted.reparsed, hsigned₄, rfl, ?_, rfl, hother,
    hreceiver, howner'⟩
  rw [Panels.journey, hvalid, hproof, decide_eq_true hverdict]
  rfl

theorem dependable_reference : Dependable Reference.primitives Reference.env where
  ed25519 := Reference.ed25519
  base58 := Reference.base58
  dateParse := Reference.dateParse
  formats := Reference.formats
  uris := Reference.uris
  uuidText := Reference.uuidText

/-- A time and a message id as a browser draws them. -/
def noon : Stamp := ⟨lit "2026-01-01T12:00:00.000Z", lit "3f0e8a52-6f1d-4c0b-9a37-52d1c06e7b14"⟩

/-- Alice's journey, on a service that nobody has used. -/
theorem journey_completes_alice :
    Succeeds Reference.primitives Reference.env (fun _ => noon) (walk alice (lit "bob")) []
      fun run' shown => ∃ account other minted, SignedIn Reference.primitives Reference.env
        (served Reference.primitives Reference.env run') shown.1 account ∧
        shown.1.profile = ⟨account.did, alice.address, alice.name, alice.entityType⟩ ∧
        shown.2.journey Reference.primitives = ⟨true, true, true, true⟩ ∧
        shown.2.tokens.minted = some minted ∧
        (served Reference.primitives Reference.env run').accounts.byAddress.get (lit "bob") =
          some other ∧
        ownerOf (served Reference.primitives Reference.env run') minted.id = some other.did ∧
        shown.2.transfer.newOwner = some other.did := by
  have hyear : WithinAYear Reference.env (served Reference.primitives Reference.env []).draws 67 :=
    fun i j _ hi _ _ => Reference.env_clock (by omega)
  have haddress : isFinternetAddress alice.address = true := by decide
  have hrecipient : isFinternetAddress (lit "bob") = true := by decide
  exact journey_completes dependable_reference [] haddress rfl hrecipient (show 2 + 0 + 65 ≤
    67 by decide) (Reference.freshIds 67) (Reference.freshKeys (by decide)) hyear fun _ => noon

end Wayfinder.App
