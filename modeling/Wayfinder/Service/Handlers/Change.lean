import Wayfinder.Service.Handlers
import Wayfinder.Service.Tokens.Minted

/-! What a request can do to the service.

`Change` lists it: six kinds of request write to a store, each under its own conditions, and
every other one leaves the stores as they were. A response *reports* a change when its
body is one that only such a request gets. `handle_change` says that each request makes a
change of the list; the invariants of the service are proved from the list. -/
namespace Wayfinder.Service.Handlers

open Js Envelope Credentials TokenClasses Tokens

/-- The bodies of the requests that write, but for the registration of a class. -/
def Body.reports : Body → Bool
  | .registration _ => true
  | .credential _ => true
  | .status _ _ => true
  | .submitted _ => true
  | _ => false

def Outcome.body : Outcome → Option Body
  | .answered response => response.response
  | .threw _ => none

def Outcome.reports (outcome : Outcome) : Bool := outcome.body.any Body.reports

variable (P : Primitives) (E : Env)

/-- The world after a request, and its outcome. -/
inductive Change (w : World) : Request → World → Outcome → Prop where
  | quiet {request : Request} {outcome : Outcome} {n : Nat} (hdraws : w.draws ≤ n)
      (hquiet : outcome.reports = false) : Change w request { w with draws := n } outcome
  | created {context : Option Json} {payload : Store.RegistrationRequest}
      (haddress : isFinternetAddress payload.address = true)
      (hfree : w.accounts.byAddress.get payload.address = none) :
      Change w ⟨context, .accountCreate payload⟩
        { w with
          accounts := (Store.createAccount P E w.draws w.accounts payload).1
          draws := w.draws + Store.accountDraws + responseDraws }
        (.answered (ok E (w.draws + Store.accountDraws) context
          (.registration { accessToken := Store.accessTokenAt E (w.draws + 3) }) 201))
  | issued {context payload : Option Json} {holderDid : Str} {credentials : Credentials.State}
      {credential : CredentialToken}
      (hholder : readProp? payload (lit "holderDid") = some (.str holderDid))
      (hissue : issueCredential P E w.draws w.credentials (issueInput payload holderDid) =
        .ok (credentials, credential)) : Change w ⟨context, .credentialIssue payload⟩
          { w with credentials, draws := w.draws + issueDraws + responseDraws }
          (.answered (ok E (w.draws + issueDraws) context (.credential credential) 201))
  | revoked {context payload : Option Json} {id : Str}
      {credential : CredentialToken} (hid : readProp payload (lit "credentialId") =
        .ok (some (.str id))) (hget : w.credentials.get id = some credential) :
      Change w ⟨context, .credentialRevoke payload⟩
        { w with credentials := w.credentials.set id credential.revoked,
                 draws := w.draws + responseDraws } (.answered (ok E w.draws context (.status
                   credential.revoked.id (getField credential.revoked.state (lit "status"))) 200))
  | registered {context : Option Json} {payload : RegisterTokenClassInput}
      (hnew : w.tokenclasses.get payload.tokenClass = none) :
      Change w ⟨context, .tokenClassRegister payload⟩
        { w with
          tokenclasses := w.tokenclasses.set payload.tokenClass (newTokenClass P E w.draws payload)
          draws := w.draws + 1 + responseDraws }
        (.answered
          (ok E (w.draws + 1) context (.tokenClass (newTokenClass P E w.draws payload)) 201))
  | minted {context : Option Json} {payload : MintTokenRequest} {account : Store.Account}
      {tokens : Tokens.State} {ledger : Ledger.State} {token : TokenInstance} {next : Nat}
      (haccount : tokenAccount w.accounts context = .ok (some account))
      (hmint : mintToken P E w.draws w.credentials w.tokenclasses w.tokens w.ledger
        (mintInput account.did payload) = .ok (.ok tokens ledger token next)) :
      Change w ⟨context, .tokenMint payload⟩
        { w with tokens, ledger, draws := next + 1 + responseDraws }
        (.answered (accepted E (next + 1) context
          (.submitted
            { txId := E.uuid next, tokenId := some token.id,
              message := lit "Minted " ++ payload.tokenClass })
          (E.uuid next)))
  | moved {context : Option Json} {payload : TransactRequest} {account recipient : Store.Account}
      {id toAddress : Str} {token : TokenInstance}
      (haccount : tokenAccount w.accounts context = .ok (some account))
      (hoperation : payload.operation = lit "transfer") (hid : payload.tokenId = some id)
      (hto : payload.toAddress = some toAddress)
      (hrecipient : w.accounts.byAddress.get toAddress = some recipient)
      (hget : w.tokens.byId.get id = some token)
      (howner : token.ownerIdent.map Identity.id = some account.did) :
      Change w ⟨context, .tokenTransact payload⟩
        { w with
          tokens := (moveToken P E w.draws w.tokens w.ledger id token account.did recipient.did).1
          ledger := (moveToken P E w.draws w.tokens w.ledger id token account.did recipient.did).2.1
          draws := w.draws + transferDraws + 1 + responseDraws }
        (.answered (accepted E (w.draws + transferDraws + 1) context
          (.submitted
            { txId := (moveToken P E w.draws w.tokens w.ledger id token account.did
              recipient.did).2.2.1
              message := lit "Transferred token to " ++ toAddress })
          (E.uuid (w.draws + transferDraws))))

variable {P E}

/-! ### What the shared parts do -/

theorem reply_quiet {w : World} {context : Option Json} {body : Body} {http : Nat}
    {request : Request} (h : body.reports = false) :
    Change P E w request (reply E w context body http).1 (reply E w context body http).2 :=
  .quiet (Nat.le_add_right _ _) (by simpa [Outcome.reports, Outcome.body, reply, ok] using h)

theorem refuse_quiet {w : World} {context : Option Json} {http : Nat} {code message : Str}
    {request : Request} {n : Nat} (h : w.draws ≤ n) :
    Change P E w request (refuse E { w with draws := n } context http code message).1
      (refuse E { w with draws := n } context http code message).2 :=
  .quiet (Nat.le_trans h (Nat.le_add_right _ _)) rfl

theorem threw_quiet {w : World} {e : Thrown} {request : Request} :
    Change P E w request w (.threw e) :=
  .quiet (Nat.le_refl _) rfl

theorem withAccount_change {w : World} {context : Option Json} {request : Request}
    {handle : Store.Account → World × Outcome}
    (h : ∀ account, tokenAccount w.accounts context = .ok (some account) →
      Change P E w request (handle account).1 (handle account).2) :
    Change P E w request (withAccount E w context handle).1 (withAccount E w context handle).2 := by
  unfold withAccount
  split
  · exact threw_quiet
  · exact refuse_quiet (Nat.le_refl _)
  · next account haccount => exact h account haccount

theorem credentialVerify_quiet (w : World) (context payload : Option Json) {request : Request} :
    Change P E w request (credentialVerify P E w context payload).1
      (credentialVerify P E w context payload).2 := by
  unfold credentialVerify
  split
  · exact threw_quiet
  · exact refuse_quiet (Nat.le_refl _)
  · split
    · exact refuse_quiet (Nat.le_refl _)
    · split
      · exact threw_quiet
      · refine .quiet ?_ rfl
        exact Nat.le_trans (Nat.le_add_right _ 1) (Nat.le_add_right _ _)

/-! ### The handlers that write -/

theorem accountCreate_change (w : World) (context : Option Json)
    (payload : Store.RegistrationRequest) :
    Change P E w ⟨context, .accountCreate payload⟩ (accountCreate P E w context payload).1
      (accountCreate P E w context payload).2 := by
  unfold accountCreate
  split
  · exact refuse_quiet (Nat.le_refl _)
  · next haddress =>
    split
    · exact refuse_quiet (Nat.le_refl _)
    · next htaken =>
      refine .created (by simpa using haddress) ?_
      simpa [Store.addressTaken, JsMap.has] using htaken

theorem credentialIssue_change (w : World) (context payload : Option Json) :
    Change P E w ⟨context, .credentialIssue payload⟩ (credentialIssue P E w context payload).1
      (credentialIssue P E w context payload).2 := by
  simp only [credentialIssue]
  split
  · exact refuse_quiet (Nat.le_refl _)
  · split
    · next holderDid hholder =>
      split
      · exact refuse_quiet (Nat.le_refl _)
      · split
        · next hissue => exact .issued hholder hissue
        · exact refuse_quiet (Nat.le_add_right _ _)
    · exact threw_quiet

theorem credentialRevoke_change (w : World) (context payload : Option Json) :
    Change P E w ⟨context, .credentialRevoke payload⟩ (credentialRevoke E w context payload).1
      (credentialRevoke E w context payload).2 := by
  unfold credentialRevoke
  split
  · exact threw_quiet
  · next credentialId hid =>
    split
    · next credentials credential hrevoke =>
      unfold revokeCredential at hrevoke
      split at hrevoke
      · next id =>
        split at hrevoke
        · cases hrevoke
        · next stored hget =>
          cases hrevoke
          exact .revoked hid hget
      · cases hrevoke
    · split
      · exact threw_quiet
      · exact refuse_quiet (Nat.le_refl _)

theorem tokenClassRegister_change (w : World) (context : Option Json)
    (payload : RegisterTokenClassInput) :
    Change P E w ⟨context, .tokenClassRegister payload⟩ (tokenClassRegister P E w context payload).1
      (tokenClassRegister P E w context payload).2 := by
  unfold tokenClassRegister
  split
  · exact refuse_quiet (Nat.le_refl _)
  · split
    · exact refuse_quiet (Nat.le_refl _)
    · next hexists =>
      refine .registered ?_
      simpa [tokenClassExists, JsMap.has] using hexists

theorem tokenMint_change (w : World) (context : Option Json) (payload : MintTokenRequest) :
    Change P E w ⟨context, .tokenMint payload⟩ (tokenMint P E w context payload).1
      (tokenMint P E w context payload).2 := by
  refine withAccount_change fun account haccount => ?_
  split
  · exact threw_quiet
  · next hmint => exact refuse_quiet (mintToken_refused_next hmint)
  · next hmint => exact .minted haccount hmint

theorem tokenTransact_change (w : World) (context : Option Json) (payload : TransactRequest) :
    Change P E w ⟨context, .tokenTransact payload⟩ (tokenTransact P E w context payload).1
      (tokenTransact P E w context payload).2 := by
  refine withAccount_change fun account haccount => ?_
  split
  · exact refuse_quiet (Nat.le_refl _)
  · next hoperation =>
    simp only
    split
    · exact refuse_quiet (Nat.le_refl _)
    · next hto =>
      split
      · exact refuse_quiet (Nat.le_refl _)
      · next recipient hrecipient =>
        unfold transferTo
        split
        · exact refuse_quiet (Nat.le_refl _)
        · next tokens ledger txId moved htransfer =>
          obtain ⟨id, token, hid, hget, howner, hmoved⟩ := transferToken_ok htransfer
          obtain ⟨toAddress, htoAddress⟩ : ∃ toAddress, payload.toAddress = some toAddress := by
            cases h : payload.toAddress with
            | none => exact absurd (by rw [h]; rfl) hto
            | some toAddress => exact ⟨toAddress, rfl⟩
          rw [htoAddress] at hrecipient
          have hchange := Change.moved (P := P) (E := E) haccount (by simpa using hoperation)
            hid htoAddress hrecipient hget howner
          rw [hmoved] at hchange
          rwa [htoAddress]

/-- **Every request makes a change of the list.** -/
theorem handle_change (w : World) (request : Request) :
    Change P E w request (handle P E w request).1 (handle P E w request).2 := by
  obtain ⟨context, payload⟩ := request
  cases payload with
  | accountCreate payload => exact accountCreate_change w context payload
  | credentialIssue payload => exact credentialIssue_change w context payload
  | credentialRevoke payload => exact credentialRevoke_change w context payload
  | tokenClassRegister payload => exact tokenClassRegister_change w context payload
  | tokenMint payload => exact tokenMint_change w context payload
  | tokenTransact payload => exact tokenTransact_change w context payload
  | checkAvailability address => exact reply_quiet rfl
  | credentialIssuer => exact reply_quiet rfl
  | accountGet => exact withAccount_change fun _ _ => reply_quiet rfl
  | keysSearch => exact withAccount_change fun _ _ => reply_quiet rfl
  | tokenSearch => exact withAccount_change fun _ _ => reply_quiet rfl
  | resolveAddress address =>
    simp only [handle, resolveAddress]
    split
    · exact refuse_quiet (Nat.le_refl _)
    · exact reply_quiet rfl
  | keysSign payload =>
    simp only [handle, keysSign]
    split
    · exact refuse_quiet (Nat.le_refl _)
    · split
      · exact threw_quiet
      · exact reply_quiet rfl
  | keysPublic keyReference =>
    simp only [handle, keysPublic]
    split
    · exact refuse_quiet (Nat.le_refl _)
    · exact reply_quiet rfl
  | credentialVerify payload => exact credentialVerify_quiet w context payload
  | credentialList payload =>
    simp only [handle, credentialList]
    split
    · exact threw_quiet
    · exact reply_quiet rfl
    · exact reply_quiet rfl
  | tokenClassGet tokenClass =>
    simp only [handle, tokenClassGet]
    split
    · exact refuse_quiet (Nat.le_refl _)
    · exact reply_quiet rfl
  | tokenGet tokenId =>
    simp only [handle, tokenGet]
    split
    · exact refuse_quiet (Nat.le_refl _)
    · exact reply_quiet rfl
  | transactionGet txId =>
    simp only [handle, transactionGet]
    split
    · exact refuse_quiet (Nat.le_refl _)
    · exact reply_quiet rfl
  | tokenTransactionsList payload =>
    simp only [handle, tokenTransactionsList]
    split
    · exact refuse_quiet (Nat.le_refl _)
    · exact reply_quiet rfl
  | transactionProof txId =>
    simp only [handle, transactionProof]
    split
    · exact refuse_quiet (Nat.le_refl _)
    · exact reply_quiet rfl

end Wayfinder.Service.Handlers
