import Wayfinder.Reference
import Wayfinder.Service.Credentials.Issued
import Wayfinder.Service.Handlers.Runs

/-! When a request that writes succeeds.

`Change` says what a request can have done; these say when it does it. Each takes the
conditions of the handler and gives the world after it, for any request of its kind. -/
namespace Wayfinder.Service.Handlers

open Js Envelope Credentials TokenClasses Tokens

variable {P : Primitives} {E : Env}

theorem isFinternetAddress_ne {a : Str} (h : isFinternetAddress a = true) : a ≠ [] := by
  rintro rfl
  cases h

theorem accountCreate_succeeds {w : World} (context : Option Json)
    (payload : Store.RegistrationRequest) (haddress : isFinternetAddress payload.address = true)
    (hfree : w.accounts.byAddress.get payload.address = none) :
    handle P E w ⟨context, .accountCreate payload⟩ = ({ w with
          accounts := (Store.createAccount P E w.draws w.accounts payload).1
          draws := w.draws + Store.accountDraws + responseDraws },
        .answered (ok E (w.draws + Store.accountDraws) context
          (.registration { accessToken := Store.accessTokenAt E (w.draws + 3) }) 201)) := by
  have htaken : Store.addressTaken w.accounts payload.address = false := by
    rw [Store.addressTaken, JsMap.has, hfree]
    rfl
  simp only [handle, accountCreate, haddress, htaken, Bool.not_true, Bool.false_eq_true, if_false]
  rfl

/-- A token in the index leads to its account. -/
theorem tokenAccount_of_bearer {s : Store.State} {context : Option Json} {token address : Str}
    {account : Store.Account} (hbearer : bearerToken context = .ok (some token))
    (htoken : token ≠ []) (haddress : address ≠ []) (hget : s.byToken.get token = some address)
    (haccount : s.byAddress.get address = some account) :
    tokenAccount s context = .ok (some account) := by
  simp only [tokenAccount, hbearer]
  show Except.ok (if token = [] then none else Store.getByToken s token) = _
  rw [if_neg htoken, Store.getByToken, hget]
  show Except.ok (if address = [] then none else s.byAddress.get address) = _
  rw [if_neg haddress, haccount]

theorem tokenAccount_succeeds {s : Store.State} {token : Str} {address : Str}
    {account : Store.Account} (hraw : startsWith token (lit "Bearer ") = false)
    (htoken : token ≠ []) (haddress : address ≠ []) (hget : s.byToken.get token = some address)
    (haccount : s.byAddress.get address = some account) :
    tokenAccount s (some (.obj [(lit "authorization", .str token)])) = .ok (some account) := by
  have hbearer :
      bearerToken (some (.obj [(lit "authorization", .str token)])) = .ok (some token) := by
    have hread : readProp? (some (.obj [(lit "authorization", .str token)])) (lit "authorization") =
        some (.str token) := rfl
    simp only [bearerToken, hread]
    rw [if_neg (by simpa [truthy, Json.truthy] using htoken), if_neg (by rw [hraw]; decide)]
  exact tokenAccount_of_bearer hbearer htoken haddress hget haccount

/-- An issuance succeeds when the schema accepts the signed credential. -/
theorem issueCredential_succeeds {n : Nat} {s : Credentials.State} {input : IssueInput}
    {levelText : Str}
    (htext : toText (orElse input.verificationLevel (.str (lit "enhanced"))) = .ok levelText)
    (hvalid : validateCredential P (issued P E n input levelText).toJson = true) :
    issueCredential P E n s input =
      .ok (s.set (issued P E n input levelText).id (issued P E n input levelText),
        issued P E n input levelText) := by
  obtain ⟨signature, hsign, rfl⟩ := Crypto.signHashHex_sha256Hex (P := P)
    (issuerKeys P E).privateKey (canonical (.obj (unsignedVc P E n input).claimFields))
  have hwrap : wrap P E n input levelText { unsignedVc P E n input with
    proof := some (proofOf P E n (bytesToHex (P.ed25519Sign (P.sha256 (utf8Encode
      (canonical (.obj (unsignedVc P E n input).claimFields)))) (issuerKeys P E).privateKey))) } =
    issued P E n input levelText := rfl
  simp only [issueCredential, vcSigningHash_toJson, hsign, htext, hwrap, bind, Except.bind,
    hvalid, if_true]
  rfl

theorem credentialIssue_succeeds {w : World} (context payload : Option Json)
    {holderDid levelText : Str}
    (hholder : readProp? payload (lit "holderDid") = some (.str holderDid))
    (hdid : startsWith holderDid (lit "did:") = true)
    (htext : toText (orElse (issueInput payload holderDid).verificationLevel
      (.str (lit "enhanced"))) = .ok levelText)
    (hvalid : validateCredential P
      (issued P E w.draws (issueInput payload holderDid) levelText).toJson = true) :
    handle P E w ⟨context, .credentialIssue payload⟩ = ({ w with
          credentials :=
            w.credentials.set (issued P E w.draws (issueInput payload holderDid) levelText).id
              (issued P E w.draws (issueInput payload holderDid) levelText)
          draws := w.draws + issueDraws + responseDraws },
        .answered (ok E (w.draws + issueDraws) context
          (.credential (issued P E w.draws (issueInput payload holderDid) levelText)) 201)) := by
  have hne : holderDid ≠ [] := by
    intro hnil
    rw [hnil] at hdid
    exact absurd hdid (by decide)
  have htruthy : truthy (some (.str holderDid)) = true := by simpa [truthy, Json.truthy] using hne
  simp only [handle, credentialIssue, hholder, htruthy, hdid, issueCredential_succeeds htext hvalid]
  rfl

theorem credentialRevoke_succeeds {w : World} (context payload : Option Json) {id : Str}
    {credential : CredentialToken}
    (hid : readProp payload (lit "credentialId") = .ok (some (.str id)))
    (hget : w.credentials.get id = some credential) :
    handle P E w ⟨context, .credentialRevoke payload⟩ =
      ({ w with credentials := w.credentials.set id credential.revoked,
                draws := w.draws + responseDraws },
        .answered (ok E w.draws context (.status credential.revoked.id
          (getField credential.revoked.state (lit "status"))) 200)) := by
  simp only [handle, credentialRevoke, hid, revokeCredential, hget]
  rfl

theorem tokenMint_succeeds {w : World} {context : Option Json} {payload : MintTokenRequest}
    {account : Store.Account} {tokens : Tokens.State} {ledger : Ledger.State}
    {token : TokenInstance} {next : Nat}
    (haccount : tokenAccount w.accounts context = .ok (some account))
    (hmint : mintToken P E w.draws w.credentials w.tokenclasses w.tokens w.ledger
      (mintInput account.did payload) = .ok (.ok tokens ledger token next)) :
    handle P E w ⟨context, .tokenMint payload⟩ =
      ({ w with tokens, ledger, draws := next + 1 + responseDraws },
        .answered (accepted E (next + 1) context
          (.submitted
            { txId := E.uuid next, tokenId := some token.id,
              message := lit "Minted " ++ payload.tokenClass })
          (E.uuid next))) := by
  simp only [handle, tokenMint, withAccount, haccount, hmint]
  rfl

theorem tokenTransact_succeeds {w : World} {context : Option Json} {payload : TransactRequest}
    {account recipient : Store.Account} {id toAddress : Str} {token : TokenInstance}
    (haccount : tokenAccount w.accounts context = .ok (some account))
    (hoperation : payload.operation = lit "transfer") (hid : payload.tokenId = some id)
    (hto : payload.toAddress = some toAddress) (hne : toAddress ≠ [])
    (hrecipient : w.accounts.byAddress.get toAddress = some recipient)
    (hget : w.tokens.byId.get id = some token)
    (howner : token.ownerIdent.map Identity.id = some account.did) :
    handle P E w ⟨context, .tokenTransact payload⟩ = ({ w with
          tokens := (moveToken P E w.draws w.tokens w.ledger id token account.did recipient.did).1
          ledger := (moveToken P E w.draws w.tokens w.ledger id token account.did recipient.did).2.1
          draws := w.draws + transferDraws + 1 + responseDraws },
        .answered (accepted E (w.draws + transferDraws + 1) context
          (.submitted
            { txId := (moveToken P E w.draws w.tokens w.ledger id token account.did
              recipient.did).2.2.1
              message := lit "Transferred token to " ++ toAddress })
          (E.uuid (w.draws + transferDraws)))) := by
  have hget' : (Option.some id).bind
      (fun id => (w.tokens.byId.get id).map fun token => (id, token)) = some (id, token) := by
    rw [Option.bind_some, hget, Option.map_some]
  have htransfer :
      transferToken P E w.draws w.tokens w.ledger ⟨some id, account.did, recipient.did⟩ =
        .ok (moveToken P E w.draws w.tokens w.ledger id token account.did recipient.did).1
        (moveToken P E w.draws w.tokens w.ledger id token account.did recipient.did).2.1
        (moveToken P E w.draws w.tokens w.ledger id token account.did recipient.did).2.2.1
        (moveToken P E w.draws w.tokens w.ledger id token account.did recipient.did).2.2.2 := by
    simp only [transferToken, hget', howner, ne_eq, not_true_eq_false, if_false]
  simp only [handle, tokenTransact, withAccount, haccount, hoperation, hto, Option.getD_some, ne_eq,
    not_true_eq_false, if_false, hne, Store.getByAddress, hrecipient, transferTo, hid, htransfer]
  rfl

/-! ### A deed that changes hands

Alice and Bob open accounts, Alice is issued a credential, mints a deed and gives it to
Bob. The credential is about her, or about whoever her request names as its subject. -/

/-- A service in which the run goes through: its libraries keep their promises, texts have
their formats, no id is drawn twice and less than a year passes. -/
structure Reliable (P : Primitives) (E : Env) : Prop where
  ed25519 : P.Ed25519
  base58 : P.Base58
  dateParse : P.DateParse
  format : ∀ f t, P.validFormat f t = true
  fresh : E.FreshIds 44
  clock : ∀ n ≤ 44, E.clock n < E.clock 15 + oneYear

theorem reliable_reference : Reliable Reference.primitives Reference.env where
  ed25519 := Reference.ed25519
  base58 := Reference.base58
  dateParse := Reference.dateParse
  format := fun _ _ => rfl
  fresh := Reference.freshIds 44
  clock := fun n hn => Reference.env_clock (by omega)

def alice : Store.RegistrationRequest := ⟨lit "alice", lit "Alice", .personal⟩

def bob : Store.RegistrationRequest := ⟨lit "bob", lit "Bob", .personal⟩

section
variable (P E) (about : Option Str)

def aliceAccount : Store.Account := Store.newAccount P E 2 alice

def bobAccount : Store.Account := Store.newAccount P E 8 bob

def deedAccounts : Store.State :=
  (Store.createAccount P E 8 (Store.createAccount P E 2 .empty alice).1 bob).1

def holderPayload (holderDid : Str) (about : Option Str) : Option Json :=
  some (.obj ((lit "holderDid", .str holderDid) ::
    about.toList.map fun did => (lit "subject", .obj [(lit "id", .str did)])))

/-- What Alice is issued. -/
def aliceInput : IssueInput :=
  issueInput (holderPayload (aliceAccount P E).did about) (aliceAccount P E).did

def aliceCredential : CredentialToken := issued P E 14 (aliceInput P E about) (lit "enhanced")

def bearer (accessToken : Str) : Option Json :=
  some (.obj [(lit "authorization", .str accessToken)])

def deedPayload : MintTokenRequest := { tokenClass := lit "PROP-DEED", initialSupply := lit "1" }

def deedBefore : List Request :=
  [⟨none, .accountCreate alice⟩, ⟨none, .accountCreate bob⟩,
    ⟨none, .credentialIssue (holderPayload (aliceAccount P E).did about)⟩]

def mintRequest : Request := ⟨bearer (Store.accessTokenAt E 5), .tokenMint deedPayload⟩

/-- The deed before it is recorded. -/
def newDeed : TokenInstance :=
  newToken P E 21 (propDeed P E) (some (signedVc P E 14 (aliceInput P E about)))
    (mintInput (aliceAccount P E).did deedPayload)

def deed : TokenInstance :=
  (newDeed P E about).committedTo (mintOf P E 23 (newDeed P E about) (aliceAccount P E).did)

def moveRequest : Request :=
  ⟨bearer (Store.accessTokenAt E 5), .tokenTransact
    { operation := lit "transfer", tokenId := some (newDeed P E about).id,
      toAddress := some (lit "bob") }⟩

/-- The run in which the deed is minted and given to Bob. -/
def moveBefore : List Request := deedBefore P E none ++ [mintRequest E, moveRequest P E none]

/-- The world in which Alice can mint. -/
def deedWorld : World :=
  { accounts := deedAccounts P E
    credentials := JsMap.empty.set (aliceCredential P E about).id (aliceCredential P E about)
    tokenclasses := seed P E
    tokens := .empty
    ledger := .empty
    draws := 20 }

/-- The world in which Alice has minted. -/
def mintedWorld : World :=
  { deedWorld P E about with
    tokens := (storeMinted P E 23 .empty .empty (aliceAccount P E).did (newDeed P E about)).1
    ledger := (storeMinted P E 23 .empty .empty (aliceAccount P E).did (newDeed P E about)).2.1
    draws := 33 }

variable {P E} {about : Option Str}

theorem aliceCredential_valid (h : Reliable P E) :
    validateCredential P (aliceCredential P E about).toJson = true := by
  cases about with
  | none =>
    exact validateCredential_wrap h.format 14 _ _ (aliceCredential P E none).id _ rfl rfl rfl
  | some did =>
    exact validateCredential_wrap h.format 14 _ did
      (aliceCredential P E (some did)).id _ rfl rfl rfl

/-- With every text of the right format, the schema accepts a deed with a claim about
anyone and with any data. -/
theorem validateToken_deed (hformat : ∀ f t, P.validFormat f t = true) (n : Nat)
    (data : Option Fields) (input : IssueInput) (ownerDid subject : Str) (proof : VcProof)
    (hpurpose : proof.proofPurpose = lit "assertionMethod") :
    validateToken P (newToken P E n (propDeed P E) (some { unsignedVc P E 14 input with
      credentialSubject := [(lit "id", .str subject)], proof := some proof })
      (mintInput ownerDid { deedPayload with data })).toJson = true := by
  obtain ⟨_, _, _, _, _⟩ := proof
  obtain ⟨_, _, _, _, _, _, validFormat, _, _, _, _⟩ := P
  have : validFormat = fun _ _ => true := by
    funext f t
    exact hformat f t
  subst this
  cases hpurpose
  rfl

theorem deed_valid (h : Reliable P E) (n : Nat) (data : Option Fields) :
    validateToken P (newToken P E n (propDeed P E) (some (signedVc P E 14 (aliceInput P E about)))
      (mintInput (aliceAccount P E).did { deedPayload with data })).toJson = true := by
  cases about with
  | none => exact validateToken_deed h.format n data _ _ _ _ rfl
  | some did => exact validateToken_deed h.format n data _ _ did _ rfl

theorem after_accounts : after P E [⟨none, .accountCreate alice⟩, ⟨none, .accountCreate bob⟩] =
    { (service P E).initial with accounts := deedAccounts P E, draws := 14 } := by
  have halice :=
    accountCreate_succeeds (P := P) (E := E) (w := (service P E).initial) none alice (by decide) rfl
  have hbob := accountCreate_succeeds (P := P) (E := E)
    (w := { (service P E).initial with accounts := (Store.createAccount P E 2 .empty alice).1,
                                       draws := 8 }) none bob (by decide)
    (JsMap.get_set_ne _ _ (show lit "alice" ≠ lit "bob" by decide))
  show (handle P E (handle P E (service P E).initial ⟨none, .accountCreate alice⟩).1
    ⟨none, .accountCreate bob⟩).1 = _
  rw [halice]
  exact congrArg Prod.fst hbob

/-- Alice's credential is issued. -/
theorem handle_issueAlice (h : Reliable P E) :
    handle P E (after P E [⟨none, .accountCreate alice⟩, ⟨none, .accountCreate bob⟩]) ⟨none,
      .credentialIssue (holderPayload (aliceAccount P E).did about)⟩ = (deedWorld P E about,
        .answered (ok E 18 none (.credential (aliceCredential P E about)) 201)) := by
  have hholder : readProp? (holderPayload (aliceAccount P E).did about) (lit "holderDid") =
      some (.str (aliceAccount P E).did) := rfl
  have hlevel : toText (orElse (aliceInput P E about).verificationLevel (.str (lit "enhanced"))) =
      .ok (lit "enhanced") := by cases about <;> rfl
  have hissue := credentialIssue_succeeds (P := P) (E := E)
    (w := { (service P E).initial with accounts := deedAccounts P E, draws := 14 })
    none _ hholder (Crypto.startsWith_did _) hlevel (aliceCredential_valid h)
  rw [after_accounts, hissue]
  rfl

theorem after_deedBefore (h : Reliable P E) :
    after P E (deedBefore P E about) = deedWorld P E about :=
  congrArg Prod.fst (handle_issueAlice h)

theorem aliceAccount_deedAccounts :
    (deedAccounts P E).byAddress.get (lit "alice") = some (aliceAccount P E) := by
  have halice : (Store.createAccount P E 2 .empty alice).1.byAddress.get (lit "alice") =
      some (aliceAccount P E) :=
    JsMap.get_set_self _ _ _
  exact (JsMap.get_set_ne _ _ (show lit "bob" ≠ lit "alice" by decide)).trans halice

theorem bobAccount_deedAccounts :
    (deedAccounts P E).byAddress.get (lit "bob") = some (bobAccount P E) :=
  JsMap.get_set_self _ _ _

theorem seed_propDeed (P : Primitives) (E : Env) :
    (seed P E).get (lit "PROP-DEED") = some (propDeed P E) :=
  JsMap.get_set_self _ _ _

/-- Alice's access token is for her account. -/
theorem alice_tokenAccount (h : Reliable P E) :
    tokenAccount (deedAccounts P E) (bearer (Store.accessTokenAt E 5)) =
      .ok (some (aliceAccount P E)) := by
  have hne : Store.accessTokenAt E 11 ≠ Store.accessTokenAt E 5 := by
    intro he
    have := h.fresh 11 5 (by decide) (by decide) (List.append_cancel_left he)
    cases this
  have halice : (Store.createAccount P E 2 .empty alice).1.byToken.get (Store.accessTokenAt E 5) =
      some (lit "alice") := JsMap.get_set_self _ _ _
  refine tokenAccount_succeeds rfl ?_ (by decide) ?_ aliceAccount_deedAccounts
  · exact List.append_ne_nil_of_left_ne_nil (by decide) _
  · exact (JsMap.get_set_ne _ _ hne).trans halice

theorem alice_validCredential (h : Reliable P E) {n : Nat} (hn : n ≤ 44) :
    validCredentialFor P E n (deedWorld P E about).credentials (aliceAccount P E).did =
      .ok (some (aliceCredential P E about), n + 1) := by
  have hvalues : (deedWorld P E about).credentials.values = [aliceCredential P E about] :=
    JsMap.values_set_new _ (JsMap.get_empty _)
  have hheld : credentialsForHolder (deedWorld P E about).credentials (aliceAccount P E).did =
      [aliceCredential P E about] := by
    rw [credentialsForHolder, hvalues, List.filter_cons_of_pos, List.filter_nil]
    rw [aliceCredential, heldBy_issued]
    exact beq_self_eq_true _
  have hget : (deedWorld P E about).credentials.get (aliceCredential P E about).id =
      some (aliceCredential P E about) :=
    JsMap.get_set_self _ _ _
  have hclaims : (aliceCredential P E about).claims = [signedVc P E 14 (aliceInput P E about)] :=
    rfl
  obtain ⟨result, hresult, hchecks, hvalid⟩ :=
    verifyCredential_stored (E := E) h.dateParse n hget hclaims rfl (E.clock_le 15)
      (verifyVcSignature_issued h.ed25519 h.base58 14 _)
  have hstatus : isRevoked (getField (aliceCredential P E about).state (lit "status")) = false :=
    rfl
  have htrue : result.valid = true := by
    rw [hvalid, hchecks, Checks.valid, aliceCredential_valid h, hstatus,
      decide_eq_true (h.clock n hn)]
    rfl
  rw [validCredentialFor, hheld, findValid, hresult]
  show (if result.valid = true then Except.ok (some (aliceCredential P E about), n + 1) else _) = _
  rw [if_pos htrue]

/-- Alice can mint a deed with any data. -/
theorem mintToken_deed (h : Reliable P E) {n : Nat} (hn : n ≤ 44) (data : Option Fields) :
    mintToken P E n (deedWorld P E about).credentials (seed P E) .empty .empty
      (mintInput (aliceAccount P E).did { deedPayload with data }) =
      .ok (.ok (storeMinted P E (n + 3) .empty .empty (aliceAccount P E).did
        (newToken P E (n + 1) (propDeed P E) (some (signedVc P E 14 (aliceInput P E about)))
          (mintInput (aliceAccount P E).did { deedPayload with data }))).1
        (storeMinted P E (n + 3) .empty .empty (aliceAccount P E).did
          (newToken P E (n + 1) (propDeed P E) (some (signedVc P E 14 (aliceInput P E about)))
            (mintInput (aliceAccount P E).did { deedPayload with data }))).2.1
        (storeMinted P E (n + 3) .empty .empty (aliceAccount P E).did
          (newToken P E (n + 1) (propDeed P E) (some (signedVc P E 14 (aliceInput P E about)))
            (mintInput (aliceAccount P E).did { deedPayload with data }))).2.2 (n + 10)) := by
  have hgate :
      complianceHook P E n (deedWorld P E about).credentials (propDeed P E) (aliceAccount P E).did =
        .ok (.passed (some (signedVc P E 14 (aliceInput P E about))) (n + 1)) := by
    have hkyc : (propDeed P E).requiresKYC = true := rfl
    rw [complianceHook, if_pos hkyc, alice_validCredential h hn]
    rfl
  exact mintToken_succeeds (P := P) (E := E) (n := n) .empty .empty (seed_propDeed P E) hgate
    (deed_valid h _ data)

/-- A deed with any data is stored under its id. -/
theorem deed_stored (h : Reliable P E) (about : Option Str) (data : Option Fields) :
    ∃ tokens ledger token, mintToken P E 20 (deedWorld P E about).credentials
      (seed P E) .empty .empty (mintInput (aliceAccount P E).did { deedPayload with data }) =
      .ok (.ok tokens ledger token 30) ∧ tokens.byId.get token.id = some token :=
  ⟨_, _, _, mintToken_deed h (by decide) data, JsMap.get_set_self _ _ _⟩

/-- Alice's deed is minted. -/
theorem handle_mintDeed (h : Reliable P E) :
    handle P E (after P E (deedBefore P E about)) (mintRequest E) =
      (mintedWorld P E about, .answered (accepted E 31 (bearer (Store.accessTokenAt E 5))
        (.submitted { txId := E.uuid 30, tokenId := some (deed P E about).id,
                      message := lit "Minted " ++ deedPayload.tokenClass }) (E.uuid 30))) := by
  rw [after_deedBefore h, mintRequest]
  exact tokenMint_succeeds (w := deedWorld P E about) (alice_tokenAccount h)
    (mintToken_deed h (show 20 ≤ 44 by decide) none)

theorem after_mint (h : Reliable P E) (about : Option Str) :
    after P E (deedBefore P E about ++ [mintRequest E]) = mintedWorld P E about :=
  congrArg Prod.fst (handle_mintDeed h)

/-- The minted world holds the deed. -/
theorem deed_minted :
    (mintedWorld P E about).tokens.byId.get (newDeed P E about).id = some (deed P E about) :=
  JsMap.get_set_self _ _ _

/-- What Alice is answered when she gives the deed to Bob. -/
def deedSubmitted (P : Primitives) (E : Env) (about : Option Str) : Submitted :=
  { txId := (moveToken P E 33 (mintedWorld P E about).tokens (mintedWorld P E about).ledger
    (newDeed P E about).id
      (deed P E about) (aliceAccount P E).did (bobAccount P E).did).2.2.1
    message := lit "Transferred token to " ++ lit "bob" }

/-- The deed is given to Bob. -/
theorem handle_moveDeed (h : Reliable P E) (about : Option Str) :
    handle P E (after P E (deedBefore P E about ++ [mintRequest E])) (moveRequest P E about) =
      ({ mintedWorld P E about with
          tokens := (moveToken P E 33 (mintedWorld P E about).tokens (mintedWorld P E about).ledger
            (newDeed P E about).id (deed P E about) (aliceAccount P E).did (bobAccount P E).did).1
          ledger := (moveToken P E 33 (mintedWorld P E about).tokens (mintedWorld P E about).ledger
            (newDeed P E about).id (deed P E about) (aliceAccount P E).did (bobAccount P E).did).2.1
          draws := 44 },
        .answered (accepted E 42 (bearer (Store.accessTokenAt E 5))
          (.submitted (deedSubmitted P E about)) (E.uuid 41))) := by
  rw [after_mint h about]
  exact tokenTransact_succeeds (w := mintedWorld P E about)
    (alice_tokenAccount h) rfl rfl rfl (by decide) bobAccount_deedAccounts deed_minted rfl

theorem after_move (h : Reliable P E) (about : Option Str) :
    after P E (deedBefore P E about ++ [mintRequest E, moveRequest P E about]) =
      { mintedWorld P E about with
        tokens := (moveToken P E 33 (mintedWorld P E about).tokens (mintedWorld P E about).ledger
          (newDeed P E about).id (deed P E about) (aliceAccount P E).did (bobAccount P E).did).1
        ledger := (moveToken P E 33 (mintedWorld P E about).tokens (mintedWorld P E about).ledger
          (newDeed P E about).id (deed P E about) (aliceAccount P E).did (bobAccount P E).did).2.1
        draws := 44 } :=
  congrArg Prod.fst (handle_moveDeed h about)

/-- The deed at the end of the run: it is there, of its class, and Bob's. -/
theorem deed_moved (h : Reliable P E) (about : Option Str) : ∃ token,
    (after P E (deedBefore P E about ++ [mintRequest E, moveRequest P E about])).tokens.byId.get
      (newDeed P E about).id = some token ∧
    (after P E (deedBefore P E about ++ [mintRequest E, moveRequest P E about])).tokenclasses.get
      token.metadata.tokenClass = some (propDeed P E) ∧
    token.ownerIdent.map Identity.id = some (bobAccount P E).did := by
  rw [after_move h about, moveToken_eq]
  exact ⟨_, JsMap.get_set_self _ _ _, JsMap.get_set_self _ _ _, rfl⟩

end

end Wayfinder.Service.Handlers
