import Wayfinder.Service.Handlers

/-! The handlers that write, statement by statement.

A statement reads and writes the world and may throw; what was written before it throws
stays written. Each function makes its reads, draws and writes in the order of the source,
and where the source writes to an object that a store holds, the store's entry is written.
The handlers that write to no store are run as they are (`reading`). -/
namespace Wayfinder.Service.Statements

open Js Envelope Credentials TokenClasses Tokens Handlers

abbrev Statement (α : Type) := EStateM Thrown World α

variable (P : Primitives) (E : Env)

/-! ### What the functions share -/

/-- Makes draws; the index of the first. -/
def draw (k : Nat) : Statement Nat := do
  let w ← get
  set { w with draws := w.draws + k }
  return w.draws

/-- An expression that may throw. -/
def evaluate {α : Type} : Except Thrown α → Statement α
  | .ok a => pure a
  | .error e => throw e

def onAccounts (f : Store.State → Store.State) : Statement Unit :=
  modify fun w => { w with accounts := f w.accounts }

def onCredentials (f : Credentials.State → Credentials.State) : Statement Unit :=
  modify fun w => { w with credentials := f w.credentials }

def onTokens (f : Tokens.State → Tokens.State) : Statement Unit :=
  modify fun w => { w with tokens := f w.tokens }

def onLedger (f : Ledger.State → Ledger.State) : Statement Unit :=
  modify fun w => { w with ledger := f w.ledger }

/-- Writes to the object that stands under a key. -/
def write {ν : Type} (m : JsMap Str ν) (k : Str) (f : ν → ν) : JsMap Str ν :=
  match m.get k with
  | none => m
  | some v => m.set k (f v)

/-- Sends a response that is made on two draws. -/
def send (response : Nat → Response Body) :
    Statement (Response Body) := do return response (← draw responseDraws)

def ok (context : Option Json) (body : Body) (http : Nat := 200) : Statement (Response Body) :=
  send fun n => Envelope.ok E n context body http

def fail (context : Option Json) (http : Nat) (code message : Str) : Statement (Response Body) :=
  send fun n => Envelope.fail E n context http code message

def accepted (context : Option Json) (body : Body) (transactionId : Str) :
    Statement (Response Body) :=
  send fun n => Envelope.accepted E n context body transactionId

def withAccount (context : Option Json) (handler : Store.Account → Statement (Response Body)) :
    Statement (Response Body) := do
  match ← evaluate (tokenAccount (← get).accounts context) with
  | none =>
    fail E context 401 (lit "UNAUTHORIZED") (lit "Missing or invalid context.authorization token")
  | some account => handler account

/-! ### `store.ts` -/

def createAccount (input : Store.RegistrationRequest) : Statement Store.CreatedAccount := do
  let account := Store.newAccount P E (← draw 3) input
  onAccounts fun s => { s with byAddress := s.byAddress.set account.address account }
  onAccounts fun s => { s with byKeyId := s.byKeyId.set account.keyId account.address }
  let accessToken := Store.accessTokenAt E (← draw 1)
  onAccounts fun s => { s with byToken := s.byToken.set accessToken account.address }
  return ⟨account, accessToken⟩

/-! ### `credentials.ts` -/

def issueCredential (input : IssueInput) : Statement CredentialToken := do
  let n ← draw issueDraws
  let vc := unsignedVc P E n input
  let proofValue ← evaluate
    (Crypto.signHashHex P (issuerKeys P E).privateKey (vcSigningHash P vc.toJson))
  let levelText ← evaluate (toText (orElse input.verificationLevel (.str (lit "enhanced"))))
  let credential := wrap P E n input levelText { vc with proof := some (proofOf P E n proofValue) }
  if !validateCredential P credential.toJson then
    throw (.error (lit "issued credential failed schema validation: " ++
      P.errorsText CredentialSchema.credentialSchema credential.toJson))
  onCredentials fun s => s.set credential.id credential
  return credential

def revokeCredential (id : Option Json) : Statement (Option CredentialToken) := do
  match id with
  | some (.str id) =>
    if !(← get).credentials.has id then return none
    onCredentials fun s => write s id fun c =>
      { c with state := setField c.state (lit "status") (.str (lit "revoked")) }
    onCredentials fun s => write s id fun c =>
      { c with metadata := setField c.metadata (lit "status") (.str (lit "deprecated")) }
    return (← get).credentials.get id
  | _ => return none

/-! ### `tokenclasses.ts` -/

def registerTokenClass (input : RegisterTokenClassInput) : Statement TokenClass := do
  let tc := newTokenClass P E (← draw 1) input
  modify fun w => { w with tokenclasses := w.tokenclasses.set tc.tokenClass tc }
  return tc

/-! ### `ledger.ts` -/

def buildLog (txId initiator : Str) (tokenTx : Ledger.TokenTransaction) : Statement Unit := do
  let log := Ledger.newLog P E (← draw 4) txId initiator tokenTx
  onLedger fun s => { s with txLogs := s.txLogs.set txId log }
  onLedger fun s => { s with tokenTxById := s.tokenTxById.set tokenTx.tokenTxId tokenTx }
  let hist := ((← get).ledger.historyByToken.get tokenTx.tokenId).getD []
  onLedger fun s =>
    { s with historyByToken := s.historyByToken.set tokenTx.tokenId (hist ++ [tokenTx.tokenTxId]) }

def addLeaf (txId : Str) (leafData : Json) : Statement Unit :=
  onLedger fun s =>
    { s with leaves := s.leaves ++ [⟨txId, Crypto.sha256Hex P (Ledger.canonical leafData)⟩] }

def recordMint (input : Ledger.MintRecord) : Statement Ledger.Recorded := do
  let tokenTx := Ledger.mintTransaction P E (← draw 3) input
  buildLog P E tokenTx.txId input.ownerDid tokenTx
  addLeaf P tokenTx.txId (.obj [(lit "txId", .str tokenTx.txId),
    (lit "operation", .str (lit "mint")), (lit "tokenId", .str input.tokenId), (lit "stateAfter",
      .str tokenTx.stateAfter.stateCommitment), (lit "timestamp", .str tokenTx.timestamp)])
  return ⟨tokenTx.txId, tokenTx.stateAfter.stateCommitment⟩

def recordTransfer (input : Ledger.TransferRecord) : Statement Ledger.Recorded := do
  let tokenTx := Ledger.transferTransaction P E (← draw 3) input
  buildLog P E tokenTx.txId input.fromDid tokenTx
  addLeaf P tokenTx.txId (.obj [(lit "txId", .str tokenTx.txId),
    (lit "operation", .str (lit "transfer")), (lit "tokenId", .str input.tokenId),
    (lit "stateBefore", .str input.previousCommitment), (lit "stateAfter",
      .str tokenTx.stateAfter.stateCommitment), (lit "timestamp", .str tokenTx.timestamp)])
  return ⟨tokenTx.txId, tokenTx.stateAfter.stateCommitment⟩

/-! ### `tokens.ts` -/

inductive Minted where
  | ok (token : TokenInstance)
  | refused (code : MintCode) (message : Str)

inductive Moved where
  | ok (txId : Str)
  | refused (code : TransferCode) (message : Str)

/-- The compliance hook; it draws, and writes nothing. -/
def complianceHook (tc : TokenClass) (ownerDid : Str) : Statement Gate := do
  let w ← get
  let gate ← evaluate (Tokens.complianceHook P E w.draws w.credentials tc ownerDid)
  match gate with
  | .passed _ next => set { w with draws := next }
  | .refused next => set { w with draws := next }
  return gate

def mintToken (input : MintInput) : Statement Minted := do
  match getTokenClass (← get).tokenclasses input.tokenClass with
  | none =>
    return .refused .classNotFound (lit "Unknown token class '" ++ input.tokenClass ++ lit "'")
  | some tc =>
    match ← complianceHook P E tc input.ownerDid with
    | .refused _ =>
      return .refused .complianceCheckFailed (lit "Minting a '" ++ tc.tokenClass ++
        lit "' token requires a valid KYC credential; " ++ lit "holder " ++ input.ownerDid ++
        lit " holds none. Issue (and don't revoke) a credential first.")
    | .passed claim _ =>
      let token := newToken P E (← draw 2) tc claim input
      if !validateToken P token.toJson then
        throw (.error (lit "minted token failed schema validation: " ++
          P.errorsText TokenSchema.tokenSchema token.toJson))
      onTokens fun s => { s with byId := s.byId.set token.id token }
      onTokens fun s => { s with ownerToIds := addTo s.ownerToIds input.ownerDid token.id }
      let recorded ← recordMint P E ⟨token.id, input.ownerDid, claimsDigestOf P token⟩
      onTokens fun s =>
        { s with byId := write s.byId token.id (·.withCommitment recorded.stateCommitment) }
      return .ok (token.withCommitment recorded.stateCommitment)

def transferToken (input : TransferInput) : Statement Moved := do
  let shown := input.tokenId.getD (lit "undefined")
  match input.tokenId with
  | none => return .refused .tokenNotFound (lit "No token '" ++ shown ++ lit "'")
  | some id =>
    match (← get).tokens.byId.get id with
    | none => return .refused .tokenNotFound (lit "No token '" ++ shown ++ lit "'")
    | some token =>
      if token.ownerIdent.map Identity.id ≠ some input.fromDid then
        return .refused .notOwner (lit "Caller does not own token '" ++ shown ++ lit "'")
      let moved ← recordTransfer P E ⟨token.id, input.fromDid, input.toDid,
        token.state.stateCommitment.getD [], claimsDigestOf P token⟩
      onTokens fun s => { s with byId := write s.byId id fun t =>
        { t with identities := setOwner input.toDid t.identities } }
      onTokens fun s => { s with byId := write s.byId id (·.withCommitment moved.stateCommitment) }
      let now := E.now (← draw 1)
      onTokens fun s => { s with byId := write s.byId id fun t =>
        { t with metadata := { t.metadata with updatedAt := now } } }
      onTokens fun s => { s with ownerToIds := removeFrom s.ownerToIds input.fromDid token.id }
      onTokens fun s => { s with ownerToIds := addTo s.ownerToIds input.toDid token.id }
      return .ok moved.txId

/-! ### `handlers.ts` -/

def accountCreate (context : Option Json) (payload : Store.RegistrationRequest) :
    Statement (Response Body) := do
  if !isFinternetAddress payload.address then
    fail E context 400 (lit "INVALID_ADDRESS") (lit "Address must match ^[a-z0-9_-]+$")
  else if Store.addressTaken (← get).accounts payload.address then
    fail E context 409 (lit "ADDRESS_TAKEN")
      (lit "Address '" ++ payload.address ++ lit "' is already registered")
  else
    let created ← createAccount P E payload
    ok E context (.registration { accessToken := created.accessToken }) 201

def credentialIssue (context payload : Option Json) : Statement (Response Body) := do
  let holderDid := readProp? payload (lit "holderDid")
  if !truthy holderDid then
    fail E context 400 (lit "INVALID_HOLDER") (lit "payload.holderDid must be a DID")
  else
    match holderDid with
    | some (.str holderDid) =>
      if !startsWith holderDid (lit "did:") then
        fail E context 400 (lit "INVALID_HOLDER") (lit "payload.holderDid must be a DID")
      else
        try
          let credential ← issueCredential P E (issueInput payload holderDid)
          ok E context (.credential credential) 201
        catch e =>
          fail E context 500 (lit "ISSUE_FAILED") (P.message e)
    | _ => throw .typeError

def credentialRevoke (context payload : Option Json) : Statement (Response Body) := do
  let credentialId ← evaluate (readProp payload (lit "credentialId"))
  match ← revokeCredential credentialId with
  | some credential =>
    ok E context (.status credential.id (getField credential.state (lit "status")))
  | none =>
    let text ← evaluate (toText? credentialId)
    fail E context 404 (lit "NOT_FOUND") (lit "no credential '" ++ text ++ lit "'")

def tokenClassRegister (context : Option Json) (payload : RegisterTokenClassInput) :
    Statement (Response Body) := do
  if payload.tokenClass = [] || payload.tokenStandard = [] || payload.name = [] then
    fail E context 400 (lit "INVALID_REQUEST")
      (lit "tokenClass, tokenStandard and name are required")
  else if tokenClassExists (← get).tokenclasses payload.tokenClass then
    fail E context 409 (lit "RESOURCE_CONFLICT")
      (lit "Token class '" ++ payload.tokenClass ++ lit "' already exists")
  else
    let tc ← registerTokenClass P E payload
    ok E context (.tokenClass tc) 201

def tokenMint (context : Option Json) (payload : MintTokenRequest) : Statement (Response Body) :=
  withAccount E context fun account => do
    match ← mintToken P E (mintInput account.did payload) with
    | .refused code message =>
      fail E context (if code = .classNotFound then 404 else 403) code.text message
    | .ok token =>
      let txId := E.uuid (← draw 1)
      accepted E context (.submitted
        { txId, tokenId := some token.id, message := lit "Minted " ++ payload.tokenClass }) txId

def tokenTransact (context : Option Json) (payload : TransactRequest) : Statement (Response Body) :=
  withAccount E context fun account => do
    if payload.operation ≠ lit "transfer" then
      fail E context 400 (lit "UNSUPPORTED_OPERATION")
        (lit "Only 'transfer' is implemented; got '" ++ payload.operation ++ lit "'")
    else
      let toAddress := payload.toAddress.getD []
      if toAddress = [] then
        fail E context 400 (lit "INVALID_REQUEST")
          (lit "transfer requires payload.to (recipient address)")
      else
        match Store.getByAddress (← get).accounts toAddress with
        | none =>
          fail E context 404 (lit "RECIPIENT_NOT_FOUND")
            (lit "No account for address '" ++ toAddress ++ lit "'")
        | some recipient =>
          match ← transferToken P E ⟨payload.tokenId, account.did, recipient.did⟩ with
          | .refused code message =>
            fail E context (if code = .tokenNotFound then 404 else 403) code.text message
          | .ok txId =>
            let transactionId := E.uuid (← draw 1)
            accepted E context (.submitted
              { txId, message := lit "Transferred token to " ++ toAddress }) transactionId

/-- A handler that writes to no store. -/
def reading (handler : World → World × Outcome) : Statement (Response Body) := fun w =>
  match handler w with
  | (w', .answered response) => .ok response w'
  | (w', .threw e) => .error e w'

def handle (request : Request) : Statement (Response Body) :=
  let context := request.context
  match request.payload with
  | .accountCreate payload => accountCreate P E context payload
  | .credentialIssue payload => credentialIssue P E context payload
  | .credentialRevoke payload => credentialRevoke E context payload
  | .tokenClassRegister payload => tokenClassRegister P E context payload
  | .tokenMint payload => tokenMint P E context payload
  | .tokenTransact payload => tokenTransact P E context payload
  | _ => reading fun w => Handlers.handle P E w request

end Wayfinder.Service.Statements
