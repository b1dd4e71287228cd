import Wayfinder.Machine
import Wayfinder.Service.Envelope
import Wayfinder.Service.Store
import Wayfinder.Service.Tokens

/-! `handlers.ts`: the request handlers.

`World` is every store of the service, with the number of draws made so far. A handler
takes the request and gives the world after it, and either the response or what it threw;
what a request that throws drew is lost, and the next request goes on in its place.

The OpenAPI validator checks the requests of the vendored specs, so their payloads have
types here. The credential endpoints are not in the specs: their payload is any JSON value
or missing, as is every `context`. -/
namespace Wayfinder.Service.Handlers

open Js Envelope Credentials TokenClasses Tokens

/-! ### Requests and responses -/

structure SignMessageRequest where
  keyReference : Str
  hash : Str

structure MintTokenRequest where
  tokenClass : Str
  initialSupply : Str
  /-- `metadata?.name` -/
  name : Option Json := none
  data : Option Fields := none

structure TransactRequest where
  operation : Str
  tokenId : Option Str := none
  /-- `to` -/
  toAddress : Option Str := none
  amount : Option Str := none

structure TokenTransactionsRequest where
  /-- `filters?.tokenId` -/
  filtersTokenId : Option Str := none
  tokenId : Option Json := none

/-- The endpoints with their payloads. -/
inductive Payload where
  | accountCreate (payload : Store.RegistrationRequest)
  | checkAvailability (address : Str)
  | resolveAddress (address : Str)
  | accountGet
  | keysSearch
  | keysSign (payload : SignMessageRequest)
  | keysPublic (keyReference : Str)
  | credentialIssuer
  | credentialIssue (payload : Option Json)
  | credentialVerify (payload : Option Json)
  | credentialRevoke (payload : Option Json)
  | credentialList (payload : Option Json)
  | tokenClassRegister (payload : RegisterTokenClassInput)
  | tokenClassGet (tokenClass : Str)
  | tokenMint (payload : MintTokenRequest)
  | tokenGet (tokenId : Str)
  | tokenSearch
  | tokenTransact (payload : TransactRequest)
  | transactionGet (txId : Str)
  | tokenTransactionsList (payload : TokenTransactionsRequest)
  | transactionProof (txId : Str)

structure Request where
  context : Option Json
  payload : Payload

structure RegistrationSuccess where
  accessToken : Str
  tokenType : Str := lit "Bearer"
  expiresIn : Nat := 3600
  isExisting : Bool := false

structure AccountProfile where
  did : Str
  address : Str
  name : Str
  entityType : Store.EntityType

structure AccountKeyInfo where
  keyId : Str
  publicKeyMultibase : Str
  keyType : Str := lit "Ed25519VerificationKey2020"
  purpose : List Str := [lit "authentication", lit "assertion"]
  status : Str := lit "active"
  isPrimary : Bool := true
  createdAt : Str

structure Pagination where
  total : Nat
  limit : Nat
  offset : Nat

structure Submitted where
  txId : Str
  tokenId : Option Str := none
  status : Str := lit "submitted"
  message : Str

/-- The body of a response. -/
inductive Body where
  | registration (success : RegistrationSuccess)
  | availability (available : Bool)
  | resolved (address did : Str)
  | profile (account : AccountProfile)
  | keys (keys : List AccountKeyInfo)
  | signature (signature : Str)
  | publicKey (publicKey address : Str)
  | issuer (info : IssuerInfo)
  | credential (credential : CredentialToken)
  | verdict (result : VerificationResult)
  | status (id : Str) (status : Option Json)
  | credentials (credentials : List CredentialToken)
  | tokenClass (tc : TokenClass)
  | submitted (submitted : Submitted)
  | token (token : TokenInstance)
  | tokens (tokens : List TokenInstance) (pagination : Pagination)
  | log (log : Ledger.TransactionLog)
  | tokenTransactions (list : List Ledger.TokenTransaction) (pagination : Pagination)
  | proof (proof : Ledger.ProofDetails)

inductive Outcome where
  | answered (response : Response Body)
  | threw (thrown : Thrown)

/-! ### The world -/

/-- Every store of the service. -/
structure Stores where
  accounts : Store.State
  credentials : Credentials.State
  tokenclasses : TokenClasses.State
  tokens : Tokens.State
  ledger : Ledger.State

structure World extends Stores where
  draws : Nat

variable (P : Primitives) (E : Env)

/-- What the handlers share: `ok`, `fail` and `accepted` on the draws of the world. -/
def reply (w : World) (context : Option Json) (body : Body) (http : Nat := 200) : World × Outcome :=
  ({ w with draws := w.draws + responseDraws }, .answered (ok E w.draws context body http))

def refuse (w : World) (context : Option Json) (http : Nat)
    (code message : Str) : World × Outcome :=
  ({ w with draws := w.draws + responseDraws },
    .answered (fail E w.draws context http code message))

def accept (w : World) (context : Option Json) (body : Body)
    (transactionId : Str) : World × Outcome :=
  ({ w with draws := w.draws + responseDraws },
    .answered (accepted E w.draws context body transactionId))

/-- The account behind `context.authorization`. -/
def tokenAccount (s : Store.State) (context : Option Json) :
    Except Thrown (Option Store.Account) := do
  match ← bearerToken context with
  | none => return none
  | some token => return if token = [] then none else Store.getByToken s token

/-- What needs an account answers 401 without one. -/
def withAccount (w : World) (context : Option Json) (handle : Store.Account → World × Outcome) :
    World × Outcome :=
  match tokenAccount w.accounts context with
  | .error e => (w, .threw e)
  | .ok none =>
    refuse E w context 401 (lit "UNAUTHORIZED")
      (lit "Missing or invalid context.authorization token")
  | .ok (some account) => handle account

/-! ### Accounts and keys -/

/-- `/^[a-z0-9_-]+$/` -/
def isFinternetAddress (s : Str) : Bool :=
  s != [] && s.all fun u => (97 ≤ u && u ≤ 122) || (48 ≤ u && u ≤ 57) || u == 95 || u == 45

def accountCreate (w : World) (context : Option Json)
    (payload : Store.RegistrationRequest) : World × Outcome :=
  if !isFinternetAddress payload.address then
    refuse E w context 400 (lit "INVALID_ADDRESS") (lit "Address must match ^[a-z0-9_-]+$")
  else if Store.addressTaken w.accounts payload.address then
    refuse E w context 409 (lit "ADDRESS_TAKEN")
      (lit "Address '" ++ payload.address ++ lit "' is already registered")
  else
    let (accounts, created) := Store.createAccount P E w.draws w.accounts payload
    reply E { w with accounts, draws := w.draws + Store.accountDraws } context
      (.registration { accessToken := created.accessToken }) 201

def checkAvailability (w : World) (context : Option Json) (address : Str) : World × Outcome :=
  reply E w context (.availability !Store.addressTaken w.accounts address)

def resolveAddress (w : World) (context : Option Json) (address : Str) : World × Outcome :=
  match Store.getByAddress w.accounts address with
  | none =>
    refuse E w context 404 (lit "NOT_FOUND") (lit "No account for address '" ++ address ++ lit "'")
  | some account => reply E w context (.resolved account.address account.did)

def accountGet (w : World) (context : Option Json) : World × Outcome :=
  withAccount E w context fun account =>
    reply E w context (.profile { did := account.did, address := account.address,
                                  name := account.name, entityType := account.entityType })

def keysSearch (w : World) (context : Option Json) : World × Outcome :=
  withAccount E w context fun account =>
    reply E w context (.keys
      [{ keyId := account.keyId, publicKeyMultibase := account.publicKeyMultibase,
         createdAt := account.createdAt }])

def keyNotFound (keyReference : Str) : Str :=
  lit "No key for reference '" ++ keyReference ++ lit "'"

def keysSign (w : World) (context : Option Json) (payload : SignMessageRequest) : World × Outcome :=
  match Store.getByKeyId w.accounts payload.keyReference with
  | none => refuse E w context 404 (lit "KEY_NOT_FOUND") (keyNotFound payload.keyReference)
  | some account =>
    let hashHex := if startsWith payload.hash (lit "0x") then slice payload.hash 2 else payload.hash
    match Crypto.signHashHex P account.privateKey hashHex with
    | .error e => (w, .threw e)
    | .ok signature => reply E w context (.signature signature)

def keysPublic (w : World) (context : Option Json) (keyReference : Str) : World × Outcome :=
  match Store.getByKeyId w.accounts keyReference with
  | none => refuse E w context 404 (lit "KEY_NOT_FOUND") (keyNotFound keyReference)
  | some account => reply E w context (.publicKey account.publicKeyMultibase account.address)

/-! ### Credentials -/

def credentialIssuer (w : World) (context : Option Json) : World × Outcome :=
  reply E w context (.issuer (issuerInfo P E))

/-- What is issued for a payload with a holder. -/
def issueInput (payload : Option Json) (holderDid : Str) : IssueInput :=
  { holderDid
    credentialType := readProp? payload (lit "credentialType")
    verificationLevel := readProp? payload (lit "verificationLevel")
    subject := readProp? payload (lit "subject") }

def credentialIssue (w : World) (context payload : Option Json) : World × Outcome :=
  let holderDid := readProp? payload (lit "holderDid")
  if !truthy holderDid then
    refuse E w context 400 (lit "INVALID_HOLDER") (lit "payload.holderDid must be a DID")
  else
    match holderDid with
    | some (.str holderDid) =>
      if !startsWith holderDid (lit "did:") then
        refuse E w context 400 (lit "INVALID_HOLDER") (lit "payload.holderDid must be a DID")
      else
        match issueCredential P E w.draws w.credentials (issueInput payload holderDid) with
        | .ok (credentials, credential) =>
          reply E { w with credentials, draws := w.draws + issueDraws } context
            (.credential credential) 201
        | .error e =>
          refuse E
            { w with draws := w.draws + issueDraws } context 500 (lit "ISSUE_FAILED") (P.message e)
    -- what is no string has no `startsWith`
    | _ => (w, .threw .typeError)

/-- `payload.credential`, or else the stored credential of `payload.credentialId`. -/
def chosenCredential (s : Credentials.State) (payload : Option Json) :
    Except Thrown (Option Json) := do
  let credential ← readProp payload (lit "credential")
  if !nullish credential then return credential
  let credentialId ← readProp payload (lit "credentialId")
  return if truthy credentialId then
    (getCredential s credentialId).map CredentialToken.toJson else none

def credentialVerify (w : World) (context payload : Option Json) : World × Outcome :=
  match chosenCredential w.credentials payload with
  | .error e => (w, .threw e)
  | .ok none => refuse E w context 404 (lit "NOT_FOUND") (lit "no credential given or found by id")
  | .ok (some credential) =>
    if !credential.truthy then
      refuse E w context 404 (lit "NOT_FOUND") (lit "no credential given or found by id")
    else
      match verifyCredential P E w.draws w.credentials credential with
      | .error e => (w, .threw e)
      | .ok result => reply E { w with draws := w.draws + 1 } context (.verdict result)

def credentialRevoke (w : World) (context payload : Option Json) : World × Outcome :=
  match readProp payload (lit "credentialId") with
  | .error e => (w, .threw e)
  | .ok credentialId =>
    match revokeCredential w.credentials credentialId with
    | some (credentials, credential) =>
      reply E { w with credentials } context
        (.status credential.id (getField credential.state (lit "status")))
    | none =>
      match toText? credentialId with
      | .error e => (w, .threw e)
      | .ok text =>
        refuse E w context 404 (lit "NOT_FOUND") (lit "no credential '" ++ text ++ lit "'")

def credentialList (w : World) (context payload : Option Json) : World × Outcome :=
  match readProp payload (lit "holderDid") with
  | .error e => (w, .threw e)
  | .ok (some (.str holderDid)) =>
    reply E w context (.credentials (credentialsForHolder w.credentials holderDid))
  -- no identity has an id that is not a string
  | .ok _ => reply E w context (.credentials [])

/-! ### Tokens and token classes -/

def tokenClassRegister (w : World) (context : Option Json)
    (payload : RegisterTokenClassInput) : World × Outcome :=
  if payload.tokenClass = [] || payload.tokenStandard = [] || payload.name = [] then
    refuse E w context 400 (lit "INVALID_REQUEST")
      (lit "tokenClass, tokenStandard and name are required")
  else if tokenClassExists w.tokenclasses payload.tokenClass then
    refuse E w context 409 (lit "RESOURCE_CONFLICT")
      (lit "Token class '" ++ payload.tokenClass ++ lit "' already exists")
  else
    let (tokenclasses, tc) := registerTokenClass P E w.draws w.tokenclasses payload
    reply E { w with tokenclasses, draws := w.draws + 1 } context (.tokenClass tc) 201

def tokenClassGet (w : World) (context : Option Json) (tokenClass : Str) : World × Outcome :=
  match getTokenClass w.tokenclasses tokenClass with
  | none =>
    refuse E w context 404 (lit "RESOURCE_NOT_FOUND")
      (lit "No token class '" ++ tokenClass ++ lit "'")
  | some tc => reply E w context (.tokenClass tc)

def mintInput (ownerDid : Str) (payload : MintTokenRequest) : MintInput :=
  { tokenClass := payload.tokenClass, ownerDid, initialSupply := payload.initialSupply
    name := payload.name, data := payload.data }

/-- The transaction id that is answered is a UUID of the handler's own. -/
def tokenMint (w : World) (context : Option Json) (payload : MintTokenRequest) : World × Outcome :=
  withAccount E w context fun account =>
    match mintToken P E w.draws w.credentials w.tokenclasses w.tokens w.ledger
      (mintInput account.did payload) with
    | .error e => (w, .threw e)
    | .ok (.refused code message next) =>
      refuse E { w with draws := next } context (if code = .classNotFound then
        404 else 403) code.text message
    | .ok (.ok tokens ledger token next) =>
      accept E { w with tokens, ledger, draws := next + 1 } context (.submitted
        { txId := E.uuid next, tokenId := some token.id,
          message := lit "Minted " ++ payload.tokenClass }) (E.uuid next)

def tokenGet (w : World) (context : Option Json) (tokenId : Str) : World × Outcome :=
  match getToken w.tokens tokenId with
  | none =>
    refuse E w context 404 (lit "RESOURCE_NOT_FOUND") (lit "No token '" ++ tokenId ++ lit "'")
  | some token => reply E w context (.token token)

def tokenSearch (w : World) (context : Option Json) : World × Outcome :=
  withAccount E w context fun account =>
    let owned := tokensForOwner w.tokens account.did
    reply E w context (.tokens owned ⟨owned.length, 50, 0⟩)

/-! ### Movement -/

/-- A transfer to an account; the amount is not looked at. -/
def transferTo (w : World) (context : Option Json) (payload : TransactRequest)
    (toAddress fromDid toDid : Str) :
    World × Outcome :=
  match transferToken P E w.draws w.tokens w.ledger ⟨payload.tokenId, fromDid, toDid⟩ with
  | .refused code message =>
    refuse E w context (if code = .tokenNotFound then 404 else 403) code.text message
  | .ok tokens ledger txId _ =>
    accept E { w with tokens, ledger, draws := w.draws + transferDraws + 1 } context
      (.submitted { txId, message := lit "Transferred token to " ++ toAddress })
      (E.uuid (w.draws + transferDraws))

def tokenTransact (w : World) (context : Option Json)
    (payload : TransactRequest) : World × Outcome :=
  withAccount E w context fun account =>
    if payload.operation ≠ lit "transfer" then
      refuse E w context 400 (lit "UNSUPPORTED_OPERATION")
        (lit "Only 'transfer' is implemented; got '" ++ payload.operation ++ lit "'")
    else
      let toAddress := payload.toAddress.getD []
      if toAddress = [] then
        refuse E w context 400 (lit "INVALID_REQUEST")
          (lit "transfer requires payload.to (recipient address)")
      else
        match Store.getByAddress w.accounts toAddress with
        | none =>
          refuse E w context 404 (lit "RECIPIENT_NOT_FOUND")
            (lit "No account for address '" ++ toAddress ++ lit "'")
        | some recipient => transferTo P E w context payload toAddress account.did recipient.did

def transactionGet (w : World) (context : Option Json) (txId : Str) : World × Outcome :=
  match Ledger.getTransaction w.ledger txId with
  | none =>
    refuse E w context 404 (lit "RESOURCE_NOT_FOUND") (lit "No transaction '" ++ txId ++ lit "'")
  | some log => reply E w context (.log log)

/-- `payload.filters?.tokenId ?? payload.tokenId` -/
def TokenTransactionsRequest.chosen (payload : TokenTransactionsRequest) : Option Json :=
  match payload.filtersTokenId with
  | some id => some (.str id)
  | none => payload.tokenId

def tokenTransactionsList (w : World) (context : Option Json) (payload : TokenTransactionsRequest) :
    World × Outcome :=
  let tokenId := payload.chosen
  if !truthy tokenId then
    refuse E w context 400 (lit "INVALID_REQUEST") (lit "filters.tokenId is required")
  else
    let list := match tokenId with
      | some (.str id) => Ledger.tokenTransactions w.ledger id
      | _ => []
    reply E w context (.tokenTransactions list ⟨list.length, 100, 0⟩)

def transactionProof (w : World) (context : Option Json) (txId : Str) : World × Outcome :=
  match Ledger.getProof P w.ledger txId with
  | none =>
    refuse E w context 404 (lit "RESOURCE_NOT_FOUND") (lit "No proof for '" ++ txId ++ lit "'")
  | some proof => reply E w context (.proof proof)

/-! ### Dispatch -/

/-- `app.ts`: each path to its handler. -/
def handle (w : World) (request : Request) : World × Outcome :=
  let context := request.context
  match request.payload with
  | .accountCreate payload => accountCreate P E w context payload
  | .checkAvailability address => checkAvailability E w context address
  | .resolveAddress address => resolveAddress E w context address
  | .accountGet => accountGet E w context
  | .keysSearch => keysSearch E w context
  | .keysSign payload => keysSign P E w context payload
  | .keysPublic keyReference => keysPublic E w context keyReference
  | .credentialIssuer => credentialIssuer P E w context
  | .credentialIssue payload => credentialIssue P E w context payload
  | .credentialVerify payload => credentialVerify P E w context payload
  | .credentialRevoke payload => credentialRevoke E w context payload
  | .credentialList payload => credentialList E w context payload
  | .tokenClassRegister payload => tokenClassRegister P E w context payload
  | .tokenClassGet tokenClass => tokenClassGet E w context tokenClass
  | .tokenMint payload => tokenMint P E w context payload
  | .tokenGet tokenId => tokenGet E w context tokenId
  | .tokenSearch => tokenSearch E w context
  | .tokenTransact payload => tokenTransact P E w context payload
  | .transactionGet txId => transactionGet E w context txId
  | .tokenTransactionsList payload => tokenTransactionsList E w context payload
  | .transactionProof txId => transactionProof P E w context txId

/-- The stores when the service starts: no account, no credential, no token and one
class. -/
def initialStores : Stores := ⟨.empty, .empty, seed P E, .empty, .empty⟩

/-- The service. Starting it draws the issuer's keys and the time of the first class. -/
def service : Machine World Request Outcome where
  initial := { initialStores P E with draws := 2 }
  step := handle P E

end Wayfinder.Service.Handlers
