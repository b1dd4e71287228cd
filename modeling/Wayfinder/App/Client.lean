import Wayfinder.App.Wire
import Wayfinder.Program
import Wayfinder.Service.App

/-! `client.ts`: the browser's calls of the service.

A call draws a time and a message id, posts its payload in an envelope and reads the envelope that
comes back. Its reply may also be lost: the network fails, what comes is no JSON, or the validator
answers in place of a handler. `Posted` says what a call can end with, whoever else uses the service
meanwhile. -/
namespace Wayfinder.App.Client

open Js Service Service.Envelope Service.Handlers Service.App

/-! ### Envelopes -/

/-- What a flow of the page fails with: an `ApiError`, an `Error` of its own or of `fetch`, or the
`TypeError` of reading what is not there. -/
inductive Failure where
  | api (code message : Str) (httpStatus : Nat)
  | error (message : Str)
  | typeError

/-- What `fetch` and `res.json()` give. -/
inductive Reply where
  | json (response : Response Body)
  | notJson (http : Nat)
  | failed (message : Str)

/-- The service's response, as it comes through. -/
def received (response : Response Body) : Reply := .json response.reparsed

/-- What the browser draws for a request. -/
structure Stamp where
  ts : Str
  msgId : Str

def context (id : Str) (token : Option Str) (stamp : Stamp) : Json :=
  .obj ([(lit "id", .str (lit "api." ++ id)), (lit "version", .str (lit "1.0")),
    (lit "ts", .str stamp.ts), (lit "msgId", .str stamp.msgId)] ++ match token with
    | some token =>
      if token = [] then [] else [(lit "authorization", .str (lit "Bearer " ++ token))]
    | none => [])

def httpCode (http : Nat) : Str := lit "HTTP_" ++ natText http

/-- The body of a reply whose status is `successful` or `accepted`. -/
def read : Reply → Except Failure (Option Body)
  | .failed message => .error (.error message)
  | .notJson http =>
    .error
      (.api (lit "BAD_RESPONSE") (lit "Non-JSON response (HTTP " ++ natText http ++ lit ")") http)
  | .json response =>
    if response.context.status ≠ .successful ∧ response.context.status ≠ .accepted then
      .error (.api ((response.context.error.map ApiError.code).getD (httpCode response.http))
        ((response.context.error.map ApiError.message).getD (lit "Request failed")) response.http)
    else .ok response.response

/-- A flow of the page. -/
abbrev PageFlow (A : Type) : Type 1 := Program Request Reply Stamp Failure (Except Failure A)

def request (payload : Payload) (id : Str) (token : Option Str) (stamp : Stamp) : Request :=
  ⟨some (context id token stamp), payload⟩

def post (payload : Payload) (id : Str) (token : Option Str := none) : PageFlow (Option Body) :=
  .draw fun stamp => .call (request payload id token stamp) fun reply => .done (read reply)

/-- A call whose answer is read as one kind of body. -/
def expect {A : Type} (body : Option Body) (as : Body → Option A) : PageFlow A :=
  match body.bind as with
  | some a => .done (.ok a)
  | none => .done (.error .typeError)

/-! ### Bodies -/

def asAvailable : Body → Option Bool
  | .availability available => some available
  | _ => none

def asRegistration : Body → Option RegistrationSuccess
  | .registration success => some success
  | _ => none

def asProfile : Body → Option AccountProfile
  | .profile account => some account
  | _ => none

def asKeys : Body → Option (List AccountKeyInfo)
  | .keys keys => some keys
  | _ => none

def asSignature : Body → Option Str
  | .signature signature => some signature
  | _ => none

def asCredential : Body → Option Credentials.CredentialToken
  | .credential credential => some credential
  | _ => none

def asVerdict : Body → Option Credentials.VerificationResult
  | .verdict result => some result
  | _ => none

def asStatus : Body → Option (Str × Option Json)
  | .status id status => some (id, status)
  | _ => none

def asSubmitted : Body → Option Submitted
  | .submitted submitted => some submitted
  | _ => none

def asToken : Body → Option Tokens.TokenInstance
  | .token token => some token
  | _ => none

def asTokens : Body → Option (List Tokens.TokenInstance)
  | .tokens tokens _ => some tokens
  | _ => none

def asLog : Body → Option Ledger.TransactionLog
  | .log log => some log
  | _ => none

def asProof : Body → Option Ledger.ProofDetails
  | .proof proof => some proof
  | _ => none

/-- A call of the service, read as one kind of body. -/
def call {A : Type} (payload : Payload) (id : Str) (as : Body → Option A)
    (token : Option Str := none) : PageFlow A :=
  (post payload id token).andThen fun body => expect body as

/-! ### The calls -/

def checkAvailability (address : Str) : PageFlow Bool :=
  call (.checkAvailability address) (lit "account.checkAvailability") asAvailable

def createAccount (payload : Store.RegistrationRequest) : PageFlow RegistrationSuccess :=
  call (.accountCreate payload) (lit "account.create") asRegistration

def getAccount (token : Str) : PageFlow AccountProfile :=
  call .accountGet (lit "account.get") asProfile (some token)

def searchKeys (token : Str) : PageFlow (List AccountKeyInfo) :=
  call .keysSearch (lit "account.keys.search") asKeys (some token)

def sign (keyReference hash : Str) : PageFlow Str :=
  call (.keysSign ⟨keyReference, hash⟩) (lit "keys.sign") asSignature

def issueCredential (holderDid : Str) (subject : Fields) : PageFlow Credentials.CredentialToken :=
  call (.credentialIssue (some (.obj [(lit "holderDid", .str holderDid),
    (lit "subject", .obj subject)]))) (lit "credentials.issue") asCredential

def verifyCredential (credential : Credentials.CredentialToken) :
    PageFlow Credentials.VerificationResult :=
  call (.credentialVerify (some (.obj [(lit "credential", credential.toJson)])))
    (lit "credentials.verify") asVerdict

def revokeCredential (credentialId : Str) : PageFlow (Str × Option Json) :=
  call (.credentialRevoke (some (.obj [(lit "credentialId", .str credentialId)])))
    (lit "credentials.revoke") asStatus

def mintToken (token : Str) (payload : MintTokenRequest) : PageFlow Submitted :=
  call (.tokenMint payload) (lit "token.mint") asSubmitted (some token)

def getToken (token tokenId : Str) : PageFlow Tokens.TokenInstance :=
  call (.tokenGet tokenId) (lit "token.get") asToken (some token)

def searchTokens (token : Str) : PageFlow (List Tokens.TokenInstance) :=
  call .tokenSearch (lit "token.search") asTokens (some token)

def transfer (token tokenId recipient : Str) : PageFlow Submitted :=
  call (.tokenTransact
    { operation := lit "transfer", tokenId := some tokenId, toAddress := some recipient })
    (lit "token.transact") asSubmitted (some token)

def getTransaction (token txId : Str) : PageFlow Ledger.TransactionLog :=
  call (.transactionGet txId) (lit "transaction.get") asLog (some token)

def getProof (token txId : Str) : PageFlow Ledger.ProofDetails :=
  call (.transactionProof txId) (lit "transaction.proof") asProof (some token)

/-! ### Lost replies -/

/-- A reply that no handler made: `fetch` failed, or what came is no JSON, or the error handler
answered for the validator. -/
inductive Lost : Reply → Prop where
  | failed (message : Str) : Lost (.failed message)
  | notJson (http : Nat) : Lost (.notJson http)
  | refused {response : Response Body} {message : Str} (hstatus : response.context.status = .failed)
      (herror : response.context.error = some ⟨httpCode response.http, message⟩) :
      Lost (.json response)

/-- What a call fails with when no handler answered it. -/
inductive Unanswered : Failure → Prop where
  | failed (message : Str) : Unanswered (.error message)
  | notJson (message : Str) (http : Nat) : Unanswered (.api (lit "BAD_RESPONSE") message http)
  | refused (message : Str) (http : Nat) : Unanswered (.api (httpCode http) message http)

theorem read_lost {reply : Reply} (h : Lost reply) : ∃ e, read reply = .error e ∧ Unanswered e := by
  cases h with
  | failed message => exact ⟨_, rfl, .failed message⟩
  | notJson http => exact ⟨_, rfl, .notJson _ http⟩
  | refused hstatus herror =>
    refine ⟨_, if_pos (by simp [hstatus]), ?_⟩
    rw [herror]
    exact .refused _ _

/-! ### What a call ends with -/

/-- A body is read as it comes through. -/
theorem read_body {response : Response Body} {body : Body}
    (hstatus : response.context.status = .successful ∨ response.context.status = .accepted)
    (hbody : response.reparsed.response = some body) : read (received response) = .ok (some body) :=
  (if_neg fun hneither => hstatus.elim hneither.1 hneither.2).trans (congrArg _ hbody)

theorem read_error {response : Response Body} {error : ApiError}
    (hstatus : response.context.status = .failed) (herror : response.context.error = some error) :
    read (received response) = .error (.api error.code error.message response.http) := by
  have hneither : response.reparsed.context.status ≠ .successful ∧
      response.reparsed.context.status ≠ .accepted := by
    simp [Response.reparsed, ResponseContext.reparsed, hstatus]
  rw [received, read, if_pos hneither,
    show response.reparsed.context.error = some error from herror]
  rfl

section
variable (P : Primitives) (E : Env)

/-- The service took a request after a run, before the end of another, and answered it. -/
structure Took (run run' before : List Request) (request : Request)
    (response : Response Body) : Prop where
  since : run <+: before
  taken : before ++ [request] <+: run'
  answer :
    handle P E (served P E before) request = (served P E (before ++ [request]), .answered response)

/-- What a call ends with: the body or the error that the service answered it with, or no answer. -/
inductive Posted (run run' : List Request) (payload : Payload) (id : Str) (token : Option Str) :
    Except Failure (Option Body) → Prop where
  | answered {before : List Request} {stamp : Stamp} {response : Response Body}
      {body : Body} (htook : Took P E run run' before (request payload id token stamp) response)
      (hbody : response.reparsed.response = some body) :
      Posted run run' payload id token (.ok (some body))
  | refused {before : List Request} {stamp : Stamp} {response : Response Body} {error : ApiError}
      (htook : Took P E run run' before (request payload id token stamp) response)
      (herror : response.context.error = some error) :
      Posted run run' payload id token (.error (.api error.code error.message response.http))
  | lost {e : Failure} (h : Unanswered e) : Posted run run' payload id token (.error e)

/-- The service took such a request and answered it so. -/
def Answered {A : Type} (run run' : List Request) (payload : Payload) (id : Str)
    (token : Option Str) (as : Body → Option A) (a : A) : Prop :=
  ∃ before stamp response, Took P E run run' before (request payload id token stamp) response ∧
    response.reparsed.response.bind as = some a

/-- Every way to run a flow on a service that others use too. -/
abbrev Meets {A : Type} (flow : PageFlow A) (run : List Request)
    (Q : List Request → Except Failure A → Prop) : Prop :=
  Program.Meets (app P E) received Lost flow run Q

/-- Every success of a flow, when no id and no key was drawn twice. -/
abbrev Ensures {A : Type} (flow : PageFlow A) (run : List Request)
    (Q : List Request → A → Prop) : Prop :=
  Program.Ensures (app P E) received Lost (Fresh P E) flow run Q

/-- A flow that nobody disturbs succeeds, whatever the browser draws. -/
abbrev Succeeds (stamps : Nat → Stamp) {A : Type} (flow : PageFlow A) (run : List Request)
    (Q : List Request → A → Prop) : Prop := Program.Succeeds (app P E) received stamps flow run Q

end

variable {P : Primitives} {E : Env}

/-- What the service had taken before a request is before the end too. -/
theorem Took.within {run run' before : List Request} {request : Request} {response : Response Body}
    (h : Took P E run run' before request response) : before <+: run' :=
  (List.prefix_append _ _).trans h.taken

/-- What the handlers had taken by a request, with its answer last. -/
theorem Took.appends {run run' before : List Request} {request : Request} {response : Response Body}
    (h : Took P E run run' before request response) : events P E (before ++ [request]) =
      events P E before ++ [(request, .answered response)] := by
  have hhandle := h.answer
  have htaken : handled P E (before ++ [request]) = handled P E before ++ [request] := by
    rw [handled_append, padded, padded, Service.App.taken, hhandle]
    rfl
  rw [events, htaken, history, Machine.history_snoc]
  show _ ++ [(request, (handle P E (after P E (handled P E before)) request).2)] = _
  rw [← served_eq, hhandle]

/-- A request that was taken and answered is an event of the run. -/
theorem Took.event {run run' before : List Request} {request : Request} {response : Response Body}
    (h : Took P E run run' before request response) :
    (request, .answered response) ∈ events P E run' :=
  (events_grow h.taken).subset (h.appends ▸ List.mem_append_right _ (List.mem_singleton_self _))

theorem Took.extend {run run' before : List Request} {request : Request} {response : Response Body}
    (h : Took P E run run' before request response) (more : List Request) :
    Took P E run (run' ++ more) before request response :=
  ⟨h.since, h.taken.trans (List.prefix_append _ _), h.answer⟩

theorem Posted.extend {run run' : List Request} {payload : Payload} {id : Str} {token : Option Str}
    {x : Except Failure (Option Body)} (h : Posted P E run run' payload id token x)
    (more : List Request) :
    Posted P E run (run' ++ more) payload id token x := by
  cases h with
  | answered htook hbody => exact .answered (htook.extend more) hbody
  | refused htook herror => exact .refused (htook.extend more) herror
  | lost h => exact .lost h

theorem meets_post (payload : Payload) (id : Str) (token : Option Str) (run : List Request) :
    Meets P E (post payload id token) run (Posted P E run · payload id token) := by
  refine Program.meets_draw fun stamp more =>
    Program.meets_call (fun more' => ?_) fun reply hlost more' => ?_
  · refine Program.meets_done fun more'' => Posted.extend ?_ more''
    have hserved : served P E (run ++ more ++ more' ++ [request payload id token stamp]) =
      (serve P E (served P E (run ++ more ++ more')) (request payload id token stamp)).1 :=
      Machine.after_snoc ..
    have hsince : run <+: run ++ more ++ more' :=
      (List.prefix_append _ _).trans (List.prefix_append _ _)
    rw [Program.answer]
    show Posted P E run _ payload id token (read (received
      (serve P E (served P E (run ++ more ++ more')) (request payload id token stamp)).2))
    have hanswer := serve_answer (P := P) (E := E) (served P E (run ++ more ++ more'))
      (request payload id token stamp)
    generalize (serve P E (served P E (run ++ more ++ more')) (request payload id token stamp)).2 =
        response at hanswer ⊢
    cases hanswer with
    | body hhandle hstatus hbody =>
      rw [← hserved] at hhandle
      have hreparsed := response.reparsed_response
      rw [hbody, Option.map_some] at hreparsed
      rw [read_body hstatus hreparsed]
      exact .answered ⟨hsince, List.prefix_rfl, hhandle⟩ hreparsed
    | refused hhandle hstatus herror =>
      rw [← hserved] at hhandle
      rw [read_error hstatus herror]
      exact .refused ⟨hsince, List.prefix_rfl, hhandle⟩ herror
    | threw hhttp hstatus herror =>
      rw [read_error hstatus herror, hhttp]
      exact .lost (.refused _ 500)
  · obtain ⟨e, he, hunanswered⟩ := read_lost hlost
    rw [he]
    exact Program.meets_done fun _ => .lost hunanswered

section
variable (P : Primitives) (E : Env) {A : Type}

/-- What a typed call ends with. -/
inductive Called (run run' : List Request) (payload : Payload) (id : Str) (token : Option Str)
    (as : Body → Option A) :
    Except Failure A → Prop where
  | answered {a : A} (h : Answered P E run run' payload id token as a) :
      Called run run' payload id token as (.ok a)
  | refused {before : List Request} {stamp : Stamp} {response : Response Body} {error : ApiError}
      (htook : Took P E run run' before (request payload id token stamp) response)
      (herror : response.context.error = some error) :
      Called run run' payload id token as (.error (.api error.code error.message response.http))
  | lost {e : Failure} (h : Unanswered e ∨ e = .typeError) :
      Called run run' payload id token as (.error e)

end

/-- **A call ends as the service answered it, after whatever strangers did, or with no answer.** -/
theorem meets_call {A : Type} (payload : Payload) (id : Str) (as : Body → Option A)
    (token : Option Str) (run : List Request) :
    Meets P E (call payload id as token) run (Called P E run · payload id token as) := by
  refine Program.meets_bind (meets_post payload id token run) fun more x hx => ?_
  cases hx with
  | @answered before stamp response body htook hbody =>
    show Meets P E (expect (some body) as) (run ++ more) _
    cases ha : (some body).bind as with
    | none =>
      rw [expect, ha]
      exact Program.meets_done fun _ => .lost (.inr rfl)
    | some a =>
      rw [expect, ha]
      exact Program.meets_done fun more' =>
        .answered ⟨before, stamp, response, htook.extend more', by rw [hbody, ha]⟩
  | refused htook herror =>
    exact Program.meets_done fun more' => .refused (htook.extend more') herror
  | lost h => exact Program.meets_done fun _ => .lost (.inl h)

/-- A call that succeeds was answered so. -/
theorem ensures_call {A : Type} (payload : Payload) (id : Str) (as : Body → Option A)
    (token : Option Str) (run : List Request) :
    Ensures P E (call payload id as token) run (Answered P E run · payload id token as) := by
  refine Program.Meets.mono (meets_call payload id as token run) fun run' x _ hx a ha _ => ?_
  subst ha
  cases hx with
  | answered h => exact h

/-- A call by itself succeeds when the handler answers it with a body of its kind. -/
theorem call_succeeds {stamps : Nat → Stamp} {A : Type} {payload : Payload} {id : Str}
    {as : Body → Option A} {token : Option Str} {run : List Request} {w w' : World} {a : A}
    (hworld : served P E run = w)
    (h : ∀ stamp, ∃ response,
      handle P E w (request payload id token stamp) = (w', .answered response) ∧
      response.reparsed.response.bind as = some a) :
    Succeeds P E stamps (call payload id as token) run fun run' x => run <+: run' ∧
      served P E run' = w' ∧ x = a := by
  refine Program.succeeds_draw fun stamp => Program.succeeds_call ?_
  obtain ⟨response, hhandle, hbody⟩ := h stamp
  have hserve : serve P E (served P E run) (request payload id token stamp) = (w', response) := by
    rw [hworld, serve, hhandle]
  have hserved : served P E (run ++ [request payload id token stamp]) = w' :=
    (Machine.after_snoc ..).trans (congrArg Prod.fst hserve)
  have hanswer : Program.answer (app P E) received run (request payload id token stamp) =
      received response :=
    congrArg (fun r : World × Response Body => received r.2) hserve
  obtain ⟨body, hsome, has⟩ := Option.bind_eq_some_iff.mp hbody
  have hread : read (received response) = .ok (some body) := by
    have hshaped := handle_shaped (P := P) (E := E) w (request payload id token stamp)
    rw [hhandle] at hshaped
    cases hshaped with
    | body hstatus => exact read_body hstatus hsome
    | error _ hnone =>
      rw [Response.reparsed_response, hnone] at hsome
      cases hsome
  rw [hanswer]
  show Succeeds P E stamps (Program.bind (.done (read (received response))) _) _ _
  rw [hread]
  show Succeeds P E stamps (expect (some body) as) _ _
  rw [expect, Option.bind_some, has]
  exact Program.succeeds_ok ⟨List.prefix_append _ _, hserved, rfl⟩

end Wayfinder.App.Client
