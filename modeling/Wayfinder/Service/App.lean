import Wayfinder.Service.Handlers.Runs

/-! `app.ts`: the service behind its error handler.

The requests are those that the OpenAPI validator lets through, and the responses go out as they are
made. What the validator answers in place of a handler, or of its response, is a lost reply to a
client.

What a handler throws is answered by the error handler, in an envelope of its own; nothing that the
handlers throw has a `status`. That answer draws a time and an id as every answer does. So a run of
the app is a run of the handlers in which each request that throws is followed by one that only
draws (`served_eq`), and what holds of every run of the handlers holds of every run of the app. -/
namespace Wayfinder.Service.App

open Js Envelope Handlers

variable (P : Primitives) (E : Env)

/-- The error handler. -/
def onError (w : World) (context : Option Json) (thrown : Thrown) : World × Response Body :=
  ({ w with draws := w.draws + responseDraws },
    fail E w.draws context 500 (lit "HTTP_500") (P.message thrown))

/-- A request that the validator let through. -/
def serve (w : World) (request : Request) : World × Response Body :=
  match handle P E w request with
  | (w', .answered response) => (w', response)
  | (w', .threw thrown) => onError P E w' request.context thrown

/-- The app. -/
def app : Machine World Request (Response Body) where
  initial := (service P E).initial
  step := serve P E

/-- The world after the app took some requests. -/
abbrev served (run : List Request) : World := (app P E).after run

/-! ### A run of the app as a run of the handlers -/

/-- A request that draws what the error handler draws, and no more. -/
def idle : Request := ⟨none, .credentialIssuer⟩

/-- What the handlers take of a request: one that throws has an idle one after it. -/
def taken (w : World) (request : Request) : List Request :=
  match (handle P E w request).2 with
  | .answered _ => [request]
  | .threw _ => [request, idle]

def padded (w : World) : List Request → List Request
  | [] => []
  | request :: rest => taken P E w request ++ padded (serve P E w request).1 rest

/-- The requests that the handlers take in a run of the app. -/
def handled (run : List Request) : List Request := padded P E (service P E).initial run

variable {P E}

theorem exec_taken (w : World) (request : Request) :
    (service P E).exec w (taken P E w request) = (serve P E w request).1 := by
  unfold taken serve
  cases h : handle P E w request with
  | mk w' outcome =>
    have hstep : ((service P E).step w request).1 = w' := congrArg Prod.fst h
    cases outcome with
    | answered response => exact hstep
    | threw thrown =>
      show (handle P E ((service P E).step w request).1 idle).1 = _
      rw [hstep]
      rfl

theorem exec_padded (w : World) (run : List Request) :
    (service P E).exec w (padded P E w run) = (app P E).exec w run := by
  induction run generalizing w with
  | nil => rfl
  | cons request rest ih =>
    rw [padded, Machine.exec_append, exec_taken, ih]
    rfl

/-- **The app is the handlers**: it leaves the world that they leave. -/
theorem served_eq (run : List Request) : served P E run = after P E (handled P E run) :=
  (exec_padded _ run).symm

theorem padded_append (w : World) (a b : List Request) :
    padded P E w (a ++ b) = padded P E w a ++ padded P E ((app P E).exec w a) b := by
  induction a generalizing w with
  | nil => rfl
  | cons request rest ih =>
    rw [List.cons_append, padded, padded, ih, List.append_assoc]
    rfl

theorem handled_append (a b : List Request) :
    handled P E (a ++ b) = handled P E a ++ padded P E (served P E a) b := padded_append _ a b

/-- However the app goes on, its handlers go on. -/
theorem served_append (run more : List Request) :
    ∃ post, served P E (run ++ more) = after P E (handled P E run ++ post) := by
  rw [served_eq, handled_append]
  exact ⟨_, rfl⟩

theorem served_draws_le (run more : List Request) :
    (served P E run).draws ≤ (served P E (run ++ more)).draws := by
  obtain ⟨post, hpost⟩ := served_append (P := P) (E := E) run more
  rw [hpost, served_eq]
  exact draws_le_append _ _

variable (P E) in
/-- No id and no key was drawn twice in a run. -/
structure Fresh (run : List Request) : Prop where
  ids : E.FreshIds (served P E run).draws
  keys : E.FreshKeys P (served P E run).draws

theorem Fresh.mono {run more : List Request} (h : Fresh P E (run ++ more)) : Fresh P E run :=
  ⟨h.ids.mono (served_draws_le run more), h.keys.mono (served_draws_le run more)⟩

theorem Fresh.earlier {run run' : List Request} (h : Fresh P E run') (hrun : run <+: run') :
    Fresh P E run := by
  obtain ⟨more, rfl⟩ := hrun
  exact h.mono

variable (P E) in
/-- What the handlers were asked and answered in a run of the app. -/
abbrev events (run : List Request) : List (Request × Outcome) := history P E (handled P E run)

/-- The events of a run stay. -/
theorem events_grow {run run' : List Request} (h : run <+: run') :
    events P E run <+: events P E run' := by
  obtain ⟨more, rfl⟩ := h
  rw [events, events, handled_append, history_append]
  exact List.prefix_append _ _

/-! ### Answers -/

/-- A response has a body and no error, or an error and no body. -/
inductive Shaped : Response Body → Prop where
  | body {response : Response Body} {body : Body}
      (hstatus : response.context.status = .successful ∨ response.context.status = .accepted)
      (hbody : response.response = some body) : Shaped response
  | error {response : Response Body} {error : ApiError} (hstatus : response.context.status =
      .failed) (hbody : response.response = none) (herror : response.context.error = some error) :
      Shaped response

def Outcome.Shaped : Outcome → Prop
  | .answered response => App.Shaped response
  | .threw _ => True

theorem reply_shaped (w : World) (context : Option Json) (body : Body) (http : Nat) :
    Outcome.Shaped (reply E w context body http).2 := .body (.inl rfl) rfl

theorem refuse_shaped (w : World) (context : Option Json) (http : Nat) (code message : Str) :
    Outcome.Shaped (refuse E w context http code message).2 := .error rfl rfl rfl

theorem accept_shaped (w : World) (context : Option Json) (body : Body) (transactionId : Str) :
    Outcome.Shaped (accept E w context body transactionId).2 := .body (.inr rfl) rfl

theorem withAccount_shaped {w : World} {context : Option Json}
    {handle : Store.Account → World × Outcome} (h : ∀ account, Outcome.Shaped (handle account).2) :
    Outcome.Shaped (withAccount E w context handle).2 := by
  unfold withAccount
  split
  · trivial
  · exact refuse_shaped ..
  · exact h _

theorem transferTo_shaped (w : World) (context : Option Json) (payload : TransactRequest)
    (toAddress fromDid toDid : Str) :
    Outcome.Shaped (transferTo P E w context payload toAddress fromDid toDid).2 := by
  unfold transferTo
  split
  · exact refuse_shaped ..
  · exact accept_shaped ..

theorem handle_shaped (w : World) (request : Request) :
    Outcome.Shaped (handle P E w request).2 := by
  obtain ⟨context, payload⟩ := request
  cases payload with
  | accountCreate payload =>
    simp only [handle, accountCreate]
    split
    · exact refuse_shaped ..
    · split
      · exact refuse_shaped ..
      · exact reply_shaped ..
  | checkAvailability => exact reply_shaped ..
  | resolveAddress address =>
    simp only [handle, resolveAddress]
    split
    · exact refuse_shaped ..
    · exact reply_shaped ..
  | accountGet => exact withAccount_shaped fun account => reply_shaped ..
  | keysSearch => exact withAccount_shaped fun account => reply_shaped ..
  | keysSign payload =>
    simp only [handle, keysSign]
    split
    · exact refuse_shaped ..
    · split
      · trivial
      · exact reply_shaped ..
  | keysPublic keyReference =>
    simp only [handle, keysPublic]
    split
    · exact refuse_shaped ..
    · exact reply_shaped ..
  | credentialIssuer => exact reply_shaped ..
  | credentialIssue payload =>
    simp only [handle, credentialIssue]
    split
    · exact refuse_shaped ..
    · split
      · split
        · exact refuse_shaped ..
        · split
          · exact reply_shaped ..
          · exact refuse_shaped ..
      · trivial
  | credentialVerify payload =>
    simp only [handle, credentialVerify]
    split
    · trivial
    · exact refuse_shaped ..
    · split
      · exact refuse_shaped ..
      · split
        · trivial
        · exact reply_shaped ..
  | credentialRevoke payload =>
    simp only [handle, credentialRevoke]
    split
    · trivial
    · split
      · exact reply_shaped ..
      · split
        · trivial
        · exact refuse_shaped ..
  | credentialList payload =>
    simp only [handle, credentialList]
    split
    · trivial
    · exact reply_shaped ..
    · exact reply_shaped ..
  | tokenClassRegister payload =>
    simp only [handle, tokenClassRegister]
    split
    · exact refuse_shaped ..
    · split
      · exact refuse_shaped ..
      · exact reply_shaped ..
  | tokenClassGet tokenClass =>
    simp only [handle, tokenClassGet]
    split
    · exact refuse_shaped ..
    · exact reply_shaped ..
  | tokenMint payload =>
    refine withAccount_shaped fun account => ?_
    split
    · trivial
    · exact refuse_shaped ..
    · exact accept_shaped ..
  | tokenGet tokenId =>
    simp only [handle, tokenGet]
    split
    · exact refuse_shaped ..
    · exact reply_shaped ..
  | tokenSearch => exact withAccount_shaped fun account => reply_shaped ..
  | tokenTransact payload =>
    refine withAccount_shaped fun account => ?_
    split
    · exact refuse_shaped ..
    · simp only
      split
      · exact refuse_shaped ..
      · split
        · exact refuse_shaped ..
        · exact transferTo_shaped ..
  | transactionGet txId =>
    simp only [handle, transactionGet]
    split
    · exact refuse_shaped ..
    · exact reply_shaped ..
  | tokenTransactionsList payload =>
    simp only [handle, tokenTransactionsList]
    split
    · exact refuse_shaped ..
    · exact reply_shaped ..
  | transactionProof txId =>
    simp only [handle, transactionProof]
    split
    · exact refuse_shaped ..
    · exact reply_shaped ..

/-- What the app answers is a handler's body, a handler's refusal, or the error handler's answer. -/
inductive Answer (w : World) (request : Request) : Response Body → Prop where
  | body {response : Response Body} {body : Body}
      (hhandle : handle P E w request = ((serve P E w request).1, .answered response))
      (hstatus : response.context.status = .successful ∨ response.context.status = .accepted)
      (hbody : response.response = some body) : Answer w request response
  | refused {response : Response Body} {error : ApiError}
      (hhandle : handle P E w request = ((serve P E w request).1, .answered response))
      (hstatus : response.context.status = .failed) (herror : response.context.error = some error) :
      Answer w request response
  | threw {response : Response Body} {message : Str} (hhttp : response.http = 500)
      (hstatus : response.context.status = .failed)
      (herror : response.context.error = some ⟨lit "HTTP_500", message⟩) : Answer w request response

theorem serve_answer (w : World) (request : Request) :
    Answer (P := P) (E := E) w request (serve P E w request).2 := by
  have hshaped := handle_shaped (P := P) (E := E) w request
  cases h : handle P E w request with
  | mk w' outcome =>
    rw [h] at hshaped
    cases outcome with
    | answered response =>
      have hserve : serve P E w request = (w', response) := by rw [serve, h]
      rw [hserve]
      cases hshaped with
      | body hstatus hbody => exact .body (by rw [hserve, h]) hstatus hbody
      | error hstatus _ herror => exact .refused (by rw [hserve, h]) hstatus herror
    | threw thrown =>
      have hserve : serve P E w request = onError P E w' request.context thrown := by rw [serve, h]
      rw [hserve]
      exact .threw rfl rfl rfl

end Wayfinder.Service.App
