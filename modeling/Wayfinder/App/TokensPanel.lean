import Wayfinder.App.Embedded
import Wayfinder.App.SignIn
import Wayfinder.Service.Handlers.Compliance
import Wayfinder.Service.Handlers.Ownership
import Wayfinder.Service.Handlers.Terms

/-! Minting on the page.

The panel asks for a deed, then reads the token that it was promised. A refusal of the compliance
hook is shown apart from every other failure. `mint_shows` says what stands behind both: the
refusal, a holder without a live credential and a service that created nothing; the token, a deed of
the account that carries the claim of its first live credential, which the browser verifies. -/
namespace Wayfinder.App.TokensPanel

open Js Service Service.Handlers Service.App Client
open Service.Tokens (TokenInstance)
open Service.Credentials (Vc)
open Service.Envelope (Response responseDraws)

structure Panel where
  minted : Option TokenInstance := none
  blocked : Option Str := none
  error : Option Failure := none

def deedRequest : MintTokenRequest :=
  { tokenClass := lit "PROP-DEED"
    initialSupply := lit "1"
    name := some (.str (lit "Deed to 123 Main St"))
    data := some [(lit "assetId", .str (lit "PROP-2026-001")),
      (lit "propertyAddress", .str (lit "123 Main St"))] }

/-- What the panel makes of a failure: a refusal of the hook takes the token away, any other leaves
it. -/
def caught (panel : Panel) : Failure → Panel
  | .api code message http =>
    if code = lit "COMPLIANCE_CHECK_FAILED" then { blocked := some message }
    else { minted := panel.minted, error := some (.api code message http) }
  | e => { minted := panel.minted, error := some e }

def mint (token : Str) (panel : Panel) : PageFlow Panel :=
  ((Client.mintToken token deedRequest).andThen fun accepted =>
    getToken token (accepted.tokenId.getD [])).bind fun
    | .ok minted => .done (.ok { minted := some minted })
    | .error e => .done (.ok (caught panel e))

/-- One mint for each press of the button. -/
def presses (token : Str) (buttons : List Unit) (panel : Panel) : PageFlow Panel :=
  Program.each (fun _ => mint token) buttons panel

/-- The claim shown, and the browser's verdict on it. -/
def carriedClaim (panel : Panel) : Option Vc :=
  (panel.minted.bind TokenInstance.claims).bind List.head?

def carriedClaimValid (P : Primitives) (panel : Panel) : Option Bool :=
  (carriedClaim panel).map fun claim => Crypto.verifyEmbeddedCredential P claim.fields

/-! ### What stands behind the panel -/

/-- The request for a deed. -/
def ask (token : Str) (stamp : Stamp) : Request :=
  request (.tokenMint deedRequest) (lit "token.mint") (some token) stamp

section
variable (P : Primitives) (E : Env)

/-- The deed that the panel asked for, at a moment of the run. -/
def Asked (token : Str) (run run' before : List Request) (stamp : Stamp) : Prop :=
  run <+: before ∧ before ++ [ask token stamp] <+: run'

/-- The account had no live credential, and nothing was made. -/
def Blocked (token : Str) (account : Store.Account) (run run' : List Request) : Prop :=
  ∃ before stamp, Asked token run run' before stamp ∧
    (∀ k i, (heldIssuances (events P E before) account.did)[k]? = some i →
      ¬ LiveAt E (revocations (events P E before)) (served P E before).draws k i) ∧
    (served P E (before ++ [ask token stamp])).toStores =
      (served P E before).toStores

/-- The account got a new deed that carries its first live credential, and it is the token shown, as
it comes through. -/
def Minted (token : Str) (account : Store.Account) (run run' : List Request)
    (minted : TokenInstance) : Prop :=
  ∃ before stamp seen stored, Asked token run run' before stamp ∧
    before ++ [ask token stamp] <+: seen ∧ seen <+: run' ∧ minted = stored.reparsed ∧
    (served P E before).tokens.byId.get minted.id = none ∧
    ownerOf (served P E (before ++ [ask token stamp])) minted.id =
      some account.did ∧
    (served P E seen).tokens.byId.get minted.id = some stored ∧
    minted.metadata.tokenClass = lit "PROP-DEED" ∧
    ∃ k i claim, FirstAt (LiveAt E (revocations (events P E before)) (served P E before).draws)
        (heldIssuances (events P E before) account.did) k i ∧
      i.credential.claims = [claim] ∧ minted.claims = some [claim.reparsed]

end

variable {P : Primitives} {E : Env}

theorem tokenMint_answered {w w' : World} {context : Option Json} {payload : MintTokenRequest}
    {account : Store.Account} {response : Response Body}
    (haccount : tokenAccount w.accounts context = .ok (some account))
    (h : handle P E w ⟨context, .tokenMint payload⟩ = (w', .answered response)) :
    (∃ code message next, Tokens.mintToken P E w.draws w.credentials w.tokenclasses w.tokens
      w.ledger (mintInput account.did payload) = .ok (.refused code message next) ∧
      response.response = none ∧ response.context.error = some ⟨code.text, message⟩ ∧
      w' = { w with draws := next + responseDraws }) ∨ ∃ tokens ledger token next,
        Tokens.mintToken P E w.draws w.credentials w.tokenclasses w.tokens w.ledger
          (mintInput account.did payload) = .ok (.ok tokens ledger token next) ∧ (∃ txId message,
            response.response = some (.submitted { txId, tokenId := some token.id, message })) ∧
        response.context.error = none ∧
        w' = { w with tokens, ledger, draws := next + 1 + responseDraws } := by
  simp only [handle, tokenMint, withAccount, haccount] at h
  split at h
  · cases h
  · next code message next hmint =>
    cases h
    exact .inl ⟨code, message, next, hmint, rfl, rfl, rfl⟩
  · next tokens ledger token next hmint =>
    cases h
    exact .inr ⟨tokens, ledger, token, next, hmint, ⟨_, _, rfl⟩, rfl, rfl⟩

section
variable {token : Str} {account : Store.Account} {run run' run'' : List Request}

theorem Asked.later {before : List Request} {stamp : Stamp} (h : Asked token run run' before stamp)
    (hrun : run' <+: run'') : Asked token run run'' before stamp := ⟨h.1, h.2.trans hrun⟩

theorem Blocked.later (h : Blocked P E token account run run') (hrun : run' <+: run'') :
    Blocked P E token account run run'' := by
  obtain ⟨before, stamp, hasked, hblocked⟩ := h
  exact ⟨before, stamp, hasked.later hrun, hblocked⟩

theorem Minted.later {minted : TokenInstance} (h : Minted P E token account run run' minted)
    (hrun : run' <+: run'') :
    Minted P E token account run run'' minted := by
  obtain ⟨before, stamp, seen, stored, hasked, hsince, hseen, hminted⟩ := h
  exact ⟨before, stamp, seen, stored, hasked.later hrun, hsince, hseen.trans hrun, hminted⟩

end

/-- A refusal of the hook is of an account without a live credential. -/
theorem blocked_of_refused (he : P.Ed25519) (hb : P.Base58) (hd : P.DateParse)
    {run run' before : List Request} {session : Session} {account : Store.Account} {stamp : Stamp}
    {response : Response Body} {error : Envelope.ApiError}
    (hsigned : SignedIn P E (served P E run) session account) (hfresh : Fresh P E run')
    (htook : Took P E run run' before (ask session.token stamp) response)
    (herror : response.context.error = some error)
    (hcode : error.code = lit "COMPLIANCE_CHECK_FAILED") :
    Blocked P E session.token account run run' := by
  have hbefore := hfresh.earlier htook.within
  have haccount := hsigned.account hb htook.since hbefore (lit "token.mint") stamp
  rcases tokenMint_answered haccount htook.answer with
    ⟨code, message, next, hmint, _, herror', hworld⟩ | ⟨_, _, _, _, _, _, hnone, _⟩
  · rw [herror, Option.some.injEq] at herror'
    subst herror'
    refine ⟨before, stamp, ⟨htook.since, htook.taken⟩, ?_, by rw [hworld]⟩
    rcases Tokens.mintToken_refused hmint with ⟨_, rfl, _⟩ | ⟨tc, _, _, hgate⟩
    · cases hcode
    · obtain ⟨_, hfound⟩ := Tokens.complianceHook_refused.mp hgate
      have hsearch := validCredentialFor_first he hb hd (stored_served hbefore)
        (served P E before).draws account.did
      rw [← served_eq] at hsearch
      rcases hsearch with ⟨_, _, hdead⟩ | ⟨_, _, _, hsome, _⟩
      · exact hdead
      · rw [show Credentials.validCredentialFor P E _ _ account.did = _ from hfound] at hsome
        cases hsome
  · rw [herror] at hnone
    cases hnone

/-- A mint gives the account a new deed with the claim of its first live credential. -/
theorem deed_of_minted (he : P.Ed25519) (hb : P.Base58) (hd : P.DateParse) {before : List Request}
    {account : Store.Account} {w' : World} {tokens : Tokens.State} {ledger : Ledger.State}
    {token : TokenInstance} {next : Nat} (hfresh : Fresh P E before) (hids : E.FreshIds w'.draws)
    (hworld : w' = { served P E before with tokens, ledger, draws := next + 1 + responseDraws })
    (hmint : Tokens.mintToken P E (served P E before).draws (served P E before).credentials
      (served P E before).tokenclasses (served P E before).tokens (served P E before).ledger
      (mintInput account.did deedRequest) = .ok (.ok tokens ledger token next)) :
    (served P E before).tokens.byId.get token.id = none ∧ w'.tokens.byId.get token.id = some token ∧
      token.ownerIdent.map Credentials.Identity.id = some account.did ∧
      token.metadata.tokenClass = lit "PROP-DEED" ∧
      ∃ k i claim, FirstAt (LiveAt E (revocations (events P E before)) (served P E before).draws)
        (heldIssuances (events P E before) account.did) k i ∧
        i.credential.claims = [claim] ∧ token.claims = some [claim] := by
  obtain ⟨tc, claim, m, log, htc, hgate, hm, rfl, hbyId, rfl, rfl, _⟩ :=
    Tokens.mintToken_writes hmint
  subst hworld
  have hdraws : m + 1 < m + 2 + Ledger.recordDraws + 1 + responseDraws :=
    Nat.lt_trans (by omega) (lt_mintDraws m)
  have hunborn := ((recorded_served hfresh).unborn hids
    (show (served P E before).draws ≤ m + 1 by omega) hdraws).1
  obtain rfl : TokenClasses.propDeed P E = tc :=
    Option.some.inj ((propDeed_served before).symm.trans htc)
  refine ⟨hunborn, ?_, rfl, rfl, ?_⟩
  · show tokens.byId.get _ = _
    rw [hbyId]
    exact JsMap.get_set_self _ _ _
  · rcases (Tokens.complianceHook_passed hgate).2 with ⟨hnone, _⟩ | ⟨_, credential, hfound, rfl⟩
    · cases hnone
    · have hsearch := validCredentialFor_first he hb hd (stored_served hfresh)
        (served P E before).draws account.did
      rw [← served_eq, show Credentials.validCredentialFor P E _ _ account.did = _ from
        hfound] at hsearch
      rcases hsearch with ⟨_, hsome, _⟩ | ⟨_, k, i, hsome, hfirst⟩
      · cases hsome
      · cases hsome
        obtain ⟨vc, hvc, _⟩ := hfirst.passes.2
        refine ⟨k, i, vc, hfirst, hvc, ?_⟩
        show ((i.stored _).claims.head?.map fun vc => [vc]) = _
        rw [(stored_same _ i).2.1, hvc]
        rfl

theorem tokenGet_answered {w w' : World} {context : Option Json} {id : Str}
    {response : Response Body}
    (h : handle P E w ⟨context, .tokenGet id⟩ = (w', .answered response)) :
    (∃ token, w.tokens.byId.get id = some token ∧ response.response = some (.token token) ∧
      response.context.error = none) ∨ response.response = none ∧ ∃ message,
        response.context.error = some ⟨lit "RESOURCE_NOT_FOUND", message⟩ := by
  simp only [handle, tokenGet, Tokens.getToken] at h
  split at h
  · cases h
    exact .inr ⟨rfl, _, rfl⟩
  · next token htoken =>
    cases h
    exact .inl ⟨token, htoken, rfl, rfl⟩

/-- A refusal of the hook, or an error that leaves the token. -/
theorem caught_cases (panel : Panel) (e : Failure) :
    (∃ message http, e = .api (lit "COMPLIANCE_CHECK_FAILED") message http ∧
      caught panel e = { blocked := some message }) ∨
      caught panel e = { minted := panel.minted, error := some e } := by
  cases e with
  | api code message http =>
    rw [caught]
    split
    · next hcode => exact .inl ⟨message, http, by rw [hcode], rfl⟩
    · exact .inr rfl
  | _ => exact .inr rfl

/-- What no handler answered is no refusal of the hook. -/
theorem not_refused_of_lost {e : Failure} (h : Unanswered e ∨ e = .typeError) (message : Str)
    (http : Nat) :
    e ≠ .api (lit "COMPLIANCE_CHECK_FAILED") message http := by
  rintro rfl
  rcases h with h | h
  · generalize hcode : lit "COMPLIANCE_CHECK_FAILED" = code at h
    cases h with
    | notJson => exact absurd hcode (by decide)
    | refused =>
      have hhead : some (67 : UInt16) = some 72 := congrArg List.head? hcode
      exact absurd hhead (by decide)
  · cases h

/-- The token that is shown after a mint is the new deed. -/
theorem minted_of_read (he : P.Ed25519) (hb : P.Base58) (hd : P.DateParse)
    {run run' before seen since : List Request} {session : Session} {account : Store.Account}
    {stamp stamp' : Stamp} {response response' : Response Body} {accepted : Submitted}
    {minted : TokenInstance} (hsigned : SignedIn P E (served P E run) session account)
    (hfresh : Fresh P E run') (htook : Took P E run since before (ask session.token stamp) response)
    (hbody : response.reparsed.response.bind asSubmitted = some accepted)
    (htook' : Took P E since run' seen (request (.tokenGet (accepted.tokenId.getD []))
      (lit "token.get") (some session.token) stamp') response')
    (hbody' : response'.reparsed.response.bind asToken = some minted) :
    Minted P E session.token account run run' minted := by
  have hseen := hfresh.earlier htook'.within
  have htaken := htook.taken.trans htook'.since
  have hbefore := (hseen.earlier htaken).mono
  have haccount := hsigned.account hb htook.since hbefore (lit "token.mint") stamp
  rcases tokenMint_answered haccount htook.answer with
    ⟨_, _, _, _, hnone, _, _⟩ |
      ⟨tokens, ledger, token, next, hmint, ⟨txId, message, hsome⟩, _, hworld⟩
  · rw [Response.reparsed_response, hnone] at hbody
    cases hbody
  · rw [Response.reparsed_response, hsome] at hbody
    cases hbody
    obtain ⟨hunborn, hget, howner, hclass, k, i, claim, hfirst, hclaim, hclaims⟩ :=
      deed_of_minted he hb hd hbefore (hseen.earlier htaken).ids hworld hmint
    rcases tokenGet_answered htook'.answer with ⟨found, hfound, hsome', _⟩ | ⟨hnone, _⟩
    · rw [Response.reparsed_response, hsome'] at hbody'
      cases hbody'
      obtain ⟨token', hget', hterms⟩ := token_served htaken hseen hget
      rw [show (served P E seen).tokens.byId.get token.id = some found from hfound,
        Option.some.injEq] at hget'
      subst hget'
      have hid := id_of_terms hterms
      have hshown : found.reparsed.id = token.id := hid
      refine ⟨before, stamp, seen, found, ⟨htook.since, htaken.trans htook'.within⟩, htaken,
        htook'.within, rfl, ?_, ?_, ?_, ?_, k, i, claim, hfirst, hclaim, ?_⟩
      · rw [hshown]
        exact hunborn
      · rw [hshown, ownerOf, hget]
        exact howner
      · rw [hshown]
        exact hfound
      · exact (class_of_terms hterms).trans hclass
      · rw [TokenInstance.reparsed, claims_of_terms hterms, hclaims]
        rfl
    · rw [Response.reparsed_response, hnone] at hbody'
      cases hbody'

/-- The browser verifies the claim of a deed that was minted. -/
theorem carried_verifies (he : P.Ed25519) (hb : P.Base58) {token : Str} {account : Store.Account}
    {run run' : List Request} {minted : TokenInstance} (hfresh : Fresh P E run')
    (h : Minted P E token account run run' minted) :
    ∃ claim, minted.claims = some [claim] ∧
      Crypto.verifyEmbeddedCredential P claim.fields = true := by
  obtain ⟨before, stamp, seen, stored, hasked, _, _, _, _, _, _, _, k, i, claim, hfirst, hclaim,
    hclaims⟩ := h
  have hbefore := hfresh.earlier ((List.prefix_append _ _).trans hasked.2)
  have hi := List.mem_of_mem_filter (List.mem_of_getElem? hfirst.get)
  obtain ⟨n, input, hsigned, _⟩ := ((stored_served hbefore).issued i hi).claim
  rw [hclaim, List.cons.injEq] at hsigned
  have hcame : SameText (.obj claim.fields) (.obj claim.reparsed.fields) := by
    rw [show Json.obj claim.reparsed.fields = (Json.obj claim.fields).reparsed from
      claim.toJson_reparsed]
    exact sameText_reparsed _
  refine ⟨claim.reparsed, hclaims, Crypto.verifyEmbeddedCredential_congr hcame ?_⟩
  rw [hsigned.1]
  exact Crypto.verifyEmbeddedCredential_issued he hb n input

/-- What the calls of a mint end with. -/
theorem meets_minting (he : P.Ed25519) (hb : P.Base58) (hd : P.DateParse) {run : List Request}
    {session : Session} {account : Store.Account}
    (hsigned : SignedIn P E (served P E run) session account) :
    Meets P E ((Client.mintToken session.token deedRequest).andThen fun accepted =>
      getToken session.token (accepted.tokenId.getD [])) run fun run' x => Fresh P E run' →
        (∀ minted, x = .ok minted → Minted P E session.token account run run' minted) ∧
        ∀ message http, x = .error (.api (lit "COMPLIANCE_CHECK_FAILED") message http) →
          Blocked P E session.token account run run' := by
  refine Program.meets_bind (meets_call _ _ _ _ run) fun more x hx => ?_
  cases hx with
  | @answered accepted hanswered =>
    obtain ⟨before, stamp, response, htook, hbody⟩ := hanswered
    refine Program.Meets.mono (meets_call _ _ _ _ _) fun run' y _ hy hfresh => ?_
    cases hy with
    | answered hread =>
      obtain ⟨seen, stamp', response', htook', hbody'⟩ := hread
      refine ⟨fun minted hminted => ?_, fun message http herror => ?_⟩
      · cases hminted
        exact minted_of_read he hb hd hsigned hfresh htook hbody htook' hbody'
      · cases herror
    | @refused seen stamp' response' error htook' herror =>
      refine ⟨fun minted hminted => ?_, fun message http hsame => ?_⟩
      · cases hminted
      · exfalso
        rcases tokenGet_answered htook'.answer with ⟨_, _, _, hnone⟩ | ⟨_, message', hnotFound⟩
        · rw [herror] at hnone
          cases hnone
        · rw [herror, Option.some.injEq] at hnotFound
          subst hnotFound
          have hcode : lit "RESOURCE_NOT_FOUND" = lit "COMPLIANCE_CHECK_FAILED" := by
            injection hsame with hsame
            injection hsame
          exact absurd hcode (by decide)
    | lost hlost =>
      refine ⟨fun minted hminted => ?_, fun message http hsame => ?_⟩
      · cases hminted
      · exact absurd (Except.error.inj hsame) (not_refused_of_lost hlost message http)
  | refused htook herror =>
    refine Program.meets_done fun more' hfresh =>
      ⟨fun minted hminted => ?_, fun message http hsame => ?_⟩
    · cases hminted
    · injection hsame with hsame
      injection hsame with hcode
      exact blocked_of_refused he hb hd hsigned hfresh (htook.extend more') herror hcode
  | lost hlost =>
    refine Program.meets_done fun more' _ =>
      ⟨fun minted hminted => ?_, fun message http hsame => ?_⟩
    · cases hminted
    · exact absurd (Except.error.inj hsame) (not_refused_of_lost hlost message http)

/-! ### What the panel keeps -/

section
variable (P E)

/-- What is behind a panel: a deed of the account, when it shows one, and a refusal, when it shows
that. -/
structure Backed (token : Str) (account : Store.Account) (run run' : List Request)
    (panel : Panel) : Prop where
  minted : ∀ {minted}, panel.minted = some minted → Minted P E token account run run' minted
  blocked : ∀ {message}, panel.blocked = some message → panel.minted = none ∧
    Blocked P E token account run run'

end

theorem Backed.later {token : Str} {account : Store.Account} {run run' run'' : List Request}
    {panel : Panel} (h : Backed P E token account run run' panel) (hrun : run' <+: run'') :
    Backed P E token account run run'' panel :=
  ⟨fun hsome => (h.minted hsome).later hrun,
    fun hsome => ⟨(h.blocked hsome).1, (h.blocked hsome).2.later hrun⟩⟩

section
variable {session : Session} {account : Store.Account} {start run run' : List Request}
  {panel : Panel}

theorem Minted.since {token : Str} {minted : TokenInstance}
    (h : Minted P E token account run run' minted) (hstart : start <+: run) :
    Minted P E token account start run' minted := by
  obtain ⟨before, stamp, seen, stored, hasked, hminted⟩ := h
  exact ⟨before, stamp, seen, stored, ⟨hstart.trans hasked.1, hasked.2⟩, hminted⟩

theorem Blocked.since {token : Str} (h : Blocked P E token account run run')
    (hstart : start <+: run) :
    Blocked P E token account start run' := by
  obtain ⟨before, stamp, hasked, hblocked⟩ := h
  exact ⟨before, stamp, ⟨hstart.trans hasked.1, hasked.2⟩, hblocked⟩

/-- A mint without an error shows the token or the refusal. -/
theorem mint_keeps (he : P.Ed25519) (hb : P.Base58) (hd : P.DateParse)
    (hsigned : SignedIn P E (served P E run) session account) (hstart : start <+: run)
    (h : Backed P E session.token account start run panel) :
    Ensures P E (mint session.token panel) run fun run' panel' =>
      Backed P E session.token account start run' panel' ∧
      (panel'.error = none → panel'.blocked.isSome ∨ panel'.minted.isSome) := by
  refine Program.meets_bind (meets_minting he hb hd hsigned) fun more x hx => ?_
  have hrun : ∀ more', run <+: run ++ more ++ more' := fun more' =>
    (List.prefix_append _ _).trans (List.prefix_append _ _)
  cases x with
  | ok minted =>
    refine Program.ensures_ok fun more' hfresh =>
      ⟨⟨fun hsome => ?_, fun hsome => ?_⟩, fun _ => .inr rfl⟩
    · cases hsome
      exact (((hx hfresh.mono).1 minted rfl).later (List.prefix_append _ more')).since hstart
    · cases hsome
  | error e =>
    refine Program.ensures_ok fun more' hfresh => ?_
    rcases caught_cases panel e with ⟨message, http, rfl, hcaught⟩ | hcaught
    · rw [hcaught]
      refine ⟨⟨fun hsome => ?_, fun _ => ⟨rfl, ?_⟩⟩, fun _ => .inl rfl⟩
      · cases hsome
      · exact (((hx hfresh.mono).2 message http rfl).later
          (List.prefix_append _ more')).since hstart
    · rw [hcaught]
      refine ⟨⟨fun hsome => (h.later (hrun more')).minted hsome, fun hsome => ?_⟩, fun hnone => ?_⟩
      · cases hsome
      · cases hnone

/-- Whatever is minted, a panel keeps its backing. -/
theorem presses_keep (he : P.Ed25519) (hb : P.Base58) (hd : P.DateParse)
    (hsigned : SignedIn P E (served P E start) session account) (buttons : List Unit)
    (hstart : start <+: run) (h : Backed P E session.token account start run panel) :
    Ensures P E (presses session.token buttons panel) run fun run' panel' =>
      start <+: run' ∧ Backed P E session.token account start run' panel' := by
  refine Program.ensures_each Fresh.mono (fun more hkept => ?_)
    (fun button run' panel' hkept => ?_) buttons ⟨hstart, h⟩
  · exact ⟨hkept.1.trans (List.prefix_append _ _), hkept.2.later (List.prefix_append _ _)⟩
  · obtain ⟨⟨more, rfl⟩, hbacked⟩ := hkept
    refine Program.ensures_assuming Fresh.mono fun hfresh => ?_
    exact (mint_keeps he hb hd (hsigned.extend hb hfresh) (List.prefix_append _ _) hbacked).mono
      fun _ _ hrun _ hminted => ⟨(List.prefix_append _ _).trans hrun, hminted.1⟩

theorem backed_blank (token : Str) (account : Store.Account) (run : List Request) :
    Backed P E token account run run {} := by
  refine ⟨fun hsome => ?_, fun hsome => ?_⟩
  · cases hsome
  · cases hsome

/-- The claim of a token that is shown is shown as valid. -/
theorem Backed.valid (he : P.Ed25519) (hb : P.Base58) {token : Str}
    (h : Backed P E token account start run panel) (hfresh : Fresh P E run) {minted : TokenInstance}
    (hminted : panel.minted = some minted) :
    carriedClaimValid P panel = some true := by
  obtain ⟨claim, hclaims, hvalid⟩ := carried_verifies he hb hfresh (h.minted hminted)
  have hcarried : carriedClaim panel = some claim := by simp [carriedClaim, hminted, hclaims]
  rw [carriedClaimValid, hcarried, Option.map_some, hvalid]

/-- **What the panel shows of a mint is so.** However often the button is pressed, whatever others
ask of the service meanwhile and whichever replies are lost: when it says that minting was refused,
the account had no live credential and nothing was made; when it shows a token, that is a deed that
the service made for the account, which carries the claim of the account's first live credential,
and the browser's own verdict on the claim is true. A mint that ends without an error shows one of
the two. -/
theorem mint_shows (he : P.Ed25519) (hb : P.Base58) (hd : P.DateParse)
    (hsigned : SignedIn P E (served P E run) session account) (buttons : List Unit) :
    Ensures P E ((presses session.token buttons {}).andThen fun shown =>
        (mint session.token shown).andThen fun last => .done (.ok (shown, last))) run
      fun run' panels =>
        (∀ panel ∈ [panels.1, panels.2], Backed P E session.token account run run' panel ∧
          (panel.minted.isSome → carriedClaimValid P panel = some true)) ∧
        (panels.2.error = none → panels.2.blocked.isSome ∨ panels.2.minted.isSome) := by
  refine Program.ensures_andThen Fresh.mono
    (presses_keep he hb hd hsigned buttons List.prefix_rfl (backed_blank session.token account run))
    fun more shown hfresh hshown => ?_
  refine Program.ensures_andThen Fresh.mono
    (mint_keeps he hb hd (hsigned.extend hb hfresh) (List.prefix_append _ _) hshown.2)
    fun more' last _ hlast => ?_
  refine Program.ensures_ok fun more'' hfresh' => ⟨fun panel hpanel => ?_, hlast.2⟩
  have hbacked : Backed P E session.token account run (run ++ more ++ more' ++ more'') panel := by
    rcases List.mem_cons.mp hpanel with rfl | hpanel
    · exact hshown.2.later ((List.prefix_append _ _).trans (List.prefix_append _ _))
    · rw [List.mem_singleton.mp hpanel]
      exact hlast.1.later (List.prefix_append _ _)
  refine ⟨hbacked, fun hsome => ?_⟩
  obtain ⟨minted, hminted⟩ := Option.isSome_iff_exists.mp hsome
  exact hbacked.valid he hb hfresh' hminted

end

/-- What Alice mints is shown, or the refusal is. -/
theorem mint_shows_alice :
    Ensures Reference.primitives Reference.env
      ((presses (sessionAt Reference.primitives Reference.env 2 alice).token [()] {}).andThen
        fun shown => (mint (sessionAt Reference.primitives Reference.env 2 alice).token
          shown).andThen fun last => .done (.ok (shown, last)))
      [⟨none, .accountCreate alice⟩] fun run' panels =>
        (∀ panel ∈ [panels.1, panels.2],
          Backed Reference.primitives Reference.env
            (sessionAt Reference.primitives Reference.env 2 alice).token
            (aliceAccount Reference.primitives Reference.env)
            [⟨none, .accountCreate alice⟩] run' panel ∧
          (panel.minted.isSome → carriedClaimValid Reference.primitives panel = some true)) ∧
        (panels.2.error = none → panels.2.blocked.isSome ∨ panels.2.minted.isSome) :=
  mint_shows Reference.ed25519 Reference.base58 Reference.dateParse
    (signedIn_alice Reference.primitives Reference.env) [()]

end Wayfinder.App.TokensPanel
