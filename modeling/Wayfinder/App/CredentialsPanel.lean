import Wayfinder.App.Client
import Wayfinder.Service.Handlers.Verdict
import Wayfinder.Service.Served

/-! The credential of the page: requesting, verifying and revoking it.

The panel shows a credential with the last verdict it was given. A press may fail at any call, and
then leaves what was shown. `Backed` is what every panel keeps: its credential was issued to the
holder, and its verdict is what the service said of that credential at some moment of the run. Once
a revocation went through, no press makes the panel show it as valid again (`revoked_stays`). -/
namespace Wayfinder.App.CredentialsPanel

open Js Service Service.Handlers Service.App Client
open Service.Credentials (CredentialToken VerificationResult)
open Service.Envelope (Response)

structure Panel where
  credential : Option CredentialToken := none
  result : Option VerificationResult := none
  error : Option Failure := none

/-- `run`: a call whose failure is shown and goes no further. -/
def attempt {A : Type} (panel : Panel) (call : PageFlow A)
    (next : Panel → A → PageFlow Panel) : PageFlow Panel :=
  call.bind fun
    | .ok a => next { panel with error := none } a
    | .error e => .done (.ok { panel with error := some e })

def verify (panel : Panel) (credential : CredentialToken) : PageFlow Panel :=
  attempt panel (verifyCredential credential) fun panel result =>
    .done (.ok { panel with result := some result })

def issue (profile : AccountProfile) (panel : Panel) : PageFlow Panel :=
  attempt panel (issueCredential profile.did
    [(lit "fullName", .str profile.name), (lit "verificationLevel", .str (lit "enhanced"))])
    fun panel credential => verify { panel with credential := some credential } credential

def reverify (panel : Panel) : PageFlow Panel :=
  match panel.credential with
  | none => .done (.ok panel)
  | some credential => verify panel credential

def revoke (panel : Panel) : PageFlow Panel :=
  match panel.credential with
  | none => .done (.ok panel)
  | some credential => attempt panel (revokeCredential credential.id) fun panel _ => reverify panel

/-- The buttons. -/
inductive Press where
  | issue
  | reverify
  | revoke

/-- A press does nothing when its button is not there. -/
def press (profile : AccountProfile) (button : Press) (panel : Panel) : PageFlow Panel :=
  match button with
  | .issue => if panel.credential.isSome then .done (.ok panel) else issue profile panel
  | .reverify => reverify panel
  | .revoke => if panel.result.any (·.checks.notRevoked) then revoke panel else .done (.ok panel)

def presses (profile : AccountProfile) (buttons : List Press) (panel : Panel) : PageFlow Panel :=
  Program.each (press profile) buttons panel

/-! ### What is shown -/

section
variable (P : Primitives) (E : Env)

/-- What a panel shows of a credential: its verdict is the service's, at some moment of the run. -/
structure Backed (holderDid : Str) (run : List Request) (panel : Panel) : Prop where
  issued : ∀ {credential}, panel.credential = some credential →
    ∃ i ∈ issuances (events P E run), i.credential = credential ∧ i.holderDid = holderDid
  judged : ∀ {credential result}, panel.credential = some credential → panel.result = some result →
    ∃ vc seen, credential.claims = [vc] ∧ seen <+: run ∧ Settled vc
      (credential.id ∈ revocations (events P E seen)) (E.clock (served P E seen).draws) result
  blank : panel.credential = none → panel.result = none

/-- The credential was revoked, and the panel shows that it is not valid. -/
def Withdrawn (run : List Request) (panel : Panel) : Prop :=
  ∃ credential result, panel.credential = some credential ∧ panel.result = some result ∧
    result.valid = false ∧ credential.id ∈ revocations (events P E run)

end

variable {P : Primitives} {E : Env} {holderDid : Str} {run : List Request} {panel : Panel}

theorem issuances_grow {run' : List Request} (h : run <+: run') {i : Issuance}
    (hi : i ∈ issuances (events P E run)) :
    i ∈ issuances (events P E run') :=
  ((events_grow h).filterMap _).subset hi

theorem revocations_grow {run' : List Request} (h : run <+: run') {id : Str}
    (hid : id ∈ revocations (events P E run)) :
    id ∈ revocations (events P E run') :=
  ((events_grow h).filterMap _).subset hid

theorem Backed.later {run' : List Request} (h : Backed P E holderDid run panel)
    (hrun : run <+: run') :
    Backed P E holderDid run' panel where
  issued := fun hcredential => by
    obtain ⟨i, hi, hsame⟩ := h.issued hcredential
    exact ⟨i, issuances_grow hrun hi, hsame⟩
  judged := fun hcredential hresult => by
    obtain ⟨vc, seen, hclaims, hseen, hsettled⟩ := h.judged hcredential hresult
    exact ⟨vc, seen, hclaims, hseen.trans hrun, hsettled⟩
  blank := h.blank

/-- A credential that is shown as valid was neither revoked nor ended when it was last verified. -/
theorem Backed.valid (h : Backed P E holderDid run panel) {result : VerificationResult}
    (hresult : panel.result = some result) (hvalid : result.valid = true) :
    ∃ i vc seen, i ∈ issuances (events P E run) ∧ i.holderDid = holderDid ∧
      panel.credential = some i.credential ∧ i.credential.claims = [vc] ∧
      seen <+: run ∧ i.credential.id ∉ revocations (events P E seen) ∧
      Unexpired vc (E.clock (served P E seen).draws) := by
  cases hcredential : panel.credential with
  | none =>
    rw [h.blank hcredential] at hresult
    cases hresult
  | some credential =>
    obtain ⟨i, hi, rfl, hholder⟩ := h.issued hcredential
    obtain ⟨vc, seen, hclaims, hseen, hsettled⟩ := h.judged hcredential hresult
    obtain ⟨hrevoked, hunexpired⟩ := hsettled.valid.mp hvalid
    exact ⟨i, vc, seen, hi, hholder, rfl, hclaims, hseen, hrevoked, hunexpired⟩

theorem Withdrawn.later {run' : List Request} (h : Withdrawn P E run panel) (hrun : run <+: run') :
    Withdrawn P E run' panel := by
  obtain ⟨credential, result, hcredential, hresult, hinvalid, hrevoked⟩ := h
  exact ⟨credential, result, hcredential, hresult, hinvalid, revocations_grow hrun hrevoked⟩

/-! ### What the calls ensure -/

/-- A credential that the page asks for holds texts, so it comes through as it is. -/
theorem credentialIssue_answered {w w' : World} {context : Option Json}
    {holderDid fullName level : Str} {response : Response Body} {credential : CredentialToken}
    (h : handle P E w ⟨context,
      .credentialIssue (some (.obj [(lit "holderDid", .str holderDid), (lit "subject",
        .obj [(lit "fullName", .str fullName), (lit "verificationLevel", .str level)])]))⟩ =
      (w', .answered response))
    (hbody : response.reparsed.response.bind asCredential = some credential) :
    response.response = some (.credential credential) := by
  obtain ⟨body, hsome, has⟩ := Option.bind_eq_some_iff.mp hbody
  obtain ⟨sent, hsent, rfl⟩ := Option.map_eq_some_iff.mp hsome
  have hchange := handle_change (P := P) (E := E) w ⟨context,
    .credentialIssue (some (.obj [(lit "holderDid", .str holderDid), (lit "subject",
      .obj [(lit "fullName", .str fullName), (lit "verificationLevel", .str level)])]))⟩
  rw [h] at hchange
  cases hchange with
  | quiet _ hquiet =>
    rw [Outcome.reports, Outcome.body, hsent] at hquiet
    cases sent with
    | credential => cases hquiet
    | _ => cases has
  | issued hholder hissue =>
    cases hholder
    obtain ⟨levelText, rfl, _⟩ := Credentials.issueCredential_ok hissue
    cases hsent
    cases has
    rfl

/-- A credential that the service answers with was issued to the holder. -/
theorem issueCredential_ensures (holderDid fullName level : Str) (run : List Request) :
    Ensures P E (issueCredential holderDid [(lit "fullName", .str fullName),
      (lit "verificationLevel", .str level)]) run fun run' credential =>
        ∃ i ∈ issuances (events P E run'), i.credential = credential ∧ i.holderDid = holderDid := by
  refine (ensures_call _ _ _ _ run).mono fun run' credential _ _ hanswered => ?_
  obtain ⟨before, stamp, response, htook, hbody⟩ := hanswered
  have hsome := credentialIssue_answered htook.answer hbody
  refine ⟨⟨holderDid, credential⟩, List.mem_filterMap.mpr ⟨_, htook.event, ?_⟩, rfl, rfl⟩
  have hholder : readProp? (some (.obj [(lit "holderDid", .str holderDid), (lit "subject",
    .obj [(lit "fullName", .str fullName), (lit "verificationLevel", .str level)])]))
    (lit "holderDid") = some (.str holderDid) := rfl
  simp only [issuanceOf, request, hholder, Outcome.body, hsome]

/-- A verdict on an issued credential is the service's at the moment of the call. -/
theorem verifyCredential_ensures (he : P.Ed25519) (hb : P.Base58) (hd : P.DateParse) {i : Issuance}
    (hi : i ∈ issuances (events P E run)) :
    Ensures P E (verifyCredential i.credential) run fun run' result =>
      ∃ vc seen, i.credential.claims = [vc] ∧ run <+: seen ∧ seen <+: run' ∧
        Settled vc (i.credential.id ∈ revocations (events P E seen))
          (E.clock (served P E seen).draws) result := by
  refine (ensures_call _ _ _ _ run).mono fun run' result _ hfresh hanswered => ?_
  obtain ⟨before, stamp, response, htook, hbody⟩ := hanswered
  obtain ⟨body, hsome, has⟩ := Option.bind_eq_some_iff.mp hbody
  obtain ⟨sent, hsent, rfl⟩ := Option.map_eq_some_iff.mp hsome
  cases sent with
  | verdict result =>
    cases has
    have hanswer :
        (handle P E (served P E before) ⟨some (context (lit "credentials.verify") none stamp),
          .credentialVerify (some (.obj [(lit "credential", i.credential.toJson)]))⟩).2.body =
          some (.verdict result) :=
      (congrArg (fun outcome : World × Outcome => outcome.2.body) htook.answer).trans hsent
    have hverdict := (credentialVerify_object rfl result).mp hanswer
    have hbefore := hfresh.earlier htook.within
    rw [served_eq] at hverdict
    obtain ⟨vc, hclaims, hsettled⟩ :=
      presented_settled he hb hd (stored_served hbefore) (issuances_grow htook.since hi) hverdict
    refine ⟨vc, before, hclaims, htook.since, htook.within, ?_⟩
    rw [served_eq]
    exact ⟨hsettled.schemaValid, hsettled.signatureValid, hsettled.notRevoked, hsettled.notExpired,
      hsettled.valid⟩
  | _ => cases has

/-- A credential that the service revoked for a call is among the revoked. -/
theorem revokeCredential_ensures (id : Str) (run : List Request) :
    Ensures P E (revokeCredential id) run fun run' _ => id ∈ revocations (events P E run') := by
  refine (ensures_call _ _ _ _ run).mono fun run' status _ _ hanswered => ?_
  obtain ⟨before, stamp, response, htook, hbody⟩ := hanswered
  obtain ⟨body, hsome, has⟩ := Option.bind_eq_some_iff.mp hbody
  obtain ⟨sent, hsent, rfl⟩ := Option.map_eq_some_iff.mp hsome
  refine List.mem_filterMap.mpr ⟨_, htook.event, ?_⟩
  cases sent with
  | status id' status' =>
    have hid : readProp (some (.obj [(lit "credentialId", .str id)])) (lit "credentialId") =
      .ok (some (.str id)) := rfl
    simp only [revocationOf, request, hid, Outcome.body, hsent]
  | _ => cases has

/-! ### What the panel keeps -/

/-- A panel and the run so far, after an earlier panel. -/
structure Keeps (P : Primitives) (E : Env) (holderDid : Str) (run : List Request) (panel : Panel)
    (run' : List Request) (panel' : Panel) : Prop where
  backed : Backed P E holderDid run' panel'
  withdrawn : Withdrawn P E run panel → Withdrawn P E run' panel'

theorem Keeps.trans {run' run'' : List Request} {panel' panel'' : Panel}
    (h : Keeps P E holderDid run panel run' panel')
    (h' : Keeps P E holderDid run' panel' run'' panel'') :
    Keeps P E holderDid run panel run'' panel'' :=
  ⟨h'.backed, fun hw => h'.withdrawn (h.withdrawn hw)⟩

theorem Backed.keeps {run' : List Request} (h : Backed P E holderDid run panel)
    (hrun : run <+: run') (error : Option Failure) :
    Keeps P E holderDid run panel run' { panel with error } where
  backed := ⟨(h.later hrun).issued, (h.later hrun).judged, h.blank⟩
  withdrawn := fun hw => hw.later hrun

theorem verify_keeps (he : P.Ed25519) (hb : P.Base58) (hd : P.DateParse)
    (h : Backed P E holderDid run panel) {credential : CredentialToken}
    (hcredential : panel.credential = some credential) :
    Ensures P E (verify panel credential) run fun run' panel' =>
      Keeps P E holderDid run panel run' panel' ∧ (credential.id ∈ revocations (events P E run) →
        panel'.error = none → Withdrawn P E run' panel') := by
  obtain ⟨i, hi, rfl, hholder⟩ := h.issued hcredential
  refine Program.ensures_bind Fresh.mono (verifyCredential_ensures he hb hd hi)
    (fun more result _ hresult => ?_) fun more e _ => ?_
  · obtain ⟨vc, seen, hclaims, hsince, hseen, hsettled⟩ := hresult
    refine Program.ensures_ok fun more' _ => ?_
    have hrun : run <+: run ++ more ++ more' :=
      (List.prefix_append _ _).trans (List.prefix_append _ _)
    have hwithdrawn : i.credential.id ∈ revocations (events P E run) →
        Withdrawn P E (run ++ more ++ more')
          { panel with result := some result, error := none } := by
      intro hrevoked
      refine ⟨i.credential, result, hcredential, rfl, ?_, revocations_grow hrun hrevoked⟩
      rw [Bool.eq_false_iff, Ne, hsettled.valid]
      exact fun hvalid => hvalid.1 (revocations_grow hsince hrevoked)
    refine ⟨⟨⟨(h.later hrun).issued, ?_, ?_⟩, ?_⟩, fun hrevoked _ => hwithdrawn hrevoked⟩
    · intro credential' result' hcredential' hresult'
      cases hresult'
      rw [show panel.credential = some credential' from hcredential', Option.some.injEq]
        at hcredential
      subst hcredential
      exact ⟨vc, seen, hclaims, hseen.trans (List.prefix_append _ _), hsettled⟩
    · intro hnone
      rw [show panel.credential = none from hnone] at hcredential
      cases hcredential
    · intro hw
      obtain ⟨credential', _, hcredential', _, _, hrevoked⟩ := hw
      rw [hcredential', Option.some.injEq] at hcredential
      exact hwithdrawn (hcredential ▸ hrevoked)
  · refine Program.ensures_ok fun more' _ =>
      ⟨h.keeps ((List.prefix_append _ _).trans (List.prefix_append _ _)) _, ?_⟩
    intro _ herror
    cases herror

theorem reverify_keeps (he : P.Ed25519) (hb : P.Base58) (hd : P.DateParse)
    (h : Backed P E holderDid run panel) :
    Ensures P E (reverify panel) run fun run' panel' => Keeps P E holderDid run panel run' panel' ∧
      ∀ credential, panel.credential = some credential →
        credential.id ∈ revocations (events P E run) →
        panel'.error = none → Withdrawn P E run' panel' := by
  unfold reverify
  cases hcredential : panel.credential with
  | none =>
    refine Program.ensures_ok fun more _ =>
      ⟨h.keeps (List.prefix_append _ _) panel.error, fun credential hsome => ?_⟩
    cases hsome
  | some credential =>
    refine (verify_keeps he hb hd h hcredential).mono fun run' panel' _ _ hkeeps =>
      ⟨hkeeps.1, fun credential' hsome => ?_⟩
    cases hsome
    exact hkeeps.2

theorem issue_keeps (he : P.Ed25519) (hb : P.Base58) (hd : P.DateParse) (profile : AccountProfile)
    (h : Backed P E profile.did run panel) (hnone : panel.credential = none) :
    Ensures P E (issue profile panel) run (Keeps P E profile.did run panel) := by
  have hblank : ∀ {run' panel'}, Backed P E profile.did run' panel' →
      Keeps P E profile.did run panel run' panel' := by
    refine fun hbacked => ⟨hbacked, fun hw => ?_⟩
    obtain ⟨_, _, hsome, _⟩ := hw
    rw [hnone] at hsome
    cases hsome
  have hblank' := h.blank hnone
  refine Program.ensures_bind Fresh.mono (issueCredential_ensures _ _ _ run)
    (fun more credential _ hissued => ?_) fun more e _ => ?_
  · have hbacked : Backed P E profile.did (run ++ more)
        { panel with credential := some credential, error := none } := by
      refine ⟨fun hsome => ?_, fun _ hresult => ?_, fun hnone' => ?_⟩
      · cases hsome
        exact hissued
      · rw [show panel.result = some _ from hresult] at hblank'
        cases hblank'
      · cases hnone'
    exact (verify_keeps he hb hd hbacked rfl).mono fun run' panel' _ _ hkeeps =>
      hblank hkeeps.1.backed
  · exact Program.ensures_ok fun more' _ =>
      h.keeps ((List.prefix_append _ _).trans (List.prefix_append _ _)) _

/-- A revocation that went through is shown. -/
theorem revoke_keeps (he : P.Ed25519) (hb : P.Base58) (hd : P.DateParse)
    (h : Backed P E holderDid run panel) :
    Ensures P E (revoke panel) run fun run' panel' => Keeps P E holderDid run panel run' panel' ∧
      (panel.credential.isSome → panel'.error = none → Withdrawn P E run' panel') := by
  unfold revoke
  cases hcredential : panel.credential with
  | none =>
    refine Program.ensures_ok fun more _ =>
      ⟨h.keeps (List.prefix_append _ _) panel.error, fun hsome => ?_⟩
    cases hsome
  | some credential =>
    refine Program.ensures_bind Fresh.mono (revokeCredential_ensures _ run)
      (fun more _ _ hrevoked => ?_) fun more e _ => ?_
    · have hkeeps := h.keeps (List.prefix_append run more) none
      refine (reverify_keeps he hb hd hkeeps.backed).mono fun run' panel' _ _ hshown =>
        ⟨hkeeps.trans hshown.1, fun _ => hshown.2 credential hcredential hrevoked⟩
    · refine Program.ensures_ok fun more' _ =>
        ⟨h.keeps ((List.prefix_append _ _).trans (List.prefix_append _ _)) _, fun _ herror => ?_⟩
      cases herror

/-- Whatever is pressed, a panel keeps its backing, and what was withdrawn stays so. -/
theorem press_keeps (he : P.Ed25519) (hb : P.Base58) (hd : P.DateParse) (profile : AccountProfile)
    (button : Press) (h : Backed P E profile.did run panel) :
    Ensures P E (press profile button panel) run (Keeps P E profile.did run panel) := by
  have hsame : Ensures P E (.done (.ok panel)) run (Keeps P E profile.did run panel) :=
    Program.ensures_ok fun more _ => h.keeps (List.prefix_append _ _) panel.error
  cases button with
  | issue =>
    rw [press]
    split
    · exact hsame
    · next hnone => exact issue_keeps he hb hd profile h (by simpa using hnone)
  | reverify => exact (reverify_keeps he hb hd h).mono fun _ _ _ _ hkeeps => hkeeps.1
  | revoke =>
    rw [press]
    split
    · exact (revoke_keeps he hb hd h).mono fun _ _ _ _ hkeeps => hkeeps.1
    · exact hsame

theorem presses_keep (he : P.Ed25519) (hb : P.Base58) (hd : P.DateParse) (profile : AccountProfile)
    (buttons : List Press) (h : Backed P E profile.did run panel) :
    Ensures P E (presses profile buttons panel) run (Keeps P E profile.did run panel) := by
  have hfirst : Keeps P E profile.did run panel run panel := ⟨h, id⟩
  refine Program.ensures_each Fresh.mono (fun more hkeeps => ?_) (fun button => ?_) buttons hfirst
  · exact hkeeps.trans (hkeeps.backed.keeps (List.prefix_append _ more) _)
  · intro run' panel' hkeeps
    exact (press_keeps he hb hd profile button hkeeps.backed).mono fun _ _ _ _ hrest =>
      hkeeps.trans hrest

theorem backed_blank (holderDid : Str) (run : List Request) : Backed P E holderDid run {} := by
  refine ⟨?_, ?_, fun _ => rfl⟩
  · intro _ hsome
    cases hsome
  · intro _ _ hsome
    cases hsome

/-- **What is shown of a credential is what the service said of it, and a revocation stays.**
Whatever is pressed, whatever others ask of the service meanwhile and whichever replies are lost,
the panel shows a credential that was issued to the holder with a verdict that the service gave of
it at some moment of the run: valid exactly when no one had revoked it by then and its end had not
come. Once a revocation went through without an error, nothing that is pressed later makes it show
as valid. -/
theorem revoked_stays (he : P.Ed25519) (hb : P.Base58) (hd : P.DateParse) (profile : AccountProfile)
    (buttons later : List Press) (run : List Request) :
    Ensures P E ((presses profile buttons {}).andThen fun shown =>
      (revoke shown).andThen fun revoked =>
      (presses profile later revoked).andThen fun last => .done (.ok (shown, revoked, last))) run
      fun run' panels => Backed P E profile.did run' panels.1 ∧
        Backed P E profile.did run' panels.2.2 ∧
        (panels.1.credential.isSome → panels.2.1.error = none →
          ∃ result, panels.2.2.result = some result ∧ result.valid = false) := by
  refine Program.ensures_andThen Fresh.mono
    (presses_keep he hb hd profile buttons (backed_blank _ run)) fun more shown _ hshown => ?_
  refine Program.ensures_andThen Fresh.mono (revoke_keeps he hb hd hshown.backed)
    fun more' revoked _ hrevoked => ?_
  refine Program.ensures_andThen Fresh.mono (presses_keep he hb hd profile later hrevoked.1.backed)
    fun more'' last _ hlast => ?_
  refine Program.ensures_ok fun more''' _ =>
    ⟨hshown.backed.later ?_, hlast.backed.later (List.prefix_append _ _), ?_⟩
  · exact ((List.prefix_append _ _).trans (List.prefix_append _ _)).trans (List.prefix_append _ _)
  · intro hsome herror
    obtain ⟨_, result, _, hresult, hinvalid, _⟩ := hlast.withdrawn (hrevoked.2 hsome herror)
    exact ⟨result, hresult, hinvalid⟩

/-- Alice, as her page shows her. -/
def aliceProfile : AccountProfile :=
  ⟨(aliceAccount Reference.primitives Reference.env).did, lit "alice", lit "Alice", .personal⟩

/-- Her credential does not come back after it was revoked. -/
theorem revoked_stays_alice : Ensures Reference.primitives Reference.env
    ((presses aliceProfile [.issue] {}).andThen fun shown => (revoke shown).andThen fun revoked =>
      (presses aliceProfile [.reverify] revoked).andThen fun last =>
        .done (.ok (shown, revoked, last))) [] fun _ panels =>
      panels.1.credential.isSome → panels.2.1.error = none → ∃ result,
        panels.2.2.result = some result ∧ result.valid = false :=
  (revoked_stays Reference.ed25519 Reference.base58 Reference.dateParse aliceProfile [.issue]
    [.reverify] []).mono fun _ _ _ _ hshows => hshows.2.2

end Wayfinder.App.CredentialsPanel
