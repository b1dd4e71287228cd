import Wayfinder.App.SignIn
import Wayfinder.App.Transfer
import Wayfinder.Service.Handlers.Bookkeeping
import Wayfinder.Service.Handlers.Ownership
import Wayfinder.Service.Tokens.Owners

/-! Transferring on the page, and the proof of it.

The panel asks the service what the wallet holds, opens an account for the recipient when the
address is free, asks for the transfer and then, side by side, for the proof, the log and the token.
`transfer_shows` says what stands behind a panel without an error: one transfer by the account,
recorded once, whose proof the browser's verdict accepts.

A new mint retires the last proof whenever it comes. Here it comes between transfers: in a transfer
under way it would take the proof from the panel just as it was set. -/
namespace Wayfinder.App.TransferPanel

open Js Service Service.Handlers Service.App Client
open Service.Tokens (TokenInstance transferDraws moveToken)
open Service.Credentials (Identity)
open Service.Ledger (ProofDetails TransactionLog TokenTransaction Entry tokenTransactions
  transferEntry leafOf)
open Service.Envelope (Response)

/-- `mintedId` is handed down by the page. -/
structure Panel where
  mintedId : Option Str := none
  held : Option TokenInstance := none
  newOwner : Option Str := none
  proof : Option ProofDetails := none
  log : Option TransactionLog := none
  tampered : Bool := false
  error : Option Failure := none

/-- The token just minted, when it is among them, or else the first. -/
def heldOf (mintedId : Option Str) (tokens : List TokenInstance) : Option TokenInstance :=
  (tokens.find? fun token => some token.id = mintedId).or tokens.head?

/-- A list that does not come empties the wallet, and no error is shown. -/
def refreshHeld (token : Str) (panel : Panel) : PageFlow Panel :=
  (searchTokens token).bind fun
    | .ok tokens => .done (.ok { panel with held := heldOf panel.mintedId tokens })
    | .error _ => .done (.ok { panel with held := none })

/-- What a mint, or opening the page, does: the last transfer is taken from the panel. -/
def renew (token : Str) (mintedId : Option Str) (panel : Panel) : PageFlow Panel :=
  refreshHeld token { mintedId, held := panel.held }

/-- The account of the recipient, made when there is none. -/
def recipientReady (recipient : Str) : PageFlow Unit :=
  (checkAvailability recipient).andThen fun available =>
    if available then (createAccount ⟨recipient, recipient, .personal⟩).andThen fun _ =>
      .done (.ok ())
    else .done (.ok ())

/-- The calls of a transfer. -/
def calls (token tokenId recipient : Str) :
    PageFlow (ProofDetails × TransactionLog × TokenInstance) :=
  (recipientReady recipient).andThen fun _ =>
    (Client.transfer token tokenId recipient).andThen fun accepted =>
      .both (getProof token accepted.txId) (.both (getTransaction token accepted.txId)
          (getToken token tokenId) .done) .done

def transfer (token recipient : Str) (panel : Panel) : PageFlow Panel :=
  match panel.held with
  | none =>
    .done (.ok { panel with
      error := some (.error (lit "Mint a token in step 6 first — there is nothing to transfer.")) })
  | some held =>
    (calls token held.id recipient).bind fun
      | .ok (proof, log, moved) =>
        refreshHeld token
          { panel with
            proof := some proof
            log := some log
            newOwner := moved.ownerIdent.map Identity.id
            tampered := false
            error := none }
      | .error e => .done (.ok { panel with tampered := false, error := some e })

/-- The buttons, and the new token that the page hands down when no transfer is under way. -/
inductive Press where
  | renew (mintedId : Option Str)
  | transfer (recipient : Str)
  | tamper (tampered : Bool)

/-- A press does nothing when its button is not there. -/
def press (token : Str) (button : Press) (panel : Panel) : PageFlow Panel :=
  match button with
  | .renew mintedId => renew token mintedId panel
  | .transfer recipient =>
    if panel.held.isSome && panel.proof.isNone && recipient != [] then
      transfer token recipient panel
    else .done (.ok panel)
  | .tamper tampered => .done (.ok (if panel.proof.isSome then { panel with tampered } else panel))

def presses (token : Str) (buttons : List Press) (panel : Panel) : PageFlow Panel :=
  Program.each (press token) buttons panel

def verdict (P : Primitives) (panel : Panel) : Option Bool :=
  Transfer.verdict P panel.proof panel.tampered

/-! ### What stands behind the panel -/

/-- The request for a transfer. -/
def ask (token tokenId recipient : Str) (stamp : Stamp) : Request :=
  request (.tokenTransact { operation := lit "transfer", tokenId := some tokenId,
                            toAddress := some recipient }) (lit "token.transact") (some token) stamp

section
variable (P : Primitives) (E : Env)

/-- The page's own transfer, at a moment of the run: the token went from the account to the one at
the address, under one new transaction of its history. -/
structure Passed (token : Str) (account : Store.Account) (run run' before : List Request)
    (stamp : Stamp) (id recipient : Str) (other : Store.Account) (entry : Entry) : Prop where
  since : run <+: before
  taken : before ++ [ask token id recipient stamp] <+: run'
  giver : ownerOf (served P E before) id = some account.did
  addressed : (served P E before).accounts.byAddress.get recipient = some other
  receiver : ownerOf (served P E (before ++ [ask token id recipient stamp])) id = some other.did
  recorded : tokenTransactions (served P E (before ++ [ask token id recipient stamp])).ledger id =
    tokenTransactions (served P E before).ledger id ++ [entry.tx]
  logged : Logged P E (before ++ [ask token id recipient stamp]) entry
  operation : entry.tx.operation = .transfer ∧ entry.tx.tokenId = id
  parties : entry.tx.fromAccount = some account.did ∧ entry.tx.toAccount = some other.did

/-- What is shown of a transfer: its log, a proof of it under a root that the ledger had since, and
whom the token belonged to at a moment since, which is the recipient unless the token had moved
on. -/
structure Shows (run' passed : List Request) (id : Str) (other : Store.Account) (entry : Entry)
    (proof : ProofDetails) (log : TransactionLog) (newOwner : Option Str) : Prop where
  log : log = entry.log
  txId : proof.txId = entry.tx.txId
  leafHash : proof.leafHash = (leafOf P entry.tx).leafHash
  included : ∃ seen, passed <+: seen ∧ seen <+: run' ∧
    Transfer.Shown (served P E seen).ledger proof ∧
    proof.merkleRoot = Ledger.merkleRoot P (served P E seen).ledger
  valid : Transfer.verdict P (some proof) false = some true
  newOwner : ∃ seen, passed <+: seen ∧ seen <+: run' ∧ newOwner = ownerOf (served P E seen) id ∧
    (tokenTransactions (served P E seen).ledger id =
      tokenTransactions (served P E passed).ledger id → newOwner = some other.did)

/-- A token that was the account's at a moment of the run, as it comes through. -/
def OwnedAt (account : Store.Account) (run run' : List Request) (token : TokenInstance) : Prop :=
  ∃ seen stored, run <+: seen ∧ seen <+: run' ∧
    (served P E seen).tokens.byId.get token.id = some stored ∧
    token = stored.reparsed ∧ ownerOf (served P E seen) token.id = some account.did

end

variable {P : Primitives} {E : Env}

theorem Passed.later {token : Str} {account other : Store.Account}
    {run run' run'' before : List Request} {stamp : Stamp} {id recipient : Str} {entry : Entry}
    (h : Passed P E token account run run' before stamp id recipient other entry)
    (hrun : run' <+: run'') :
    Passed P E token account run run'' before stamp id recipient other entry :=
  { h with taken := h.taken.trans hrun }

/-! ### What the handlers answer -/

/-- An accepted transfer moves the token to the account at the address. -/
theorem tokenTransact_answered {w w' : World} {context : Option Json} {payload : TransactRequest}
    {account : Store.Account} {id recipient : Str} {response : Response Body} {accepted : Submitted}
    (haccount : tokenAccount w.accounts context = .ok (some account))
    (hid : payload.tokenId = some id) (hto : payload.toAddress = some recipient)
    (h : handle P E w ⟨context, .tokenTransact payload⟩ = (w', .answered response))
    (hbody : response.reparsed.response.bind asSubmitted = some accepted) :
    ∃ other found, w.accounts.byAddress.get recipient = some other ∧
      w.tokens.byId.get id = some found ∧ found.ownerIdent.map Identity.id = some account.did ∧
      w' = { w with
        tokens := (moveToken P E w.draws w.tokens w.ledger id found account.did other.did).1
        ledger := (moveToken P E w.draws w.tokens w.ledger id found account.did other.did).2.1
        draws := w.draws + transferDraws + 1 + Envelope.responseDraws } ∧
      accepted.txId =
        (moveToken P E w.draws w.tokens w.ledger id found account.did other.did).2.2.1 := by
  have hchange := handle_change (P := P) (E := E) w ⟨context, .tokenTransact payload⟩
  obtain ⟨body, hsome, has⟩ := Option.bind_eq_some_iff.mp hbody
  obtain ⟨sent, hsent, rfl⟩ := Option.map_eq_some_iff.mp hsome
  rw [h] at hchange
  cases hchange with
  | quiet _ hquiet =>
    rw [Outcome.reports, Outcome.body, hsent] at hquiet
    cases sent with
    | submitted => cases hquiet
    | _ => cases has
  | @moved _ _ account' other id' toAddress found haccount' _ hid' hto' hrecipient hget howner =>
    rw [haccount, Except.ok.injEq, Option.some.injEq] at haccount'
    rw [hid, Option.some.injEq] at hid'
    rw [hto, Option.some.injEq] at hto'
    subst haccount' hid' hto'
    refine ⟨other, found, hrecipient, hget, howner, rfl, ?_⟩
    cases hsent
    cases has
    rfl

/-- The owner of a token is the receiver of its last transaction. -/
theorem owner_last {w : World} (h : Recorded P E w) {id : Str} {token : TokenInstance}
    (hget : w.tokens.byId.get id = some token) :
    ownerOf w id = (tokenTransactions w.ledger id).getLast?.bind TokenTransaction.toAccount := by
  obtain ⟨genesis, transfers, htransactions, hreplays⟩ := h.replays hget
  obtain ⟨did, howner, hlast⟩ := hreplays.owner
  rw [ownerOf, hget, Option.bind_some, howner, htransactions, List.getLast?_cons, Option.bind_some,
    ← List.getLastD_eq_getLast?, hlast]

/-- A token that is moved gets one more transaction, between the two accounts. -/
theorem moved_recorded {w w' : World} {journal : List Entry} (h : Recorded P E w)
    (hkept : Kept P E journal w) (hfresh : E.FreshIds w'.draws) {id fromDid toDid : Str}
    {token : TokenInstance} (hget : w.tokens.byId.get id = some token)
    (hledger : w'.ledger = (moveToken P E w.draws w.tokens w.ledger id token fromDid toDid).2.1)
    (hdraws : w'.draws = w.draws + transferDraws + 1 + Envelope.responseDraws) :
    ∃ entry, Kept P E (journal ++ [entry]) w' ∧
      entry.tx.txId = (moveToken P E w.draws w.tokens w.ledger id token fromDid toDid).2.2.1 ∧
      tokenTransactions w'.ledger id = tokenTransactions w.ledger id ++ [entry.tx] ∧
      (entry.tx.operation = .transfer ∧ entry.tx.tokenId = id) ∧
      entry.tx.fromAccount = some fromDid ∧ entry.tx.toAccount = some toDid := by
  have hlt := hdraws ▸ lt_moveDraws w.draws
  have hid := h.tokenId hget
  have htransactions := h.transactions (i := w.draws + 2) hfresh hledger ⟨by omega, hlt⟩ rfl id
  refine ⟨transferEntry P E w.draws _, hkept.record hfresh hledger ⟨Nat.le_refl _, hlt⟩ rfl rfl,
    rfl, ?_, ⟨rfl, hid⟩, rfl, rfl⟩
  rw [htransactions]
  exact congrArg (tokenTransactions w.ledger id ++ ·) (if_pos hid)

/-- What the ledger says of an entry of its journal. -/
theorem proof_logged {w : World} {journal : List Entry} {entry : Entry} (h : Kept P E journal w)
    (hentry : entry ∈ journal) {proof : ProofDetails}
    (hproof : Ledger.getProof P w.ledger entry.tx.txId = some proof) :
    proof.txId = entry.tx.txId ∧ proof.leafHash = (leafOf P entry.tx).leafHash ∧
      Transfer.Shown w.ledger proof ∧ proof.merkleRoot = Ledger.merkleRoot P w.ledger ∧
      Transfer.verdict P (some proof) false = some true := by
  unfold Ledger.getProof at hproof
  split at hproof
  · cases hproof
  · next i hi =>
    cases hproof
    obtain ⟨hlt, htx, _⟩ := List.findIdx?_eq_some_iff_getElem.mp hi
    have hleaf : w.ledger.leaves[i] = leafOf P entry.tx := by
      have hmem : w.ledger.leaves[i] ∈ w.ledger.leaves.filter (·.txId = entry.tx.txId) :=
        List.mem_filter.mpr ⟨List.getElem_mem hlt, htx⟩
      rw [h.books.filter_leaves hentry, List.mem_singleton] at hmem
      exact hmem
    have hi' : i < (w.ledger.leaves.map Ledger.Leaf.leafHash).length := by rwa [List.length_map]
    have hhash :
        (w.ledger.leaves.map Ledger.Leaf.leafHash).getD i [] = (leafOf P entry.tx).leafHash := by
      rw [List.getD_eq_getElem _ _ hi', List.getElem_map, hleaf]
    refine ⟨rfl, hhash, ?_, rfl, Transfer.verdict_eq_true.mpr ?_⟩
    · show w.ledger.leaves[i]? = some ⟨entry.tx.txId, _⟩
      rw [hhash, List.getElem?_eq_getElem hlt, hleaf]
      rfl
    · exact Ledger.fold_pathFrom P hi'

theorem transactionProof_answered {w w' : World} {context : Option Json} {txId : Str}
    {response : Response Body} {proof : ProofDetails}
    (h : handle P E w ⟨context, .transactionProof txId⟩ = (w', .answered response))
    (hbody : response.reparsed.response.bind asProof = some proof) :
    Ledger.getProof P w.ledger txId = some proof := by
  simp only [handle, transactionProof] at h
  split at h
  · cases h
    cases hbody
  · next hproof =>
    cases h
    cases hbody
    exact hproof

theorem transactionGet_answered {w w' : World} {context : Option Json} {txId : Str}
    {response : Response Body} {log : TransactionLog}
    (h : handle P E w ⟨context, .transactionGet txId⟩ = (w', .answered response))
    (hbody : response.reparsed.response.bind asLog = some log) :
    w.ledger.txLogs.get txId = some log := by
  simp only [handle, transactionGet] at h
  split at h
  · cases h
    cases hbody
  · next hlog =>
    cases h
    cases hbody
    exact hlog

theorem tokenGet_found {w w' : World} {context : Option Json} {id : Str} {response : Response Body}
    {token : TokenInstance} (h : handle P E w ⟨context, .tokenGet id⟩ = (w', .answered response))
    (hbody : response.reparsed.response.bind asToken = some token) :
    ∃ stored, w.tokens.byId.get id = some stored ∧ token = stored.reparsed := by
  simp only [handle, tokenGet, Tokens.getToken] at h
  split at h
  · cases h
    cases hbody
  · next stored htoken =>
    cases h
    cases hbody
    exact ⟨stored, htoken, rfl⟩

theorem tokenSearch_answered {w w' : World} {context : Option Json} {account : Store.Account}
    {response : Response Body} {tokens : List TokenInstance}
    (haccount : tokenAccount w.accounts context = .ok (some account))
    (h : handle P E w ⟨context, .tokenSearch⟩ = (w', .answered response))
    (hbody : response.reparsed.response.bind asTokens = some tokens) :
    tokens = (Tokens.tokensForOwner w.tokens account.did).map TokenInstance.reparsed := by
  simp only [handle, tokenSearch, withAccount, haccount] at h
  cases h
  cases hbody
  rfl

/-! ### What the calls ensure -/

section
variable {run : List Request} {session : Session} {account : Store.Account}

/-- A wallet that is read holds what the account owned. -/
theorem refreshHeld_ensures (hb : P.Base58)
    (hsigned : SignedIn P E (served P E run) session account) (panel : Panel) :
    Ensures P E (refreshHeld session.token panel) run fun run' panel' => ∃ held,
      panel' = { panel with held } ∧ ∀ token, held = some token →
        OwnedAt P E account run run' token := by
  refine Program.ensures_bind Fresh.mono (ensures_call _ _ _ _ run)
    (fun more tokens hfresh hanswered => ?_) fun more e _ => ?_
  · obtain ⟨before, stamp, response, htook, hbody⟩ := hanswered
    refine Program.ensures_ok fun more' _ => ⟨_, rfl, fun token hheld => ?_⟩
    have hbefore := hfresh.earlier htook.within
    have htokens :=
      tokenSearch_answered (hsigned.account hb htook.since hbefore _ stamp) htook.answer hbody
    have hmem : token ∈ tokens := by
      rcases Option.or_eq_some_iff.mp hheld with hfound | ⟨_, hhead⟩
      · exact List.mem_of_find?_eq_some hfound
      · exact List.mem_of_head? hhead
    rw [htokens] at hmem
    obtain ⟨stored, hstored, rfl⟩ := List.mem_map.mp hmem
    rw [(indexed_served hbefore).mem_tokensForOwner, JsMap.mem_values] at hstored
    obtain ⟨⟨id, hget⟩, howned⟩ := hstored
    have hid := (indexed_served hbefore).ids hget
    subst hid
    refine ⟨before, stored, htook.since, htook.within.trans (List.prefix_append _ _), hget, rfl, ?_⟩
    show ((served P E before).tokens.byId.get stored.id).bind _ = _
    rw [hget]
    exact howned.ownerIdent
  · refine Program.ensures_ok fun more' _ => ⟨none, rfl, fun token hheld => ?_⟩
    cases hheld

/-- An accepted transfer passed the token on. -/
theorem transfer_ensures (hb : P.Base58) (hsigned : SignedIn P E (served P E run) session account)
    (id recipient : Str) :
    Ensures P E (Client.transfer session.token id recipient) run fun run' accepted =>
      ∃ before stamp other entry,
        Passed P E session.token account run run' before stamp id recipient other entry ∧
        accepted.txId = entry.tx.txId := by
  refine (ensures_call _ _ _ _ run).mono fun run' accepted _ hfresh hanswered => ?_
  obtain ⟨before, stamp, response, htook, hbody⟩ := hanswered
  have hbefore := hfresh.earlier htook.within
  have hafter := hfresh.earlier htook.taken
  have hrecorded := recorded_served hbefore
  obtain ⟨other, found, hrecipient, hget, howner, hworld, htxId⟩ :=
    tokenTransact_answered (hsigned.account hb htook.since hbefore _ stamp)
      rfl rfl htook.answer hbody
  obtain ⟨journal, hkept⟩ := kept_after (P := P) (E := E) (handled P E before) hbefore.handledIds
  rw [← served_eq] at hkept
  obtain ⟨entry, hlogged, hentry, htransactions, hoperation, hparties⟩ :=
    moved_recorded hrecorded hkept hafter.ids hget (congrArg (fun w : World => w.ledger) hworld)
      (congrArg World.draws hworld)
  refine ⟨before, stamp, other, entry, ⟨htook.since, htook.taken, ?_, hrecipient, ?_, htransactions,
    ⟨_, hlogged, List.mem_append_right _ (List.mem_singleton_self _)⟩, hoperation, hparties⟩,
    htxId.trans hentry.symm⟩
  · rw [ownerOf, hget]
    exact howner
  · obtain ⟨token', hget', _⟩ := token_served (List.prefix_append _ _) hafter hget
    rw [ask, owner_last (recorded_served hafter) hget', htransactions, List.getLast?_concat]
    exact hparties.2

/-- A proof that is read is the ledger's own, of a moment since. -/
theorem getProof_ensures {entry : Entry} (hlogged : Logged P E run entry) (token : Str) :
    Ensures P E (getProof token entry.tx.txId) run fun run' proof => proof.txId = entry.tx.txId ∧
      proof.leafHash = (leafOf P entry.tx).leafHash ∧
      Transfer.verdict P (some proof) false = some true ∧
      ∃ seen, run <+: seen ∧ seen <+: run' ∧ Transfer.Shown (served P E seen).ledger proof ∧
        proof.merkleRoot = Ledger.merkleRoot P (served P E seen).ledger := by
  refine (ensures_call _ _ _ _ run).mono fun run' proof _ hfresh hanswered => ?_
  obtain ⟨before, stamp, response, htook, hbody⟩ := hanswered
  obtain ⟨journal, hkept, hentry⟩ := hlogged.later htook.since (hfresh.earlier htook.within)
  obtain ⟨htxId, hleaf, hshown, hroot, hvalid⟩ :=
    proof_logged hkept hentry (transactionProof_answered htook.answer hbody)
  exact ⟨htxId, hleaf, hvalid, before, htook.since, htook.within, hshown, hroot⟩

theorem getTransaction_ensures {entry : Entry} (hlogged : Logged P E run entry) (token : Str) :
    Ensures P E (getTransaction token entry.tx.txId) run fun _ log => log = entry.log := by
  refine (ensures_call _ _ _ _ run).mono fun run' log _ hfresh hanswered => ?_
  obtain ⟨before, stamp, response, htook, hbody⟩ := hanswered
  have hlog := (hlogged.later htook.since (hfresh.earlier htook.within)).log
  rw [transactionGet_answered htook.answer hbody, Option.some.injEq] at hlog
  exact hlog

/-- A token that is read shows its owner of a moment since. -/
theorem getToken_ensures (token id : Str) :
    Ensures P E (getToken token id) run fun run' moved =>
      ∃ seen stored, run <+: seen ∧ seen <+: run' ∧
        (served P E seen).tokens.byId.get id = some stored ∧ moved = stored.reparsed := by
  refine (ensures_call _ _ _ _ run).mono fun run' moved _ _ hanswered => ?_
  obtain ⟨before, stamp, response, htook, hbody⟩ := hanswered
  obtain ⟨stored, hstored, hmoved⟩ := tokenGet_found htook.answer hbody
  exact ⟨before, stored, htook.since, htook.within, hstored, hmoved⟩

/-- What the calls of a transfer end with. -/
theorem calls_ensures (hb : P.Base58) (hsigned : SignedIn P E (served P E run) session account)
    (id recipient : Str) :
    Ensures P E (calls session.token id recipient) run fun run' replies =>
      ∃ before stamp other entry,
        Passed P E session.token account run run' before stamp id recipient other entry ∧
        Shows P E run' (before ++ [ask session.token id recipient stamp]) id other entry replies.1
          replies.2.1 (replies.2.2.ownerIdent.map Identity.id) := by
  refine Program.ensures_andThen (Q := fun _ _ => True) Fresh.mono (fun _ _ _ _ _ _ => trivial)
    fun more _ hfresh _ => ?_
  refine Program.ensures_andThen Fresh.mono
    (transfer_ensures hb (hsigned.extend hb hfresh) id recipient)
    fun more' accepted hfresh' haccepted => ?_
  obtain ⟨before, stamp, other, entry, hpassed, htxId⟩ := haccepted
  have hlogged := hpassed.logged.later hpassed.taken hfresh'
  rw [htxId]
  refine (Program.ensures_both (getProof_ensures hlogged session.token) (Program.ensures_both
    (getTransaction_ensures hlogged session.token) (getToken_ensures session.token id))).mono
    fun run' replies hrun hfresh'' hreplies => ?_
  obtain ⟨⟨hproof, hleaf, hvalid, seen, hsince, hseen, hshown, hroot⟩, hlog, seen', stored, hsince',
    hseen', hget, hmoved⟩ := hreplies
  have howner : replies.2.2.ownerIdent.map Identity.id = ownerOf (served P E seen') id := by
    rw [ownerOf, hget, Option.bind_some, hmoved]
    rfl
  refine ⟨before, stamp, other, entry, ⟨(List.prefix_append _ _).trans hpassed.since,
    hpassed.taken.trans hrun, hpassed.giver, hpassed.addressed, hpassed.receiver,
    hpassed.recorded, hpassed.logged, hpassed.operation, hpassed.parties⟩,
    ⟨hlog, hproof, hleaf, ⟨seen, hpassed.taken.trans hsince, hseen, hshown, hroot⟩, hvalid, seen',
      hpassed.taken.trans hsince', hseen', howner, fun hsame => ?_⟩⟩
  rw [howner, owner_last (recorded_served (hfresh''.earlier hseen')) hget, hsame, hpassed.recorded,
      List.getLast?_concat]
  exact hpassed.parties.2

end

/-! ### What the panel keeps -/

section
variable (P E)

/-- What is behind a panel: a transfer of the account, when it shows one, and a token that was the
account's. -/
structure Backed (token : Str) (account : Store.Account) (run run' : List Request)
    (panel : Panel) : Prop where
  moved : ∀ {proof}, panel.proof = some proof → ∃ before stamp id recipient other entry log,
    Passed P E token account run run' before stamp id recipient other entry ∧ panel.log = some log ∧
    Shows P E run'
      (before ++ [ask token id recipient stamp]) id other entry proof log panel.newOwner
  blank : panel.proof = none → panel.log = none ∧ panel.newOwner = none
  held : ∀ {held}, panel.held = some held → OwnedAt P E account run run' held

end

section
variable {token : Str} {account : Store.Account} {run run' run'' : List Request}

theorem Shows.later {passed : List Request} {id : Str} {other : Store.Account} {entry : Entry}
    {proof : ProofDetails} {log : TransactionLog} {newOwner : Option Str}
    (h : Shows P E run' passed id other entry proof log newOwner) (hrun : run' <+: run'') :
    Shows P E run'' passed id other entry proof log newOwner := by
  obtain ⟨seen, hsince, hseen, hincluded⟩ := h.included
  obtain ⟨seen', hsince', hseen', howner⟩ := h.newOwner
  exact ⟨h.log, h.txId, h.leafHash, ⟨seen, hsince, hseen.trans hrun, hincluded⟩, h.valid,
    seen', hsince', hseen'.trans hrun, howner⟩

theorem OwnedAt.later {held : TokenInstance} (h : OwnedAt P E account run run' held)
    (hrun : run' <+: run'') :
    OwnedAt P E account run run'' held := by
  obtain ⟨seen, stored, hsince, hseen, howned⟩ := h
  exact ⟨seen, stored, hsince, hseen.trans hrun, howned⟩

theorem Backed.later {panel : Panel} (h : Backed P E token account run run' panel)
    (hrun : run' <+: run'') :
    Backed P E token account run run'' panel where
  moved := fun hproof => by
    obtain ⟨before, stamp, id, recipient, other, entry, log, hpassed, hlog, hshows⟩ :=
      h.moved hproof
    exact ⟨before, stamp, id, recipient, other, entry, log, hpassed.later hrun, hlog,
      hshows.later hrun⟩
  blank := h.blank
  held := fun hheld => (h.held hheld).later hrun

/-- Of the switch and of an error nothing is told. -/
theorem Backed.same {panel panel' : Panel} (h : Backed P E token account run run' panel)
    (hheld : panel'.held = panel.held) (hproof : panel'.proof = panel.proof)
    (hlog : panel'.log = panel.log) (howner : panel'.newOwner = panel.newOwner) :
    Backed P E token account run run' panel' := by
  refine ⟨fun hsome => ?_, fun hnone => ?_, fun hsome => ?_⟩
  · rw [hlog, howner]
    exact h.moved (hproof ▸ hsome)
  · rw [hlog, howner]
    exact h.blank (hproof ▸ hnone)
  · exact h.held (hheld ▸ hsome)

end

section
variable {session : Session} {account : Store.Account} {start run : List Request} {panel : Panel}

/-- A transfer without an error is shown with what the account's own request recorded. -/
theorem transfer_keeps (hb : P.Base58) (hsigned : SignedIn P E (served P E run) session account)
    (hstart : start <+: run) (recipient : Str)
    (h : Backed P E session.token account start run panel) :
    Ensures P E (transfer session.token recipient panel) run fun run' panel' =>
      Backed P E session.token account start run' panel' ∧
      ∀ {held}, panel.held = some held → panel'.error = none → ∃ before stamp other entry proof log,
        Passed P E session.token account run run' before stamp held.id recipient other entry ∧
        panel'.proof = some proof ∧ panel'.log = some log ∧
        Shows P E run' (before ++ [ask session.token held.id recipient stamp]) held.id other entry
          proof log panel'.newOwner := by
  unfold transfer
  cases hheld : panel.held with
  | none =>
    refine Program.ensures_ok fun more _ =>
      ⟨(h.later (List.prefix_append _ _)).same hheld.symm rfl rfl rfl, fun hsome => ?_⟩
    cases hsome
  | some held =>
    refine Program.ensures_bind Fresh.mono (calls_ensures hb hsigned held.id recipient)
      (fun more replies hfresh hcalls => ?_) fun more e _ => ?_
    · obtain ⟨before, stamp, other, entry, hpassed, hshows⟩ := hcalls
      obtain ⟨proof, log, moved⟩ := replies
      refine (refreshHeld_ensures hb (hsigned.extend hb hfresh) _).mono
        fun run' panel' hrun _ hrefreshed => ?_
      obtain ⟨held', rfl, howned⟩ := hrefreshed
      refine ⟨⟨fun hproof => ?_, fun hnone => ?_, fun hsome => ?_⟩, fun hsame _ => ?_⟩
      · cases hproof
        have hpassed' := hpassed.later hrun
        exact ⟨before, stamp, held.id, recipient, other, entry, log,
          { hpassed' with since := hstart.trans hpassed.since }, rfl, hshows.later hrun⟩
      · cases hnone
      · obtain ⟨seen, stored, hsince, hseen⟩ := howned _ hsome
        exact ⟨seen, stored, hstart.trans ((List.prefix_append _ _).trans hsince), hseen⟩
      · cases hsame
        exact ⟨before, stamp, other, entry, proof, log, hpassed.later hrun, rfl, rfl,
          hshows.later hrun⟩
    · have hrun : ∀ more', run <+: run ++ more ++ more' := fun more' =>
        (List.prefix_append _ _).trans (List.prefix_append _ _)
      refine Program.ensures_ok fun more' _ =>
        ⟨(h.later (hrun more')).same hheld.symm rfl rfl rfl, fun _ herror => ?_⟩
      cases herror

theorem renew_keeps (hb : P.Base58) (hsigned : SignedIn P E (served P E run) session account)
    (hstart : start <+: run) (mintedId : Option Str) :
    Ensures P E (renew session.token mintedId panel) run
      (Backed P E session.token account start) := by
  refine (refreshHeld_ensures hb hsigned _).mono fun run' panel' _ _ hrefreshed => ?_
  obtain ⟨held, rfl, howned⟩ := hrefreshed
  refine ⟨fun hproof => ?_, fun _ => ⟨rfl, rfl⟩, fun hsome => ?_⟩
  · cases hproof
  · obtain ⟨seen, stored, hsince, hseen⟩ := howned _ hsome
    exact ⟨seen, stored, hstart.trans hsince, hseen⟩

/-- Whatever is pressed, a panel keeps its backing. -/
theorem presses_keep (hb : P.Base58) (hsigned : SignedIn P E (served P E start) session account)
    (buttons : List Press) (hstart : start <+: run)
    (h : Backed P E session.token account start run panel) :
    Ensures P E (presses session.token buttons panel) run fun run' panel' =>
      start <+: run' ∧ Backed P E session.token account start run' panel' := by
  refine Program.ensures_each Fresh.mono (fun more hkept => ?_)
    (fun button run' panel' hkept => ?_) buttons ⟨hstart, h⟩
  · exact ⟨hkept.1.trans (List.prefix_append _ _), hkept.2.later (List.prefix_append _ _)⟩
  · obtain ⟨⟨more, rfl⟩, hbacked⟩ := hkept
    refine Program.ensures_assuming Fresh.mono fun hfresh => ?_
    have hsigned' := hsigned.extend hb hfresh
    have hsame : ∀ tampered error,
        Ensures P E (.done (.ok { panel' with tampered, error })) (start ++ more)
          fun run' panel' => start <+: run' ∧ Backed P E session.token account start run' panel' :=
      fun tampered error =>
        Program.ensures_ok fun more' _ => ⟨(List.prefix_append _ _).trans (List.prefix_append _ _),
          (hbacked.later (List.prefix_append _ _)).same rfl rfl rfl rfl⟩
    cases button with
    | renew mintedId =>
      exact (renew_keeps hb hsigned' (List.prefix_append _ _) mintedId).mono
        fun _ _ hrun _ hrenewed => ⟨(List.prefix_append _ _).trans hrun, hrenewed⟩
    | transfer recipient =>
      rw [press]
      split
      · exact (transfer_keeps hb hsigned' (List.prefix_append _ _) recipient hbacked).mono
          fun _ _ hrun _ hmoved => ⟨(List.prefix_append _ _).trans hrun, hmoved.1⟩
      · exact hsame panel'.tampered panel'.error
    | tamper tampered =>
      rw [press]
      split
      · exact hsame tampered panel'.error
      · exact hsame panel'.tampered panel'.error

theorem backed_blank (token : Str) (account : Store.Account) (run : List Request) :
    Backed P E token account run run {} := by
  refine ⟨fun hproof => ?_, fun _ => ⟨rfl, rfl⟩, fun hheld => ?_⟩
  · cases hproof
  · cases hheld

/-- The verdict that is shown follows the switch; or two of the strings hashed have one hash. -/
theorem Backed.verdict (hP : P.DigestLength) {token : Str}
    (h : Backed P E token account start run panel) {proof : ProofDetails}
    (hproof : panel.proof = some proof) :
    verdict P panel = some (!panel.tampered) ∨ Hash.Collision
      (Service.Crypto.sha256Hex P) (Ledger.foldStrings P proof.leafHash proof.proofPath ++
        Ledger.foldStrings P (Transfer.tamper proof.leafHash) proof.proofPath) := by
  obtain ⟨_, _, _, _, _, _, _, _, _, hshows⟩ := h.moved hproof
  rw [TransferPanel.verdict, hproof]
  cases panel.tampered with
  | false => exact .inl hshows.valid
  | true => exact Transfer.verdict_tampered hP hshows.valid

/-- **What the panel shows of a transfer is so.** Whatever is pressed, with new tokens handed down
between transfers, whatever others ask of the service meanwhile and whichever replies are lost, a
proof that is shown is of one transfer by the account, of a token that was its own, to the account
at the address, recorded once: the log is that transaction's, the leaf is its leaf under a root that
the ledger had since, and the new owner is the recipient unless the token had moved on. The verdict
is that the proof is valid, and that the tampered one is not; or two of the strings hashed have one
hash. A transfer that ends without an error shows itself. -/
theorem transfer_shows (hb : P.Base58) (hP : P.DigestLength)
    (hsigned : SignedIn P E (served P E run) session account) (buttons : List Press)
    (recipient : Str) :
    Ensures P E ((presses session.token buttons {}).andThen fun shown =>
        (transfer session.token recipient shown).andThen fun last => .done (.ok (shown, last))) run
      fun run' panels =>
        (∀ panel ∈ [panels.1, panels.2], Backed P E session.token account run run' panel ∧
          ∀ proof, panel.proof = some proof → verdict P panel = some (!panel.tampered) ∨
            Hash.Collision (Service.Crypto.sha256Hex P)
              (Ledger.foldStrings P proof.leafHash proof.proofPath ++
                Ledger.foldStrings P (Transfer.tamper proof.leafHash) proof.proofPath)) ∧
        ∀ held, panels.1.held = some held → panels.2.error = none →
          ∃ before stamp other entry proof log,
            Passed P E session.token account run run' before stamp held.id recipient other entry ∧
            panels.2.proof = some proof ∧ panels.2.log = some log ∧
            Shows P E run' (before ++ [ask session.token held.id recipient stamp]) held.id other
              entry proof log panels.2.newOwner := by
  refine Program.ensures_andThen Fresh.mono
    (presses_keep hb hsigned buttons List.prefix_rfl (backed_blank session.token account run))
    fun more shown hfresh hshown => ?_
  refine Program.ensures_andThen Fresh.mono
    (transfer_keeps hb (hsigned.extend hb hfresh) (List.prefix_append _ _) recipient hshown.2)
    fun more' last _ hlast => ?_
  refine Program.ensures_ok fun more'' _ => ⟨fun panel hpanel => ?_, fun held hheld herror => ?_⟩
  · have hbacked : Backed P E session.token account run (run ++ more ++ more' ++ more'') panel := by
      rcases List.mem_cons.mp hpanel with rfl | hpanel
      · exact hshown.2.later ((List.prefix_append _ _).trans (List.prefix_append _ _))
      · rw [List.mem_singleton.mp hpanel]
        exact hlast.1.later (List.prefix_append _ _)
    exact ⟨hbacked, fun proof hproof => hbacked.verdict hP hproof⟩
  · obtain ⟨before, stamp, other, entry, proof, log, hpassed, hproof, hlog, hshows⟩ :=
      hlast.2 hheld herror
    have hpassed' := hpassed.later (List.prefix_append _ more'')
    exact ⟨before, stamp, other, entry, proof, log,
      { hpassed' with since := (List.prefix_append _ _).trans hpassed.since }, hproof, hlog,
      hshows.later (List.prefix_append _ _)⟩

end

/-- What Alice transfers to Bob is shown as the ledger has it. -/
theorem transfer_shows_alice :
    Ensures Reference.primitives Reference.env
      ((presses (sessionAt Reference.primitives Reference.env 2 alice).token [.renew none]
          {}).andThen fun shown =>
        (transfer (sessionAt Reference.primitives Reference.env 2 alice).token (lit "bob")
          shown).andThen fun last => .done (.ok (shown, last)))
      [⟨none, .accountCreate alice⟩] fun run' panels =>
        (∀ panel ∈ [panels.1, panels.2],
          Backed Reference.primitives Reference.env
            (sessionAt Reference.primitives Reference.env 2 alice).token
            (aliceAccount Reference.primitives Reference.env)
            [⟨none, .accountCreate alice⟩] run' panel ∧
          ∀ proof, panel.proof = some proof →
            verdict Reference.primitives panel = some (!panel.tampered) ∨
            Hash.Collision (Service.Crypto.sha256Hex Reference.primitives)
              (Ledger.foldStrings Reference.primitives proof.leafHash proof.proofPath ++
                Ledger.foldStrings Reference.primitives (Transfer.tamper proof.leafHash)
                  proof.proofPath)) ∧
        ∀ held, panels.1.held = some held → panels.2.error = none →
          ∃ before stamp other entry proof log,
            Passed Reference.primitives Reference.env
              (sessionAt Reference.primitives Reference.env 2 alice).token
              (aliceAccount Reference.primitives Reference.env)
              [⟨none, .accountCreate alice⟩] run' before stamp held.id (lit "bob") other entry ∧
            panels.2.proof = some proof ∧ panels.2.log = some log ∧
            Shows Reference.primitives Reference.env run'
              (before ++ [ask (sessionAt Reference.primitives Reference.env 2 alice).token held.id
                (lit "bob") stamp])
              held.id other entry proof log panels.2.newOwner :=
  transfer_shows Reference.base58 Reference.digestLength
    (signedIn_alice Reference.primitives Reference.env) [.renew none] (lit "bob")

end Wayfinder.App.TransferPanel
