import Wayfinder.Custody
import Wayfinder.Service.Handlers.Holdings
import Wayfinder.Service.Handlers.Ownership

/-! The service is a register of title.

An address is a name, a DID a party, an access token a session and a token an asset; the chain of an
asset is the receivers that its history records. In every reachable world these make a book
(`book`), and every request, with what was answered, is a step of the register (`service_refines`):
an address is refused exactly when it is malformed or taken, a transfer exactly when the session
does not speak for the holder or the address for nobody, and every lookup of a party, of a holder or
of what was held is answered as the book says. A key that is read stands for the DID that spells
it. -/
namespace Wayfinder.Service.Handlers

open Js Envelope Credentials TokenClasses Tokens
open Custody (Book Act Step Runs)
open Ledger (TokenTransaction tokenTransactions)

/-! ### What is observed -/

/-- The access token of a request, none when the authorization is missing or no string. -/
def accessTokenOf (context : Option Json) : Option Str := (bearerToken context).toOption.join

/-- Who received a token, first to last. -/
def receivers (list : List TokenTransaction) : List Str := list.filterMap TokenTransaction.toAccount

/-- The DID that spells a key. -/
def didOf (publicKeyMultibase : Str) : Str := lit "did:key:" ++ publicKeyMultibase

/-- A request with its outcome, as an act on the register. -/
def observe (request : Request) (outcome : Outcome) : Act Str Str Str Str :=
  match request.payload with
  | .accountCreate payload =>
    match outcome.body with
    | some (.registration success) => .opened payload.address success.accessToken
    | _ => .openRefused payload.address
  | .checkAvailability address =>
    match outcome.body with
    | some (.availability available) => .available address available
    | _ => .other
  | .resolveAddress address =>
    match outcome.body with
    | some (.resolved _ did) => .resolved address (some did)
    | _ => .resolved address none
  | .accountGet =>
    match outcome.body with
    | some (.profile account) => .told (accessTokenOf request.context) (some account.did)
    | _ => .told (accessTokenOf request.context) none
  | .keysSearch =>
    match outcome.body with
    | some (.keys keys) =>
      .told (accessTokenOf request.context) (keys.head?.map fun key => didOf key.publicKeyMultibase)
    | _ => .told (accessTokenOf request.context) none
  | .keysPublic _ =>
    match outcome.body with
    | some (.publicKey publicKey address) => .resolved address (some (didOf publicKey))
    | _ => .other
  | .tokenGet id =>
    match outcome.body with
    | some (.token token) => .owned id (token.ownerIdent.map Identity.id)
    | _ => .owned id none
  | .tokenSearch =>
    match outcome.body with
    | some (.tokens tokens _) =>
      .listed (accessTokenOf request.context) (some (tokens.map TokenInstance.id))
    | _ => .listed (accessTokenOf request.context) none
  | .tokenMint _ =>
    match outcome.mintedId, accessTokenOf request.context with
    | some id, some accessToken => .issued accessToken id
    | _, _ => .other
  | .tokenTransact payload =>
    match payload.tokenId, payload.toAddress with
    | some id, some toAddress =>
      if payload.operation ≠ lit "transfer" then .other
      else
        match outcome.body, accessTokenOf request.context with
        | some (.submitted _), some accessToken => .moved accessToken id toAddress
        | _, accessToken => .moveRefused accessToken id toAddress
    | _, _ => .other
  | .tokenTransactionsList payload =>
    match payload.chosen, outcome.body with
    | some (.str id), some (.tokenTransactions list _) => .traced id (receivers list)
    | _, _ => .other
  | _ => .other

/-- An accepted transfer of a token to an address. -/
def Conveys (event : Request × Outcome) (accessToken id toAddress : Str) : Prop :=
  ∃ payload submitted, event.1.payload = .tokenTransact payload ∧
    payload.operation = lit "transfer" ∧
    payload.tokenId = some id ∧ payload.toAddress = some toAddress ∧
    accessTokenOf event.1.context = some accessToken ∧ event.2.body = some (.submitted submitted)

/-- What is observed as an issue is an accepted mint. -/
theorem observe_issued {event : Request × Outcome} {accessToken id : Str} :
    observe event.1 event.2 = .issued accessToken id ↔
      (∃ payload, event.1.payload = .tokenMint payload) ∧
      event.2.mintedId = some id ∧ accessTokenOf event.1.context = some accessToken := by
  obtain ⟨⟨context, payload⟩, outcome⟩ := event
  constructor
  · intro h
    cases payload with
    | tokenMint payload =>
      simp only [observe] at h
      split at h
      · next hid haccess =>
        cases h
        exact ⟨⟨payload, rfl⟩, hid, haccess⟩
      · cases h
    | tokenTransact payload =>
      simp only [observe] at h
      split at h
      · split at h
        · cases h
        · split at h <;> cases h
      · cases h
    | _ =>
      simp only [observe] at h
      first
        | cases h
        | (split at h <;> cases h)
  · rintro ⟨⟨payload, hpayload⟩, hid, haccess⟩
    cases hpayload
    simp only [observe, hid, haccess]

/-- What is observed as a move is an accepted transfer. -/
theorem observe_moved {event : Request × Outcome} {accessToken id toAddress : Str} :
    observe event.1 event.2 = .moved accessToken id toAddress ↔
      Conveys event accessToken id toAddress := by
  obtain ⟨⟨context, payload⟩, outcome⟩ := event
  constructor
  · intro h
    cases payload with
    | tokenTransact payload =>
      simp only [observe] at h
      split at h
      · next hid hto =>
        split at h
        · cases h
        · next hoperation =>
          split at h
          · next submitted accessToken hbody haccess =>
            cases h
            exact ⟨payload, submitted, rfl, by simpa using hoperation, hid, hto, haccess, hbody⟩
          · cases h
      · cases h
    | _ =>
      simp only [observe] at h
      first
        | cases h
        | (split at h <;> cases h)
  · rintro ⟨payload, submitted, hpayload, hoperation, hid, hto, haccess, hbody⟩
    cases hpayload
    simp only [observe, hid, hto, hoperation, haccess, hbody]
    rfl

/-! ### The book of a world -/

/-- What makes the stores a register: only well-formed addresses are held, an account knows its own
and its key, no two accounts have one DID, every access token is of an account, and so is every
receiver. -/
structure Titled (w : World) : Prop where
  address : ∀ {a x}, w.accounts.byAddress.get a = some x → x.address = a
  did : ∀ {a x}, w.accounts.byAddress.get a = some x → x.did = didOf x.publicKeyMultibase
  allowed : ∀ {a x}, w.accounts.byAddress.get a = some x → isFinternetAddress a = true
  distinct : ∀ {a b x y}, w.accounts.byAddress.get a = some x →
    w.accounts.byAddress.get b = some y → x.did = y.did → a = b
  session : ∀ {t a}, w.accounts.byToken.get t = some a → t ≠ [] ∧ ∃ x,
    w.accounts.byAddress.get a = some x
  held : ∀ {id tx did}, tx ∈ tokenTransactions w.ledger id → tx.toAccount = some did →
    ∃ a x, w.accounts.byAddress.get a = some x ∧ x.did = did

theorem ofAddress_some {s : Store.State} {address : Option Str} {x : Store.Account}
    (h : Store.ofAddress s address = some x) :
    ∃ a, address = some a ∧ s.byAddress.get a = some x := by
  unfold Store.ofAddress at h
  split at h
  · cases h
  · next a =>
    split at h
    · cases h
    · exact ⟨a, rfl, h⟩

theorem getByToken_some {s : Store.State} {t : Str} {x : Store.Account}
    (h : Store.getByToken s t = some x) :
    ∃ a, s.byToken.get t = some a ∧ s.byAddress.get a = some x :=
  ofAddress_some h

def book (w : World) (h : Titled w) : Book Str Str Str Str where
  party := fun a => (w.accounts.byAddress.get a).map Store.Account.did
  session := fun t => (Store.getByToken w.accounts t).map Store.Account.did
  chain := fun id => receivers (tokenTransactions w.ledger id)
  distinct := by
    intro a b did ha hb
    obtain ⟨x, hx, rfl⟩ := Option.map_eq_some_iff.mp ha
    obtain ⟨y, hy, hdid⟩ := Option.map_eq_some_iff.mp hb
    exact h.distinct hx hy hdid.symm
  speaker := by
    intro t did ht
    obtain ⟨x, hx, rfl⟩ := Option.map_eq_some_iff.mp ht
    obtain ⟨a, _, ha⟩ := getByToken_some hx
    exact ⟨a, by rw [ha]; rfl⟩
  held := by
    intro id did hdid
    obtain ⟨tx, htx, hto⟩ := List.mem_filterMap.mp hdid
    obtain ⟨a, x, hx, rfl⟩ := h.held htx hto
    exact ⟨a, by rw [hx]; rfl⟩

@[simp] theorem book_party (w : World) (h : Titled w) (a : Str) :
    (book w h).party a = (w.accounts.byAddress.get a).map Store.Account.did := rfl

@[simp] theorem book_session (w : World) (h : Titled w) (t : Str) :
    (book w h).session t = (Store.getByToken w.accounts t).map Store.Account.did := rfl

@[simp] theorem book_chain (w : World) (h : Titled w) (id : Str) :
    (book w h).chain id = receivers (tokenTransactions w.ledger id) := rfl

variable {P : Primitives} {E : Env}

/-- An access token speaks for the account that it is an index of. -/
theorem Titled.getByToken {w : World} (h : Titled w) (t : Str) :
    Store.getByToken w.accounts t = (w.accounts.byToken.get t).bind w.accounts.byAddress.get := by
  unfold Store.getByToken Store.ofAddress
  cases ht : w.accounts.byToken.get t with
  | none => rfl
  | some a =>
    obtain ⟨_, x, hx⟩ := h.session ht
    exact if_neg (isFinternetAddress_ne (h.allowed hx))

/-- The account of a request is the one its access token speaks for. -/
theorem Titled.tokenAccount {w : World} (h : Titled w) (context : Option Json) :
    (Handlers.tokenAccount w.accounts context).toOption.join =
      (accessTokenOf context).bind (Store.getByToken w.accounts) := by
  unfold Handlers.tokenAccount accessTokenOf
  cases bearerToken context with
  | error e => rfl
  | ok token =>
    cases token with
    | none => rfl
    | some token =>
      show (if token = [] then none else Store.getByToken w.accounts token) =
        Store.getByToken w.accounts token
      split
      · next he =>
        subst he
        cases hget : Store.getByToken w.accounts [] with
        | none => rfl
        | some x =>
          obtain ⟨a, ha, _⟩ := getByToken_some hget
          exact absurd rfl (h.session ha).1
      · rfl

/-! ### Reachable worlds -/

theorem held_change {w w' : World} {request : Request} {outcome : Outcome}
    (hchange : Change P E w request w' outcome) (hfresh : E.FreshIds w'.draws)
    (hrecorded : Recorded P E w)
    (h : ∀ {id tx did}, tx ∈ tokenTransactions w.ledger id → tx.toAccount = some did → ∃ a x,
      w.accounts.byAddress.get a = some x ∧ x.did = did) :
    ∀ {id tx did}, tx ∈ tokenTransactions w'.ledger id → tx.toAccount = some did →
      ∃ a x, w'.accounts.byAddress.get a = some x ∧ x.did = did := by
  intro id tx did htx hto
  cases hchange with
  | quiet => exact h htx hto
  | issued => exact h htx hto
  | revoked => exact h htx hto
  | registered => exact h htx hto
  | created _ hfree =>
    obtain ⟨a, x, hx, hdid⟩ := h htx hto
    exact ⟨a, x, JsMap.get_set_new _ hfree hx, hdid⟩
  | minted haccount hmint =>
    obtain ⟨tc, claim, m, log, _, _, hm, rfl, hbyId, rfl, rfl, _⟩ := mintToken_writes hmint
    obtain ⟨_, _, address, _, _, _, hget⟩ := tokenAccount_some haccount
    rw [hrecorded.transactions (i := m + 4) hfresh rfl ⟨by omega, lt_mintDraws m⟩ rfl] at htx
    rcases List.mem_append.mp htx with htx | htx
    · exact h htx hto
    · split at htx
      · rw [List.mem_singleton.mp htx] at hto
        exact ⟨address, _, hget, Option.some.inj hto⟩
      · cases htx
  | @moved context payload account recipient movedId toAddress token haccount hoperation hid
      htoAddress hrecipient hget howner =>
    rw [hrecorded.transactions (i := w.draws + 2) hfresh rfl ⟨by omega, lt_moveDraws _⟩ rfl] at htx
    rcases List.mem_append.mp htx with htx | htx
    · exact h htx hto
    · split at htx
      · rw [List.mem_singleton.mp htx] at hto
        exact ⟨toAddress, recipient, hrecipient, Option.some.inj hto⟩
      · cases htx

theorem allowed_change {w w' : World} {request : Request} {outcome : Outcome}
    (hchange : Change P E w request w' outcome)
    (h : ∀ {a x}, w.accounts.byAddress.get a = some x → isFinternetAddress a = true) :
    ∀ {a x}, w'.accounts.byAddress.get a = some x → isFinternetAddress a = true := by
  intro a x hx
  cases hchange with
  | @created context payload haddress _ =>
    have hx :
      (w.accounts.byAddress.set payload.address (Store.newAccount P E w.draws payload)).get a =
        some x := hx
    rw [JsMap.get_set] at hx
    split at hx
    · next he => rwa [← he]
    · exact h hx
  | _ => exact h hx

theorem titled_after (hb : P.Base58) (requests : List Request)
    (hids : E.FreshIds (after P E requests).draws)
    (hkeys : E.FreshKeys P (after P E requests).draws) : Titled (after P E requests) := by
  have hsessions := sessions_after hb requests hids hkeys
  have hallowed : ∀ {a x}, (after P E requests).accounts.byAddress.get a = some x →
      isFinternetAddress a = true :=
    run_invariant (F := fun _ => True) (I := fun w => ∀ {a x}, w.accounts.byAddress.get a = some x →
      isFinternetAddress a = true) (fun _ _ => trivial) (fun h => nomatch h)
      (fun hchange _ h => allowed_change hchange h) requests trivial
  have hheld := run_invariant (F := E.FreshIds) (I := fun w => Recorded P E w ∧
    ∀ {id tx did}, tx ∈ tokenTransactions w.ledger id → tx.toAccount = some did →
      ∃ a x, w.accounts.byAddress.get a = some x ∧ x.did = did)
    (fun hmn h => h.mono hmn) ⟨recorded_initial, fun h => nomatch h⟩ (fun hchange hfresh h =>
      ⟨recorded_change hchange hfresh h.1, held_change hchange hfresh h.1 h.2⟩) requests hids
  refine ⟨hsessions.address, fun hx => ?_, hallowed, hsessions.distinct,
    fun ht => ⟨?_, ?_⟩, hheld.2⟩
  · obtain ⟨n, input, _, rfl⟩ := hsessions.drawn hx
    rfl
  · obtain ⟨i, _, rfl⟩ := hsessions.tokenDrawn ht
    exact List.append_ne_nil_of_left_ne_nil (by decide) _
  · obtain ⟨x, hx, _⟩ := hsessions.granted ht
    exact ⟨x, hx⟩

/-! ### Who holds a token -/

theorem getLast?_filterMap {α β : Type} (f : α → Option β) {l : List α} {a : α} {b : β}
    (hl : l.getLast? = some a) (hf : f a = some b) : (l.filterMap f).getLast? = some b := by
  obtain ⟨init, rfl⟩ := List.getLast?_eq_some_iff.mp hl
  rw [List.filterMap_append, filterMap_singleton, hf]
  exact List.getLast?_concat ..

theorem receivers_unborn {w : World} (h : Recorded P E w) {id : Str}
    (hget : w.tokens.byId.get id = none) :
    tokenTransactions w.ledger id = [] := by
  rw [tokenTransactions, h.opened hget]
  rfl

/-- The last receiver of a token is its owner. -/
theorem book_holder {w : World} (hw : Titled w) (h : Recorded P E w) (id : Str) :
    (book w hw).holder id = ownerOf w id := by
  unfold ownerOf
  show (receivers (tokenTransactions w.ledger id)).getLast? = _
  cases hget : w.tokens.byId.get id with
  | none =>
    rw [receivers_unborn h hget]
    rfl
  | some token =>
    obtain ⟨genesis, transfers, htransactions, hreplays⟩ := h.replays hget
    obtain ⟨did, howner, hreceiver⟩ := hreplays.owner
    have hlast : (genesis :: transfers).getLast? = some (transfers.getLastD genesis) := by
      rw [List.getLast?_cons, List.getLastD_eq_getLast?]
    rw [htransactions, receivers, getLast?_filterMap _ hlast hreceiver]
    exact howner.symm

/-! ### Steps -/

/-- The addresses that an account may have. -/
abbrev Allowed (a : Str) : Prop := isFinternetAddress a = true

variable {w : World}

/-- The stores with a new account are the book with its entry. -/
theorem book_created (hw : Titled w) {payload : Store.RegistrationRequest} {n : Nat}
    (hw' : Titled
      { w with accounts := (Store.createAccount P E w.draws w.accounts payload).1, draws := n })
    (hn : (book w hw).party payload.address = none)
    (hp : ∀ a, (book w hw).party a ≠ some (Store.newAccount P E w.draws payload).did) :
    book _ hw' = (book w hw).enter payload.address (Store.accessTokenAt E (w.draws + 3))
      (Store.newAccount P E w.draws payload).did hn hp := by
  have hfree : w.accounts.byAddress.get payload.address = none := Option.map_eq_none_iff.mp hn
  ext : 1
  · funext a
    rw [Book.party_enter, book_party]
    show ((w.accounts.byAddress.set payload.address (Store.newAccount P E w.draws payload)).get
      a).map _ = _
    rw [JsMap.get_set]
    by_cases he : payload.address = a
    · rw [if_pos he, if_pos he.symm]
      rfl
    · rw [if_neg he, if_neg (Ne.symm he)]
      rfl
  · funext t
    rw [Book.session_enter, book_session, hw'.getByToken]
    show (((w.accounts.byToken.set (Store.accessTokenAt E (w.draws + 3)) payload.address).get
      t).bind (w.accounts.byAddress.set payload.address
        (Store.newAccount P E w.draws payload)).get).map _ = _
    rw [JsMap.get_set]
    by_cases he : Store.accessTokenAt E (w.draws + 3) = t
    · rw [if_pos he, if_pos he.symm, Option.bind_some, JsMap.get_set_self]
      rfl
    · rw [if_neg he, if_neg (Ne.symm he), book_session, hw.getByToken]
      cases ht : w.accounts.byToken.get t with
      | none => rfl
      | some a =>
        obtain ⟨_, x, hx⟩ := hw.session ht
        rw [Option.bind_some, Option.bind_some, hx, JsMap.get_set_new _ hfree hx]
  · rfl

/-- The tokens of an owner are the holdings of the party. -/
theorem holdings_tokensForOwner (hw : Titled w) (h : Recorded P E w) (hindexed : Indexed w.tokens)
    (did : Str) :
    (book w hw).Holdings did ((tokensForOwner w.tokens did).map TokenInstance.id) := by
  refine ⟨hindexed.partitioned.once did, fun id => ?_⟩
  rw [book_holder hw h, List.mem_map]
  constructor
  · rintro ⟨token, htoken, rfl⟩
    obtain ⟨hvalue, howned⟩ := hindexed.mem_tokensForOwner.mp htoken
    obtain ⟨id, hget⟩ := JsMap.mem_values.mp hvalue
    rw [← hindexed.ids hget] at hget
    rw [ownerOf, hget, Option.bind_some, howned.ownerIdent]
  · intro howner
    obtain ⟨token, hget, hdid⟩ := ownerOf_some howner
    obtain ⟨did', howned⟩ := hindexed.owned hget
    rw [howned.ownerIdent] at hdid
    cases hdid
    exact ⟨token, hindexed.mem_tokensForOwner.mpr ⟨JsMap.mem_values.mpr ⟨id, hget⟩, howned⟩,
      hindexed.ids hget⟩

/-- A record that is appended passes its token to the receiver. -/
theorem book_passed {w' : World} (hw : Titled w) (hw' : Titled w') {id did : Str}
    {tx : TokenTransaction} (hp : ∃ a, (book w hw).party a = some did)
    (haccounts : w'.accounts = w.accounts) (hto : tx.toAccount = some did)
    (hledger : ∀ id', tokenTransactions w'.ledger id' =
      tokenTransactions w.ledger id' ++ if id = id' then [tx] else []) :
    book w' hw' = (book w hw).pass id did hp := by
  ext : 1
  · funext a
    rw [book_party, haccounts]
    rfl
  · funext t
    rw [book_session, haccounts]
    rfl
  · funext id'
    rw [Book.chain_pass, book_chain, book_chain, hledger, receivers, receivers,
      List.filterMap_append]
    by_cases he : id = id'
    · rw [if_pos he, if_pos he.symm, filterMap_singleton, hto]
      rfl
    · rw [if_neg he, if_neg (Ne.symm he)]
      rfl

/-- Whom the session of a request speaks for. -/
theorem said_eq (hw : Titled w) (context : Option Json) : (book w hw).said (accessTokenOf context) =
    (tokenAccount w.accounts context).toOption.join.map Store.Account.did := by
  rw [hw.tokenAccount]
  cases accessTokenOf context <;> rfl

theorem session_of_account (hw : Titled w) {context : Option Json} {account : Store.Account}
    (haccount : tokenAccount w.accounts context = .ok (some account)) :
    ∃ accessToken, accessTokenOf context = some accessToken ∧
      (book w hw).session accessToken = some account.did := by
  have hsaid := said_eq hw context
  rw [haccount] at hsaid
  exact Option.bind_eq_some_iff.mp hsaid

theorem account_of_said (hw : Titled w) {context : Option Json} {did : Str}
    (h : (book w hw).said (accessTokenOf context) = some did) :
    ∃ account, tokenAccount w.accounts context = .ok (some account) ∧ account.did = did := by
  rw [said_eq] at h
  obtain ⟨account, haccount, hdid⟩ := Option.map_eq_some_iff.mp h
  refine ⟨account, ?_, hdid⟩
  cases htoken : tokenAccount w.accounts context with
  | error e =>
    rw [htoken] at haccount
    cases haccount
  | ok found =>
    rw [htoken] at haccount
    exact congrArg _ haccount

/-- What asks for an account answers nothing when the session speaks for nobody. -/
theorem withAccount_said (hw : Titled w) {context : Option Json}
    (handle : Store.Account → World × Outcome) :
    (book w hw).said (accessTokenOf context) = none ∧
      (withAccount E w context handle).2.body = none ∨
      ∃ account, tokenAccount w.accounts context = .ok (some account) ∧
        (book w hw).said (accessTokenOf context) = some account.did ∧
        withAccount E w context handle = handle account := by
  rw [said_eq hw context]
  unfold withAccount
  split
  · next he => exact .inl ⟨by rw [he]; rfl, rfl⟩
  · next he => exact .inl ⟨by rw [he]; rfl, rfl⟩
  · next account haccount => exact .inr ⟨account, haccount, by rw [haccount]; rfl, rfl⟩

/-- A request that changes nothing is answered as the book says. -/
theorem quiet_step (hw : Titled w) (h : Recorded P E w) (hindexed : Indexed w.tokens)
    (request : Request) (hquiet : (handle P E w request).2.reports = false) :
    Step Allowed (book w hw) (observe request (handle P E w request).2) (book w hw) := by
  obtain ⟨context, payload⟩ := request
  cases payload with
  | accountCreate payload =>
    simp only [observe]
    split
    · next hbody =>
      rw [Outcome.reports, hbody] at hquiet
      cases hquiet
    · refine .openRefused fun hfree => ?_
      rw [accountCreate_succeeds context payload hfree.1 (Option.map_eq_none_iff.mp hfree.2)]
        at hquiet
      cases hquiet
  | checkAvailability address =>
    refine .available ?_
    show (!(w.accounts.byAddress.get address).isSome) =
      ((w.accounts.byAddress.get address).map _).isNone
    cases w.accounts.byAddress.get address <;> rfl
  | resolveAddress address =>
    simp only [handle, resolveAddress, Store.getByAddress]
    split
    · next hnone => exact .resolved (by rw [book_party, hnone]; rfl)
    · next account haccount => exact .resolved (by rw [book_party, haccount]; rfl)
  | accountGet =>
    simp only [observe, handle, accountGet]
    rcases withAccount_said hw _ with ⟨hsaid, hbody⟩ | ⟨account, _, hsaid, hsome⟩
    · rw [hbody]
      exact .told hsaid.symm
    · rw [hsome]
      exact .told hsaid.symm
  | keysSearch =>
    simp only [observe, handle, keysSearch]
    rcases withAccount_said hw _ with ⟨hsaid, hbody⟩ | ⟨account, haccount, hsaid, hsome⟩
    · rw [hbody]
      exact .told hsaid.symm
    · obtain ⟨_, _, _, _, _, _, hget⟩ := tokenAccount_some haccount
      rw [hw.did hget] at hsaid
      rw [hsome]
      exact .told hsaid.symm
  | keysPublic keyReference =>
    simp only [observe, handle, keysPublic]
    cases haccount : Store.getByKeyId w.accounts keyReference with
    | none => exact .other
    | some account =>
      obtain ⟨a, _, hget⟩ := ofAddress_some haccount
      refine .resolved ?_
      rw [book_party, hw.address hget, hget, ← hw.did hget]
      rfl
  | tokenGet id =>
    simp only [observe, handle, tokenGet, getToken]
    have hholder := book_holder hw h id
    rw [ownerOf] at hholder
    cases hget : w.tokens.byId.get id with
    | none =>
      rw [hget] at hholder
      exact .owned hholder.symm
    | some token =>
      rw [hget] at hholder
      exact .owned hholder.symm
  | tokenSearch =>
    simp only [observe, handle, tokenSearch]
    rcases withAccount_said hw _ with ⟨hsaid, hbody⟩ | ⟨account, _, hsaid, hsome⟩
    · rw [hbody]
      exact .unlisted hsaid
    · rw [hsome]
      exact .listed hsaid (holdings_tokensForOwner hw h hindexed account.did)
  | tokenMint payload =>
    have hnone : (handle P E w ⟨context, .tokenMint payload⟩).2.mintedId = none :=
      mintedId_of_quiet hquiet
    simp only [observe, hnone]
    exact .other
  | tokenTransact payload =>
    simp only [observe]
    split
    · next id toAddress hid hto =>
      split
      · exact .other
      · next hoperation =>
        split
        · next hbody _ =>
          rw [Outcome.reports, hbody] at hquiet
          cases hquiet
        · refine .moveRefused ?_
          rintro ⟨did, toDid, hsaid, hholder, hparty⟩
          obtain ⟨account, haccount, rfl⟩ := account_of_said hw hsaid
          rw [book_holder hw h] at hholder
          obtain ⟨token, hget, howner⟩ := ownerOf_some hholder
          obtain ⟨recipient, hrecipient, _⟩ := Option.map_eq_some_iff.mp hparty
          rw [tokenTransact_succeeds haccount (by simpa using hoperation) hid hto
            (isFinternetAddress_ne (hw.allowed hrecipient)) hrecipient hget howner] at hquiet
          cases hquiet
    · exact .other
  | tokenTransactionsList payload =>
    simp only [observe, handle, tokenTransactionsList]
    split
    · next hchosen hbody =>
      rw [hchosen] at hbody
      split at hbody
      · cases hbody
      · cases hbody
        exact .traced rfl
    · exact .other
  | _ => exact .other

/-- **Every request is a step of the register.** -/
theorem handle_step (hw : Titled w) (h : Recorded P E w) (hindexed : Indexed w.tokens)
    {request : Request} (hb : P.Base58)
    (htokens : ∀ {t a}, w.accounts.byToken.get t = some a → Drawn E (lit "standin_") w.draws t)
    (hdrawn : ∀ {a x}, w.accounts.byAddress.get a = some x → ∃ n input, n < w.draws ∧
      x = Store.newAccount P E n input) {w' : World} {outcome : Outcome}
    (hchange : Change P E w request w' outcome) (houtcome : (handle P E w request).2 = outcome)
    (hfresh : E.FreshIds w'.draws) (hkeys : E.FreshKeys P w'.draws) (hw' : Titled w') :
    Step Allowed (book w hw) (observe request outcome) (book w' hw') := by
  cases hchange with
  | quiet _ hquiet =>
    rw [← houtcome] at hquiet ⊢
    exact quiet_step hw h hindexed request hquiet
  | issued => exact .other
  | revoked => exact .other
  | registered => exact .other
  | @created context payload haddress hfree =>
    have hn : (book w hw).party payload.address = none := by rw [book_party, hfree]; rfl
    have hp : ∀ a, (book w hw).party a ≠ some (Store.newAccount P E w.draws payload).did := by
      intro a ha
      obtain ⟨x, hx, hdid⟩ := Option.map_eq_some_iff.mp ha
      obtain ⟨n, input, hn, rfl⟩ := hdrawn hx
      exact newAccount_did_ne hb hkeys hn
        (Nat.lt_add_of_pos_right (by decide : 0 < 4 + 2)) input payload hdid
    have hs : (book w hw).session (Store.accessTokenAt E (w.draws + 3)) = none := by
      rw [book_session, hw.getByToken]
      cases htoken : w.accounts.byToken.get (Store.accessTokenAt E (w.draws + 3)) with
      | none => rfl
      | some a =>
        exact absurd rfl ((htokens htoken).ne hfresh (Nat.le_add_right w.draws 3)
          (show w.draws + 3 < w.draws + 4 + 2 by omega))
    rw [book_created hw hw' hn hp]
    exact Step.opened (n := payload.address) haddress hn hs hp
  | @minted context payload account tokens ledger token next haccount hmint =>
    obtain ⟨tc, claim, m, log, _, _, hm, rfl, _, rfl, rfl, _⟩ := mintToken_writes hmint
    obtain ⟨accessToken, haccess, hs⟩ := session_of_account hw haccount
    have hunborn :=
      (h.unborn hfresh (show w.draws ≤ m + 1 by omega) (Nat.lt_trans (by omega) (lt_mintDraws m))).1
    have hbook := book_passed hw hw' ((book w hw).speaker hs) rfl rfl
      (h.transactions (i := m + 4) hfresh rfl ⟨by omega, lt_mintDraws m⟩ rfl)
    rw [hbook]
    simp only [observe, haccess]
    exact .issued hs (congrArg receivers (receivers_unborn h hunborn))
  | @moved context payload account recipient id toAddress token haccount hoperation hid hto
      hrecipient hget howner =>
    obtain ⟨accessToken, haccess, hs⟩ := session_of_account hw haccount
    have hholder : (book w hw).holder id = some account.did := by
      rw [book_holder hw h, ownerOf, hget]
      exact howner
    have hn : (book w hw).party toAddress = some recipient.did := by
      rw [book_party, hrecipient]; rfl
    have htransactions :=
      h.transactions (i := w.draws + 2) hfresh rfl ⟨by omega, lt_moveDraws _⟩ rfl
    have hbook := book_passed hw hw' ⟨toAddress, hn⟩ rfl rfl (h.tokenId hget ▸ htransactions)
    rw [hbook]
    simp only [observe, hid, hto, hoperation, haccess]
    exact .moved hs hholder hn

/-- A step of a run is a step of the register. -/
theorem book_snoc (hb : P.Base58) (pre : List Request) (request : Request)
    (hids : E.FreshIds (after P E (pre ++ [request])).draws)
    (hkeys : E.FreshKeys P (after P E (pre ++ [request])).draws) (hw : Titled (after P E pre))
    (hw' : Titled (after P E (pre ++ [request]))) :
    Step Allowed (book (after P E pre) hw) (observe request (handle P E (after P E pre) request).2)
      (book (after P E (pre ++ [request])) hw') := by
  have hle := draws_le_append (P := P) (E := E) pre [request]
  have hsessions := sessions_after hb pre (hids.mono hle) (hkeys.mono hle)
  obtain ⟨outcome, hchange, hhistory⟩ := after_snoc_change (P := P) (E := E) pre request
  have houtcome := outcome_eq hhistory
  rw [houtcome]
  exact handle_step hw (recorded_after pre (hids.mono hle))
    (holds_after pre (hids.mono hle)).indexed hb hsessions.tokenDrawn hsessions.drawn hchange
    houtcome hids hkeys hw'

/-- The acts of a run, as they are observed. -/
def acts (P : Primitives) (E : Env) (requests : List Request) : List (Act Str Str Str Str) :=
  (history P E requests).map fun event => observe event.1 event.2

/-- A run of the service is a run of the register. -/
theorem books_after (hb : P.Base58) (requests : List Request)
    (hids : E.FreshIds (after P E requests).draws)
    (hkeys : E.FreshKeys P (after P E requests).draws) (hw : Titled (after P E requests)) :
    Runs Allowed Book.empty (acts P E requests) (book (after P E requests) hw) := by
  induction requests using List.reverseRecOn with
  | nil => exact .nil
  | append_singleton pre request ih =>
    have hle := draws_le_append (P := P) (E := E) pre [request]
    have hpre := titled_after hb pre (hids.mono hle) (hkeys.mono hle)
    have hstep := book_snoc hb pre request hids hkeys hpre hw
    have hacts : acts P E (pre ++ [request]) =
        acts P E pre ++ [observe request (handle P E (after P E pre) request).2] := by
      rw [acts, history, Machine.history_snoc, List.map_append]
      rfl
    rw [hacts]
    exact (ih (hids.mono hle) (hkeys.mono hle) hpre).snoc hstep

/-- **The service refines the register of title**: it starts as the empty book, and every request of
every run, with what was answered, is a step from the book of the stores before it to the book of
the stores after it. -/
theorem service_refines (hb : P.Base58) (requests : List Request)
    (hids : E.FreshIds (after P E requests).draws)
    (hkeys : E.FreshKeys P (after P E requests).draws) :
    (∃ hw, book (after P E []) hw = Book.empty) ∧
      ∀ pre request post, requests = pre ++ request :: post → ∃ hw hw',
        Step Allowed (book (after P E pre) hw) (observe request
          (handle P E (after P E pre) request).2) (book (after P E (pre ++ [request])) hw') := by
  refine ⟨⟨titled_after hb [] (hids.mono (draws_le_append [] requests))
    (hkeys.mono (draws_le_append [] requests)), rfl⟩, ?_⟩
  intro pre request post hrequests
  have hsplit : requests = (pre ++ [request]) ++ post := by simp [hrequests]
  have hle' : (after P E (pre ++ [request])).draws ≤ (after P E requests).draws :=
    hsplit ▸ draws_le_append (pre ++ [request]) post
  have hle := Nat.le_trans (draws_le_append (P := P) (E := E) pre [request]) hle'
  have hw := titled_after hb pre (hids.mono hle) (hkeys.mono hle)
  have hw' := titled_after hb (pre ++ [request]) (hids.mono hle') (hkeys.mono hle')
  exact ⟨hw, hw', book_snoc hb pre request (hids.mono hle') (hkeys.mono hle') hw hw'⟩

/-- The deed passes from nobody to Alice and from Alice to Bob. -/
theorem service_refines_deed :
    ∃ hw hw', Step Allowed (book (after Reference.primitives Reference.env
      (deedBefore Reference.primitives Reference.env none ++ [mintRequest Reference.env])) hw)
      (.moved (Store.accessTokenAt Reference.env 5) (newDeed Reference.primitives
        Reference.env none).id (lit "bob")) (book (after Reference.primitives Reference.env
          (deedBefore Reference.primitives Reference.env none ++ [mintRequest Reference.env] ++
            [moveRequest Reference.primitives Reference.env none])) hw') := by
  have hmove := congrArg Prod.snd (handle_moveDeed reliable_reference none)
  have hdraws : (after Reference.primitives Reference.env
      (deedBefore Reference.primitives Reference.env none ++ [mintRequest Reference.env,
        moveRequest Reference.primitives Reference.env none])).draws ≤ 256 := by
    rw [after_move reliable_reference]
    decide
  obtain ⟨hw, hw', hstep⟩ :=
    (service_refines Reference.base58 _ (Reference.freshIds _) (Reference.freshKeys hdraws)).2
      (deedBefore Reference.primitives Reference.env none ++ [mintRequest Reference.env])
      (moveRequest Reference.primitives Reference.env none) [] (by rw [List.append_assoc]; rfl)
  rw [hmove] at hstep
  exact ⟨hw, hw', hstep⟩

end Wayfinder.Service.Handlers
