import Wayfinder.Service.Handlers.Registry
import Wayfinder.Service.Handlers.Sessions
import Wayfinder.Service.Tokens.Supply

/-! The amount of a transfer.

A transfer may name an amount, and no part of the service looks at it: the token goes to the
recipient with its whole supply, and the record says `1`. So what was asked for is what is
moved and recorded when the request asks for `1` of a token of which there is no more
(`amount_moved_iff`). -/
namespace Wayfinder.Service.Handlers

open Js Envelope TokenClasses Tokens
open Ledger (TokenTransaction tokenTransactions)

variable (P : Primitives) (E : Env)

/-- What a transfer that goes through finds in the world before it. -/
structure Transfer (w : World) (context : Option Json) (payload : TransactRequest) where
  account : Store.Account
  recipient : Store.Account
  id : Str
  toAddress : Str
  token : TokenInstance
  haccount : tokenAccount w.accounts context = .ok (some account)
  hoperation : payload.operation = lit "transfer"
  hid : payload.tokenId = some id
  hto : payload.toAddress = some toAddress
  hne : toAddress ≠ []
  hrecipient : w.accounts.byAddress.get toAddress = some recipient
  hget : w.tokens.byId.get id = some token
  howner : token.ownerDid = some account.did

/-- An amount goes from one holding to another, and is recorded. -/
structure Moves {M : Type} [AddCommGroup M] (value : Str → M) (w w' : World) (token : TokenInstance)
    (fromDid toDid amount : Str) : Prop where
  received : holding value w'.tokens token.metadata.tokenClass toDid =
    holding value w.tokens token.metadata.tokenClass toDid + value amount
  spent : holding value w'.tokens token.metadata.tokenClass fromDid =
    holding value w.tokens token.metadata.tokenClass fromDid - value amount
  total : totalHeld value w'.tokens token.metadata.tokenClass =
    totalHeld value w.tokens token.metadata.tokenClass
  recorded : ∃ tx,
    tokenTransactions w'.ledger token.id = tokenTransactions w.ledger token.id ++ [tx] ∧
    tx.amount.map Ledger.Amount.amount = some amount

/-- A request for an amount is refused and changes nothing, or the amount is moved. -/
def AmountMoved {M : Type} [AddCommGroup M] (value : Str → M) (w : World) (context : Option Json)
    (payload : TransactRequest) (amount : Str) : Prop :=
  let answer := handle P E w ⟨context, .tokenTransact { payload with amount := some amount }⟩
  (answer.2.body = none ∧ answer.1.toStores = w.toStores) ∨
    ∃ t : Transfer w context { payload with amount := some amount },
      Moves value w answer.1 t.token t.account.did t.recipient.did amount

variable {P E} {w : World} {context : Option Json} {payload : TransactRequest}

/-! ### Transfers that go through -/

/-- There is one way for a transfer to go through. -/
instance : Subsingleton (Transfer w context payload) where
  allEq s t := by
    obtain ⟨_, _, _, _, _, haccount, _, hid, hto, _, hrecipient, hget, _⟩ := s
    obtain ⟨_, _, _, _, _, haccount', _, hid', hto', _, hrecipient', hget', _⟩ := t
    cases Option.some.inj (Except.ok.inj (haccount.symm.trans haccount'))
    cases Option.some.inj (hid.symm.trans hid')
    cases Option.some.inj (hto.symm.trans hto')
    cases Option.some.inj (hrecipient.symm.trans hrecipient')
    cases Option.some.inj (hget.symm.trans hget')
    rfl

/-- A transfer that cannot go through is refused. -/
theorem tokenTransact_refused (h : IsEmpty (Transfer w context payload)) :
    (handle P E w ⟨context, .tokenTransact payload⟩).2.body = none ∧
      (handle P E w ⟨context, .tokenTransact payload⟩).1.toStores = w.toStores := by
  simp only [handle, tokenTransact, withAccount]
  split
  · exact ⟨rfl, rfl⟩
  · exact ⟨rfl, rfl⟩
  · next account haccount =>
    split
    · exact ⟨rfl, rfl⟩
    · next hoperation =>
      split
      · exact ⟨rfl, rfl⟩
      · next hne =>
        split
        · exact ⟨rfl, rfl⟩
        · next recipient hrecipient =>
          unfold transferTo
          split
          · exact ⟨rfl, rfl⟩
          · next htransfer =>
            obtain ⟨id, token, hid, hget, howner, _⟩ := transferToken_ok htransfer
            cases hto : payload.toAddress with
            | none => exact absurd (by rw [hto]; rfl) hne
            | some toAddress =>
              rw [hto] at hne hrecipient
              exact h.elim ⟨account, recipient, id, toAddress, token, haccount,
                by simpa using hoperation, hid, hto, hne, hrecipient, hget, howner⟩

/-- A transfer that goes through is answered. -/
theorem Transfer.body (t : Transfer w context payload) :
    (handle P E w ⟨context, .tokenTransact payload⟩).2.body ≠ none := by
  rw [tokenTransact_succeeds t.haccount t.hoperation t.hid t.hto t.hne t.hrecipient t.hget t.howner]
  exact fun hnone => nomatch hnone

/-- A transfer of an amount does what was asked when that is `1`, as the record says, and
the token's whole supply; or nothing, from an owner to the same owner. -/
theorem Transfer.moves_iff {M : Type} [AddCommGroup M] {value : Str → M}
    (t : Transfer w context payload) (hrecorded : Recorded P E w)
    (hfresh : E.FreshIds (handle P E w ⟨context, .tokenTransact payload⟩).1.draws) {amount : Str} :
    Moves value w (handle P E w ⟨context, .tokenTransact payload⟩).1
      t.token t.account.did t.recipient.did amount ↔ amount = lit "1" ∧
      value amount = if t.account.did = t.recipient.did then 0
      else value t.token.state.supply.circulatingSupply := by
  have hhandle := tokenTransact_succeeds (P := P)
    (E := E) t.haccount t.hoperation t.hid t.hto t.hne t.hrecipient t.hget t.howner
  have htransactions :=
    (hrecorded.transactions (i := w.draws + 2) hfresh (by rw [hhandle]; rfl) ⟨by omega,
      by rw [hhandle]; exact lt_moveDraws _⟩ rfl t.token.id).trans (congrArg _ (if_pos (by rfl)))
  have hholding :=
    holding_moveToken (P := P) (E := E) value t.hget t.howner w.draws w.ledger t.recipient.did
  have htotal := totalHeld_moveToken (P := P)
    (E := E) value t.hget t.howner w.draws w.ledger t.recipient.did t.token.metadata.tokenClass
  rw [hhandle] at htransactions ⊢
  refine ⟨fun h => ?_, fun h => ?_⟩
  · obtain ⟨tx, htx, hamount⟩ := h.recorded
    have hlast := List.append_cancel_left (htransactions.symm.trans htx)
    cases hlast
    have hreceived := (hholding t.recipient.did).symm.trans h.received
    rw [if_pos rfl] at hreceived
    refine ⟨(Option.some.inj hamount).symm, ?_⟩
    split
    · next he => simpa [he] using hreceived
    · next hne => simpa [hne] using hreceived.symm
  · obtain ⟨hamount, hvalue⟩ := h
    refine ⟨(hholding _).trans ?_, (hholding _).trans ?_, htotal, _, htransactions,
      congrArg some hamount.symm⟩
    · rw [if_pos rfl, hvalue]
      split
      · rw [sub_add_cancel, add_zero]
      · rw [sub_zero]
    · rw [if_pos rfl, hvalue]
      split
      · next he => rw [if_pos he.symm, sub_add_cancel, sub_zero]
      · next hne => rw [if_neg fun he => hne he.symm, add_zero]

/-- **The amount asked for is moved and recorded exactly where it is `1`, of a token with a supply
of as much.** Or where the request is refused: then there is no transfer. -/
theorem amount_moved_iff {M : Type} [AddCommGroup M] (value : Str → M) (requests : List Request)
    (context : Option Json) (payload : TransactRequest) (amount : Str)
    (hfresh : E.FreshIds (after P E
      (requests ++ [⟨context, .tokenTransact { payload with amount := some amount }⟩])).draws) :
    AmountMoved P E value (after P E requests) context payload amount ↔
      ∀ t : Transfer (after P E requests) context { payload with amount := some amount },
        amount = lit "1" ∧ value amount = if t.account.did = t.recipient.did then 0
      else value t.token.state.supply.circulatingSupply := by
  have hrecorded := recorded_after requests (hfresh.mono (draws_le_append requests _))
  rw [after, Machine.after_snoc] at hfresh
  refine ⟨fun h t => ?_, fun h => ?_⟩
  · obtain ⟨hnone, _⟩ | ⟨t', hmoves⟩ := h
    · exact absurd hnone t.body
    · cases Subsingleton.elim t t'
      exact (t.moves_iff hrecorded hfresh).mp hmoves
  · by_cases ht :
      IsEmpty (Transfer (after P E requests) context { payload with amount := some amount })
    · exact .inl (tokenTransact_refused ht)
    · obtain ⟨t⟩ := not_isEmpty_iff.mp ht
      exact .inr ⟨t, (t.moves_iff hrecorded hfresh).mpr (h t)⟩

/-! ### Coins

Alice mints coins of a class that was registered with no more than its name, and is
fungible by default. -/

section
variable (P E) (supply : Str)

def coinClass : RegisterTokenClassInput :=
  { tokenClass := lit "COIN", tokenStandard := lit "UNITS-FT", name := lit "Coin"
    schema := some [(lit "type", .str (lit "object"))] }

def coinWorld : World :=
  { (service P E).initial with
    accounts := deedAccounts P E
    tokenclasses := (seed P E).set (lit "COIN") (newTokenClass P E 14 coinClass)
    draws := 17 }

def coinPayload : MintTokenRequest :=
  { tokenClass := lit "COIN", initialSupply := supply, name := some (.str (lit "Coin")) }

def coinBefore : List Request :=
  [⟨none, .accountCreate alice⟩, ⟨none, .accountCreate bob⟩, ⟨none, .tokenClassRegister coinClass⟩,
    ⟨bearer (Store.accessTokenAt E 5), .tokenMint (coinPayload supply)⟩]

def coinId : Str := lit "urn:uuid:token-" ++ E.uuid 18

/-- Some of Alice's coins for Bob. -/
def coinTransfer : TransactRequest :=
  { operation := lit "transfer", tokenId := some (coinId E), toAddress := some (lit "bob") }

variable {P E}

theorem after_coinClass : after P E [⟨none, .accountCreate alice⟩, ⟨none, .accountCreate bob⟩,
    ⟨none, .tokenClassRegister coinClass⟩] = coinWorld P E := by
  show (handle P E (after P E [⟨none, .accountCreate alice⟩, ⟨none, .accountCreate bob⟩])
    ⟨none, .tokenClassRegister coinClass⟩).1 = _
  rw [after_accounts]
  rfl

/-- The coins are minted, and they are Alice's. -/
theorem coin_minted (h : Reliable P E) (husable : Usable P E (newTokenClass P E 14 coinClass)) :
    ∃ tokens ledger token next,
      after P E (coinBefore E supply) = { coinWorld P E with tokens, ledger, draws := next } ∧
      tokens.byId.get (coinId E) = some token ∧ token.ownerDid = some (aliceAccount P E).did ∧
      token.metadata.fungibility = lit "fungible" ∧
      token.state.supply.circulatingSupply = supply := by
  have hgate : complianceHook P E 17 (coinWorld P E).credentials (newTokenClass P E 14 coinClass)
      (aliceAccount P E).did = .ok (.passed none 17) := rfl
  obtain ⟨tokens, ledger, token, next, hmint⟩ := husable.minted 17 17 (coinWorld P E).credentials
    (coinWorld P E).tokenclasses .empty .empty (aliceAccount P E).did (lit "Coin") supply none none
    (JsMap.get_set_self _ _ _) (h.format _ _) (by decide) hgate
  have hhandle : handle P E (coinWorld P E) ⟨_, .tokenMint (coinPayload supply)⟩ = _ :=
    tokenMint_succeeds (alice_tokenAccount h) hmint
  obtain ⟨tc, claim, m, _, htc, hpassed, _, htoken, hbyId, _⟩ := mintToken_writes hmint
  cases Option.some.inj (htc.symm.trans (JsMap.get_set_self _ _ _))
  rw [hgate] at hpassed
  cases hpassed
  refine ⟨tokens, ledger, token, next + 1 + responseDraws, ?_, ?_, ?_, ?_, ?_⟩
  · show (handle P E (after P E [⟨none, .accountCreate alice⟩, ⟨none, .accountCreate bob⟩,
      ⟨none, .tokenClassRegister coinClass⟩]) _).1 = _
    rw [after_coinClass]
    exact congrArg Prod.fst hhandle
  · rw [hbyId]
    exact JsMap.get_set_self _ _ _
  · rw [htoken]
    rfl
  · rw [htoken]
    rfl
  · rw [htoken]
    rfl

/-- They can be transferred, with any amount. -/
theorem coin_transfer (h : Reliable P E) (husable : Usable P E (newTokenClass P E 14 coinClass))
    (amount : Str) :
    ∃ t : Transfer (after P E (coinBefore E supply)) (bearer (Store.accessTokenAt E 5))
      { coinTransfer E with amount := some amount }, t.account = aliceAccount P E ∧
        t.recipient = bobAccount P E ∧ t.token.metadata.fungibility = lit "fungible" ∧
        t.token.state.supply.circulatingSupply = supply := by
  obtain ⟨tokens, ledger, token, next, hafter, hget, howner, hfungible, hsupply⟩ :=
    coin_minted supply h husable
  have haccounts : (after P E (coinBefore E supply)).accounts = deedAccounts P E := by
    rw [hafter]; rfl
  exact ⟨⟨aliceAccount P E, bobAccount P E, coinId E, lit "bob", token,
    by rw [haccounts]; exact alice_tokenAccount h, rfl, rfl, rfl, by decide,
    by rw [haccounts]; exact bobAccount_deedAccounts, by rw [hafter]; exact hget, howner⟩, rfl,
    rfl, hfungible, hsupply⟩

end

/-- A whole number, read from its digits. -/
def wholeNumber (text : Str) : ℤ := (text.foldl (fun acc u => 10 * acc + (u.toNat - 48)) 0 : Nat)

theorem coin_usable : Usable Reference.primitives Reference.env
    (newTokenClass Reference.primitives Reference.env 14 coinClass) :=
  newTokenClass_usable Reference.formats Reference.base58 Reference.uuidText 14 ⟨rfl,
    List.nodup_nil⟩ rfl

/-- **Thirty of a hundred coins.** They are not what is moved. -/
theorem thirty_misses : ¬ AmountMoved Reference.primitives Reference.env wholeNumber
    (after Reference.primitives Reference.env (coinBefore Reference.env (lit "100")))
    (bearer (Store.accessTokenAt Reference.env 5)) (coinTransfer Reference.env) (lit "30") := by
  intro hmoved
  obtain ⟨t, _⟩ := coin_transfer (lit "100") reliable_reference coin_usable (lit "30")
  obtain ⟨hnone, _⟩ | ⟨t', hmoves⟩ := hmoved
  · exact t.body hnone
  · have hone :=
      ((t'.moves_iff (recorded_after _ (Reference.freshIds _)) (Reference.freshIds _)).mp hmoves).1
    exact absurd hone (by decide)

/-- One coin of one. -/
theorem amount_moved_iff_coin : AmountMoved Reference.primitives Reference.env wholeNumber
    (after Reference.primitives Reference.env (coinBefore Reference.env (lit "1")))
    (bearer (Store.accessTokenAt Reference.env 5)) (coinTransfer Reference.env) (lit "1") := by
  refine (amount_moved_iff wholeNumber _ _ _ _ (Reference.freshIds _)).mpr fun t => ⟨rfl, ?_⟩
  obtain ⟨t', haccount, hrecipient, _, hsupply⟩ :=
    coin_transfer (lit "1") reliable_reference coin_usable (lit "1")
  cases Subsingleton.elim t t'
  have hne : t.account.did ≠ t.recipient.did := by
    rw [haccount, hrecipient]
    exact newAccount_did_ne Reference.base58 (Reference.freshKeys (n := 9) (by decide)) (by decide)
      (by decide) alice bob
  rw [if_neg hne, hsupply]

end Wayfinder.Service.Handlers
