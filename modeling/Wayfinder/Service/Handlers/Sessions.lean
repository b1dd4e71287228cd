import Wayfinder.Service.Handlers.Runs

/-! Accounts and their sessions.

An account is made by one request, which answers with its access token; nothing writes to
an account or to an index again. So an access token speaks for the account that it was
granted with (`Sessions`), no two accounts have one DID, and what an index holds it holds
for the rest of the run (`keepsAccounts_after`). -/
namespace Wayfinder.Service.Handlers

open Js Envelope

section
variable (P : Primitives) (E : Env)

/-- An access token that the request which created an account was answered with. -/
def Granted (requests : List Request) (accessToken : Str) (account : Store.Account) : Prop :=
  ∃ pre context payload post success, requests = pre ++ ⟨context, .accountCreate payload⟩ :: post ∧
    (handle P E (after P E pre) ⟨context, .accountCreate payload⟩).2.body =
      some (.registration success) ∧ success.accessToken = accessToken ∧
    (after P E pre).accounts.byAddress.get account.address = none ∧
    (after P E (pre ++ [⟨context, .accountCreate payload⟩])).accounts.byAddress.get
      account.address = some account

/-- Every account and every index entry is of a request that created an account. -/
structure Sessions (requests : List Request) : Prop where
  address : ∀ {a x}, (after P E requests).accounts.byAddress.get a = some x → x.address = a
  drawn : ∀ {a x}, (after P E requests).accounts.byAddress.get a = some x →
    ∃ n input, n < (after P E requests).draws ∧ x = Store.newAccount P E n input
  distinct : ∀ {a b x y}, (after P E requests).accounts.byAddress.get a = some x →
    (after P E requests).accounts.byAddress.get b = some y → x.did = y.did → a = b
  tokenDrawn : ∀ {t a}, (after P E requests).accounts.byToken.get t = some a →
    Drawn E (lit "standin_") (after P E requests).draws t
  keyDrawn : ∀ {k a}, (after P E requests).accounts.byKeyId.get k = some a →
    Drawn E [] (after P E requests).draws k
  granted : ∀ {t a}, (after P E requests).accounts.byToken.get t = some a →
    ∃ x, (after P E requests).accounts.byAddress.get a = some x ∧ Granted P E requests t x

end

/-- What the indexes hold, they go on holding. -/
structure KeepsAccounts (s s' : Store.State) : Prop where
  byAddress : ∀ {a x}, s.byAddress.get a = some x → s'.byAddress.get a = some x
  byToken : ∀ {t a}, s.byToken.get t = some a → s'.byToken.get t = some a
  byKeyId : ∀ {k a}, s.byKeyId.get k = some a → s'.byKeyId.get k = some a

theorem KeepsAccounts.refl (s : Store.State) : KeepsAccounts s s := ⟨id, id, id⟩

theorem KeepsAccounts.trans {a b c : Store.State} (h : KeepsAccounts a b) (h' : KeepsAccounts b c) :
    KeepsAccounts a c :=
  ⟨fun hx => h'.byAddress (h.byAddress hx), fun hx => h'.byToken (h.byToken hx),
    fun hx => h'.byKeyId (h.byKeyId hx)⟩

variable {P : Primitives} {E : Env}

/-- Accounts of two draws have two DIDs. -/
theorem newAccount_did_ne (hb : P.Base58) {m n : Nat} (hkeys : E.FreshKeys P n) {i : Nat}
    (hi : i < m) (hm : m < n) (x y : Store.RegistrationRequest) :
    (Store.newAccount P E i x).did ≠ (Store.newAccount P E m y).did := by
  intro hdid
  have := hkeys i m (Nat.lt_trans hi hm) hm (Crypto.didKey_injective hb hdid)
  omega

theorem Granted.snoc {requests : List Request} {accessToken : Str} {account : Store.Account}
    (h : Granted P E requests accessToken account) (request : Request) :
    Granted P E (requests ++ [request]) accessToken account := by
  obtain ⟨pre, context, payload, post, success, rfl, h⟩ := h
  exact ⟨pre, context, payload, post ++ [request], success, by simp, h⟩

/-! ### Creating an account -/

theorem keepsAccounts_create {w : World} {n : Nat} {payload : Store.RegistrationRequest}
    (hids : E.FreshIds n) (hn : w.draws + 3 < n)
    (hfree : w.accounts.byAddress.get payload.address = none)
    (htoken : ∀ {t a}, w.accounts.byToken.get t = some a → Drawn E (lit "standin_") w.draws t)
    (hkey : ∀ {k a}, w.accounts.byKeyId.get k = some a → Drawn E [] w.draws k) :
    KeepsAccounts w.accounts (Store.createAccount P E w.draws w.accounts payload).1 where
  byAddress := fun hx => JsMap.get_set_new _ hfree hx
  byToken := fun hx =>
    (JsMap.get_set_ne _ _ ((htoken hx).ne hids (show w.draws ≤ w.draws + 3 by omega) hn).symm).trans
      hx
  byKeyId := fun hx =>
    (JsMap.get_set_ne _ _ ((hkey hx).ne hids (show w.draws ≤ w.draws + 1 by omega)
      (by omega)).symm).trans hx

/-- What writes no account leaves every session as it was. -/
theorem Sessions.quiet {requests : List Request} {request : Request} (h : Sessions P E requests)
    (haccounts : (after P E (requests ++ [request])).accounts = (after P E requests).accounts) :
    Sessions P E (requests ++ [request]) := by
  have hle := draws_le_append (P := P) (E := E) requests [request]
  constructor
  · rw [haccounts]
    exact h.address
  · intro a x hx
    rw [haccounts] at hx
    obtain ⟨n, input, hn, hx⟩ := h.drawn hx
    exact ⟨n, input, Nat.lt_of_lt_of_le hn hle, hx⟩
  · rw [haccounts]
    exact h.distinct
  · intro t a ht
    rw [haccounts] at ht
    exact (h.tokenDrawn ht).mono hle
  · intro k a hk
    rw [haccounts] at hk
    exact (h.keyDrawn hk).mono hle
  · intro t a ht
    rw [haccounts] at ht
    obtain ⟨x, hx, hgranted⟩ := h.granted ht
    exact ⟨x, haccounts ▸ hx, hgranted.snoc request⟩

/-- An account that is created gets a DID of its own, and its access token is the one that
is answered. -/
theorem Sessions.create (hb : P.Base58) {requests : List Request} {context : Option Json}
    {payload : Store.RegistrationRequest} {success : RegistrationSuccess}
    (h : Sessions P E requests)
    (hids : E.FreshIds (after P E (requests ++ [⟨context, .accountCreate payload⟩])).draws)
    (hkeys : E.FreshKeys P (after P E (requests ++ [⟨context, .accountCreate payload⟩])).draws)
    (hdraws : (after P E requests).draws + 3 <
      (after P E (requests ++ [⟨context, .accountCreate payload⟩])).draws)
    (hfree : (after P E requests).accounts.byAddress.get payload.address = none)
    (haccounts : (after P E (requests ++ [⟨context, .accountCreate payload⟩])).accounts =
      (Store.createAccount P E (after P E requests).draws (after P E requests).accounts payload).1)
    (hbody : (handle P E (after P E requests) ⟨context, .accountCreate payload⟩).2.body =
      some (.registration success))
    (hsuccess : success.accessToken = Store.accessTokenAt E ((after P E requests).draws + 3)) :
    Sessions P E (requests ++ [⟨context, .accountCreate payload⟩]) := by
  have hle : (after P E requests).draws ≤
      (after P E (requests ++ [⟨context, .accountCreate payload⟩])).draws := by
    omega
  have hkeeps := keepsAccounts_create (P := P) hids hdraws hfree h.tokenDrawn h.keyDrawn
  rw [← haccounts] at hkeeps
  have hbyAddress : ∀ a,
    (after P E (requests ++ [⟨context, .accountCreate payload⟩])).accounts.byAddress.get a =
      if payload.address = a then some (Store.newAccount P E (after P E requests).draws payload)
      else (after P E requests).accounts.byAddress.get a := by
    intro a
    rw [haccounts]
    exact JsMap.get_set _ _ _ _
  have hbyToken : ∀ t,
    (after P E (requests ++ [⟨context, .accountCreate payload⟩])).accounts.byToken.get t =
      if Store.accessTokenAt E ((after P E requests).draws + 3) = t then some payload.address
      else (after P E requests).accounts.byToken.get t := by
    intro t
    rw [haccounts]
    exact JsMap.get_set _ _ _ _
  have hself := hbyAddress payload.address
  rw [if_pos rfl] at hself
  have hnew : ∀ {b y}, (after P E requests).accounts.byAddress.get b = some y →
      y.did ≠ (Store.newAccount P E (after P E requests).draws payload).did := by
    intro b y hy
    obtain ⟨m, input, hm, rfl⟩ := h.drawn hy
    exact newAccount_did_ne hb hkeys hm (by omega) input payload
  constructor
  · intro a x hx
    rw [hbyAddress] at hx
    split at hx
    · next ha =>
      cases hx
      exact ha
    · exact h.address hx
  · intro a x hx
    rw [hbyAddress] at hx
    split at hx
    · cases hx
      exact ⟨_, payload, by omega, rfl⟩
    · obtain ⟨n, input, hn, hx⟩ := h.drawn hx
      exact ⟨n, input, Nat.lt_of_lt_of_le hn hle, hx⟩
  · intro a b x y hx hy hdid
    rw [hbyAddress] at hx hy
    split at hx
    · next ha =>
      split at hy
      · next hb => exact ha.symm.trans hb
      · cases hx
        exact absurd hdid.symm (hnew hy)
    · split at hy
      · cases hy
        exact absurd hdid (hnew hx)
      · exact h.distinct hx hy hdid
  · intro t a ht
    rw [hbyToken] at ht
    split at ht
    · next he => exact ⟨_, hdraws, he.symm⟩
    · exact (h.tokenDrawn ht).mono hle
  · intro k a hk
    rw [haccounts] at hk
    have hk : ((after P E requests).accounts.byKeyId.set (E.uuid ((after P E requests).draws + 1))
      payload.address).get k = some a := hk
    rw [JsMap.get_set] at hk
    split at hk
    · next he => exact ⟨_, by omega, he.symm⟩
    · exact (h.keyDrawn hk).mono hle
  · intro t a ht
    rw [hbyToken] at ht
    split at ht
    · next he =>
      cases ht
      exact ⟨_, hself, requests, context, payload, [], success, rfl, hbody, hsuccess.trans he,
        hfree, hself⟩
    · obtain ⟨x, hx, hgranted⟩ := h.granted ht
      exact ⟨x, hkeeps.byAddress hx, hgranted.snoc _⟩

/-! ### Runs -/

theorem sessions_initial : Sessions P E [] where
  address := fun h => nomatch h
  drawn := fun h => nomatch h
  distinct := fun h => nomatch h
  tokenDrawn := fun h => nomatch h
  keyDrawn := fun h => nomatch h
  granted := fun h => nomatch h

/-- Every account and every index entry is of a request that created an account. -/
theorem sessions_after (hb : P.Base58) (requests : List Request)
    (hids : E.FreshIds (after P E requests).draws)
    (hkeys : E.FreshKeys P (after P E requests).draws) : Sessions P E requests := by
  refine run_induction (F := fun n => E.FreshIds n ∧ E.FreshKeys P n)
    (fun hmn h => ⟨h.1.mono hmn, h.2.mono hmn⟩) sessions_initial ?_ requests ⟨hids, hkeys⟩
  intro requests request outcome hchange hhistory hfresh h
  have houtcome := outcome_eq hhistory
  generalize hw : after P E (requests ++ [request]) = w' at hchange
  cases hchange with
  | quiet => exact h.quiet (by rw [hw])
  | issued => exact h.quiet (by rw [hw])
  | revoked => exact h.quiet (by rw [hw])
  | registered => exact h.quiet (by rw [hw])
  | minted => exact h.quiet (by rw [hw])
  | moved => exact h.quiet (by rw [hw])
  | created haddress hfree =>
    refine h.create hb hfresh.1 hfresh.2 ?_ hfree (by rw [hw]) (by rw [houtcome]; rfl) rfl
    rw [hw]
    show _ < (after P E requests).draws + 4 + 2
    omega

/-- An index never loses or rebinds what it holds. -/
theorem keepsAccounts_after (hb : P.Base58) (pre post : List Request)
    (hids : E.FreshIds (after P E (pre ++ post)).draws)
    (hkeys : E.FreshKeys P (after P E (pre ++ post)).draws) :
    KeepsAccounts (after P E pre).accounts (after P E (pre ++ post)).accounts := by
  induction post using List.reverseRecOn with
  | nil =>
    rw [List.append_nil]
    exact .refl _
  | append_singleton post request ih =>
    rw [← List.append_assoc] at hids hkeys ⊢
    have hle := draws_le_append (P := P) (E := E) (pre ++ post) [request]
    have hsessions := sessions_after hb (pre ++ post) (hids.mono hle) (hkeys.mono hle)
    refine (ih (hids.mono hle) (hkeys.mono hle)).trans ?_
    obtain ⟨outcome, hchange, _⟩ := after_snoc_change (P := P) (E := E) (pre ++ post) request
    generalize after P E (pre ++ post ++ [request]) = w' at hchange hids
    cases hchange with
    | created _ hfree =>
      refine keepsAccounts_create hids ?_ hfree hsessions.tokenDrawn hsessions.keyDrawn
      show _ < (after P E (pre ++ post)).draws + 4 + 2
      omega
    | _ => exact .refl _

/-! ### Who a request speaks for -/

/-- The account of a request stands behind the access token in its context. -/
theorem tokenAccount_some {s : Store.State} {context : Option Json} {account : Store.Account}
    (h : tokenAccount s context = .ok (some account)) :
    ∃ raw accessToken address, readProp? context (lit "authorization") = some (.str raw) ∧
      (raw = accessToken ∨ raw = lit "Bearer " ++ accessToken) ∧
      s.byToken.get accessToken = some address ∧ s.byAddress.get address = some account := by
  obtain ⟨token, htoken, h⟩ := bind_ok.mp h
  cases token with
  | none => cases h
  | some accessToken =>
    obtain ⟨raw, hraw, hbearer⟩ := bearerToken_some htoken
    have h : (if accessToken = [] then none else Store.getByToken s accessToken) = some account :=
      Except.ok.inj h
    split at h
    · cases h
    · unfold Store.getByToken Store.ofAddress at h
      split at h
      · cases h
      · next address haddress =>
        split at h
        · cases h
        · exact ⟨raw, accessToken, address, hraw, hbearer, haddress, h⟩

end Wayfinder.Service.Handlers
