import Wayfinder.App.Embedded
import Wayfinder.Service.Handlers.Sessions
import Wayfinder.Service.Handlers.Succeeds

/-! Signing with a custodial key.

The service signs a hash for whoever names the key, and the browser verifies the signature
with the key that is listed for the account, or that is read off the account's DID
(`signed_for_account`). What an account is found by is written when it is created and
not rebound, so this holds of every account in the rest of the run. -/
namespace Wayfinder.Service.Handlers

open Js Envelope
open App.Crypto (multibaseFromDid)

variable {P : Primitives} {E : Env}

/-! ### Accounts that were granted -/

/-- An account with its access token, under every index. -/
structure Filed (s : Store.State) (accessToken : Str) (account : Store.Account) : Prop where
  address : account.address ≠ []
  token : accessToken ≠ []
  plain : startsWith accessToken (lit "Bearer ") = false
  byAddress : s.byAddress.get account.address = some account
  byToken : s.byToken.get accessToken = some account.address
  byKeyId : s.byKeyId.get account.keyId = some account.address

theorem Filed.kept {s s' : Store.State} {accessToken : Str} {account : Store.Account}
    (h : Filed s accessToken account) (hkeeps : KeepsAccounts s s') :
    Filed s' accessToken account :=
  ⟨h.address, h.token, h.plain, hkeeps.byAddress h.byAddress, hkeeps.byToken h.byToken,
    hkeeps.byKeyId h.byKeyId⟩

/-- The request that is answered with an access token makes the account that was not there. -/
theorem created_account {pre : List Request} {context : Option Json}
    {payload : Store.RegistrationRequest} {success : RegistrationSuccess} {account : Store.Account}
    (hbody : (handle P E (after P E pre) ⟨context, .accountCreate payload⟩).2.body =
      some (.registration success))
    (hfree : (after P E pre).accounts.byAddress.get account.address = none)
    (haccount : (after P E (pre ++ [⟨context, .accountCreate payload⟩])).accounts.byAddress.get
      account.address = some account) :
    account = Store.newAccount P E (after P E pre).draws payload ∧
      Filed (after P E (pre ++ [⟨context, .accountCreate payload⟩])).accounts success.accessToken
        account := by
  obtain ⟨outcome, hchange, hhistory⟩ :=
    after_snoc_change (P := P) (E := E) pre ⟨context, .accountCreate payload⟩
  rw [outcome_eq hhistory] at hbody
  generalize after P E (pre ++ [⟨context, .accountCreate payload⟩]) = w' at hchange haccount ⊢
  cases hchange with
  | quiet _ hquiet =>
    rw [Outcome.reports, hbody] at hquiet
    cases hquiet
  | created haddress =>
    cases hbody
    have haccount : ((after P E pre).accounts.byAddress.set payload.address (Store.newAccount P E
      (after P E pre).draws payload)).get account.address = some account := haccount
    rw [JsMap.get_set] at haccount
    split at haccount
    · cases haccount
      refine ⟨rfl, ?_, List.append_ne_nil_of_left_ne_nil (by decide) _, rfl,
        JsMap.get_set_self _ _ _, JsMap.get_set_self _ _ _, JsMap.get_set_self _ _ _⟩
      intro hnil
      have hnil : payload.address = [] := hnil
      rw [hnil] at haddress
      cases haddress
    · rw [hfree] at haccount
      cases haccount

/-- An account that was created is drawn, and stays under every index. -/
theorem Granted.filed (hb : P.Base58) {requests : List Request}
    (hids : E.FreshIds (after P E requests).draws)
    (hkeys : E.FreshKeys P (after P E requests).draws) {accessToken : Str} {account : Store.Account}
    (h : Granted P E requests accessToken account) :
    ∃ n input, account = Store.newAccount P E n input ∧
      Filed (after P E requests).accounts accessToken account := by
  obtain ⟨pre, context, payload, post, success, rfl, hbody, rfl, hfree, haccount⟩ := h
  rw [List.append_cons] at hids hkeys ⊢
  obtain ⟨hnew, hfiled⟩ := created_account hbody hfree haccount
  exact ⟨_, payload, hnew, hfiled.kept (keepsAccounts_after hb _ post hids hkeys)⟩

/-! ### What an account is answered -/

/-- The key that is listed for an account. -/
def listedKey (account : Store.Account) : AccountKeyInfo :=
  { keyId := account.keyId, publicKeyMultibase := account.publicKeyMultibase,
    createdAt := account.createdAt }

/-- A context with an access token, alone or behind `Bearer `. -/
def Authorizes (context : Option Json) (accessToken : Str) : Prop :=
  ∃ raw, readProp? context (lit "authorization") = some (.str raw) ∧
    (raw = accessToken ∨ raw = lit "Bearer " ++ accessToken)

theorem Filed.tokenAccount {s : Store.State} {accessToken : Str} {account : Store.Account}
    (h : Filed s accessToken account) {context : Option Json}
    (hauthorizes : Authorizes context accessToken) :
    tokenAccount s context = .ok (some account) := by
  obtain ⟨raw, hraw, htoken⟩ := hauthorizes
  have hbearer : bearerToken context = .ok (some accessToken) := by
    obtain rfl | rfl := htoken
    · have htruthy : truthy (some (.str raw)) = true := by simpa [truthy, Json.truthy] using h.token
      simp only [bearerToken, hraw, htruthy, h.plain]
      rfl
    · have htruthy : truthy (some (.str (lit "Bearer " ++ accessToken))) = true := rfl
      simp only [bearerToken, hraw, htruthy, startsWith_append, slice_append]
      rfl
  exact tokenAccount_of_bearer hbearer h.token h.address h.byToken h.byAddress

theorem Filed.keysSearch {w : World} {accessToken : Str} {account : Store.Account}
    (h : Filed w.accounts accessToken account) {context : Option Json}
    (hauthorizes : Authorizes context accessToken) :
    (handle P E w ⟨context, .keysSearch⟩).2.body = some (.keys [listedKey account]) := by
  simp only [handle, Handlers.keysSearch, withAccount, h.tokenAccount hauthorizes]
  rfl

theorem Filed.resolveAddress {w : World} {accessToken : Str} {account : Store.Account}
    (h : Filed w.accounts accessToken account) (context : Option Json) :
    (handle P E w ⟨context, .resolveAddress account.address⟩).2.body =
      some (.resolved account.address account.did) := by
  simp only [handle, Handlers.resolveAddress, Store.getByAddress, h.byAddress]
  rfl

/-- A hash in hex does not start with `0x`. -/
theorem bytesToHex_no_prefix (bytes : Bytes) :
    startsWith (bytesToHex bytes) (lit "0x") = false := by
  by_contra hprefix
  rw [Bool.not_eq_false] at hprefix
  obtain ⟨rest, hrest⟩ := List.isPrefixOf_iff_prefix.mp hprefix
  have hx : IsHexDigit 120 := bytesToHex_digits bytes 120 (by rw [← hrest]; simp [lit, units])
  exact absurd hx (by unfold IsHexDigit; decide)

/-- A key signs a hash, with or without `0x` in front. -/
theorem Filed.keysSign {w : World} {accessToken : Str} {account : Store.Account}
    (h : Filed w.accounts accessToken account) (context : Option Json) (m : Str) {hash : Str}
    (hhash : hash = Crypto.sha256Hex P m ∨ hash = lit "0x" ++ Crypto.sha256Hex P m) :
    (handle P E w ⟨context, .keysSign { keyReference := account.keyId, hash }⟩).2.body = some
      (.signature (bytesToHex (P.ed25519Sign (P.sha256 (utf8Encode m)) account.privateKey))) := by
  have hhex : (if startsWith hash (lit "0x") then slice hash 2 else hash) =
      Crypto.sha256Hex P m := by
    obtain rfl | rfl := hhash
    · rw [Crypto.sha256Hex, bytesToHex_no_prefix]
      rfl
    · rw [startsWith_append, if_pos rfl]
      exact slice_append (lit "0x") _
  have hget : Store.getByKeyId w.accounts account.keyId = some account := by
    rw [Store.getByKeyId, h.byKeyId]
    show (if account.address = [] then none else w.accounts.byAddress.get account.address) = _
    rw [if_neg h.address, h.byAddress]
  obtain ⟨_, hsign, rfl⟩ := Crypto.signHashHex_sha256Hex (P := P) account.privateKey m
  simp only [handle, Handlers.keysSign, hget, hhex, hsign]
  rfl

/-! ### Signatures -/

/-- Two accounts of a run have two DIDs. -/
theorem did_ne (hb : P.Base58) {requests : List Request}
    (hids : E.FreshIds (after P E requests).draws)
    (hkeys : E.FreshKeys P (after P E requests).draws) {accessToken otherToken : Str}
    {account other : Store.Account} (h : Filed (after P E requests).accounts accessToken account)
    (hother : Filed (after P E requests).accounts otherToken other) (hne : other ≠ account) :
    other.did ≠ account.did := by
  intro hdid
  have haddress :=
    (sessions_after hb requests hids hkeys).distinct hother.byAddress h.byAddress hdid
  have hget := hother.byAddress
  rw [haddress, h.byAddress] at hget
  exact hne (Option.some.inj hget).symm

/-- A signature with a key verifies under it, and under no other. -/
theorem verifies_iff (he : P.Ed25519) (hu : P.Unforgeable) {privateKey : Bytes}
    (hlength : privateKey.length = 32) (m : Str) (publicKey : Bytes) :
    App.Crypto.verifyHashHex P publicKey (Crypto.sha256Hex P m)
      (bytesToHex (P.ed25519Sign (P.sha256 (utf8Encode m)) privateKey)) = true ↔
      publicKey = P.getPublicKey privateKey := by
  have hverify : App.Crypto.verifyHashHex P publicKey (Crypto.sha256Hex P m)
      (bytesToHex (P.ed25519Sign (P.sha256 (utf8Encode m)) privateKey)) = P.ed25519Verify
      (P.ed25519Sign (P.sha256 (utf8Encode m)) privateKey) (P.sha256 (utf8Encode m)) publicKey :=
    Crypto.verifyHashHex_sha256Hex _ _ _
  rw [hverify]
  refine ⟨fun h => ?_, fun h => h ▸ he.verify_sign _ _ hlength⟩
  obtain ⟨signer, rfl, hsigned⟩ := hu.signed _ _ _ h
  exact hu.signer _ _ _ _ hsigned

/-- **A custodial signature is verified by the browser under the account's key, and under no other
account's.** The key is the one that is listed for the account, and the one that is read off
the DID to which its address resolves. -/
theorem signed_for_account (he : P.Ed25519) (hu : P.Unforgeable) (hb : P.Base58)
    (requests : List Request) (hids : E.FreshIds (after P E requests).draws)
    (hkeys : E.FreshKeys P (after P E requests).draws) {accessToken : Str} {account : Store.Account}
    (hgranted : Granted P E requests accessToken account) (m : Str) {hash : Str}
    (hhash : hash = Crypto.sha256Hex P m ∨ hash = lit "0x" ++ Crypto.sha256Hex P m) :
    (∀ context, Authorizes context accessToken →
      (handle P E (after P E requests) ⟨context, .keysSearch⟩).2.body =
        some (.keys [listedKey account])) ∧
      (∀ context, (handle P E (after P E requests) ⟨context,
        .resolveAddress account.address⟩).2.body =
        some (.resolved account.address account.did)) ∧ ∃ signature publicKey,
          (∀ context, (handle P E (after P E requests) ⟨context,
            .keysSign { keyReference := (listedKey account).keyId, hash }⟩).2.body =
            some (.signature signature)) ∧
          App.Crypto.publicKeyFromMultibase P (listedKey account).publicKeyMultibase =
            .ok publicKey ∧
          App.Crypto.publicKeyFromMultibase P (multibaseFromDid account.did) = .ok publicKey ∧
          App.Crypto.verifyHashHex P publicKey (Crypto.sha256Hex P m) signature = true ∧
          ∀ otherToken other, Granted P E requests otherToken other → other ≠ account →
            ∃ otherKey, App.Crypto.publicKeyFromMultibase P (listedKey other).publicKeyMultibase =
              .ok otherKey ∧
              App.Crypto.verifyHashHex P otherKey (Crypto.sha256Hex P m) signature = false := by
  obtain ⟨n, input, haccount, hfiled⟩ := hgranted.filed hb hids hkeys
  have hread : ∀ n input,
    App.Crypto.publicKeyFromMultibase P (Store.newAccount P E n input).publicKeyMultibase =
      .ok (P.getPublicKey (E.privateKey n)) := fun n input =>
        Crypto.publicKeyFromMultibase_didKey hb _
  have hverifies := verifies_iff he hu (E.privateKey_length n) m
  refine ⟨fun context hauthorizes => hfiled.keysSearch hauthorizes, hfiled.resolveAddress, _,
    P.getPublicKey (E.privateKey n), fun context => hfiled.keysSign context m hhash, ?_, ?_, ?_,
    fun otherToken other hother hne => ?_⟩
  · rw [haccount]
    exact hread n input
  · rw [haccount]
    exact (congrArg _ (App.Crypto.multibaseFromDid_did _)).trans (hread n input)
  · rw [haccount]
    exact (hverifies _).mpr rfl
  · obtain ⟨n', input', hother', hfiled'⟩ := hother.filed hb hids hkeys
    refine ⟨P.getPublicKey (E.privateKey n'), by rw [hother']; exact hread n' input', ?_⟩
    rw [haccount, ← Bool.not_eq_true]
    intro hverified
    have hsame := (hverifies _).mp hverified
    refine did_ne hb hids hkeys hfiled hfiled' hne ?_
    rw [haccount, hother']
    exact congrArg (fun k => (Crypto.didKeyFromPublicKey P k).did) hsame

/-! ### Alice and Bob -/

def accountsRun : List Request := [⟨none, .accountCreate alice⟩, ⟨none, .accountCreate bob⟩]

theorem alice_granted : Granted P E accountsRun (Store.accessTokenAt E 5) (aliceAccount P E) := by
  have hcreate :=
    accountCreate_succeeds (P := P) (E := E) (w := (service P E).initial) none alice (by decide) rfl
  refine ⟨[], none, alice, [⟨none, .accountCreate bob⟩], { accessToken := Store.accessTokenAt E 5 },
    rfl, congrArg (fun answer : World × Outcome => answer.2.body) hcreate, rfl, rfl, ?_⟩
  show (handle P E (service P E).initial ⟨none, .accountCreate alice⟩).1.accounts.byAddress.get
    (lit "alice") = _
  rw [hcreate]
  exact JsMap.get_set_self _ _ _

theorem bob_granted : Granted P E accountsRun (Store.accessTokenAt E 11) (bobAccount P E) := by
  have halice : after P E [⟨none, .accountCreate alice⟩] =
      { (service P E).initial with accounts := (Store.createAccount P E 2 .empty alice).1,
                                   draws := 8 } :=
    congrArg Prod.fst
      (accountCreate_succeeds (w := (service P E).initial) none alice (by decide) rfl)
  have hfree : (Store.createAccount P E 2 .empty alice).1.byAddress.get (lit "bob") = none :=
    JsMap.get_set_ne _ _ (show lit "alice" ≠ lit "bob" by decide)
  have hcreate := accountCreate_succeeds (P := P) (E := E) (w := after P E
    [⟨none, .accountCreate alice⟩]) none bob (by decide) (by rw [halice]; exact hfree)
  refine ⟨[⟨none, .accountCreate alice⟩], none, bob, [],
    { accessToken := Store.accessTokenAt E 11 }, rfl, ?_, rfl, ?_, ?_⟩
  · rw [hcreate, halice]
    rfl
  · rw [halice]
    exact hfree
  · show (after P E accountsRun).accounts.byAddress.get (lit "bob") = _
    rw [accountsRun, after_accounts]
    exact bobAccount_deedAccounts

/-- Alice's signature of a prefixed hash verifies under her key and not under Bob's. -/
theorem signed_for_account_alice : ∃ signature publicKey otherKey,
    (handle Reference.primitives Reference.env
      (after Reference.primitives Reference.env accountsRun) ⟨none, .keysSign
      { keyReference := (aliceAccount Reference.primitives Reference.env).keyId
        hash := lit "0x" ++ Crypto.sha256Hex Reference.primitives (lit "hello") }⟩).2.body =
          some (.signature signature) ∧
    App.Crypto.publicKeyFromMultibase Reference.primitives
      (multibaseFromDid (aliceAccount Reference.primitives Reference.env).did) = .ok publicKey ∧
    App.Crypto.publicKeyFromMultibase Reference.primitives
      (bobAccount Reference.primitives Reference.env).publicKeyMultibase = .ok otherKey ∧
    App.Crypto.verifyHashHex Reference.primitives publicKey
      (Crypto.sha256Hex Reference.primitives (lit "hello")) signature =
      true ∧
    App.Crypto.verifyHashHex Reference.primitives otherKey
      (Crypto.sha256Hex Reference.primitives (lit "hello")) signature =
      false := by
  have hdraws : (after Reference.primitives Reference.env accountsRun).draws ≤ 256 := by
    rw [accountsRun, after_accounts]
    decide
  obtain ⟨_, _, signature, publicKey, hsign, _, hdid, hverifies, hothers⟩ :=
    signed_for_account Reference.ed25519 Reference.unforgeable Reference.base58 accountsRun
      (Reference.freshIds _) (Reference.freshKeys hdraws) alice_granted (lit "hello") (.inr rfl)
  have hne : bobAccount Reference.primitives Reference.env ≠
      aliceAccount Reference.primitives Reference.env := by
    intro he
    have haddress : lit "bob" = lit "alice" := congrArg Store.Account.address he
    exact absurd haddress (by decide)
  obtain ⟨otherKey, hother, hrefused⟩ := hothers _ _ bob_granted hne
  exact ⟨signature, publicKey, otherKey, hsign none, hdid, hother, hverifies, hrefused⟩

end Wayfinder.Service.Handlers
