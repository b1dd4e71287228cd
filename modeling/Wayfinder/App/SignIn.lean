import Wayfinder.App.Client
import Wayfinder.Service.Handlers.FirstCome
import Wayfinder.Service.Served

/-! The first steps of the page: an account, and a signature with its key.

A session is three replies put together: the access token of `createAccount`, and the profile and
the key that the page then asks for side by side. `SignedIn` says that they are of one account;
`create_signs_in` that they always are, whoever else uses the service meanwhile, and that the page's
own request made it. -/
namespace Wayfinder.App

open Js Service Service.Handlers Service.App Client

structure Session where
  token : Str
  profile : AccountProfile
  key : AccountKeyInfo

/-! ### Creating an account -/

namespace CreateAccount

def taken (address : Str) : Str :=
  lit "Address \"" ++ address ++ lit "\" is already taken — pick another."

/-- What the page makes of the replies. -/
def ready (token : Str) (profile : AccountProfile) (keys : List AccountKeyInfo) :
    PageFlow Session :=
  match keys.head? with
  | none => .done (.error (.error (lit "Account created but no key was returned.")))
  | some key => .done (.ok ⟨token, profile, key⟩)

def create (address name : Str) (entityType : Store.EntityType) : PageFlow Session :=
  (checkAvailability address).andThen fun available =>
    if !available then .done (.error (.error (taken address)))
    else
      (createAccount ⟨address, name, entityType⟩).andThen fun success =>
        (Program.both (getAccount success.accessToken)
          (searchKeys success.accessToken) .done).andThen fun replies =>
          ready success.accessToken replies.1 replies.2

end CreateAccount

/-! ### Signing -/

namespace SignAndVerify

variable (P : Primitives)

def sign (session : Session) (message : Str) : PageFlow Str :=
  Client.sign session.key.keyId (Crypto.sha256Hex P message)

/-- The live verdict on a signature; none before there is one. The key is read when the page is
shown. -/
def verdict (session : Session) (signature : Option Str) (verifyText : Str) :
    Except Thrown (Option Bool) := do
  let publicKey ← Crypto.publicKeyFromMultibase P session.key.publicKeyMultibase
  match signature with
  | none => return none
  | some signature =>
    return if signature = [] then none
    else some (Crypto.verifyHashHex P publicKey (Crypto.sha256Hex P verifyText) signature)

end SignAndVerify

/-! ### Sessions -/

section
variable (P : Primitives) (E : Env)

/-- A session whose three parts are of one account that the service drew. -/
structure SignedIn (w : World) (session : Session) (account : Store.Account) : Prop where
  filed : Filed w.accounts session.token account
  drawn : ∃ n input, account = Store.newAccount P E n input
  profile : session.profile = ⟨account.did, account.address, account.name, account.entityType⟩
  key : session.key = listedKey account

end

variable {P : Primitives} {E : Env}

/-- Who is signed in stays signed in. -/
theorem SignedIn.extend (hb : P.Base58) {run more : List Request} {session : Session}
    {account : Store.Account} (h : SignedIn P E (served P E run) session account)
    (hfresh : Fresh P E (run ++ more)) :
    SignedIn P E (served P E (run ++ more)) session account :=
  ⟨h.filed.kept (keepsAccounts_served hb (List.prefix_append _ _) hfresh), h.drawn,
    h.profile, h.key⟩

theorem SignedIn.later (hb : P.Base58) {run run' : List Request} {session : Session}
    {account : Store.Account} (h : SignedIn P E (served P E run) session account)
    (hrun : run <+: run') (hfresh : Fresh P E run') :
    SignedIn P E (served P E run') session account := by
  obtain ⟨more, rfl⟩ := hrun
  exact h.extend hb hfresh

/-- Of the service only the accounts are told. -/
theorem SignedIn.same {w w' : World} {session : Session} {account : Store.Account}
    (h : SignedIn P E w session account) (haccounts : w'.accounts = w.accounts) :
    SignedIn P E w' session account :=
  ⟨haccounts ▸ h.filed, h.drawn, h.profile, h.key⟩

/-- The page's own context carries the access token. -/
theorem context_authorizes {id token : Str} (stamp : Stamp) (h : token ≠ []) :
    Authorizes (some (context id (some token) stamp)) token := by
  refine ⟨lit "Bearer " ++ token, ?_, .inr rfl⟩
  rw [context]
  simp only [if_neg h]
  rfl

/-- A call of the page speaks for the account from then on. -/
theorem SignedIn.account (hb : P.Base58) {run before : List Request} {session : Session}
    {account : Store.Account} (h : SignedIn P E (served P E run) session account)
    (hsince : run <+: before) (hfresh : Fresh P E before) (id : Str) (stamp : Stamp) :
    tokenAccount (served P E before).accounts (some (context id (some session.token) stamp)) =
      .ok (some account) :=
  (filed_served hb h.filed hsince hfresh).tokenAccount (context_authorizes stamp h.filed.token)

/-! ### What the handlers answer -/

theorem accountCreate_answered {w w' : World} {context : Option Json}
    {payload : Store.RegistrationRequest} {response : Envelope.Response Body}
    {success : RegistrationSuccess}
    (h : handle P E w ⟨context, .accountCreate payload⟩ = (w', .answered response))
    (hbody : response.reparsed.response.bind asRegistration = some success) :
    isFinternetAddress payload.address = true ∧ w.accounts.byAddress.get payload.address = none ∧
      w'.accounts = (Store.createAccount P E w.draws w.accounts payload).1 ∧
      success.accessToken = Store.accessTokenAt E (w.draws + 3) := by
  have haccepted := accountCreate_accepted (P := P) (E := E) w context payload
  obtain ⟨body, hsome, _⟩ := Option.bind_eq_some_iff.mp hbody
  obtain ⟨sent, hsent, rfl⟩ := Option.map_eq_some_iff.mp hsome
  rw [h, Outcome.body, hsent] at haccepted
  obtain ⟨haddress, hfree⟩ := haccepted.mp rfl
  have hfree : w.accounts.byAddress.get payload.address = none := by simpa using hfree
  rw [accountCreate_succeeds context payload haddress hfree, Prod.mk.injEq,
    Outcome.answered.injEq] at h
  obtain ⟨rfl, rfl⟩ := h
  cases hbody
  exact ⟨haddress, hfree, rfl, rfl⟩

theorem accountGet_answered {w w' : World} {context : Option Json} {token : Str}
    {account : Store.Account} {response : Envelope.Response Body} {profile : AccountProfile}
    (hfiled : Filed w.accounts token account) (hauthorizes : Authorizes context token)
    (h : handle P E w ⟨context, .accountGet⟩ = (w', .answered response))
    (hbody : response.reparsed.response.bind asProfile = some profile) :
    profile = ⟨account.did, account.address, account.name, account.entityType⟩ := by
  simp only [handle, accountGet, withAccount, hfiled.tokenAccount hauthorizes] at h
  cases h
  cases hbody
  rfl

theorem keysSearch_answered {w w' : World} {context : Option Json} {token : Str}
    {account : Store.Account} {response : Envelope.Response Body} {keys : List AccountKeyInfo}
    (hfiled : Filed w.accounts token account) (hauthorizes : Authorizes context token)
    (h : handle P E w ⟨context, .keysSearch⟩ = (w', .answered response))
    (hbody : response.reparsed.response.bind asKeys = some keys) : keys = [listedKey account] := by
  have hsearch := hfiled.keysSearch (P := P) (E := E) hauthorizes
  rw [h] at hsearch
  rw [response.reparsed_response, show response.response = some _ from hsearch] at hbody
  exact (Option.some.inj hbody).symm

theorem filed_created {w w' : World} {payload : Store.RegistrationRequest}
    (haddress : isFinternetAddress payload.address = true)
    (haccounts : w'.accounts = (Store.createAccount P E w.draws w.accounts payload).1) :
    Filed w'.accounts (Store.accessTokenAt E (w.draws + 3))
      (Store.newAccount P E w.draws payload) := by
  rw [haccounts]
  refine ⟨isFinternetAddress_ne haddress, List.append_ne_nil_of_left_ne_nil (by decide) _, rfl,
    JsMap.get_set_self _ _ _, JsMap.get_set_self _ _ _, JsMap.get_set_self _ _ _⟩

/-- The session that is put together for an account made at a draw. -/
def sessionAt (P : Primitives) (E : Env) (n : Nat)
    (payload : Store.RegistrationRequest) : Session where
  token := Store.accessTokenAt E (n + 3)
  profile :=
    ⟨(Store.newAccount P E n payload).did, payload.address, payload.name, payload.entityType⟩
  key := listedKey (Store.newAccount P E n payload)

theorem sessionAt_signedIn {w w' : World} {payload : Store.RegistrationRequest}
    (haddress : isFinternetAddress payload.address = true)
    (haccounts : w'.accounts = (Store.createAccount P E w.draws w.accounts payload).1) :
    SignedIn P E w' (sessionAt P E w.draws payload) (Store.newAccount P E w.draws payload) :=
  ⟨filed_created haddress haccounts, ⟨_, _, rfl⟩, rfl, rfl⟩

/-- Alice, after she has opened an account. -/
theorem signedIn_alice (P : Primitives) (E : Env) :
    SignedIn P E (served P E [⟨none, .accountCreate alice⟩]) (sessionAt P E 2 alice)
      (aliceAccount P E) := by
  have hcreate :=
    accountCreate_succeeds (P := P) (E := E) (w := (service P E).initial) none alice (by decide) rfl
  have haccounts : (served P E [⟨none, .accountCreate alice⟩]).accounts =
      (Store.createAccount P E 2 (service P E).initial.accounts alice).1 := by
    show (serve P E (service P E).initial ⟨none, .accountCreate alice⟩).1.accounts = _
    rw [serve, hcreate]
    rfl
  exact sessionAt_signedIn (w := (service P E).initial) (by decide) haccounts

/-! ### What the calls ensure -/

section
variable (P : Primitives) (E : Env)

/-- The account that a page's own request made, at an address that was free. -/
def CreatedBy (run run' : List Request) (payload : Store.RegistrationRequest)
    (account : Store.Account) : Prop :=
  ∃ before stamp, run <+: before ∧
    before ++ [request (.accountCreate payload) (lit "account.create") none stamp] <+: run' ∧
    (served P E before).accounts.byAddress.get payload.address = none ∧
    (served P E (before ++ [request (.accountCreate payload)
      (lit "account.create") none stamp])).accounts.byAddress.get payload.address = some account

/-- A session of the account that its own request made. -/
def SignedUp (run run' : List Request) (payload : Store.RegistrationRequest)
    (session : Session) : Prop :=
  ∃ account, CreatedBy P E run run' payload account ∧
    SignedIn P E (served P E run') session account ∧
    session.profile = ⟨lit "did:key:" ++ session.key.publicKeyMultibase, payload.address,
      payload.name, payload.entityType⟩

end

theorem CreatedBy.widen {run run₁ run' run'' : List Request} {payload : Store.RegistrationRequest}
    {account : Store.Account} (h : CreatedBy P E run₁ run' payload account) (hsince : run <+: run₁)
    (hrun : run' <+: run'') : CreatedBy P E run run'' payload account := by
  obtain ⟨before, stamp, hbefore, htaken, hfree, hget⟩ := h
  exact ⟨before, stamp, hsince.trans hbefore, htaken.trans hrun, hfree, hget⟩

/-- The account that the service made for a request is filed from then on. -/
theorem createAccount_ensures (hb : P.Base58) (payload : Store.RegistrationRequest)
    (run : List Request) :
    Ensures P E (createAccount payload) run fun run' success => ∃ n,
      CreatedBy P E run run' payload (Store.newAccount P E n payload) ∧
      Filed (served P E run').accounts success.accessToken (Store.newAccount P E n payload) := by
  refine (ensures_call _ _ _ _ run).mono fun run' success _ hfresh hanswered => ?_
  obtain ⟨before, stamp, response, htook, hbody⟩ := hanswered
  obtain ⟨haddress, hfree, haccounts, haccess⟩ := accountCreate_answered htook.answer hbody
  have hfiled := filed_created haddress haccounts
  refine ⟨_, ⟨before, stamp, htook.since, htook.taken, hfree, hfiled.byAddress⟩, ?_⟩
  rw [haccess]
  exact filed_served hb hfiled htook.taken hfresh

theorem getAccount_ensures (hb : P.Base58) {run : List Request} {token : Str}
    {account : Store.Account} (h : Filed (served P E run).accounts token account) :
    Ensures P E (getAccount token) run fun _ profile =>
      profile = ⟨account.did, account.address, account.name, account.entityType⟩ := by
  refine (ensures_call _ _ _ _ run).mono fun run' profile _ hfresh hanswered => ?_
  obtain ⟨before, stamp, response, htook, hbody⟩ := hanswered
  exact accountGet_answered (filed_served hb h htook.since (hfresh.earlier htook.within))
    (context_authorizes stamp h.token) htook.answer hbody

theorem searchKeys_ensures (hb : P.Base58) {run : List Request} {token : Str}
    {account : Store.Account} (h : Filed (served P E run).accounts token account) :
    Ensures P E (searchKeys token) run fun _ keys => keys = [listedKey account] := by
  refine (ensures_call _ _ _ _ run).mono fun run' keys _ hfresh hanswered => ?_
  obtain ⟨before, stamp, response, htook, hbody⟩ := hanswered
  exact keysSearch_answered (filed_served hb h htook.since (hfresh.earlier htook.within))
    (context_authorizes stamp h.token) htook.answer hbody

/-! ### Who is signed in -/

/-- Whoever signs up is signed in: the session is of the account that the page's own request made at
an address free until then. -/
theorem create_ensures (hb : P.Base58) (run : List Request) (address name : Str)
    (entityType : Store.EntityType) :
    Ensures P E (CreateAccount.create address name entityType) run
      (SignedUp P E run · ⟨address, name, entityType⟩) := by
  unfold CreateAccount.create
  refine Program.ensures_andThen Fresh.mono (ensures_call _ _ _ _ run) fun more available _ _ => ?_
  split
  · exact Program.ensures_error
  · refine Program.ensures_andThen Fresh.mono (createAccount_ensures hb _ _)
      fun more' success _ hcreated => ?_
    obtain ⟨n, hcreated, hfiled⟩ := hcreated
    refine Program.ensures_andThen Fresh.mono
      (Program.ensures_both (getAccount_ensures hb hfiled) (searchKeys_ensures hb hfiled))
      fun more'' replies _ hreplies => ?_
    obtain ⟨profile, keys⟩ := replies
    obtain ⟨rfl, rfl⟩ := hreplies
    have hrun : ∀ more''', run ++ more ++ more' <+: run ++ more ++ more' ++ more'' ++ more''' :=
      fun more''' => (List.prefix_append _ _).trans (List.prefix_append _ _)
    refine Program.ensures_ok fun more''' hfresh =>
      ⟨_, hcreated.widen (List.prefix_append _ _) (hrun more'''), ⟨?_, ⟨n, _, rfl⟩, rfl, rfl⟩, rfl⟩
    exact filed_served hb hfiled (hrun more''') hfresh

/-- Two requests for an address that both found it free are one. -/
theorem CreatedBy.payload_eq (hb : P.Base58) {run run' : List Request}
    {payload payload' : Store.RegistrationRequest} {account account' : Store.Account}
    (h : CreatedBy P E run run' payload account) (h' : CreatedBy P E run run' payload' account')
    (haddress : payload.address = payload'.address) (hfresh : Fresh P E run') :
    payload = payload' := by
  obtain ⟨before, stamp, _, htaken, hfree, hget⟩ := h
  obtain ⟨before', stamp', _, htaken', hfree', hget'⟩ := h'
  -- whichever was taken first has the address by the time of the other
  have hkept : ∀ {first second : List Request} {address : Str} {account : Store.Account},
      (served P E first).accounts.byAddress.get address = some account → first <+: second →
      second <+: run' → (served P E second).accounts.byAddress.get address ≠ none := by
    intro first second address account hget hle hsecond hnone
    obtain ⟨more, rfl⟩ := hle
    rw [(keepsAccounts_served hb (List.prefix_append _ _) (hfresh.earlier hsecond)).byAddress hget]
      at hnone
    cases hnone
  rcases Nat.lt_trichotomy before.length before'.length with hlt | heq | hlt
  · have hle := List.prefix_of_prefix_length_le htaken ((List.prefix_append _ _).trans htaken')
      (by simpa using hlt)
    exact absurd (haddress ▸ hfree') (hkept hget hle ((List.prefix_append _ _).trans htaken'))
  · have hsame :=
      (List.prefix_of_prefix_length_le htaken htaken' (by simp [heq])).eq_of_length (by simp [heq])
    have hrequest := (List.cons.inj (List.append_inj hsame heq).2).1
    injection hrequest with _ hpayload
    injection hpayload
  · have hle := List.prefix_of_prefix_length_le htaken' ((List.prefix_append _ _).trans htaken)
      (by simpa using hlt)
    exact absurd (haddress ▸ hfree) (hkept hget' hle ((List.prefix_append _ _).trans htaken))

/-- **Whoever signs up is signed in, as nobody else.** Two pages ask for an account at the same
time, whatever others ask of the service meanwhile and whichever replies are lost. A session that
one of them ends with, however the other ends, is of the account that its own request made, at an
address free until then: its access token speaks for it, its profile and key are that account's, and
its DID is its key. Two sessions that were not asked for alike share neither address nor access
token nor key nor DID. -/
theorem sessions_apart (hb : P.Base58) (run : List Request)
    {payload payload' : Store.RegistrationRequest} (hne : payload ≠ payload') :
    Ensures P E
      (Program.both
        (Program.settled (CreateAccount.create payload.address payload.name payload.entityType))
        (Program.settled (CreateAccount.create payload'.address payload'.name payload'.entityType))
        .done) run
      fun run' ends =>
        (∀ session, ends.1 = .ok session → SignedUp P E run run' payload session) ∧
        (∀ session', ends.2 = .ok session' → SignedUp P E run run' payload' session') ∧
        ∀ session session', ends.1 = .ok session → ends.2 = .ok session' →
          payload.address ≠ payload'.address ∧ session.token ≠ session'.token ∧
          session.key.keyId ≠ session'.key.keyId ∧ session.profile.did ≠ session'.profile.did := by
  refine (Program.ensures_both
    (Program.ensures_settled
      (create_ensures hb run payload.address payload.name payload.entityType))
    (Program.ensures_settled
      (create_ensures hb run payload'.address payload'.name payload'.entityType))).mono
    fun run' ends _ hfresh hboth => ⟨hboth.1, hboth.2, fun session session' hends hends' => ?_⟩
  obtain ⟨account, hcreated, hsigned, hprofile⟩ := hboth.1 session hends
  obtain ⟨account', hcreated', hsigned', hprofile'⟩ := hboth.2 session' hends'
  have haddress : payload.address ≠ payload'.address := fun hsame =>
    hne (hcreated.payload_eq hb hcreated' hsame hfresh)
  -- sessions that share an index share the address
  have hat : account.address = payload.address :=
    (congrArg AccountProfile.address (hsigned.profile.symm.trans hprofile))
  have hat' : account'.address = payload'.address :=
    (congrArg AccountProfile.address (hsigned'.profile.symm.trans hprofile'))
  have hapart : account.address ≠ account'.address := by rwa [hat, hat']
  refine ⟨haddress, ?_, ?_, ?_⟩
  · intro hsame
    have hget := hsigned.filed.byToken
    rw [hsame, hsigned'.filed.byToken, Option.some.injEq] at hget
    exact hapart hget.symm
  · intro hsame
    rw [hsigned.key, hsigned'.key] at hsame
    have hget := hsigned.filed.byKeyId
    rw [show account.keyId = account'.keyId from hsame, hsigned'.filed.byKeyId,
      Option.some.injEq] at hget
    exact hapart hget.symm
  · intro hsame
    rw [hsigned.profile, hsigned'.profile] at hsame
    have hfiled := hsigned.filed.byAddress
    have hfiled' := hsigned'.filed.byAddress
    rw [served_eq] at hfiled hfiled'
    exact hapart ((sessions_served hb hfresh).distinct hfiled hfiled' hsame)

/-- Alice and Bob sign up each as themselves, and apart. -/
theorem sessions_apart_alice_bob :
    Ensures Reference.primitives Reference.env
      (Program.both (Program.settled (CreateAccount.create (lit "alice") (lit "Alice") .personal))
        (Program.settled (CreateAccount.create (lit "bob") (lit "Bob") .personal)) .done) []
      fun run' ends =>
        (∀ session, ends.1 = .ok session →
          SignedUp Reference.primitives Reference.env [] run' alice session) ∧
        (∀ session', ends.2 = .ok session' →
          SignedUp Reference.primitives Reference.env [] run' bob session') ∧
        ∀ session session', ends.1 = .ok session → ends.2 = .ok session' →
          alice.address ≠ bob.address ∧ session.token ≠ session'.token ∧
          session.key.keyId ≠ session'.key.keyId ∧ session.profile.did ≠ session'.profile.did := by
  have hne : alice ≠ bob := by
    intro h
    exact absurd (congrArg Store.RegistrationRequest.address h) (by decide)
  exact sessions_apart Reference.base58 [] hne

/-! ### What is signed -/

theorem publicKey_of_signedIn (hb : P.Base58) {w : World} {session : Session}
    {account : Store.Account} (h : SignedIn P E w session account) :
    Crypto.publicKeyFromMultibase P session.key.publicKeyMultibase =
      .ok (P.getPublicKey account.privateKey) := by
  obtain ⟨n, input, rfl⟩ := h.drawn
  rw [h.key]
  exact Service.Crypto.publicKeyFromMultibase_didKey hb _

theorem verdict_of_signedIn (hb : P.Base58) {w : World} {session : Session}
    {account : Store.Account} (h : SignedIn P E w session account) {signature : Str}
    (hne : signature ≠ []) (text : Str) :
    SignAndVerify.verdict P session (some signature) text = .ok (some (Crypto.verifyHashHex P
      (P.getPublicKey account.privateKey) (Crypto.sha256Hex P text) signature)) := by
  rw [SignAndVerify.verdict, publicKey_of_signedIn hb h]
  exact congrArg Except.ok (if_neg hne)

/-- Accounts with one public key are one. -/
theorem SignedIn.publicKey_inj (hb : P.Base58) {run : List Request} (hfresh : Fresh P E run)
    {session other : Session} {account account' : Store.Account}
    (h : SignedIn P E (served P E run) session account)
    (h' : SignedIn P E (served P E run) other account')
    (hkey : P.getPublicKey account'.privateKey = P.getPublicKey account.privateKey) :
    account' = account := by
  have hdid : account'.did = account.did := by
    obtain ⟨n, input, rfl⟩ := h.drawn
    obtain ⟨n', input', rfl⟩ := h'.drawn
    exact congrArg (fun k => (Service.Crypto.didKeyFromPublicKey P k).did) hkey
  have hsessions := sessions_served hb hfresh
  have hfiled := h.filed.byAddress
  have hfiled' := h'.filed.byAddress
  rw [served_eq] at hfiled hfiled'
  rw [hsessions.distinct hfiled' hfiled hdid, hfiled] at hfiled'
  exact (Option.some.inj hfiled').symm

/-- A key signs two texts alike. -/
def SignsAlike (P : Primitives) (privateKey : Bytes) (message text : Str) : Prop :=
  ∃ p, P.getPublicKey p = P.getPublicKey privateKey ∧ P.ed25519Sign (P.sha256 (utf8Encode text)) p =
    P.ed25519Sign (P.sha256 (utf8Encode message)) privateKey

/-- What verifies was signed by the key, and alike. -/
theorem alike_of_verifies (hu : P.Unforgeable) {privateKey publicKey : Bytes} {message text : Str}
    (h : Crypto.verifyHashHex P publicKey (Crypto.sha256Hex P text)
      (bytesToHex (P.ed25519Sign (P.sha256 (utf8Encode message)) privateKey)) = true) :
    publicKey = P.getPublicKey privateKey ∧ SignsAlike P privateKey message text := by
  have hverify : Crypto.verifyHashHex P publicKey (Crypto.sha256Hex P text)
      (bytesToHex (P.ed25519Sign (P.sha256 (utf8Encode message)) privateKey)) =
        P.ed25519Verify (P.ed25519Sign (P.sha256 (utf8Encode message)) privateKey)
            (P.sha256 (utf8Encode text)) publicKey :=
    Service.Crypto.verifyHashHex_sha256Hex _ _ _
  rw [hverify] at h
  obtain ⟨p, rfl, hsigned⟩ := hu.signed _ _ _ h
  have hkey := hu.signer _ _ _ _ hsigned
  exact ⟨hkey, p, hkey, hsigned⟩

/-- **The verdict on a signature is about who signed what.** Whatever others ask of the service
meanwhile, the page of the account shows the signature that it got as valid for the message. A page
that shows it as valid for any text, of any account, is of the account itself, and its key signs the
text and the message alike. -/
theorem sign_shows (he : P.Ed25519) (hu : P.Unforgeable) (hb : P.Base58) {run : List Request}
    {session : Session} {account : Store.Account}
    (h : SignedIn P E (served P E run) session account) (message : Str) :
    Ensures P E (SignAndVerify.sign P session message) run fun run' signature =>
      SignAndVerify.verdict P session (some signature) message = .ok (some true) ∧
      ∀ other account' text, SignedIn P E (served P E run') other account' →
        ∃ valid, SignAndVerify.verdict P other (some signature) text = .ok (some valid) ∧
          (valid = true → account' = account ∧ SignsAlike P account.privateKey message text) := by
  refine (ensures_call _ _ _ _ run).mono fun run' signature hrun hfresh hanswered => ?_
  obtain ⟨before, stamp, response, htook, hbody⟩ := hanswered
  have hfiled := filed_served hb h.filed htook.since (hfresh.earlier htook.within)
  have hsign := hfiled.keysSign (P := P) (E := E)
    (some (context (lit "keys.sign") none stamp)) message (.inl rfl)
  have hlater := h.later hb hrun hfresh
  rw [h.key] at htook
  rw [show handle P E _ ⟨some (context (lit "keys.sign") none stamp),
    .keysSign ⟨account.keyId, Service.Crypto.sha256Hex P message⟩⟩ = _ from htook.answer] at hsign
  rw [response.reparsed_response, show response.response = some _ from hsign] at hbody
  cases hbody
  have hne :
      bytesToHex (P.ed25519Sign (P.sha256 (utf8Encode message)) account.privateKey) ≠ [] := by
    intro hnil
    have hlength :=
      bytesToHex_length (P.ed25519Sign (P.sha256 (utf8Encode message)) account.privateKey)
    rw [hnil, he.signature_length] at hlength
    cases hlength
  refine ⟨?_, fun other account' text hother =>
    ⟨_, verdict_of_signedIn hb hother hne text, fun hvalid => ?_⟩⟩
  · obtain ⟨n, input, rfl⟩ := h.drawn
    rw [verdict_of_signedIn hb hlater hne message]
    exact congrArg (fun valid => Except.ok (some valid))
        ((verifies_iff he hu (E.privateKey_length n) message _).mpr rfl)
  · obtain ⟨hkey, halike⟩ := alike_of_verifies hu hvalid
    exact ⟨hlater.publicKey_inj hb hfresh hother hkey, halike⟩

/-- What Alice signs, her page shows as signed. -/
theorem sign_shows_alice :
    Ensures Reference.primitives Reference.env (SignAndVerify.sign Reference.primitives
      (sessionAt Reference.primitives Reference.env 2 alice) (lit "hello"))
      [⟨none, .accountCreate alice⟩] fun _ signature =>
      SignAndVerify.verdict Reference.primitives
        (sessionAt Reference.primitives Reference.env 2 alice) (some signature) (lit "hello") =
        .ok (some true) :=
  (sign_shows Reference.ed25519 Reference.unforgeable Reference.base58
    (signedIn_alice Reference.primitives Reference.env) (lit "hello")).mono
    fun _ _ _ _ hshows => hshows.1

end Wayfinder.App
