import Wayfinder.Service.Handlers.Succeeds
import Wayfinder.Service.Statements

/-! Statement by statement, the handlers that write do what `Handlers` says they do.

A statement *does* what a handler does when it ends in the same world with the same
response, or when both throw the same and no store was written. A rule for each kind of
statement runs it; with these, one lemma for each function says what its statements amount
to, and the handlers are compared case by case. -/
namespace Wayfinder.Service.Statements

open Js Envelope Credentials TokenClasses Tokens Handlers

variable {P : Primitives} {E : Env}

/-! ### Running statements -/

section Rules

variable {α β : Type} {w : World} (f : α → Statement β)

@[simp] theorem pure_run (a : α) : (pure a : Statement α) w = .ok a w := rfl

@[simp] theorem throw_run (e : Thrown) : (throw e : Statement α) w = .error e w := rfl

@[simp] theorem pure_bind (a : α) : ((pure a : Statement α) >>= f) w = f a w := rfl

@[simp] theorem throw_bind (e : Thrown) : ((throw e : Statement α) >>= f) w = .error e w := rfl

@[simp] theorem get_bind (g : World → Statement β) : ((get : Statement World) >>= g) w = g w w :=
  rfl

@[simp] theorem get_map (g : World → α) : (g <$> (get : Statement World)) w = .ok (g w) w := rfl

@[simp] theorem draw_bind (k : Nat) (g : Nat → Statement β) :
    (draw k >>= g) w = g w.draws { w with draws := w.draws + k } := rfl

@[simp] theorem onAccounts_bind (g : Store.State → Store.State) (f : Unit → Statement β) :
    (onAccounts g >>= f) w = f () { w with accounts := g w.accounts } := rfl

@[simp] theorem onCredentials_bind (g : Credentials.State → Credentials.State)
    (f : Unit → Statement β) :
    (onCredentials g >>= f) w = f () { w with credentials := g w.credentials } :=
  rfl

@[simp] theorem onTokens_bind (g : Tokens.State → Tokens.State) (f : Unit → Statement β) :
    (onTokens g >>= f) w = f () { w with tokens := g w.tokens } := rfl

@[simp] theorem onTokens_map (g : Tokens.State → Tokens.State) (f : Unit → α) :
    (f <$> onTokens g) w = .ok (f ()) { w with tokens := g w.tokens } := rfl

@[simp] theorem evaluate_ok (a : α) : evaluate (.ok a) = (pure a : Statement α) := rfl

@[simp] theorem evaluate_error (e : Thrown) : evaluate (.error e) = (throw e : Statement α) := rfl

theorem except_ok_bind (a : α) (g : α → Except Thrown β) : (Except.ok a >>= g) = g a := rfl

variable {f}

theorem bind_ok {s : Statement α} {a : α} {w' : World} (h : s w = .ok a w') :
    (s >>= f) w = f a w' := by
  show EStateM.bind s f w = _
  rw [EStateM.bind, h]

theorem bind_error {s : Statement α} {e : Thrown} {w' : World} (h : s w = .error e w') :
    (s >>= f) w = .error e w' := by
  show EStateM.bind s f w = _
  rw [EStateM.bind, h]

theorem tryCatch_ok {s : Statement α} {handler : Thrown → Statement α} {a : α} {w' : World}
    (h : s w = .ok a w') :
    (tryCatch s handler) w = .ok a w' := by
  show EStateM.tryCatch s handler w = _
  rw [EStateM.tryCatch, h]

theorem tryCatch_error {s : Statement α} {handler : Thrown → Statement α} {e : Thrown} {w' : World}
    (h : s w = .error e w') : (tryCatch s handler) w = handler e w' := by
  show EStateM.tryCatch s handler w = _
  rw [EStateM.tryCatch, h]
  rfl

end Rules

theorem write_get {ν : Type} {m : JsMap Str ν} {k : Str} {v : ν} (f : ν → ν)
    (h : m.get k = some v) :
    write m k f = m.set k (f v) := by
  rw [write, h]

@[simp] theorem write_set {ν : Type} (m : JsMap Str ν) (k : Str) (v : ν) (f : ν → ν) :
    write (m.set k v) k f = m.set k (f v) := by
  rw [write_get f (JsMap.get_set_self m k v), JsMap.set_set]

/-! ### What a handler does, done by a statement -/

/-- What a request that throws drew is lost. -/
inductive Does (s : Statement (Response Body)) (w : World) : World × Outcome → Prop where
  | answers {w' : World} {response : Response Body} (h : s w = .ok response w') :
      Does s w (w', .answered response)
  | throws {m n : Nat} {e : Thrown} (h : s w = .error e { w with draws := m }) :
      Does s w ({ w with draws := n }, .threw e)

theorem Does.of_eq {s t : Statement (Response Body)} {w : World} {result : World × Outcome}
    (h : s w = t w) (hdoes : Does t w result) : Does s w result := by
  cases hdoes with
  | answers hrun => exact .answers (h.trans hrun)
  | throws hrun => exact .throws (h.trans hrun)

theorem withAccount_does {w : World} {context : Option Json}
    {statement : Store.Account → Statement (Response Body)}
    {handler : Store.Account → World × Outcome}
    (h : ∀ account, Does (statement account) w (handler account)) :
    Does (Statements.withAccount E context statement) w
      (Handlers.withAccount E w context handler) := by
  unfold Handlers.withAccount
  split
  · next e he =>
    apply Does.throws (m := w.draws) (n := w.draws)
    simp [Statements.withAccount, he]
  · next he =>
    apply Does.answers
    simp [Statements.withAccount, he]
    rfl
  · next account he =>
    apply Does.of_eq _ (h account)
    simp [Statements.withAccount, he]

/-! ### The stores -/

theorem createAccount_run (w : World) (input : Store.RegistrationRequest) :
    Statements.createAccount P E input w =
      .ok (Store.createAccount P E w.draws w.accounts input).2
        { w with
          accounts := (Store.createAccount P E w.draws w.accounts input).1
          draws := w.draws + Store.accountDraws } := rfl

theorem issueCredential_run (w : World) (input : IssueInput) :
    Statements.issueCredential P E input w =
      match Credentials.issueCredential P E w.draws w.credentials input with
      | .ok (credentials, credential) =>
        .ok credential { w with credentials, draws := w.draws + issueDraws }
      | .error e => .error e { w with draws := w.draws + issueDraws } := by
  unfold Credentials.issueCredential
  simp only [Statements.issueCredential, draw_bind]
  cases Crypto.signHashHex P (issuerKeys P E).privateKey
    (vcSigningHash P (unsignedVc P E w.draws input).toJson) with
  | error e => rfl
  | ok proofValue =>
    cases toText (orElse input.verificationLevel (Json.str (lit "enhanced"))) with
    | error e => rfl
    | ok levelText =>
      simp only [evaluate_ok, pure_bind, except_ok_bind]
      generalize wrap P E w.draws input levelText
        { unsignedVc P E w.draws input with proof := some (proofOf P E w.draws proofValue) } =
        credential
      cases validateCredential P credential.toJson <;> rfl

theorem revokeCredential_none {w : World} {id : Option Json}
    (h : Credentials.revokeCredential w.credentials id = none) :
    Statements.revokeCredential id w = .ok none w := by
  unfold Credentials.revokeCredential at h
  split at h
  · next id =>
    split at h
    · next hget => simp [Statements.revokeCredential, JsMap.has, hget]
    · cases h
  · next hid =>
    unfold Statements.revokeCredential
    split
    · exact absurd rfl (hid _)
    · rfl

theorem revokeCredential_some {w : World} {id : Option Json} {credentials : Credentials.State}
    {credential : CredentialToken}
    (h : Credentials.revokeCredential w.credentials id = some (credentials, credential)) :
    Statements.revokeCredential id w = .ok (some credential) { w with credentials } := by
  unfold Credentials.revokeCredential at h
  split at h
  · next id =>
    split at h
    · cases h
    · next stored hget =>
      cases h
      have hhas : w.credentials.has id = true := by
        rw [JsMap.has, hget]
        rfl
      simp [Statements.revokeCredential, hhas, write_get _ hget, JsMap.get_set_self]
      exact ⟨rfl, rfl⟩
  · cases h

theorem recordMint_run (w : World) (input : Ledger.MintRecord) :
    Statements.recordMint P E input w =
      .ok (Ledger.recordMint P E w.draws w.ledger input).2
        { w with
          ledger := (Ledger.recordMint P E w.draws w.ledger input).1
          draws := w.draws + Ledger.recordDraws } := rfl

theorem recordTransfer_run (w : World) (input : Ledger.TransferRecord) :
    Statements.recordTransfer P E input w =
      .ok (Ledger.recordTransfer P E w.draws w.ledger input).2
        { w with
          ledger := (Ledger.recordTransfer P E w.draws w.ledger input).1
          draws := w.draws + Ledger.recordDraws } := rfl

/-- What `mintToken` gives, and a run of its statements. -/
inductive Mints (s : Statement Minted) (w : World) : Except Thrown MintResult → Prop where
  | throws {n : Nat} {e : Thrown} (h : s w = .error e { w with draws := n }) : Mints s w (.error e)
  | refused {next : Nat} {code : MintCode} {message : Str}
      (h : s w = .ok (.refused code message) { w with draws := next }) :
      Mints s w (.ok (.refused code message next))
  | ok {tokens : Tokens.State} {ledger : Ledger.State} {token : TokenInstance} {next : Nat}
      (h : s w = .ok (.ok token) { w with tokens, ledger, draws := next }) :
      Mints s w (.ok (.ok tokens ledger token next))

/-- The compliance hook writes nothing. -/
theorem complianceHook_run (w : World) (tc : TokenClass) (ownerDid : Str) :
    Statements.complianceHook P E tc ownerDid w =
      match Tokens.complianceHook P E w.draws w.credentials tc ownerDid with
      | .error e => .error e w
      | .ok (.passed claim next) => .ok (.passed claim next) { w with draws := next }
      | .ok (.refused next) => .ok (.refused next) { w with draws := next } := by
  simp only [Statements.complianceHook, get_bind]
  cases Tokens.complianceHook P E w.draws w.credentials tc ownerDid with
  | error e => rfl
  | ok gate => cases gate <;> rfl

theorem mintToken_mints (w : World) (input : MintInput) :
    Mints (Statements.mintToken P E input) w
      (Tokens.mintToken P E w.draws w.credentials w.tokenclasses w.tokens w.ledger input) := by
  unfold Tokens.mintToken
  cases hclass : getTokenClass w.tokenclasses input.tokenClass with
  | none =>
    apply Mints.refused
    simp [Statements.mintToken, hclass]
  | some tc =>
    dsimp only
    have hhook := complianceHook_run (P := P) (E := E) w tc input.ownerDid
    cases hgate : Tokens.complianceHook P E w.draws w.credentials tc input.ownerDid with
    | error e =>
      rw [hgate] at hhook
      apply Mints.throws (n := w.draws)
      simp only [Statements.mintToken, get_bind, hclass, bind_error hhook]
    | ok gate =>
      rw [hgate] at hhook
      cases gate with
      | refused next =>
        apply Mints.refused
        simp [Statements.mintToken, hclass, bind_ok hhook]
      | passed claim next =>
        simp only [except_ok_bind]
        split
        · next hvalid =>
          apply Mints.ok
          simp [Statements.mintToken, hclass, bind_ok hhook, hvalid, bind_ok (recordMint_run _ _)]
          exact ⟨rfl, rfl, rfl⟩
        · next hvalid =>
          apply Mints.throws (n := next + 2)
          simp [Statements.mintToken, hclass, bind_ok hhook, hvalid]

theorem transferToken_ok {w : World} {input : TransferInput} {tokens : Tokens.State}
    {ledger : Ledger.State} {txId : Str} {token : TokenInstance}
    (h : Tokens.transferToken P E w.draws w.tokens w.ledger input = .ok tokens ledger txId token) :
    Statements.transferToken P E input w = .ok (.ok txId)
      { w with tokens, ledger, draws := w.draws + transferDraws } := by
  obtain ⟨id, token, hid, hget, howner, hmoved⟩ := Tokens.transferToken_ok h
  have howns : ¬ token.ownerIdent.map Identity.id ≠ some input.fromDid := not_not_intro howner
  simp only [Statements.transferToken, hid, get_bind, hget, if_neg howns]
  cases hmoved
  simp only [bind_ok (recordTransfer_run _ _), onTokens_bind, write_get _ hget,
    write_set, draw_bind]
  rfl

theorem transferToken_refused {w : World} {input : TransferInput} {code : TransferCode}
    {message : Str}
    (h : Tokens.transferToken P E w.draws w.tokens w.ledger input = .refused code message) :
    Statements.transferToken P E input w = .ok (.refused code message) w := by
  unfold Tokens.transferToken at h
  unfold Statements.transferToken
  cases hid : input.tokenId with
  | none =>
    rw [hid] at h
    cases h
    rfl
  | some id =>
    cases hget : w.tokens.byId.get id with
    | none =>
      simp [hid, hget] at h
      simp [hget, h]
    | some token =>
      simp only [hid, Option.bind_some, hget, Option.map_some] at h
      split at h
      · next howner =>
        cases h
        simp only [get_bind, hget, if_pos howner]
        rfl
      · cases h

/-! ### The handlers -/

theorem accountCreate_does (w : World) (context : Option Json)
    (payload : Store.RegistrationRequest) :
    Does (Statements.accountCreate P E context payload) w
      (Handlers.accountCreate P E w context payload) := by
  unfold Statements.accountCreate Handlers.accountCreate
  split
  · exact .answers rfl
  · split
    · next htaken =>
      apply Does.answers
      simp [htaken]
      rfl
    · next htaken =>
      apply Does.answers
      simp [htaken, bind_ok (createAccount_run _ _)]
      rfl

theorem issuing_does (w : World) (context : Option Json) (input : IssueInput) :
    Does (tryCatch
      (do Statements.ok E context (.credential (← Statements.issueCredential P E input)) 201)
      fun e => Statements.fail E context 500 (lit "ISSUE_FAILED") (P.message e)) w
      (match Credentials.issueCredential P E w.draws w.credentials input with
        | .ok (credentials, credential) =>
          reply E { w with credentials, draws := w.draws + issueDraws } context
            (.credential credential) 201
        | .error e =>
          refuse E { w with draws := w.draws + issueDraws } context 500 (lit "ISSUE_FAILED")
            (P.message e)) := by
  have hrun := issueCredential_run (P := P) (E := E) w input
  split
  · next hissue =>
    rw [hissue] at hrun
    apply Does.answers
    exact tryCatch_ok (bind_ok hrun)
  · next hissue =>
    rw [hissue] at hrun
    apply Does.answers
    exact tryCatch_error (bind_error hrun)

theorem credentialIssue_does (w : World) (context payload : Option Json) :
    Does (Statements.credentialIssue P E context payload) w
      (Handlers.credentialIssue P E w context payload) := by
  simp only [Statements.credentialIssue, Handlers.credentialIssue]
  generalize readProp? payload (lit "holderDid") = holderDid
  split
  · exact .answers rfl
  · cases holderDid with
    | none => exact .throws (m := w.draws) (n := w.draws) rfl
    | some v =>
      cases v with
      | str holderDid =>
        dsimp only
        split
        · exact .answers rfl
        · exact issuing_does w context (issueInput payload holderDid)
      | _ => exact .throws (m := w.draws) (n := w.draws) rfl

theorem credentialRevoke_does (w : World) (context payload : Option Json) :
    Does (Statements.credentialRevoke E context payload) w
      (Handlers.credentialRevoke E w context payload) := by
  unfold Statements.credentialRevoke Handlers.credentialRevoke
  split
  · next e he =>
    apply Does.throws (m := w.draws) (n := w.draws)
    simp [he]
  · next credentialId hid =>
    split
    · next hrevoke =>
      apply Does.answers
      simp [hid, bind_ok (revokeCredential_some hrevoke)]
      rfl
    · next hrevoke =>
      split
      · next e he =>
        apply Does.throws (m := w.draws) (n := w.draws)
        simp [hid, bind_ok (revokeCredential_none hrevoke), he]
      · next text htext =>
        apply Does.answers
        simp [hid, bind_ok (revokeCredential_none hrevoke), htext]
        rfl

theorem tokenClassRegister_does (w : World) (context : Option Json)
    (payload : RegisterTokenClassInput) :
    Does (Statements.tokenClassRegister P E context payload) w
      (Handlers.tokenClassRegister P E w context payload) := by
  unfold Statements.tokenClassRegister Handlers.tokenClassRegister
  split
  · exact .answers rfl
  · split
    · next hexists =>
      apply Does.answers
      simp [hexists]
      rfl
    · next hexists =>
      apply Does.answers
      simp [hexists]
      rfl

theorem tokenMint_does (w : World) (context : Option Json) (payload : MintTokenRequest) :
    Does (Statements.tokenMint P E context payload) w
      (Handlers.tokenMint P E w context payload) := by
  apply withAccount_does
  intro account
  have hmints := mintToken_mints (P := P) (E := E) w (mintInput account.did payload)
  split
  · next e he =>
    rw [he] at hmints
    cases hmints with
    | throws hrun => exact .throws (n := w.draws) (bind_error hrun)
  · next he =>
    rw [he] at hmints
    cases hmints with
    | refused hrun => exact .answers (bind_ok hrun)
  · next he =>
    rw [he] at hmints
    cases hmints with
    | ok hrun => exact .answers (bind_ok hrun)

theorem tokenTransact_does (w : World) (context : Option Json) (payload : TransactRequest) :
    Does (Statements.tokenTransact P E context payload) w
      (Handlers.tokenTransact P E w context payload) := by
  apply withAccount_does
  intro account
  split
  · exact .answers rfl
  · simp only
    split
    · exact .answers rfl
    · split
      · next hrecipient =>
        apply Does.answers
        simp [hrecipient]
        rfl
      · next recipient hrecipient =>
        unfold transferTo
        split
        · next hrefused =>
          apply Does.answers
          simp [hrecipient, bind_ok (transferToken_refused hrefused)]
          rfl
        · next hok =>
          apply Does.answers
          simp [hrecipient, bind_ok (transferToken_ok hok)]
          rfl

theorem reading_does (w : World) (request : Request) :
    Does (reading fun w => Handlers.handle P E w request) w (Handlers.handle P E w request) := by
  have hchange := handle_change (P := P) (E := E) w request
  cases hresult : Handlers.handle P E w request with
  | mk w' outcome =>
    rw [hresult] at hchange
    cases outcome with
    | answered response =>
      apply Does.answers
      rw [reading, hresult]
    | threw e =>
      cases hchange with
      | quiet =>
        apply Does.throws
        rw [reading, hresult]

/-- **Every handler does, statement by statement, what `Handlers` says it does.** -/
theorem handle_does (w : World) (request : Request) :
    Does (Statements.handle P E request) w (Handlers.handle P E w request) := by
  obtain ⟨context, payload⟩ := request
  cases payload with
  | accountCreate payload => exact accountCreate_does w context payload
  | credentialIssue payload => exact credentialIssue_does w context payload
  | credentialRevoke payload => exact credentialRevoke_does w context payload
  | tokenClassRegister payload => exact tokenClassRegister_does w context payload
  | tokenMint payload => exact tokenMint_does w context payload
  | tokenTransact payload => exact tokenTransact_does w context payload
  | checkAvailability address => exact .answers rfl
  | credentialIssuer => exact .answers rfl
  | _ => exact reading_does w ⟨context, _⟩

/-! ### Refusals -/

/-- How a request ends that is not granted: with a failed response, or with a throw. -/
def Refused : EStateM.Result Thrown World (Response Body) → Prop
  | .ok response _ => response.context.status = .failed
  | .error _ _ => True

/-- The world that a run leaves behind. -/
def left {α : Type} : EStateM.Result Thrown World α → World
  | .ok _ w => w
  | .error _ w => w

theorem Does.refused {s : Statement (Response Body)} {w w' : World} {response : Response Body}
    (h : Does s w (w', .answered response)) (hfailed : response.context.status = .failed) :
    Refused (s w) := by
  cases h with
  | answers hrun =>
    rw [hrun]
    exact hfailed

/-- A change whose response failed is none. -/
theorem failed_quiet {w w' : World} {request : Request} {response : Response Body}
    (h : Change P E w request w' (.answered response))
    (hfailed : response.context.status = .failed) :
    w'.toStores = w.toStores := by
  cases h with
  | quiet => rfl
  | _ => cases hfailed

/-- **A refused request changes nothing.** Whatever the world and the request, when the
statements of the handler end in a failed response or in a throw, every store is as it was. -/
theorem refused_unchanged (w : World) (request : Request)
    (h : Refused (Statements.handle P E request w)) :
    (left (Statements.handle P E request w)).toStores = w.toStores := by
  have hdoes := handle_does (P := P) (E := E) w request
  have hchange := handle_change (P := P) (E := E) w request
  cases hresult : Handlers.handle P E w request with
  | mk w' outcome =>
    rw [hresult] at hdoes hchange
    cases hdoes with
    | answers hrun =>
      rw [hrun] at h ⊢
      exact failed_quiet hchange h
    | throws hrun =>
      rw [hrun]
      rfl

/-- Alice, who holds no credential, is refused a deed. -/
theorem mintDeed_refused (h : Reliable P E) :
    Refused (Statements.handle P E (mintRequest E)
      (after P E [⟨none, .accountCreate alice⟩, ⟨none, .accountCreate bob⟩])) := by
  have hclass : (seed P E).get (mintInput (aliceAccount P E).did deedPayload).tokenClass =
      some (propDeed P E) :=
    seed_propDeed P E
  have hgate : Tokens.complianceHook P E 14 .empty (propDeed P E) (aliceAccount P E).did =
    .ok (.refused 14) := rfl
  obtain ⟨message, hmint⟩ := mintToken_of_refused .empty .empty hclass hgate
  have hresult : Handlers.handle P E
      (after P E [⟨none, .accountCreate alice⟩, ⟨none, .accountCreate bob⟩]) (mintRequest E) =
      refuse E (after P E [⟨none, .accountCreate alice⟩, ⟨none, .accountCreate bob⟩])
      (bearer (Store.accessTokenAt E 5)) 403 (lit "COMPLIANCE_CHECK_FAILED") message := by
    rw [after_accounts, mintRequest]
    simp only [Handlers.handle, Handlers.tokenMint, Handlers.withAccount, alice_tokenAccount h]
    rw [show (service P E).initial = ⟨initialStores P E, 2⟩ from rfl]
    simp only [initialStores, hmint]
    rfl
  have hdoes := handle_does (P := P) (E := E)
    (after P E [⟨none, .accountCreate alice⟩, ⟨none, .accountCreate bob⟩]) (mintRequest E)
  rw [hresult] at hdoes
  exact hdoes.refused rfl

/-- Two accounts are open and no credential is issued. -/
theorem refused_unchanged_deed :
    (left (Statements.handle Reference.primitives Reference.env (mintRequest Reference.env)
      (after Reference.primitives Reference.env
        [⟨none, .accountCreate alice⟩, ⟨none, .accountCreate bob⟩]))).toStores =
      (after Reference.primitives Reference.env
        [⟨none, .accountCreate alice⟩, ⟨none, .accountCreate bob⟩]).toStores :=
  refused_unchanged _ _ (mintDeed_refused reliable_reference)

end Wayfinder.Service.Statements
