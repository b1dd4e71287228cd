import Wayfinder.Service.Ledger.Records
import Wayfinder.Service.Tokens

/-! What minting and transferring come down to.

A mint that succeeds passed the compliance hook, built a token that the schema accepts and
stored it with its record (`mintToken_ok`); one that fails for compliance was refused by
the hook (`mintToken_refused`). A transfer that succeeds moves a token that the sender owns
(`transferToken_ok`). -/
namespace Wayfinder.Service.Tokens

open Js Credentials TokenClasses
open Ledger (TokenTransaction mintTransaction transferTransaction newLog)

variable (P : Primitives) (E : Env)

/-- The record of a token's mint. -/
def mintOf (n : Nat) (token : TokenInstance) (ownerDid : Str) : TokenTransaction :=
  mintTransaction P E n ⟨token.id, ownerDid, claimsDigestOf P token⟩

/-- The record of a token's transfer. -/
def transferOf (n : Nat) (token : TokenInstance) (fromDid toDid : Str) : TokenTransaction :=
  transferTransaction P E n
    ⟨token.id, fromDid, toDid, token.state.stateCommitment.getD [], claimsDigestOf P token⟩

/-- A token with the state commitment of a record. -/
def TokenInstance.committedTo (token : TokenInstance) (tx : TokenTransaction) : TokenInstance :=
  token.withCommitment tx.stateAfter.stateCommitment

variable {P E}

theorem storeMinted_eq (n : Nat) (s : State) (ledger : Ledger.State) (ownerDid : Str)
    (token : TokenInstance) :
    storeMinted P E n s ledger ownerDid token =
      (⟨s.byId.set token.id (token.committedTo (mintOf P E n token ownerDid)),
        addTo s.ownerToIds ownerDid token.id⟩, ledger.append P (mintOf P E n token ownerDid) (newLog
          P E (n + 3) (mintOf P E n token ownerDid).txId ownerDid (mintOf P E n token ownerDid)),
        token.committedTo (mintOf P E n token ownerDid)) :=
  rfl

theorem moveToken_eq (n : Nat) (s : State) (ledger : Ledger.State) (id : Str)
    (token : TokenInstance) (fromDid toDid : Str) :
    moveToken P E n s ledger id token fromDid toDid =
      (⟨s.byId.set id (token.movedTo toDid (transferOf P E n token fromDid
        toDid).stateAfter.stateCommitment (E.now (n + Ledger.recordDraws))),
        addTo (removeFrom s.ownerToIds fromDid token.id) toDid token.id⟩,
        ledger.append P (transferOf P E n token fromDid toDid)
          (newLog P E (n + 3) (transferOf P E n token fromDid toDid).txId fromDid
            (transferOf P E n token fromDid toDid)), (transferOf P E n token fromDid toDid).txId,
        token.movedTo toDid (transferOf P E n token fromDid toDid).stateAfter.stateCommitment
          (E.now (n + Ledger.recordDraws))) :=
  rfl

/-- A search stops at a credential that is valid, and else goes on behind it. -/
theorem findValid_cons {n next : Nat} {s : Credentials.State} {c : CredentialToken}
    {rest : List CredentialToken} {found : Option CredentialToken}
    (h : findValid P E n s (c :: rest) = .ok (found, next)) :
    ∃ result, verifyCredential P E n s c.toJson = .ok result ∧
      (result.valid = true ∧ found = some c ∧ next = n + 1 ∨
        result.valid = false ∧ findValid P E (n + 1) s rest = .ok (found, next)) := by
  simp only [findValid, bind_ok] at h
  obtain ⟨result, hresult, h⟩ := h
  refine ⟨result, hresult, ?_⟩
  split at h
  · next hvalid =>
    cases h
    exact Or.inl ⟨hvalid, rfl, rfl⟩
  · next hvalid => exact Or.inr ⟨Bool.eq_false_iff.mpr hvalid, h⟩

theorem findValid_next {n next : Nat} {s : Credentials.State} {cs : List CredentialToken}
    {found : Option CredentialToken} (h : findValid P E n s cs = .ok (found, next)) : n ≤ next := by
  induction cs generalizing n with
  | nil =>
    cases h
    exact Nat.le_refl _
  | cons c rest ih =>
    obtain ⟨_, _, ⟨_, _, rfl⟩ | ⟨_, h⟩⟩ := findValid_cons h
    · exact Nat.le_succ _
    · exact Nat.le_of_succ_le (ih h)

theorem findValid_mem {n next : Nat} {s : Credentials.State} {cs : List CredentialToken}
    {c : CredentialToken} (h : findValid P E n s cs = .ok (some c, next)) : c ∈ cs := by
  induction cs generalizing n with
  | nil => cases h
  | cons d rest ih =>
    obtain ⟨_, _, ⟨_, hc, _⟩ | ⟨_, h⟩⟩ := findValid_cons h
    · rw [Option.some.inj hc]
      exact List.mem_cons_self ..
    · exact List.mem_cons_of_mem d (ih h)

/-- What is found is valid. -/
theorem findValid_valid {n next : Nat} {s : Credentials.State} {cs : List CredentialToken}
    {c : CredentialToken} (h : findValid P E n s cs = .ok (some c, next)) :
    ∃ m result, verifyCredential P E m s c.toJson = .ok result ∧ result.valid = true := by
  induction cs generalizing n with
  | nil => cases h
  | cons d rest ih =>
    obtain ⟨result, hresult, ⟨hvalid, hc, _⟩ | ⟨_, h⟩⟩ := findValid_cons h
    · rw [Option.some.inj hc]
      exact ⟨n, result, hresult, hvalid⟩
    · exact ih h

/-- The hook lets a mint pass without a claim where none is asked for, else with the first
claim of the credential it found. -/
theorem complianceHook_passed {n m : Nat} {credentials : Credentials.State} {tc : TokenClass}
    {ownerDid : Str} {claim : Option Vc}
    (h : complianceHook P E n credentials tc ownerDid = .ok (.passed claim m)) :
    n ≤ m ∧ (tc.requiresKYC = false ∧ claim = none ∨ tc.requiresKYC = true ∧
      ∃ credential, validCredentialFor P E n credentials ownerDid = .ok (some credential, m) ∧
        claim = credential.claims.head?) := by
  unfold complianceHook at h
  split at h
  · next hkyc =>
    obtain ⟨⟨found, next⟩, hfound, h⟩ := bind_ok.mp h
    cases found with
    | none => cases h
    | some credential =>
      cases h
      exact ⟨findValid_next hfound, .inr ⟨hkyc, credential, hfound, rfl⟩⟩
  · next hkyc =>
    cases h
    exact ⟨Nat.le_refl _, .inl ⟨by simpa using hkyc, rfl⟩⟩

theorem complianceHook_refused {n m : Nat} {credentials : Credentials.State} {tc : TokenClass}
    {ownerDid : Str} :
    complianceHook P E n credentials tc ownerDid = .ok (.refused m) ↔
      tc.requiresKYC = true ∧ validCredentialFor P E n credentials ownerDid = .ok (none, m) := by
  unfold complianceHook
  split
  · next hkyc =>
    rw [bind_ok]
    refine ⟨fun h => ?_, fun h => ?_⟩
    · obtain ⟨⟨found, next⟩, hfound, h⟩ := h
      cases found with
      | none =>
        cases h
        exact ⟨hkyc, hfound⟩
      | some credential => cases h
    · obtain ⟨_, hfound⟩ := h
      exact ⟨_, hfound, rfl⟩
  · next hkyc =>
    refine ⟨fun h => ?_, fun h => ?_⟩
    · cases h
    · obtain ⟨h, _⟩ := h
      exact absurd h hkyc

/-- A mint that succeeds: the class is there, the hook passed, the schema accepted the token,
and the token is stored with its record. -/
theorem mintToken_ok {n next : Nat} {credentials : Credentials.State} {classes : TokenClasses.State}
    {s s' : State} {ledger ledger' : Ledger.State} {input : MintInput} {token : TokenInstance}
    (h : mintToken P E n credentials classes s ledger input = .ok (.ok s' ledger' token next)) :
    ∃ tc claim m, classes.get input.tokenClass = some tc ∧
      complianceHook P E n credentials tc input.ownerDid = .ok (.passed claim m) ∧
      validateToken P (newToken P E m tc claim input).toJson = true ∧ (s', ledger', token) =
        storeMinted P E (m + 2) s ledger input.ownerDid (newToken P E m tc claim input) ∧
      next = m + 2 + Ledger.recordDraws := by
  unfold mintToken at h
  split at h
  · cases h
  · next tc htc =>
    obtain ⟨gate, hgate, h⟩ := bind_ok.mp h
    cases gate with
    | refused next => cases h
    | passed claim m =>
      simp only at h
      split at h
      · next hvalid =>
        cases h
        exact ⟨tc, claim, m, htc, hgate, hvalid, rfl, rfl⟩
      · cases h

/-- What a mint that succeeds writes: the token under its id, committed to its record, and the
record with its log. -/
theorem mintToken_writes {n next : Nat} {credentials : Credentials.State}
    {classes : TokenClasses.State} {s s' : State} {ledger ledger' : Ledger.State}
    {input : MintInput} {token : TokenInstance}
    (h : mintToken P E n credentials classes s ledger input = .ok (.ok s' ledger' token next)) :
    ∃ tc claim m log, classes.get input.tokenClass = some tc ∧
      complianceHook P E n credentials tc input.ownerDid = .ok (.passed claim m) ∧ n ≤ m ∧
      token = (newToken P E m tc claim input).committedTo
        (mintOf P E (m + 2) (newToken P E m tc claim input) input.ownerDid) ∧
      s'.byId = s.byId.set (newToken P E m tc claim input).id token ∧ ledger' =
        ledger.append P (mintOf P E (m + 2) (newToken P E m tc claim input) input.ownerDid) log ∧
      next = m + 2 + Ledger.recordDraws ∧ log = newLog P E (m + 5)
        (mintOf P E (m + 2) (newToken P E m tc claim input) input.ownerDid).txId input.ownerDid
        (mintOf P E (m + 2) (newToken P E m tc claim input) input.ownerDid) := by
  obtain ⟨tc, claim, m, htc, hgate, _, hstored, hnext⟩ := mintToken_ok h
  rw [storeMinted_eq, Prod.mk.injEq, Prod.mk.injEq] at hstored
  obtain ⟨rfl, rfl, rfl⟩ := hstored
  exact ⟨tc, claim, m, _, htc, hgate, (complianceHook_passed hgate).1, rfl, rfl, rfl, hnext, rfl⟩

/-- A mint that is refused: the class is not there, or the hook refused. -/
theorem mintToken_refused {n next : Nat} {credentials : Credentials.State}
    {classes : TokenClasses.State} {s : State} {ledger : Ledger.State} {input : MintInput}
    {code : MintCode} {message : Str}
    (h : mintToken P E n credentials classes s ledger input = .ok (.refused code message next)) :
    classes.get input.tokenClass = none ∧ code = .classNotFound ∧ next = n ∨
      ∃ tc, classes.get input.tokenClass = some tc ∧ code = .complianceCheckFailed ∧
        complianceHook P E n credentials tc input.ownerDid = .ok (.refused next) := by
  unfold mintToken at h
  split at h
  · next hnone =>
    cases h
    exact .inl ⟨hnone, rfl, rfl⟩
  · next tc htc =>
    obtain ⟨gate, hgate, h⟩ := bind_ok.mp h
    cases gate with
    | refused next =>
      cases h
      exact .inr ⟨tc, htc, rfl, hgate⟩
    | passed claim m =>
      simp only at h
      split at h <;> cases h

theorem mintToken_succeeds {n m : Nat} {credentials : Credentials.State}
    {classes : TokenClasses.State} (s : State) (ledger : Ledger.State) {input : MintInput}
    {tc : TokenClass} {claim : Option Vc} (hclass : classes.get input.tokenClass = some tc)
    (hgate : complianceHook P E n credentials tc input.ownerDid = .ok (.passed claim m))
    (hvalid : validateToken P (newToken P E m tc claim input).toJson = true) :
    mintToken P E n credentials classes s ledger input =
      .ok (.ok (storeMinted P E (m + 2) s ledger input.ownerDid (newToken P E m tc claim input)).1
        (storeMinted P E (m + 2) s ledger input.ownerDid (newToken P E m tc claim input)).2.1
        (storeMinted P E (m + 2) s ledger input.ownerDid (newToken P E m tc claim input)).2.2
        (m + 2 + Ledger.recordDraws)) := by
  simp only [mintToken, getTokenClass, hclass, hgate, bind, Except.bind, hvalid, if_true]
  rfl

theorem mintToken_of_refused {n next : Nat} {credentials : Credentials.State}
    {classes : TokenClasses.State} (s : State) (ledger : Ledger.State) {input : MintInput}
    {tc : TokenClass} (htc : classes.get input.tokenClass = some tc)
    (hgate : complianceHook P E n credentials tc input.ownerDid = .ok (.refused next)) :
    ∃ message, mintToken P E n credentials classes s ledger input =
      .ok (.refused .complianceCheckFailed message next) := by
  simp only [mintToken, getTokenClass, htc, hgate]
  exact ⟨_, rfl⟩

/-- Draws are only ever made. -/
theorem mintToken_next {n next : Nat} {credentials : Credentials.State}
    {classes : TokenClasses.State} {s s' : State} {ledger ledger' : Ledger.State}
    {input : MintInput} {token : TokenInstance}
    (h : mintToken P E n credentials classes s ledger input = .ok (.ok s' ledger' token next)) :
    n ≤ next := by
  obtain ⟨tc, claim, m, _, hgate, _, _, rfl⟩ := mintToken_ok h
  have := (complianceHook_passed hgate).1
  omega

theorem mintToken_refused_next {n next : Nat} {credentials : Credentials.State}
    {classes : TokenClasses.State} {s : State} {ledger : Ledger.State} {input : MintInput}
    {code : MintCode} {message : Str}
    (h : mintToken P E n credentials classes s ledger input = .ok (.refused code message next)) :
    n ≤ next := by
  rcases mintToken_refused h with ⟨_, _, rfl⟩ | ⟨tc, _, _, hgate⟩
  · exact Nat.le_refl _
  · exact findValid_next (complianceHook_refused.mp hgate).2

/-- The first owner identity is the one that is written. -/
theorem ownerIdent_setOwner {identities : List Identity} {toDid : Str}
    (h : (identities.find? (·.type == lit "owner")).isSome) :
    ((setOwner toDid identities).find? (·.type == lit "owner")).map Identity.id = some toDid := by
  induction identities with
  | nil => cases h
  | cons i rest ih =>
    rw [setOwner]
    by_cases hi : i.type == lit "owner"
    · rw [if_pos hi, List.find?_cons_of_pos (by exact hi)]
      rfl
    · rw [if_neg hi, List.find?_cons_of_neg (by exact hi)]
      rw [List.find?_cons_of_neg (by exact hi)] at h
      exact ih h

/-- A transfer that succeeds: the token is there, and the sender is its owner. -/
theorem transferToken_ok {n : Nat} {s s' : State} {ledger ledger' : Ledger.State}
    {input : TransferInput} {txId : Str} {moved : TokenInstance}
    (h : transferToken P E n s ledger input = .ok s' ledger' txId moved) :
    ∃ id token, input.tokenId = some id ∧ s.byId.get id = some token ∧
      token.ownerIdent.map Identity.id = some input.fromDid ∧
      moveToken P E n s ledger id token input.fromDid input.toDid = (s', ledger', txId, moved) := by
  unfold transferToken at h
  split at h
  · cases h
  · next id token hfound =>
    obtain ⟨id', hid, hfound⟩ := Option.bind_eq_some_iff.mp hfound
    obtain ⟨token', hget, hpair⟩ := Option.map_eq_some_iff.mp hfound
    cases hpair
    split at h
    · cases h
    · next howner =>
      cases h
      exact ⟨id, token, hid, hget, by simpa using howner, rfl⟩

end Wayfinder.Service.Tokens
