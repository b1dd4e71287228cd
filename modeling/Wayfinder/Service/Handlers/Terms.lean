import Wayfinder.Service.Handlers.History
import Wayfinder.Service.Handlers.Issuance
import Wayfinder.Service.Handlers.Sessions

/-! What is stored stays as it was stored.

The stores have no deletion, and their updates write little: a revocation writes the status of a
credential, a transfer the owner, the commitment and the time of a token. Everything else of an
account, a class, a credential or a token is in every later state what it was (`terms_kept`). -/
namespace Wayfinder.Service.Handlers

open Js Envelope Credentials TokenClasses Tokens

/-! ### The terms of a token -/

/-- A token without what a transfer writes: its owners, its commitment and the time of its
update. -/
def termsOf (token : TokenInstance) : TokenInstance :=
  { token with
    metadata := { token.metadata with updatedAt := [] }
    identities := token.identities.filter (·.type != lit "owner")
    state := { token.state with stateCommitment := none } }

theorem filter_setOwner (toDid : Str) (identities : List Identity) :
    (setOwner toDid identities).filter (·.type != lit "owner") =
      identities.filter (·.type != lit "owner") := by
  induction identities with
  | nil => rfl
  | cons i rest ih =>
    rw [setOwner]
    split
    · next howner =>
      have howner : (i.type != lit "owner") = false := by simp [bne, howner]
      rw [List.filter_cons_of_neg (by simp [howner]), List.filter_cons_of_neg (by simp [howner])]
    · rw [List.filter_cons, List.filter_cons, ih]

theorem termsOf_movedTo (token : TokenInstance) (toDid stateCommitment now : Str) :
    termsOf (token.movedTo toDid stateCommitment now) = termsOf token := by
  rw [termsOf, termsOf, TokenInstance.movedTo, filter_setOwner]

section
variable {token token' : TokenInstance}

theorem id_of_terms (h : termsOf token' = termsOf token) : token'.id = token.id :=
  show (termsOf token').id = (termsOf token).id from congrArg TokenInstance.id h

theorem class_of_terms (h : termsOf token' = termsOf token) :
    token'.metadata.tokenClass = token.metadata.tokenClass :=
  show (termsOf token').metadata.tokenClass = (termsOf token).metadata.tokenClass from
    congrArg (fun token => token.metadata.tokenClass) h

theorem claims_of_terms (h : termsOf token' = termsOf token) : token'.claims = token.claims :=
  show (termsOf token').claims = (termsOf token).claims from congrArg TokenInstance.claims h

end

variable {P : Primitives} {E : Env}

/-! ### Steps -/

/-- A token keeps its terms. -/
theorem terms_change {w w' : World} {request : Request} {outcome : Outcome}
    (hchange : Change P E w request w' outcome) (hfresh : E.FreshIds w'.draws) (h : Recorded P E w)
    {id : Str} {token : TokenInstance} (hget : w.tokens.byId.get id = some token) :
    ∃ token', w'.tokens.byId.get id = some token' ∧ termsOf token' = termsOf token := by
  cases hchange with
  | minted haccount hmint =>
    obtain ⟨tc, claim, m, log, _, _, hm, rfl, hbyId, rfl, rfl, _⟩ := mintToken_writes hmint
    have hunborn :=
      (h.unborn hfresh (show w.draws ≤ m + 1 by omega) (Nat.lt_trans (by omega) (lt_mintDraws m))).1
    refine ⟨token, ?_, rfl⟩
    rw [hbyId]
    exact JsMap.get_set_new _ hunborn hget
  | @moved _ _ account recipient movedId _ found _ _ _ _ _ hfound _ =>
    rw [moveToken_eq]
    by_cases he : movedId = id
    · subst he
      rw [hget, Option.some.injEq] at hfound
      subst hfound
      exact ⟨_, JsMap.get_set_self _ _ _, termsOf_movedTo ..⟩
    · exact ⟨token, (JsMap.get_set_ne _ _ he).trans hget, rfl⟩
  | _ => exact ⟨token, hget, rfl⟩

/-- A registered class stays. -/
theorem class_change {w w' : World} {request : Request} {outcome : Outcome}
    (hchange : Change P E w request w' outcome) {name : Str} {tc : TokenClass}
    (hget : w.tokenclasses.get name = some tc) : w'.tokenclasses.get name = some tc := by
  cases hchange with
  | registered hnew => exact JsMap.get_set_new _ hnew hget
  | _ => exact hget

/-! ### Runs -/

theorem token_kept (pre post : List Request) (hids : E.FreshIds (after P E (pre ++ post)).draws)
    {id : Str} {token : TokenInstance} (hget : (after P E pre).tokens.byId.get id = some token) :
    ∃ token', (after P E (pre ++ post)).tokens.byId.get id = some token' ∧
      termsOf token' = termsOf token := by
  refine (continue_invariant (F := E.FreshIds) (I := fun w => Recorded P E w ∧ ∃ token',
    w.tokens.byId.get id = some token' ∧ termsOf token' = termsOf token) (fun hmn h => h.mono hmn)
    (fun hchange hfresh h => ⟨recorded_change hchange hfresh h.1, ?_⟩) pre post hids
    ⟨recorded_after pre (hids.mono (draws_le_append pre post)), token, hget, rfl⟩).2
  obtain ⟨hrecorded, token', hget', hterms⟩ := h
  obtain ⟨token'', hget'', hterms'⟩ := terms_change hchange hfresh hrecorded hget'
  exact ⟨token'', hget'', hterms'.trans hterms⟩

theorem class_kept (pre post : List Request) {name : Str} {tc : TokenClass}
    (hget : (after P E pre).tokenclasses.get name = some tc) :
    (after P E (pre ++ post)).tokenclasses.get name = some tc :=
  continue_invariant (F := fun _ => True) (I := fun w => w.tokenclasses.get name = some tc)
    (fun _ _ => trivial) (fun hchange _ h => class_change hchange h) pre post trivial hget

/-- A credential is what it was, or that revoked. -/
theorem credential_kept (pre post : List Request)
    (hids : E.FreshIds (after P E (pre ++ post)).draws) {id : Str} {credential : CredentialToken}
    (hget : (after P E pre).credentials.get id = some credential) :
    ∃ credential', (after P E (pre ++ post)).credentials.get id = some credential' ∧
      (credential' = credential ∨ credential' = credential.revoked) := by
  have hpre := stored_after pre (hids.mono (draws_le_append pre post))
  have hpost := stored_after (pre ++ post) hids
  obtain ⟨i, hi, rfl, rfl⟩ := hpre.mem_get.mp hget
  have hgrows : ∀ id, id ∈ revocations (history P E pre) →
      id ∈ revocations (history P E (pre ++ post)) := by
    intro id hid
    rw [history_append, revocations, List.filterMap_append]
    exact List.mem_append_left _ hid
  have hi' : i ∈ issuances (history P E (pre ++ post)) := by
    rw [history_append, issuances, List.filterMap_append]
    exact List.mem_append_left _ hi
  refine ⟨_, hpost.mem_get.mpr ⟨i, hi', rfl, rfl⟩, ?_⟩
  by_cases hrevoked : i.credential.id ∈ revocations (history P E (pre ++ post))
  · right
    rw [stored_revoked, Issuance.stored, if_pos hrevoked]
  · left
    rw [Issuance.stored, if_neg hrevoked, Issuance.stored, if_neg fun h => hrevoked (hgrows _ h)]

/-- **What is stored stays as it was stored.** In every later state of every run, an account is the
same account under the same address, access token and key, a class is the same class, a credential
is the same or the same revoked, and a token differs at most in its owner, its commitment and the
time of its update. -/
theorem terms_kept (hb : P.Base58) (pre post : List Request)
    (hids : E.FreshIds (after P E (pre ++ post)).draws)
    (hkeys : E.FreshKeys P (after P E (pre ++ post)).draws) :
    KeepsAccounts (after P E pre).accounts (after P E (pre ++ post)).accounts ∧
      (∀ name tc, (after P E pre).tokenclasses.get name = some tc →
        (after P E (pre ++ post)).tokenclasses.get name = some tc) ∧
      (∀ id credential, (after P E pre).credentials.get id = some credential →
        ∃ credential', (after P E (pre ++ post)).credentials.get id = some credential' ∧
          (credential' = credential ∨ credential' = credential.revoked)) ∧
      ∀ id token, (after P E pre).tokens.byId.get id = some token →
        ∃ token', (after P E (pre ++ post)).tokens.byId.get id = some token' ∧
          termsOf token' = termsOf token :=
  ⟨keepsAccounts_after hb pre post hids hkeys, fun _ _ hget => class_kept pre post hget,
    fun _ _ hget => credential_kept pre post hids hget,
    fun _ _ hget => token_kept pre post hids hget⟩

/-- Alice's deed keeps its terms when it is Bob's. -/
theorem terms_kept_deed : ∃ token', (after Reference.primitives Reference.env
    (deedBefore Reference.primitives Reference.env none ++ [mintRequest Reference.env] ++
      [moveRequest Reference.primitives Reference.env none])).tokens.byId.get
        (newDeed Reference.primitives Reference.env none).id = some token' ∧
      termsOf token' = termsOf (deed Reference.primitives Reference.env none) := by
  have hkeys :
      Reference.env.FreshKeys Reference.primitives (after Reference.primitives Reference.env
        (deedBefore Reference.primitives Reference.env none ++ [mintRequest Reference.env] ++
          [moveRequest Reference.primitives Reference.env none])).draws := by
    rw [List.append_assoc, List.singleton_append, after_move reliable_reference none]
    exact Reference.freshKeys (show 44 ≤ 256 by decide)
  refine (terms_kept Reference.base58 _ [moveRequest Reference.primitives Reference.env none]
    (Reference.freshIds _) hkeys).2.2.2 _ _ ?_
  rw [after_mint reliable_reference none]
  exact deed_minted

end Wayfinder.Service.Handlers
