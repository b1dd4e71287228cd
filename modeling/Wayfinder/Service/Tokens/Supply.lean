import Wayfinder.Service.Tokens.Owners

/-! How much of a class an owner holds.

An owner's holding is what the supplies of the owner's tokens add up to. Supplies are texts
and nothing in the service counts with them, so the lemmas are about any reading of them as
quantities. A token that is written over changes what is held by what it counted before and
counts now (`held_set`); a transfer takes a token's whole supply along. -/
namespace Wayfinder.Service.Tokens

open Js Credentials TokenClasses

variable {M : Type} [AddCommGroup M] (value : Str → M)

/-- What the tokens that meet a condition hold together. -/
def held (s : State) (p : TokenInstance → Bool) : M :=
  ((s.byId.values.filter p).map fun token => value token.state.supply.circulatingSupply).sum

def TokenInstance.ownerDid (token : TokenInstance) : Option Str := token.ownerIdent.map Identity.id

/-- What an owner holds of a class. -/
def holding (s : State) (tokenClass did : Str) : M :=
  held value s fun token => token.metadata.tokenClass == tokenClass && token.ownerDid == some did

/-- The owners of the stored tokens. -/
def ownerDids (s : State) : Finset Str := (s.byId.values.filterMap TokenInstance.ownerDid).toFinset

/-- What all owners hold of a class. -/
def totalHeld (s : State) (tokenClass : Str) : M :=
  ∑ did ∈ ownerDids s, holding value s tokenClass did

/-! ### What is held -/

/-- What a token counts under a condition. -/
def counted (p : TokenInstance → Bool) (token : TokenInstance) : M :=
  if p token then value token.state.supply.circulatingSupply else 0

theorem held_eq (s : State) (p : TokenInstance → Bool) :
    held value s p = (s.byId.values.map (counted value p)).sum := by
  rw [held]
  induction s.byId.values with
  | nil => rfl
  | cons token rest ih =>
    rw [List.map_cons, List.sum_cons, ← ih, counted, List.filter_cons]
    split
    · rw [List.map_cons, List.sum_cons]
    · rw [zero_add]

/-- Each token of an owner among some counts for that owner alone. -/
theorem sum_counted {dids : Finset Str} {token : TokenInstance}
    (h : ∀ did, token.ownerDid = some did → did ∈ dids) (p : TokenInstance → Bool) :
    ∑ did ∈ dids, counted value (fun token => p token && token.ownerDid == some did) token =
      counted value (fun token => p token && token.ownerDid.isSome) token := by
  cases howner : token.ownerDid with
  | none => simp [counted, howner]
  | some owner =>
    have hmem := h owner howner
    cases hp : p token <;> simp [counted, howner, hp, hmem]

/-- All owners together hold what the owned tokens do. -/
theorem totalHeld_eq (s : State) (tokenClass : Str) : totalHeld value s tokenClass =
    held value s fun token => token.metadata.tokenClass == tokenClass && token.ownerDid.isSome := by
  have howners : ∀ token ∈ s.byId.values, ∀ did, token.ownerDid = some did → did ∈ ownerDids s := by
    intro token htoken did hdid
    exact List.mem_toFinset.mpr (List.mem_filterMap.mpr ⟨token, htoken, hdid⟩)
  simp only [totalHeld, holding, held_eq]
  generalize ownerDids s = dids at howners ⊢
  generalize s.byId.values = tokens at howners ⊢
  induction tokens with
  | nil => simp
  | cons token rest ih =>
    obtain ⟨htoken, hrest⟩ := List.forall_mem_cons.mp howners
    simp only [List.map_cons, List.sum_cons, Finset.sum_add_distrib]
    rw [sum_counted value htoken, ih hrest]

/-- A token that is written over counts no more, and the one written counts. -/
theorem held_set {s : State} {id : Str} {token : TokenInstance} (hget : s.byId.get id = some token)
    (moved : TokenInstance) (index : JsMap Str (JsSet Str)) (p : TokenInstance → Bool) :
    held value ⟨s.byId.set id moved, index⟩ p =
      held value s p - counted value p token + counted value p moved := by
  rw [held_eq, held_eq]
  exact JsMap.sum_set_old moved hget _

/-! ### Transfers -/

variable {P : Primitives} {E : Env} {s : State} {id fromDid : Str} {token : TokenInstance}

theorem TokenInstance.ownerDid_movedTo (howner : token.ownerDid = some fromDid)
    (toDid stateCommitment now : Str) :
    (token.movedTo toDid stateCommitment now).ownerDid = some toDid := by
  refine ownerIdent_setOwner ?_
  obtain ⟨identity, hidentity, _⟩ := Option.map_eq_some_iff.mp howner
  exact Option.isSome_of_mem hidentity

/-- The supply of a token that is moved leaves the holding of its owner for that of the
recipient, who may be the owner. -/
theorem holding_moveToken (hget : s.byId.get id = some token)
    (howner : token.ownerDid = some fromDid) (n : Nat) (ledger : Ledger.State) (toDid did : Str) :
    holding value (moveToken P E n s ledger id token fromDid toDid).1 token.metadata.tokenClass
      did = holding value s token.metadata.tokenClass did - (if fromDid = did then
      value token.state.supply.circulatingSupply else 0) + if toDid = did then
      value token.state.supply.circulatingSupply else 0 := by
  have hmoved := TokenInstance.ownerDid_movedTo howner toDid
  rw [moveToken_eq, holding, held_set value hget]
  simp only [counted, howner, hmoved]
  simp [TokenInstance.movedTo, holding]

/-- A transfer changes nothing about what all owners hold. -/
theorem totalHeld_moveToken (hget : s.byId.get id = some token)
    (howner : token.ownerDid = some fromDid) (n : Nat) (ledger : Ledger.State)
    (toDid tokenClass : Str) :
    totalHeld value (moveToken P E n s ledger id token fromDid toDid).1 tokenClass =
      totalHeld value s tokenClass := by
  have hmoved := TokenInstance.ownerDid_movedTo howner toDid
  rw [totalHeld_eq, totalHeld_eq, moveToken_eq, held_set value hget]
  simp only [counted, howner, hmoved]
  simp [TokenInstance.movedTo]

end Wayfinder.Service.Tokens
