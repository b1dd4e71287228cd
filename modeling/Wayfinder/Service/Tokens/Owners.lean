import Wayfinder.Service.Tokens.Minted

/-! Who owns what.

The owner of a token is written twice: as an identity of the token, and as the set of the
index that holds the token's id. `Indexed` says that the two agree: every token has one
owner identity, and its id is in the set of that owner and in no other. Minting adds to one
set, a transfer takes from one and adds to another, which may be the same one. -/
namespace Wayfinder.Service.Tokens

open Js Credentials TokenClasses

/-! ### The sets of the index -/

/-- The ids in the set of an owner; no set is an empty one. -/
def membersOf (index : JsMap Str (JsSet Str)) (ownerDid : Str) : List Str :=
  ((index.get ownerDid).getD .empty).items

theorem membersOf_nodup (index : JsMap Str (JsSet Str)) (ownerDid : Str) :
    (membersOf index ownerDid).Nodup :=
  ((index.get ownerDid).getD .empty).nodup

theorem mem_addTo (index : JsMap Str (JsSet Str)) (ownerDid tokenId did id : Str) :
    id ∈ membersOf (addTo index ownerDid tokenId) did ↔
      id ∈ membersOf index did ∨ did = ownerDid ∧ id = tokenId := by
  rw [membersOf, addTo, JsMap.get_set]
  split
  · next hd =>
    subst hd
    rw [Option.getD_some, JsSet.mem_add, membersOf]
    simp
  · next hd =>
    have hne : did ≠ ownerDid := fun he => hd he.symm
    simp [membersOf, hne]

theorem mem_removeFrom (index : JsMap Str (JsSet Str)) (ownerDid tokenId did id : Str) :
    id ∈ membersOf (removeFrom index ownerDid tokenId) did ↔
      id ∈ membersOf index did ∧ ¬ (did = ownerDid ∧ id = tokenId) := by
  unfold removeFrom
  split
  · next hnone =>
    refine ⟨fun h => ⟨h, fun hd => ?_⟩, fun h => h.1⟩
    rw [hd.1, membersOf, hnone] at h
    exact absurd h List.not_mem_nil
  · next ids hids =>
    rw [membersOf, JsMap.get_set]
    split
    · next hd =>
      subst hd
      rw [Option.getD_some, JsSet.mem_delete, membersOf, hids, Option.getD_some]
      simp
    · next hd =>
      have hne : did ≠ ownerDid := fun he => hd he.symm
      simp [membersOf, hne]

/-! ### Owner identities -/

/-- The identities of a token that say who owns it. -/
def TokenInstance.owners (token : TokenInstance) : List Identity :=
  token.identities.filter (·.type == lit "owner")

/-- The one owner identity of a token. -/
def TokenInstance.OwnedBy (token : TokenInstance) (did : Str) : Prop :=
  token.owners = [⟨did, lit "owner"⟩]

theorem TokenInstance.OwnedBy.unique {token : TokenInstance} {did did' : Str}
    (h : token.OwnedBy did) (h' : token.OwnedBy did') : did = did' := by
  have he := h.symm.trans h'
  simpa using he

/-- The owner that a transfer looks up is the one owner. -/
theorem TokenInstance.OwnedBy.ownerIdent {token : TokenInstance} {did : Str}
    (h : token.OwnedBy did) :
    token.ownerIdent.map Identity.id = some did := by
  rw [TokenInstance.ownerIdent, ← List.head?_filter]
  exact congrArg (fun owners : List Identity => owners.head?.map Identity.id) h

theorem owners_setOwner {identities : List Identity} {did toDid : Str}
    (h : identities.filter (·.type == lit "owner") = [⟨did, lit "owner"⟩]) :
    (setOwner toDid identities).filter (·.type == lit "owner") = [⟨toDid, lit "owner"⟩] := by
  induction identities with
  | nil => cases h
  | cons i rest ih =>
    rw [setOwner]
    by_cases hi : i.type == lit "owner"
    · rw [List.filter_cons_of_pos (by exact hi), List.cons.injEq] at h
      rw [if_pos hi, List.filter_cons_of_pos (by exact hi), h.2, beq_iff_eq.mp hi]
    · rw [List.filter_cons_of_neg (by exact hi)] at h
      rw [if_neg hi, List.filter_cons_of_neg (by exact hi)]
      exact ih h

theorem TokenInstance.OwnedBy.movedTo {token : TokenInstance} {did : Str} (h : token.OwnedBy did)
    (toDid stateCommitment now : Str) : (token.movedTo toDid stateCommitment now).OwnedBy toDid :=
  owners_setOwner h

theorem newToken_ownedBy (P : Primitives) (E : Env) (n : Nat) (tc : TokenClass) (claim : Option Vc)
    (input : MintInput) : (newToken P E n tc claim input).OwnedBy input.ownerDid := by
  have hissuer : (lit "issuer" == lit "owner") = false := by decide
  have hidentities : (newToken P E n tc claim input).identities =
      [⟨(tc.identities.head?.map ClassIdentity.id).getD (issuerInfo P E).did, lit "issuer"⟩,
        ⟨input.ownerDid, lit "owner"⟩] := rfl
  rw [TokenInstance.OwnedBy, TokenInstance.owners,
    hidentities, List.filter_cons_of_neg (by simp [hissuer]),
    List.filter_cons_of_pos (by exact beq_self_eq_true (lit "owner")), List.filter_nil]

/-! ### The invariant -/

/-- Each token stands under its id, has one owner, and its id is in the set of that owner
alone. -/
structure Indexed (s : State) : Prop where
  ids : ∀ {id token}, s.byId.get id = some token → token.id = id
  owned : ∀ {id token}, s.byId.get id = some token → ∃ did, token.OwnedBy did
  index : ∀ {id did}, id ∈ membersOf s.ownerToIds did ↔ ∃ token, s.byId.get id = some token ∧
    token.OwnedBy did

theorem indexed_empty : Indexed .empty where
  ids := fun h => by cases h
  owned := fun h => by cases h
  index := by
    intro id did
    refine ⟨fun h => absurd h List.not_mem_nil, fun h => ?_⟩
    obtain ⟨token, hget, _⟩ := h
    cases hget

/-- Writing a token of an owner keeps the stores in agreement, when the index moves its id
into the set of that owner. -/
theorem Indexed.write {s : State} (h : Indexed s) {id did : Str} {token : TokenInstance}
    {index : JsMap Str (JsSet Str)} (hid : token.id = id) (howned : token.OwnedBy did)
    (hindex : ∀ id' d, id' ∈ membersOf index d ↔ if id' = id then d = did
      else id' ∈ membersOf s.ownerToIds d) :
    Indexed ⟨s.byId.set id token, index⟩ := by
  refine ⟨fun {id' token'} hget => ?_, fun {id' token'} hget => ?_, fun {id' d} => ?_⟩
  · simp only [JsMap.get_set] at hget
    split at hget
    · next he =>
      cases hget
      exact hid.trans he
    · exact h.ids hget
  · simp only [JsMap.get_set] at hget
    split at hget
    · cases hget
      exact ⟨did, howned⟩
    · exact h.owned hget
  · simp only [JsMap.get_set, hindex]
    by_cases he : id' = id
    · rw [if_pos he, if_pos he.symm]
      refine ⟨fun hd => ⟨token, rfl, hd ▸ howned⟩, fun hd => ?_⟩
      obtain ⟨token', htoken, howned'⟩ := hd
      cases htoken
      exact howned'.unique howned
    · rw [if_neg he, if_neg fun hs => he hs.symm]
      exact h.index

variable {P : Primitives} {E : Env}

/-- A mint under a new id adds the token to the set of its owner. -/
theorem Indexed.mint {s : State} (h : Indexed s) (n : Nat) (ledger : Ledger.State) {ownerDid : Str}
    {token : TokenInstance} (hnew : s.byId.get token.id = none) (howned : token.OwnedBy ownerDid) :
    Indexed (storeMinted P E n s ledger ownerDid token).1 := by
  rw [storeMinted_eq]
  refine h.write rfl howned fun id d => ?_
  rw [mem_addTo]
  by_cases he : id = token.id
  · have hfree : id ∉ membersOf s.ownerToIds d := by
      intro hmem
      obtain ⟨token', hget, _⟩ := h.index.mp hmem
      rw [he, hnew] at hget
      cases hget
    simp [he, he ▸ hfree]
  · simp [he]

/-- A transfer takes the token from the set of one owner to the set of the next, also when
they are one. -/
theorem Indexed.move {s : State} (h : Indexed s) (n : Nat) (ledger : Ledger.State)
    {id fromDid : Str} {token : TokenInstance} (hget : s.byId.get id = some token)
    (howner : token.ownerIdent.map Identity.id = some fromDid) (toDid : Str) :
    Indexed (moveToken P E n s ledger id token fromDid toDid).1 := by
  have hid := h.ids hget
  obtain ⟨did, howned⟩ := h.owned hget
  have hdid : did = fromDid := by
    rw [howned.ownerIdent] at howner
    exact Option.some.inj howner
  rw [moveToken_eq]
  refine h.write hid (howned.movedTo toDid _ _) fun id' d => ?_
  rw [mem_addTo, mem_removeFrom, hid]
  by_cases he : id' = id
  · -- the id leaves the only set it was in before it is added
    have hset : id' ∈ membersOf s.ownerToIds d → d = fromDid := by
      intro hmem
      obtain ⟨token', hget', howned'⟩ := h.index.mp hmem
      rw [he, hget] at hget'
      cases hget'
      exact (howned'.unique howned).trans hdid
    rw [if_pos he]
    refine ⟨fun hd => ?_, fun hd => .inr ⟨hd, he⟩⟩
    rcases hd with hd | hd
    · exact absurd ⟨hset hd.1, he⟩ hd.2
    · exact hd.1
  · simp [he]

/-! ### What a query returns -/

/-- The tokens of an owner are read off the owner's set. -/
theorem tokensForOwner_eq (s : State) (did : Str) :
    tokensForOwner s did = (membersOf s.ownerToIds did).filterMap s.byId.get := by
  unfold tokensForOwner membersOf
  split
  · next hnone => rw [hnone]; rfl
  · next ids hids => rw [hids, Option.getD_some]

/-- Every stored token has one owner, and the owners' tokens are the stored ones, each once. -/
structure Partitioned (s : State) : Prop where
  oneOwner : ∀ token ∈ s.byId.values, ∃ owner, token.owners = [owner]
  owned : ∀ did token, token ∈ tokensForOwner s did ↔ token ∈ s.byId.values ∧
    token.owners.map Identity.id = [did]
  once : ∀ did, ((tokensForOwner s did).map TokenInstance.id).Nodup
  partition : ∀ token ∈ s.byId.values, ∃! did, token ∈ tokensForOwner s did

theorem Indexed.mem_tokensForOwner {s : State} (h : Indexed s) {did : Str} {token : TokenInstance} :
    token ∈ tokensForOwner s did ↔ token ∈ s.byId.values ∧ token.OwnedBy did := by
  rw [tokensForOwner_eq, List.mem_filterMap, JsMap.mem_values]
  refine ⟨fun hmem => ?_, fun hmem => ?_⟩
  · obtain ⟨id, hid, hget⟩ := hmem
    obtain ⟨token', hget', howned⟩ := h.index.mp hid
    rw [hget] at hget'
    cases hget'
    exact ⟨⟨id, hget⟩, howned⟩
  · obtain ⟨⟨id, hget⟩, howned⟩ := hmem
    exact ⟨id, h.index.mpr ⟨token, hget, howned⟩, hget⟩

theorem Indexed.partitioned {s : State} (h : Indexed s) : Partitioned s := by
  have howned : ∀ {token}, token ∈ s.byId.values → ∃ did, token.OwnedBy did := by
    intro token htoken
    obtain ⟨id, hget⟩ := JsMap.mem_values.mp htoken
    exact h.owned hget
  refine ⟨fun token htoken => ?_, fun did token => ?_, fun did => ?_, fun token htoken => ?_⟩
  · obtain ⟨did, hdid⟩ := howned htoken
    exact ⟨_, hdid⟩
  · rw [h.mem_tokensForOwner]
    refine and_congr_right fun htoken => ⟨fun hdid => ?_, fun hdid => ?_⟩
    · rw [hdid]
      rfl
    · obtain ⟨did', hdid'⟩ := howned htoken
      rw [hdid', List.map_singleton, List.singleton_inj] at hdid
      exact hdid ▸ hdid'
  · rw [tokensForOwner_eq, List.map_filterMap]
    apply (membersOf_nodup s.ownerToIds did).filterMap
    intro id id' x hx hx'
    obtain ⟨token, hget, rfl⟩ := Option.map_eq_some_iff.mp hx
    obtain ⟨token', hget', he⟩ := Option.map_eq_some_iff.mp hx'
    rw [← h.ids hget, ← h.ids hget', he]
  · obtain ⟨did, hdid⟩ := howned htoken
    refine ⟨did, h.mem_tokensForOwner.mpr ⟨htoken, hdid⟩, fun did' hmem => ?_⟩
    exact (h.mem_tokensForOwner.mp hmem).2.unique hdid

end Wayfinder.Service.Tokens
