import Wayfinder.Service.Handlers.Gate
import Wayfinder.Service.Handlers.Holdings
import Wayfinder.Service.Tokens.Form

/-! Whether the tokens of a run satisfy the schemas of their classes.

The stored tokens are the mints of the run, in their order, each in the form of its class
with the data of its request (`instances_after`). So the schema of the class decides at the
request, by the class and the data, and `conforms_iff` says when: the mint itself validates
against the one schema of all tokens only, and `misfit_stored` is a deed that its class's
schema refuses. -/
namespace Wayfinder.Service.Handlers

open Js Envelope Credentials TokenClasses Tokens

/-! ### What conforms -/

/-- Every stored token satisfies the schema that its class declares. -/
def Conforms (w : World) : Prop :=
  ∀ id token, w.tokens.byId.get id = some token →
    ∃ tc, w.tokenclasses.get token.metadata.tokenClass = some tc ∧
      accepts (.obj tc.schema) token.toJson = true

/-- The id and the request of a mint that was accepted. -/
def mintOfEvent (event : Request × Outcome) : Option (Str × MintTokenRequest) :=
  match event.1.payload with
  | .tokenMint payload => event.2.mintedId.map fun id => (id, payload)
  | _ => none

section
variable (P : Primitives) (E : Env)

/-- The accepted mints of a run. -/
def mints (requests : List Request) : List (Str × MintTokenRequest) :=
  (history P E requests).filterMap mintOfEvent

end

/-- A token that a request minted. -/
structure InstanceOf (classes : TokenClasses.State) (payload : MintTokenRequest)
    (token : TokenInstance) : Prop where
  formed : ∃ tc, classes.get payload.tokenClass = some tc ∧ token.Formed tc.requiresKYC
  named : token.metadata.tokenClass = payload.tokenClass
  data : token.data = payload.data.getD []

variable {P : Primitives} {E : Env}

theorem InstanceOf.mono {classes classes' : TokenClasses.State} {payload : MintTokenRequest}
    {token : TokenInstance} (h : InstanceOf classes payload token)
    (hclasses : ∀ {name tc}, classes.get name = some tc → classes'.get name = some tc) :
    InstanceOf classes' payload token where
  formed := by
    obtain ⟨tc, htc, hformed⟩ := h.formed
    exact ⟨tc, hclasses htc, hformed⟩
  named := h.named
  data := h.data

theorem InstanceOf.movedTo {classes : TokenClasses.State} {payload : MintTokenRequest}
    {token : TokenInstance} (h : InstanceOf classes payload token)
    (toDid stateCommitment now : Str) :
    InstanceOf classes payload (token.movedTo toDid stateCommitment now) where
  formed := by
    obtain ⟨tc, htc, hformed⟩ := h.formed
    exact ⟨tc, htc, hformed.movedTo toDid stateCommitment now⟩
  named := h.named
  data := h.data

/-- The entries of a token store are the instances of a list of mints. -/
def Instances (classes : TokenClasses.State) (mints : List (Str × MintTokenRequest))
    (entries : List (Str × TokenInstance)) : Prop :=
  List.Forall₂ (fun mint entry => mint.1 = entry.1 ∧
    InstanceOf classes mint.2 entry.2) mints entries

theorem Instances.mono {classes classes' : TokenClasses.State}
    {mints : List (Str × MintTokenRequest)} {entries : List (Str × TokenInstance)}
    (h : Instances classes mints entries)
    (hclasses : ∀ {name tc}, classes.get name = some tc → classes'.get name = some tc) :
    Instances classes' mints entries := by
  apply List.Forall₂.imp _ h
  intro mint entry hmint
  exact ⟨hmint.1, hmint.2.mono hclasses⟩

/-- A token that moves stays the instance it is. -/
theorem Instances.move {classes : TokenClasses.State} {mints : List (Str × MintTokenRequest)}
    {s : Tokens.State} (h : Instances classes mints s.byId.entries) {id : Str}
    {token : TokenInstance} (hget : s.byId.get id = some token) (toDid stateCommitment now : Str) :
    Instances classes mints (s.byId.set id (token.movedTo toDid stateCommitment now)).entries := by
  have hmem : List.Forall₂ (fun entry mint => entry ∈ s.byId.entries ∧ mint.1 = entry.1 ∧
      InstanceOf classes mint.2 entry.2) s.byId.entries mints :=
    (List.forall₂_and_left _ _).mpr ⟨fun _ h => h, h.flip⟩
  rw [JsMap.entries_set_old _ hget, Instances, List.forall₂_map_right_iff]
  apply List.Forall₂.imp _ hmem.flip
  intro mint entry hentry
  obtain ⟨hentry, hid, hinstance⟩ := hentry
  by_cases hk : entry.1 = id
  · have htoken : s.byId.get id = some entry.2 := JsMap.get_eq_some.mpr (by rwa [← hk])
    rw [hget] at htoken
    cases htoken
    rw [if_pos hk]
    exact ⟨hid.trans hk, hinstance.movedTo toDid stateCommitment now⟩
  · rw [if_neg hk]
    exact ⟨hid, hinstance⟩

/-- The mints of a run are the stored tokens. -/
theorem instances_after (requests : List Request) (hfresh : E.FreshIds (after P E requests).draws) :
    Instances (after P E requests).tokenclasses (mints P E requests)
      (after P E requests).tokens.byId.entries := by
  refine run_induction (F := E.FreshIds) (I := fun requests =>
    Instances (after P E requests).tokenclasses (mints P E requests)
      (after P E requests).tokens.byId.entries) (fun hmn h => h.mono hmn) .nil ?_ requests hfresh
  intro requests request outcome hchange hhistory hfresh h
  have hmints : mints P E (requests ++ [request]) =
      mints P E requests ++ (mintOfEvent (request, outcome)).toList := by
    rw [mints, hhistory, List.filterMap_append, filterMap_singleton]
    rfl
  rw [hmints]
  have hgated := gated_after requests (hfresh.mono hchange.draws_le)
  have hholds := holds_after requests (hfresh.mono hchange.draws_le)
  generalize hw : after P E (requests ++ [request]) = w' at hchange hfresh
  cases hchange with
  | @quiet _ outcome _ hdraws hquiet =>
    have hnone : mintOfEvent (request, outcome) = none := by
      unfold mintOfEvent
      split
      · rw [mintedId_of_quiet hquiet]
        rfl
      · rfl
    rw [hnone, Option.toList_none, List.append_nil]
    exact h
  | created => rwa [show mintOfEvent _ = none from rfl, Option.toList_none, List.append_nil]
  | issued => rwa [show mintOfEvent _ = none from rfl, Option.toList_none, List.append_nil]
  | revoked => rwa [show mintOfEvent _ = none from rfl, Option.toList_none, List.append_nil]
  | registered hnew =>
    rw [show mintOfEvent _ = none from rfl, Option.toList_none, List.append_nil]
    exact h.mono fun hget => JsMap.get_set_new _ hnew hget
  | @minted context payload account tokens ledger token next haccount hmint =>
    obtain ⟨tc, claim, m, log, hclass, _, hm, htoken, hbyId, _, rfl, _⟩ := mintToken_writes hmint
    obtain ⟨hformed, hdata, hnamed⟩ := mintToken_formed hmint hclass
    have hnew : (after P E requests).tokens.byId.get
        (newToken P E m tc claim (mintInput account.did payload)).id = none :=
      hholds.unborn hfresh hm (Nat.lt_trans (by omega) (lt_mintDraws m))
    have hid : token.id = (newToken P E m tc claim (mintInput account.did payload)).id := by
      rw [htoken]
      rfl
    show Instances _ (_ ++ [(token.id, payload)]) tokens.byId.entries
    rw [hbyId, JsMap.entries_set_new _ hnew]
    apply List.rel_append h
    exact .cons ⟨hid, ⟨tc, hclass, hformed⟩, hnamed.trans (hgated.named hclass), hdata⟩ .nil
  | moved haccount hoperation hid hto hrecipient hget howner =>
    rw [show mintOfEvent _ = none from rfl, Option.toList_none, List.append_nil, moveToken_eq]
    exact h.move hget _ _ _

/-! ### When a run conforms -/

/-- An instance satisfies the schema of its class when the class fits the data of its
request. -/
theorem InstanceOf.accepts {classes : TokenClasses.State} {payload : MintTokenRequest}
    {token : TokenInstance} {tc : TokenClass} (h : InstanceOf classes payload token)
    (hclass : classes.get payload.tokenClass = some tc) :
    accepts (.obj tc.schema) token.toJson = fits tc (payload.data.getD []) := by
  obtain ⟨tc', hclass', hformed⟩ := h.formed
  rw [hclass] at hclass'
  cases hclass'
  rw [hformed.accepts, h.data]

/-- **When tokens satisfy the schemas of their classes.** A mint stores a token that the
schema of its class accepts exactly when the class fits the data of the request; and every
stored token of a run satisfies its class's schema exactly when this is so of every mint of
the run. -/
theorem conforms_iff :
    (∀ (n next : Nat) (credentials : Credentials.State) (classes : TokenClasses.State)
      (s s' : Tokens.State) (ledger ledger' : Ledger.State)
      (input : MintInput) (token : TokenInstance) (tc : TokenClass),
      mintToken P E n credentials classes s ledger input = .ok (.ok s' ledger' token next) →
      classes.get input.tokenClass = some tc →
      (accepts (.obj tc.schema) token.toJson = true ↔ fits tc (input.data.getD []) = true)) ∧
      ∀ requests : List Request, E.FreshIds (after P E requests).draws →
        (Conforms (after P E requests) ↔ ∀ mint ∈ mints P E requests, ∀ tc,
          (after P E requests).tokenclasses.get mint.2.tokenClass = some tc →
          fits tc (mint.2.data.getD []) = true) := by
  refine ⟨fun n next credentials classes s s' ledger ledger' input token tc hmint hclass => ?_,
    fun requests hfresh =>
      ⟨fun hconforms mint hmint tc hclass => ?_, fun hfits id token hget => ?_⟩⟩
  · obtain ⟨hformed, hdata, _⟩ := mintToken_formed hmint hclass
    rw [hformed.accepts, hdata]
  · obtain ⟨entry, hentry, _, hinstance⟩ := exists_partner (instances_after requests hfresh) hmint
    obtain ⟨tc', hclass', haccepts⟩ := hconforms entry.1 entry.2 (JsMap.get_eq_some.mpr hentry)
    rw [hinstance.named, hclass] at hclass'
    cases hclass'
    rwa [hinstance.accepts hclass] at haccepts
  · obtain ⟨mint, hmint, _, hinstance⟩ :=
      exists_partner (instances_after requests hfresh).flip (JsMap.get_eq_some.mp hget)
    obtain ⟨tc, hclass, _⟩ := hinstance.formed
    refine ⟨tc, ?_, ?_⟩
    · rw [hinstance.named]
      exact hclass
    · rw [hinstance.accepts hclass]
      exact hfits mint hmint tc hclass

/-- A deed that Alice mints without data, and the run in which she does. -/
theorem conforms_iff_deed :
    (∃ tokens ledger token, mintToken Reference.primitives Reference.env 20
      (deedWorld Reference.primitives Reference.env none).credentials
      (seed Reference.primitives Reference.env) .empty .empty (mintInput
        (aliceAccount Reference.primitives Reference.env).did { deedPayload with data := none }) =
      .ok (.ok tokens ledger token 30) ∧
      (accepts (.obj (propDeed Reference.primitives Reference.env).schema) token.toJson = true ↔
        fits (propDeed Reference.primitives Reference.env) [] = true)) ∧
      (Conforms (after Reference.primitives Reference.env
        (deedBefore Reference.primitives Reference.env none ++ [mintRequest Reference.env])) ↔
        ∀ mint ∈ mints Reference.primitives Reference.env
          (deedBefore Reference.primitives Reference.env none ++ [mintRequest Reference.env]), ∀ tc,
            (after Reference.primitives Reference.env (deedBefore Reference.primitives Reference.env
              none ++ [mintRequest Reference.env])).tokenclasses.get mint.2.tokenClass = some tc →
            fits tc (mint.2.data.getD []) = true) := by
  refine ⟨?_, conforms_iff.2 _ (Reference.freshIds _)⟩
  obtain ⟨tokens, ledger, token, hmint, _⟩ := deed_stored reliable_reference none none
  exact ⟨tokens, ledger, token, hmint,
    conforms_iff.1 _ _ _ _ _ _ _ _ _ _ _ hmint (seed_propDeed _ _)⟩

/-! ### A deed that its class refuses -/

/-- An asset whose id is no string. -/
def misfitData : Fields := [(lit "assetId", .num .zero)]

def misfitRequest (E : Env) : Request :=
  ⟨bearer (Store.accessTokenAt E 5), .tokenMint { deedPayload with data := some misfitData }⟩

theorem misfit_minted (h : Reliable P E) :
    ∃ id token,
      (after P E (deedBefore P E none ++ [misfitRequest E])).tokens.byId.get id = some token ∧
      (after P E (deedBefore P E none ++ [misfitRequest E])).tokenclasses.get
        token.metadata.tokenClass = some (propDeed P E) ∧
      accepts (.obj (propDeed P E).schema) token.toJson = false := by
  obtain ⟨tokens, ledger, token, hmint, hstored⟩ := deed_stored h none (some misfitData)
  obtain ⟨hformed, hdata, hnamed⟩ := mintToken_formed hmint (seed_propDeed P E)
  have hhandle := tokenMint_succeeds (w := deedWorld P E none) (alice_tokenAccount h) hmint
  have hafter : after P E (deedBefore P E none ++ [misfitRequest E]) =
      (handle P E (deedWorld P E none) (misfitRequest E)).1 := by
    rw [after, Machine.after_snoc, ← after_deedBefore h]
    rfl
  rw [hafter, misfitRequest, hhandle]
  refine ⟨token.id, token, hstored, ?_, ?_⟩
  · rw [hnamed]
    exact seed_propDeed P E
  · rw [hformed.accepts, hdata]
    rfl

/-- The run in which Alice mints it: the deed is stored, and the schema of its class refuses
it. -/
theorem misfit_stored : ¬ Conforms (after Reference.primitives Reference.env
    (deedBefore Reference.primitives Reference.env none ++ [misfitRequest Reference.env])) := by
  intro hconforms
  obtain ⟨id, token, hget, hclass, hrefused⟩ := misfit_minted reliable_reference
  obtain ⟨tc, hclass', haccepts⟩ := hconforms id token hget
  rw [hclass] at hclass'
  cases hclass'
  rw [hrefused] at haccepts
  cases haccepts

end Wayfinder.Service.Handlers
