import Wayfinder.Service.Handlers.History
import Wayfinder.Service.Tokens.Calls
import Wayfinder.Service.Tokens.Owners

/-! Who holds the tokens of a run.

In every run of mints and transfers, and in every run of the service, the stored tokens are
those that were minted, and the sets of their owners are a partition of them
(`tokens_partitioned`). -/
namespace Wayfinder.Service.Handlers

open Js Envelope Credentials TokenClasses Tokens

variable {P : Primitives} {E : Env}

/-! ### The stored tokens -/

/-- A token store whose ids were drawn, in the order given. -/
structure Holds (E : Env) (n : Nat) (ids : List Str) (s : Tokens.State) : Prop where
  indexed : Indexed s
  keys : s.byId.keys = ids
  drawn : ∀ id ∈ ids, Drawn E (lit "urn:uuid:token-") n id

variable {n n' : Nat} {ids : List Str} {s : Tokens.State}

theorem holds_empty : Holds E n [] .empty where
  indexed := indexed_empty
  keys := rfl
  drawn := fun _ h => absurd h List.not_mem_nil

theorem Holds.mono (h : Holds E n ids s) (hn : n ≤ n') : Holds E n' ids s where
  indexed := h.indexed
  keys := h.keys
  drawn := fun id hid => (h.drawn id hid).mono hn

/-- No token has the id that comes next. -/
theorem Holds.unborn (h : Holds E n ids s) (hfresh : E.FreshIds n') {m : Nat} (hn : n ≤ m)
    (hm : m + 1 < n') :
    s.byId.get (lit "urn:uuid:token-" ++ E.uuid (m + 1)) = none := by
  cases hget : s.byId.get (lit "urn:uuid:token-" ++ E.uuid (m + 1)) with
  | none => rfl
  | some token =>
    have hmem : lit "urn:uuid:token-" ++ E.uuid (m + 1) ∈ ids := by
      rw [← h.keys, JsMap.mem_keys, hget]
      rfl
    exact absurd rfl ((h.drawn _ hmem).ne hfresh (show n ≤ m + 1 by omega) hm)

/-- A mint adds its token at the end. -/
theorem Holds.mint (h : Holds E n ids s) (hfresh : E.FreshIds n') {m : Nat} (hn : n ≤ m)
    (hm : m + 1 < n') (ledger : Ledger.State) (tc : TokenClass) (claim : Option Vc)
    (input : MintInput) :
    Holds E n' (ids ++ [(newToken P E m tc claim input).id])
      (storeMinted P E (m + 2) s ledger input.ownerDid (newToken P E m tc claim input)).1 := by
  have hnew : s.byId.get (newToken P E m tc claim input).id = none := h.unborn hfresh hn hm
  refine ⟨h.indexed.mint (m + 2) ledger hnew (newToken_ownedBy P E m tc claim input), ?_,
    fun id hid => ?_⟩
  · rw [storeMinted_eq, ← h.keys]
    exact JsMap.keys_set_new _ hnew
  · rcases List.mem_append.mp hid with hid | hid
    · exact (h.drawn id hid).mono (by omega)
    · rw [List.mem_singleton.mp hid]
      exact ⟨m + 1, hm, rfl⟩

/-- The same of a mint that succeeded. -/
theorem Holds.minted (h : Holds E n ids s) (hfresh : E.FreshIds n') {m : Nat} (hle : n ≤ m)
    (hm : m + 1 < n') {ledger ledger' : Ledger.State} {tc : TokenClass} {claim : Option Vc}
    {input : MintInput} {s' : Tokens.State} {token : TokenInstance}
    (hstored : (s', ledger', token) =
      storeMinted P E (m + 2) s ledger input.ownerDid (newToken P E m tc claim input)) :
    Holds E n' (ids ++ [token.id]) s' := by
  have hholds := h.mint (P := P) hfresh hle hm ledger tc claim input
  have hs :
      s' = (storeMinted P E (m + 2) s ledger input.ownerDid (newToken P E m tc claim input)).1 :=
    congrArg Prod.fst hstored
  have htoken : token.id = (newToken P E m tc claim input).id :=
    congrArg (fun r : Tokens.State × Ledger.State × TokenInstance => r.2.2.id) hstored
  rw [htoken, hs]
  exact hholds

/-- A transfer keeps every token where it stands. -/
theorem Holds.move (h : Holds E n ids s) (hn : n ≤ n') (m : Nat) (ledger : Ledger.State)
    {id fromDid : Str} {token : TokenInstance} (hget : s.byId.get id = some token)
    (howner : token.ownerIdent.map Identity.id = some fromDid) (toDid : Str) :
    Holds E n' ids (moveToken P E m s ledger id token fromDid toDid).1 := by
  refine ⟨h.indexed.move m ledger hget howner toDid, ?_, (h.mono hn).drawn⟩
  rw [moveToken_eq, ← h.keys]
  exact JsMap.keys_set_old _ hget

/-! ### Runs of mints and transfers -/

theorem filterMap_singleton {α β : Type} (f : α → Option β) (a : α) :
    [a].filterMap f = (f a).toList := by
  cases h : f a <;> simp [h]

theorem exists_partner {α β : Type} {R : α → β → Prop} {l : List α} {u : List β}
    (h : List.Forall₂ R l u) {a : α} (ha : a ∈ l) : ∃ b ∈ u, R a b := by
  induction h with
  | nil => cases ha
  | @cons a' b l u hr _ ih =>
    rcases List.mem_cons.mp ha with rfl | ha
    · exact ⟨b, List.mem_cons_self .., hr⟩
    · obtain ⟨b', hb, hr'⟩ := ih ha
      exact ⟨b', List.mem_cons_of_mem b hb, hr'⟩

theorem call_draws_le (v : Vault) (call : Call) : v.draws ≤ (v.call P E call).1.draws := by
  cases call with
  | mint credentials classes input =>
    simp only [Vault.call]
    split
    · exact Nat.le_refl _
    · next hmint => exact mintToken_refused_next hmint
    · next hmint => exact mintToken_next hmint
  | transfer input =>
    simp only [Vault.call]
    split
    · exact Nat.le_refl _
    · exact Nat.le_add_right _ _

/-- A call adds the token that it minted, if any, and loses none. -/
theorem Holds.call {v : Vault} (h : Holds E v.draws ids v.tokens) (call : Call)
    (hfresh : E.FreshIds (v.call P E call).1.draws) :
    Holds E (v.call P E call).1.draws (ids ++ ((v.call P E call).2.mintedId).toList)
      (v.call P E call).1.tokens := by
  have hsame : Holds E v.draws (ids ++ []) v.tokens := by rwa [List.append_nil]
  cases call with
  | mint credentials classes input =>
    simp only [Vault.call] at hfresh ⊢
    split
    · exact hsame
    · next hmint => exact hsame.mono (mintToken_refused_next hmint)
    · next tokens ledger token next hmint =>
      rw [hmint] at hfresh
      obtain ⟨tc, claim, m, _, hgate, _, hstored, rfl⟩ := mintToken_ok hmint
      have hm := (complianceHook_passed hgate).1
      exact h.minted hfresh hm (show m + 1 < m + 2 + Ledger.recordDraws by omega) hstored
  | transfer input =>
    simp only [Vault.call] at hfresh ⊢
    split
    · exact hsame
    · next tokens ledger txId moved htransfer =>
      obtain ⟨id, token, _, hget, howner, hmoved⟩ := transferToken_ok htransfer
      have htokens :
          (moveToken P E v.draws v.tokens v.ledger id token input.fromDid input.toDid).1 = tokens :=
        congrArg Prod.fst hmoved
      show Holds E _ (ids ++ []) tokens
      rw [← htokens]
      exact hsame.move (Nat.le_add_right _ _) v.draws v.ledger hget howner input.toDid

theorem holds_calls (calls : List Call) (hfresh : E.FreshIds ((machine P E).after calls).draws) :
    Holds E ((machine P E).after calls).draws (mintedIds P E calls)
      ((machine P E).after calls).tokens := by
  refine Machine.run_induction (M := machine P E) (F := fun v =>
    E.FreshIds v.draws) (I := fun calls => Holds E ((machine P E).after calls).draws
      (mintedIds P E calls) ((machine P E).after calls).tokens) holds_empty
    (fun v call hv => hv.mono (call_draws_le v call)) (fun calls call hend h => ?_) calls hfresh
  rw [Machine.after_snoc] at hend ⊢
  have hids : mintedIds P E (calls ++ [call]) =
      mintedIds P E calls ++ (((machine P E).after calls).call P E call).2.mintedId.toList := by
    rw [mintedIds, Machine.history_snoc, List.filterMap_append]
    exact congrArg _ (filterMap_singleton ..)
  rw [hids]
  exact h.call call hend

/-! ### Runs of the service -/

/-- The id of the token that the answer to a mint names. -/
def Outcome.mintedId (outcome : Outcome) : Option Str :=
  match outcome.body with
  | some (.submitted submitted) => submitted.tokenId
  | _ => none

theorem mintedId_of_quiet {outcome : Outcome} (h : outcome.reports = false) :
    outcome.mintedId = none := by
  unfold Outcome.mintedId
  split
  · next submitted hbody =>
    rw [Outcome.reports, hbody] at h
    cases h
  · rfl

theorem Holds.change {w w' : World} {request : Request} {outcome : Outcome}
    (h : Holds E w.draws ids w.tokens) (hchange : Change P E w request w' outcome)
    (hfresh : E.FreshIds w'.draws) :
    Holds E w'.draws (ids ++ outcome.mintedId.toList) w'.tokens := by
  have hle := hchange.draws_le
  have hsame : Holds E w'.draws (ids ++ []) w.tokens := by
    rw [List.append_nil]
    exact h.mono hle
  cases hchange with
  | quiet hdraws hquiet =>
    rw [mintedId_of_quiet hquiet]
    exact hsame
  | created => exact hsame
  | issued => exact hsame
  | revoked => exact hsame
  | registered => exact hsame
  | @minted context payload account tokens ledger token next haccount hmint =>
    obtain ⟨tc, claim, m, _, hgate, _, hstored, rfl⟩ := mintToken_ok hmint
    have hm := (complianceHook_passed hgate).1
    have hlt : m + 1 < m + 2 + Ledger.recordDraws + 1 + responseDraws :=
      Nat.lt_trans (by omega) (lt_mintDraws m)
    exact h.minted hfresh hm hlt hstored
  | @moved context payload account recipient id toAddress token haccount hoperation hid hto
      hrecipient hget howner =>
    have hholds :=
      (h.mono hle).move (P := P) (Nat.le_refl _) w.draws w.ledger hget howner recipient.did
    rw [← List.append_nil ids] at hholds
    exact hholds

theorem holds_after (requests : List Request) (hfresh : E.FreshIds (after P E requests).draws) :
    Holds E (after P E requests).draws ((history P E requests).filterMap fun event =>
      event.2.mintedId) (after P E requests).tokens := by
  refine run_induction (F := E.FreshIds) (I := fun requests => Holds E (after P E requests).draws
    ((history P E requests).filterMap fun event => event.2.mintedId) (after P E requests).tokens)
    (fun hmn h => h.mono hmn) (holds_empty.mono (Nat.zero_le _))
    (fun hchange hhistory hend h => ?_) requests hfresh
  rw [hhistory, List.filterMap_append, filterMap_singleton]
  exact h.change hchange hend

/-- **Owners and tokens agree.** After every run of mints and transfers, and after every run
of the service, the stored tokens are the minted ones, each with one owner, and the sets of
the owners are a partition of them. -/
theorem tokens_partitioned :
    (∀ calls : List Call, E.FreshIds ((machine P E).after calls).draws →
      Partitioned ((machine P E).after calls).tokens ∧
      ((machine P E).after calls).tokens.byId.keys = mintedIds P E calls) ∧
      ∀ requests : List Request, E.FreshIds (after P E requests).draws →
        Partitioned (after P E requests).tokens ∧
        (after P E requests).tokens.byId.keys = (history P E requests).filterMap fun event =>
          event.2.mintedId :=
  ⟨fun calls hfresh =>
    ⟨(holds_calls calls hfresh).indexed.partitioned, (holds_calls calls hfresh).keys⟩,
    fun requests hfresh =>
      ⟨(holds_after requests hfresh).indexed.partitioned, (holds_after requests hfresh).keys⟩⟩

/-- A deed that is minted for Alice and given to Bob, call by call. -/
def deedCalls (P : Primitives) (E : Env) : List Call :=
  [.mint (deedWorld P E none).credentials (seed P E) (mintInput (aliceAccount P E).did deedPayload),
    .transfer ⟨some (lit "urn:uuid:token-" ++ E.uuid 2), (aliceAccount P E).did,
      (bobAccount P E).did⟩]

theorem call_mint {v : Vault} {credentials : Credentials.State} {classes : TokenClasses.State}
    {input : MintInput} {tokens : Tokens.State} {ledger : Ledger.State} {token : TokenInstance}
    {next : Nat}
    (h : mintToken P E v.draws credentials classes v.tokens v.ledger input =
      .ok (.ok tokens ledger token next)) :
    v.call P E (.mint credentials classes input) = (⟨tokens, ledger, next⟩, .minted token) := by
  rw [Vault.call, h]

/-- An owner's transfer is accepted. -/
theorem call_transfer {v : Vault} {id fromDid toDid : Str} {token : TokenInstance}
    (hget : v.tokens.byId.get id = some token)
    (howner : token.ownerIdent.map Identity.id = some fromDid) :
    v.call P E (.transfer ⟨some id, fromDid, toDid⟩) =
      (⟨(moveToken P E v.draws v.tokens v.ledger id token fromDid toDid).1,
        (moveToken P E v.draws v.tokens v.ledger id token fromDid toDid).2.1,
        v.draws + transferDraws⟩,
        .moved (moveToken P E v.draws v.tokens v.ledger id token fromDid toDid).2.2.1) := by
  rw [Vault.call, transferToken]
  simp only [Option.bind_some, hget, Option.map_some, howner, ne_eq, not_true, if_false]

/-- Both calls are accepted: the deed is minted, and then it is Bob's. -/
theorem deedCalls_accepted (h : Reliable P E) :
    mintedIds P E (deedCalls P E) = [lit "urn:uuid:token-" ++ E.uuid 2] ∧ ∃ token,
      ((machine P E).after (deedCalls P E)).tokens.byId.get (lit "urn:uuid:token-" ++ E.uuid 2) =
        some token ∧ token.OwnedBy (bobAccount P E).did := by
  obtain ⟨tokens, ledger, token, hmint, hid, hget, howned⟩ : ∃ tokens ledger token,
      mintToken P E 0 (deedWorld P E none).credentials (seed P E) .empty .empty
        (mintInput (aliceAccount P E).did deedPayload) = .ok (.ok tokens ledger token 10) ∧
      token.id = lit "urn:uuid:token-" ++ E.uuid 2 ∧ tokens.byId.get token.id = some token ∧
      token.OwnedBy (aliceAccount P E).did :=
    ⟨_, _, _, mintToken_deed h (Nat.zero_le 44) none, rfl, JsMap.get_set_self _ _ _, rfl⟩
  have hminted :
      (machine P E).step (machine P E).initial (.mint (deedWorld P E none).credentials (seed P E)
        (mintInput (aliceAccount P E).did deedPayload)) = (⟨tokens, ledger, 10⟩, .minted token) :=
    call_mint (v := ⟨.empty, .empty, 0⟩) hmint
  rw [hid] at hget
  have hmoved :
    (machine P E).step ⟨tokens, ledger, 10⟩ (.transfer ⟨some (lit "urn:uuid:token-" ++ E.uuid 2),
      (aliceAccount P E).did, (bobAccount P E).did⟩) = _ := call_transfer hget howned.ownerIdent
  refine ⟨?_, ?_⟩
  · simp only [mintedIds, deedCalls, Machine.history, Machine.trace, hminted, hmoved]
    simp [Answer.mintedId, hid]
  · simp only [deedCalls, Machine.after, Machine.exec, hminted, hmoved, moveToken_eq]
    exact ⟨_, JsMap.get_set_self _ _ _, howned.movedTo _ _ _⟩

/-- The deed goes from Alice to Bob, by the calls and by their requests. -/
theorem tokens_partitioned_deed :
    (Partitioned ((machine Reference.primitives Reference.env).after
      (deedCalls Reference.primitives Reference.env)).tokens ∧
      ((machine Reference.primitives Reference.env).after (deedCalls Reference.primitives
        Reference.env)).tokens.byId.keys = [lit "urn:uuid:token-" ++ Reference.env.uuid 2] ∧
      ∃ token, ((machine Reference.primitives Reference.env).after
        (deedCalls Reference.primitives Reference.env)).tokens.byId.get
        (lit "urn:uuid:token-" ++ Reference.env.uuid 2) = some token ∧
        token.OwnedBy (bobAccount Reference.primitives Reference.env).did) ∧
      Partitioned (after Reference.primitives Reference.env
        (deedBefore Reference.primitives Reference.env none ++ [mintRequest Reference.env,
          moveRequest Reference.primitives Reference.env none])).tokens ∧
      (after Reference.primitives Reference.env
        (deedBefore Reference.primitives Reference.env none ++ [mintRequest Reference.env,
          moveRequest Reference.primitives Reference.env none])).tokens.byId.keys =
        (history Reference.primitives Reference.env
          (deedBefore Reference.primitives Reference.env none ++ [mintRequest Reference.env,
            moveRequest Reference.primitives Reference.env none])).filterMap
        fun event => event.2.mintedId := by
  obtain ⟨hcalls, hkeys⟩ :=
    tokens_partitioned.1 (deedCalls Reference.primitives Reference.env) (Reference.freshIds _)
  obtain ⟨hminted, howned⟩ := deedCalls_accepted reliable_reference
  rw [hminted] at hkeys
  exact ⟨⟨hcalls, hkeys, howned⟩, tokens_partitioned.2 _ (Reference.freshIds _)⟩

end Wayfinder.Service.Handlers
