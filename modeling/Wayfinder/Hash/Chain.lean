import Wayfinder.Hash.Binding

/-! What the head of a hash chain commits to.

A chain folds changes into a hash, each over the hash before it, from a genesis that is
no hash. Where the encoding of a hash and a change can be taken apart again, two chains
of any lengths with one head have the same changes (`chain_binding`), or two of the
strings hashed collide. -/
namespace Wayfinder.Hash

variable {α β γ : Type} (hash : β → α) (encode : α → γ → β)

/-- The hash after a list of changes. -/
def chainHead (start : α) (changes : List γ) : α :=
  changes.foldl (fun previous change => hash (encode previous change)) start

/-- The preimages hashed on the way. -/
def chainPreimages (start : α) : List γ → List β
  | [] => []
  | change :: rest => encode start change :: chainPreimages (hash (encode start change)) rest

theorem chainHead_concat (start : α) (changes : List γ) (change : γ) :
    chainHead hash encode start (changes ++ [change]) =
      hash (encode (chainHead hash encode start changes) change) := by
  rw [chainHead, List.foldl_append]
  rfl

theorem chainPreimages_concat (start : α) (changes : List γ) (change : γ) :
    chainPreimages hash encode start (changes ++ [change]) =
      chainPreimages hash encode start changes ++
      [encode (chainHead hash encode start changes) change] := by
  induction changes generalizing start with
  | nil => rfl
  | cons first rest ih =>
    rw [List.cons_append, chainPreimages, chainPreimages, ih, List.cons_append]
    rfl

variable {hash encode}

/-- **One head, one list of changes**, whatever the two lengths. -/
theorem chain_binding {T : List β} (hT : ¬ Collision hash T) {genesis : α}
    (hgenesis : ∀ b, hash b ≠ genesis)
    (hencode : ∀ {p q a b}, encode p a = encode q b → p = q ∧ a = b) {as bs : List γ}
    (ha : chainPreimages hash encode genesis as ⊆ T)
    (hb : chainPreimages hash encode genesis bs ⊆ T)
    (h : chainHead hash encode genesis as = chainHead hash encode genesis bs) : as = bs := by
  -- from the last changes back: equal hashes have equal preimages, and these hold the hashes before
  induction as using List.reverseRecOn generalizing bs with
  | nil =>
    cases bs using List.reverseRecOn with
    | nil => rfl
    | append_singleton bs b =>
      rw [chainHead_concat] at h
      exact absurd h.symm (hgenesis _)
  | append_singleton as a ih =>
    cases bs using List.reverseRecOn with
    | nil =>
      rw [chainHead_concat] at h
      exact absurd h (hgenesis _)
    | append_singleton bs b =>
      rw [chainHead_concat, chainHead_concat] at h
      rw [chainPreimages_concat, List.append_subset] at ha hb
      have hpre :=
        eq_of_hash_eq hT (ha.2 (List.mem_singleton_self _)) (hb.2 (List.mem_singleton_self _)) h
      obtain ⟨hheads, hchange⟩ := hencode hpre
      rw [ih ha.1 hb.1 hheads, hchange]

end Wayfinder.Hash
