import Mathlib

/-! A register of title, in its own terms.

Parties open an entry under a name and get a session that speaks for them; an asset is issued to the
party that asks for it, and its holder alone may pass it to another name. A `Book` is what such a
register knows: whom each name and each session stands for, and who has held each asset, first to
last. It carries what makes it a register: no party has two names, and whoever speaks or has held
something has one.

`Step` says which answers a register may give to an act and what becomes of the book; a refusal is
allowed exactly when the act was not. From the acts alone then follows who held what
(`Runs.chain_eq`), and that nobody passes on an asset twice without getting it back in between
(`Runs.no_double_spend`). -/
namespace Wayfinder.Custody

@[ext]
structure Book (Name Party Session Asset : Type) where
  party : Name → Option Party
  session : Session → Option Party
  /-- Who has held an asset, first to last. -/
  chain : Asset → List Party
  distinct : ∀ {m n p}, party m = some p → party n = some p → m = n
  speaker : ∀ {s p}, session s = some p → ∃ n, party n = some p
  held : ∀ {a p}, p ∈ chain a → ∃ n, party n = some p

/-- What is asked of a register, with its answer. -/
inductive Act (Name Party Session Asset : Type) where
  | opened (name : Name) (session : Session)
  | openRefused (name : Name)
  | issued (session : Session) (asset : Asset)
  | moved (session : Session) (asset : Asset) (recipient : Name)
  | moveRefused (session : Option Session) (asset : Asset) (recipient : Name)
  | available (name : Name) (answer : Bool)
  | resolved (name : Name) (answer : Option Party)
  | told (session : Option Session) (answer : Option Party)
  | owned (asset : Asset) (answer : Option Party)
  | listed (session : Option Session) (answer : Option (List Asset))
  | traced (asset : Asset) (answer : List Party)
  | other

variable {Name Party Session Asset : Type}

namespace Book

def empty : Book Name Party Session Asset where
  party := fun _ => none
  session := fun _ => none
  chain := fun _ => []
  distinct := fun h => nomatch h
  speaker := fun h => nomatch h
  held := fun h => absurd h List.not_mem_nil

def holder (b : Book Name Party Session Asset) (a : Asset) : Option Party := (b.chain a).getLast?

def said (b : Book Name Party Session Asset) (s : Option Session) : Option Party := s.bind b.session

/-- The session speaks for the holder, and the name stands for someone. -/
def MayMove (b : Book Name Party Session Asset) (s : Option Session) (a : Asset)
    (recipient : Name) : Prop :=
  ∃ p q, b.said s = some p ∧ b.holder a = some p ∧ b.party recipient = some q

/-- The assets that a party holds, each once. -/
def Holdings (b : Book Name Party Session Asset) (p : Party) (assets : List Asset) : Prop :=
  assets.Nodup ∧ ∀ a, a ∈ assets ↔ b.holder a = some p

/-- What a book says it goes on saying, and chains only grow. -/
structure Extends (b b' : Book Name Party Session Asset) : Prop where
  party : ∀ {n p}, b.party n = some p → b'.party n = some p
  session : ∀ {s p}, b.session s = some p → b'.session s = some p
  chain : ∀ a, b.chain a <+: b'.chain a

theorem Extends.refl (b : Book Name Party Session Asset) : b.Extends b :=
  ⟨id, id, fun _ => List.prefix_rfl⟩

theorem Extends.trans {b₀ b₁ b₂ : Book Name Party Session Asset} (h : b₀.Extends b₁)
    (h' : b₁.Extends b₂) :
    b₀.Extends b₂ :=
  ⟨fun hp => h'.party (h.party hp), fun hs => h'.session (h.session hs),
    fun a => (h.chain a).trans (h'.chain a)⟩

variable {b : Book Name Party Session Asset}

section
variable [DecidableEq Name] [DecidableEq Session]

/-- A new party gets a name and a session. -/
def enter (b : Book Name Party Session Asset) (n : Name) (s : Session) (p : Party)
    (hn : b.party n = none) (hp : ∀ m, b.party m ≠ some p) : Book Name Party Session Asset where
  party := Function.update b.party n (some p)
  session := Function.update b.session s (some p)
  chain := b.chain
  distinct := by
    intro k l q hk hl
    rw [Function.update_apply] at hk hl
    split at hk <;> split at hl
    · next hkn hln => exact hkn.trans hln.symm
    · exact absurd (hl.trans hk.symm) (hp l)
    · exact absurd (hk.trans hl.symm) (hp k)
    · exact b.distinct hk hl
  speaker := by
    intro t q ht
    rw [Function.update_apply] at ht
    split at ht
    · exact ⟨n, by rw [Function.update_self, ht]⟩
    · obtain ⟨m, hm⟩ := b.speaker ht
      exact ⟨m, by rw [Function.update_of_ne (fun he => by rw [he, hn] at hm; cases hm), hm]⟩
  held := by
    intro a q hq
    obtain ⟨m, hm⟩ := b.held hq
    exact ⟨m, by rw [Function.update_of_ne (fun he => by rw [he, hn] at hm; cases hm), hm]⟩

theorem party_enter {n : Name} {s : Session} {p : Party} (hn : b.party n = none)
    (hp : ∀ m, b.party m ≠ some p) (m : Name) :
    (b.enter n s p hn hp).party m = if m = n then some p else b.party m :=
  Function.update_apply ..

theorem session_enter {n : Name} {s : Session} {p : Party} (hn : b.party n = none)
    (hp : ∀ m, b.party m ≠ some p) (t : Session) :
    (b.enter n s p hn hp).session t = if t = s then some p else b.session t :=
  Function.update_apply ..

theorem extends_enter {n : Name} {s : Session} {p : Party} (hn : b.party n = none)
    (hs : b.session s = none) (hp : ∀ m, b.party m ≠ some p) : b.Extends (b.enter n s p hn hp) where
  party := by
    intro m q hm
    rw [party_enter, if_neg (fun he => by rw [he, hn] at hm; cases hm)]
    exact hm
  session := by
    intro t q ht
    rw [session_enter, if_neg (fun he => by rw [he, hs] at ht; cases ht)]
    exact ht
  chain := fun _ => List.prefix_rfl

end

section
variable [DecidableEq Asset]

/-- An asset goes to a party that has a name. -/
def pass (b : Book Name Party Session Asset) (a : Asset) (p : Party)
    (hp : ∃ n, b.party n = some p) :
    Book Name Party Session Asset where
  party := b.party
  session := b.session
  chain := Function.update b.chain a (b.chain a ++ [p])
  distinct := b.distinct
  speaker := b.speaker
  held := by
    intro c q hq
    rw [Function.update_apply] at hq
    split at hq
    · rcases List.mem_append.mp hq with hq | hq
      · exact b.held hq
      · rwa [List.mem_singleton.mp hq]
    · exact b.held hq

theorem chain_pass (a c : Asset) (p : Party) (hp : ∃ n, b.party n = some p) :
    (b.pass a p hp).chain c = b.chain c ++ if c = a then [p] else [] := by
  show Function.update b.chain a (b.chain a ++ [p]) c = _
  rw [Function.update_apply]
  split
  · next he => rw [he]
  · rw [List.append_nil]

theorem extends_pass (a : Asset) (p : Party) (hp : ∃ n, b.party n = some p) :
    b.Extends (b.pass a p hp) where
  party := id
  session := id
  chain := fun c => by
    rw [chain_pass]
    exact List.prefix_append _ _

end

end Book

variable [DecidableEq Name] [DecidableEq Session] [DecidableEq Asset]

/-- The answers a register may give. Who a newcomer is, and which session and asset are new, is
the register's to choose. -/
inductive Step (Allowed : Name → Prop) (b : Book Name Party Session Asset) :
    Act Name Party Session Asset → Book Name Party Session Asset → Prop where
  | opened {n s p} (hallowed : Allowed n) (hn : b.party n = none) (hs : b.session s = none)
      (hp : ∀ m, b.party m ≠ some p) : Step Allowed b (.opened n s) (b.enter n s p hn hp)
  | openRefused {n} (h : ¬ (Allowed n ∧ b.party n = none)) : Step Allowed b (.openRefused n) b
  | issued {s a p} (hs : b.session s = some p) (ha : b.chain a = []) :
      Step Allowed b (.issued s a) (b.pass a p (b.speaker hs))
  | moved
      {s a n p q} (hs : b.session s = some p) (ha : b.holder a = some p) (hn : b.party n = some q) :
      Step Allowed b (.moved s a n) (b.pass a q ⟨n, hn⟩)
  | moveRefused {s a n} (h : ¬ b.MayMove s a n) : Step Allowed b (.moveRefused s a n) b
  | available {n answer} (h : answer = (b.party n).isNone) : Step Allowed b (.available n answer) b
  | resolved {n answer} (h : answer = b.party n) : Step Allowed b (.resolved n answer) b
  | told {s answer} (h : answer = b.said s) : Step Allowed b (.told s answer) b
  | owned {a answer} (h : answer = b.holder a) : Step Allowed b (.owned a answer) b
  | listed {s p assets} (hs : b.said s = some p) (h : b.Holdings p assets) :
      Step Allowed b (.listed s (some assets)) b
  | unlisted {s} (hs : b.said s = none) : Step Allowed b (.listed s none) b
  | traced {a answer} (h : answer = b.chain a) : Step Allowed b (.traced a answer) b
  | other : Step Allowed b .other b

/-- Acts in a row, from one book to another. -/
inductive Runs (Allowed : Name → Prop) :
    Book Name Party Session Asset → List (Act Name Party Session Asset) →
      Book Name Party Session Asset → Prop where
  | nil {b} : Runs Allowed b [] b
  | cons {b b₁ b' act acts} (h : Step Allowed b act b₁) (hrest : Runs Allowed b₁ acts b') :
      Runs Allowed b (act :: acts) b'

variable {Allowed : Name → Prop} {b b₁ b' : Book Name Party Session Asset}
  {act : Act Name Party Session Asset} {acts : List (Act Name Party Session Asset)}

theorem Runs.append {post : List (Act Name Party Session Asset)} (h : Runs Allowed b acts b₁)
    (h' : Runs Allowed b₁ post b') : Runs Allowed b (acts ++ post) b' := by
  induction h with
  | nil => exact h'
  | cons hstep _ ih => exact .cons hstep (ih h')

theorem Runs.snoc (h : Runs Allowed b acts b₁) (hstep : Step Allowed b₁ act b') :
    Runs Allowed b (acts ++ [act]) b' := h.append (.cons hstep .nil)

/-- A run through two lists of acts has a book in between. -/
theorem Runs.split {pre post : List (Act Name Party Session Asset)}
    (h : Runs Allowed b (pre ++ post) b') :
    ∃ b₁, Runs Allowed b pre b₁ ∧ Runs Allowed b₁ post b' := by
  induction pre generalizing b with
  | nil => exact ⟨b, .nil, h⟩
  | cons act pre ih =>
    cases h with
    | cons hstep hrest =>
      obtain ⟨b₁, hpre, hpost⟩ := ih hrest
      exact ⟨b₁, .cons hstep hpre, hpost⟩

/-! ### What a step keeps -/

theorem Step.extends (h : Step Allowed b act b') : b.Extends b' := by
  cases h with
  | opened _ hn hs hp => exact Book.extends_enter hn hs hp
  | issued hs _ => exact Book.extends_pass _ _ (b.speaker hs)
  | moved _ _ hn => exact Book.extends_pass _ _ ⟨_, hn⟩
  | _ => exact .refl b

theorem Runs.extends (h : Runs Allowed b acts b') : b.Extends b' := by
  induction h with
  | nil => exact .refl _
  | cons hstep _ ih => exact hstep.extends.trans ih

/-! ### Who got what -/

/-- Who receives an asset by an act, as a book tells who the act names. -/
def Book.receiver (b : Book Name Party Session Asset) (a : Asset) :
    Act Name Party Session Asset → Option Party
  | .issued s c => if a = c then b.session s else none
  | .moved _ c n => if a = c then b.party n else none
  | _ => none

/-- One step appends the receiver of its act, whatever later book tells who that is. -/
theorem Step.chain_eq (h : Step Allowed b act b₁) (hext : b₁.Extends b') (a : Asset) :
    b₁.chain a = b.chain a ++ (b'.receiver a act).toList := by
  cases h with
  | @issued s c p hs _ =>
    rw [Book.chain_pass, Book.receiver,
      hext.session (show (b.pass c p _).session s = some p from hs)]
    split <;> rfl
  | @moved s c n p q _ _ hn =>
    rw [Book.chain_pass, Book.receiver, hext.party (show (b.pass c q _).party n = some q from hn)]
    split <;> rfl
  | _ => exact (List.append_nil _).symm

/-- **Who has held an asset is read from the acts alone.** -/
theorem Runs.chain_eq (h : Runs Allowed b acts b') (a : Asset) :
    b'.chain a = b.chain a ++ acts.filterMap (b'.receiver a) := by
  induction h with
  | nil => exact (List.append_nil _).symm
  | @cons b b₁ b' act acts hstep hrest ih =>
    rw [ih, hstep.chain_eq hrest.extends a, List.append_assoc, List.filterMap_cons]
    cases b'.receiver a act <;> rfl

/-- An asset that someone has held is not issued again. -/
theorem Runs.not_issued (h : Runs Allowed b acts b') {a : Asset} (ha : b.chain a ≠ [])
    (s : Session) :
    Act.issued s a ∉ acts := by
  induction h with
  | nil => exact List.not_mem_nil
  | @cons b b₁ b' act acts hstep _ ih =>
    intro hmem
    rcases List.mem_cons.mp hmem with rfl | hmem
    · cases hstep with
      | issued _ hnone => exact ha hnone
    · refine ih (fun hnone => ha ?_) hmem
      have := hstep.extends.chain a
      rwa [hnone, List.prefix_nil] at this

/-- Whoever moved an asset had a session. -/
theorem Runs.session_known (h : Runs Allowed b acts b') {s : Session} {a : Asset} {n : Name}
    (hmem : Act.moved s a n ∈ acts) : ∃ p, b'.session s = some p := by
  obtain ⟨pre, post, rfl⟩ := List.append_of_mem hmem
  obtain ⟨b₁, _, hrest⟩ := h.split
  cases hrest with
  | cons hstep hrest =>
    cases hstep with
    | moved hs _ hn => exact ⟨_, ((Book.extends_pass a _ ⟨_, hn⟩).trans hrest.extends).session hs⟩

/-- **Nobody passes an asset on twice without getting it back.** Of two moves of an asset for one
party, the first or one between them went to that party. -/
theorem Runs.no_double_spend {pre mid post : List (Act Name Party Session Asset)} {s s' : Session}
    {a : Asset} {n n' : Name} {p : Party}
    (h : Runs Allowed b (pre ++ .moved s a n :: (mid ++ .moved s' a n' :: post)) b')
    (hs' : b'.session s' = some p) :
    ∃ t m, Act.moved t a m ∈ .moved s a n :: mid ∧ b'.party m = some p := by
  obtain ⟨b₀, _, hfrom⟩ := h.split
  rw [← List.cons_append] at hfrom
  obtain ⟨b₂, hmid, hlast⟩ := hfrom.split
  -- at the second move the asset is the party's
  have hholder : b₂.holder a = some p := by
    cases hlast with
    | cons hstep hrest =>
      cases hstep with
      | moved hs ha hn =>
        have := ((Book.extends_pass a _ ⟨_, hn⟩).trans hrest.extends).session hs
        rw [hs', Option.some.injEq] at this
        rwa [this]
  have hext := hlast.extends
  cases hmid with
  | @cons _ b₁ _ _ _ hstep hrest =>
    have hchain := hrest.chain_eq a
    have hone : b₁.chain a ≠ [] := by
      cases hstep with
      | moved _ _ hn =>
        rw [Book.chain_pass, if_pos rfl]
        exact List.append_ne_nil_of_right_ne_nil _ (List.cons_ne_nil _ _)
    have hnot := fun t => hrest.not_issued hone t
    have hall : b₂.chain a = b₀.chain a ++ (Act.moved s a n :: mid).filterMap (b₂.receiver a) :=
      (Runs.cons hstep hrest).chain_eq a
    -- what the two moves enclose is not empty: its last receiver is the party
    have hne : (Act.moved s a n :: mid).filterMap (b₂.receiver a) ≠ [] := by
      cases hstep with
      | moved _ _ hn =>
        rw [List.filterMap_cons, Book.receiver, if_pos rfl, hrest.extends.party hn]
        exact List.cons_ne_nil _ _
    rw [Book.holder, hall, List.getLast?_append_of_ne_nil _ hne] at hholder
    obtain ⟨act, hact, hreceiver⟩ := List.mem_filterMap.mp (List.mem_of_getLast? hholder)
    cases act with
    | issued t c =>
      rw [Book.receiver] at hreceiver
      split at hreceiver
      · next he =>
        subst he
        rcases List.mem_cons.mp hact with he | hact
        · cases he
        · exact absurd hact (hnot t)
      · cases hreceiver
    | moved t c m =>
      rw [Book.receiver] at hreceiver
      split at hreceiver
      · next he =>
        subst he
        exact ⟨t, m, hact, hext.party hreceiver⟩
      · cases hreceiver
    | _ => cases hreceiver

end Wayfinder.Custody
