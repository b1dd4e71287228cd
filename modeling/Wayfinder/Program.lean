import Wayfinder.Machine

/-! Clients of a machine, among others.

A `Program` calls a machine and goes on with the reply; it may draw values from outside, and it may
run two programs side by side, which fails as soon as one of them does. `Step` runs it among
clients that nothing is known of: before any step others may have sent any inputs, and a call may be
lost before or after the machine took it, in which case the reply is one of the lost ones.

`Meets` says that every result of a program, however it is interleaved, meets a postcondition, and
`Ensures` that every success does, in runs of which something is assumed. They have a rule for each
construct. Two programs side by side need no rule about each other: to either, the other is one
more stranger (`ensures_both`). `alone` runs a program by itself, so every program has an end. -/
namespace Wayfinder

/-- A client that sends inputs `I` and gets replies `R`, draws values `D` and fails with `F`. -/
inductive Program (I R D F : Type) : Type → Type 1 where
  | done {A : Type} (a : A) : Program I R D F A
  | call {A : Type} (input : I) (next : R → Program I R D F A) : Program I R D F A
  | draw {A : Type} (next : D → Program I R D F A) : Program I R D F A
  | both {A B C : Type} (left : Program I R D F (Except F B)) (right : Program I R D F (Except F C))
      (next : Except F (B × C) → Program I R D F A) : Program I R D F A

namespace Program

variable {I R D F A B C : Type}

def bind {A B : Type} : Program I R D F A → (A → Program I R D F B) → Program I R D F B
  | done a, f => f a
  | call input next, f => call input fun r => (next r).bind f
  | draw next, f => draw fun d => (next d).bind f
  | both left right next, f => both left right fun x => (next x).bind f

/-- What comes after a success. -/
def andThen (p : Program I R D F (Except F A)) (f : A → Program I R D F (Except F B)) :
    Program I R D F (Except F B) :=
  p.bind fun
    | .ok a => f a
    | .error e => done (.error e)

/-- A program to its end, a failure or not. -/
def settled (p : Program I R D F (Except F A)) : Program I R D F (Except F (Except F A)) :=
  p.bind fun x => done (.ok x)

/-- One program for each button that is pressed, on what the one before it left. -/
def each {B S : Type} (press : B → S → Program I R D F (Except F S)) :
    List B → S → Program I R D F (Except F S)
  | [], s => done (.ok s)
  | button :: rest, s => (press button s).andThen (each press rest)

variable {S O : Type} (M : Machine S I O) (reply : O → R) (Lost : R → Prop)

/-- What a call is answered after a run. -/
def answer (run : List I) (input : I) : R := reply (M.step (M.after run) input).2

/-- One step of a program or of somebody else. The run is what the machine took, from
anybody. -/
inductive Step : {A : Type} → List I → Program I R D F A → List I → Program I R D F A → Prop where
  | others {A : Type} {run : List I} {p : Program I R D F A} (i : I) : Step run p (run ++ [i]) p
  | answered {A : Type} {run : List I} {i : I} {next : R → Program I R D F A} :
      Step run (call i next) (run ++ [i]) (next (answer M reply run i))
  | lostBefore {A : Type} {run : List I} {i : I} {next : R → Program I R D F A}
      {r : R} (h : Lost r) : Step run (call i next) run (next r)
  | lostAfter {A : Type} {run : List I} {i : I} {next : R → Program I R D F A}
      {r : R} (h : Lost r) : Step run (call i next) (run ++ [i]) (next r)
  | drawn {A : Type} {run : List I} {next : D → Program I R D F A} (d : D) :
      Step run (draw next) run (next d)
  | left {A B C : Type} {run run' : List I}
      {l l' : Program I R D F (Except F B)} {r : Program I R D F (Except F C)}
      {next : Except F (B × C) → Program I R D F A} (h : Step run l run' l') :
      Step run (both l r next) run' (both l' r next)
  | right {A B C : Type} {run run' : List I}
      {l : Program I R D F (Except F B)} {r r' : Program I R D F (Except F C)}
      {next : Except F (B × C) → Program I R D F A} (h : Step run r run' r') :
      Step run (both l r next) run' (both l r' next)
  | failLeft {A B C : Type} {run : List I} {r : Program I R D F (Except F C)}
      {next : Except F (B × C) → Program I R D F A} (e : F) :
      Step run (both (done (.error e)) r next) run (next (.error e))
  | failRight {A B C : Type} {run : List I} {l : Program I R D F (Except F B)}
      {next : Except F (B × C) → Program I R D F A} (e : F) :
      Step run (both l (done (.error e)) next) run (next (.error e))
  | join {A B C : Type} {run : List I}
      {next : Except F (B × C) → Program I R D F A} (b : B) (c : C) :
      Step run (both (done (.ok b)) (done (.ok c)) next) run (next (.ok (b, c)))

/-- Any number of steps. -/
inductive Steps {A : Type} : List I → Program I R D F A → List I → Program I R D F A → Prop where
  | refl {run p} : Steps run p run p
  | head {run p run₁ p₁ run' p'} (h : Step M reply Lost run p run₁ p₁)
      (hrest : Steps run₁ p₁ run' p') : Steps run p run' p'

variable {M reply Lost}

/-- The machine takes one more input, or none. -/
theorem Step.grows {A : Type} {run run' : List I} {p p' : Program I R D F A}
    (h : Step M reply Lost run p run' p') :
    run' = run ∨ ∃ i, run' = run ++ [i] := by
  induction h with
  | others i => exact .inr ⟨i, rfl⟩
  | answered => exact .inr ⟨_, rfl⟩
  | lostAfter => exact .inr ⟨_, rfl⟩
  | left _ ih => exact ih
  | right _ ih => exact ih
  | _ => exact .inl rfl

/-- What one program's step takes is a stranger's input to any other program. -/
theorem Step.stranger {A B : Type} {run run' : List I} {p p' : Program I R D F A}
    (h : Step M reply Lost run p run' p') {run'' : List I} {q q' : Program I R D F B}
    (hrest : Steps M reply Lost run' q run'' q') : Steps M reply Lost run q run'' q' := by
  rcases h.grows with rfl | ⟨i, rfl⟩
  · exact hrest
  · exact .head (.others i) hrest

/-- Others can do anything meanwhile. -/
theorem Steps.idle {A : Type} {run run' : List I} (p : Program I R D F A) (h : run <+: run') :
    Steps M reply Lost run p run' p := by
  obtain ⟨more, rfl⟩ := h
  induction more generalizing run with
  | nil =>
    rw [List.append_nil]
    exact .refl
  | cons i more ih =>
    rw [List.append_cons]
    exact .head (.others i) ih

theorem Steps.trans {A : Type} {run run₁ run' : List I} {p p₁ p' : Program I R D F A}
    (h : Steps M reply Lost run p run₁ p₁) (h' : Steps M reply Lost run₁ p₁ run' p') :
    Steps M reply Lost run p run' p' := by
  induction h with
  | refl => exact h'
  | head hstep _ ih => exact .head hstep (ih h')

theorem Steps.grows {A : Type} {run run' : List I} {p p' : Program I R D F A}
    (h : Steps M reply Lost run p run' p') : run <+: run' := by
  induction h with
  | refl => exact List.prefix_rfl
  | head h _ ih =>
    rcases h.grows with rfl | ⟨i, rfl⟩
    · exact ih
    · exact (List.prefix_append _ _).trans ih

/-! ### What the steps of each construct are -/

theorem steps_done {run run' : List I} {a b : A}
    (h : Steps M reply Lost run (done a : Program I R D F A) run' (done b)) : a = b := by
  generalize hp : (done a : Program I R D F A) = p at h
  generalize hq : (done b : Program I R D F A) = q at h
  induction h with
  | refl =>
    subst hp
    cases hq
    rfl
  | head h _ ih =>
    subst hp
    cases h with
    | others => exact ih rfl hq

theorem steps_call {run run' : List I} {i : I} {next : R → Program I R D F A} {a : A}
    (h : Steps M reply Lost run (call i next) run' (done a)) : ∃ run₁, run <+: run₁ ∧
      (Steps M reply Lost (run₁ ++ [i]) (next (answer M reply run₁ i)) run' (done a) ∨
        ∃ r, Lost r ∧ (Steps M reply Lost run₁ (next r) run' (done a) ∨
          Steps M reply Lost (run₁ ++ [i]) (next r) run' (done a))) := by
  generalize hp : call i next = p at h
  generalize hq : (done a : Program I R D F A) = q at h
  induction h with
  | refl =>
    subst hp
    cases hq
  | head h hrest ih =>
    subst hp hq
    cases h with
    | others =>
      obtain ⟨run₁, hrun, hcases⟩ := ih rfl rfl
      exact ⟨run₁, (List.prefix_append _ _).trans hrun, hcases⟩
    | answered => exact ⟨_, List.prefix_rfl, .inl hrest⟩
    | lostBefore hlost => exact ⟨_, List.prefix_rfl, .inr ⟨_, hlost, .inl hrest⟩⟩
    | lostAfter hlost => exact ⟨_, List.prefix_rfl, .inr ⟨_, hlost, .inr hrest⟩⟩

theorem steps_draw {run run' : List I} {next : D → Program I R D F A} {a : A}
    (h : Steps M reply Lost run (draw next) run' (done a)) :
    ∃ run₁ d, run <+: run₁ ∧ Steps M reply Lost run₁ (next d) run' (done a) := by
  generalize hp : draw next = p at h
  generalize hq : (done a : Program I R D F A) = q at h
  induction h with
  | refl =>
    subst hp
    cases hq
  | head h hrest ih =>
    subst hp hq
    cases h with
    | others =>
      obtain ⟨run₁, d, hrun, hsteps⟩ := ih rfl rfl
      exact ⟨run₁, d, (List.prefix_append _ _).trans hrun, hsteps⟩
    | drawn d => exact ⟨_, d, List.prefix_rfl, hrest⟩

/-- Two programs side by side each run on their own, among one more stranger. -/
theorem steps_both {run run' : List I} {l : Program I R D F (Except F B)}
    {r : Program I R D F (Except F C)} {next : Except F (B × C) → Program I R D F A} {a : A}
    (h : Steps M reply Lost run (both l r next) run' (done a)) :
    ∃ run₁ x, run <+: run₁ ∧ Steps M reply Lost run₁ (next x) run' (done a) ∧
      ((∃ b c, x = .ok (b, c) ∧ Steps M reply Lost run l run₁ (done (.ok b)) ∧
        Steps M reply Lost run r run₁ (done (.ok c))) ∨ ∃ e, x = .error e ∧
          (Steps M reply Lost run l run₁ (done (.error e)) ∨
            Steps M reply Lost run r run₁ (done (.error e)))) := by
  generalize hp : both l r next = p at h
  generalize hq : (done a : Program I R D F A) = q at h
  induction h generalizing l r with
  | refl =>
    subst hp
    cases hq
  | head h hrest ih =>
    subst hp hq
    cases h with
    | others i =>
      obtain ⟨run₁, x, hrun, hsteps, hcases⟩ := ih rfl rfl
      refine ⟨run₁, x, (List.prefix_append _ _).trans hrun, hsteps, ?_⟩
      rcases hcases with ⟨b, c, hx, hl, hr⟩ | ⟨e, hx, hl | hr⟩
      · exact .inl ⟨b, c, hx, .head (.others i) hl, .head (.others i) hr⟩
      · exact .inr ⟨e, hx, .inl (.head (.others i) hl)⟩
      · exact .inr ⟨e, hx, .inr (.head (.others i) hr)⟩
    | left h =>
      obtain ⟨run₁, x, hrun, hsteps, hcases⟩ := ih rfl rfl
      refine ⟨run₁, x, (Steps.head h .refl).grows.trans hrun, hsteps, ?_⟩
      rcases hcases with ⟨b, c, hx, hl, hr⟩ | ⟨e, hx, hl | hr⟩
      · exact .inl ⟨b, c, hx, .head h hl, h.stranger hr⟩
      · exact .inr ⟨e, hx, .inl (.head h hl)⟩
      · exact .inr ⟨e, hx, .inr (h.stranger hr)⟩
    | right h =>
      obtain ⟨run₁, x, hrun, hsteps, hcases⟩ := ih rfl rfl
      refine ⟨run₁, x, (Steps.head h .refl).grows.trans hrun, hsteps, ?_⟩
      rcases hcases with ⟨b, c, hx, hl, hr⟩ | ⟨e, hx, hl | hr⟩
      · exact .inl ⟨b, c, hx, h.stranger hl, .head h hr⟩
      · exact .inr ⟨e, hx, .inl (h.stranger hl)⟩
      · exact .inr ⟨e, hx, .inr (.head h hr)⟩
    | failLeft e => exact ⟨_, _, List.prefix_rfl, hrest, .inr ⟨e, rfl, .inl .refl⟩⟩
    | failRight e => exact ⟨_, _, List.prefix_rfl, hrest, .inr ⟨e, rfl, .inr .refl⟩⟩
    | join b c => exact ⟨_, _, List.prefix_rfl, hrest, .inl ⟨b, c, rfl, .refl, .refl⟩⟩

/-- A step of a program that is gone on from is a step of the program, or comes after its end. -/
theorem Step.bind_cases {run run' : List I} {p : Program I R D F A} {f : A → Program I R D F B}
    {q : Program I R D F B} (h : Step M reply Lost run (p.bind f) run' q) :
    (∃ p', Step M reply Lost run p run' p' ∧ q = p'.bind f) ∨ ∃ a, p = done a := by
  cases p with
  | done a => exact .inr ⟨a, rfl⟩
  | call i next =>
    left
    cases h with
    | others i => exact ⟨_, .others i, rfl⟩
    | answered => exact ⟨_, .answered, rfl⟩
    | lostBefore hlost => exact ⟨_, .lostBefore hlost, rfl⟩
    | lostAfter hlost => exact ⟨_, .lostAfter hlost, rfl⟩
  | draw next =>
    left
    cases h with
    | others i => exact ⟨_, .others i, rfl⟩
    | drawn d => exact ⟨_, .drawn d, rfl⟩
  | both l r next =>
    left
    cases h with
    | others i => exact ⟨_, .others i, rfl⟩
    | left h => exact ⟨both _ r next, .left h, rfl⟩
    | right h => exact ⟨both l _ next, .right h, rfl⟩
    | failLeft e => exact ⟨_, .failLeft e, rfl⟩
    | failRight e => exact ⟨_, .failRight e, rfl⟩
    | join b c => exact ⟨_, .join b c, rfl⟩

theorem steps_bind {run run' : List I} {p : Program I R D F A} {f : A → Program I R D F B} {b : B}
    (h : Steps M reply Lost run (p.bind f) run' (done b)) : ∃ run₁ a,
      Steps M reply Lost run p run₁ (done a) ∧ Steps M reply Lost run₁ (f a) run' (done b) := by
  generalize hp : p.bind f = q at h
  generalize hq : (done b : Program I R D F B) = q' at h
  induction h generalizing p with
  | @refl run =>
    subst hq
    cases p with
    | done a => exact ⟨run, a, .refl, hp ▸ .refl⟩
    | _ => cases hp
  | @head run q run₁ q₁ run' q' h hrest ih =>
    subst hp hq
    rcases h.bind_cases with ⟨p', hstep, rfl⟩ | ⟨a, rfl⟩
    · obtain ⟨run₂, a, hsteps, hf⟩ := ih rfl rfl
      exact ⟨run₂, a, .head hstep hsteps, hf⟩
    · exact ⟨run, a, .refl, .head h hrest⟩

/-! ### Postconditions -/

variable (M reply Lost)

/-- Every result of a program, started after a run, meets the postcondition at the end. -/
def Meets (p : Program I R D F A) (run : List I) (Q : List I → A → Prop) : Prop :=
  ∀ run' a, Steps M reply Lost run p run' (done a) → Q run' a

variable {M reply Lost}

theorem Meets.mono {p : Program I R D F A} {run : List I} {Q Q' : List I → A → Prop}
    (h : Meets M reply Lost p run Q) (hQ : ∀ run' a, run <+: run' → Q run' a → Q' run' a) :
    Meets M reply Lost p run Q' :=
  fun run' a hsteps => hQ run' a hsteps.grows (h run' a hsteps)

theorem meets_done {run : List I} {Q : List I → A → Prop} {a : A} (h : ∀ more, Q (run ++ more) a) :
    Meets M reply Lost (done a : Program I R D F A) run Q := by
  intro run' b hsteps
  obtain ⟨more, rfl⟩ := hsteps.grows
  rw [← steps_done hsteps]
  exact h more

/-- A call is answered by the machine after whatever strangers did, or is lost. -/
theorem meets_call {run : List I} {i : I} {next : R → Program I R D F A} {Q : List I → A → Prop}
    (hanswer : ∀ more,
      Meets M reply Lost (next (answer M reply (run ++ more) i)) (run ++ more ++ [i]) Q)
    (hlost : ∀ r, Lost r → ∀ more, Meets M reply Lost (next r) (run ++ more) Q) :
    Meets M reply Lost (call i next) run Q := by
  intro run' a hsteps
  obtain ⟨run₁, ⟨more, rfl⟩, hsteps⟩ := steps_call hsteps
  rcases hsteps with hsteps | ⟨r, hr, hsteps | hsteps⟩
  · exact hanswer more run' a hsteps
  · exact hlost r hr more run' a hsteps
  · refine hlost r hr (more ++ [i]) run' a ?_
    rwa [← List.append_assoc]

theorem meets_draw {run : List I} {next : D → Program I R D F A} {Q : List I → A → Prop}
    (h : ∀ d more, Meets M reply Lost (next d) (run ++ more) Q) :
    Meets M reply Lost (draw next) run Q := by
  intro run' a hsteps
  obtain ⟨run₁, d, ⟨more, rfl⟩, hsteps⟩ := steps_draw hsteps
  exact h d more run' a hsteps

theorem meets_bind {run : List I} {p : Program I R D F A} {f : A → Program I R D F B}
    {Q : List I → A → Prop} {Q' : List I → B → Prop} (hp : Meets M reply Lost p run Q)
    (hf : ∀ more a, Q (run ++ more) a → Meets M reply Lost (f a) (run ++ more) Q') :
    Meets M reply Lost (p.bind f) run Q' := by
  intro run' b hsteps
  obtain ⟨run₁, a, hfirst, hrest⟩ := steps_bind hsteps
  obtain ⟨more, rfl⟩ := hfirst.grows
  exact hf more a (hp _ a hfirst) run' b hrest

/-! ### Successes -/

section
variable (M reply Lost) (Assumed : List I → Prop)

/-- Every success of a program, in a run of which something is assumed, meets the postcondition. -/
def Ensures (p : Program I R D F (Except F A)) (run : List I) (Q : List I → A → Prop) : Prop :=
  Meets M reply Lost p run fun run' x => ∀ a, x = .ok a → Assumed run' → Q run' a

end

variable {Assumed : List I → Prop}

theorem Ensures.mono {p : Program I R D F (Except F A)} {run : List I} {Q Q' : List I → A → Prop}
    (h : Ensures M reply Lost Assumed p run Q)
    (hQ : ∀ run' a, run <+: run' → Assumed run' → Q run' a → Q' run' a) :
    Ensures M reply Lost Assumed p run Q' :=
  Meets.mono h fun run' _ hrun hx a ha hrun' => hQ run' a hrun hrun' (hx a ha hrun')

theorem ensures_ok {run : List I} {Q : List I → A → Prop} {a : A}
    (h : ∀ more, Assumed (run ++ more) → Q (run ++ more) a) :
    Ensures M reply Lost Assumed (done (.ok a) : Program I R D F (Except F A)) run Q := by
  refine meets_done fun more b hb hrun => ?_
  cases hb
  exact h more hrun

theorem ensures_error {run : List I} {Q : List I → A → Prop} {e : F} :
    Ensures M reply Lost Assumed (done (.error e) : Program I R D F (Except F A)) run Q :=
  meets_done fun _ _ he => nomatch he

/-- What is assumed of a run is assumed of what it began with. -/
theorem ensures_assuming {p : Program I R D F (Except F A)} {run : List I} {Q : List I → A → Prop}
    (hassumed : ∀ {run more}, Assumed (run ++ more) → Assumed run)
    (h : Assumed run → Ensures M reply Lost Assumed p run Q) :
    Ensures M reply Lost Assumed p run Q := by
  intro run' x hsteps a hx hrun'
  obtain ⟨more, rfl⟩ := hsteps.grows
  exact h (hassumed hrun') _ x hsteps a hx hrun'

/-- What comes after a success, or after a failure. -/
theorem ensures_bind {run : List I} {p : Program I R D F (Except F A)}
    {f : Except F A → Program I R D F (Except F B)} {Q : List I → A → Prop} {Q' : List I → B → Prop}
    (hassumed : ∀ {run more}, Assumed (run ++ more) → Assumed run)
    (hp : Ensures M reply Lost Assumed p run Q)
    (hok : ∀ more a, Assumed (run ++ more) → Q (run ++ more) a →
      Ensures M reply Lost Assumed (f (.ok a)) (run ++ more) Q')
    (herror : ∀ more e, Assumed (run ++ more) →
      Ensures M reply Lost Assumed (f (.error e)) (run ++ more) Q') :
    Ensures M reply Lost Assumed (p.bind f) run Q' := by
  refine meets_bind hp fun more x hx => ensures_assuming hassumed fun hrun => ?_
  cases x with
  | ok a => exact hok more a hrun (hx a rfl hrun)
  | error e => exact herror more e hrun

theorem ensures_andThen {run : List I} {p : Program I R D F (Except F A)}
    {f : A → Program I R D F (Except F B)} {Q : List I → A → Prop} {Q' : List I → B → Prop}
    (hassumed : ∀ {run more}, Assumed (run ++ more) → Assumed run)
    (hp : Ensures M reply Lost Assumed p run Q)
    (hf : ∀ more a, Assumed (run ++ more) → Q (run ++ more) a →
      Ensures M reply Lost Assumed (f a) (run ++ more) Q') :
    Ensures M reply Lost Assumed (p.andThen f) run Q' :=
  ensures_bind hassumed hp hf fun _ _ _ => ensures_error

/-- **What every button keeps, and others leave, is kept whatever is pressed.** -/
theorem ensures_each {T : Type} {press : B → T → Program I R D F (Except F T)}
    {Q : List I → T → Prop} (hassumed : ∀ {run more}, Assumed (run ++ more) → Assumed run)
    (hlater : ∀ {run s} (more : List I), Q run s → Q (run ++ more) s)
    (hpress : ∀ button {run s}, Q run s → Ensures M reply Lost Assumed (press button s) run Q)
    (buttons : List B) {run : List I} {s : T} (h : Q run s) :
    Ensures M reply Lost Assumed (each press buttons s) run Q := by
  induction buttons generalizing run s with
  | nil => exact ensures_ok fun more _ => hlater more h
  | cons button rest ih => exact ensures_andThen hassumed (hpress button h) fun _ _ _ h' => ih h'

/-- **Side by side, each program ensures what it ensures among strangers.** -/
theorem ensures_both {run : List I} {l : Program I R D F (Except F B)}
    {r : Program I R D F (Except F C)} {QB : List I → B → Prop} {QC : List I → C → Prop}
    (hl : Ensures M reply Lost Assumed l run QB) (hr : Ensures M reply Lost Assumed r run QC) :
    Ensures M reply Lost Assumed (both l r done) run fun run' x => QB run' x.1 ∧ QC run' x.2 := by
  intro run' x hsteps a hx hrun'
  obtain ⟨run₁, y, _, hdone, hcases⟩ := steps_both hsteps
  obtain rfl := steps_done hdone
  rcases hcases with ⟨b, c, rfl, hb, hc⟩ | ⟨e, rfl, _⟩
  · cases hx
    exact ⟨hl _ _ (hb.trans (.idle _ hdone.grows)) b rfl hrun',
      hr _ _ (hc.trans (.idle _ hdone.grows)) c rfl hrun'⟩
  · cases hx

/-- Whatever runs beside it, a success is what it is among strangers. -/
theorem ensures_settled {run : List I} {p : Program I R D F (Except F A)} {Q : List I → A → Prop}
    (h : Ensures M reply Lost Assumed p run Q) :
    Ensures M reply Lost Assumed (settled p) run fun run' x => ∀ a, x = .ok a → Q run' a := by
  intro run' y hsteps x hy hrun' a hx
  obtain ⟨run₁, z, hfirst, hdone⟩ := steps_bind hsteps
  obtain rfl := steps_done hdone
  cases hy
  exact h run' _ (hfirst.trans (.idle _ hdone.grows)) a hx hrun'

/-! ### On its own -/

variable (M reply) (draws : Nat → D)

/-- A program that nobody disturbs, with the draws from the `n`-th on: what the machine took, how
many draws were made, and the result. -/
def alone : {A : Type} → Program I R D F A → List I → Nat → List I × Nat × A
  | _, done a, run, n => (run, n, a)
  | _, call i next, run, n => alone (next (answer M reply run i)) (run ++ [i]) n
  | _, draw next, run, n => alone (next (draws n)) run (n + 1)
  | _, both l r next, run, n =>
    match alone l run n with
    | (run₁, n₁, .error e) => alone (next (.error e)) run₁ n₁
    | (run₁, n₁, .ok b) =>
      match alone r run₁ n₁ with
      | (run₂, n₂, .error e) => alone (next (.error e)) run₂ n₂
      | (run₂, n₂, .ok c) => alone (next (.ok (b, c))) run₂ n₂

variable {M reply} {draws}

theorem Steps.both_left {run run' : List I} {l l' : Program I R D F (Except F B)}
    {r : Program I R D F (Except F C)} {next : Except F (B × C) → Program I R D F A}
    (h : Steps M reply Lost run l run' l') :
    Steps M reply Lost run (both l r next) run' (both l' r next) := by
  induction h with
  | refl => exact .refl
  | head hstep _ ih => exact .head (.left hstep) ih

theorem Steps.both_right {run run' : List I} {l : Program I R D F (Except F B)}
    {r r' : Program I R D F (Except F C)} {next : Except F (B × C) → Program I R D F A}
    (h : Steps M reply Lost run r run' r') :
    Steps M reply Lost run (both l r next) run' (both l r' next) := by
  induction h with
  | refl => exact .refl
  | head hstep _ ih => exact .head (.right hstep) ih

/-- **Every program has an end.** -/
theorem steps_alone (p : Program I R D F A) (run : List I) (n : Nat) :
    Steps M reply Lost run p (alone M reply draws p run n).1
      (done (alone M reply draws p run n).2.2) := by
  induction p generalizing run n with
  | done a => exact .refl
  | call i next ih => exact .head .answered (ih _ _ _)
  | draw next ih => exact .head (.drawn _) (ih _ _ _)
  | both l r next ihl ihr ih =>
    have hl := ihl run n
    rw [alone]
    split
    · next run₁ n₁ e he =>
      rw [he] at hl
      exact hl.both_left.trans (.head (.failLeft e) (ih _ _ _))
    · next run₁ n₁ b hb =>
      rw [hb] at hl
      have hr := ihr run₁ n₁
      refine hl.both_left.trans ?_
      split
      · next run₂ n₂ e he =>
        rw [he] at hr
        exact hr.both_right.trans (.head (.failRight e) (ih _ _ _))
      · next run₂ n₂ c hc =>
        rw [hc] at hr
        exact hr.both_right.trans (.head (.join b c) (ih _ _ _))

theorem alone_bind (p : Program I R D F A) (f : A → Program I R D F B) (run : List I) (n : Nat) :
    alone M reply draws (p.bind f) run n =
      alone M reply draws (f (alone M reply draws p run n).2.2) (alone M reply draws p run n).1
        (alone M reply draws p run n).2.1 := by
  induction p generalizing run n with
  | done a => rfl
  | call i next ih => exact ih _ f _ _
  | draw next ih => exact ih _ f _ _
  | both l r next ihl ihr ih =>
    rw [bind, alone, alone]
    split
    · exact ih _ f _ _
    · split
      · exact ih _ f _ _
      · exact ih _ f _ _

/-! ### Succeeding -/

variable (M reply draws)

/-- A program by itself, from any draw on, succeeds with a result that meets the postcondition. -/
def Succeeds (p : Program I R D F (Except F A)) (run : List I) (Q : List I → A → Prop) : Prop :=
  ∀ n, ∃ a, (alone M reply draws p run n).2.2 = .ok a ∧ Q (alone M reply draws p run n).1 a

variable {M reply draws}

theorem Succeeds.mono {p : Program I R D F (Except F A)} {run : List I} {Q Q' : List I → A → Prop}
    (h : Succeeds M reply draws p run Q) (hQ : ∀ run' a, Q run' a → Q' run' a) :
    Succeeds M reply draws p run Q' := by
  intro n
  obtain ⟨a, ha, hq⟩ := h n
  exact ⟨a, ha, hQ _ a hq⟩

theorem succeeds_ok {run : List I} {Q : List I → A → Prop} {a : A} (h : Q run a) :
    Succeeds M reply draws (done (.ok a) : Program I R D F (Except F A)) run Q :=
  fun _ => ⟨a, rfl, h⟩

theorem succeeds_call {run : List I} {i : I} {next : R → Program I R D F (Except F A)}
    {Q : List I → A → Prop}
    (h : Succeeds M reply draws (next (answer M reply run i)) (run ++ [i]) Q) :
    Succeeds M reply draws (call i next) run Q :=
  fun n => h n

theorem succeeds_draw {run : List I} {next : D → Program I R D F (Except F A)}
    {Q : List I → A → Prop} (h : ∀ d, Succeeds M reply draws (next d) run Q) :
    Succeeds M reply draws (draw next) run Q :=
  fun n => h (draws n) (n + 1)

theorem succeeds_bind {run : List I} {p : Program I R D F (Except F A)}
    {f : Except F A → Program I R D F (Except F B)} {Q : List I → A → Prop} {Q' : List I → B → Prop}
    (hp : Succeeds M reply draws p run Q)
    (hf : ∀ run' a, Q run' a → Succeeds M reply draws (f (.ok a)) run' Q') :
    Succeeds M reply draws (p.bind f) run Q' := by
  intro n
  obtain ⟨a, ha, hq⟩ := hp n
  rw [alone_bind, ha]
  exact hf _ a hq _

theorem succeeds_andThen {run : List I} {p : Program I R D F (Except F A)}
    {f : A → Program I R D F (Except F B)} {Q : List I → A → Prop} {Q' : List I → B → Prop}
    (hp : Succeeds M reply draws p run Q)
    (hf : ∀ run' a, Q run' a → Succeeds M reply draws (f a) run' Q') :
    Succeeds M reply draws (p.andThen f) run Q' :=
  succeeds_bind hp hf

/-- Side by side and by themselves, one program comes after the other. -/
theorem succeeds_both {run : List I} {l : Program I R D F (Except F B)}
    {r : Program I R D F (Except F C)} {Q : List I → B → Prop} {T : List I → B × C → Prop}
    (hl : Succeeds M reply draws l run Q)
    (hr : ∀ run' b, Q run' b → Succeeds M reply draws r run' fun run'' c => T run'' (b, c)) :
    Succeeds M reply draws (both l r done) run T := by
  intro n
  obtain ⟨b, hb, hq⟩ := hl n
  obtain ⟨c, hc, hq'⟩ := hr _ b hq (alone M reply draws l run n).2.1
  rw [alone]
  generalize alone M reply draws l run n = left at hb hc hq'
  obtain ⟨run₁, n₁, x⟩ := left
  subst hb
  simp only
  generalize alone M reply draws r run₁ n₁ = right at hc hq'
  obtain ⟨run₂, n₂, y⟩ := right
  subst hc
  exact ⟨(b, c), rfl, hq'⟩

/-- What every success ensures, this one does. -/
theorem Succeeds.ensured {p : Program I R D F (Except F A)} {run : List I}
    {Q Q' : List I → A → Prop} (h : Succeeds M reply draws p run Q)
    (hp : Ensures M reply Lost Assumed p run Q') (hassumed : ∀ run' a, Q run' a → Assumed run') :
    Succeeds M reply draws p run fun run' a => run <+: run' ∧ Q run' a ∧ Q' run' a := by
  intro n
  obtain ⟨a, ha, hq⟩ := h n
  have hsteps : Steps M reply Lost run p (alone M reply draws p run n).1
      (done (alone M reply draws p run n).2.2) :=
    steps_alone p run n
  exact ⟨a, ha, hsteps.grows, hq, hp _ _ hsteps a ha (hassumed _ a hq)⟩

end Program

end Wayfinder
