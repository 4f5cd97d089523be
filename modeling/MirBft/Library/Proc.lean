/-
**Procedures: fallible steps on a state that emit things, and their weakest preconditions.**

`Proc ε β σ α` is a computation on a state `σ` that may fail with an `ε`, emits a list of `β`s and
returns an `α`. A component's methods are procedures on its state; `zoom` runs a procedure on a part
of a larger state, `quiet` throws away what it emits, and `listen` returns it.

* `wp m s post`: every successful run of `m` from `s` ends as `post` says. The `wp_` lemmas compute
  it along a procedure, so that a proof about a method is a proof about the methods it calls
  (`wp_mono`);
* `Effect`: a relation between start, end and emissions that composes. `Has` says that a procedure
  has an effect, and its rules follow the shape of the procedure. `Effect.keeping` is an effect of
  the runs from states that satisfy an invariant.
-/

import MirBft.Library.Loop
import Mathlib.Tactic.Basic

namespace MirBft

/-- A fallible computation on a state `σ` that emits `β`s and returns an `α`. -/
def Proc (ε β σ α : Type) : Type := σ → Except ε (σ × List β × α)

namespace Proc

variable {ε β σ τ α γ ι : Type}
variable {m : Proc ε β σ α} {state : σ} {items : List ι} {body : ι → Proc ε β σ Unit}
  {next : α → Proc ε β σ γ}

instance : Monad (Proc ε β σ) where
  pure value := fun state => .ok (state, [], value)
  bind m next := fun state => match m state with
    | .error failure => .error failure
    | .ok (mid, first, value) => match next value mid with
      | .error failure => .error failure
      | .ok (final, second, result) => .ok (final, first ++ second, result)

/-- The state. -/
def get : Proc ε β σ σ := fun state => .ok (state, [], state)

def modify (update : σ → σ) : Proc ε β σ Unit := fun state => .ok (update state, [], ())

def emit (emitted : List β) : Proc ε β σ Unit := fun state => .ok (state, emitted, ())

def fail (failure : ε) : Proc ε β σ α := fun _ => .error failure

/-- A computation that does not touch the state. -/
def lift (result : Except ε α) : Proc ε β σ α := fun state => match result with
  | .error failure => .error failure
  | .ok value => .ok (state, [], value)

/-- Run a procedure on a part of the state. -/
def zoom (view : σ → τ) (update : σ → τ → σ) (m : Proc ε β τ α) : Proc ε β σ α := fun state =>
  match m (view state) with
  | .error failure => .error failure
  | .ok (part, emitted, value) => .ok (update state part, emitted, value)

/-- Run a procedure and drop what it emits. -/
def quiet (m : Proc ε β σ α) : Proc ε β σ α := fun state => match m state with
  | .error failure => .error failure
  | .ok (final, _, value) => .ok (final, [], value)

/-- Run a procedure and return what it emits, too. -/
def listen (m : Proc ε β σ α) : Proc ε β σ (α × List β) := fun state => match m state with
  | .error failure => .error failure
  | .ok (final, emitted, value) => .ok (final, emitted, (value, emitted))

/-- Run a procedure for each item of a list. -/
def forEach (body : ι → Proc ε β σ Unit) : List ι → Proc ε β σ Unit
  | [] => pure ()
  | item :: rest => do
    body item
    forEach body rest

/-! ### Weakest preconditions -/

/-- Every successful run ends as `post` says. -/
def wp (m : Proc ε β σ α) (state : σ) (post : σ → List β → α → Prop) : Prop :=
  ∀ final emitted value, m state = .ok (final, emitted, value) → post final emitted value

theorem wp_mono {post weaker : σ → List β → α → Prop} (holds : wp m state post)
    (implies : ∀ final emitted value, post final emitted value → weaker final emitted value) :
    wp m state weaker :=
  fun final emitted value ran => implies final emitted value (holds final emitted value ran)

/-- The only run of a procedure decides. -/
theorem wp_of_eq_ok {final : σ} {emitted : List β} {value : α} {post : σ → List β → α → Prop}
    (ran : m state = .ok (final, emitted, value)) : wp m state post ↔ post final emitted value := by
  constructor
  · intro holds
    exact holds final emitted value ran
  · intro holds _ _ _ other
    cases ran.symm.trans other
    exact holds

@[simp] theorem wp_pure (value : α) (state : σ) (post : σ → List β → α → Prop) :
    wp (pure value : Proc ε β σ α) state post ↔ post state [] value :=
  wp_of_eq_ok rfl

@[simp] theorem wp_bind (m : Proc ε β σ α) (next : α → Proc ε β σ γ) (state : σ)
    (post : σ → List β → γ → Prop) :
    wp (m >>= next) state post ↔ wp m state fun mid first value =>
      wp (next value) mid fun final second result => post final (first ++ second) result := by
  constructor
  · intro holds mid first value ran final second result continued
    refine holds final (first ++ second) result ?_
    show (match m state with | .error failure => _ | .ok (mid, first, value) => _) = _
    rw [ran]
    simp only [continued]
  · intro holds final emitted result ran
    change (match m state with | .error failure => _ | .ok (mid, first, value) => _) = _ at ran
    cases first : m state with
    | error failure => simp [first] at ran
    | ok outcome =>
      obtain ⟨mid, before, value⟩ := outcome
      simp only [first] at ran
      cases second : next value mid with
      | error failure => simp [second] at ran
      | ok outcome =>
        simp only [second] at ran
        obtain ⟨rfl, rfl, rfl⟩ := ran
        exact holds mid before value first _ _ _ second

@[simp] theorem wp_get (state : σ) (post : σ → List β → σ → Prop) :
    wp (get : Proc ε β σ σ) state post ↔ post state [] state :=
  wp_of_eq_ok rfl

@[simp] theorem wp_modify (update : σ → σ) (state : σ) (post : σ → List β → Unit → Prop) :
    wp (modify update : Proc ε β σ Unit) state post ↔ post (update state) [] () :=
  wp_of_eq_ok rfl

@[simp] theorem wp_emit (sent : List β) (state : σ) (post : σ → List β → Unit → Prop) :
    wp (emit sent : Proc ε β σ Unit) state post ↔ post state sent () :=
  wp_of_eq_ok rfl

@[simp] theorem wp_fail (failure : ε) (state : σ) (post : σ → List β → α → Prop) :
    wp (fail failure : Proc ε β σ α) state post := by
  intro final emitted value ran
  cases ran

@[simp] theorem wp_lift (result : Except ε α) (state : σ) (post : σ → List β → α → Prop) :
    wp (lift result : Proc ε β σ α) state post ↔
      ∀ value, result = .ok value → post state [] value := by
  constructor
  · rintro holds value rfl
    exact holds state [] value rfl
  · intro holds final emitted value ran
    cases result with
    | error failure => cases ran
    | ok answer =>
      cases ran
      exact holds _ rfl

@[simp] theorem wp_zoom (view : σ → τ) (update : σ → τ → σ) (m : Proc ε β τ α) (state : σ)
    (post : σ → List β → α → Prop) :
    wp (zoom view update m) state post ↔ wp m (view state) fun part emitted value =>
      post (update state part) emitted value := by
  constructor
  · intro holds part emitted value ran
    refine holds (update state part) emitted value ?_
    rw [zoom, ran]
  · intro holds final emitted value ran
    unfold zoom at ran
    cases inner : m (view state) with
    | error failure => simp [inner] at ran
    | ok outcome =>
      obtain ⟨part, sent, answer⟩ := outcome
      simp only [inner, Except.ok.injEq, Prod.mk.injEq] at ran
      obtain ⟨rfl, rfl, rfl⟩ := ran
      exact holds part sent answer inner

@[simp] theorem wp_quiet (m : Proc ε β σ α) (state : σ) (post : σ → List β → α → Prop) :
    wp (quiet m) state post ↔ wp m state fun final _ value => post final [] value := by
  constructor
  · intro holds final emitted value ran
    refine holds final [] value ?_
    rw [quiet, ran]
  · intro holds final emitted value ran
    unfold quiet at ran
    cases inner : m state with
    | error failure => simp [inner] at ran
    | ok outcome =>
      obtain ⟨last, sent, answer⟩ := outcome
      simp only [inner, Except.ok.injEq, Prod.mk.injEq] at ran
      obtain ⟨rfl, rfl, rfl⟩ := ran
      exact holds last sent answer inner

@[simp] theorem wp_listen (m : Proc ε β σ α) (state : σ) (post : σ → List β → α × List β → Prop) :
    wp (listen m) state post ↔ wp m state fun final emitted value =>
      post final emitted (value, emitted) := by
  constructor
  · intro holds final emitted value ran
    refine holds final emitted (value, emitted) ?_
    rw [listen, ran]
  · intro holds final emitted value ran
    unfold listen at ran
    cases inner : m state with
    | error failure => simp [inner] at ran
    | ok outcome =>
      obtain ⟨last, sent, answer⟩ := outcome
      simp only [inner, Except.ok.injEq, Prod.mk.injEq] at ran
      obtain ⟨rfl, rfl, rfl⟩ := ran
      exact holds last sent answer inner

/-- **The rule for a loop over a list**: an invariant of the state and what was emitted so far. -/
theorem wp_forEach (invariant : σ → List β → Prop) (first : invariant state [])
    (step : ∀ item ∈ items, ∀ state emitted, invariant state emitted →
      wp (body item) state fun final more _ => invariant final (emitted ++ more)) :
    wp (forEach body items) state fun final emitted _ => invariant final emitted := by
  -- What was emitted before the rest of the loop is generalized: the invariant talks of all of it.
  suffices general : ∀ rest : List ι, (∀ item ∈ rest, item ∈ items) → ∀ state emitted,
      invariant state emitted →
        wp (forEach body rest) state fun final more _ => invariant final (emitted ++ more) by
    simpa using general items (fun _ member => member) state [] first
  intro rest
  induction rest with
  | nil =>
    simp [forEach]
  | cons item rest ih =>
    intro members state emitted holds
    rw [forEach, wp_bind]
    refine wp_mono (step item (members item (by simp)) state emitted holds) ?_
    intro mid more _ kept
    refine wp_mono (ih (fun other member => members other (by simp [member])) mid _ kept) ?_
    intro final last _ done
    rwa [← List.append_assoc]

theorem pure_bind (value : α) (next : α → Proc ε β σ γ) : (pure value >>= next) = next value := by
  funext state
  show (match next value state with | .error failure => _ | .ok (final, second, result) => _) = _
  cases next value state with
  | error failure => rfl
  | ok outcome => rfl

theorem emit_nil_bind (next : Unit → Proc ε β σ γ) : (emit [] >>= next) = next () := pure_bind () next

theorem modify_id_bind (next : Unit → Proc ε β σ γ) : (modify (fun state => state) >>= next) = next () :=
  pure_bind () next

/-! ### Effects -/

/-- **An effect**: a relation between the state before, the state after and what was emitted, that
composes. -/
structure Effect (σ β : Type) where
  rel : σ → σ → List β → Prop
  refl : ∀ state, rel state state []
  trans : ∀ {first second third emitted more}, rel first second emitted → rel second third more →
    rel first third (emitted ++ more)

/-- Every run of the procedure has the effect. -/
def Has (effect : Effect σ β) (m : Proc ε β σ α) : Prop :=
  ∀ state, wp m state fun final emitted _ => effect.rel state final emitted

variable {effect : Effect σ β}

theorem has_pure (value : α) : Has effect (pure value : Proc ε β σ α) := by
  intro state
  rw [wp_pure]
  exact effect.refl state

theorem has_get : Has effect (get : Proc ε β σ σ) := by
  intro state
  rw [wp_get]
  exact effect.refl state

theorem has_fail (failure : ε) : Has effect (fail failure : Proc ε β σ α) :=
  fun state => wp_fail failure state _

theorem has_lift (result : Except ε α) : Has effect (lift result : Proc ε β σ α) := by
  intro state
  rw [wp_lift]
  intro _ _
  exact effect.refl state

/-- **Effects compose**: the part of the effect rule that follows a first step. -/
theorem wp_effect_bind (first : wp m state fun mid emitted value => effect.rel state mid emitted ∧
      wp (next value) mid fun final more _ => effect.rel mid final more) :
    wp (m >>= next) state fun final emitted _ => effect.rel state final emitted := by
  rw [wp_bind]
  refine wp_mono first ?_
  rintro mid emitted value ⟨done, continued⟩
  exact wp_mono continued fun final more _ last => effect.trans done last

/-- A first step with the effect from this state, and a rest with the effect from every state. -/
theorem wp_bind_has (first : wp m state fun mid emitted _ => effect.rel state mid emitted)
    (second : ∀ value, Has effect (next value)) :
    wp (m >>= next) state fun final emitted _ => effect.rel state final emitted := by
  refine wp_effect_bind (wp_mono first ?_)
  intro mid emitted value done
  exact ⟨done, second value mid⟩

theorem has_bind (first : Has effect m) (second : ∀ value, Has effect (next value)) :
    Has effect (m >>= next) :=
  fun state => wp_bind_has (first state) second

theorem wp_get_bind {next : σ → Proc ε β σ γ} {post : σ → List β → γ → Prop}
    (continued : wp (next state) state post) : wp (get >>= next) state post := by
  simpa using continued

/-- After a computation that does not touch the state, the rest runs from the same state. -/
theorem wp_lift_bind {result : Except ε α} {post : σ → List β → γ → Prop}
    (continued : ∀ value, result = .ok value → wp (next value) state post) :
    wp (lift result >>= next) state post := by
  rw [wp_bind, wp_lift]
  intro value isValue
  simpa using continued value isValue

theorem wp_and {first second : σ → List β → α → Prop} (holds : wp m state first) (too : wp m state second) :
    wp m state fun final emitted value => first final emitted value ∧ second final emitted value :=
  fun final emitted value ran => ⟨holds final emitted value ran, too final emitted value ran⟩

theorem has_ite {condition : Prop} [Decidable condition] {yes no : Proc ε β σ α}
    (first : Has effect yes) (second : Has effect no) :
    Has effect (if condition then yes else no) := by
  by_cases holds : condition
  · rwa [if_pos holds]
  · rwa [if_neg holds]

theorem has_forEach (step : ∀ item ∈ items, Has effect (body item)) : Has effect (forEach body items) := by
  intro state
  refine wp_forEach (fun final emitted => effect.rel state final emitted) (effect.refl state) ?_
  intro item member mid emitted done
  exact wp_mono (step item member mid) fun final more _ last => effect.trans done last

/-! ### Two effects -/

/-- Both effects. -/
def Effect.both (effect other : Effect σ β) : Effect σ β where
  rel before after emitted := effect.rel before after emitted ∧ other.rel before after emitted
  refl state := ⟨effect.refl state, other.refl state⟩
  trans first second := ⟨effect.trans first.1 second.1, other.trans first.2 second.2⟩

theorem Has.both {other : Effect σ β} (has : Has effect m) (too : Has other m) : Has (effect.both other) m :=
  fun state => wp_and (has state) (too state)

/-! ### Effects of good states -/

/-- **The effect from good states**, which are kept. -/
def Effect.keeping (good : σ → Prop) (effect : Effect σ β) : Effect σ β where
  rel before after emitted := good before → good after ∧ effect.rel before after emitted
  refl state holds := ⟨holds, effect.refl state⟩
  trans first second holds := by
    obtain ⟨stillGood, done⟩ := first holds
    obtain ⟨finallyGood, rest⟩ := second stillGood
    exact ⟨finallyGood, effect.trans done rest⟩

/-- It is enough to look at the runs from good states. -/
theorem wp_keeping {good : σ → Prop} (each : good state → wp m state fun final emitted _ => good final ∧
      effect.rel state final emitted) :
    wp m state fun final emitted _ => (effect.keeping good).rel state final emitted :=
  fun final emitted value ran holds => each holds final emitted value ran

/-! ### Failures -/

variable {allowed : ε → Prop}

theorem failsOnly_bind (first : FailsOnly allowed (m state))
    (second : wp m state fun mid _ value => FailsOnly allowed (next value mid)) :
    FailsOnly allowed ((m >>= next) state) := by
  intro failure failed
  change (match m state with | .error failure => _ | .ok (mid, first, value) => _) = _ at failed
  cases ran : m state with
  | error other =>
    rw [ran] at failed
    cases failed
    exact first failure ran
  | ok outcome =>
    obtain ⟨mid, emitted, value⟩ := outcome
    simp only [ran] at failed
    cases continued : next value mid with
    | error other =>
      simp only [continued, Except.error.injEq] at failed
      subst failed
      exact second mid emitted value ran other continued
    | ok _ => simp [continued] at failed

theorem failsOnly_lift {result : Except ε α} (fails : FailsOnly allowed result) (state : σ) :
    FailsOnly allowed ((lift result : Proc ε β σ α) state) := by
  intro failure failed
  cases result with
  | error other =>
    cases failed
    exact fails _ rfl
  | ok _ => cases failed

/-- **A loop over a list** fails as its body does from the states that the loop gets to. -/
theorem failsOnly_forEach (invariant : σ → Prop) (first : invariant state)
    (step : ∀ item ∈ items, ∀ state, invariant state → FailsOnly allowed (body item state) ∧
      wp (body item) state fun final _ _ => invariant final) :
    FailsOnly allowed (forEach body items state) := by
  induction items generalizing state with
  | nil =>
    rintro _ ⟨⟩
  | cons item rest ih =>
    obtain ⟨fails, keeps⟩ := step item (by simp) state first
    refine failsOnly_bind fails (wp_mono keeps fun mid _ _ holds => ?_)
    exact ih holds fun other member => step other (by simp [member])

end Proc

end MirBft
