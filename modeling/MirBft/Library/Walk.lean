/-
**Procedures that walk a transition system.**

A `Walk` is a relation between states that emits things, with an invariant (`good`) and, for each
state, the failures that it excuses. What a step leads to excuses no more than the state before it,
so the excuses of a whole run are those of its first state.

* `Does walk m state post`: from a good state every run of `m` is steps of the walk and ends as
  `post` says, or fails with a failure that the state excuses;
* the rules follow the shape of a procedure, as those of `safe` do.
-/

import MirBft.Library.Safety
import MirBft.Library.Steps

namespace MirBft

/-- **A transition system** with an invariant, and the failures that are excused in each state. -/
structure Walk (ε β σ : Type) where
  step : σ → σ → List β → Prop
  good : σ → Prop
  excused : σ → ε → Prop
  good_step : ∀ {first second emitted}, good first → step first second emitted → good second
  excused_step : ∀ {first second emitted failure}, good first → step first second emitted →
    excused second failure → excused first failure

namespace Walk

open Proc

variable {ε β σ α γ ι : Type} {walk : Walk ε β σ} {state : σ} {post : σ → α → Prop}
variable {emitted : List β} {m : Proc ε β σ α} {last : σ → γ → Prop}

theorem good_steps {first second : σ} (isGood : walk.good first)
    (steps : Steps walk.step first second emitted) : walk.good second := by
  induction steps with
  | refl => exact isGood
  | cons one _ ih => exact ih (walk.good_step isGood one)

theorem excused_steps {first second : σ} {failure : ε} (isGood : walk.good first)
    (steps : Steps walk.step first second emitted) (excused : walk.excused second failure) :
    walk.excused first failure := by
  induction steps with
  | refl => exact excused
  | cons one _ ih => exact walk.excused_step isGood one (ih (walk.good_step isGood one) excused)

/-- **Every run from a good state is steps of the walk.** -/
def Does (walk : Walk ε β σ) (m : Proc ε β σ α) (state : σ) (post : σ → α → Prop) : Prop :=
  walk.good state → safe (walk.excused state) m state fun final emitted value =>
    Steps walk.step state final emitted ∧ post final value

theorem does_pure {value : α} (holds : post state value) : walk.Does (pure value) state post :=
  fun _ => safe_pure ⟨.refl state, holds⟩

theorem does_fail {failure : ε} (excused : walk.good state → walk.excused state failure) :
    walk.Does (fail failure : Proc ε β σ α) state post :=
  fun isGood => safe_fail (excused isGood)

/-- **A larger system** has the steps of this one, and excuses what it excuses. -/
theorem does_within {larger : Walk ε β σ} (does : walk.Does m state post)
    (good : larger.good state → walk.good state)
    (steps : ∀ {first second emitted}, walk.step first second emitted → larger.step first second emitted)
    (excuses : larger.good state → ∀ failure, walk.excused state failure → larger.excused state failure) :
    larger.Does m state post := by
  intro isGood
  refine safe_mono (safe_weaken (does (good isGood)) (excuses isGood)) ?_
  rintro final emitted value ⟨run, holds⟩
  exact ⟨run.mono steps, holds⟩

/-- What the steps keep holds after the procedure. -/
theorem does_keep (inv : σ → Prop) (start : inv state)
    (keeps : ∀ first second emitted, inv first → walk.step first second emitted → inv second)
    (does : walk.Does m state post) : walk.Does m state fun final value => inv final ∧ post final value := by
  intro isGood
  refine safe_mono (does isGood) ?_
  rintro final emitted value ⟨steps, holds⟩
  have run := @Steps.invariant _ _ _ _ _ _ (fun state _ => inv state)
    (fun first second _ emitted => keeps first second emitted) steps [] start
  exact ⟨steps, run, holds⟩

theorem does_single (one : walk.good state → safe (walk.excused state) m state fun final emitted value =>
      walk.step state final emitted ∧ post final value) : walk.Does m state post :=
  fun isGood => safe_mono (one isGood) fun _ _ _ holds => ⟨.single holds.1, holds.2⟩

theorem does_mono {weaker : σ → α → Prop} (does : walk.Does m state post)
    (implies : ∀ final value, walk.good final → post final value → weaker final value) :
    walk.Does m state weaker :=
  fun isGood => safe_mono (does isGood) fun final _ value holds =>
    ⟨holds.1, implies final value (good_steps isGood holds.1) holds.2⟩

theorem does_bind {next : α → Proc ε β σ γ} (first : walk.Does m state post)
    (second : ∀ mid value, walk.good mid → post mid value → walk.Does (next value) mid last) :
    walk.Does (m >>= next) state last := by
  intro isGood
  refine safe_bind (safe_mono (first isGood) ?_)
  rintro mid emitted value ⟨steps, holds⟩
  have midGood := good_steps isGood steps
  refine safe_mono (safe_weaken (second mid value midGood holds midGood) fun failure excused =>
    excused_steps isGood steps excused) ?_
  rintro final more result ⟨rest, isLast⟩
  exact ⟨steps.trans rest, isLast⟩

/-- After a step of a procedure's own, the rest may be shown of the state that it leads to. -/
theorem safe_rest {m : Proc ε β σ γ} {mid : σ} (isGood : walk.good state) (one : walk.step state mid emitted)
    (rest : walk.Does m mid last) :
    safe (walk.excused state) m mid fun final more result =>
      Steps walk.step state final (emitted ++ more) ∧ last final result := by
  have midGood := walk.good_step isGood one
  refine safe_mono (safe_weaken (rest midGood) fun _ excused => walk.excused_step isGood one excused) ?_
  rintro final more result ⟨steps, isLast⟩
  exact ⟨.cons one steps, isLast⟩

theorem does_get_bind {next : σ → Proc ε β σ γ} (continued : walk.Does (next state) state last) :
    walk.Does (get >>= next) state last :=
  fun isGood => safe_get_bind (continued isGood)

theorem does_lift_bind {result : Except ε α} {next : α → Proc ε β σ γ}
    (fails : walk.good state → FailsOnly (walk.excused state) result)
    (continued : ∀ value, result = .ok value → walk.Does (next value) state last) :
    walk.Does (lift result >>= next) state last :=
  fun isGood => safe_lift_bind (fails isGood) fun value isValue => continued value isValue isGood

theorem does_ite {condition : Prop} [Decidable condition] {yes no : Proc ε β σ α}
    (first : condition → walk.Does yes state post) (second : ¬ condition → walk.Does no state post) :
    walk.Does (if condition then yes else no) state post :=
  fun isGood => safe_ite (fun holds => first holds isGood) fun fails => second fails isGood

theorem does_forEach {items : List ι} {body : ι → Proc ε β σ Unit} (inv : σ → Prop) (start : inv state)
    (each : ∀ item ∈ items, ∀ mid, walk.good mid → inv mid → walk.Does (body item) mid
    fun final _ => inv final) : walk.Does (forEach body items) state fun final _ => inv final := by
  induction items generalizing state with
  | nil => exact does_pure start
  | cons item rest ih =>
    refine fun isGood => does_bind (each item List.mem_cons_self state isGood start)
      (fun mid _ _ kept => ?_) isGood
    exact ih kept fun other member => each other (List.mem_cons_of_mem _ member)

end Walk

end MirBft
