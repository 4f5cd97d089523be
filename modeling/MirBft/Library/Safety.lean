/-
**Procedures that fail only as they may.**

* `safe allowed m s post`: a run of `m` from `s` ends as `post` says, or fails with one of the
  allowed failures. It is `wp` together with `FailsOnly`, and its rules follow the shape of a
  procedure;
* `Maintains allowed good m`: from every good state `m` is safe and ends in a good state. Such
  procedures compose without a look at the states in between;
* `Keeps guard m`: every run of `m` has an effect or fails as the state it starts from excuses.
-/

import MirBft.Library.Proc

namespace MirBft

namespace FailsOnly

variable {ε α β : Type} {allowed : ε → Prop}

theorem mono {weaker : ε → Prop} {computation : Except ε α} (fails : FailsOnly allowed computation)
    (implies : ∀ failure, allowed failure → weaker failure) : FailsOnly weaker computation :=
  fun failure failed => implies failure (fails failure failed)

/-- What fails as the computation does. -/
theorem of_error {computation : Except ε α} {other : Except ε β} (fails : FailsOnly allowed computation)
    (same : ∀ failure, other = .error failure → computation = .error failure) :
    FailsOnly allowed other :=
  fun failure failed => fails failure (same failure failed)

theorem ite {condition : Prop} [Decidable condition] {yes no : Except ε α}
    (first : condition → FailsOnly allowed yes) (second : ¬ condition → FailsOnly allowed no) :
    FailsOnly allowed (if condition then yes else no) := by
  by_cases holds : condition
  · rw [if_pos holds]
    exact first holds
  · rw [if_neg holds]
    exact second holds

/-- A computation may return early. -/
theorem pure_else {condition : Prop} [Decidable condition] {value : α} {rest : Except ε α}
    (fails : FailsOnly allowed rest) : FailsOnly allowed (if condition then Pure.pure value else rest) :=
  .ite (fun _ => .pure _) fun _ => fails

/-- An assertion may fail as it is allowed to. -/
theorem throw_else {condition : Prop} [Decidable condition] {failure : ε} {rest : Except ε α}
    (isAllowed : allowed failure) (fails : FailsOnly allowed rest) :
    FailsOnly allowed (if condition then MonadExcept.throw failure else rest) :=
  .ite (fun _ => .throw isAllowed) fun _ => fails

end FailsOnly

namespace Proc

variable {ε β σ τ α γ ι : Type} {allowed : ε → Prop}
variable {m yes no : Proc ε β σ α} {state : σ} {post : σ → List β → α → Prop} {failure : ε}
  {result : Except ε α} {next : α → Proc ε β σ γ} {condition : Prop} {update : σ → σ} {view : σ → τ}

/-- **Every run ends as `post` says or fails as allowed.** -/
def safe (allowed : ε → Prop) (m : Proc ε β σ α) (state : σ) (post : σ → List β → α → Prop) : Prop :=
  FailsOnly allowed (m state) ∧ wp m state post

theorem safe_mono {weaker : σ → List β → α → Prop} (holds : safe allowed m state post)
    (implies : ∀ final emitted value, post final emitted value → weaker final emitted value) :
    safe allowed m state weaker :=
  ⟨holds.1, wp_mono holds.2 implies⟩

theorem safe_weaken {weaker : ε → Prop} (holds : safe allowed m state post)
    (implies : ∀ failure, allowed failure → weaker failure) : safe weaker m state post :=
  ⟨holds.1.mono implies, holds.2⟩

/-- **A procedure that cannot fail** has a run. -/
theorem exists_of_safe (total : safe (fun _ => False) m state post) :
    ∃ result, m state = .ok result := by
  cases ran : m state with
  | error failure => exact (total.1 failure ran).elim
  | ok result => exact ⟨result, rfl⟩

theorem safe_pure {value : α} (holds : post state [] value) :
    safe allowed (pure value : Proc ε β σ α) state post :=
  ⟨fun _ failed => (nomatch failed), (wp_pure value state post).mpr holds⟩

theorem safe_modify {post : σ → List β → Unit → Prop} (holds : post (update state) [] ()) :
    safe allowed (modify update : Proc ε β σ Unit) state post :=
  ⟨fun _ failed => (nomatch failed), (wp_modify update state post).mpr holds⟩

theorem safe_emit {sent : List β} {post : σ → List β → Unit → Prop} (holds : post state sent ()) :
    safe allowed (emit sent : Proc ε β σ Unit) state post :=
  ⟨fun _ failed => (nomatch failed), (wp_emit sent state post).mpr holds⟩

theorem safe_fail (isAllowed : allowed failure) : safe allowed (fail failure : Proc ε β σ α) state post := by
  refine ⟨?_, wp_fail failure state post⟩
  rintro _ ⟨⟩
  exact isAllowed

theorem safe_lift (fails : FailsOnly allowed result)
    (holds : ∀ value, result = .ok value → post state [] value) :
    safe allowed (lift result : Proc ε β σ α) state post :=
  ⟨failsOnly_lift fails state, (wp_lift result state post).mpr holds⟩

theorem safe_bind {post : σ → List β → γ → Prop} (holds : safe allowed m state fun mid first value =>
      safe allowed (next value) mid fun final more result => post final (first ++ more) result) :
    safe allowed (m >>= next) state post := by
  refine ⟨failsOnly_bind holds.1 (wp_mono holds.2 fun _ _ _ rest => rest.1), ?_⟩
  rw [wp_bind]
  exact wp_mono holds.2 fun _ _ _ rest => rest.2

theorem safe_get_bind {next : σ → Proc ε β σ γ} {post : σ → List β → γ → Prop}
    (continued : safe allowed (next state) state post) : safe allowed (get >>= next) state post := by
  refine ⟨failsOnly_bind (fun _ failed => (nomatch failed)) ?_, wp_get_bind continued.2⟩
  rw [wp_get]
  exact continued.1

theorem safe_lift_bind {post : σ → List β → γ → Prop} (fails : FailsOnly allowed result)
    (continued : ∀ value, result = .ok value → safe allowed (next value) state post) :
    safe allowed (lift result >>= next) state post := by
  refine safe_bind (safe_lift fails ?_)
  intro value isValue
  simpa using continued value isValue

theorem safe_zoom {update : σ → τ → σ} {m : Proc ε β τ α}
    (holds : safe allowed m (view state) fun part emitted value =>
      post (update state part) emitted value) : safe allowed (zoom view update m) state post := by
  refine ⟨?_, (wp_zoom view update m state post).mpr holds.2⟩
  refine holds.1.of_error fun failure failed => ?_
  unfold zoom at failed
  split at failed <;> cases failed
  assumption

theorem safe_quiet (holds : safe allowed m state fun final _ value => post final [] value) :
    safe allowed (quiet m) state post := by
  refine ⟨?_, (wp_quiet m state post).mpr holds.2⟩
  refine holds.1.of_error fun failure failed => ?_
  unfold quiet at failed
  split at failed <;> cases failed
  assumption

theorem safe_listen {post : σ → List β → α × List β → Prop}
    (holds : safe allowed m state fun final emitted value => post final emitted (value, emitted)) :
    safe allowed (listen m) state post := by
  refine ⟨?_, (wp_listen m state post).mpr holds.2⟩
  refine holds.1.of_error fun failure failed => ?_
  unfold listen at failed
  split at failed <;> cases failed
  assumption

theorem safe_ite [Decidable condition] (first : condition → safe allowed yes state post)
    (second : ¬ condition → safe allowed no state post) :
    safe allowed (if condition then yes else no) state post := by
  by_cases holds : condition
  · rw [if_pos holds]
    exact first holds
  · rw [if_neg holds]
    exact second holds

/-! ### Procedures between good states -/

/-- **From every good state the procedure is safe and ends in a good state.** -/
def Maintains (allowed : ε → Prop) (good : σ → Prop) (m : Proc ε β σ α) : Prop :=
  ∀ state, good state → safe allowed m state fun final _ _ => good final

variable {good : σ → Prop}

theorem maintains_pure (value : α) : Maintains allowed good (pure value : Proc ε β σ α) :=
  fun _ holds => safe_pure holds

theorem maintains_emit (sent : List β) : Maintains allowed good (emit sent : Proc ε β σ Unit) :=
  fun _ holds => safe_emit holds

theorem maintains_fail (isAllowed : allowed failure) : Maintains allowed good (fail failure : Proc ε β σ α) :=
  fun _ _ => safe_fail isAllowed

theorem maintains_modify (keeps : ∀ state, good state → good (update state)) :
    Maintains allowed good (modify update : Proc ε β σ Unit) :=
  fun state holds => safe_modify (keeps state holds)

theorem maintains_bind (first : Maintains allowed good m)
    (second : ∀ value, Maintains allowed good (next value)) : Maintains allowed good (m >>= next) :=
  fun state holds => safe_bind (safe_mono (first state holds) fun mid _ value kept =>
    second value mid kept)

theorem maintains_get_bind {next : σ → Proc ε β σ γ}
    (continued : ∀ value, Maintains allowed good (next value)) :
    Maintains allowed good (get >>= next) :=
  fun state holds => safe_get_bind (continued state state holds)

theorem maintains_lift_bind (fails : FailsOnly allowed result)
    (continued : ∀ value, Maintains allowed good (next value)) :
    Maintains allowed good (lift result >>= next) :=
  fun state holds => safe_lift_bind fails fun value _ => continued value state holds

theorem maintains_ite [Decidable condition] (first : Maintains allowed good yes)
    (second : Maintains allowed good no) : Maintains allowed good (if condition then yes else no) :=
  fun state holds => safe_ite (fun _ => first state holds) fun _ => second state holds

theorem maintains_zoom {part : τ → Prop} {update : σ → τ → σ} {m : Proc ε β τ α}
    (inner : Maintains allowed part m) (down : ∀ state, good state → part (view state))
    (up : ∀ state final, good state → part final → good (update state final)) :
    Maintains allowed good (zoom view update m) :=
  fun state holds => safe_zoom (safe_mono (inner (view state) (down state holds))
    fun final _ _ kept => up state final holds kept)

/-! ### Effects and the failures that go with them -/

/-- **An effect, and the failures that a state excuses.** What the effect leads to excuses no
more. -/
structure Guard (ε β σ : Type) extends Effect σ β where
  excused : σ → ε → Prop
  excused_rel : ∀ {first second emitted failure}, rel first second emitted → excused second failure →
    excused first failure

/-- **Every run has the effect, or fails as its first state excuses.** -/
def Keeps (guard : Guard ε β σ) (m : Proc ε β σ α) : Prop :=
  ∀ state, safe (guard.excused state) m state fun final emitted _ => guard.rel state final emitted

variable {guard : Guard ε β σ} {items : List ι} {body : ι → Proc ε β σ Unit}

theorem Keeps.has (keeps : Keeps guard m) : Has guard.toEffect m :=
  fun state => (keeps state).2

theorem Keeps.maintains (keeps : Keeps guard m)
    (excuses : ∀ state, good state → ∀ failure, guard.excused state failure → allowed failure)
    (still : ∀ {state final emitted}, good state → guard.rel state final emitted → good final) :
    Maintains allowed good m :=
  fun state holds => safe_mono (safe_weaken (keeps state) (excuses state holds)) fun _ _ _ => still holds

/-- The effect with all failures excused. -/
def Effect.unguarded (effect : Effect σ β) : Guard ε β σ where
  toEffect := effect
  excused _ _ := True
  excused_rel _ _ := trivial

theorem Has.keeps {effect : Effect σ β} (has : Has effect m) : Keeps effect.unguarded m :=
  fun state => ⟨fun _ _ => trivial, has state⟩

/-- The guard of the good states. -/
def Guard.between (allowed : ε → Prop) (good : σ → Prop) : Guard ε β σ where
  rel before after _ := good before → good after
  refl _ holds := holds
  trans first second holds := second (first holds)
  excused state failure := good state → allowed failure
  excused_rel done excused holds := excused (done holds)

theorem keeps_between : Keeps (.between allowed good) m ↔ Maintains allowed good m := by
  constructor
  · exact fun keeps => keeps.maintains (fun _ holds _ excused => excused holds) fun holds done => done holds
  · intro maintains state
    exact ⟨fun failure failed holds => (maintains state holds).1 failure failed,
      fun final emitted value ran holds => (maintains state holds).2 final emitted value ran⟩

theorem keeps_pure (value : α) : Keeps guard (pure value : Proc ε β σ α) :=
  fun state => safe_pure (guard.refl state)

theorem keeps_fail (excused : ∀ state, guard.excused state failure) :
    Keeps guard (fail failure : Proc ε β σ α) :=
  fun state => safe_fail (excused state)

theorem safe_bind_keeps
    (first : safe (guard.excused state) m state fun mid emitted _ => guard.rel state mid emitted)
    (second : ∀ value, Keeps guard (next value)) :
    safe (guard.excused state) (m >>= next) state fun final emitted _ => guard.rel state final emitted := by
  refine safe_bind (safe_mono first fun mid _ value done => ?_)
  refine safe_mono (safe_weaken (second value mid) fun _ => guard.excused_rel done) ?_
  intro final more _ last
  exact guard.trans done last

theorem keeps_bind (first : Keeps guard m) (second : ∀ value, Keeps guard (next value)) :
    Keeps guard (m >>= next) :=
  fun state => safe_bind_keeps (first state) second

theorem keeps_get_bind {next : σ → Proc ε β σ γ} (continued : ∀ value, Keeps guard (next value)) :
    Keeps guard (get >>= next) :=
  fun state => safe_get_bind (continued state state)

theorem keeps_lift_bind (fails : ∀ state, FailsOnly (guard.excused state) result)
    (continued : ∀ value, result = .ok value → Keeps guard (next value)) :
    Keeps guard (lift result >>= next) :=
  fun state => safe_lift_bind (fails state) fun value isValue => continued value isValue state

theorem keeps_ite [Decidable condition] (first : Keeps guard yes) (second : Keeps guard no) :
    Keeps guard (if condition then yes else no) :=
  fun state => safe_ite (fun _ => first state) fun _ => second state

theorem keeps_forEach
    (step : ∀ item ∈ items, Keeps guard (body item)) : Keeps guard (forEach body items) := by
  induction items with
  | nil => exact keeps_pure ()
  | cons item rest ih =>
    exact keeps_bind (step item (by simp)) fun _ => ih fun other member => step other (by simp [member])

theorem maintains_forEach
    (step : ∀ item ∈ items, Maintains allowed good (body item)) :
    Maintains allowed good (forEach body items) :=
  keeps_between.mp (keeps_forEach fun item member => keeps_between.mpr (step item member))

end Proc

end MirBft
