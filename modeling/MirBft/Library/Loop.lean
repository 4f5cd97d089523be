/-
**Fallible steps, and loops that run until nothing changes.**

A computation that may fail is an `Except`; `bind_eq_ok` peels one step off a successful run, and
`FailsOnly` says which failures are possible.

`untilStable view step` repeats `step`, collecting what it emits, until `view` of the state does not
change any more, for at most `fuel` rounds:

* `untilStable_invariant`: what a step preserves and emits, the loop preserves and emits;
* `untilStable_stable`: where every changing step raises a bounded rank, the fuel suffices, and the
  loop ends in a state that one more step does not change.
-/

import Mathlib.Logic.Basic

namespace MirBft

theorem bind_eq_ok {ε α β : Type} {first : Except ε α} {next : α → Except ε β} {result : β} :
    (first >>= next) = .ok result ↔ ∃ value, first = .ok value ∧ next value = .ok result := by
  cases first with
  | error text => simp [bind, Except.bind]
  | ok value => simp [bind, Except.bind]

variable {ε α : Type}

theorem pure_eq_ok {value result : α} :
    (pure value : Except ε α) = .ok result ↔ value = result := by
  simp [pure, Except.pure]

/-- **A computation fails with one of the allowed errors only.** -/
def FailsOnly {ε α : Type} (allowed : ε → Prop) (computation : Except ε α) : Prop :=
  ∀ failure, computation = .error failure → allowed failure

namespace FailsOnly

variable {ε α β : Type} {allowed : ε → Prop}

theorem pure (value : α) : FailsOnly allowed (Pure.pure value : Except ε α) :=
  fun _ failed => nomatch failed

theorem of_ok {value : α} {computation : Except ε α} (isOk : computation = .ok value) :
    FailsOnly allowed computation := by
  rw [isOk]
  exact pure value

theorem throw {failure : ε} (isAllowed : allowed failure) :
    FailsOnly allowed (throw failure : Except ε α) := by
  rintro _ ⟨⟩
  exact isAllowed

theorem bind {first : Except ε α} {next : α → Except ε β} (firstFails : FailsOnly allowed first)
    (nextFails : ∀ value, first = .ok value → FailsOnly allowed (next value)) :
    FailsOnly allowed (first >>= next) := by
  intro failure failed
  cases ran : first with
  | error other =>
    rw [ran] at failed
    cases failed
    exact firstFails failure ran
  | ok value =>
    rw [ran] at failed
    exact nextFails value ran failure failed

end FailsOnly

/-- The value of a computation that succeeds. -/
def okValue {ε α : Type} : (result : Except ε α) → result.isOk = true → α
  | .ok value, _ => value
  | .error _, isOk => nomatch isOk

theorem eq_ok_okValue (result : Except ε α) (isOk : result.isOk = true) :
    result = .ok (okValue result isOk) := by
  cases result with
  | error _ => cases isOk
  | ok value => rfl

/-- Whether a computation returns a value with a property can be evaluated. -/
instance decidableReturns {property : α → Prop} [DecidablePred property] (result : Except ε α) :
    Decidable (∃ value, result = .ok value ∧ property value) :=
  match result with
  | .ok value => decidable_of_iff (property value)
      ⟨fun holds => ⟨value, rfl, holds⟩, fun ⟨_, same, holds⟩ => Except.ok.inj same ▸ holds⟩
  | .error _ => .isFalse nofun

/-- And whether it fails in some way. -/
instance decidableFails [DecidableEq ε] (result : Except ε α) (failure : ε) :
    Decidable (result = .error failure) :=
  match result with
  | .error other => decidable_of_iff (other = failure) ⟨congrArg _, Except.error.inj⟩
  | .ok _ => .isFalse nofun

instance decidableFinds {property : α → Prop} [DecidablePred property] (option : Option α) :
    Decidable (∃ value, option = some value ∧ property value) :=
  match option with
  | some value => decidable_of_iff (property value)
      ⟨fun holds => ⟨value, rfl, holds⟩, fun ⟨_, same, holds⟩ => Option.some.inj same ▸ holds⟩
  | none => .isFalse nofun

section Loop

variable {ε σ α β : Type} [DecidableEq σ]

/-- **Repeat a step until the viewed part of the state does not change.** -/
def untilStable (view : α → σ) (step : α → Except ε (α × List β)) :
    Nat → α → Except ε (α × List β)
  | 0, state => pure (state, [])
  | fuel + 1, state => do
    let (after, emitted) ← step state
    if view after = view state then pure (after, emitted)
    else do
      let (final, more) ← untilStable view step fuel after
      pure (final, emitted ++ more)

variable {view : α → σ} {step : α → Except ε (α × List β)} {fuel : Nat} {state final : α} {emitted : List β}

/-- What one round does: a last step, or a changing step and the rest of the loop. -/
theorem untilStable_succ_eq_ok
    (run : untilStable view step (fuel + 1) state = .ok (final, emitted)) :
    (view final = view state ∧ step state = .ok (final, emitted)) ∨
      ∃ after first rest, step state = .ok (after, first) ∧ view after ≠ view state ∧
        untilStable view step fuel after = .ok (final, rest) ∧ emitted = first ++ rest := by
  obtain ⟨⟨after, first⟩, stepped, continued⟩ := bind_eq_ok.mp run
  simp only at continued
  by_cases same : view after = view state
  · rw [if_pos same, pure_eq_ok] at continued
    obtain ⟨rfl, rfl⟩ := continued
    exact Or.inl ⟨same, stepped⟩
  · rw [if_neg same] at continued
    obtain ⟨⟨final', rest⟩, looped, returned⟩ := bind_eq_ok.mp continued
    obtain ⟨rfl, rfl⟩ := returned
    exact Or.inr ⟨after, first, rest, stepped, same, looped, rfl⟩

/-- **The invariant rule**: a relation between start, end and emissions that holds of no step, and
extends by one step at the front, holds of the loop. -/
theorem untilStable_invariant (related : α → α → List β → Prop)
    (none : ∀ state, related state state [])
    (some : ∀ state after final emitted rest, step state = .ok (after, emitted) →
      related after final rest → related state final (emitted ++ rest))
    (run : untilStable view step fuel state = .ok (final, emitted)) :
    related state final emitted := by
  induction fuel generalizing state emitted with
  | zero =>
    rw [untilStable, pure_eq_ok, Prod.mk.injEq] at run
    obtain ⟨rfl, rfl⟩ := run
    exact none state
  | succ fuel ih =>
    rcases untilStable_succ_eq_ok run with ⟨_, last⟩ | ⟨after, first, rest, stepped, _, looped, rfl⟩
    · rw [← List.append_nil emitted]
      exact some state final final emitted [] last (none final)
    · exact some state after final first rest stepped (ih looped)

theorem FailsOnly.untilStable {allowed : ε → Prop} (fails : ∀ state, FailsOnly allowed (step state))
    (fuel : Nat) (state : α) : FailsOnly allowed (untilStable view step fuel state) := by
  induction fuel generalizing state with
  | zero => exact .pure _
  | succ fuel ih =>
    refine .bind (fails state) fun result _ => ?_
    obtain ⟨after, emitted⟩ := result
    by_cases same : view after = view state
    · simp only [if_pos same]
      exact .pure _
    · simp only [if_neg same]
      exact .bind (ih after) fun _ _ => .pure _

/-- **The loop ends where a step changes nothing**, if every changing step raises the rank and the
fuel exceeds what is left of it. -/
theorem untilStable_stable (rank : α → Nat) (bound : Nat)
    (raises : ∀ state after emitted, step state = .ok (after, emitted) →
      view after ≠ view state → rank state < rank after)
    (bounded : ∀ state, rank state ≤ bound)
    (enough : bound < fuel + rank state)
    (run : untilStable view step fuel state = .ok (final, emitted)) :
    ∃ last more, step last = .ok (final, more) ∧ view final = view last := by
  induction fuel generalizing state emitted with
  | zero =>
    -- Without fuel the rank would be above its bound.
    have low := bounded state
    omega
  | succ fuel ih =>
    rcases untilStable_succ_eq_ok run with
      ⟨same, last⟩ | ⟨after, first, rest, stepped, changed, looped, rfl⟩
    · exact ⟨state, emitted, last, same⟩
    · have higher := raises state after first stepped changed
      exact ih (by omega) looped

end Loop

end MirBft
