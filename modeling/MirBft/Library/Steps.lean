/-
**Runs of a transition relation that emits things.**

`Steps step` is the closure of a relation between states that emits a list at each step; what the
steps preserve, a run preserves (`Steps.invariant`). A procedure whose runs are runs of the
relation, seen through a view of its state, has the effect `Proc.stepsEffect`. `EachAfter` says of
each item of a trace what came before it.
-/

import MirBft.Library.Proc

namespace MirBft

/-- Finitely many steps, with all that they emit. -/
inductive Steps {α β : Type} (step : α → α → List β → Prop) : α → α → List β → Prop
  | refl (state : α) : Steps step state state []
  | cons {first second last : α} {emitted more : List β} : step first second emitted →
      Steps step second last more → Steps step first last (emitted ++ more)

namespace Steps

variable {α β : Type} {step other : α → α → List β → Prop} {first second third : α}
  {emitted more : List β}

theorem single (one : step first second emitted) : Steps step first second emitted := by
  rw [← List.append_nil emitted]
  exact .cons one (.refl second)

theorem trans (run : Steps step first second emitted) (rest : Steps step second third more) :
    Steps step first third (emitted ++ more) := by
  induction run with
  | refl => exact rest
  | cons one _ ih =>
    rw [List.append_assoc]
    exact .cons one (ih rest)

theorem mono (implies : ∀ {first second emitted}, step first second emitted → other first second emitted)
    (run : Steps step first second emitted) : Steps other first second emitted := by
  induction run with
  | refl => exact .refl _
  | cons one _ ih => exact .cons (implies one) ih

/-- **The invariant rule**: the invariant speaks of the state and of all that was emitted. -/
theorem invariant (holds : α → List β → Prop)
    (keeps : ∀ first second before emitted, holds first before → step first second emitted →
      holds second (before ++ emitted))
    (run : Steps step first second emitted) {before : List β} (start : holds first before) :
    holds second (before ++ emitted) := by
  induction run generalizing before with
  | refl => simpa using start
  | cons one _ ih =>
    rw [← List.append_assoc]
    exact ih (keeps _ _ _ _ start one)

end Steps

/-- The effect of procedures whose runs are steps of a relation on a view of the state. -/
def Proc.stepsEffect {σ α β : Type} (view : σ → α) (step : α → α → List β → Prop) :
    Proc.Effect σ β where
  rel before after emitted := Steps step (view before) (view after) emitted
  refl state := .refl (view state)
  trans := Steps.trans

/-! ### What comes before what -/

/-- **Every item of a trace has the property**, which may speak of the trace before it. -/
def EachAfter {β : Type} (property : List β → β → Prop) (trace : List β) : Prop :=
  ∀ before item after, trace = before ++ item :: after → property before item

namespace EachAfter

variable {β : Type} {property other : List β → β → Prop} {trace more : List β}

theorem nil : EachAfter property [] := by
  intro before item after split
  simp at split

theorem single {item : β} (holds : property [] item) : EachAfter property [item] := by
  intro before found after split
  obtain ⟨rfl, rfl, rfl⟩ : before = [] ∧ found = item ∧ after = [] := by
    rcases before with _ | ⟨first, rest⟩
    · simp at split
      exact ⟨rfl, split.1.symm, split.2⟩
    · simp at split
  exact holds

theorem of_forall (holds : ∀ item ∈ trace, ∀ before, property before item) :
    EachAfter property trace := by
  rintro before item after rfl
  exact holds item (by simp) before

theorem mono (trace_has : EachAfter property trace)
    (implies : ∀ before item, property before item → other before item) : EachAfter other trace :=
  fun before item after split => implies before item (trace_has before item after split)

/-- A longer trace: what is added has the property after all that was there. -/
theorem append (first : EachAfter property trace)
    (second : EachAfter (fun before => property (trace ++ before)) more) :
    EachAfter property (trace ++ more) := by
  intro before item after split
  rcases List.append_eq_append_iff.mp split with ⟨middle, rfl, rest⟩ | ⟨middle, rfl, rest⟩
  · exact second middle item after rest
  · cases middle with
    | nil => simpa using second [] item after rest.symm
    | cons head tail =>
      obtain ⟨rfl, rfl⟩ := List.cons.inj rest
      exact first before item tail rfl

end EachAfter

end MirBft
