/-!
Running a system until nothing in it moves. Every step makes the measure smaller, so it comes to
rest, in a state that refuses a step (`step_rest`) and that steps lead to (`rest_induction`).
-/

namespace FrameIntake

variable {σ : Type}

/-- A partial step, with a measure that shows that it cannot be taken for ever. -/
structure Restless (σ : Type) where
  step : σ → Option σ
  measure : σ → Nat
  decreases : ∀ s t, step s = some t → measure t < measure s

namespace Restless

def rest (r : Restless σ) (s : σ) : σ :=
  match _h : r.step s with
  | none => s
  | some t => r.rest t
termination_by r.measure s
decreasing_by exact r.decreases s t ‹_›

theorem step_rest (r : Restless σ) (s : σ) : r.step (r.rest s) = none := by
  fun_induction r.rest s with
  | case1 s h => exact h
  | case2 s t h ih => exact ih

/-- What a step keeps, the run to rest keeps. -/
theorem rest_induction (r : Restless σ) {P : σ → Prop} (keeps : ∀ s t, P s → r.step s = some t → P t)
    {s : σ} (start : P s) : P (r.rest s) := by
  fun_induction r.rest s with
  | case1 s h => exact start
  | case2 s t h ih => exact ih (keeps s t start h)

end Restless

end FrameIntake
