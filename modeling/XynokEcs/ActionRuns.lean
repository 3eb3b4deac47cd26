import Mathlib.Logic.Basic
import Mathlib.Tactic.Common

/-!
# Runs of actions

A run applies a list of actions one after the other. A condition that every
action has to meet in the state it starts from goes along with the run, and so
does whatever each allowed action preserves. Nothing here depends on what the
actions and the states are.
-/

namespace XynokEcs.ActionRuns

variable {σ A : Type} {step : A → σ → σ} {ok ok' : A → σ → Prop} {as bs : List A} {s : σ}

/-- The state after a list of actions. -/
def runAll (step : A → σ → σ) : List A → σ → σ
  | [],s => s
  | a::as,s => runAll step as (step a s)

/-- Every action meets the condition in the state it starts from. -/
def Along (step : A → σ → σ) (ok : A → σ → Prop) : List A → σ → Prop
  | [],_ => True
  | a::as,s => ok a s ∧ Along step ok as (step a s)

/-- A run of two lists is one run after the other. -/
theorem runAll_append : runAll step (as++bs) s=runAll step bs (runAll step as s) := by
  induction as generalizing s with
  | nil => rfl
  | cons a as ih => exact ih

/-- So what holds along it holds along both. -/
theorem along_append :
    Along step ok (as++bs) s ↔ Along step ok as s ∧ Along step ok bs (runAll step as s) := by
  induction as generalizing s with
  | nil => exact ⟨fun h => ⟨trivial,h⟩,fun h => h.2⟩
  | cons a as ih => exact (and_congr_right fun _ => ih).trans and_assoc.symm

/-- What holds along a run may be said more weakly. -/
theorem Along.mono (h : Along step ok as s) (hi : ∀ a t,ok a t → ok' a t) :
    Along step ok' as s := by
  induction as generalizing s with
  | nil => trivial
  | cons a as ih => exact ⟨hi a s h.1,ih h.2⟩

/-- Two things that hold along a run hold together. -/
theorem Along.and (h : Along step ok as s) (h' : Along step ok' as s) :
    Along step (fun a t => ok a t ∧ ok' a t) as s := by
  induction as generalizing s with
  | nil => trivial
  | cons a as ih => exact ⟨⟨h.1,h'.1⟩,ih h.2 h'.2⟩

/-- What every allowed action preserves holds after the run. -/
theorem Along.invariant {P : σ → Prop} (h : Along step ok as s)
    (hstep : ∀ a t,ok a t → P t → P (step a t)) (hs : P s) : P (runAll step as s) := by
  induction as generalizing s with
  | nil => exact hs
  | cons a as ih => exact ih h.2 (hstep a s h.1 hs)

/-- The same for what holds together with something known to be preserved. -/
theorem Along.strengthen {P : σ → Prop} (h : Along step ok as s)
    (hstep : ∀ a t,ok a t → P t → P (step a t)) (hs : P s) :
    Along step (fun a t => ok a t ∧ P t) as s := by
  induction as generalizing s with
  | nil => trivial
  | cons a as ih => exact ⟨⟨h.1,hs⟩,ih h.2 (hstep a s h.1 hs)⟩

end XynokEcs.ActionRuns
