import Mathlib

/-! Runs of a transition function, and invariants over them. -/
namespace Espresso.System

variable {S A : Type} (step : S → A → Option S)

/-- The actions are taken one after the other, each in a state that allows it. -/
inductive Trace (allowed : S → A → Prop) : S → List A → S → Prop
  | nil (s : S) : Trace allowed s [] s
  | cons {s s' s'' : S} {a : A} {as : List A} (ha : allowed s a) (h : step s a = some s')
    (hrest : Trace allowed s' as s'') : Trace allowed s (a :: as) s''

variable {step} {allowed : S → A → Prop}

/-- What every allowed step keeps holds at the end of every run. -/
theorem Trace.invariant {I : S → Prop}
    (hstep : ∀ s a s', I s → allowed s a → step s a = some s' → I s') {s s' : S} {as : List A}
    (h : Trace step allowed s as s') (hs : I s) : I s' := by
  induction h with
  | nil => exact hs
  | cons ha h _ ih => exact ih (hstep _ _ _ hs ha h)

theorem Trace.mono {allowed' : S → A → Prop} (hle : ∀ s a, allowed s a → allowed' s a) {s s' : S}
    {as : List A} (h : Trace step allowed s as s') : Trace step allowed' s as s' := by
  induction h with
  | nil => exact .nil _
  | cons ha h _ ih => exact .cons (hle _ _ ha) h ih

/-- The run of a list of actions, where it exists. -/
def execute (step : S → A → Option S) (s : S) : List A → Option S
  | [] => some s
  | a :: as => (step s a).bind fun s' => execute step s' as

/-- The steps that are allowed. -/
def supervise (step : S → A → Option S) (allowed : S → A → Prop)
    [∀ s a, Decidable (allowed s a)] (s : S) (a : A) : Option S :=
  if allowed s a then step s a else none

theorem Trace.of_execute [∀ s a, Decidable (allowed s a)] {s s' : S} {as : List A}
    (h : execute (supervise step allowed) s as = some s') : Trace step allowed s as s' := by
  induction as generalizing s with
  | nil =>
    cases h
    exact .nil _
  | cons a as ih =>
    obtain ⟨s1,h1,hrest⟩ := Option.bind_eq_some_iff.mp h
    unfold supervise at h1
    split at h1
    · rename_i ha
      exact .cons ha h1 (ih hrest)
    · cases h1

end Espresso.System
