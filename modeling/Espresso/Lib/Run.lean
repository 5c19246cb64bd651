import Mathlib

/-! Programs over a state that may fail, with pre- and postconditions. A failure keeps the state it
leaves behind. A loop without a bound of its own gets a number of turns; a program that has used
them up is unfinished. -/
namespace Espresso

inductive Outcome (ε α : Type)
  | ok (a : α)
  | error (e : ε)
  | unfinished
  deriving DecidableEq, Repr

namespace Outcome
variable {ε α S : Type}

/-- The program has succeeded, and its result and state pass a test. -/
def okAnd (x : Outcome ε α × S) (p : α → S → Bool) : Bool :=
  match x with
  | (ok a,s) => p a s
  | _ => false

theorem exists_of_okAnd {x : Outcome ε α × S} {p : α → S → Bool} (h : okAnd x p = true) :
    ∃ a s, x = (ok a,s) ∧ p a s = true := by
  obtain ⟨o,s⟩ := x
  cases o with
  | ok a => exact ⟨a,s,rfl,h⟩
  | error e => cases h
  | unfinished => cases h

end Outcome

/-- A program with state `S`. -/
def Run (S ε α : Type) : Type := S → Outcome ε α × S

namespace Run
variable {S ε α β : Type}

def bind (x : Run S ε α) (f : α → Run S ε β) : Run S ε β := fun s =>
  match x s with
  | (.ok a,s) => f a s
  | (.error e,s) => (.error e,s)
  | (.unfinished,s) => (.unfinished,s)

instance : Monad (Run S ε) where
  pure a := fun s => (.ok a,s)
  bind := bind

def fail (e : ε) : Run S ε α := fun s => (.error e,s)

def unfinished : Run S ε α := fun s => (.unfinished,s)

@[simp] theorem pure_apply (a : α) (s : S) : (pure a : Run S ε α) s = (.ok a,s) := rfl

@[simp] theorem fail_apply (e : ε) (s : S) : (fail e : Run S ε α) s = (.error e,s) := rfl

@[simp] theorem unfinished_apply (s : S) : (unfinished : Run S ε α) s = (.unfinished,s) := rfl

theorem bind_apply (x : Run S ε α) (f : α → Run S ε β) (s : S) : (x >>= f) s =
    match x s with
    | (.ok a,s) => f a s
    | (.error e,s) => (.error e,s)
    | (.unfinished,s) => (.unfinished,s) := rfl

theorem bind_of_ok {x : Run S ε α} {s s' : S} {a : α} (h : x s = (.ok a,s'))
    (f : α → Run S ε β) : (x >>= f) s = f a s' := by rw [bind_apply, h]

theorem bind_of_error {x : Run S ε α} {s s' : S} {e : ε} (h : x s = (.error e,s'))
    (f : α → Run S ε β) : (x >>= f) s = (.error e,s') := by rw [bind_apply, h]

/-- A sequence succeeds only if both parts do. -/
theorem bind_eq_ok {x : Run S ε α} {f : α → Run S ε β} {s s' : S} {b : β}
    (h : (x >>= f) s = (.ok b,s')) : ∃ a s1, x s = (.ok a,s1) ∧ f a s1 = (.ok b,s') := by
  rw [bind_apply] at h
  cases hx : x s with
  | mk o s1 =>
    rw [hx] at h
    cases o with
    | ok a => exact ⟨a,s1,rfl,h⟩
    | error e => cases h
    | unfinished => cases h

/-! ### Programs that come to an end -/

/-- The program does not run out of turns. -/
def Finishes (x : Run S ε α) : Prop := ∀ s, (x s).1 ≠ .unfinished

theorem Finishes.pure (a : α) : Finishes (Pure.pure a : Run S ε α) := nofun

theorem Finishes.fail (e : ε) : Finishes (Run.fail e : Run S ε α) := nofun

theorem Finishes.bind {x : Run S ε α} {f : α → Run S ε β} (hx : Finishes x)
    (hf : ∀ a, Finishes (f a)) : Finishes (x >>= f) := by
  intro s
  have h := hx s
  rw [bind_apply]
  cases hxs : x s with
  | mk o s1 =>
    rw [hxs] at h
    cases o with
    | ok a => exact hf a s1
    | error e => exact nofun
    | unfinished => exact absurd rfl h

theorem Finishes.ite {c : Prop} [Decidable c] {x y : Run S ε α} (hx : Finishes x)
    (hy : Finishes y) : Finishes (if c then x else y) := by
  split
  · exact hx
  · exact hy

/-! ### Pre- and postconditions -/

/-- From `P` the program ends in `Q` if it succeeds, and in `E` if it does not. -/
def Triple (P : S → Prop) (x : Run S ε α) (Q : α → S → Prop) (E : S → Prop) : Prop :=
  ∀ s, P s → match x s with
    | (.ok a,s') => Q a s'
    | (.error _,s') => E s'
    | (.unfinished,s') => E s'

section
variable {P P' E : S → Prop} {Q Q' : α → S → Prop} {x : Run S ε α}

theorem Triple.pure {a : α} (h : ∀ s, P s → Q a s) : Triple P (Pure.pure a : Run S ε α) Q E := h

theorem Triple.fail {e : ε} (h : ∀ s, P s → E s) : Triple P (Run.fail e : Run S ε α) Q E := h

theorem Triple.unfinished (h : ∀ s, P s → E s) :
    Triple P (Run.unfinished : Run S ε α) Q E := h

theorem Triple.bind {f : α → Run S ε β} {Q' : β → S → Prop} (hx : Triple P x Q E)
    (hf : ∀ a, Triple (Q a) (f a) Q' E) : Triple P (x >>= f) Q' E := by
  intro s hs
  have h := hx s hs
  rw [bind_apply]
  cases hxs : x s with
  | mk o s1 =>
    rw [hxs] at h
    cases o with
    | ok a => exact hf a s1 h
    | error e => exact h
    | unfinished => exact h

theorem Triple.ite {c : Prop} [Decidable c] {y : Run S ε α} (hx : c → Triple P x Q E)
    (hy : ¬ c → Triple P y Q E) : Triple P (if c then x else y) Q E := by
  split
  · exact hx ‹_›
  · exact hy ‹_›

theorem Triple.weaken {E' : S → Prop} (h : Triple P x Q E) (hP : ∀ s, P' s → P s)
    (hQ : ∀ a s, Q a s → Q' a s) (hE : ∀ s, E s → E' s) : Triple P' x Q' E' := by
  intro s hs
  have h' := h s (hP s hs)
  cases hxs : x s with
  | mk o s1 =>
    rw [hxs] at h'
    cases o with
    | ok a => exact hQ a s1 h'
    | error e => exact hE s1 h'
    | unfinished => exact hE s1 h'

end

/-! ### Programs that read a stream -/

/-- The program takes off the stream what `f` takes off it, and fails where `f` has no result.
`Holds s w` says that `w` is still to be read in state `s`; `Frame` is what the program leaves
alone. -/
def Follows {W : Type} (Holds : S → W → Prop) (Frame : S → S → Prop) (x : Run S ε α)
    (f : W → Option (α × W)) : Prop :=
  ∀ s w, Holds s w → match x s with
    | (.ok a,s') => ∃ w', f w = some (a,w') ∧ Holds s' w' ∧ Frame s s'
    | (.error _,_) => f w = none
    | (.unfinished,_) => False

section
variable {W : Type} {Holds : S → W → Prop} {Frame : S → S → Prop}

/-- Where `f` has a result, so has the program. -/
theorem Follows.of_some {x : Run S ε α} {f : W → Option (α × W)} (h : Follows Holds Frame x f)
    {s : S} {w w' : W} {a : α} (hs : Holds s w) (hf : f w = some (a,w')) :
    ∃ s', x s = (.ok a,s') ∧ Holds s' w' ∧ Frame s s' := by
  have hx := h s w hs
  cases hxs : x s with
  | mk o s1 =>
    rw [hxs] at hx
    cases o with
    | unfinished => exact hx.elim
    | error e => cases hf.symm.trans hx
    | ok b =>
      obtain ⟨w1,hf1,hs1,hframe⟩ := hx
      cases hf.symm.trans hf1
      exact ⟨s1,rfl,hs1,hframe⟩

theorem Follows.of_none {x : Run S ε α} {f : W → Option (α × W)} (h : Follows Holds Frame x f)
    {s : S} {w : W} (hs : Holds s w) (hf : f w = none) : ∃ e s', x s = (.error e,s') := by
  have hx := h s w hs
  cases hxs : x s with
  | mk o s1 =>
    rw [hxs] at hx
    cases o with
    | unfinished => exact hx.elim
    | error e => exact ⟨e,s1,rfl⟩
    | ok b =>
      obtain ⟨w1,hf1,-⟩ := hx
      cases hf.symm.trans hf1

theorem Follows.intro {x : Run S ε α} {f : W → Option (α × W)}
    (hsome : ∀ s w a w', Holds s w → f w = some (a,w') →
      ∃ s', x s = (.ok a,s') ∧ Holds s' w' ∧ Frame s s')
    (hnone : ∀ s w, Holds s w → f w = none → ∃ e s', x s = (.error e,s')) :
    Follows Holds Frame x f := by
  intro s w hs
  cases hf : f w with
  | none =>
    obtain ⟨e,s',hx⟩ := hnone s w hs hf
    rw [hx]
  | some p =>
    obtain ⟨s',hx,hs',hframe⟩ := hsome s w p.1 p.2 hs hf
    rw [hx]
    exact ⟨p.2,rfl,hs',hframe⟩

end

/-! ### One program in place of another -/

/-- Where the first program succeeds, so does the second, with the same result and in a state that
corresponds. -/
def Simulates {T : Type} (Rel : S → T → Prop) (x : Run S ε α) (y : Run T ε α) : Prop :=
  ∀ s t a s', Rel s t → x s = (.ok a,s') → ∃ t', y t = (.ok a,t') ∧ Rel s' t'

section
variable {T : Type} {Rel : S → T → Prop}

theorem Simulates.pure (a : α) : Simulates Rel (Pure.pure a : Run S ε α) (Pure.pure a) := by
  intro s t b s' h hx
  cases hx
  exact ⟨t,rfl,h⟩

theorem Simulates.of_fail (e : ε) (y : Run T ε α) : Simulates Rel (Run.fail e) y := by
  intro s t b s' h hx
  cases hx

theorem Simulates.bind {x : Run S ε α} {y : Run T ε α} {f : α → Run S ε β} {g : α → Run T ε β}
    (hx : Simulates Rel x y) (hf : ∀ a, Simulates Rel (f a) (g a)) :
    Simulates Rel (x >>= f) (y >>= g) := by
  intro s t b s' h hxf
  obtain ⟨a,s1,hxs,hfs⟩ := bind_eq_ok hxf
  obtain ⟨t1,hyt,h1⟩ := hx s t a s1 h hxs
  obtain ⟨t',hgt,h'⟩ := hf a s1 t1 b s' h1 hfs
  exact ⟨t',by rw [bind_of_ok hyt, hgt],h'⟩

theorem Simulates.ite {c : Prop} [Decidable c] {x x' : Run S ε α} {y y' : Run T ε α}
    (hx : c → Simulates Rel x y) (hx' : ¬ c → Simulates Rel x' y') :
    Simulates Rel (if c then x else x') (if c then y else y') := by
  split
  · exact hx ‹_›
  · exact hx' ‹_›

end

/-- From states that correspond both programs come to the same outcome, in states that
correspond. -/
def Agrees {T : Type} (Rel : S → T → Prop) (x : Run S ε α) (y : Run T ε α) : Prop :=
  ∀ s t, Rel s t → (x s).1 = (y t).1 ∧ Rel (x s).2 (y t).2

section
variable {T : Type} {Rel : S → T → Prop}

theorem Agrees.pure (a : α) : Agrees Rel (Pure.pure a : Run S ε α) (Pure.pure a) :=
  fun _ _ h => ⟨rfl,h⟩

theorem Agrees.fail (e : ε) : Agrees Rel (Run.fail e : Run S ε α) (Run.fail e) :=
  fun _ _ h => ⟨rfl,h⟩

theorem Agrees.unfinished : Agrees Rel (Run.unfinished : Run S ε α) Run.unfinished :=
  fun _ _ h => ⟨rfl,h⟩

theorem Agrees.bind {x : Run S ε α} {y : Run T ε α} {f : α → Run S ε β} {g : α → Run T ε β}
    (hx : Agrees Rel x y) (hf : ∀ a, (∃ s s1, x s = (.ok a,s1)) → Agrees Rel (f a) (g a)) :
    Agrees Rel (x >>= f) (y >>= g) := by
  intro s t h
  have hstep := hx s t h
  rw [bind_apply, bind_apply]
  cases hxs : x s with
  | mk o s1 =>
    cases hyt : y t with
    | mk o' t1 =>
      rw [hxs, hyt] at hstep
      obtain ⟨rfl,h1⟩ := hstep
      cases o with
      | ok a => exact hf a ⟨s,s1,hxs⟩ s1 t1 h1
      | error e => exact ⟨rfl,h1⟩
      | unfinished => exact ⟨rfl,h1⟩

theorem Agrees.ite {c : Prop} [Decidable c] {x x' : Run S ε α} {y y' : Run T ε α}
    (hx : c → Agrees Rel x y) (hx' : ¬ c → Agrees Rel x' y') :
    Agrees Rel (if c then x else x') (if c then y else y') := by
  split
  · exact hx ‹_›
  · exact hx' ‹_›

end

end Run

end Espresso
