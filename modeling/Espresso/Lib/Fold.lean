import Mathlib

/-! Folds whose steps may be taken twice. -/
namespace Espresso

section
variable {α ρ : Type}

/-- Doing a good step again changes nothing, also after other steps. -/
structure Settles (good : ρ → Prop) (step : α → ρ → α) : Prop where
  twice : ∀ x r, good r → step (step x r) r = step x r
  stays : ∀ x r s, good r → good s → step x r = x → step (step x s) r = step x s

variable {good : ρ → Prop} {step : α → ρ → α}

theorem Settles.foldl_stays (h : Settles good step) {rs : List ρ} (hrs : ∀ s ∈ rs, good s) {x : α}
    {r : ρ} (hr : good r) (hx : step x r = x) : step (rs.foldl step x) r = rs.foldl step x := by
  induction rs generalizing x with
  | nil => exact hx
  | cons s rs ih =>
    exact ih (fun s' hs' => hrs s' (List.mem_cons_of_mem _ hs'))
      (h.stays x r s hr (hrs s List.mem_cons_self) hx)

/-- Once all steps have been taken, none changes anything. -/
theorem Settles.foldl_settled (h : Settles good step) {rs : List ρ} (hrs : ∀ s ∈ rs, good s)
    (x : α) {r : ρ} (hr : r ∈ rs) : step (rs.foldl step x) r = rs.foldl step x := by
  induction rs generalizing x with
  | nil => cases hr
  | cons s rs ih =>
    have hrest : ∀ s' ∈ rs, good s' := fun s' hs' => hrs s' (List.mem_cons_of_mem _ hs')
    obtain rfl | hr := List.mem_cons.mp hr
    · exact h.foldl_stays hrest (hrs r List.mem_cons_self) (h.twice x r (hrs r List.mem_cons_self))
    · exact ih hrest (step x s) hr

theorem foldl_fixed {rs : List ρ} {x : α} (h : ∀ r ∈ rs, step x r = x) : rs.foldl step x = x := by
  induction rs with
  | nil => rfl
  | cons r rs ih =>
    rw [List.foldl_cons, h r List.mem_cons_self]
    exact ih fun s hs => h s (List.mem_cons_of_mem _ hs)

theorem Settles.foldl_idem (h : Settles good step) {rs : List ρ} (hrs : ∀ s ∈ rs, good s) (x : α) :
    rs.foldl step (rs.foldl step x) = rs.foldl step x :=
  foldl_fixed fun _ hr => h.foldl_settled hrs x hr

/-- Good steps leave a state as it is only if each of them does. -/
theorem Settles.foldl_eq_self_iff (h : Settles good step) {rs : List ρ} (hrs : ∀ s ∈ rs, good s)
    {x : α} : rs.foldl step x = x ↔ ∀ r ∈ rs, step x r = x := by
  refine ⟨fun hx r hr => ?_,fun hall => foldl_fixed hall⟩
  have hsettled := h.foldl_settled hrs x hr
  rwa [hx] at hsettled

/-- What a view of the state sees of a fold. -/
theorem foldl_view {σ : Type} {step : σ → ρ → σ} (view : σ → α) {seen : α → ρ → α}
    (h : ∀ s r, view (step s r) = seen (view s) r) (rs : List ρ) (s : σ) :
    view (rs.foldl step s) = rs.foldl seen (view s) := by
  induction rs generalizing s with
  | nil => rfl
  | cons r rs ih => rw [List.foldl_cons, List.foldl_cons, ih, h]

/-! ### Fields that are overwritten -/

/-- The last of the new values. -/
def lastWritten (written : ρ → Option α) (rs : List ρ) : Option α := rs.reverse.findSome? written

theorem foldl_getD (written : ρ → Option α) (rs : List ρ) (x : α) :
    rs.foldl (fun x r => (written r).getD x) x = (lastWritten written rs).getD x := by
  induction rs using List.reverseRecOn generalizing x with
  | nil => rfl
  | append_singleton rs r ih =>
    rw [List.foldl_append, ih]
    simp only [lastWritten, List.reverse_append, List.foldl_cons, List.foldl_nil, List.reverse_cons,
      List.reverse_nil, List.nil_append, List.singleton_append, List.findSome?_cons]
    cases written r <;> rfl

theorem getD_eq_self_iff {α : Type} {o : Option α} {x : α} :
    o.getD x = x ↔ ∀ v, o = some v → v = x := by
  cases o with
  | none => simp
  | some v => simp

theorem lastWritten_map {β : Type} (written : ρ → Option α) (f : α → β) (rs : List ρ) :
    lastWritten (fun r => (written r).map f) rs = (lastWritten written rs).map f :=
  List.map_findSome?.symm

end

end Espresso
