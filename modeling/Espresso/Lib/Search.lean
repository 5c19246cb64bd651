import Mathlib

/-! The first occurrence of a pattern in a list, and a search that is resumed when the list
grows. -/
namespace Espresso

variable {α : Type} [DecidableEq α]

/-- The first position at which the pattern occurs. -/
def occurrence (pat : List α) : List α → Option ℕ
  | [] => if pat = [] then some 0 else none
  | a :: l => if pat.isPrefixOf (a :: l) then some 0 else (occurrence pat l).map (· + 1)

theorem occurrence_eq_some_iff {pat l : List α} {i : ℕ} :
    occurrence pat l = some i ↔
      i ≤ l.length ∧ pat <+: l.drop i ∧ ∀ j < i, ¬ pat <+: l.drop j := by
  induction l generalizing i with
  | nil =>
    simp only [occurrence, List.drop_nil, List.prefix_nil, List.length_nil, nonpos_iff_eq_zero]
    constructor
    · intro h
      split at h
      · rename_i hpat
        cases h
        exact ⟨rfl,hpat,nofun⟩
      · cases h
    · rintro ⟨rfl,hpat,-⟩
      rw [if_pos hpat]
  | cons a l ih =>
    rw [occurrence]
    by_cases h0 : pat <+: a :: l
    · rw [if_pos (by simpa using h0)]
      constructor
      · rintro ⟨⟩
        exact ⟨Nat.zero_le _,h0,nofun⟩
      · rintro ⟨-,-,hfirst⟩
        cases i with
        | zero => rfl
        | succ i => exact absurd h0 (hfirst 0 i.succ_pos)
    · rw [if_neg (by simpa using h0), Option.map_eq_some_iff]
      constructor
      · rintro ⟨i,hi,rfl⟩
        obtain ⟨hle,hpre,hfirst⟩ := ih.mp hi
        refine ⟨Nat.succ_le_succ hle,hpre,fun j hj => ?_⟩
        cases j with
        | zero => exact h0
        | succ j => exact hfirst j (by omega)
      · rintro ⟨hle,hpre,hfirst⟩
        cases i with
        | zero => exact absurd hpre h0
        | succ i =>
          exact ⟨i,ih.mpr ⟨Nat.le_of_succ_le_succ hle,hpre,fun j hj => hfirst (j + 1) (by omega)⟩,rfl⟩

theorem occurrence_eq_none_iff {pat l : List α} :
    occurrence pat l = none ↔ ∀ i ≤ l.length, ¬ pat <+: l.drop i := by
  constructor
  · intro h i
    induction i using Nat.strong_induction_on with
    | _ i ih =>
      intro hi hpre
      have hsome : occurrence pat l = some i := occurrence_eq_some_iff.mpr
        ⟨hi,hpre,fun j hj => ih j hj (by omega)⟩
      rw [h] at hsome
      cases hsome
  · intro h
    cases ho : occurrence pat l with
    | none => rfl
    | some i =>
      obtain ⟨hi,hpre,-⟩ := occurrence_eq_some_iff.mp ho
      exact absurd hpre (h i hi)

/-- The pattern found lies inside the list. -/
theorem occurrence_add_le {pat l : List α} {i : ℕ} (h : occurrence pat l = some i) :
    i + pat.length ≤ l.length := by
  obtain ⟨hi,hpre,-⟩ := occurrence_eq_some_iff.mp h
  have hlen := hpre.length_le
  rw [List.length_drop] at hlen
  omega

omit [DecidableEq α] in
/-- A pattern that fits into the first part of a list is found there or not at all. -/
theorem prefix_drop_append {pat l d : List α} {j : ℕ} (hj : j + pat.length ≤ l.length) :
    pat <+: (l ++ d).drop j ↔ pat <+: l.drop j := by
  rw [List.drop_append_of_le_length (by omega)]
  constructor
  · intro h
    exact List.prefix_of_prefix_length_le h (List.prefix_append _ _)
      (by rw [List.length_drop]; omega)
  · intro h
    exact h.trans (List.prefix_append _ _)

theorem occurrence_append {pat l : List α} {i : ℕ} (h : occurrence pat l = some i)
    (d : List α) : occurrence pat (l ++ d) = some i := by
  have hfit := occurrence_add_le h
  obtain ⟨hi,hpre,hfirst⟩ := occurrence_eq_some_iff.mp h
  refine occurrence_eq_some_iff.mpr ⟨?_,?_,fun j hj => ?_⟩
  · rw [List.length_append]
    omega
  · exact (prefix_drop_append hfit).mpr hpre
  · rw [prefix_drop_append (by omega)]
    exact hfirst j hj

/-- A list that holds no occurrence can only get one that reaches into what is appended: the search
may start at any position that such an occurrence does not lie before. -/
theorem occurrence_resume {pat l : List α} (h : occurrence pat l = none) (start : ℕ) (d : List α)
    (hle : start ≤ l.length) (hstart : start + pat.length ≤ l.length + 1 ∨ start = 0) :
    occurrence pat (l ++ d) = (occurrence pat ((l ++ d).drop start)).map (· + start) := by
  have hbefore : ∀ j < start, ¬ pat <+: (l ++ d).drop j := by
    intro j hj
    rw [prefix_drop_append (by omega)]
    exact occurrence_eq_none_iff.mp h j (by omega)
  cases ho : occurrence pat ((l ++ d).drop start) with
  | none =>
    rw [occurrence_eq_none_iff] at ho
    refine occurrence_eq_none_iff.mpr fun i hi => ?_
    by_cases hlt : i < start
    · exact hbefore i hlt
    · have hrest := ho (i - start) (by rw [List.length_drop]; omega)
      rwa [List.drop_drop, Nat.add_sub_cancel' (by omega)] at hrest
  | some i =>
    obtain ⟨hi,hpre,hfirst⟩ := occurrence_eq_some_iff.mp ho
    rw [List.drop_drop, Nat.add_comm] at hpre
    rw [List.length_drop] at hi
    refine occurrence_eq_some_iff.mpr ⟨?_,hpre,fun j hj => ?_⟩
    · rw [List.length_append] at hi ⊢
      change i + start ≤ _
      omega
    · replace hj : j < i + start := hj
      by_cases hlt : j < start
      · exact hbefore j hlt
      · have hrest := hfirst (j - start) (by omega)
        rwa [List.drop_drop, Nat.add_sub_cancel' (by omega)] at hrest

/-! ### Short patterns -/

theorem occurrence_singleton {a : α} {l : List α} (h : a ∉ l) (rest : List α) :
    occurrence [a] (l ++ a :: rest) = some l.length := by
  induction l with
  | nil => exact if_pos (by simp)
  | cons c l ih =>
    obtain ⟨hc,hl⟩ := List.ne_and_not_mem_of_not_mem_cons h
    rw [List.cons_append, occurrence, if_neg (by simpa using hc), ih hl]
    rfl

theorem occurrence_singleton_eq_none {a : α} {l : List α} (h : a ∉ l) :
    occurrence [a] l = none := by
  induction l with
  | nil => rfl
  | cons c l ih =>
    obtain ⟨hc,hl⟩ := List.ne_and_not_mem_of_not_mem_cons h
    rw [occurrence, if_neg (by simpa using hc), ih hl]
    rfl

/-- A pattern of two different elements does not overlap itself. -/
theorem occurrence_pair {a b : α} {l : List α} (hab : a ≠ b) (h : occurrence [a,b] l = none)
    (rest : List α) : occurrence [a,b] (l ++ a :: b :: rest) = some l.length := by
  induction l with
  | nil => exact if_pos (by simp)
  | cons c l ih =>
    have hnone := occurrence_eq_none_iff.mp h
    have hfirst : ¬ [a,b] <+: c :: (l ++ a :: b :: rest) := by
      cases l with
      | nil => simp [hab.symm]
      | cons d l =>
        have := hnone 0 (Nat.zero_le _)
        simpa using this
    have hl : occurrence [a,b] l = none := occurrence_eq_none_iff.mpr fun i hi =>
      hnone (i + 1) (Nat.succ_le_succ hi)
    rw [List.cons_append, occurrence, if_neg (by simpa using hfirst), ih hl]
    rfl

end Espresso
