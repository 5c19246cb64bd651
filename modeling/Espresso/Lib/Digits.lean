import Mathlib

/-! Numbers read digit by digit in unsigned arithmetic of a fixed width. Every operation reports a
result that does not fit, so that a computation with a result has not wrapped anywhere. -/
namespace Espresso.Digits

/-! ### Arithmetic that does not wrap -/

def subtract (a b : ℕ) : Option ℕ := if b ≤ a then some (a - b) else none

section
variable (w : ℕ)

/-- The largest number of `w` bits. -/
def wordMax : ℕ := 2 ^ w - 1

def fits (n : ℕ) : Option ℕ := if n ≤ wordMax w then some n else none

def add (a b : ℕ) : Option ℕ := fits w (a + b)

def multiply (a b : ℕ) : Option ℕ := fits w (a * b)

/-- One digit more, unless the number becomes too large: what is left of the range is divided, so
that the check comes before the multiplication. The outer option is about wrapping, the inner one
about the check. -/
def append (base parsed digit : ℕ) : Option (Option ℕ) :=
  (subtract (wordMax w) digit).bind fun room =>
    if parsed > room / base then some none
    else (multiply w parsed base).bind fun shifted => (add w shifted digit).map some

variable {w}

theorem append_check {base digit : ℕ} (hbase : 0 < base) (hdigit : digit ≤ wordMax w)
    (parsed : ℕ) :
    parsed > (wordMax w - digit) / base ↔ wordMax w < parsed * base + digit := by
  rw [gt_iff_lt, Nat.div_lt_iff_lt_mul hbase]
  omega

/-- Nothing behind the check wraps. -/
theorem append_guarded {base digit : ℕ} (hbase : 0 < base) (hdigit : digit ≤ wordMax w)
    (parsed : ℕ) :
    append w base parsed digit =
      some (if parsed > (wordMax w - digit) / base then none else some (parsed * base + digit)) := by
  rw [append, subtract, if_pos hdigit, Option.bind_some]
  by_cases hbig : parsed > (wordMax w - digit) / base
  · rw [if_pos hbig, if_pos hbig]
  · have hfits := mt (append_check hbase hdigit parsed).mpr hbig
    rw [if_neg hbig, if_neg hbig, multiply, fits, if_pos (by omega), Option.bind_some, add, fits,
      if_pos (by omega)]
    rfl

/-- The check is exact. -/
theorem append_eq {base digit : ℕ} (hbase : 0 < base) (hdigit : digit ≤ wordMax w) (parsed : ℕ) :
    append w base parsed digit =
      some (if parsed * base + digit ≤ wordMax w then some (parsed * base + digit) else none) := by
  rw [append_guarded hbase hdigit]
  simp only [append_check hbase hdigit]
  by_cases hbig : wordMax w < parsed * base + digit
  · rw [if_pos hbig, if_neg (not_le.mpr hbig)]
  · rw [if_neg hbig, if_pos (not_lt.mp hbig)]

end

/-! ### Values of digit strings -/

section
variable {α : Type} (base : ℕ) (digit : α → ℕ)

/-- The number that the digits make of what stands before them. -/
def value (parsed : ℕ) (digits : List α) : ℕ := digits.foldl (fun n c => n * base + digit c) parsed

@[simp] theorem value_nil (parsed : ℕ) : value base digit parsed [] = parsed := rfl

@[simp] theorem value_cons (parsed : ℕ) (c : α) (digits : List α) :
    value base digit parsed (c :: digits) = value base digit (parsed * base + digit c) digits := rfl

variable {base}

/-- More digits never make the number smaller. -/
theorem le_value (hbase : 0 < base) (parsed : ℕ) (digits : List α) :
    parsed ≤ value base digit parsed digits := by
  induction digits generalizing parsed with
  | nil => exact le_refl parsed
  | cons c digits ih =>
    have hstep : parsed ≤ parsed * base := Nat.le_mul_of_pos_right parsed hbase
    exact (hstep.trans (Nat.le_add_right _ _)).trans (ih _)

end

end Espresso.Digits
