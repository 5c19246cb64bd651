import Espresso.Lib.Octets

/-! Spans, comma lists and bounded text fields, as `ipp_codec.c` handles them. Comma lists are
plain C strings; every loop that walks one skips the same separators and trims the same blanks. -/
namespace Espresso.Codec

def equalSpan (left right : Bytes) : Bool :=
  left.length = right.length && (left.zip right).all fun p => tolower p.1 = tolower p.2

/-- A span comparison ignores case and nothing else. -/
theorem equalSpan_iff (left right : Bytes) :
    equalSpan left right = true ↔ left.map tolower = right.map tolower := by
  induction left generalizing right with
  | nil => cases right <;> simp [equalSpan]
  | cons a as ih =>
    cases right with
    | nil => simp [equalSpan]
    | cons b bs =>
      have h := ih bs
      simp only [equalSpan, List.zip_cons_cons, List.all_cons, List.length_cons,
        Nat.add_right_cancel_iff, Bool.and_eq_true, decide_eq_true_eq, List.map_cons,
        List.cons.injEq] at h ⊢
      rw [← h]
      tauto

theorem equalSpan_self (b : Bytes) : equalSpan b b = true := (equalSpan_iff b b).mpr rfl

def comma : UInt8 := 0x2c

def isSeparator (c : UInt8) : Bool := c = comma || isspace c

def trimEnd (b : Bytes) : Bytes := (b.reverse.dropWhile isspace).reverse

def trim (b : Bytes) : Bytes := trimEnd (b.dropWhile isspace)

/-- The spans that a walk over a comma list visits. A list that ends in separators makes the
walk visit one empty span at its end. -/
def csvTokens (csv : Bytes) : List Bytes :=
  match csv with
  | [] => []
  | c :: cs =>
    let start := (c :: cs).dropWhile isSeparator
    trimEnd (start.takeWhile (· ≠ comma)) :: csvTokens (start.dropWhile (· ≠ comma))
termination_by csv.length
decreasing_by
  by_cases h : isSeparator c
  · rw [List.dropWhile_cons_of_pos h]
    have h1 := (List.dropWhile_sublist (fun x => decide (x ≠ comma))
      (l := cs.dropWhile isSeparator)).length_le
    have h2 := (List.dropWhile_sublist isSeparator (l := cs)).length_le
    simp only [List.length_cons]
    omega
  · rw [List.dropWhile_cons_of_neg h, List.dropWhile_cons_of_pos]
    · have h1 := (List.dropWhile_sublist (fun x => decide (x ≠ comma)) (l := cs)).length_le
      simp only [List.length_cons]
      omega
    · simp only [isSeparator, Bool.or_eq_true, decide_eq_true_eq, not_or] at h
      simpa using h.1

def csvContains (csv value : Bytes) : Bool :=
  value ≠ [] && (csvTokens csv).any fun token => equalSpan token value

def csvAdd {n : ℕ} (csv : Text n) (value : Bytes) : Text n :=
  let value := trim value
  let separator := if csv.val = [] then [] else [comma]
  if h : n = 0 ∨ value = [] ∨ csvContains csv.val value ∨
      csv.val.length + separator.length + value.length ≥ n then csv
  else ⟨cstr (csv.val ++ separator ++ value), zero_notMem_cstr _, by
    refine (cstr_length_le _).trans ?_
    simp only [List.length_append]
    omega⟩

/-- One value of an attribute may itself be a comma list. -/
def csvAddSplit {n : ℕ} (csv : Text n) (value : Bytes) : Text n :=
  (value.splitOn comma).foldl csvAdd csv

/-- Case-insensitive search for a literal anywhere in a value. -/
def valueContains (value needle : Bytes) : Bool :=
  value.tails.any fun tail =>
    needle.length ≤ tail.length && equalSpan (tail.take needle.length) needle

def webUrlValue (value : Bytes) : Bool :=
  (7 < value.length && (octets "http://").isPrefixOf value ||
    8 < value.length && (octets "https://").isPrefixOf value) &&
  value.all fun c => !(c < 0x20 || c = 0x7f)

example : csvTokens (octets " a, ,b c ,") = [octets "a",octets "b c",[]] := by decide +kernel

end Espresso.Codec
