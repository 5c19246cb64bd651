import Espresso.Codec.Profile
import Espresso.Http.Reference
import Espresso.Lib.Digits

/-! The two size parsers of `ipp_http_request.c`, for a `size_t` of any width and in arithmetic that
reports a wrap. The parsers of the model are these for the 32 bits of the target. -/
namespace Espresso.Http
open Codec Digits

section
variable (w : ℕ)

/-- The loop of `parse_decimal_size`; nothing stands for a wrap. -/
def parseDigitsIn (parsed : ℕ) : Bytes → Option (Option ℕ)
  | [] => some (some parsed)
  | c :: cs =>
    if ¬ isdigit c then some none
    else (subtract c.toNat 0x30).bind fun digit =>
      (append w 10 parsed digit).bind fun
        | none => some none
        | some parsed => parseDigitsIn parsed cs

def parseDecimalSizeIn (value : Bytes) : Option (Option ℕ) :=
  if value = [] then some none else parseDigitsIn w 0 value

/-- The value of a hexadecimal digit. -/
def hexDigitIn (c : UInt8) : Option ℕ :=
  if 0x30 ≤ c ∧ c ≤ 0x39 then subtract c.toNat 0x30
  else (subtract (tolower c).toNat 0x61).map (· + 10)

/-- The digit loop of `parse_chunk_size`. -/
def chunkDigitsIn (parsed : ℕ) : Bytes → Option (Except HttpError (ℕ × Bytes))
  | [] => some (.ok (parsed,[]))
  | c :: cs =>
    if ¬ isxdigit c then some (.ok (parsed,c :: cs))
    else (hexDigitIn c).bind fun digit =>
      (append w 16 parsed digit).bind fun
        | none => some (.error .tooLarge)
        | some parsed => chunkDigitsIn parsed cs

def parseChunkSizeIn (line : Bytes) : Option (Except HttpError ℕ) :=
  if ¬ (cstr line).head?.any isxdigit then some (.error .malformed)
  else (chunkDigitsIn w 0 (cstr line)).map fun
    | .error e => .error e
    | .ok (size,rest) =>
      let rest := rest.dropWhile isBlank
      if rest ≠ [] ∧ rest.head? ≠ some 0x3b then .error .malformed else .ok size

end

/-! ### Digits -/

theorem subtract_of_isdigit {c : UInt8} (h : isdigit c = true) :
    subtract c.toNat 0x30 = some (c.toNat - 0x30) ∧ c.toNat - 0x30 < 10 := by
  revert c
  decide +kernel

theorem hexDigitIn_of_isxdigit {c : UInt8} (h : isxdigit c = true) :
    hexDigitIn c = some (hexDigit c) ∧ hexDigit c < 16 := by
  revert c
  decide +kernel

section
variable {w : ℕ}

theorem fifteen_le_wordMax (hw : 4 ≤ w) : 15 ≤ wordMax w := by
  have hpow : 2 ^ 4 ≤ 2 ^ w := Nat.pow_le_pow_right (by decide) hw
  rw [wordMax]
  omega

/-- The decimal loop reads strings of digits whose value fits, and wraps on no string. -/
theorem parseDigitsIn_eq (hw : 4 ≤ w) {parsed : ℕ} (hparsed : parsed ≤ wordMax w) (text : Bytes) :
    parseDigitsIn w parsed text =
      some (if (∀ c ∈ text, isdigit c = true) ∧
          value 10 (fun c : UInt8 => c.toNat - 0x30) parsed text ≤ wordMax w then
        some (value 10 (fun c : UInt8 => c.toNat - 0x30) parsed text) else none) := by
  induction text generalizing parsed with
  | nil => simp [parseDigitsIn, hparsed]
  | cons c cs ih =>
    rw [parseDigitsIn]
    by_cases hc : isdigit c = true
    · obtain ⟨hsubtract,hlt⟩ := subtract_of_isdigit hc
      have hword := fifteen_le_wordMax hw
      rw [if_neg (by simpa using hc), hsubtract, Option.bind_some,
        append_eq (by decide) (by omega), Option.bind_some]
      by_cases hfits : parsed * 10 + (c.toNat - 0x30) ≤ wordMax w
      · rw [if_pos hfits]
        simp only [ih hfits, value_cons, List.forall_mem_cons, hc, true_and]
      · have hgrows := le_value (fun c : UInt8 => c.toNat - 0x30) (show 0 < 10 by decide)
          (parsed * 10 + (c.toNat - 0x30)) cs
        rw [if_neg hfits, if_neg fun h => hfits (hgrows.trans h.2)]
    · rw [if_pos (by simpa using hc), if_neg fun h => hc (h.1 c List.mem_cons_self)]

/-- The hexadecimal loop reads the digits in front. -/
theorem chunkDigitsIn_eq (hw : 4 ≤ w) {parsed : ℕ} (hparsed : parsed ≤ wordMax w) (text : Bytes) :
    chunkDigitsIn w parsed text =
      some (if value 16 hexDigit parsed (text.takeWhile isxdigit) ≤ wordMax w then
        .ok (value 16 hexDigit parsed (text.takeWhile isxdigit),text.dropWhile isxdigit)
      else .error .tooLarge) := by
  induction text generalizing parsed with
  | nil => simp [chunkDigitsIn, hparsed]
  | cons c cs ih =>
    rw [chunkDigitsIn]
    by_cases hc : isxdigit c = true
    · obtain ⟨hdigit,hlt⟩ := hexDigitIn_of_isxdigit hc
      have hword := fifteen_le_wordMax hw
      rw [if_neg (by simpa using hc), hdigit, Option.bind_some, append_eq (by decide) (by omega),
        Option.bind_some, List.takeWhile_cons_of_pos hc, List.dropWhile_cons_of_pos hc, value_cons]
      by_cases hfits : parsed * 16 + hexDigit c ≤ wordMax w
      · rw [if_pos hfits]
        exact ih hfits
      · have hgrows := le_value hexDigit (show 0 < 16 by decide) (parsed * 16 + hexDigit c)
          (cs.takeWhile isxdigit)
        rw [if_neg hfits, if_neg fun h => hfits (hgrows.trans h)]
    · rw [if_pos (by simpa using hc), List.takeWhile_cons_of_neg hc, List.dropWhile_cons_of_neg hc]
      simp [hparsed]

/-! ### The two parsers -/

theorem takeWhile_ne_nil_iff {p : UInt8 → Bool} (text : Bytes) :
    text.takeWhile p ≠ [] ↔ text.head?.any p = true := by
  cases text with
  | nil => simp
  | cons c cs =>
    by_cases hc : p c = true
    · simp [hc]
    · simp [hc]

/-- Hexadecimal digits, then blanks, then nothing or an extension. -/
def ChunkLine (line digits : Bytes) : Prop :=
  digits ≠ [] ∧ (∀ c ∈ digits, isxdigit c = true) ∧ ∃ blanks rest,
    line = digits ++ (blanks ++ rest) ∧ (∀ c ∈ blanks, isBlank c = true) ∧
    (rest = [] ∨ rest.head? = some 0x3b)

/-- Digits and blanks end where they seem to. -/
theorem ChunkLine.split {line digits : Bytes} (h : ChunkLine line digits) :
    line.takeWhile isxdigit = digits ∧
      ((line.dropWhile isxdigit).dropWhile isBlank = [] ∨
        ((line.dropWhile isxdigit).dropWhile isBlank).head? = some 0x3b) := by
  obtain ⟨-,hdigits,blanks,rest,rfl,hblanks,hrest⟩ := h
  have hblank : ∀ c, isBlank c = true → isxdigit c = false := by decide +kernel
  have hstop : ∀ c ∈ (blanks ++ rest).head?, isxdigit c = false := by
    intro c hc
    rcases blanks with _ | ⟨b,blanks⟩
    · rcases hrest with rfl | hrest
      · cases hc
      · rw [List.nil_append, hrest] at hc
        cases hc
        decide
    · cases hc
      exact hblank c (hblanks c List.mem_cons_self)
  have htake : (blanks ++ rest).takeWhile isxdigit = [] := by
    rw [List.takeWhile_eq_nil_iff]
    intro hlen
    simpa using hstop _ (List.head?_eq_getElem? ▸ List.getElem?_eq_getElem hlen)
  have hdrop : (blanks ++ rest).dropWhile isxdigit = blanks ++ rest := by
    have hwhole := List.takeWhile_append_dropWhile (p := isxdigit) (l := blanks ++ rest)
    rwa [htake, List.nil_append] at hwhole
  refine ⟨?_,?_⟩
  · rw [List.takeWhile_append_of_pos hdigits, htake, List.append_nil]
  · rw [List.dropWhile_append_of_pos hdigits, hdrop, List.dropWhile_append_of_pos hblanks]
    rcases hrest with rfl | hrest
    · exact .inl rfl
    · right
      cases rest with
      | nil => cases hrest
      | cons c rest =>
        cases hrest
        rfl

theorem chunkLine_takeWhile {line : Bytes} (hne : line.takeWhile isxdigit ≠ [])
    (hrest : (line.dropWhile isxdigit).dropWhile isBlank = [] ∨
      ((line.dropWhile isxdigit).dropWhile isBlank).head? = some 0x3b) :
    ChunkLine line (line.takeWhile isxdigit) := by
  refine ⟨hne,fun c hc => List.mem_takeWhile_imp hc,
    (line.dropWhile isxdigit).takeWhile isBlank,_,?_,fun c hc => List.mem_takeWhile_imp hc,hrest⟩
  rw [List.takeWhile_append_dropWhile, List.takeWhile_append_dropWhile]

theorem parseDecimalSizeIn_eq (hw : 4 ≤ w) (text : Bytes) :
    parseDecimalSizeIn w text =
      some (if text ≠ [] ∧ (∀ c ∈ text, isdigit c = true) ∧ decimalValue text ≤ wordMax w then
        some (decimalValue text) else none) := by
  rw [parseDecimalSizeIn]
  by_cases hne : text = []
  · rw [if_pos hne, if_neg fun h => h.1 hne]
  · rw [if_neg hne, parseDigitsIn_eq hw (Nat.zero_le _)]
    simp only [ne_eq, hne, not_false_iff, true_and]
    rfl

theorem parseChunkSizeIn_eq (hw : 4 ≤ w) (line : Bytes) :
    parseChunkSizeIn w line =
      some (if (cstr line).takeWhile isxdigit = [] then .error .malformed
        else if wordMax w < hexValue ((cstr line).takeWhile isxdigit) then .error .tooLarge
        else if ((cstr line).dropWhile isxdigit).dropWhile isBlank = [] ∨
          (((cstr line).dropWhile isxdigit).dropWhile isBlank).head? = some 0x3b then
          .ok (hexValue ((cstr line).takeWhile isxdigit))
        else .error .malformed) := by
  rw [parseChunkSizeIn]
  by_cases hhead : (cstr line).head?.any isxdigit = true
  · rw [if_neg (not_not.mpr hhead), if_neg ((takeWhile_ne_nil_iff _).mpr hhead),
      chunkDigitsIn_eq hw (Nat.zero_le _), Option.map_some]
    rw [show value 16 hexDigit 0 = hexValue from rfl]
    by_cases hfits : hexValue ((cstr line).takeWhile isxdigit) ≤ wordMax w
    · rw [if_pos hfits, if_neg (not_lt.mpr hfits)]
      by_cases hrest : ((cstr line).dropWhile isxdigit).dropWhile isBlank = [] ∨
          (((cstr line).dropWhile isxdigit).dropWhile isBlank).head? = some 0x3b
      · rw [if_pos hrest]
        exact congrArg some (if_neg fun h => hrest.elim h.1 h.2)
      · rw [if_neg hrest]
        exact congrArg some (if_pos (not_or.mp hrest))
    · rw [if_neg hfits, if_pos (not_le.mp hfits)]
  · have hnone := mt (takeWhile_ne_nil_iff (cstr line)).mp hhead
    rw [if_pos hhead, if_pos (not_not.mp hnone)]

/-- Both parsers accept exactly the numbers that fit, give the overflow of a chunk size its own
error, and wrap on no string. -/
theorem sizes_exact (hw : 4 ≤ w) (text : Bytes) :
    (parseDecimalSizeIn w (cstr text) ≠ none ∧
      ∀ n, parseDecimalSizeIn w (cstr text) = some (some n) ↔
        cstr text ≠ [] ∧ (∀ c ∈ cstr text, isdigit c = true) ∧
          decimalValue (cstr text) ≤ wordMax w ∧ n = decimalValue (cstr text)) ∧
    parseChunkSizeIn w text ≠ none ∧
    (∀ n, parseChunkSizeIn w text = some (.ok n) ↔
      ∃ digits, ChunkLine (cstr text) digits ∧ hexValue digits ≤ wordMax w ∧
        n = hexValue digits) ∧
    (parseChunkSizeIn w text = some (.error .tooLarge) ↔
      wordMax w < hexValue ((cstr text).takeWhile isxdigit)) := by
  have hdecimal := parseDecimalSizeIn_eq hw (cstr text)
  have hchunk := parseChunkSizeIn_eq hw text
  refine ⟨⟨by simp [hdecimal],fun n => ?_⟩,by simp [hchunk],fun n => ?_,?_⟩
  · rw [hdecimal, Option.some_inj]
    constructor
    · intro h
      obtain ⟨hnumber,hn⟩ := Option.ite_none_right_eq_some.mp h
      exact ⟨hnumber.1,hnumber.2.1,hnumber.2.2,(Option.some.inj hn).symm⟩
    · rintro ⟨hne,hdigits,hfits,rfl⟩
      exact if_pos ⟨hne,hdigits,hfits⟩
  · rw [hchunk, Option.some_inj]
    constructor
    · intro h
      split_ifs at h with hnone hbig hrest
      cases h
      exact ⟨_,chunkLine_takeWhile hnone hrest,not_lt.mp hbig,rfl⟩
    · rintro ⟨digits,hline,hfits,rfl⟩
      obtain ⟨htake,hrest⟩ := hline.split
      rw [htake, if_neg hline.1, if_neg (not_lt.mpr hfits), if_pos hrest]
  · rw [hchunk, Option.some_inj]
    constructor
    · intro h
      by_contra hfits
      rw [if_neg hfits] at h
      split_ifs at h <;> cases h
    · intro hbig
      have hne : (cstr text).takeWhile isxdigit ≠ [] := by
        intro hnone
        rw [hnone] at hbig
        exact absurd hbig (Nat.not_lt_zero _)
      rw [if_neg hne, if_pos hbig]

end

/-- A chunk of 2^32 octets is too large for 32 bits. -/
theorem sizes_exact_target : 4 ≤ 32 ∧
    parseChunkSizeIn 32 (octets "100000000") = some (.error .tooLarge) :=
  ⟨by decide,(sizes_exact (by decide) _).2.2.2.mpr (by decide +kernel)⟩

/-! ### The 32 bits of the target -/

theorem parseDigitsIn_target {parsed : ℕ} (hparsed : parsed ≤ sizeMax) (text : Bytes) :
    parseDigitsIn 32 parsed text = some (parseDigits parsed text) := by
  induction text generalizing parsed with
  | nil => rfl
  | cons c cs ih =>
    rw [parseDigitsIn, parseDigits]
    by_cases hc : isdigit c = true
    · obtain ⟨hsubtract,hlt⟩ := subtract_of_isdigit hc
      have hword : c.toNat - 0x30 ≤ wordMax 32 := hlt.le.trans (by decide)
      have hcheck := append_check (show 0 < 10 by decide) hword parsed
      have happend := append_guarded (show 0 < 10 by decide) hword parsed
      rw [if_neg (by simpa using hc), if_neg (by simpa using hc), hsubtract, Option.bind_some]
      by_cases hbig : parsed > (sizeMax - (c.toNat - 0x30)) / 10
      · rw [happend.trans (congrArg some (if_pos hbig)), if_pos hbig]
        rfl
      · rw [happend.trans (congrArg some (if_neg hbig)), if_neg hbig]
        exact ih (not_lt.mp (mt hcheck.mpr hbig))
    · rw [if_pos (by simpa using hc), if_pos (by simpa using hc)]

theorem parseDecimalSizeIn_target (text : Bytes) :
    parseDecimalSizeIn 32 text = some (parseDecimalSize text) := by
  rw [parseDecimalSizeIn, parseDecimalSize]
  split
  · rfl
  · exact parseDigitsIn_target (Nat.zero_le _) text

theorem chunkDigitsIn_target {parsed : ℕ} (hparsed : parsed ≤ sizeMax) (text : Bytes) :
    chunkDigitsIn 32 parsed text = some (chunkDigits parsed text) := by
  induction text generalizing parsed with
  | nil => rfl
  | cons c cs ih =>
    rw [chunkDigitsIn, chunkDigits]
    by_cases hc : isxdigit c = true
    · obtain ⟨hdigit,hlt⟩ := hexDigitIn_of_isxdigit hc
      have hword : hexDigit c ≤ wordMax 32 := hlt.le.trans (by decide)
      have hcheck := append_check (show 0 < 16 by decide) hword parsed
      have happend := append_guarded (show 0 < 16 by decide) hword parsed
      rw [if_neg (by simpa using hc), if_neg (by simpa using hc), hdigit, Option.bind_some]
      by_cases hbig : parsed > (sizeMax - hexDigit c) / 16
      · rw [happend.trans (congrArg some (if_pos hbig)), if_pos hbig]
        rfl
      · rw [happend.trans (congrArg some (if_neg hbig)), if_neg hbig]
        exact ih (not_lt.mp (mt hcheck.mpr hbig))
    · rw [if_pos (by simpa using hc), if_pos (by simpa using hc)]

theorem parseChunkSizeIn_target (line : Bytes) :
    parseChunkSizeIn 32 line = some (parseChunkSize line) := by
  rw [parseChunkSizeIn, parseChunkSize]
  split
  · rfl
  · exact congrArg (Option.map _) (chunkDigitsIn_target (Nat.zero_le _) _)

/-- The overflow check of the digit loop refuses the sizes that do not fit, and no other. -/
theorem chunkDigits_eq {parsed : ℕ} (hparsed : parsed ≤ sizeMax) (text : Bytes) :
    chunkDigits parsed text =
      if (text.takeWhile isxdigit).foldl (fun n c => n * 16 + hexDigit c) parsed ≤ sizeMax then
        .ok ((text.takeWhile isxdigit).foldl (fun n c => n * 16 + hexDigit c) parsed,
          text.dropWhile isxdigit)
      else .error .tooLarge :=
  Option.some.inj ((chunkDigitsIn_target hparsed text).symm.trans
    (chunkDigitsIn_eq (by decide) hparsed text))

end Espresso.Http
