import Espresso.Http.Body

/-! What the body of a request decodes to, read off the stream as a whole. -/
namespace Espresso.Http

/-- A line of at most 255 octets, none of them CR or LF, ended by CRLF; and what follows it. -/
def splitLine (stream : Bytes) : Option (Bytes × Bytes) :=
  let line := stream.takeWhile fun c => c ≠ cr ∧ c ≠ lf
  if line.length < httpLineSize ∧ crlf <+: stream.drop line.length then
    some (line,stream.drop (line.length + 2))
  else none

def hexValue (digits : Bytes) : ℕ := digits.foldl (fun n c => n * 16 + hexDigit c) 0

/-- The size a line announces: digits, blanks, and perhaps extensions behind a semicolon. The line
is a C string; what follows a NUL does not count. -/
def announcedSize (line : Bytes) : Option ℕ :=
  let digits := (cstr line).takeWhile isxdigit
  let extension := ((cstr line).dropWhile isxdigit).dropWhile isBlank
  if digits ≠ [] ∧ hexValue digits ≤ sizeMax ∧ (extension = [] ∨ extension.head? = some 0x3b) then
    some (hexValue digits)
  else none

theorem splitLine_iff {stream line rest : Bytes} : splitLine stream = some (line,rest) ↔
    stream = line ++ crlf ++ rest ∧ line.length < httpLineSize ∧ ∀ c ∈ line, c ≠ cr ∧ c ≠ lf := by
  constructor
  · intro h
    simp only [splitLine] at h
    split at h
    · rename_i hline
      simp only [Option.some.injEq, Prod.mk.injEq] at h
      obtain ⟨hl,hr⟩ := h
      rw [hl] at hline hr
      have hpre : line <+: stream := hl ▸ List.takeWhile_prefix _
      obtain ⟨tail,rfl⟩ := hpre
      rw [List.drop_left] at hline
      obtain ⟨rest',rfl⟩ := hline.2
      refine ⟨?_,hline.1,fun c hc => ?_⟩
      · rw [← hr, ← List.append_assoc, List.drop_left' (by simp [crlf])]
      · rw [← hl] at hc
        simpa using List.mem_takeWhile_imp hc
    · cases h
  · rintro ⟨rfl,hlen,hplain⟩
    have htake : (line ++ crlf ++ rest).takeWhile (fun c => c ≠ cr ∧ c ≠ lf) = line := by
      rw [List.append_assoc, List.takeWhile_append_of_pos (by simpa using hplain)]
      simp [crlf]
    simp only [splitLine]
    rw [htake, if_pos]
    · rw [List.drop_left' (by simp [crlf])]
    · refine ⟨hlen,?_⟩
      rw [List.append_assoc, List.drop_left]
      exact List.prefix_append _ _

theorem splitLine_length {stream line rest : Bytes} (h : splitLine stream = some (line,rest)) :
    stream.length = line.length + 2 + rest.length := by
  rw [(splitLine_iff.mp h).1, List.length_append, List.length_append]
  rfl

/-- Behind the last chunk: lines with a colon, of at most `budget` octets together, and an empty
line. -/
def trailerEnd (budget : ℕ) (stream : Bytes) : Option Bytes :=
  match _h : splitLine stream with
  | none => none
  | some (line,rest) =>
    if line = [] then some rest
    else if line.length ≤ budget ∧ 0x3a ∈ cstr line then trailerEnd (budget - line.length) rest
    else none
termination_by stream.length
decreasing_by
  have hlen := splitLine_length _h
  omega

/-- The payload of a chunked stream, chunk by chunk as far as it goes, and what follows the body if
the body is complete. -/
def dechunk (stream : Bytes) : Bytes × Option Bytes :=
  match _h : splitLine stream with
  | none => ([],none)
  | some (line,rest) =>
    match announcedSize line with
    | none => ([],none)
    | some 0 => ([],trailerEnd httpTrailersMax rest)
    | some (n + 1) =>
      if n + 1 ≤ rest.length ∧ crlf <+: rest.drop (n + 1) then
        let next := dechunk (rest.drop (n + 3))
        (rest.take (n + 1) ++ next.1,next.2)
      else (rest.take (n + 1),none)
termination_by stream.length
decreasing_by
  have hlen := splitLine_length _h
  rw [List.length_drop]
  omega

/-- The payload of a stream in the framing of the request, and what follows the body if the body is
complete. -/
def decoding (r : Request) (stream : Bytes) : Bytes × Option Bytes :=
  if r.chunked then dechunk stream
  else (stream.take r.contentLength,
    if r.contentLength ≤ stream.length then some (stream.drop r.contentLength) else none)

theorem trailerEnd_eq (budget : ℕ) (stream : Bytes) : trailerEnd budget stream =
    match splitLine stream with
    | none => none
    | some (line,rest) =>
      if line = [] then some rest
      else if line.length ≤ budget ∧ 0x3a ∈ cstr line then trailerEnd (budget - line.length) rest
      else none := by
  rw [trailerEnd]
  split <;> rename_i hline <;> rw [hline]

theorem dechunk_eq (stream : Bytes) : dechunk stream =
    match splitLine stream with
    | none => ([],none)
    | some (line,rest) =>
      match announcedSize line with
      | none => ([],none)
      | some 0 => ([],trailerEnd httpTrailersMax rest)
      | some (n + 1) =>
        if n + 1 ≤ rest.length ∧ crlf <+: rest.drop (n + 1) then
          let next := dechunk (rest.drop (n + 3))
          (rest.take (n + 1) ++ next.1,next.2)
        else (rest.take (n + 1),none) := by
  rw [dechunk]
  split <;> rename_i hline <;> rw [hline]

/-! ### Inside a chunk -/

/-- What is decoded behind the data of a chunk. -/
def afterChunk (stream : Bytes) : Bytes × Option Bytes :=
  if crlf <+: stream then dechunk (stream.drop 2) else ([],none)

/-- What is decoded where `n` octets of a chunk are left. -/
def insideChunk (n : ℕ) (stream : Bytes) : Bytes × Option Bytes :=
  if stream.length < n then (stream,none)
  else (stream.take n ++ (afterChunk (stream.drop n)).1,(afterChunk (stream.drop n)).2)

theorem insideChunk_zero (stream : Bytes) : insideChunk 0 stream = afterChunk stream := by
  simp [insideChunk]

theorem dechunk_chunk {stream line rest : Bytes} {n : ℕ} (hline : splitLine stream = some (line,rest))
    (hsize : announcedSize line = some (n + 1)) : dechunk stream = insideChunk (n + 1) rest := by
  rw [dechunk_eq, hline]
  simp only [hsize, insideChunk]
  by_cases hlen : rest.length < n + 1
  · rw [if_neg (by omega), if_pos hlen, List.take_of_length_le (by omega)]
  · rw [if_neg hlen, afterChunk]
    by_cases hcrlf : crlf <+: rest.drop (n + 1)
    · rw [if_pos ⟨by omega,hcrlf⟩, if_pos hcrlf, List.drop_drop]
    · rw [if_neg (by tauto), if_neg hcrlf, List.append_nil]

/-- Reading a part of a chunk. -/
theorem insideChunk_append {n : ℕ} {d stream : Bytes} (hd : d.length ≤ n) :
    insideChunk n (d ++ stream) =
      (d ++ (insideChunk (n - d.length) stream).1,(insideChunk (n - d.length) stream).2) := by
  unfold insideChunk
  by_cases hlen : stream.length < n - d.length
  · rw [if_pos hlen, if_pos (by rw [List.length_append]; omega)]
  · rw [if_neg hlen, if_neg (by rw [List.length_append]; omega), List.take_append, List.drop_append,
      List.take_of_length_le hd, List.drop_of_length_le hd, List.nil_append, List.append_assoc]

theorem trailerEnd_suffix {budget : ℕ} {stream rest : Bytes}
    (h : trailerEnd budget stream = some rest) : rest <:+ stream := by
  fun_induction trailerEnd budget stream with
  | case1 => cases h
  | case2 budget stream rest' hline =>
    cases h
    rw [(splitLine_iff.mp hline).1]
    exact List.suffix_append _ _
  | case3 budget stream line rest' hline _ _ ih =>
    refine (ih h).trans ?_
    rw [(splitLine_iff.mp hline).1]
    exact List.suffix_append _ _
  | case4 => cases h

/-- What follows the body lies at the end of the stream. -/
theorem dechunk_suffix {stream after : Bytes} (h : (dechunk stream).2 = some after) :
    after <:+ stream := by
  fun_induction dechunk stream with
  | case1 => cases h
  | case2 => cases h
  | case3 stream line rest hline _ =>
    refine (trailerEnd_suffix h).trans ?_
    rw [(splitLine_iff.mp hline).1]
    exact List.suffix_append _ _
  | case4 stream line rest hline n _ _ next ih =>
    refine (ih h).trans ((List.drop_suffix _ _).trans ?_)
    rw [(splitLine_iff.mp hline).1]
    exact List.suffix_append _ _
  | case5 => cases h

end Espresso.Http
