import Espresso.Lib.Run
import Espresso.Lib.Callback
import Espresso.Lib.Search

/-! The head of an HTTP request, as `ipp_http_request.c` takes it off the stream. The buffer that
holds the head may already hold a part of the body; it is cut into strings in place. -/
namespace Espresso.Http
open Callback

inductive HttpError
  | malformed
  | tooLarge
  | noMemory
  | ioError
  deriving DecidableEq, Repr

abbrev httpBufferSize : ℕ := 4096
abbrev sizeMax : ℕ := 4294967295

/-- The request behind the callback. `buffer` is the filled part of the array. -/
structure Request where
  buffer : Bytes
  bufferOffset : ℕ
  method : Text 16
  path : Text 256
  contentType : Text 128
  contentLength : ℕ
  fixedRemaining : ℕ
  chunkRemaining : ℕ
  decodedLength : ℕ
  chunked : Bool
  expectsContinue : Bool
  chunkCrlfPending : Bool
  done : Bool
  deriving DecidableEq

namespace Request

/-- `calloc`. -/
def zero : Request where
  buffer := []
  bufferOffset := 0
  method := .empty
  path := .empty
  contentType := .empty
  contentLength := 0
  fixedRemaining := 0
  chunkRemaining := 0
  decodedLength := 0
  chunked := false
  expectsContinue := false
  chunkCrlfPending := false
  done := false

/-- What the buffer still holds. -/
def buffered (r : Request) : Bytes := r.buffer.drop r.bufferOffset

end Request

/-! ### Strings inside the buffer -/

/-- The string that starts at a position of the buffer. -/
def stringAt (buffer : Bytes) (pos : ℕ) : Bytes := cstr (buffer.drop pos)

/-- `strstr` from a position, as a position. -/
def strstr (buffer : Bytes) (pos : ℕ) (needle : Bytes) : Option ℕ :=
  (occurrence needle (stringAt buffer pos)).map (· + pos)

/-- `strchr` from a position, as a position. -/
def strchr (buffer : Bytes) (pos : ℕ) (c : UInt8) : Option ℕ := strstr buffer pos [c]

/-- The loop at the end of `trim`: blanks in front of `stop` become terminators. -/
def trimBack (buffer : Bytes) (value : ℕ) : ℕ → Bytes
  | 0 => buffer
  | stop + 1 =>
    if value < stop + 1 ∧ isspace (buffer.getD stop 0) then
      trimBack (buffer.set stop 0) value stop
    else buffer

/-- `trim`: the start of the value, and the buffer with the blanks behind it gone. -/
def trim (buffer : Bytes) (pos : ℕ) : ℕ × Bytes :=
  let value := pos + ((stringAt buffer pos).takeWhile isspace).length
  (value,trimBack buffer value (value + (stringAt buffer value).length))

/-- `copy_string`: nothing if the array is too small. -/
def copyString (n : ℕ) (value : Bytes) : Option (Text n) :=
  if n ≤ value.length then none else some (.copy n value)

def parseDigits (parsed : ℕ) : Bytes → Option ℕ
  | [] => some parsed
  | c :: cs =>
    if ¬ isdigit c then none
    else if parsed > (sizeMax - (c.toNat - 0x30)) / 10 then none
    else parseDigits (parsed * 10 + (c.toNat - 0x30)) cs

def parseDecimalSize (value : Bytes) : Option ℕ :=
  if value = [] then none else parseDigits 0 value

/-! ### The head -/

def crlf : Bytes := [0x0d,0x0a]

/-- The three flags of the header loop. -/
structure Seen where
  contentLength : Bool
  transferEncoding : Bool
  contentType : Bool
  deriving DecidableEq

/-- One header, its name and value already trimmed. -/
def applyHeader (r : Request) (seen : Seen) (name value : Bytes) :
    Except HttpError (Request × Seen) :=
  if name = [] then .error .malformed
  else if strcasecmp name (octets "Content-Length") then
    if seen.contentLength then .error .malformed
    else match parseDecimalSize value with
      | none => .error .malformed
      | some n => .ok ({ r with contentLength := n },{ seen with contentLength := true })
  else if strcasecmp name (octets "Transfer-Encoding") then
    if seen.transferEncoding ∨ ¬ strcasecmp value (octets "chunked") then .error .malformed
    else .ok ({ r with chunked := true },{ seen with transferEncoding := true })
  else if strcasecmp name (octets "Content-Type") then
    if seen.contentType then .error .malformed
    else match copyString 128 value with
      | none => .error .malformed
      | some contentType => .ok ({ r with contentType := contentType },
          { seen with contentType := true })
  else if strcasecmp name (octets "Expect") ∧ strcasecmp value (octets "100-continue") then
    .ok ({ r with expectsContinue := true },seen)
  else .ok (r,seen)

/-- The string at `line` becomes two: a name and a value, both trimmed. -/
def splitHeader (buffer : Bytes) (line : ℕ) : Option (ℕ × ℕ × Bytes) :=
  (strchr buffer line 0x3a).map fun colon =>
    let name := trim (buffer.set colon 0) line
    let value := trim name.2 (colon + 1)
    (name.1,value.1,value.2)

/-- `*line_end = '\0'`, where there is a line end. -/
def cutAt (buffer : Bytes) : Option ℕ → Bytes
  | some stop => buffer.set stop 0
  | none => buffer

/-- One turn of the header loop: the line at `line` is cut off, split at its colon and applied.
With it comes the start of the next line, if there is one. -/
def headerLine (r : Request) (seen : Seen) (line : ℕ) :
    Except HttpError (Request × Seen × Option ℕ) :=
  let lineEnd := strstr r.buffer line crlf
  match splitHeader (cutAt r.buffer lineEnd) line with
  | none => .error .malformed
  | some (name,value,buffer) =>
    match applyHeader { r with buffer := buffer } seen (stringAt buffer name)
        (stringAt buffer value) with
    | .error e => .error e
    | .ok (r,seen) => .ok (r,seen,lineEnd.map (· + 2))

@[simp] theorem trimBack_length (buffer : Bytes) (value stop : ℕ) :
    (trimBack buffer value stop).length = buffer.length := by
  induction stop generalizing buffer with
  | zero => rfl
  | succ stop ih =>
    rw [trimBack]
    split
    · rw [ih, List.length_set]
    · rfl

@[simp] theorem trim_length (buffer : Bytes) (pos : ℕ) : (trim buffer pos).2.length = buffer.length :=
  trimBack_length _ _ _

theorem applyHeader_buffer {r r' : Request} {seen seen' : Seen} {name value : Bytes}
    (h : applyHeader r seen name value = .ok (r',seen')) : r'.buffer = r.buffer := by
  unfold applyHeader at h
  repeat' split at h
  all_goals
    cases h
    try rfl

theorem strstr_le {buffer needle : Bytes} {pos i : ℕ} (h : strstr buffer pos needle = some i) :
    pos ≤ i ∧ i + needle.length ≤ pos + (stringAt buffer pos).length := by
  obtain ⟨j,hj,rfl⟩ := Option.map_eq_some_iff.mp h
  have hfit := occurrence_add_le hj
  exact ⟨by omega,by omega⟩

@[simp] theorem cutAt_length (buffer : Bytes) (stop : Option ℕ) :
    (cutAt buffer stop).length = buffer.length := by
  cases stop with
  | none => rfl
  | some stop => exact List.length_set

theorem splitHeader_length {buffer buffer' : Bytes} {line name value : ℕ}
    (h : splitHeader buffer line = some (name,value,buffer')) :
    buffer'.length = buffer.length := by
  obtain ⟨colon,-,heq⟩ := Option.map_eq_some_iff.mp h
  cases heq
  rw [trim_length, trim_length, List.length_set]

/-- What a turn of the header loop has done. -/
theorem headerLine_ok {r r' : Request} {seen seen' : Seen} {line : ℕ} {next : Option ℕ}
    (h : headerLine r seen line = .ok (r',seen',next)) :
    ∃ name value buffer, splitHeader (cutAt r.buffer (strstr r.buffer line crlf)) line =
        some (name,value,buffer) ∧
      applyHeader { r with buffer := buffer } seen (stringAt buffer name) (stringAt buffer value) =
        .ok (r',seen') ∧
      next = (strstr r.buffer line crlf).map (· + 2) := by
  simp only [headerLine] at h
  split at h
  · cases h
  · rename_i name value buffer hsplit
    split at h
    · cases h
    · rename_i happly
      cases h
      exact ⟨name,value,buffer,hsplit,happly,rfl⟩

/-- A turn of the header loop moves on and leaves the buffer as long as it was. -/
theorem headerLine_progress {r r' : Request} {seen seen' : Seen} {line next : ℕ}
    (h : headerLine r seen line = .ok (r',seen',some next)) :
    r'.buffer.length = r.buffer.length ∧ line + 2 ≤ next := by
  obtain ⟨name,value,buffer,hsplit,happly,hnext⟩ := headerLine_ok h
  obtain ⟨stop,hstop,rfl⟩ := Option.map_eq_some_iff.mp hnext.symm
  have hle := strstr_le hstop
  refine ⟨?_,by omega⟩
  rw [applyHeader_buffer happly, splitHeader_length hsplit, cutAt_length]

/-- The header loop. -/
def headerLines (r : Request) (seen : Seen) (line : ℕ) : Except HttpError (Request × Seen) :=
  if stringAt r.buffer line = [] then .ok (r,seen)
  else match _h : headerLine r seen line with
    | .error e => .error e
    | .ok (r',seen',none) => .ok (r',seen')
    | .ok (r',seen',some next) => headerLines r' seen' next
termination_by r.buffer.length - line
decreasing_by
  rename_i hnil
  have hline : line < r.buffer.length := by
    by_contra hge
    exact hnil (by rw [stringAt, List.drop_of_length_le (by omega), cstr_nil])
  obtain ⟨hlen,hnext⟩ := headerLine_progress _h
  omega

theorem headerLines_eq (r : Request) (seen : Seen) (line : ℕ) : headerLines r seen line =
    if stringAt r.buffer line = [] then .ok (r,seen)
    else match headerLine r seen line with
      | .error e => .error e
      | .ok (r',seen',none) => .ok (r',seen')
      | .ok (r',seen',some next) => headerLines r' seen' next := by
  rw [headerLines]
  split
  · rfl
  · split <;> rename_i he <;> rw [he]

/-- The request line: method, path and one of two versions, with single blanks in between. -/
def requestLine (r : Request) : Except HttpError Request :=
  match strchr r.buffer 0 0x20 with
  | none => .error .malformed
  | some first =>
    match strchr r.buffer (first + 1) 0x20 with
    | none => .error .malformed
    | some second =>
      if (strchr r.buffer (second + 1) 0x20).isSome ∨
          stringAt r.buffer (second + 1) ≠ octets "HTTP/1.1" ∧
          stringAt r.buffer (second + 1) ≠ octets "HTTP/1.0" then .error .malformed
      else
        let buffer := (r.buffer.set first 0).set second 0
        match copyString 16 (stringAt buffer 0), copyString 256 (stringAt buffer (first + 1)) with
        | some method, some path =>
          .ok { r with buffer := buffer, method := method, path := path }
        | _, _ => .error .tooLarge

def parseHeaders (r : Request) (headerEnd : ℕ) : Except HttpError Request :=
  let r := { r with buffer := r.buffer.set (headerEnd - 2) 0 }
  match strstr r.buffer 0 crlf with
  | none => .error .malformed
  | some lineEnd =>
    match requestLine { r with buffer := r.buffer.set lineEnd 0 } with
    | .error e => .error e
    | .ok r =>
      match headerLines r ⟨false,false,false⟩ (lineEnd + 2) with
      | .error e => .error e
      | .ok (r,seen) =>
        if seen.contentLength = seen.transferEncoding then .error .malformed
        else .ok { r with fixedRemaining := r.contentLength }

/-! ### Reading the head -/

section
variable {σ : Type} (read : ReadFn σ)

/-- The loop that fills the buffer until the blank line is in it. The search goes on three octets
before the previous end. -/
def fill (buffer : Bytes) (searchStart : ℕ) : Run σ HttpError (Bytes × ℕ) := fun s =>
  if httpBufferSize ≤ buffer.length then (.error .tooLarge,s)
  else match read s (httpBufferSize - buffer.length) with
    | (none,s) => (.error .ioError,s)
    | (some d,s) =>
      if d = [] ∨ httpBufferSize - buffer.length < d.length then (.error .ioError,s)
      else
        let searchStart := if 3 ≤ buffer.length then buffer.length - 3 else searchStart
        let next := buffer ++ d
        match occurrence (crlf ++ crlf) (next.drop searchStart) with
        | some i => (.ok (next,i + searchStart + 4),s)
        | none => fill next (if 3 ≤ next.length then next.length - 3 else 0) s
termination_by httpBufferSize - buffer.length
decreasing_by
  rename_i hd
  have hpos : 0 < d.length := List.length_pos_of_ne_nil fun h => hd (.inl h)
  simp only [List.length_append]
  omega

/-- `ipp_http_request_open`; `memory` says whether there is memory for the request. -/
def ippHttpRequestOpen (memory : Bool) : Run σ HttpError Request :=
  if memory = false then Run.fail .noMemory
  else do
    let (buffer,headerEnd) ← fill read [] 0
    if 0 ∈ buffer.take headerEnd then Run.fail .malformed
    else
      let r := { Request.zero with buffer := buffer, bufferOffset := headerEnd }
      match parseHeaders r headerEnd with
      | .error e => Run.fail e
      | .ok r => pure r

end

end Espresso.Http
