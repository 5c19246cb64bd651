import Espresso.Http.Head

/-! The body of an HTTP request, as `ipp_http_request_read` decodes it: octets left in the buffer
come first, then the reader's. -/
namespace Espresso.Http
open Callback

abbrev httpLineSize : ℕ := 256
abbrev httpTrailersMax : ℕ := 2048
abbrev cr : UInt8 := 0x0d
abbrev lf : UInt8 := 0x0a

section
variable {σ : Type} (read : ReadFn σ)

/-- A program over an open request and the context of its reader. -/
abbrev Reading (σ α : Type) := Run (Request × σ) HttpError α

def modify (f : Request → Request) : Reading σ Unit := fun st => (.ok (),(f st.1,st.2))

def get : Reading σ Request := fun st => (.ok st.1,st)

def rawRead (capacity : ℕ) : Reading σ Bytes := fun (r,s) =>
  if capacity = 0 then (.ok [],(r,s))
  else if r.bufferOffset < r.buffer.length then
    let d := r.buffered.take capacity
    (.ok d,({ r with bufferOffset := r.bufferOffset + d.length },s))
  else match read s capacity with
    | (none,s) => (.error .ioError,(r,s))
    | (some d,s) =>
      if d = [] ∨ capacity < d.length then (.error .ioError,(r,s)) else (.ok d,(r,s))

def rawByte : Reading σ UInt8 := do
  match ← rawRead read 1 with
  | [value] => pure value
  | _ => Run.fail .ioError

def rawExact (length : ℕ) : Reading σ Bytes :=
  if length = 0 then pure []
  else do
    let d ← rawRead read length
    if d = [] then Run.fail .ioError
    else do
      let more ← rawExact (length - d.length)
      pure (d ++ more)
termination_by length
decreasing_by
  rename_i hd
  have hpos : 0 < d.length := List.length_pos_of_ne_nil hd
  omega

/-- `read_line`, with the line read so far. -/
def readLine (line : Bytes) : Reading σ Bytes := do
  let value ← rawByte read
  if value = cr then do
    let value ← rawByte read
    if value ≠ lf then Run.fail .malformed else pure line
  else if value = lf ∨ httpLineSize ≤ line.length + 1 then
    Run.fail (if httpLineSize ≤ line.length + 1 then .tooLarge else .malformed)
  else readLine (line ++ [value])
termination_by httpLineSize - line.length
decreasing_by
  simp only [List.length_append, List.length_singleton]
  omega

def hexDigit (c : UInt8) : ℕ :=
  if 0x30 ≤ c ∧ c ≤ 0x39 then c.toNat - 0x30 else (tolower c).toNat - 0x61 + 10

/-- The digits in front, and what follows them. -/
def chunkDigits (parsed : ℕ) : Bytes → Except HttpError (ℕ × Bytes)
  | [] => .ok (parsed,[])
  | c :: cs =>
    if ¬ isxdigit c then .ok (parsed,c :: cs)
    else if parsed > (sizeMax - hexDigit c) / 16 then .error .tooLarge
    else chunkDigits (parsed * 16 + hexDigit c) cs

def isBlank (c : UInt8) : Bool := c = 0x20 || c = 0x09

def parseChunkSize (line : Bytes) : Except HttpError ℕ :=
  if ¬ (cstr line).head?.any isxdigit then .error .malformed
  else match chunkDigits 0 (cstr line) with
    | .error e => .error e
    | .ok (size,rest) =>
      let rest := rest.dropWhile isBlank
      if rest ≠ [] ∧ rest.head? ≠ some 0x3b then .error .malformed else .ok size

/-- The lines behind the last chunk, up to the empty one. -/
def skipTrailers (trailerBytes : ℕ) : Reading σ Unit := do
  let line ← readLine read []
  if line = [] then pure ()
  else if httpTrailersMax - trailerBytes < line.length then Run.fail .tooLarge
  else if 0x3a ∉ cstr line then Run.fail .malformed
  else skipTrailers (trailerBytes + line.length)
termination_by httpTrailersMax - trailerBytes
decreasing_by
  rename_i hne hfits _
  have hpos : 0 < line.length := List.length_pos_of_ne_nil hne
  omega

/-- `finish_chunked_body`; nothing stands for `IPP_HTTP_DONE`. -/
def finishChunkedBody : Reading σ (Option Bytes) := do
  skipTrailers read 0
  modify fun r => { r with done := true }
  pure none

/-- The end of the chunk before, if there was one. -/
def chunkEnd : Reading σ Unit := do
  let r ← get
  if r.chunkCrlfPending then do
    let d ← rawExact read 2
    if d ≠ crlf then Run.fail .malformed
    else modify fun r => { r with chunkCrlfPending := false }
  else pure ()

/-- What comes before the data of a chunk: the end of the chunk before it, and a line with the
size. -/
def chunkHeader : Reading σ ℕ := do
  chunkEnd read
  let line ← readLine read []
  match parseChunkSize line with
  | .error e => Run.fail e
  | .ok size => do
    modify fun r => { r with chunkRemaining := size }
    pure size

/-- The end of `ipp_http_request_read`. -/
def countDecoded (d : Bytes) : Reading σ (Option Bytes) := do
  let r ← get
  if sizeMax - r.decodedLength < d.length then Run.fail .tooLarge
  else do
    modify fun r => { r with decodedLength := r.decodedLength + d.length }
    pure (some d)

def readFixed (capacity : ℕ) : Reading σ (Option Bytes) := do
  let r ← get
  if r.fixedRemaining = 0 then do
    modify fun r => { r with done := true }
    pure none
  else do
    let d ← rawRead read (min r.fixedRemaining capacity)
    modify fun r => { r with fixedRemaining := r.fixedRemaining - d.length }
    countDecoded d

def readChunkData (capacity : ℕ) : Reading σ (Option Bytes) := do
  let r ← get
  let d ← rawRead read (min r.chunkRemaining capacity)
  modify fun r => { r with
    chunkRemaining := r.chunkRemaining - d.length
    chunkCrlfPending := if r.chunkRemaining - d.length = 0 then true else r.chunkCrlfPending }
  countDecoded d

/-- The loop around the chunk header ends after one turn: its size is zero, which ends the body, or
there is data to read. -/
def readChunked (capacity : ℕ) : Reading σ (Option Bytes) := do
  let r ← get
  if r.chunkRemaining = 0 then do
    let size ← chunkHeader read
    if size = 0 then finishChunkedBody read else readChunkData read capacity
  else readChunkData read capacity

/-- `ipp_http_request_read`: some octets for `IPP_HTTP_OK`, nothing for `IPP_HTTP_DONE`. -/
def ippHttpRequestRead (capacity : ℕ) : Reading σ (Option Bytes) := do
  let r ← get
  if r.done then pure none
  else if capacity = 0 then pure (some [])
  else if ¬ r.chunked then readFixed read capacity
  else readChunked read capacity

end

end Espresso.Http
