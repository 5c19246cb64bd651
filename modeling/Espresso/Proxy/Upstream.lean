import Espresso.Http.Chunk
import Espresso.Printer.Capabilities
import Espresso.Proxy.Receive
import Espresso.Raster.Convert

/-! The printer's side of `ipp_proxy.c`: where the printer is, the loops of `ipp_stream.c` and
`ipp_proxy.c` that carry a body to it, and the one that reads its response. The HTTP client itself
is a parameter. -/
namespace Espresso.Proxy
open Callback Codec Http Raster

open Printer (EspError)

abbrev espErrInvalidSize : EspError := .other 0x104
abbrev espErrTimeout : EspError := .other 0x107

/-! ### The endpoint -/

/-- `%u`. -/
def decimalText (n : ℕ) : Bytes :=
  if n < 10 then [UInt8.ofNat (0x30 + n)]
  else decimalText (n / 10) ++ [UInt8.ofNat (0x30 + n % 10)]
termination_by n

structure TransportEndpoint where
  httpUrl : Text 208
  printerUri : Text 208
  authority : Text 80
  certificateName : Text 64
  verifyCertificate : Bool
  deriving DecidableEq

/-- `snprintf` into an array of this size, if the text is not cut off. -/
def printed (n : ℕ) (text : Bytes) : Option (Text n) :=
  if n ≤ text.length then none else some (.copy n text)

def printerTransportBuild (t : PrinterTarget) : Option TransportEndpoint :=
  if t.address.val = [] ∨ t.port = 0 ∨ t.resourcePath.val = [] ∨
      t.secureTransport ∧ t.hostname.val = [] then none
  else
    let host := if 0x3a ∈ t.address.val then octets "[" ++ t.address.val ++ octets "]"
      else t.address.val
    let httpScheme := if t.secureTransport then octets "https" else octets "http"
    let ippScheme := if t.secureTransport then octets "ipps" else octets "ipp"
    let server := octets "://" ++ host ++ octets ":" ++ decimalText t.port
    match printed 208 (httpScheme ++ server ++ t.resourcePath.val),
        printed 208 (ippScheme ++ server ++ t.resourcePath.val),
        printed 80 (ippScheme ++ server) with
    | some httpUrl, some printerUri, some authority =>
      some ⟨httpUrl,printerUri,authority,
        if t.secureTransport then .copy 64 t.hostname.val else .empty,t.secureTransport⟩
    | _, _, _ => none

/-! ### The HTTP client -/

structure HttpClientConfig where
  url : Bytes
  timeoutMs : ℕ
  verifyCertificate : Bool
  commonName : Option Bytes

/-- What `esp_http_client_read` returns for a buffer of `n` octets. -/
inductive ClientRead (n : ℕ)
  | data (d : Bytes) (h : d.length ≤ n)
  | again
  | failed

/-- `esp_http_client`, on a connection in a state of type `υ`. -/
structure HttpClient (υ : Type) where
  init : HttpClientConfig → υ → Bool × υ
  openRequest : ℤ → υ → Option EspError × υ
  write : WriteFn υ
  fetchHeaders : υ → ℤ × υ
  isChunkedResponse : υ → Bool
  statusCode : υ → ℤ
  read : (n : ℕ) → υ → ClientRead n × υ

/-! ### Streams -/

inductive StreamError
  | readError
  | writeError
  | noMemory
  deriving DecidableEq, Repr

section
variable {σ τ : Type} (read : ReadFn σ) (write : WriteFn τ)

/-- The loop of `ipp_stream_copy`. -/
def copyRemaining (chunkSize remaining : ℕ) : Run (σ × τ) StreamError Unit := fun (s,t) =>
  if remaining = 0 then (.ok (),(s,t))
  else
    let wanted := min remaining chunkSize
    match read s wanted with
    | (none,s) => (.error .readError,(s,t))
    | (some d,s) =>
      if d = [] ∨ wanted < d.length then (.error .readError,(s,t))
      else match writeAll write t d with
        | (false,t) => (.error .writeError,(s,t))
        | (true,t) => copyRemaining chunkSize (remaining - d.length) (s,t)
termination_by remaining
decreasing_by
  rename_i hd
  have hpos := List.length_pos_of_ne_nil (not_or.mp hd).1
  omega

def ippStreamCopy (mem : Memory) (length chunkSize : ℕ) : Run (σ × τ) StreamError Unit := fun st =>
  if chunkSize = 0 then (.error .readError,st)
  else if length = 0 then (.ok (),st)
  else
    let chunkSize := min chunkSize length
    if !mem chunkSize then (.error .noMemory,st)
    else copyRemaining read write chunkSize length st

end

section
variable {κ υ : Type} (receive : ReadFn κ) (client : HttpClient υ) (mem : Memory)

/-- `write_all`, as `ipp_stream_write_all` around the client. -/
def writeUpstream (data : Bytes) : Run (κ × υ) EspError Unit := fun (c,u) =>
  match writeAll client.write u data with
  | (true,u) => (.ok (),(c,u))
  | (false,u) => (.error .fail,(c,u))

def writeUpstreamChunk (data : Bytes) : Run (κ × υ) EspError Unit := fun (c,u) =>
  match ippStreamWriteHttpChunk client.write u data with
  | (true,u) => (.ok (),(c,u))
  | (false,u) => (.error .fail,(c,u))

def streamRemainingRequest (remaining : ℕ) : Run (κ × υ) EspError Unit := fun st =>
  match ippStreamCopy receive client.write mem remaining streamChunk st with
  | (.ok (),st) => (.ok (),st)
  | (.error .noMemory,st) => (.error .noMemory,st)
  | (.error _,st) => (.error .fail,st)
  | (.unfinished,st) => (.unfinished,st)

/-- The loop of `stream_chunked_request`: every read becomes a chunk, the end of the body the last
one. -/
def streamChunks : ℕ → Run (κ × υ) EspError Unit
  | 0 => Run.unfinished
  | turns + 1 => fun (c,u) =>
    match receive c streamChunk with
    | (none,c) => (.error .fail,(c,u))
    | (some [],c) => writeUpstreamChunk client [] (c,u)
    | (some d,c) => (writeUpstreamChunk client d >>= fun _ => streamChunks turns) (c,u)

def streamChunkedRequest (turns : ℕ) : Run (κ × υ) EspError Unit :=
  if !mem streamChunk then Run.fail .noMemory else streamChunks receive client turns

/-- What has been received of the document comes first. -/
def rasterDocumentRead : ReadFn (Bytes × κ) := fun (received,c) n =>
  if received ≠ [] then
    let d := received.take n
    (if d.length ≤ intMax then some d else none,(received.drop n,c))
  else match receive c n with
    | (d,c) => (d,([],c))

def rasterDocumentWrite : WriteFn υ := fun u data =>
  if intMax < data.length then (-1,u)
  else match ippStreamWriteHttpChunk client.write u data with
    | (true,u) => (data.length,u)
    | (false,u) => (-1,u)

def streamConvertedDocument (turns : ℕ) (received : Bytes) : Run (κ × υ) RasterError Unit :=
  fun (c,u) =>
    match espressoPwgToUrf (rasterDocumentRead receive) (rasterDocumentWrite client) turns
        ((received,c),u) with
    | (.ok (),((_,c),u)) =>
      match ippStreamWriteHttpChunk client.write u [] with
      | (true,u) => (.ok (),(c,u))
      | (false,u) => (.error .writeError,(c,u))
    | (.error e,((_,c),u)) => (.error e,(c,u))
    | (.unfinished,((_,c),u)) => (.unfinished,(c,u))

end

/-! ### The response -/

abbrev responseMax : ℕ := 128 * 1024
abbrev receiveTimeoutRetries : ℕ := 3

section
variable {υ : Type} (client : HttpClient υ) (mem : Memory)

/-- The capacity before the next read; the response is too large, or the heap refuses. -/
def growResponse (length capacity : ℕ) : Except EspError ℕ :=
  if length = capacity then
    if responseMax ≤ capacity then .error espErrInvalidSize
    else
      let next := min (capacity * 2) responseMax
      if mem next then .ok next else .error .noMemory
  else .ok capacity

theorem growResponse_max {length capacity next : ℕ}
    (h : growResponse mem length capacity = .ok next) :
    max next responseMax = max capacity responseMax := by
  unfold growResponse at h
  split at h
  · split at h
    · cases h
    · rename_i hcap
      simp only at h
      split at h
      · cases h
        omega
      · cases h
  · cases h
    rfl

/-- The loop of `read_upstream_response`. -/
def readResponse (data : Bytes) (capacity timeoutRetries : ℕ) (u : υ) : Except EspError Bytes × υ :=
  match _h : growResponse mem data.length capacity with
  | .error e => (.error e,u)
  | .ok capacity =>
    match client.read (capacity - data.length) u with
    | (.again,u) =>
      if receiveTimeoutRetries ≤ timeoutRetries + 1 then (.error espErrTimeout,u)
      else readResponse data capacity (timeoutRetries + 1) u
    | (.failed,u) => (.error .fail,u)
    | (.data d _,u) => if d = [] then (.ok data,u) else readResponse (data ++ d) capacity 0 u
termination_by (max capacity responseMax - data.length,receiveTimeoutRetries - timeoutRetries)
decreasing_by
  · rw [growResponse_max mem _h]
    exact Prod.Lex.right _ (by omega)
  · rename_i hlen _ hd
    have hpos := List.length_pos_of_ne_nil hd
    rw [growResponse_max mem _h, List.length_append]
    have hmax := growResponse_max mem _h
    refine Prod.Lex.left _ _ ?_
    omega

def readUpstreamResponse (u : υ) : Except EspError Bytes × υ :=
  if !mem 4096 then (.error .noMemory,u) else readResponse client mem [] 4096 0 u

end

end Espresso.Proxy
