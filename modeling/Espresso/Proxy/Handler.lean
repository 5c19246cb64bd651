import Espresso.Codec.Filter
import Espresso.Codec.Query
import Espresso.Printer.Publication
import Espresso.Proxy.Monitor
import Espresso.Proxy.Plan
import Espresso.Proxy.Upstream

/-! `proxy_handler` of `ipp_proxy.c`: one client request, from the HTTP head to the reply. -/
namespace Espresso.Proxy
open Callback Codec Http Jobs Raster

open Printer (EspError printerIdentityTargetUuid)

abbrev int32Max : ℕ := 2147483647

/-- What the client is sent. The octets of an IPP status response are not spelled out. -/
inductive Reply
  | nothing
  | httpError (status message : String)
  | ippStatus (major minor : UInt8) (status requestId : ℕ) (message : Option String)
  | response (body : Bytes)
  deriving DecidableEq

/-! ### Taking the request in -/

/-- `application/ipp`, with or without parameters. -/
def isIppContentType (contentType : Bytes) : Bool :=
  (contentType.take 15).map tolower = octets "application/ipp" &&
    match contentType.drop 15 with
    | [] => true
    | c :: _ => c = 0x3b || c = 0x20 || c = 0x09

/-- `continued` tells if the client can be sent `100 Continue`. -/
def admission (target : Option PrinterTarget) (r : Request) (continued : Bool) :
    Except Reply PrinterTarget :=
  match target with
  | none =>
    .error (.httpError "503 Service Unavailable" "Select a printer at http://espresso.local first")
  | some t =>
    if !r.chunked ∧ r.contentLength < 8 then
      .error (.httpError "400 Bad Request" "Invalid IPP request")
    else if !isIppContentType r.contentType.val then
      .error (.httpError "400 Bad Request" "Content-Type must be application/ipp")
    else if r.expectsContinue ∧ !continued then .error .nothing
    else .ok t

def isDocumentOperation (operationId : ℕ) : Bool :=
  operationId = Operation.printJob || operationId = Operation.sendDocument

theorem plan_documentOperation (request : RequestInfo) (t : PrinterTarget) (contentLength : ℕ) :
    (ippProxyPlanRequest request t contentLength).documentOperation =
      isDocumentOperation request.operationId := by
  unfold ippProxyPlanRequest
  simp only
  split_ifs <;> rfl

section
variable {κ : Type} (receive : ReadFn κ) (mem : Memory)

/-- The rest of a chunked body. -/
def drainBody (s : Intake κ) : Outcome ReceiveError Unit × Intake κ :=
  match _h : receiveMore receive mem s with
  | (.ok (),s') => drainBody s'
  | (.error .notFinished,s') => (.ok (),s')
  | (.error e,s') => (.error e,s')
  | (.unfinished,s') => (.unfinished,s')
termination_by requestPrefixMax - s.buffer.length
decreasing_by
  obtain ⟨d,n,hne,hn,hmax,-,hbuffer⟩ := receiveMore_ok receive mem _h
  have hd := List.length_pos_of_ne_nil hne
  rw [hbuffer, List.length_append]
  omega

/-- One more read, so that a Print-Job without a document is found out. -/
def peekDocument : Run (Intake κ) ReceiveError Unit := fun s =>
  match receiveMore receive mem s with
  | (.error .notFinished,s') => (.ok (),s')
  | result => result

/-- What is received of a body beyond its attributes. -/
def readMore (chunked : Bool) (info : RequestInfo) : Run (Intake κ) ReceiveError Unit := fun s =>
  if chunked && !isDocumentOperation info.operationId then drainBody receive mem s
  else if chunked && info.operationId = Operation.printJob &&
      s.buffer.length = info.attributesLength then peekDocument receive mem s
  else (.ok (),s)

/-- What is received before the printer is contacted. -/
def readAhead (chunked : Bool) : Run (Intake κ) Reply RequestInfo := fun s =>
  match receiveEnvelope receive mem s with
  | (.unfinished,s) => (.unfinished,s)
  | (.error _,s) =>
    (.error (.httpError "400 Bad Request" "IPP attributes are incomplete or too large"),s)
  | (.ok (.error _),s) => (.error (.httpError "400 Bad Request" "Malformed IPP request"),s)
  | (.ok (.ok info),s) =>
    match readMore receive mem chunked info s with
    | (.unfinished,s) => (.unfinished,s)
    | (.error _,s) => (.error (.httpError "400 Bad Request" "Malformed chunked IPP request"),s)
    | (.ok (),s) => (.ok info,s)

end

/-! ### What the printer is to be sent -/

/-- The heaps of the passes over a request and its response. -/
structure Heaps where
  intake : Memory
  rewrite : Memory
  facade : Memory
  query : Memory
  stream : Memory
  response : Memory
  answer : Memory
  filter : Memory

/-- What a request is relayed with. -/
structure Relayed where
  info : RequestInfo
  target : PrinterTarget
  received : Bytes
  chunked : Bool
  contentLength : ℕ

namespace Relayed

/-- `request_body_length`: of a chunked body only what has been received counts. -/
def bodyLength (q : Relayed) : ℕ := if q.chunked then q.received.length else q.contentLength

def plan (q : Relayed) : Plan := ippProxyPlanRequest q.info q.target q.bodyLength

def queriesPrinter (q : Relayed) : Bool :=
  q.info.operationId = Operation.getPrinterAttributes

/-- `prefix_length` where the length of the upload is computed. -/
def replacedLength (q : Relayed) : ℕ :=
  if q.queriesPrinter then q.bodyLength else q.received.length

def converting (q : Relayed) : Bool :=
  q.plan.documentTransform = .pwgToUrf && q.plan.documentOperation

def outgoingChunked (q : Relayed) : Bool :=
  q.converting || q.chunked && q.plan.documentOperation

def outgoingLength (q : Relayed) (rewritten : Bytes) : ℤ :=
  (q.bodyLength : ℤ) + rewritten.length - q.replacedLength

/-- The upload announces a length, and it does not fit. -/
def lengthRefused (q : Relayed) (rewritten : Bytes) : Bool :=
  !q.outgoingChunked &&
    (q.outgoingLength rewritten < 0 || (int32Max : ℤ) < q.outgoingLength rewritten)

end Relayed

/-- A refusal before the printer is contacted; `entered` tells if it goes into the job history. -/
structure Refusal where
  reply : Reply
  entered : Bool

def setVersion (major minor : UInt8) (message : Bytes) : Bytes :=
  [major,minor] ++ message.drop 2

/-- The envelope for the printer, and where its attributes end. -/
def upstreamEnvelope (heap : Heaps) (q : Relayed) (endpoint : TransportEndpoint) :
    Except Refusal (Bytes × ℕ) :=
  let info := q.info
  let plan := q.plan
  if !q.queriesPrinter then
    match ippCodecRewriteRequestForFormatDiagnostic (n := 128) heap.rewrite heap.facade q.received
        endpoint.printerUri.val endpoint.authority.val q.target plan.upstreamDocumentFormat with
    | .ok (rewritten,attributesLength) =>
      .ok (setVersion plan.upstreamMajor plan.upstreamMinor rewritten,attributesLength)
    | .error rejection =>
      if rejection.error = .unsupported then
        .error ⟨.ippStatus info.major info.minor 0x040b info.requestId
          (some "Unsupported job attribute value"),true⟩
      else
        .error ⟨.ippStatus info.major info.minor Status.badRequest info.requestId
          (some "Could not translate the IPP request"),true⟩
  else
    let format := match plan.upstreamDocumentFormat with
      | some format => some format
      | none => if info.documentFormat.val ≠ [] then some info.documentFormat.val else none
    match ippCodecBuildGetPrinterAttributesForFormat plan.upstreamMajor plan.upstreamMinor
        info.requestId endpoint.printerUri.val (2 ≤ plan.upstreamMajor) format heap.query with
    | .ok request => .ok (request,info.attributesLength)
    | .error _ =>
      .error ⟨.httpError "500 Internal Server Error" "Could not build capability request",false⟩

/-- An upload that is ready to go. -/
structure Upload where
  endpoint : TransportEndpoint
  rewritten : Bytes
  attributesLength : ℕ

def prepare (heap : Heaps) (q : Relayed) : Except Refusal Upload :=
  let plan := q.plan
  if plan.action = .localStatus then
    .error ⟨.ippStatus plan.responseMajor plan.responseMinor plan.statusCode q.info.requestId
      plan.statusMessage,true⟩
  else match printerTransportBuild q.target with
    | none =>
      .error ⟨.httpError "503 Service Unavailable" "Selected printer transport is invalid",true⟩
    | some endpoint =>
      match upstreamEnvelope heap q endpoint with
      | .error refusal => .error refusal
      | .ok (rewritten,attributesLength) =>
        if q.lengthRefused rewritten then
          .error ⟨.httpError "400 Bad Request" "Invalid IPP length",false⟩
        else .ok ⟨endpoint,rewritten,attributesLength⟩

/-- What has been decided of an upload that is ready to go. -/
theorem prepare_ok {heap : Heaps} {q : Relayed} {up : Upload} (h : prepare heap q = .ok up) :
    q.plan.action ≠ .localStatus ∧ q.lengthRefused up.rewritten = false ∧
      upstreamEnvelope heap q up.endpoint = .ok (up.rewritten,up.attributesLength) := by
  unfold prepare at h
  simp only at h
  split at h
  · cases h
  rename_i haction
  split at h
  · cases h
  rename_i endpoint hendpoint
  split at h
  · cases h
  rename_i rewritten attributesLength henvelope
  split at h
  · cases h
  · rename_i hlength
    cases h
    exact ⟨haction,Bool.eq_false_iff.mpr hlength,henvelope⟩

/-! ### The upload -/

inductive ForwardError
  | noClient
  | document (e : RasterError)
  | failed (e : EspError)

section
variable {κ υ : Type} (receive : ReadFn κ) (client : HttpClient υ) (heap : Heaps) (turns : ℕ)

def clientConfig (q : Relayed) (endpoint : TransportEndpoint) : HttpClientConfig where
  url := endpoint.httpUrl.val
  timeoutMs := if q.plan.documentOperation then 120000 else 30000
  verifyCertificate := endpoint.verifyCertificate
  commonName := if endpoint.verifyCertificate then some endpoint.certificateName.val else none

def openClient (q : Relayed) (up : Upload) : Run (κ × υ) ForwardError Unit := fun (c,u) =>
  match client.init (clientConfig q up.endpoint) u with
  | (false,u) => (.error .noClient,(c,u))
  | (true,u) =>
    match client.openRequest (if q.outgoingChunked then -1 else q.outgoingLength up.rewritten) u with
    | (some e,u) => (.error (.failed e),(c,u))
    | (none,u) => (.ok (),(c,u))

def failing (x : Run (κ × υ) EspError Unit) : Run (κ × υ) ForwardError Unit := fun st =>
  match x st with
  | (.ok (),st) => (.ok (),st)
  | (.error e,st) => (.error (.failed e),st)
  | (.unfinished,st) => (.unfinished,st)

/-- A conversion that stops for the document's sake is told from one that stops for the
printer's. -/
def failingDocument (x : Run (κ × υ) RasterError Unit) : Run (κ × υ) ForwardError Unit := fun st =>
  match x st with
  | (.ok (),st) => (.ok (),st)
  | (.error .writeError,st) => (.error (.failed .fail),st)
  | (.error e,st) => (.error (.document e),st)
  | (.unfinished,st) => (.unfinished,st)

/-- The envelope; the document of a conversion goes its own way. -/
def writeEnvelope (q : Relayed) (up : Upload) : Run (κ × υ) EspError Unit :=
  let data := if q.converting then up.rewritten.take up.attributesLength else up.rewritten
  if q.outgoingChunked then writeUpstreamChunk client data else writeUpstream client data

/-- The octets that are still to come, as a `size_t`. -/
def Relayed.remaining (q : Relayed) : ℕ :=
  (q.bodyLength + 4294967296 - q.replacedLength) % 4294967296

def streamDocument (q : Relayed) : Run (κ × υ) ForwardError Unit :=
  if q.converting then
    failingDocument (streamConvertedDocument receive client turns
      (q.received.drop q.info.attributesLength))
  else if q.outgoingChunked then
    failing (streamChunkedRequest receive client heap.stream turns)
  else failing (streamRemainingRequest receive client heap.stream q.remaining)

def forward (q : Relayed) (up : Upload) : Run (κ × υ) ForwardError Unit := do
  openClient client q up
  failing (writeEnvelope client q up)
  streamDocument receive client heap turns q

end

/-- The reply to an upload that has failed. -/
def forwardReply (q : Relayed) : ForwardError → Reply
  | .noClient => .httpError "500 Internal Server Error" "Unable to allocate printer connection"
  | .document .unsupported =>
    .ippStatus q.info.major q.info.minor Status.documentFormatNotSupported q.info.requestId
      (some "PWG Raster layout is not supported by the selected printer")
  | .document _ =>
    .ippStatus q.info.major q.info.minor Status.badRequest q.info.requestId
      (some "PWG Raster document is malformed or incomplete")
  | .failed e =>
    if e = espErrTimeout then .httpError "504 Gateway Timeout" "Legacy printer timed out"
    else .httpError "502 Bad Gateway" "Legacy printer disconnected during the request"

/-! ### The response -/

inductive AnswerError
  | httpStatus
  | unusable (e : Option EspError)

def readAnswer {υ : Type} (client : HttpClient υ) (heap : Heaps) (u : υ) :
    Except AnswerError Bytes × υ :=
  let (responseHeaders,u) := client.fetchHeaders u
  let status := client.statusCode u
  if responseHeaders < 0 ∧ !client.isChunkedResponse u ∨ status < 200 ∨ 300 ≤ status then
    (.error .httpStatus,u)
  else match readUpstreamResponse client heap.response u with
    | (.error e,u) => (.error (.unusable (some e)),u)
    | (.ok body,u) => if body.length < 8 then (.error (.unusable none),u) else (.ok body,u)

def answerReply : AnswerError → Reply
  | .httpStatus => .httpError "502 Bad Gateway" "Legacy printer returned an HTTP error"
  | .unusable none => .httpError "502 Bad Gateway" "Legacy printer returned an invalid IPP response"
  | .unusable (some e) =>
    if e = espErrTimeout then .httpError "504 Gateway Timeout" "Legacy printer timed out"
    else if e = espErrInvalidSize then
      .httpError "502 Bad Gateway" "Legacy printer response exceeded the safety limit"
    else .httpError "502 Bad Gateway" "Legacy printer disconnected during the request"

section
variable (hundredths : Bytes → ℕ → Option ℕ) (heap : Heaps) (mac : Fin 6 → UInt8) (secure : Bool)

def localPrinterUri : Bytes :=
  if secure then octets "ipps://espresso.local:8631/ipp/print"
  else octets "ipp://espresso.local:631/ipp/print"

def localAuthority : Bytes :=
  if secure then octets "ipps://espresso.local:8631" else octets "ipp://espresso.local:631"

/-- The profile that a Get-Printer-Attributes response updates the selected one to, if it says
anything new. -/
def updatedProfile (t : PrinterTarget) (response : Bytes) : Option PrinterTarget :=
  match ippCodecApplyPrinterAttributes response { t with stateReasons := .empty } with
  | .ok updated => if updated ≠ t then some updated else none
  | .error _ => none

def ippCodecFilterPrinterResponse (mem : Memory) (requestedAttributes input : Bytes) :
    Except CodecError (Bytes × ℕ) :=
  ippCodecFilterResponse mem .printer requestedAttributes input

/-- The response for the client, without its version. -/
def translate (q : Relayed) (response : Bytes) : Except CodecError Bytes :=
  let requested := q.info.requestedAttributes.val
  if q.queriesPrinter then do
    let t := (updatedProfile q.target response).getD q.target
    let localUuid := printerIdentityTargetUuid mac q.target
    let (normalized,_) ← ippCodecNormalizePrinterResponse hundredths heap.answer response
      (localPrinterUri secure) (localAuthority secure) localUuid.val t
    let (filtered,_) ← ippCodecFilterPrinterResponse heap.filter requested normalized
    pure filtered
  else do
    let (rewritten,_) ← ippCodecRewrite heap.answer response (localPrinterUri secure)
      (localAuthority secure)
    if q.info.operationId = Operation.getJobAttributes ∨
        q.info.operationId = Operation.getJobs then do
      let requested := if q.info.operationId = Operation.getJobs ∧ requested = [] then
        octets "job-uri,job-id" else requested
      let (filtered,_) ← ippCodecFilterResponse heap.filter .job requested rewritten
      pure filtered
    else pure rewritten

end

/-! ### The handler -/

/-- The machine that the handler runs on, and the two connections. -/
structure Environment (σ υ : Type) where
  read : ReadFn σ
  client : HttpClient υ
  heap : Heaps
  hundredths : Bytes → ℕ → Option ℕ
  mac : Fin 6 → UInt8
  secure : Bool
  continued : Bool
  turns : ℕ

/-- What goes on beside a request: the readings of the clock, and the entries of other requests
before each later entry of this one. -/
structure Beside where
  clock : ℕ → ℕ
  others : ℕ → List HistoryCall

/-- What the handler leaves behind. `job` is what its record was begun or found with, `response`
what the printer answered, `profile` what the selected printer is updated to. -/
structure Served (σ υ : Type) where
  reply : Reply
  connection : Request × σ
  upstream : υ
  history : JobHistory
  job : Option (RequestInfo × ℕ)
  response : Option Bytes
  profile : Option PrinterTarget

/-- The length of the document, as far as it has been decoded. -/
def documentBytes (r : Request) (info : RequestInfo) : ℕ := r.decodedLength - info.attributesLength

section
variable {σ υ : Type} (env : Environment σ υ) (beside : Beside)

/-- The part of `proxy_handler` after the request has been taken in; nothing if it does not come
to an end. -/
def relay (q : Relayed) (c : Request × σ) (u : υ) (h : JobHistory) : Option (Served σ υ) :=
  let info := q.info
  let (id,h) := monitorRequestStart info beside.clock h
  let h := h.after (beside.others 0)
  let served (reply : Reply) (c : Request × σ) (u : υ) (h : JobHistory) : Served σ υ :=
    ⟨reply,c,u,h,some (info,id),none,none⟩
  let now := beside.clock 2
  match prepare env.heap q with
  | .error refusal =>
    some (served refusal.reply c u
      (if refusal.entered then monitorSubmissionFailed info id 0 now h else h))
  | .ok up =>
    match forward (receiveRequest env.read) env.client env.heap env.turns q up (c,u) with
    | (.unfinished,_) => none
    | (.error e,(c,u)) =>
      some (served (forwardReply q e) c u (monitorSubmissionFailed info id 0 now h))
    | (.ok (),(c,u)) =>
      match readAnswer env.client env.heap u with
      | (.error e,u) =>
        some (served (answerReply e) c u (monitorSubmissionFailed info id 0 now h))
      | (.ok response,u) =>
        let bytes := documentBytes c.1 info
        let h := (monitorAnswer info id response bytes now h).after (beside.others 1)
        let profile := if q.queriesPrinter then updatedProfile q.target response else none
        match translate env.hundredths env.heap env.mac env.secure q response with
        | .error _ =>
          some ⟨.httpError "502 Bad Gateway" "Could not translate the printer response",c,u,
            monitorUntranslated info id response bytes (beside.clock 3) h,some (info,id),
            some response,profile⟩
        | .ok body =>
          some ⟨.response (setVersion info.major info.minor body),c,u,h,some (info,id),
            some response,profile⟩

def proxyHandler (target : Option PrinterTarget) (c : Request × σ) (u : υ) (h : JobHistory) :
    Option (Served σ υ) :=
  let refused (reply : Reply) (c : Request × σ) : Served σ υ := ⟨reply,c,u,h,none,none,none⟩
  match admission target c.1 env.continued with
  | .error reply => some (refused reply c)
  | .ok t =>
    match readAhead (receiveRequest env.read) env.heap.intake c.1.chunked ⟨c,[],0⟩ with
    | (.unfinished,_) => none
    | (.error reply,s) => some (refused reply s.connection)
    | (.ok info,s) =>
      relay env beside ⟨info,t,s.buffer,c.1.chunked,c.1.contentLength⟩ s.connection u h

end

end Espresso.Proxy
