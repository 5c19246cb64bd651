import Espresso.Codec.Status
import Espresso.Http.Response
import Espresso.Proxy.Settlement

/-! What `ipp_proxy.c` sends its clients: the octets of every reply, and what a client makes of
them. -/
namespace Espresso.Proxy
open Callback Codec Http Jobs Raster

open Printer (EspError)

/-! ### The functions that send -/

abbrev responseHeadersSize : ℕ := 320

/-- The format string of `send_http_response`. -/
def responseHeaders (status contentType : Bytes) (bodyLength : ℕ) (noStore : Bool) : Bytes :=
  octets "HTTP/1.1 " ++ status ++ octets "\r\nContent-Type: " ++ contentType ++
    octets "\r\nContent-Length: " ++ decimalText bodyLength ++
    octets "\r\nConnection: close\r\n" ++
    (if noStore then octets "Cache-Control: no-store\r\n" else []) ++ octets "\r\n"

inductive ProxyFault
  | upstreamTimeout
  | responseTooLarge
  | invalidResponse
  | upstreamDisconnect
  deriving DecidableEq

structure FaultPolicy where
  httpStatus : String
  message : String
  retryAllowed : Bool
  deriving DecidableEq

def ippProxyPlanFault (fault : ProxyFault) (documentOperation : Bool) : FaultPolicy :=
  let retryAllowed := !documentOperation && (fault = .upstreamTimeout || fault = .upstreamDisconnect)
  match fault with
  | .upstreamTimeout => ⟨"504 Gateway Timeout","Legacy printer timed out",retryAllowed⟩
  | .responseTooLarge =>
    ⟨"502 Bad Gateway","Legacy printer response exceeded the safety limit",retryAllowed⟩
  | .invalidResponse =>
    ⟨"502 Bad Gateway","Legacy printer returned an invalid IPP response",retryAllowed⟩
  | .upstreamDisconnect =>
    ⟨"502 Bad Gateway","Legacy printer disconnected during the request",retryAllowed⟩

section
variable {τ : Type} (write : WriteFn τ) (mem : Memory)

def sendHttpResponse (status contentType body : Bytes) (noStore : Bool) (t : τ) : Bool × τ :=
  let headers := responseHeaders status contentType body.length noStore
  if responseHeadersSize ≤ headers.length then (false,t)
  else match writeAll write t headers with
    | (false,t) => (false,t)
    | (true,t) => writeAll write t body

def sendHttpError (status message : String) (t : τ) : Bool × τ :=
  sendHttpResponse write (octets status) (octets "text/plain; charset=utf-8")
    (cstr (octets message)) false t

def sendGatewayFault (fault : ProxyFault) (documentOperation : Bool) (t : τ) : Bool × τ :=
  let policy := ippProxyPlanFault fault documentOperation
  sendHttpError write policy.httpStatus policy.message t

def sendIppStatus (major minor : UInt8) (status requestId : ℕ) (message : Option String) (t : τ) :
    Bool × τ :=
  match ippCodecBuildStatusResponse major minor status requestId (message.map octets) mem with
  | .error _ => sendHttpError write "500 Internal Server Error" "Could not build IPP response" t
  | .ok response => sendHttpResponse write (octets "200 OK") (octets "application/ipp") response false t

/-- The reply that has been decided on is sent. -/
def sendReply (t : τ) : Reply → Bool × τ
  | .nothing => (true,t)
  | .httpError status message => sendHttpError write status message t
  | .ippStatus major minor status requestId message =>
    sendIppStatus write mem major minor status requestId message t
  | .response body => sendHttpResponse write (octets "200 OK") (octets "application/ipp") body false t

end

/-! ### The connection -/

section
variable {σ υ : Type} (env : Environment σ υ) (beside : Beside)

/-- The reply to a request that cannot be opened. -/
def openReply (e : HttpError) : Reply :=
  .httpError (if e = .tooLarge then "413 Content Too Large" else "400 Bad Request")
    "Malformed or unsupported HTTP request"

/-- `ipp_worker_task`, from the first octet of a connection to the reply: what it decides on, and
where it leaves the printer and the job history. -/
def ippWorkerTask (memory : Bool) (target : Option PrinterTarget) (s : σ) (u : υ)
    (h : JobHistory) : Option (Reply × υ × JobHistory) :=
  match ippHttpRequestOpen env.read memory s with
  | (.unfinished,_) => none
  | (.error e,_) => some (openReply e,u,h)
  | (.ok r,s) =>
    if !strcasecmp r.method.val (octets "POST") then
      some (.httpError "405 Method Not Allowed" "The IPP endpoint accepts POST requests",u,h)
    else (proxyHandler env beside target (r,s) u h).map fun served =>
      (served.reply,served.upstream,served.history)

end

/-! ### Faults -/

/-- The reply that a fault is planned to get. -/
def faultReply (fault : ProxyFault) (documentOperation : Bool) : Reply :=
  let policy := ippProxyPlanFault fault documentOperation
  .httpError policy.httpStatus policy.message

def forwardFault (e : EspError) : ProxyFault :=
  if e = espErrTimeout then .upstreamTimeout else .upstreamDisconnect

def AnswerError.fault : AnswerError → Option ProxyFault
  | .httpStatus => none
  | .unusable none => some .invalidResponse
  | .unusable (some e) => some <|
    if e = espErrTimeout then .upstreamTimeout
    else if e = espErrInvalidSize then .responseTooLarge
    else .upstreamDisconnect

/-- The replies to a printer that fails are the planned ones. -/
theorem replies_planned (q : Relayed) (documentOperation : Bool) :
    (∀ e, forwardReply q (.failed e) = faultReply (forwardFault e) documentOperation) ∧
      ∀ e, ∀ fault ∈ AnswerError.fault e, answerReply e = faultReply fault documentOperation := by
  constructor
  · intro e
    unfold forwardFault
    simp only [forwardReply]
    split_ifs <;> rfl
  · intro e fault hfault
    rcases e with _ | _ | e
    · cases hfault
    · cases hfault
      rfl
    · obtain rfl := Option.some.inj hfault
      simp only [answerReply]
      split_ifs <;> rfl

/-! ### Numbers -/

theorem isdigit_ofNat {digit : ℕ} (h : digit < 10) :
    isdigit (UInt8.ofNat (0x30 + digit)) = true ∧ (UInt8.ofNat (0x30 + digit)).toNat - 0x30 = digit := by
  interval_cases digit <;> decide

theorem decimalText_digits (n : ℕ) : ∀ c ∈ decimalText n, isdigit c = true := by
  fun_induction decimalText n with
  | case1 n h =>
    intro c hc
    rw [List.mem_singleton.mp hc]
    exact (isdigit_ofNat h).1
  | case2 n h ih =>
    intro c hc
    rcases List.mem_append.mp hc with hc | hc
    · exact ih c hc
    · rw [List.mem_singleton.mp hc]
      exact (isdigit_ofNat (by omega)).1

theorem decimalText_ne_nil (n : ℕ) : decimalText n ≠ [] := by
  rw [decimalText]
  split
  · exact List.cons_ne_nil _ _
  · exact List.append_ne_nil_of_right_ne_nil _ (List.cons_ne_nil _ _)

theorem decimalValue_decimalText (n : ℕ) : decimalValue (decimalText n) = n := by
  fun_induction decimalText n with
  | case1 n h => simpa [decimalValue] using (isdigit_ofNat h).2
  | case2 n h ih =>
    rw [decimalValue, List.foldl_append]
    change decimalValue (decimalText (n / 10)) * 10 + ((UInt8.ofNat (0x30 + n % 10)).toNat - 0x30) = n
    rw [ih, (isdigit_ofNat (by omega)).2]
    omega

theorem decimalText_length {n k : ℕ} (h : n < 10 ^ (k + 1)) : (decimalText n).length ≤ k + 1 := by
  induction k generalizing n with
  | zero =>
    rw [decimalText, if_pos (by simpa using h)]
    exact le_refl 1
  | succ k ih =>
    rw [decimalText]
    split
    · simp
    · have hdiv : n / 10 < 10 ^ (k + 1) := by
        rw [pow_succ] at h
        omega
      have hle := ih hdiv
      rw [List.length_append, List.length_singleton]
      omega

theorem decimalText_short {n : ℕ} (h : n ≤ sizeMax) : (decimalText n).length ≤ 10 := by
  apply decimalText_length
  have : sizeMax < 10 ^ (9 + 1) := by decide
  omega

/-- A length is read as it was printed. -/
theorem parseDecimalSize_decimalText {n : ℕ} (h : n ≤ sizeMax) :
    parseDecimalSize (decimalText n) = some n := by
  have hword : n ≤ Digits.wordMax 32 := h
  apply Option.some.inj
  rw [← parseDecimalSizeIn_target, parseDecimalSizeIn_eq (by decide), decimalValue_decimalText,
    if_pos ⟨decimalText_ne_nil n,decimalText_digits n,hword⟩]

/-! ### The head of a reply -/

theorem plain_of_isdigit {c : UInt8} (h : isdigit c = true) : c ≠ cr ∧ c ≠ lf := by
  revert c
  decide +kernel

section
variable {status contentType body : Bytes}

def statusLine (status : Bytes) : Bytes := octets "HTTP/1.1 " ++ status

def responseFields (contentType : Bytes) (bodyLength : ℕ) : List Bytes :=
  [octets "Content-Type: " ++ contentType,octets "Content-Length: " ++ decimalText bodyLength,
    octets "Connection: close"]

theorem responseHeaders_eq (status contentType body : Bytes) :
    responseHeaders status contentType body.length false ++ body =
      responseOctets (statusLine status) (responseFields contentType body.length) body := by
  have h1 : octets "\r\nContent-Type: " = crlf ++ octets "Content-Type: " := by decide
  have h2 : octets "\r\nContent-Length: " = crlf ++ octets "Content-Length: " := by decide
  have h3 : octets "\r\nConnection: close\r\n" = crlf ++ octets "Connection: close" ++ crlf := by
    decide
  have h4 : octets "\r\n" = crlf := by decide
  simp [responseHeaders, responseOctets, writtenLines, statusLine, responseFields, h1, h2, h3, h4]

/-- A text that goes into the head as it is. -/
def HeadText (text : Bytes) : Prop := text.length ≤ 40 ∧ ∀ c ∈ text, c ≠ cr ∧ c ≠ lf

instance (text : Bytes) : Decidable (HeadText text) := by unfold HeadText; infer_instance

theorem plainLine_append {start text : Bytes} (hstart : PlainLine start) (hlength : start.length ≤ 40)
    (htext : text.length ≤ 40) (hplain : ∀ c ∈ text, c ≠ cr ∧ c ≠ lf) :
    PlainLine (start ++ text) := by
  obtain ⟨hne,-,hs⟩ := hstart
  refine ⟨List.append_ne_nil_of_left_ne_nil hne _,?_,fun c hc => ?_⟩
  · rw [List.length_append]
    have : 40 + 40 < httpLineSize := by decide
    omega
  · rcases List.mem_append.mp hc with hc | hc
    · exact hs c hc
    · exact hplain c hc

theorem headers_announce (hstatus : HeadText status) (htype : HeadText contentType)
    (hbody : body.length ≤ sizeMax) :
    Announces (statusLine status) (responseFields contentType body.length) contentType body := by
  have hstarts : ∀ s ∈ ["HTTP/1.1 ","Content-Type: ","Content-Length: ","Connection: close"],
      PlainLine (octets s) ∧ (octets s).length ≤ 40 := by decide +kernel
  simp only [List.forall_mem_cons] at hstarts
  obtain ⟨⟨h1,l1⟩,⟨h2,l2⟩,⟨h3,l3⟩,⟨h4,-⟩,-⟩ := hstarts
  have hdigits := decimalText_digits body.length
  have hshort := decimalText_short hbody
  refine ⟨?_,List.prefix_append _ _,?_,?_⟩
  · simp only [responseFields, List.forall_mem_cons]
    exact ⟨plainLine_append h1 l1 hstatus.1 hstatus.2,plainLine_append h2 l2 htype.1 htype.2,
      plainLine_append h3 l3 (by omega) fun c hc => plain_of_isdigit (hdigits c hc),h4,nofun⟩
  · have hname : octets "Content-Type" ++ octets ": " = octets "Content-Type: " := by decide
    simp [fieldValue, responseFields, hname]
  · have hname : octets "Content-Length" ++ octets ": " = octets "Content-Length: " := by decide
    have hother : ¬ octets "Content-Length: " <+: octets "Content-Type: " ++ contentType := by
      intro hpre
      have hfirst := hpre.take 9
      rw [List.take_append_of_le_length (by decide)] at hfirst
      exact absurd hfirst (by decide)
    simp [fieldValue, responseFields, hname, hother, parseDecimalSize_decimalText hbody]

/-- The array for the head is large enough. -/
theorem responseHeaders_length (hstatus : HeadText status) (htype : HeadText contentType)
    (hbody : body.length ≤ sizeMax) :
    (responseHeaders status contentType body.length false).length < responseHeadersSize := by
  have hshort := decimalText_short hbody
  have h0 : (octets "HTTP/1.1 ").length = 9 := by decide
  have h1 : (octets "\r\nContent-Type: ").length = 16 := by decide
  have h2 : (octets "\r\nContent-Length: ").length = 18 := by decide
  have h3 : (octets "\r\nConnection: close\r\n").length = 21 := by decide
  have h4 : (octets "\r\n").length = 2 := by decide
  obtain ⟨hs,-⟩ := hstatus
  obtain ⟨hc,-⟩ := htype
  simp only [responseHeaders, List.length_append, h0, h1, h2, h3, h4, Bool.false_eq_true, if_false,
    List.length_nil]
  have : (320 : ℕ) = responseHeadersSize := rfl
  omega

/-! ### What arrives -/

section
variable {τ : Type} {write : WriteFn τ} {taken : τ → Bytes}

/-- `sent` is what arrives of a response: all of it, if sending succeeds, and nothing that could be
taken for another. -/
structure Arrives (ok : Bool) (response : Response) (sent : Bytes) : Prop where
  whole : ok = true → clientResponse sent = some response
  nothingElse : clientResponse sent = none ∨ clientResponse sent = some response

/-- Two writes one after the other, as one. -/
theorem writeAll_both (h : Transmits write taken) (t : τ) (first second : Bytes) :
    ∃ part, part <+: first ++ second ∧
      taken (match writeAll write t first with
        | (false,t) => (false,t)
        | (true,t) => writeAll write t second).2 = taken t ++ part ∧
      ((match writeAll write t first with
        | (false,t) => (false,t)
        | (true,t) => writeAll write t second).1 = true → part = first ++ second) := by
  obtain ⟨n,hn,hlog,hall⟩ := writeAll_transmits h t first
  cases hfirst : writeAll write t first with
  | mk ok t1 =>
    rw [hfirst] at hlog hall
    cases ok with
    | false => exact ⟨first.take n,(List.take_prefix n first).trans (List.prefix_append _ _),hlog,nofun⟩
    | true =>
      obtain ⟨m,hm,hlog2,hall2⟩ := writeAll_transmits h t1 second
      rw [hall rfl, List.take_length] at hlog
      refine ⟨first ++ second.take m,
        (List.prefix_append_right_inj first).mpr (List.take_prefix m second),?_,fun hok => ?_⟩
      · rw [hlog2, hlog, List.append_assoc]
      · rw [hall2 hok, List.take_length]

theorem sendHttpResponse_arrives (h : Transmits write taken) (hstatus : HeadText status)
    (htype : HeadText contentType) (hbody : body.length ≤ sizeMax) (t : τ) :
    ∃ sent, taken (sendHttpResponse write status contentType body false t).2 = taken t ++ sent ∧
      Arrives (sendHttpResponse write status contentType body false t).1
        ⟨status,contentType,body⟩ sent := by
  have hannounce := headers_announce hstatus htype hbody
  have hwhole := clientResponse_whole hannounce
  have hstatusLine : (statusLine status).drop 9 = status := List.drop_left' (by decide)
  rw [hstatusLine] at hwhole
  obtain ⟨part,hpart,hlog,hall⟩ :=
    writeAll_both h t (responseHeaders status contentType body.length false) body
  rw [responseHeaders_eq] at hpart hall
  unfold sendHttpResponse
  simp only
  rw [if_neg (not_le.mpr (responseHeaders_length hstatus htype hbody))]
  refine ⟨part,hlog,fun hok => by rw [hall hok, hwhole],?_⟩
  by_cases hcut : part = responseOctets (statusLine status)
      (responseFields contentType body.length) body
  · exact .inr (by rw [hcut, hwhole])
  · exact .inl (clientResponse_cut hannounce hpart hcut)

end

end

/-! ### The replies of the handler -/

namespace Reply

/-- The status lines of the replies that are plain text. -/
def statuses : List String :=
  ["400 Bad Request","405 Method Not Allowed","413 Content Too Large","500 Internal Server Error",
    "502 Bad Gateway","503 Service Unavailable","504 Gateway Timeout"]

/-- A reply that does not fail for what it says. -/
def Sendable : Reply → Prop
  | .nothing | .response _ => True
  | .httpError status message => status ∈ statuses ∧ (octets message).length ≤ 200
  | .ippStatus major _ status requestId message =>
    major ≠ 0 ∧ status < 65536 ∧ requestId < 4294967296 ∧ ∀ m ∈ message, (octets m).length ≤ 200

/-- What a client is to receive. -/
def wire (mem : Memory) : Reply → Option Response
  | .nothing => none
  | .httpError status message =>
    some ⟨octets status,octets "text/plain; charset=utf-8",cstr (octets message)⟩
  | .ippStatus major minor status requestId message =>
    match ippCodecBuildStatusResponse major minor status requestId (message.map octets) mem with
    | .error _ =>
      some ⟨octets "500 Internal Server Error",octets "text/plain; charset=utf-8",
        octets "Could not build IPP response"⟩
    | .ok out => some ⟨octets "200 OK",octets "application/ipp",out⟩
  | .response body => some ⟨octets "200 OK",octets "application/ipp",body⟩

end Reply

section
variable {τ : Type} {write : WriteFn τ} {taken : τ → Bytes}

theorem statusEnvelope_length {major minor : UInt8} {statusCode requestId : ℕ}
    {statusMessage : Option Bytes} (htext : (statusText statusMessage).length < 65536) :
    (statusEnvelope major minor statusCode requestId htext).encode.length ≤ 131072 := by
  have h1 : (octets "attributes-charset").length = 18 := by decide
  have h2 : (octets "utf-8").length = 5 := by decide
  have h3 : (octets "attributes-natural-language").length = 27 := by decide
  have h4 : (octets "en").length = 2 := by decide
  have h5 : (octets "status-message").length = 14 := by decide
  have h0 : ippHeaderLength = 8 := rfl
  rw [Envelope.encode_eq, List.length_append, Envelope.header_length, h0]
  unfold statusEnvelope statusAttributes
  split <;>
    simp [encodeItems, attributeList, attributeItems, named, Item.encode, str, h1, h2, h3, h4, h5]
  omega

theorem statuses_headText : ∀ status ∈ Reply.statuses, HeadText (octets status) := by
  decide +kernel

theorem sendHttpError_arrives (h : Transmits write taken) {status message : String}
    (hstatus : status ∈ Reply.statuses) (hmessage : (octets message).length ≤ 200) (t : τ) :
    ∃ sent, taken (sendHttpError write status message t).2 = taken t ++ sent ∧
      Arrives (sendHttpError write status message t).1
        ⟨octets status,octets "text/plain; charset=utf-8",cstr (octets message)⟩ sent := by
  have htype : HeadText (octets "text/plain; charset=utf-8") := by decide +kernel
  have hshort := cstr_length_le (octets message)
  have hsize : 200 ≤ sizeMax := by decide
  exact sendHttpResponse_arrives h (statuses_headText status hstatus) htype (by omega) t

theorem statusText_lt {message : Option String}
    (hmessage : ∀ m ∈ message, (octets m).length ≤ 200) :
    (statusText (message.map octets)).length < 65536 := by
  have hshort := cstr_length_le ((message.map octets).getD [])
  unfold statusText
  cases message with
  | none => exact Nat.lt_of_le_of_lt hshort (by decide)
  | some m =>
    have := hmessage m rfl
    simp only [Option.map_some, Option.getD_some] at hshort ⊢
    omega

/-- Whatever the connection does, nothing but the reply arrives, and all of it if sending succeeds. -/
theorem sendReply_arrives (h : Transmits write taken) (mem : Memory) {reply : Reply}
    (hreply : reply.Sendable) (hbody : ∀ body, reply = .response body → body.length ≤ sizeMax)
    (t : τ) : ∃ sent, taken (sendReply write mem t reply).2 = taken t ++ sent ∧
      match reply.wire mem with
      | none => sent = []
      | some response => Arrives (sendReply write mem t reply).1 response sent := by
  have hok : HeadText (octets "200 OK") := by decide +kernel
  have htype : HeadText (octets "application/ipp") := by decide +kernel
  cases reply with
  | nothing => exact ⟨[],(List.append_nil _).symm,rfl⟩
  | httpError status message => exact sendHttpError_arrives h hreply.1 hreply.2 t
  | response body => exact sendHttpResponse_arrives h hok htype (hbody body rfl) t
  | ippStatus major minor status requestId message =>
    obtain ⟨hmajor,hstatus,hid,hmessage⟩ := hreply
    have htext := statusText_lt hmessage
    simp only [sendReply, sendIppStatus, Reply.wire]
    have hcases : (ippCodecBuildStatusResponse major minor status requestId (message.map octets)
          mem = .error .noMemory ∧ mem.Refuses) ∨ ippCodecBuildStatusResponse major minor status
        requestId (message.map octets) mem =
          .ok (statusEnvelope major minor status requestId htext).encode :=
      buildStatusResponse_eq hmajor htext
    rcases hcases with ⟨hbuild,-⟩ | hbuild
    · rw [hbuild]
      have hcstr : cstr (octets "Could not build IPP response") =
          octets "Could not build IPP response" := by decide
      have hsent := sendHttpError_arrives h
        (show "500 Internal Server Error" ∈ Reply.statuses by decide)
        (show (octets "Could not build IPP response").length ≤ 200 by decide) t
      rwa [hcstr] at hsent
    · rw [hbuild]
      exact sendHttpResponse_arrives h hok htype ((statusEnvelope_length htext).trans (by decide)) t

end

/-! #### What the handler decides on -/

theorem inspect_requestId_lt {p : Bytes} {info : RequestInfo}
    (h : ippCodecInspectRequest p = .ok info) : info.requestId < 4294967296 := by
  obtain ⟨e,-,rfl⟩ := inspect_ok_iff.mp h
  have hfields := e.inspect_headerFields
  simp only [RequestInfo.headerFields, Prod.mk.injEq] at hfields
  rw [hfields.2.2.2]
  exact readU32_lt _ _ _ _

section
variable {info : RequestInfo} {t : PrinterTarget} {contentLength : ℕ}

theorem versionSupported_major (h : versionSupported info = true) : info.major ≠ 0 := by
  rintro h0
  simp [versionSupported, h0] at h

theorem reject_sendable {plan : Plan} {status : ℕ} {message : String}
    (hmajor : plan.responseMajor ≠ 0) (hstatus : status < 65536)
    (hmessage : (octets message).length ≤ 200) (hid : info.requestId < 4294967296) :
    (Reply.ippStatus (plan.reject status message).responseMajor
      (plan.reject status message).responseMinor (plan.reject status message).statusCode
      info.requestId (plan.reject status message).statusMessage).Sendable := by
  refine ⟨hmajor,hstatus,hid,fun m hm => ?_⟩
  obtain rfl : message = m := Option.some.inj hm
  exact hmessage

/-- A plan that is not carried out can be told. -/
theorem plan_sendable (hid : info.requestId < 4294967296)
    (haction : (ippProxyPlanRequest info t contentLength).action = .localStatus) :
    (Reply.ippStatus (ippProxyPlanRequest info t contentLength).responseMajor
      (ippProxyPlanRequest info t contentLength).responseMinor
      (ippProxyPlanRequest info t contentLength).statusCode info.requestId
      (ippProxyPlanRequest info t contentLength).statusMessage).Sendable := by
  unfold ippProxyPlanRequest at haction ⊢
  simp only at haction ⊢
  split_ifs at haction ⊢ with hversion
  · exact reject_sendable (show (2 : UInt8) ≠ 0 by decide) (by decide) (by decide) hid
  all_goals
    have hmajor : (relayPlan info t).responseMajor ≠ 0 :=
      versionSupported_major (by simpa using hversion)
    first
      | exact reject_sendable hmajor (by decide) (by decide) hid
      | cases haction

theorem plan_relays_major
    (haction : (ippProxyPlanRequest info t contentLength).action ≠ .localStatus) :
    info.major ≠ 0 := by
  apply versionSupported_major
  by_contra hversion
  rw [Bool.not_eq_true] at hversion
  apply haction
  simp only [ippProxyPlanRequest, hversion]
  rfl

end

section
variable {heap : Heaps} {q : Relayed}

theorem admission_sendable {target : Option PrinterTarget} {r : Request} {continued : Bool}
    {reply : Reply} (h : admission target r continued = .error reply) : reply.Sendable := by
  unfold admission at h
  split at h
  · cases h
    exact ⟨by decide,by decide⟩
  · split_ifs at h <;> cases h
    · exact ⟨by decide,by decide⟩
    · exact ⟨by decide,by decide⟩
    · trivial

theorem readAhead_sendable {κ : Type} {receive : ReadFn κ} {mem : Memory} {chunked : Bool}
    {s s' : Intake κ} {reply : Reply}
    (h : readAhead receive mem chunked s = (.error reply,s')) : reply.Sendable := by
  unfold readAhead at h
  split at h
  · cases h
  · cases h
    exact ⟨by decide,by decide⟩
  · cases h
    exact ⟨by decide,by decide⟩
  · split at h
    · cases h
    · cases h
      exact ⟨by decide,by decide⟩
    · cases h

theorem receiveEnvelope_inspected {κ : Type} {receive : ReadFn κ} {mem : Memory}
    {s s' : Intake κ} {result : Except CodecError RequestInfo}
    (h : receiveEnvelope receive mem s = (.ok result,s')) :
    ippCodecInspectRequest s'.buffer = result := by
  fun_induction receiveEnvelope receive mem s with
  | case1 s s1 hmore hinspect ih => exact ih h
  | case2 s s1 hmore hverdict =>
    cases h
    rfl
  | case3 s e s1 hmore => cases h
  | case4 s s1 hmore => cases h

theorem readAhead_requestId {κ : Type} {receive : ReadFn κ} {mem : Memory} {chunked : Bool}
    {s s' : Intake κ} {info : RequestInfo}
    (h : readAhead receive mem chunked s = (.ok info,s')) : info.requestId < 4294967296 := by
  unfold readAhead at h
  split at h
  · cases h
  · cases h
  · cases h
  rename_i info1 s1 hstop
  split at h <;> cases h
  exact inspect_requestId_lt (receiveEnvelope_inspected hstop)

theorem prepare_sendable (hid : q.info.requestId < 4294967296) {refusal : Refusal}
    (h : prepare heap q = .error refusal) : refusal.reply.Sendable := by
  unfold prepare at h
  simp only at h
  split at h
  · rename_i haction
    cases h
    exact plan_sendable hid haction
  rename_i haction
  have hmajor := plan_relays_major haction
  split at h
  · cases h
    exact ⟨by decide,by decide⟩
  split at h
  · rename_i refusal1 henvelope
    cases h
    unfold upstreamEnvelope at henvelope
    simp only at henvelope
    split at henvelope
    · split at henvelope
      · cases henvelope
      · split at henvelope <;> cases henvelope <;>
          exact ⟨hmajor,by decide,hid,by rintro m ⟨⟩; decide⟩
    · split at henvelope
      · cases henvelope
      · cases henvelope
        exact ⟨by decide,by decide⟩
  split at h
  · cases h
    exact ⟨by decide,by decide⟩
  · cases h

theorem forwardReply_sendable (hmajor : q.info.major ≠ 0) (hid : q.info.requestId < 4294967296)
    (e : ForwardError) : (forwardReply q e).Sendable := by
  cases e with
  | noClient => exact ⟨by decide,by decide⟩
  | document e =>
    cases e <;> exact ⟨hmajor,by decide,hid,by rintro m ⟨⟩; decide⟩
  | failed e =>
    simp only [forwardReply]
    split_ifs <;> exact ⟨by decide,by decide⟩

theorem answerReply_sendable (e : AnswerError) : (answerReply e).Sendable := by
  rcases e with _ | _ | e
  · exact ⟨by decide,by decide⟩
  · exact ⟨by decide,by decide⟩
  · simp only [answerReply]
    split_ifs <;> exact ⟨by decide,by decide⟩

end

section
variable {σ υ : Type} {env : Environment σ υ} {beside : Beside}

theorem relay_sendable {q : Relayed} {c : Request × σ} {u : υ} {h : JobHistory}
    {served : Served σ υ} (hid : q.info.requestId < 4294967296)
    (hserved : relay env beside q c u h = some served) : served.reply.Sendable := by
  unfold relay at hserved
  simp only at hserved
  split at hserved
  · rename_i refusal hprepare
    cases hserved
    exact prepare_sendable hid hprepare
  rename_i up hprepare
  have hmajor := plan_relays_major (prepare_ok hprepare).1
  split at hserved
  · cases hserved
  · cases hserved
    exact forwardReply_sendable hmajor hid _
  split at hserved
  · cases hserved
    exact answerReply_sendable _
  split at hserved <;> cases hserved
  · exact ⟨by decide,by decide⟩
  · trivial

theorem proxyHandler_sendable {target : Option PrinterTarget} {c : Request × σ} {u : υ}
    {h : JobHistory} {served : Served σ υ}
    (hserved : proxyHandler env beside target c u h = some served) : served.reply.Sendable := by
  unfold proxyHandler at hserved
  simp only at hserved
  split at hserved
  · rename_i reply hadmission
    cases hserved
    exact admission_sendable hadmission
  split at hserved
  · cases hserved
  · rename_i reply s hahead
    cases hserved
    exact readAhead_sendable hahead
  · rename_i info s hahead
    exact relay_sendable (readAhead_requestId hahead) hserved

theorem ippWorkerTask_sendable {memory : Bool} {target : Option PrinterTarget} {s : σ} {u u' : υ}
    {h h' : JobHistory} {reply : Reply}
    (hserved : ippWorkerTask env beside memory target s u h = some (reply,u',h')) :
    reply.Sendable := by
  unfold ippWorkerTask at hserved
  split at hserved
  · cases hserved
  · rename_i e s1 hopen
    cases hserved
    unfold openReply
    split_ifs <;> exact ⟨by decide,by decide⟩
  · split at hserved
    · cases hserved
      exact ⟨by decide,by decide⟩
    · obtain ⟨served,hhandler,heq⟩ := Option.map_eq_some_iff.mp hserved
      cases heq
      exact proxyHandler_sendable hhandler

end

/-! ### A request of a version that is not spoken -/

def versionThreeRequest : Bytes :=
  octets "POST /ipp/print HTTP/1.1\r\nContent-Type: application/ipp\r\nContent-Length: 9\r\n\r\n" ++
    [3,0,0,0x0b,0,0,0,7,3]

def versionReply : Reply :=
  .ippStatus 2 0 Status.versionNotSupported 7 (some "ESPresso supports IPP/1.1 and IPP/2.0")

theorem versionThree_served : ∃ u h, ippWorkerTask smoothEnvironment quietBeside true
    (some pdfPrinter) versionThreeRequest ([],[]) .init = some (versionReply,u,h) := by
  have hreply : (ippWorkerTask smoothEnvironment quietBeside true (some pdfPrinter)
      versionThreeRequest ([],[]) .init).map Prod.fst = some versionReply := by decide +kernel
  obtain ⟨⟨reply,u,h⟩,hserved,heq⟩ := Option.map_eq_some_iff.mp hreply
  cases heq
  exact ⟨u,h,hserved⟩

theorem wholeWrite_transmits : Transmits wholeWrite id := by
  intro t data
  exact ⟨data.length,le_rfl,by simp [wholeWrite],fun _ _ => rfl⟩

end Espresso.Proxy
