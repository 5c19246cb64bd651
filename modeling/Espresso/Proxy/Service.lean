import Espresso.Codec.Behind
import Espresso.Proxy.Ahead
import Espresso.Proxy.Conversion

/-! What `proxy_handler` makes of a complete request: the message that the printer receives, if it
receives one, is a function of the IPP body. -/
namespace Espresso.Proxy
open Callback Codec Http Raster

open Printer (EspError)

/-! ### The plan -/

section
variable {t : PrinterTarget} {e : Envelope}

theorem plan_withDocument (document : Bytes) (contentLength : ℕ) :
    ippProxyPlanRequest (e.withDocument document).inspect t contentLength =
      ippProxyPlanRequest e.inspect t contentLength := rfl

/-- The length of the body is compared with that of the attributes, where it matters. -/
theorem plan_length_congr {request : RequestInfo} {m n : ℕ}
    (hle : request.attributesLength ≤ m ∧ request.attributesLength ≤ n)
    (hprint : request.operationId = Operation.printJob →
      (m = request.attributesLength ↔ n = request.attributesLength))
    (hother : isDocumentOperation request.operationId = false →
      (m = request.attributesLength ↔ n = request.attributesLength)) :
    ippProxyPlanRequest request t m = ippProxyPlanRequest request t n := by
  have h1 : m < request.attributesLength ↔ n < request.attributesLength := by omega
  have h2 : (request.operationId = Operation.printJob ∧ m = request.attributesLength) ↔
      (request.operationId = Operation.printJob ∧ n = request.attributesLength) :=
    and_congr_right hprint
  have h3 : ((!(relayPlan request t).documentOperation) = true ∧ m ≠ request.attributesLength) ↔
      ((!(relayPlan request t).documentOperation) = true ∧ n ≠ request.attributesLength) := by
    refine and_congr_right fun hdocument => not_congr (hother ?_)
    exact (Bool.not_eq_true' _).mp hdocument
  unfold ippProxyPlanRequest
  simp only [h1, h2, h3]

/-- The request as if all of its body were in the buffer. -/
def wholeRequest (t : PrinterTarget) (e : Envelope) : Relayed :=
  ⟨e.inspect,t,e.encode,true,e.encode.length⟩

/-- A request of which the attributes have been received, and what the plan depends on beside
them. -/
structure Stands (t : PrinterTarget) (e : Envelope) (q : Relayed) (rest : Bytes) : Prop where
  info : ∃ document, q.info = (e.withDocument document).inspect
  target : q.target = t
  body : e.encode = q.received ++ rest
  attributes : e.attributesLength ≤ q.received.length
  length : q.chunked = false → q.contentLength = e.encode.length
  drained : q.chunked = true → isDocumentOperation e.inspect.operationId = false → rest = []
  peeked : q.chunked = true → e.inspect.operationId = Operation.printJob →
    (q.received.length = e.attributesLength ↔ e.encode.length = e.attributesLength)

section
variable {q : Relayed} {rest : Bytes} (h : Stands t e q rest)
include h

theorem Stands.operationId : q.info.operationId = e.inspect.operationId := by
  obtain ⟨document,hinfo⟩ := h.info
  rw [hinfo, withDocument_operationId]

theorem Stands.plan_eq : q.plan = (wholeRequest t e).plan := by
  obtain ⟨document,hinfo⟩ := h.info
  have hlength : e.encode.length = q.received.length + rest.length := by
    rw [h.body, List.length_append]
  change ippProxyPlanRequest q.info q.target q.bodyLength =
    ippProxyPlanRequest e.inspect t e.encode.length
  rw [hinfo, h.target, plan_withDocument]
  unfold Relayed.bodyLength
  split
  · rename_i hchunked
    refine plan_length_congr ⟨h.attributes,?_⟩ (h.peeked hchunked) fun hother => ?_
    · change e.attributesLength ≤ _
      have := h.attributes
      omega
    · rw [hlength, h.drained hchunked hother, List.length_nil, Nat.add_zero]
  · rename_i hfixed
    rw [h.length (Bool.eq_false_iff.mpr hfixed)]

theorem Stands.converting_eq : q.converting = (wholeRequest t e).converting := by
  unfold Relayed.converting
  rw [h.plan_eq]

theorem Stands.queriesPrinter_eq : q.queriesPrinter = (wholeRequest t e).queriesPrinter := by
  unfold Relayed.queriesPrinter
  rw [h.operationId]
  rfl

/-- Nothing follows the attributes of a request that is relayed, unless it submits a document. -/
theorem Stands.rest_eq_nil (hrelay : q.plan.action ≠ .localStatus)
    (hother : isDocumentOperation e.inspect.operationId = false) : rest = [] := by
  rw [h.plan_eq] at hrelay
  obtain ⟨-,-,hfits⟩ := plan_relay_bodyFits hrelay
  simp only [isDocumentOperation, Bool.or_eq_false_iff, decide_eq_false_iff_not] at hother
  have hlength : e.encode.length = e.attributesLength := hfits hother.1 hother.2
  rw [h.body, List.length_append] at hlength
  have := h.attributes
  exact List.eq_nil_of_length_eq_zero (by omega)

end

/-! ### The message -/

/-- No heap refuses the memory that a request takes. -/
structure Heaps.Grants (heap : Heaps) : Prop where
  intake : ¬ heap.intake.Refuses
  rewrite : ¬ heap.rewrite.Refuses
  facade : ¬ heap.facade.Refuses
  query : ¬ heap.query.Refuses
  stream : ¬ heap.stream.Refuses

theorem unlimitedHeaps_grants : unlimitedHeaps.Grants :=
  ⟨Memory.unlimited_not_refuses,Memory.unlimited_not_refuses,Memory.unlimited_not_refuses,
    Memory.unlimited_not_refuses,Memory.unlimited_not_refuses⟩

theorem Memory.eq_unlimited {mem : Memory} (h : ¬ mem.Refuses) : mem = Memory.unlimited :=
  funext (Memory.granted h)

theorem setVersion_append {major minor : UInt8} {message : Bytes} (h : 2 ≤ message.length)
    (rest : Bytes) : setVersion major minor (message ++ rest) =
      setVersion major minor message ++ rest := by
  rw [setVersion, setVersion, List.drop_append_of_le_length h, List.append_assoc]

theorem map_followedBy_nil {ε : Type} (x : Except ε (Bytes × ℕ)) :
    x.map (followedBy []) = x := by
  cases x with
  | error e => rfl
  | ok p => simp only [Except.map, followedBy, List.append_nil]

section
variable {q : Relayed} {rest : Bytes} {heap : Heaps} (h : Stands t e q rest) (hheap : heap.Grants)
include h hheap

/-- The envelope is the same, however much of the document has been received. -/
theorem Stands.upstreamEnvelope_eq (hquery : q.queriesPrinter = true → rest = [])
    (endpoint : TransportEndpoint) :
    upstreamEnvelope unlimitedHeaps (wholeRequest t e) endpoint =
      (upstreamEnvelope heap q endpoint).map (followedBy rest) := by
  obtain ⟨document,hinfo⟩ := h.info
  have hid : q.info.requestId = (wholeRequest t e).info.requestId := by rw [hinfo]; rfl
  have hmajor : q.info.major = (wholeRequest t e).info.major := by rw [hinfo]; rfl
  have hminor : q.info.minor = (wholeRequest t e).info.minor := by rw [hinfo]; rfl
  have hformat : q.info.documentFormat = (wholeRequest t e).info.documentFormat := by rw [hinfo]; rfl
  have hlength : q.info.attributesLength = (wholeRequest t e).info.attributesLength := by
    rw [hinfo]; rfl
  rw [h.queriesPrinter_eq] at hquery
  unfold upstreamEnvelope
  simp only [h.queriesPrinter_eq, h.plan_eq, hid, hmajor, hminor, hformat, hlength]
  by_cases hqueries : (wholeRequest t e).queriesPrinter = true
  · obtain rfl := hquery hqueries
    rw [map_followedBy_nil, hqueries, Memory.eq_unlimited hheap.query]
    rfl
  · rw [Bool.not_eq_true] at hqueries
    rw [hqueries]
    have hreceived : decode q.received =
        .ok (e.withDocument (q.received.drop e.attributesLength)) :=
      decode_beginning (decode_eq_ok_iff.mpr h.body) h.attributes
    have hbody : (wholeRequest t e).received = q.received ++ rest := h.body
    have htarget : q.target = (wholeRequest t e).target := h.target
    simp only [Bool.not_false, if_true]
    have hrewriteHeap : unlimitedHeaps.rewrite = Memory.unlimited := rfl
    have hfacadeHeap : unlimitedHeaps.facade = Memory.unlimited := rfl
    rw [hbody, htarget, hrewriteHeap, hfacadeHeap, Memory.eq_unlimited hheap.rewrite,
      Memory.eq_unlimited hheap.facade, rewriteRequest_append Memory.unlimited_not_refuses
        Memory.unlimited_not_refuses _ _ _ _ hreceived rest]
    cases hrewrite : ippCodecRewriteRequestForFormatDiagnostic (n := 128) Memory.unlimited
        Memory.unlimited q.received endpoint.printerUri.val endpoint.authority.val
        (wholeRequest t e).target (wholeRequest t e).plan.upstreamDocumentFormat with
    | error rejection =>
      simp only [Except.map]
      split <;> rfl
    | ok p =>
      obtain ⟨rewritten,k⟩ := p
      obtain ⟨e1,-,he1⟩ := rewriteRequest_message hrewrite
      have htwo : 2 ≤ rewritten.length := by
        have hheader : e1.header.length = 8 := e1.header_length
        rw [he1, relayedEnvelope, List.length_append, List.length_append, hheader]
        omega
      simp only [Except.map, followedBy, setVersion_append htwo]

omit hheap in
/-- The length in front counts the message. -/
theorem Stands.outgoingLength_eq (hrelay : q.plan.action ≠ .localStatus)
    (hfixed : q.outgoingChunked = false) (rewritten : Bytes) :
    q.bodyLength = q.replacedLength + rest.length ∧
      q.outgoingLength rewritten = (rewritten ++ rest).length := by
  suffices hlength : q.bodyLength = q.replacedLength + rest.length by
    refine ⟨hlength,?_⟩
    rw [Relayed.outgoingLength, hlength, List.length_append]
    push_cast
    ring
  have hdocument : q.chunked = true → isDocumentOperation e.inspect.operationId = false := by
    intro hchunked
    have hno := (Bool.or_eq_false_iff.mp hfixed).2
    rwa [hchunked, Bool.true_and, Relayed.plan, plan_documentOperation, h.operationId] at hno
  have hlength : e.encode.length = q.received.length + rest.length := by
    rw [h.body, List.length_append]
  unfold Relayed.replacedLength
  split
  · rename_i hquery
    have hid : q.info.operationId = Operation.getPrinterAttributes := of_decide_eq_true hquery
    rw [h.rest_eq_nil hrelay (by rw [← h.operationId, hid]; decide)]
    rfl
  · unfold Relayed.bodyLength
    split
    · rename_i hchunked
      rw [h.drained hchunked (hdocument hchunked)]
      rfl
    · rename_i hchunked
      rw [h.length (Bool.eq_false_iff.mpr hchunked), hlength]

omit hheap in
theorem Stands.lengthRefused_eq (hrelay : q.plan.action ≠ .localStatus) (rewritten : Bytes) :
    q.lengthRefused rewritten =
      (!q.outgoingChunked && decide (int32Max < (rewritten ++ rest).length)) := by
  unfold Relayed.lengthRefused
  cases hout : q.outgoingChunked with
  | true => rfl
  | false =>
    rw [(h.outgoingLength_eq hrelay hout rewritten).2]
    have hpos : ¬ ((rewritten ++ rest).length : ℤ) < 0 := not_lt.mpr (Int.natCast_nonneg _)
    simp only [hpos, Nat.cast_lt, decide_false, Bool.false_or]

end

theorem wholeRequest_stands (t : PrinterTarget) (e : Envelope) :
    Stands t e (wholeRequest t e) [] where
  info := ⟨e.document,rfl⟩
  target := rfl
  body := (List.append_nil _).symm
  attributes := (congrArg List.length e.take_encode).ge.trans (List.length_take_le' _ _)
  length := nofun
  drained _ _ := rfl
  peeked _ _ := Iff.rfl

/-- An upload with a length in front can be announced. -/
def FitsLength (q : Relayed) (message : Bytes) : Prop :=
  q.outgoingChunked = true ∨ message.length ≤ int32Max

theorem prepare_eq_ok_iff {heap : Heaps} {q : Relayed} {up : Upload} :
    prepare heap q = .ok up ↔ q.plan.action ≠ .localStatus ∧
      printerTransportBuild q.target = some up.endpoint ∧
      upstreamEnvelope heap q up.endpoint = .ok (up.rewritten,up.attributesLength) ∧
      q.lengthRefused up.rewritten = false := by
  unfold prepare
  simp only
  constructor
  · intro h
    split at h
    · cases h
    rename_i haction
    split at h
    · cases h
    rename_i endpoint hendpoint
    split at h
    · cases h
    rename_i rewritten k henvelope
    split at h
    · cases h
    rename_i hlength
    cases h
    exact ⟨haction,hendpoint,henvelope,Bool.eq_false_iff.mpr hlength⟩
  · rintro ⟨haction,hendpoint,henvelope,hlength⟩
    rw [if_neg haction, hendpoint]
    simp only [henvelope]
    rw [hlength]
    rfl

section
variable {q : Relayed} {rest : Bytes} {heap : Heaps} (h : Stands t e q rest)
include h

theorem Stands.fitsLength_iff (hrelay : q.plan.action ≠ .localStatus) (rewritten : Bytes) :
    FitsLength q (rewritten ++ rest) ↔ q.lengthRefused rewritten = false := by
  rw [h.lengthRefused_eq hrelay]
  simp only [FitsLength, Bool.and_eq_false_iff, Bool.not_eq_false', decide_eq_false_iff_not,
    not_lt]

/-- What can be announced can be announced of the whole request. -/
theorem Stands.fitsLength_whole {message : Bytes} (hfits : FitsLength q message) :
    FitsLength (wholeRequest t e) message := by
  refine hfits.imp_left fun hout => ?_
  unfold Relayed.outgoingChunked at hout ⊢
  rw [← h.converting_eq, ← h.plan_eq]
  rcases Bool.or_eq_true_iff.mp hout with hconverting | hchunked
  · rw [hconverting]
    rfl
  · rw [(Bool.and_eq_true_iff.mp hchunked).2]
    exact Bool.or_true _

/-- What is made of a request does not depend on how much of it has been received, or only on
whether its length can be announced. -/
theorem Stands.prepare_iff (hheap : heap.Grants) {endpoint : TransportEndpoint} {message : Bytes}
    {k : ℕ} :
    (∃ rewritten, message = rewritten ++ rest ∧ prepare heap q = .ok ⟨endpoint,rewritten,k⟩) ↔
      prepare unlimitedHeaps (wholeRequest t e) = .ok ⟨endpoint,message,k⟩ ∧
        FitsLength q message := by
  have hwhole := wholeRequest_stands t e
  have hquery : q.plan.action ≠ .localStatus → q.queriesPrinter = true → rest = [] := by
    intro hrelay hqueries
    have hid : q.info.operationId = Operation.getPrinterAttributes := of_decide_eq_true hqueries
    exact h.rest_eq_nil hrelay (by rw [← h.operationId, hid]; decide)
  have htarget : (wholeRequest t e).target = q.target := h.target.symm
  simp only [prepare_eq_ok_iff, htarget, ← h.plan_eq]
  constructor
  · rintro ⟨rewritten,rfl,hrelay,hendpoint,henvelope,hlength⟩
    have hfits := (h.fitsLength_iff hrelay rewritten).mpr hlength
    refine ⟨⟨hrelay,hendpoint,?_,?_⟩,hfits⟩
    · rw [h.upstreamEnvelope_eq hheap (hquery hrelay), henvelope]
      rfl
    · rw [← hwhole.fitsLength_iff (h.plan_eq ▸ hrelay), List.append_nil]
      exact h.fitsLength_whole hfits
  · rintro ⟨⟨hrelay,hendpoint,henvelope,-⟩,hfits⟩
    rw [h.upstreamEnvelope_eq hheap (hquery hrelay)] at henvelope
    cases hown : upstreamEnvelope heap q endpoint with
    | error refusal =>
      rw [hown] at henvelope
      cases henvelope
    | ok p =>
      obtain ⟨rewritten,k'⟩ := p
      rw [hown] at henvelope
      cases henvelope
      exact ⟨rewritten,rfl,hrelay,hendpoint,rfl,(h.fitsLength_iff hrelay rewritten).mp hfits⟩

end

end

/-! ### The upload -/

section
variable {υ : Type} {w : Wire υ} {u : υ} {message message' : Bytes}

/-- The printer has received this message, whole. -/
def Wire.Received (w : Wire υ) (u : υ) (message : Bytes) : Prop :=
  ∃ chunked, w.Carries chunked u message

theorem Wire.Carries.received {chunked : Bool} (h : w.Carries chunked u message) :
    w.Received u message := ⟨chunked,h⟩

theorem Wire.not_received_of_unended (hannounces : w.Announces (-1) u)
    (hunended : (dechunk (w.body u)).2 = none) : ¬ w.Received u message := by
  rintro ⟨chunked | chunked,h⟩
  · obtain ⟨hlength,-⟩ := h
    have := hannounces _ hlength
    omega
  · obtain ⟨-,hbody⟩ := h
    rw [hbody] at hunended
    cases hunended

theorem Wire.Halted.not_received (h : w.Halted u) : ¬ w.Received u message :=
  not_received_of_unended h.1 h.2.dechunk_eq_none

theorem Wire.Fresh.not_received (h : w.Fresh u) : ¬ w.Received u message := by
  refine not_received_of_unended ?_ ?_
  · rw [Wire.Announces, h.1]
    intro n hn
    cases hn
  · rw [h.2]
    exact Between.nil.unended.dechunk_eq_none

theorem Wire.Received.unique (h : w.Received u message) (h' : w.Received u message') :
    message = message' := by
  obtain ⟨chunked | chunked,h⟩ := h <;> obtain ⟨chunked' | chunked',h'⟩ := h'
  · exact h.2.symm.trans h'.2
  · have := h'.1 _ h.1
    omega
  · have := h.1 _ h'.1
    omega
  · exact congrArg Prod.fst (h.2.symm.trans h'.2)

theorem Wire.Received.of_same {u' : υ} (h : w.Received u message)
    (hannounced : w.announced u' = w.announced u) (hbody : w.body u' = w.body u) :
    w.Received u' message := by
  obtain ⟨chunked,h⟩ := h
  exact ⟨chunked,h.of_same hannounced hbody⟩

end

theorem not_queriesPrinter_of_document {q : Relayed} (h : q.plan.documentOperation = true) :
    q.queriesPrinter = false := by
  rw [Relayed.plan, plan_documentOperation] at h
  by_contra hquery
  have hid : q.info.operationId = Operation.getPrinterAttributes :=
    of_decide_eq_true (Bool.not_eq_false _ ▸ hquery)
  rw [hid] at h
  cases h

/-- The envelope of a document that has been received in part. -/
theorem upstreamEnvelope_fits {heap : Heaps} {q : Relayed} {endpoint : TransportEndpoint}
    {rewritten : Bytes} {k : ℕ} (hquery : q.queriesPrinter = false)
    (hfits : q.received.length ≤ requestPrefixMax)
    (h : upstreamEnvelope heap q endpoint = .ok (rewritten,k)) :
    k ≤ rewritten.length ∧ rewritten.length ≤ sizeMax := by
  refine ⟨?_,?_⟩
  · unfold upstreamEnvelope at h
    simp only [hquery, Bool.not_false, if_true] at h
    split at h
    · rename_i rewritten' k' hrewrite
      cases h
      obtain ⟨e1,e',-,he',rfl,-⟩ := rewriteRequest_ok hrewrite
      have hle := attributesLength_le_of_decode he'
      rw [e'.attributesLength_eq] at hle ⊢
      rw [setVersion, List.length_append, List.length_drop]
      change _ ≤ 2 + (_ - 2)
      omega
    · split at h <;> cases h
  · obtain ⟨e1,he1,rfl⟩ := upstreamEnvelope_message hquery h
    exact printerMessage_length he1 hfits

section
variable {κ υ : Type} {receive : ReadFn κ} {client : HttpClient υ} {R : κ → Bytes → Prop}
  {E : κ → Prop} {w : Wire υ} {heap : Heaps} {t : PrinterTarget} {e : Envelope} {q : Relayed}
  {up : Upload} {rest : Bytes}

theorem Stands.remaining_eq (h : Stands t e q rest) (hprepared : prepare heap q = .ok up)
    (hfixed : q.outgoingChunked = false) : q.remaining = rest.length := by
  obtain ⟨hrelay,-,-,hlength⟩ := prepare_eq_ok_iff.mp hprepared
  have hbody := (h.outgoingLength_eq hrelay hfixed up.rewritten).1
  rcases (h.fitsLength_iff hrelay _).mpr hlength with hout | hmax
  · rw [hfixed] at hout
    cases hout
  · rw [List.length_append] at hmax
    change _ ≤ 2147483647 at hmax
    unfold Relayed.remaining
    omega

/-- A request that is passed on arrives as it was prepared, with the rest of its document. -/
theorem Stands.forward_passes (h : Stands t e q rest) (hheap : heap.Grants)
    (hreceive : Supplies receive R intMax) (hdraws : DrawsTo receive R E) (hw : w.Reaches client)
    (hprepared : prepare heap q = .ok up) (hfits : q.received.length ≤ requestPrefixMax)
    (hdirect : q.converting = false) {c : κ} (hc : R c rest) {u : υ} (hu : w.Fresh u) {turns : ℕ}
    (hturns : e.encode.length < turns) :
    ∃ c' u', forward receive client heap turns q up (c,u) = (.ok (),(c',u')) ∧
      w.Received u' (up.rewritten ++ rest) := by
  obtain ⟨hrelay,-,henvelope,-⟩ := prepare_eq_ok_iff.mp hprepared
  have hrest : rest.length < turns := by
    rw [h.body, List.length_append] at hturns
    omega
  have hchunk : q.outgoingChunked = true → up.rewritten ≠ [] ∧ up.rewritten.length ≤ sizeMax := by
    intro hout
    unfold Relayed.outgoingChunked at hout
    rw [hdirect, Bool.false_or, Bool.and_eq_true] at hout
    have hquery := not_queriesPrinter_of_document hout.2
    exact ⟨(upstreamEnvelope_ne_nil hquery henvelope).1,
      (upstreamEnvelope_fits hquery hfits henvelope).2⟩
  obtain ⟨c',u',hrun,hsent⟩ := forward_delivers
    (hreceive.mono (show streamChunk ≤ intMax by decide)) hw hheap.stream hdirect hc hu hrest hchunk
    fun hout => h.remaining_eq hprepared hout
  refine ⟨c',u',hrun,q.outgoingChunked,?_⟩
  unfold Wire.Carries
  cases hout : q.outgoingChunked with
  | true =>
    rw [hout, if_pos rfl] at hsent
    obtain ⟨chunks,hchunks,hflatten,hsent⟩ := hsent
    have hdata : (if q.converting then up.rewritten.take up.attributesLength else up.rewritten) ≠
        [] := by
      rw [hdirect]
      exact (hchunk hout).1
    have huploaded := forward_uploads hdraws hw.records heap turns hout hdata (c,u) ⟨⟨rest,hc⟩,hu⟩
    have hall := dechunk_chunks (fun d hd => (hchunks d hd).1) (fun d hd => (hchunks d hd).2) []
    rw [List.append_nil] at hall
    rw [hrun] at huploaded
    rw [if_pos rfl]
    exact ⟨huploaded.1,by rw [hsent, hall, hflatten]⟩
  | false =>
    rw [hout, if_neg (by decide), (h.outgoingLength_eq hrelay hout _).2] at hsent
    rw [if_neg (by decide)]
    exact hsent.symm

/-- A request whose document is converted arrives with the document that it becomes, or not at
all. -/
theorem Stands.forward_converted (h : Stands t e q rest) (hreceive : Supplies receive R intMax)
    (hdraws : DrawsTo receive R E) (hw : w.Reaches client) (hprepared : prepare heap q = .ok up)
    (hfits : q.received.length ≤ requestPrefixMax) (hconverting : q.converting = true) {c : κ}
    (hc : R c rest) {u : υ} (hu : w.Fresh u) {turns : ℕ} (hturns : e.encode.length < turns) :
    ∃ o c' u', forward receive client heap turns q up (c,u) = (o,(c',u')) ∧ o ≠ .unfinished ∧
      ∀ message, w.Received u' message ↔ ∃ out, convertedDocument e.document = some out ∧
        message = up.rewritten.take up.attributesLength ++ out := by
  obtain ⟨hrelay,-,henvelope,-⟩ := prepare_eq_ok_iff.mp hprepared
  have hquery := not_queriesPrinter_of_document (Bool.and_eq_true_iff.mp hconverting).2
  have hne := (upstreamEnvelope_ne_nil hquery henvelope).2
  have hsize : (up.rewritten.take up.attributesLength).length ≤ sizeMax :=
    (List.length_take_le' _ _).trans (upstreamEnvelope_fits hquery hfits henvelope).2
  have hdocument : q.document ++ rest = e.document := by
    obtain ⟨document,hinfo⟩ := h.info
    have hlength : q.info.attributesLength = e.attributesLength := by rw [hinfo]; rfl
    rw [Relayed.document, hlength, ← List.drop_append_of_le_length h.attributes, ← h.body,
      e.drop_encode]
  have hlength : (q.document ++ rest).length < turns := by
    rw [hdocument, ← e.drop_encode, List.length_drop]
    omega
  have hconverts := forward_converts hreceive hdraws hw heap hconverting hc hu hlength
    hne hsize
  rw [hdocument] at hconverts
  split at hconverts
  · rename_i out hout
    obtain ⟨c',u',chunks,hrun,hchunks,hflatten,hsent⟩ := hconverts
    have hdata : (if q.converting then up.rewritten.take up.attributesLength else up.rewritten) ≠
        [] := by
      rw [hconverting]
      exact hne
    have huploaded := forward_uploads hdraws hw.records heap turns
      (outgoingChunked_of_converting hconverting) hdata (c,u) ⟨⟨rest,hc⟩,hu⟩
    have hall := dechunk_chunks (fun d hd => (hchunks d hd).1) (fun d hd => (hchunks d hd).2) []
    rw [List.append_nil] at hall
    rw [hrun] at huploaded
    have hreceived : w.Received u' (up.rewritten.take up.attributesLength ++ out) := by
      refine ⟨true,?_⟩
      unfold Wire.Carries
      rw [if_pos rfl]
      exact ⟨huploaded.1,by rw [hsent, hall, hflatten]⟩
    refine ⟨_,c',u',hrun,nofun,fun message => ?_⟩
    constructor
    · intro hmessage
      exact ⟨out,hout,hmessage.unique hreceived⟩
    · rintro ⟨out',hout',rfl⟩
      rw [hout] at hout'
      cases hout'
      exact hreceived
  · rename_i hnone
    obtain ⟨e,c',u',hrun,hhalted⟩ := hconverts
    refine ⟨_,c',u',hrun,nofun,fun message => ?_⟩
    constructor
    · intro hmessage
      exact absurd hmessage hhalted.not_received
    · rintro ⟨out,hout,-⟩
      rw [hnone] at hout
      cases hout

end

end Espresso.Proxy
