import Espresso.Proxy.Service

/-! One IPP body, framed by a length or by chunks: where `proxy_handler` makes the same of it. -/
namespace Espresso.Proxy
open Callback Codec Http Jobs Raster

/-! ### What a body stands for -/

/-- The upload of a request as if all of its body were in the buffer. -/
def wholeUpload (t : PrinterTarget) (body : Bytes) : Option (Envelope × Upload) :=
  match decode body with
  | .error _ => none
  | .ok e =>
    if requestPrefixMax < e.attributesLength then none
    else match prepare unlimitedHeaps (wholeRequest t e) with
      | .error _ => none
      | .ok up => some (e,up)

/-- The message that the printer receives for a body, if it receives one. -/
def relayedMessage (t : PrinterTarget) (body : Bytes) : Option Bytes :=
  match wholeUpload t body with
  | none => none
  | some (e,up) =>
    if (wholeRequest t e).converting then
      (convertedDocument e.document).map (up.rewritten.take up.attributesLength ++ ·)
    else some up.rewritten

/-- A framing does not stand in the way of the upload: the end of a chunked body fits the buffer
where it has to be seen there, and a length in front fits its type. -/
def FramingPasses (chunked : Bool) (t : PrinterTarget) (e : Envelope) (up : Upload) : Prop :=
  if chunked then
    e.attributesLength = requestPrefixMax → e.inspect.operationId = Operation.sendDocument
  else (wholeRequest t e).converting = true ∨ up.rewritten.length ≤ int32Max

section
variable {t : PrinterTarget} {body : Bytes} {e : Envelope} {up : Upload}

theorem wholeUpload_eq_some : wholeUpload t body = some (e,up) ↔
    decode body = .ok e ∧ e.attributesLength ≤ requestPrefixMax ∧
      prepare unlimitedHeaps (wholeRequest t e) = .ok up := by
  unfold wholeUpload
  cases hdecode : decode body with
  | error f =>
    simp only
    exact ⟨nofun,fun h => nomatch h.1⟩
  | ok e' =>
    simp only
    split_ifs with hlimit
    · refine ⟨nofun,?_⟩
      rintro ⟨he,hle,-⟩
      cases he
      omega
    · cases hprepare : prepare unlimitedHeaps (wholeRequest t e') with
      | error f =>
        refine ⟨nofun,?_⟩
        rintro ⟨he,-,hup⟩
        cases he
        rw [hprepare] at hup
        cases hup
      | ok up' =>
        constructor
        · intro h
          cases h
          exact ⟨rfl,not_lt.mp hlimit,hprepare⟩
        · rintro ⟨he,-,hup⟩
          cases he
          rw [hprepare] at hup
          cases hup
          rfl

/-- A body that is relayed ends beyond the buffer only if its attributes fill it. -/
theorem endsBeyond_iff (hrelay : (wholeRequest t e).plan.action ≠ .localStatus)
    (hlimit : e.attributesLength ≤ requestPrefixMax) : EndsBeyond e e.encode ↔
      e.attributesLength = requestPrefixMax ∧ e.inspect.operationId ≠ Operation.sendDocument := by
  obtain ⟨hle,hprint,hother⟩ := plan_relay_bodyFits hrelay
  change e.attributesLength ≤ e.encode.length at hle
  unfold EndsBeyond isDocumentOperation
  simp only [Bool.or_eq_false_iff, decide_eq_false_iff_not]
  constructor
  · rintro (⟨⟨hnot,hsend⟩,hlong⟩ | ⟨hid,hfull⟩)
    · have heq : e.encode.length = e.attributesLength := hother hnot hsend
      exact ⟨by omega,hsend⟩
    · refine ⟨hfull,?_⟩
      rw [hid]
      decide
  · rintro ⟨hfull,hsend⟩
    by_cases hid : e.inspect.operationId = Operation.printJob
    · exact .inr ⟨hid,hfull⟩
    · exact .inl ⟨⟨hid,hsend⟩,by omega⟩

end

/-! ### Taking a complete request in -/

section
variable {σ υ : Type} {env : Environment σ υ} {R : σ → Bytes → Prop} {w : Wire υ} {r : Request}
  {s : σ} {body : Bytes} {t : PrinterTarget} {e : Envelope}

/-- Neither connection fails, and no heap refuses. -/
structure Serving (env : Environment σ υ) (w : Wire υ) (R : σ → Bytes → Prop) : Prop where
  reads : Delivers env.read R
  reaches : w.Reaches env.client
  grants : env.heap.Grants

/-- `r` is the head of a complete IPP request with this body. -/
structure Framed (env : Environment σ υ) (R : σ → Bytes → Prop) (r : Request) (s : σ)
    (body : Bytes) : Prop where
  unread : Unread r
  complete : ∃ stream after, Holds R (r,s) stream ∧ decoding r stream = (body,some after)
  counted : body.length ≤ sizeMax
  turns : body.length < env.turns
  contentType : isIppContentType r.contentType.val = true
  continued : r.expectsContinue = true → env.continued = true

theorem decoding_length {stream after : Bytes} (hfixed : r.chunked = false)
    (h : decoding r stream = (body,some after)) : r.contentLength = body.length := by
  unfold decoding at h
  rw [if_neg (by rw [hfixed]; decide)] at h
  simp only [Prod.mk.injEq] at h
  obtain ⟨rfl,hafter⟩ := h
  split at hafter
  · rw [List.length_take]
    omega
  · cases hafter

theorem Framed.contentLength (h : Framed env R r s body) (hfixed : r.chunked = false) :
    r.contentLength = body.length := by
  obtain ⟨stream,after,-,hdecoding⟩ := h.complete
  exact decoding_length hfixed hdecoding

theorem Framed.countdown (h : Framed env R r s body) :
    ∃ after, Countdown R r after (r,s) body := by
  obtain ⟨stream,after,hst,hdecoding⟩ := h.complete
  refine ⟨after,?_,?_⟩
  · have hremaining := Remaining.unread h.unread hst
    rwa [hdecoding] at hremaining
  · rw [h.unread.decodedLength, Nat.zero_add]
    exact h.counted

theorem Framed.admitted (h : Framed env R r s body) (hdecode : decode body = .ok e) :
    admission (some t) r env.continued = .ok t := by
  have hlength := length_of_decode hdecode
  have hshort : ¬ ((!r.chunked) = true ∧ r.contentLength < 8) := by
    rintro ⟨hfixed,hlt⟩
    rw [h.contentLength ((Bool.not_eq_true' _).mp hfixed)] at hlt
    exact hlength hlt
  have hcontinue : ¬ (r.expectsContinue = true ∧ (!env.continued) = true) := by
    rintro ⟨hexpects,hrefused⟩
    rw [h.continued hexpects] at hrefused
    cases hrefused
  unfold admission
  simp only
  rw [if_neg hshort, h.contentType, if_neg (by decide), if_neg hcontinue]

/-- What has been received when the printer is turned to. -/
theorem Framed.stands (h : Framed env R r s body) (hserving : Serving env w R)
    (hdecode : decode body = .ok e) (hlimit : e.attributesLength ≤ requestPrefixMax)
    (hends : r.chunked = true → ¬ EndsBeyond e body) (t : PrinterTarget) :
    ∃ q c' rest after, (∃ capacity, readAhead (receiveRequest env.read) env.heap.intake r.chunked
        ⟨(r,s),[],0⟩ = (.ok q.info,⟨c',q.received,capacity⟩)) ∧ q.chunked = r.chunked ∧
      q.contentLength = r.contentLength ∧ Stands t e q rest ∧ Countdown R r after c' rest ∧
      q.received.length ≤ requestPrefixMax := by
  obtain ⟨after,hstart⟩ := h.countdown
  have hexact := readAhead_exact (receiveRequest_supplies hserving.reads)
    hserving.grants.intake r.chunked hstart hdecode hlimit
  rw [if_neg (fun hboth => hends hboth.1 hboth.2)] at hexact
  obtain ⟨info,s',hahead,hread⟩ := hexact
  obtain ⟨rest,hbody,hrest⟩ := hread.rest
  have hencode := encode_of_decode hdecode
  refine ⟨⟨info,t,s'.buffer,r.chunked,r.contentLength⟩,s'.connection,rest,after,
    ⟨s'.capacity,hahead⟩,rfl,rfl,?_,hrest,
    readAhead_fits (receiveRequest_bounded env.read) hahead⟩
  refine ⟨hread.info_eq,rfl,hencode.trans hbody,hread.attributes,fun hfixed => ?_,
    fun hchunked hother => ?_,fun hchunked hprint => ?_⟩
  · rw [hencode]
    exact h.contentLength hfixed
  · have hall := hread.drained hchunked hother
    rw [hall] at hbody
    exact List.self_eq_append_right.mp hbody
  · rw [hencode]
    exact hread.peeked hchunked hprint

/-- Which bodies the handler turns to the printer with. -/
theorem Framed.of_readAhead (h : Framed env R r s body) (hserving : Serving env w R)
    {info : RequestInfo} {s' : Intake (Request × σ)}
    (hahead : readAhead (receiveRequest env.read) env.heap.intake r.chunked ⟨(r,s),[],0⟩ =
      (.ok info,s')) : ∃ e, decode body = .ok e ∧ e.attributesLength ≤ requestPrefixMax ∧
      (r.chunked = true → ¬ EndsBeyond e body) := by
  obtain ⟨after,hstart⟩ := h.countdown
  obtain ⟨rest,hbody,-,⟨p,⟨tail,htail⟩,hinspect⟩,-⟩ :=
    readAhead_keeps (receiveRequest_countdown hserving.reads.draws) hstart hahead
  obtain ⟨e1,he1,-⟩ := inspect_ok_iff.mp hinspect
  have hfits := readAhead_fits (receiveRequest_bounded env.read) hahead
  have hdecode : decode body = .ok (e1.withDocument (e1.document ++ (tail ++ rest))) := by
    rw [hbody, ← htail, List.append_assoc]
    exact decode_append he1 _
  have hlimit : e1.attributesLength ≤ requestPrefixMax := by
    have hle := attributesLength_le_of_decode he1
    rw [← htail, List.length_append] at hfits
    omega
  refine ⟨_,hdecode,hlimit,fun hchunked hends => ?_⟩
  have hexact := readAhead_exact (receiveRequest_supplies hserving.reads)
    hserving.grants.intake r.chunked hstart hdecode hlimit
  rw [if_pos ⟨hchunked,hends⟩, hahead] at hexact
  obtain ⟨reply,s1,herror⟩ := hexact
  cases herror

end

/-! ### Reading ahead comes to an end -/

section
variable {κ : Type} (receive : ReadFn κ) (mem : Memory)

theorem receiveMore_finishes : Run.Finishes (receiveMore receive mem) := by
  intro s
  unfold receiveMore
  split
  · exact nofun
  split
  · exact nofun
  split
  · exact nofun
  split <;> exact nofun

theorem receiveEnvelope_finishes (s : Intake κ) :
    (receiveEnvelope receive mem s).1 ≠ .unfinished := by
  fun_induction receiveEnvelope receive mem s with
  | case1 s s1 hmore hinspect ih => exact ih
  | case2 =>
    intro h
    cases h
  | case3 =>
    intro h
    cases h
  | case4 s s1 hmore => exact absurd (congrArg Prod.fst hmore) (receiveMore_finishes receive mem s)

theorem drainBody_finishes (s : Intake κ) : (drainBody receive mem s).1 ≠ .unfinished := by
  fun_induction drainBody receive mem s with
  | case1 s s1 hmore ih => exact ih
  | case2 =>
    intro h
    cases h
  | case3 =>
    intro h
    cases h
  | case4 s s1 hmore => exact absurd (congrArg Prod.fst hmore) (receiveMore_finishes receive mem s)

theorem readMore_finishes (chunked : Bool) (info : RequestInfo) (s : Intake κ) :
    (readMore receive mem chunked info s).1 ≠ .unfinished := by
  unfold readMore
  split_ifs
  · exact drainBody_finishes receive mem s
  · unfold peekDocument
    split
    · exact nofun
    · exact receiveMore_finishes receive mem s
  · exact nofun

theorem readAhead_finishes (chunked : Bool) : Run.Finishes (readAhead receive mem chunked) := by
  intro s
  unfold readAhead
  split
  · rename_i heq
    exact absurd (congrArg Prod.fst heq) (receiveEnvelope_finishes receive mem s)
  · exact nofun
  · exact nofun
  · rename_i info s1 heq
    split
    · rename_i hmore
      exact absurd (congrArg Prod.fst hmore) (readMore_finishes receive mem chunked info s1)
    · exact nofun
    · exact nofun

end

/-! ### The two sides of the handler -/

section
variable {σ υ : Type} {env : Environment σ υ} {R : σ → Bytes → Prop} {w : Wire υ} {r : Request}
  {s : σ} {body : Bytes} {t : PrinterTarget} {e : Envelope}

/-- The handler turns to the printer with a part of the request that stands for the whole. -/
structure Uploads (env : Environment σ υ) (R : σ → Bytes → Prop) (r : Request) (s : σ)
    (t : PrinterTarget) (e : Envelope) (up : Upload) (q : Relayed) (up' : Upload)
    (c' : Request × σ) (rest : Bytes) : Prop where
  relays : Relays env (some t) (r,s) q up' c'
  stands : Stands t e q rest
  remaining : ∃ after, Countdown R r after c' rest
  fits : q.received.length ≤ requestPrefixMax
  rewritten : up.rewritten = up'.rewritten ++ rest
  attributesLength : up.attributesLength = up'.attributesLength

variable {up : Upload}

theorem Uploads.take_eq {q : Relayed} {up' : Upload} {c' : Request × σ} {rest : Bytes}
    (h : Uploads env R r s t e up q up' c' rest) (hconverting : q.converting = true) :
    up.rewritten.take up.attributesLength = up'.rewritten.take up'.attributesLength := by
  obtain ⟨-,-,henvelope,-⟩ := prepare_eq_ok_iff.mp h.relays.prepared
  have hquery := not_queriesPrinter_of_document (Bool.and_eq_true_iff.mp hconverting).2
  have hle := (upstreamEnvelope_fits hquery h.fits henvelope).1
  rw [h.rewritten, h.attributesLength, List.take_append_of_le_length hle]

theorem Framed.uploads (h : Framed env R r s body) (hserving : Serving env w R)
    (hupload : wholeUpload t body = some (e,up)) (hpasses : FramingPasses r.chunked t e up) :
    ∃ q up' c' rest, Uploads env R r s t e up q up' c' rest := by
  obtain ⟨hdecode,hlimit,hprepared⟩ := wholeUpload_eq_some.mp hupload
  have hrelay := (prepare_eq_ok_iff.mp hprepared).1
  have hends : r.chunked = true → ¬ EndsBeyond e body := by
    intro hchunked hbeyond
    rw [← encode_of_decode hdecode] at hbeyond
    obtain ⟨hfull,hsend⟩ := (endsBeyond_iff hrelay hlimit).mp hbeyond
    rw [hchunked, FramingPasses, if_pos rfl] at hpasses
    exact hsend (hpasses hfull)
  obtain ⟨q,c',rest,after,hahead,hchunked,hlength,hstands,hrest,hfits⟩ :=
    h.stands hserving hdecode hlimit hends t
  have hannounced : FitsLength q up.rewritten := by
    unfold FramingPasses at hpasses
    unfold FitsLength Relayed.outgoingChunked
    rw [hstands.converting_eq, hstands.plan_eq, hchunked]
    cases hr : r.chunked with
    | true =>
      have hwhole := (wholeRequest_stands t e).fitsLength_iff hrelay up.rewritten
      rw [List.append_nil] at hwhole
      exact hwhole.mpr (prepare_eq_ok_iff.mp hprepared).2.2.2
    | false =>
      rw [hr, if_neg (by decide)] at hpasses
      rw [Bool.false_and, Bool.or_false]
      exact hpasses
  obtain ⟨rewritten,hrewritten,hown⟩ :=
    (hstands.prepare_iff hserving.grants).mpr ⟨hprepared,hannounced⟩
  have hadmitted := h.admitted (t := t) hdecode
  rw [← hstands.target] at hadmitted
  exact ⟨q,⟨up.endpoint,rewritten,up.attributesLength⟩,c',rest,
    ⟨hstands.target ▸ hadmitted,hahead,hchunked,hlength,hown⟩,hstands,⟨after,hrest⟩,hfits,
    hrewritten,rfl⟩

theorem Framed.uploads_of_relays (h : Framed env R r s body) (hserving : Serving env w R)
    {q : Relayed} {up' : Upload} {c' : Request × σ}
    (hrelays : Relays env (some t) (r,s) q up' c') :
    ∃ e up rest, wholeUpload t body = some (e,up) ∧ FramingPasses r.chunked t e up ∧
      Uploads env R r s t e up q up' c' rest := by
  obtain ⟨capacity,hahead⟩ := hrelays.ahead
  obtain ⟨e,hdecode,hlimit,hends⟩ := h.of_readAhead hserving hahead
  obtain ⟨q1,c1,rest,after,⟨capacity1,hahead1⟩,hchunked,hlength,hstands,hrest,hfits⟩ :=
    h.stands hserving hdecode hlimit hends t
  have htarget : q.target = t := by
    have hadmitted := hrelays.admitted
    rw [h.admitted (t := t) hdecode] at hadmitted
    exact (Except.ok.inj hadmitted).symm
  obtain rfl : q1 = q := by
    rw [hahead] at hahead1
    simp only [Prod.mk.injEq, Outcome.ok.injEq, Intake.mk.injEq] at hahead1
    obtain ⟨hinfo,-,hreceived,-⟩ := hahead1
    have h1 := hrelays.chunked
    have h2 := hrelays.contentLength
    have h3 := hstands.target
    cases q1
    cases q
    simp only at hinfo hreceived hchunked hlength h1 h2 h3 htarget
    rw [hinfo, hreceived, h3, htarget, hchunked, h1, hlength, h2]
  obtain ⟨hprepared,hannounced⟩ :=
    (hstands.prepare_iff hserving.grants).mp ⟨up'.rewritten,rfl,hrelays.prepared⟩
  have hconnection : c1 = c' := by
    rw [hahead] at hahead1
    simp only [Prod.mk.injEq, Intake.mk.injEq] at hahead1
    exact hahead1.2.1.symm
  refine ⟨e,_,rest,wholeUpload_eq_some.mpr ⟨hdecode,hlimit,hprepared⟩,?_,
    ⟨hrelays,hstands,⟨after,hconnection ▸ hrest⟩,hfits,rfl,rfl⟩⟩
  have hrelay := (prepare_eq_ok_iff.mp hprepared).1
  unfold FramingPasses
  split
  · rename_i hr
    intro hfull
    by_contra hsend
    refine hends hr ?_
    rw [← encode_of_decode hdecode]
    exact (endsBeyond_iff hrelay hlimit).mpr ⟨hfull,hsend⟩
  · rename_i hr
    unfold FitsLength Relayed.outgoingChunked at hannounced
    rw [hchunked, Bool.eq_false_iff.mpr hr, Bool.false_and, Bool.or_false,
      hstands.converting_eq] at hannounced
    exact hannounced

/-- Whether the handler turns to the printer is a matter of the body, and of whether its framing
stands in the way. -/
theorem Framed.relays_iff (h : Framed env R r s body) (hserving : Serving env w R) :
    (∃ q up c', Relays env (some t) (r,s) q up c') ↔
      ∃ e up, wholeUpload t body = some (e,up) ∧ FramingPasses r.chunked t e up := by
  constructor
  · rintro ⟨q,up',c',hrelays⟩
    obtain ⟨e,up,rest,hupload,hpasses,-⟩ := h.uploads_of_relays hserving hrelays
    exact ⟨e,up,hupload,hpasses⟩
  · rintro ⟨e,up,hupload,hpasses⟩
    obtain ⟨q,up',c',rest,hup⟩ := h.uploads hserving hupload hpasses
    exact ⟨q,up',c',hup.relays⟩

/-- A request that is not relayed leaves the printer alone. -/
theorem uploadEnd_idle {target : Option PrinterTarget} {c : Request × σ} (u : υ)
    (hnone : ¬ ∃ q up c', Relays env target c q up c') : (uploadEnd env target c u).2 = u := by
  unfold uploadEnd
  split
  · rfl
  rename_i t hadmitted
  split
  · rename_i info s' hahead
    simp only
    split
    · rfl
    · rename_i up hprepared
      exact absurd ⟨⟨info,t,s'.buffer,c.1.chunked,c.1.contentLength⟩,up,s'.connection,hadmitted,
        ⟨s'.capacity,hahead⟩,rfl,rfl,hprepared⟩ hnone
  · rfl

/-- The upload comes to an end, and carries the message that the body stands for. -/
theorem Framed.forward_received (h : Framed env R r s body) (hserving : Serving env w R) {u : υ}
    (hu : w.Fresh u) {q : Relayed} {up' : Upload} {c' : Request × σ} {rest : Bytes}
    (hupload : wholeUpload t body = some (e,up)) (hup : Uploads env R r s t e up q up' c' rest) :
    ∃ o c1 u', forward (receiveRequest env.read) env.client env.heap env.turns q up' (c',u) =
        (o,(c1,u')) ∧ o ≠ .unfinished ∧
      ∀ message, w.Received u' message ↔ relayedMessage t body = some message := by
  obtain ⟨after,hrest⟩ := hup.remaining
  have hreceive : Supplies (receiveRequest env.read) (Countdown R r after) intMax :=
    receiveRequest_supplies hserving.reads
  have hdraws : DrawsTo (receiveRequest env.read) (Countdown R r after)
      (BodyReceived R (some after)) := receiveRequest_countdown hserving.reads.draws
  have hdecode := (wholeUpload_eq_some.mp hupload).1
  have hturns : e.encode.length < env.turns := by
    rw [encode_of_decode hdecode]
    exact h.turns
  have hmessage : relayedMessage t body = if q.converting then
      (convertedDocument e.document).map (up.rewritten.take up.attributesLength ++ ·)
      else some up.rewritten := by
    rw [relayedMessage, hupload, hup.stands.converting_eq]
  rw [hmessage]
  cases hq : q.converting with
  | true =>
    obtain ⟨o,c1,u',hrun,hends,hreceived⟩ := hup.stands.forward_converted hreceive hdraws
      hserving.reaches hup.relays.prepared hup.fits hq hrest hu hturns
    refine ⟨o,c1,u',hrun,hends,fun message => ?_⟩
    rw [hreceived, if_pos rfl, Option.map_eq_some_iff, hup.take_eq hq]
    exact exists_congr fun out => and_congr_right fun _ => eq_comm
  | false =>
    obtain ⟨c1,u',hrun,hpassed⟩ := hup.stands.forward_passes hserving.grants hreceive hdraws
      hserving.reaches hup.relays.prepared hup.fits hq hrest hu hturns
    refine ⟨_,c1,u',hrun,nofun,fun message => ?_⟩
    rw [if_neg Bool.false_ne_true, Option.some_inj, hup.rewritten]
    constructor
    · intro hmessage
      exact hpassed.unique hmessage
    · rintro rfl
      exact hpassed

/-- The message that the printer receives is a function of the body. -/
theorem Framed.received_iff (h : Framed env R r s body) (hserving : Serving env w R) {u : υ}
    (hu : w.Fresh u) (message : Bytes) :
    w.Received (uploadEnd env (some t) (r,s) u).2 message ↔
      relayedMessage t body = some message ∧
        ∃ e up, wholeUpload t body = some (e,up) ∧ FramingPasses r.chunked t e up := by
  by_cases hrelayed : ∃ e up, wholeUpload t body = some (e,up) ∧ FramingPasses r.chunked t e up
  · obtain ⟨e,up,hupload,hpasses⟩ := hrelayed
    obtain ⟨q,up',c',rest,hup⟩ := h.uploads hserving hupload hpasses
    obtain ⟨o,c1,u',hrun,-,hreceived⟩ := h.forward_received hserving hu hupload hup
    rw [hup.relays.uploadEnd, hrun, and_iff_left ⟨e,up,hupload,hpasses⟩]
    exact hreceived message
  · have hnone := (h.relays_iff hserving).not.mpr hrelayed
    rw [uploadEnd_idle u hnone]
    constructor
    · intro hmessage
      exact absurd hmessage hu.not_received
    · rintro ⟨-,hsome⟩
      exact absurd hsome hrelayed

/-- A complete request is answered. -/
theorem Framed.served (h : Framed env R r s body) (hserving : Serving env w R) {u : υ}
    (hu : w.Fresh u) (beside : Beside) (history : JobHistory) :
    ∃ served, proxyHandler env beside (some t) (r,s) u history = some served := by
  unfold proxyHandler
  simp only
  split
  · exact ⟨_,rfl⟩
  rename_i t' hadmitted
  split
  · rename_i hahead
    exact absurd (congrArg Prod.fst hahead) (readAhead_finishes _ _ _ _)
  · exact ⟨_,rfl⟩
  rename_i info s1 hahead
  unfold relay
  simp only
  split
  · exact ⟨_,rfl⟩
  rename_i up' hprepared
  have hrelays : Relays env (some t) (r,s) ⟨info,t',s1.buffer,r.chunked,r.contentLength⟩ up'
      s1.connection := ⟨hadmitted,⟨s1.capacity,hahead⟩,rfl,rfl,hprepared⟩
  obtain ⟨e,up,rest,hupload,-,hup⟩ := h.uploads_of_relays hserving hrelays
  obtain ⟨o,c1,u',hrun,hends,-⟩ := h.forward_received hserving hu hupload hup
  rw [hrun]
  cases o with
  | unfinished => exact absurd rfl hends
  | error e => exact ⟨_,rfl⟩
  | ok _ =>
    simp only
    split
    · exact ⟨_,rfl⟩
    · split <;> exact ⟨_,rfl⟩

/-- Reading the answer makes no difference to what has been sent. -/
theorem received_served_iff (hserving : Serving env w R) {target : Option PrinterTarget}
    {c : Request × σ} {u : υ} {beside : Beside} {history : JobHistory} {served : Served σ υ}
    (hserved : proxyHandler env beside target c u history = some served) (message : Bytes) :
    w.Received served.upstream message ↔ w.Received (uploadEnd env target c u).2 message := by
  obtain ⟨-,hannounced,hbody⟩ := proxyHandler_uploadEnd hserving.reaches.records hserved
  exact ⟨fun hmessage => hmessage.of_same hannounced.symm hbody.symm,
    fun hmessage => hmessage.of_same hannounced hbody⟩

/-- Whatever the framing, the fragments and the answer of the printer: a complete request is
answered, and leaves the printer with the message that its body stands for, or with none. -/
theorem proxyHandler_serves (h : Framed env R r s body) (hserving : Serving env w R) {u : υ}
    (hu : w.Fresh u) (t : PrinterTarget) (beside : Beside) (history : JobHistory) :
    ∃ served, proxyHandler env beside (some t) (r,s) u history = some served ∧
      ∀ message, w.Received served.upstream message ↔ relayedMessage t body = some message ∧
        ∃ e up, wholeUpload t body = some (e,up) ∧ FramingPasses r.chunked t e up := by
  obtain ⟨served,hserved⟩ := h.served (t := t) hserving hu beside history
  refine ⟨served,hserved,fun message => ?_⟩
  rw [received_served_iff hserving hserved, h.received_iff hserving hu]

/-- Two framings of one body, neither of which stands in its way, make no difference: one request is
relayed if the other is, and the printer receives the same message. -/
theorem proxyHandler_framings {r' : Request} {s' : σ} (hserving : Serving env w R)
    (h : Framed env R r s body) (h' : Framed env R r' s' body) {u : υ} (hu : w.Fresh u)
    (hpasses : ∀ e up, wholeUpload t body = some (e,up) →
      FramingPasses r.chunked t e up ∧ FramingPasses r'.chunked t e up) (beside : Beside)
    (history : JobHistory) :
    ((∃ q up c', Relays env (some t) (r,s) q up c') ↔
        ∃ q up c', Relays env (some t) (r',s') q up c') ∧
      ∃ served served', proxyHandler env beside (some t) (r,s) u history = some served ∧
        proxyHandler env beside (some t) (r',s') u history = some served' ∧
        ∀ message, w.Received served.upstream message ↔ w.Received served'.upstream message := by
  have hsame : (∃ e up, wholeUpload t body = some (e,up) ∧ FramingPasses r.chunked t e up) ↔
      ∃ e up, wholeUpload t body = some (e,up) ∧ FramingPasses r'.chunked t e up := by
    constructor
    · rintro ⟨e,up,hupload,-⟩
      exact ⟨e,up,hupload,(hpasses e up hupload).2⟩
    · rintro ⟨e,up,hupload,-⟩
      exact ⟨e,up,hupload,(hpasses e up hupload).1⟩
  obtain ⟨served,hserved⟩ := h.served (t := t) hserving hu beside history
  obtain ⟨served',hserved'⟩ := h'.served (t := t) hserving hu beside history
  refine ⟨?_,served,served',hserved,hserved',fun message => ?_⟩
  · rw [h.relays_iff hserving, h'.relays_iff hserving, hsame]
  · rw [received_served_iff hserving hserved, received_served_iff hserving hserved',
      h.received_iff hserving hu, h'.received_iff hserving hu, hsame]

end

/-! ### A request in both framings -/

/-- A request in one chunk. -/
def chunkedIppRequest : Request := { ippRequest 0 with chunked := true }

/-- Long enough for every body that can be counted. -/
def enduringEnvironment : Environment Bytes (Option ℤ × Bytes) :=
  { attentiveEnvironment with turns := 4294967296 }

theorem enduring_serving : Serving enduringEnvironment attentiveWire Eq :=
  ⟨wholeRead_delivers,attentivePrinter_reaches,unlimitedHeaps_grants⟩

theorem ippRequest_contentType :
    isIppContentType (Text.copy 128 (octets "application/ipp")).val = true := by decide +kernel

section
variable {body : Bytes}

theorem ippRequest_framed (hsize : body.length ≤ sizeMax) :
    Framed enduringEnvironment Eq (ippRequest body.length) body body where
  unread := ⟨rfl,rfl,rfl,rfl,rfl⟩
  complete := by
    refine ⟨body,[],⟨body,rfl,rfl⟩,?_⟩
    unfold decoding
    rw [if_neg (show ¬ (ippRequest body.length).chunked = true from Bool.false_ne_true)]
    change (body.take body.length,
      if body.length ≤ body.length then some (body.drop body.length) else none) = _
    rw [if_pos le_rfl, List.take_length, List.drop_length]
  counted := hsize
  turns := Nat.lt_succ_of_le hsize
  contentType := ippRequest_contentType
  continued := nofun

/-- The body as a single chunk. -/
def singleChunk (body : Bytes) : Bytes := ([body] ++ [[]]).flatMap httpChunk

theorem chunkedIppRequest_framed (hne : body ≠ []) (hsize : body.length ≤ sizeMax) :
    Framed enduringEnvironment Eq chunkedIppRequest (singleChunk body) body where
  unread := ⟨rfl,rfl,rfl,rfl,rfl⟩
  complete := by
    refine ⟨singleChunk body,[],⟨singleChunk body,rfl,rfl⟩,?_⟩
    have hall := dechunk_chunks (show ∀ data ∈ [body], data ≠ [] by simpa using hne)
      (by simpa using hsize) []
    rw [List.append_nil, List.flatten_singleton] at hall
    unfold decoding
    rw [if_pos (by rfl)]
    exact hall
  counted := hsize
  turns := Nat.lt_succ_of_le hsize
  contentType := ippRequest_contentType
  continued := nofun

end

/-- Nothing stands in the way of the upload, whatever the framing. -/
def passesEither (t : PrinterTarget) (body : Bytes) : Bool :=
  match wholeUpload t body with
  | some (e,up) => decide (e.attributesLength < requestPrefixMax) &&
      decide (up.rewritten.length ≤ int32Max)
  | none => false

theorem framingPasses_of_passesEither {t : PrinterTarget} {body : Bytes}
    (h : passesEither t body = true) : ∃ e up, wholeUpload t body = some (e,up) ∧
      ∀ chunked, FramingPasses chunked t e up := by
  unfold passesEither at h
  split at h
  · rename_i e up hupload
    simp only [Bool.and_eq_true, decide_eq_true_eq] at h
    refine ⟨e,up,hupload,fun chunked => ?_⟩
    cases chunked with
    | true => exact fun hfull => absurd hfull h.1.ne
    | false => exact .inr h.2
  · cases h

theorem pdfRequest_passesEither : passesEither pdfPrinter pdfRequest.encode = true := by
  decide +kernel

theorem pdfRequest_short : pdfRequest.encode ≠ [] ∧ pdfRequest.encode.length ≤ sizeMax := by
  decide +kernel

/-- The PDF with a length in front, and in a chunk. -/
theorem proxyHandler_framings_pdf :
    ((∃ q up c', Relays enduringEnvironment (some pdfPrinter)
          (ippRequest pdfRequest.encode.length,pdfRequest.encode) q up c') ↔
        ∃ q up c', Relays enduringEnvironment (some pdfPrinter)
          (chunkedIppRequest,singleChunk pdfRequest.encode) q up c') ∧
      ∃ served served', proxyHandler enduringEnvironment quietBeside (some pdfPrinter)
          (ippRequest pdfRequest.encode.length,pdfRequest.encode) (none,[]) .init = some served ∧
        proxyHandler enduringEnvironment quietBeside (some pdfPrinter)
          (chunkedIppRequest,singleChunk pdfRequest.encode) (none,[]) .init = some served' ∧
        ∀ message, attentiveWire.Received served.upstream message ↔
          attentiveWire.Received served'.upstream message := by
  obtain ⟨hne,hsize⟩ := pdfRequest_short
  obtain ⟨e,up,hupload,hpasses⟩ := framingPasses_of_passesEither pdfRequest_passesEither
  refine proxyHandler_framings enduring_serving (ippRequest_framed hsize)
    (chunkedIppRequest_framed hne hsize) (u := (none,[])) ⟨rfl,rfl⟩ (fun e' up' hupload' => ?_)
    quietBeside .init
  rw [hupload] at hupload'
  cases hupload'
  exact ⟨hpasses _,hpasses _⟩

/-- The PDF is relayed, and arrives as the message that its request stands for. -/
theorem proxyHandler_serves_pdf : ∃ served message,
    proxyHandler enduringEnvironment quietBeside (some pdfPrinter)
        (chunkedIppRequest,singleChunk pdfRequest.encode) (none,[]) .init = some served ∧
      relayedMessage pdfPrinter pdfRequest.encode = some message ∧
      attentiveWire.Received served.upstream message := by
  obtain ⟨hne,hsize⟩ := pdfRequest_short
  have hmessage : (relayedMessage pdfPrinter pdfRequest.encode).isSome = true := by decide +kernel
  obtain ⟨message,hmessage⟩ := Option.isSome_iff_exists.mp hmessage
  obtain ⟨e,up,hupload,hpasses⟩ := framingPasses_of_passesEither pdfRequest_passesEither
  obtain ⟨served,hserved,hreceived⟩ := proxyHandler_serves (chunkedIppRequest_framed hne hsize)
    enduring_serving (u := (none,[])) ⟨rfl,rfl⟩ pdfPrinter quietBeside .init
  exact ⟨served,message,hserved,hmessage,(hreceived message).mpr ⟨hmessage,e,up,hupload,hpasses _⟩⟩

/-! ### A document of two gigabytes -/

section
variable {t : PrinterTarget} {e : Envelope} {more : Bytes}

/-- With more of its document behind it a Print-Job stays what it is. -/
theorem stands_withMore (t : PrinterTarget) (hprint : e.inspect.operationId = Operation.printJob)
    (hdocument : e.document ≠ []) (more : Bytes) :
    Stands t (e.withDocument (e.document ++ more))
      ⟨e.inspect,t,e.encode,true,e.encode.length⟩ more where
  info := ⟨e.document,rfl⟩
  target := rfl
  body := by simp [Envelope.encode, Envelope.attributes, Envelope.withDocument]
  attributes := (congrArg List.length e.take_encode).ge.trans (List.length_take_le' _ _)
  length := nofun
  drained _ hother := by
    rw [withDocument_operationId, hprint] at hother
    cases hother
  peeked _ _ := by
    have hpos := List.length_pos_of_ne_nil hdocument
    have hlength : e.encode.length = e.attributesLength + e.document.length := by
      rw [Envelope.encode, List.length_append]
      rfl
    have hmore : (e.withDocument (e.document ++ more)).encode.length =
        e.attributesLength + (e.document.length + more.length) := by
      rw [Envelope.encode, List.length_append]
      change _ + (e.document ++ more).length = _
      rw [List.length_append]
      rfl
    change e.encode.length = e.attributesLength ↔ _ = e.attributesLength
    omega

/-- A document that is passed on and does not fit a length. -/
theorem wholeUpload_withMore (hprint : e.inspect.operationId = Operation.printJob)
    (hdocument : e.document ≠ []) (hlimit : e.attributesLength < requestPrefixMax)
    (hdirect : (wholeRequest t e).converting = false)
    (hprepared : (prepare unlimitedHeaps (wholeRequest t e)).toOption.isSome = true)
    (hmore : int32Max < more.length) :
    ∃ up, wholeUpload t (e.withDocument (e.document ++ more)).encode =
        some (e.withDocument (e.document ++ more),up) ∧
      FramingPasses true t (e.withDocument (e.document ++ more)) up ∧
      ¬ FramingPasses false t (e.withDocument (e.document ++ more)) up := by
  have hstands := stands_withMore t hprint hdocument more
  cases hprepare : prepare unlimitedHeaps (wholeRequest t e) with
  | error refusal =>
    rw [hprepare] at hprepared
    cases hprepared
  | ok up =>
    obtain ⟨hwhole,-⟩ := (hstands.prepare_iff unlimitedHeaps_grants).mp ⟨up.rewritten,rfl,hprepare⟩
    refine ⟨_,wholeUpload_eq_some.mpr ⟨decode_encode _,hlimit.le,hwhole⟩,?_,?_⟩
    · exact fun hfull => absurd hfull hlimit.ne
    · have hconverting : (wholeRequest t (e.withDocument (e.document ++ more))).converting =
          false := hstands.converting_eq.symm.trans hdirect
      unfold FramingPasses
      rw [if_neg Bool.false_ne_true, hconverting]
      rintro (hno | hlength)
      · cases hno
      · rw [List.length_append] at hlength
        omega

end

/-- A PDF of more than two gigabytes is relayed in a chunk, and refused with a length in front. -/
theorem proxyHandler_framings_long :
    let body := (pdfRequest.withDocument
      (pdfRequest.document ++ List.replicate 2147483648 (0 : UInt8))).encode
    Framed enduringEnvironment Eq (ippRequest body.length) body body ∧
      Framed enduringEnvironment Eq chunkedIppRequest (singleChunk body) body ∧
      (∃ q up c', Relays enduringEnvironment (some pdfPrinter)
        (chunkedIppRequest,singleChunk body) q up c') ∧
      ¬ ∃ q up c', Relays enduringEnvironment (some pdfPrinter)
        (ippRequest body.length,body) q up c' := by
  intro body
  have hshort : pdfRequest.encode.length ≤ 65536 := by decide +kernel
  have hlength : body.length = pdfRequest.encode.length + 2147483648 := by
    have hbody : body = pdfRequest.encode ++ List.replicate 2147483648 (0 : UInt8) := by
      simp only [body, Envelope.encode, Envelope.attributes, Envelope.withDocument,
        List.append_assoc]
    rw [hbody, List.length_append, List.length_replicate]
  have hsize : body.length ≤ sizeMax := by
    change body.length ≤ 4294967295
    omega
  have hne : body ≠ [] := List.ne_nil_of_length_pos (by omega)
  have hfixed := ippRequest_framed hsize
  have hchunked := chunkedIppRequest_framed hne hsize
  obtain ⟨up,hupload,hpasses,hrefuses⟩ := wholeUpload_withMore (t := pdfPrinter) (e := pdfRequest)
    (by decide +kernel) (by decide +kernel)
    (by decide +kernel) (by decide +kernel) (by decide +kernel)
    (show int32Max < (List.replicate 2147483648 (0 : UInt8)).length by
      rw [List.length_replicate]; decide)
  refine ⟨hfixed,hchunked,?_,?_⟩
  · exact (hchunked.relays_iff enduring_serving).mpr ⟨_,up,hupload,hpasses⟩
  · rw [hfixed.relays_iff enduring_serving]
    rintro ⟨e',up',hupload',hpasses'⟩
    rw [hupload] at hupload'
    cases hupload'
    exact hrefuses hpasses'

end Espresso.Proxy
