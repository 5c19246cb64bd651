import Espresso.Proxy.Framing

/-! A PWG Raster job from one end to the other: what the printer receives is an Apple Raster job, or
nothing that it could take for one. -/
namespace Espresso.Proxy
open Callback Codec Http Jobs Raster

/-- The attributes in front of the rewritten document. -/
theorem upstreamEnvelope_take {heap : Heaps} {q : Relayed} {endpoint : TransportEndpoint}
    {e : Envelope} {rewritten : Bytes} {k : ℕ} (hquery : q.queriesPrinter = false)
    (hdecode : decode q.received = .ok e)
    (h : upstreamEnvelope heap q endpoint = .ok (rewritten,k)) :
    rewritten.take k = setVersion q.plan.upstreamMajor q.plan.upstreamMinor
      (relayedEnvelope endpoint.printerUri.val endpoint.authority.val q.target
        q.plan.upstreamDocumentFormat e) := by
  unfold upstreamEnvelope at h
  simp only [hquery, Bool.not_false, if_true] at h
  split at h
  · rename_i out k' hrewrite
    cases h
    obtain ⟨e1,he1,rfl⟩ := rewriteRequest_message hrewrite
    obtain ⟨e2,e3,he2,he3,rfl,-,hdocument,-⟩ := rewriteRequest_ok hrewrite
    rw [hdecode] at he1 he2
    cases he1
    cases he2
    have hlength := congrArg List.length (encode_of_decode he3)
    rw [Envelope.encode, List.length_append, List.length_append, hdocument] at hlength
    have hsame : e3.attributesLength = (setVersion q.plan.upstreamMajor q.plan.upstreamMinor
        (relayedEnvelope endpoint.printerUri.val endpoint.authority.val q.target
          q.plan.upstreamDocumentFormat e)).length := by
      have hheader : e.header.length = 8 := e.header_length
      have htwo : 2 ≤ (relayedEnvelope endpoint.printerUri.val endpoint.authority.val q.target
          q.plan.upstreamDocumentFormat e).length := by
        rw [relayedEnvelope, List.length_append, hheader]
        omega
      rw [setVersion, List.length_append, List.length_drop]
      change e3.attributes.length = 2 + _
      omega
    rw [setVersion_relayedEnvelope, hsame, List.take_left]
  · split at h <;> cases h

section
variable {σ υ : Type} {env : Environment σ υ} {R : σ → Bytes → Prop} {w : Wire υ} {r : Request}
  {s : σ} {body : Bytes} {t : PrinterTarget} {e : Envelope} {up : Upload}

/-- The attributes of a job that is converted: the printer's document format is Apple Raster. -/
def convertedAttributes (t : PrinterTarget) (e : Envelope) (endpoint : TransportEndpoint) : Bytes :=
  setVersion (wholeRequest t e).plan.upstreamMajor (wholeRequest t e).plan.upstreamMinor
    (relayedEnvelope endpoint.printerUri.val endpoint.authority.val t (some (octets "image/urf")) e)

theorem convertsDocument_of_converting (hconverting : (wholeRequest t e).converting = true) :
    (wholeRequest t e).plan.upstreamDocumentFormat = some (octets "image/urf") := by
  have htransform := of_decide_eq_true (Bool.and_eq_true_iff.mp hconverting).1
  rw [Relayed.plan, plan_upstreamDocumentFormat]
  rw [Relayed.plan, plan_documentTransform] at htransform
  split at htransform
  · rename_i hconverts
    exact if_pos hconverts
  · cases htransform

/-- The message of a job that is converted. -/
theorem relayedMessage_converting (hupload : wholeUpload t body = some (e,up))
    (hconverting : (wholeRequest t e).converting = true) (message : Bytes) :
    relayedMessage t body = some message ↔ ∃ p ps, e.document = pwgDocument p ps ∧
      CountMatches p.totalPageCount (ps.length + 1) ∧
      message = convertedAttributes t e up.endpoint ++ urfDocument p ps := by
  obtain ⟨-,-,hprepared⟩ := wholeUpload_eq_some.mp hupload
  obtain ⟨-,-,henvelope,-⟩ := prepare_eq_ok_iff.mp hprepared
  have hquery := not_queriesPrinter_of_document (Bool.and_eq_true_iff.mp hconverting).2
  have htake : up.rewritten.take up.attributesLength = convertedAttributes t e up.endpoint := by
    rw [upstreamEnvelope_take hquery (decode_encode e) henvelope,
      convertsDocument_of_converting hconverting]
    rfl
  rw [relayedMessage, hupload]
  simp only
  rw [if_pos hconverting, Option.map_eq_some_iff, htake]
  constructor
  · rintro ⟨out,hout,rfl⟩
    obtain ⟨p,ps,hdocument,hcount,rfl⟩ := convertedDocument_eq_some.mp hout
    exact ⟨p,ps,hdocument,hcount,rfl⟩
  · rintro ⟨p,ps,hdocument,hcount,rfl⟩
    exact ⟨_,convertedDocument_eq_some.mpr ⟨p,ps,hdocument,hcount,rfl⟩,rfl⟩

end

/-! ### One grey pixel -/

def urfPrinter : PrinterTarget :=
  { pdfPrinter with pdl := .copy 256 (octets "image/urf") }

def greyRequest : Envelope where
  header := [2,0,0,2,0,0,0,1]
  items := printJobItems ["image/pwg-raster"]
  document := pwgDocument greyPage []
  header_length := literalHeader_length
  items_ok := pwgRequest.items_ok

end Espresso.Proxy
