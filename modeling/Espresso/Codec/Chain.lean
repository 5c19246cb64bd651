import Espresso.Codec.Agreement
import Espresso.Codec.Attributes
import Espresso.Codec.Probed

/-! Calls of the codec one after another. Each gives a message that the next accepts, and moves no
value from one attribute to another. -/
namespace Espresso.Codec

/-- The calls that give a message for a message. -/
inductive CodecCall where
  | rewrite (printerUri authority : Bytes)
  | rewriteRequest (printerUri authority : Bytes) (t : PrinterTarget)
    (upstreamDocumentFormat : Option Bytes)
  | filterResponse (kind : ResponseKind) (requestedAttributes : Bytes)
  | normalizePrinterResponse (printerUri authority localUuid : Bytes) (t : PrinterTarget)
    (inputs : List Bytes) (probed : Probed inputs t)

/-- What a response below 0x0400 is normalised with. -/
def normalizedAttributes (hundredths : Bytes → ℕ → Option ℕ)
    (printerUri authority localUuid : Bytes) (t : PrinterTarget) (e : Envelope) : List Attribute :=
  e.attributeBlocks.filterMap (editAttribute (replaces true) (rewrittenValue printerUri authority)) ++
    addedAttributes hundredths e.presence (cstr printerUri) (cstr localUuid) t

namespace CodecCall
variable (hundredths : Bytes → ℕ → Option ℕ)

def run (mem mem' : Memory) (input : Bytes) : CodecCall → Except CodecError Bytes
  | rewrite printerUri authority =>
    (ippCodecRewrite mem input printerUri authority).map Prod.fst
  | rewriteRequest printerUri authority t upstreamDocumentFormat =>
    match ippCodecRewriteRequestForFormatDiagnostic (n := 0) mem mem' input printerUri authority t
      upstreamDocumentFormat with
    | .error r => .error r.error
    | .ok (out,_) => .ok out
  | filterResponse kind requestedAttributes =>
    (ippCodecFilterResponse mem kind requestedAttributes input).map Prod.fst
  | normalizePrinterResponse printerUri authority localUuid t _ _ =>
    (ippCodecNormalizePrinterResponse hundredths mem input printerUri authority localUuid t).map
      Prod.fst

/-- The attributes of the message that is returned for an envelope: whole attributes of the
envelope, each with all its values or not at all, and whole attributes that are added. -/
def attributes (e : Envelope) : CodecCall → List Attribute
  | rewrite printerUri authority =>
    e.attributeBlocks.filterMap (editAttribute (replaces false) (rewrittenValue printerUri authority))
  | rewriteRequest printerUri authority t upstreamDocumentFormat =>
    (e.attributeBlocks.filterMap
      (editAttribute (replaces false) (rewrittenValue printerUri authority))).filterMap
        (facadeAttribute t upstreamDocumentFormat)
  | filterResponse kind requestedAttributes =>
    e.attributeBlocks.filterMap
      (editAttribute (filtersOut kind requestedAttributes) fun _ _ value => value)
  | normalizePrinterResponse printerUri authority localUuid t _ _ =>
    if 0x0400 ≤ ippCodecMessageCode e.encode then
      e.attributeBlocks.filterMap
        (editAttribute (replaces false) (rewrittenValue printerUri authority))
    else normalizedAttributes hundredths printerUri authority localUuid t e

/-- A request with a job attribute that the printer cannot be asked for. -/
def Refused (input : Bytes) : CodecCall → Prop
  | rewriteRequest _ _ t _ =>
    ∃ e, decode input = .ok e ∧ ∃ r ∈ e.records, isRefused t r = true
  | _ => False

/-- Memory is refused, or something does not fit its length field. -/
def OutOfMemory (mem mem' : Memory) (input : Bytes) : CodecCall → Prop
  | rewrite printerUri authority => mem.Refuses ∨ LongUri printerUri authority input
  | rewriteRequest printerUri authority _ upstreamDocumentFormat =>
    Codec.OutOfMemory mem mem' input printerUri authority upstreamDocumentFormat
  | filterResponse _ _ => mem.Refuses
  | normalizePrinterResponse printerUri authority localUuid t _ _ =>
    mem.Refuses ∨ LongUri printerUri authority input ∨
      LongInserted hundredths printerUri (some ⟨localUuid,t⟩)

variable {hundredths} {mem mem' : Memory} {input out : Bytes}

theorem map_fst_ok {x : Except CodecError (Bytes × ℕ)} (h : x.map Prod.fst = .ok out) :
    ∃ k, x = .ok (out,k) := by
  cases x with
  | error f => cases h
  | ok r => cases h; exact ⟨r.2,rfl⟩

theorem map_fst_error {x : Except CodecError (Bytes × ℕ)} {f : CodecError}
    (h : x.map Prod.fst = .error f) : x = .error f := by
  cases x with
  | error f' => cases h; rfl
  | ok r => cases h

theorem rewrite_attributes {printerUri authority : Bytes} {k : ℕ}
    (h : ippCodecRewrite mem input printerUri authority = .ok (out,k)) :
    ∃ e e', decode input = .ok e ∧ decode out = .ok e' ∧ e'.attributeBlocks =
      e.attributeBlocks.filterMap
        (editAttribute (replaces false) (rewrittenValue printerUri authority)) := by
  obtain ⟨e,e',he,he',-,-,-,hitems⟩ := ippCodecRewrite_items printerUri authority h
  exact ⟨e,e',he,he',attributes_editItems _ _ hitems⟩

theorem normalize_attributes {printerUri authority localUuid : Bytes} {t : PrinterTarget} {k : ℕ}
    (h : ippCodecNormalizePrinterResponse hundredths mem input printerUri authority localUuid t =
      .ok (out,k)) (hstatus : ippCodecMessageCode input < 0x0400)
    (horphan : orphanResolution t = []) :
    ∃ e e', decode input = .ok e ∧ decode out = .ok e' ∧
      e'.attributeBlocks = normalizedAttributes hundredths printerUri authority localUuid t e := by
  obtain ⟨e,e',he,he',-,-,hitems⟩ := normalize_items h hstatus
  have hedit := splitItems_editItems (replaces true) (rewrittenValue printerUri authority) 0 []
    e.items
  rw [cstr_nil] at hedit
  have hadded := @splitItems_synthesized hundredths e.presence (cstr printerUri) (cstr localUuid) t
    horphan (groupAfter 0 e.items)
  refine ⟨e,e',he,he',?_⟩
  rw [Envelope.attributeBlocks, hitems, splitItems_append (by rw [groupAfter_editItems, hadded]),
    groupAfter_editItems, hadded, Split.close_append, hedit, Split.close_edit]
  rfl

/-- What one call makes of a message. -/
theorem run_ok {call : CodecCall} (h : call.run hundredths mem mem' input = .ok out) :
    ∃ e e', decode input = .ok e ∧ decode out = .ok e' ∧
      e'.attributeBlocks = call.attributes hundredths e := by
  cases call with
  | rewrite printerUri authority =>
    obtain ⟨k,hcall⟩ := map_fst_ok h
    exact rewrite_attributes hcall
  | rewriteRequest printerUri authority t upstreamDocumentFormat =>
    simp only [run] at h
    split at h
    · cases h
    rename_i k hcall
    cases h
    unfold ippCodecRewriteRequestForFormatDiagnostic at hcall
    split at hcall
    · cases hcall
    rename_i rewritten k' hrewrite
    obtain ⟨e,m,he,hm,hfirst⟩ := rewrite_attributes hrewrite
    obtain ⟨m',e',hm',he',-,-,-,hitems,-⟩ := normalizeFacadeJobDefaults_items hcall
    rw [hm] at hm'
    cases hm'
    refine ⟨e,e',he,he',?_⟩
    rw [attributes_facadeItems hitems, hfirst]
    rfl
  | filterResponse kind requestedAttributes =>
    obtain ⟨k,hcall⟩ := map_fst_ok h
    obtain ⟨e,e',he,he',-,-,-,hitems⟩ := ippCodecFilterResponse_items hcall
    exact ⟨e,e',he,he',attributes_editItems _ _ hitems⟩
  | normalizePrinterResponse printerUri authority localUuid t inputs probed =>
    obtain ⟨k,hcall⟩ := map_fst_ok h
    by_cases hstatus : 0x0400 ≤ ippCodecMessageCode input
    · -- an error response is only rewritten
      have hrewrite := hcall
      rw [ippCodecNormalizePrinterResponse, if_pos hstatus] at hrewrite
      obtain ⟨e,e',he,he',hattributes⟩ := rewrite_attributes hrewrite
      refine ⟨e,e',he,he',?_⟩
      rw [attributes, encode_of_decode he, if_pos hstatus, hattributes]
    · obtain ⟨e,e',he,he',hattributes⟩ := normalize_attributes hcall (by omega)
        (orphanResolution_eq_nil probed.resolutions)
      refine ⟨e,e',he,he',?_⟩
      rw [attributes, encode_of_decode he, if_neg hstatus, hattributes]

/-- A call on a message that is accepted fails for want of memory or on a refused attribute. -/
theorem run_error {call : CodecCall} {e : Envelope} (he : decode input = .ok e) {f : CodecError}
    (h : call.run hundredths mem mem' input = .error f) :
    (f = .noMemory ∧ call.OutOfMemory hundredths mem mem' input) ∨
      (f = .unsupported ∧ call.Refused input) := by
  cases call with
  | rewrite printerUri authority =>
    rcases ippCodecRewrite_error printerUri authority (map_fst_error h) with h | h
    · exact .inl h
    · rw [he] at h
      cases h
  | rewriteRequest printerUri authority t upstreamDocumentFormat =>
    simp only [run] at h
    split at h
    · rename_i hcall
      cases h
      rcases rewriteRequest_error he hcall with ⟨rfl,hmem⟩ | ⟨q,hq,rfl⟩
      · exact .inl ⟨rfl,hmem⟩
      · exact .inr ⟨rfl,e,he,q,List.mem_of_find?_eq_some hq,List.find?_some hq⟩
    · cases h
  | filterResponse kind requestedAttributes =>
    rcases ippCodecFilterResponse_error (map_fst_error h) with h | h
    · exact .inl h
    · rw [he] at h
      cases h
  | normalizePrinterResponse printerUri authority localUuid t inputs probed =>
    have hcall := map_fst_error h
    unfold ippCodecNormalizePrinterResponse at hcall
    split at hcall
    · rcases ippCodecRewrite_error printerUri authority hcall with ⟨rfl,h | h⟩ | h
      · exact .inl ⟨rfl,.inl h⟩
      · exact .inl ⟨rfl,.inr (.inl h)⟩
      · rw [he] at h
        cases h
    · rcases transformMessage_error hcall with h | h
      · exact .inl h
      · rw [he] at h
        cases h

end CodecCall

/-! ### Chains -/

/-- A call with the memory it meets. -/
structure CodecStep where
  call : CodecCall
  mem : Memory
  mem' : Memory

/-- Each call is given what the one before returned; the first error ends the chain. -/
def codecChain (hundredths : Bytes → ℕ → Option ℕ) : List CodecStep → Bytes → Except CodecError Bytes
  | [], input => .ok input
  | s :: steps, input =>
    match s.call.run hundredths s.mem s.mem' input with
    | .error f => .error f
    | .ok out => codecChain hundredths steps out

/-- The step at which a chain ends early, with the message it was given. -/
def Stops (hundredths : Bytes → ℕ → Option ℕ) (steps : List CodecStep) (input : Bytes)
    (f : CodecError) : Prop :=
  ∃ done s rest m, steps = done ++ s :: rest ∧ codecChain hundredths done input = .ok m ∧
    ((f = .noMemory ∧ s.call.OutOfMemory hundredths s.mem s.mem' m) ∨
      (f = .unsupported ∧ s.call.Refused m))

section
variable {hundredths : Bytes → ℕ → Option ℕ} {input out : Bytes}

theorem codecChain_ok {steps : List CodecStep} {e : Envelope} (he : decode input = .ok e)
    (h : codecChain hundredths steps input = .ok out) : ∃ e', decode out = .ok e' := by
  induction steps generalizing input e with
  | nil => cases h; exact ⟨e,he⟩
  | cons s steps ih =>
    simp only [codecChain] at h
    split at h
    · cases h
    rename_i m hm
    obtain ⟨-,e1,-,he1,-⟩ := CodecCall.run_ok hm
    exact ih he1 h

theorem codecChain_error {steps : List CodecStep} {e : Envelope} (he : decode input = .ok e)
    {f : CodecError} (h : codecChain hundredths steps input = .error f) :
    Stops hundredths steps input f := by
  induction steps generalizing input e with
  | nil => cases h
  | cons s steps ih =>
    simp only [codecChain] at h
    split at h
    · rename_i hs
      cases h
      exact ⟨[],s,steps,input,rfl,rfl,CodecCall.run_error he hs⟩
    rename_i m hm
    obtain ⟨-,e1,-,he1,-⟩ := CodecCall.run_ok hm
    obtain ⟨done,s',rest,m',rfl,hdone,hcause⟩ := ih he1 h
    refine ⟨s :: done,s',rest,m',rfl,?_,hcause⟩
    rw [codecChain, hm]
    exact hdone

/-- What a call of the codec returns is a message again, made of whole attributes. Any calls after
it succeed but for memory, and for a request with a job attribute that the printer of the call
cannot be asked for. -/
theorem codec_calls_compose {mem mem' : Memory} {call : CodecCall}
    (h : call.run hundredths mem mem' input = .ok out) :
    (∃ info, ippCodecInspectRequest out = .ok info) ∧
    (∃ e e', decode input = .ok e ∧ decode out = .ok e' ∧
      e'.attributeBlocks = call.attributes hundredths e) ∧
    ∀ steps, (∃ last info, codecChain hundredths steps out = .ok last ∧
        ippCodecInspectRequest last = .ok info) ∨
      ∃ f, codecChain hundredths steps out = .error f ∧ Stops hundredths steps out f := by
  obtain ⟨e,e',he,he',hattributes⟩ := CodecCall.run_ok h
  refine ⟨⟨e'.inspect,inspect_ok_iff.mpr ⟨e',he',rfl⟩⟩,⟨e,e',he,he',hattributes⟩,?_⟩
  intro steps
  cases hsteps : codecChain hundredths steps out with
  | error f => exact .inr ⟨f,rfl,codecChain_error he' hsteps⟩
  | ok last =>
    obtain ⟨e1,he1⟩ := codecChain_ok he' hsteps
    exact .inl ⟨last,e1.inspect,rfl,inspect_ok_iff.mpr ⟨e1,he1,rfl⟩⟩

end

/-- A request for both sides of the paper. -/
def duplexRequest : Envelope where
  header := [2,0,0,2,0,0,0,1]
  items := [.group Tag.operationAttributes,
    named Tag.uri "printer-uri" (octets "ipp://espresso.local/ipp/print"),
    .group Tag.jobAttributes,
    named Tag.keyword "sides" (octets "two-sided-long-edge")]
  document := []
  header_length := literalHeader_length
  items_ok := by decide +kernel

/-- The same request for another endpoint. -/
def duplexRelayed : Envelope where
  header := [2,0,0,2,0,0,0,1]
  items := [.group Tag.operationAttributes,
    named Tag.uri "printer-uri" (octets "ipp://printer/ipp"),
    .group Tag.jobAttributes,
    named Tag.keyword "sides" (octets "two-sided-long-edge")]
  document := []
  header_length := literalHeader_length
  items_ok := by decide +kernel

def duplexRewrite : CodecCall := .rewrite (octets "ipp://printer/ipp") (octets "ipp://printer")

theorem duplexRewrite_run : duplexRewrite.run (fun _ _ => none) Memory.unlimited Memory.unlimited
    duplexRequest.encode = .ok duplexRelayed.encode := by
  decide +kernel

/-- With all the memory it wants, a chain ends at a request that the printer cannot be asked for. -/
theorem codec_chain_refused :
    duplexRewrite.run (fun _ _ => none) Memory.unlimited Memory.unlimited duplexRequest.encode =
      .ok duplexRelayed.encode ∧
    codecChain (fun _ _ => none)
        [⟨.rewriteRequest (octets "ipp://printer/ipp") (octets "ipp://printer") .zero none,
          Memory.unlimited,Memory.unlimited⟩] duplexRelayed.encode =
      .error .unsupported := by
  exact ⟨duplexRewrite_run,by decide +kernel⟩

theorem codec_calls_compose_duplex :
    duplexRewrite.run (fun _ _ => none) Memory.unlimited Memory.unlimited duplexRequest.encode =
      .ok duplexRelayed.encode ∧
    ∃ info, ippCodecInspectRequest duplexRelayed.encode = .ok info :=
  ⟨duplexRewrite_run,(codec_calls_compose duplexRewrite_run).1⟩

end Espresso.Codec
