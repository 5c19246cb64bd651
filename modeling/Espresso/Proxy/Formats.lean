import Espresso.Proxy.Plan
import Espresso.Codec.Summary
import Espresso.Codec.Agreement
import Espresso.Codec.Response

/-! Document formats on their way through the bridge: what the printer is sent for a request that
the policy lets pass. -/
namespace Espresso.Proxy

open Codec

/-! ### The formats that reach the printer -/

section
variable {printerUri authority : Bytes} {t : PrinterTarget} {upstreamDocumentFormat : Option Bytes}

theorem isConsumed_operation (t : PrinterTarget) (name : Bytes) :
    isConsumed t Tag.operationAttributes name = false := rfl

/-- Both passes keep the operation attributes; the second may put one format in place of every
value of `document-format`. -/
theorem relayedRecord_of_documentFormat {r : Record} (h : r.isDocumentFormat = true) :
    relayedRecord printerUri authority t upstreamDocumentFormat r =
      some { r with value := (upstreamDocumentFormat.map cstr).getD r.value } := by
  obtain ⟨group,name,tag,value⟩ := r
  obtain ⟨rfl,hname,rfl⟩ := Record.isDocumentFormat_iff.mp h
  have hrewrite : rewriteRecord printerUri authority
      ⟨Tag.operationAttributes,name,Tag.mimeType,value⟩ =
      ⟨Tag.operationAttributes,name,Tag.mimeType,value⟩ := rfl
  have hkeep : facadeName t Tag.operationAttributes name = name :=
    if_neg fun h => absurd h.1 (by decide)
  rw [relayedRecord, hrewrite, facadeRecord, if_neg (by rw [isConsumed_operation]; simp), hname, hkeep]
  cases upstreamDocumentFormat with
  | none => rfl
  | some format => simp [outputValue]

theorem isDocumentFormat_of_relayed {r q : Record}
    (h : relayedRecord printerUri authority t upstreamDocumentFormat r = some q)
    (hq : q.isDocumentFormat = true) : r.isDocumentFormat = true := by
  obtain ⟨-,hgroup,hname⟩ := relayedRecord_eq_some h
  have htag : q.tag = r.tag := by
    simp only [relayedRecord, facadeRecord] at h
    split at h
    · cases h
    · cases h
      rfl
  rw [Record.isDocumentFormat_iff, Record.attributeName, hgroup, hname, htag] at hq
  obtain ⟨hg,hn,ht⟩ := hq
  have hkeep : facadeName t r.group r.name = r.name :=
    if_neg fun h => absurd (hg.symm.trans h.1) (by decide)
  rw [hkeep] at hn
  exact Record.isDocumentFormat_iff.mpr ⟨hg,hn,ht⟩

/-- The formats of the relayed envelope. -/
theorem relayed_documentFormats {e e' : Envelope} (hr : e'.records = e.records.filterMap
    (relayedRecord printerUri authority t upstreamDocumentFormat)) :
    e'.documentFormats =
      e.documentFormats.map fun v => (upstreamDocumentFormat.map cstr).getD v := by
  rw [Envelope.documentFormats, Envelope.documentFormats, hr]
  generalize e.records = rs
  induction rs with
  | nil => rfl
  | cons r rs ih =>
    by_cases hf : r.isDocumentFormat = true
    · have hkept : Record.isDocumentFormat
          { r with value := (upstreamDocumentFormat.map cstr).getD r.value } = true := hf
      rw [List.filterMap_cons_some (relayedRecord_of_documentFormat hf),
        List.filter_cons_of_pos hf, List.filter_cons_of_pos hkept, List.map_cons, List.map_cons,
        List.map_cons, ih]
    · rw [List.filter_cons_of_neg hf]
      cases hq : relayedRecord printerUri authority t upstreamDocumentFormat r with
      | none => rw [List.filterMap_cons_none hq, ih]
      | some q =>
        rw [List.filterMap_cons_some hq,
          List.filter_cons_of_neg (fun h => hf (isDocumentFormat_of_relayed hq h)), ih]

end

/-! ### The check and what passes it -/

section
variable {t : PrinterTarget} {e : Envelope}

/-- The document is converted: as far as the 64-octet copy shows, the last format is PWG Raster,
and the printer takes URF. -/
def Converted (t : PrinterTarget) (formats : List Bytes) : Prop :=
  (∃ v, formats.getLast? = some v ∧
    equalSpan (cstr (v.take 63)) (octets "image/pwg-raster") = true) ∧
  Listed t.pdl.val (octets "image/urf")

/-- The check covers every format that is relayed: the document is converted, or the values before
the last one are listed anyway and the last one is either listed or no other than its copy. -/
def FormatsCovered (t : PrinterTarget) (formats : List Bytes) : Prop :=
  Converted t formats ∨
    (∀ v ∈ formats.dropLast, Listed t.pdl.val v) ∧
    ∀ v, formats.getLast? = some v →
      v ≠ [] ∧ 0 ∉ v ∧ v.length ≤ 63 ∨ Listed t.pdl.val v

theorem strcasecmp_text {n : ℕ} (text : Text n) {s : Bytes} (hs : 0 ∉ s) :
    strcasecmp text.val s = true ↔ equalSpan text.val s = true := by
  rw [strcasecmp, decide_eq_true_iff, equalSpan_iff, cstr_eq_self text.property.1, cstr_eq_self hs]

theorem convertsDocument_iff :
    convertsDocument e.inspect t = true ↔ Converted t e.documentFormats := by
  rw [convertsDocument, Bool.and_eq_true, ippCodecFormatSupported_iff,
    strcasecmp_text _ (by decide +kernel), e.inspect_documentFormat, Converted]
  apply and_congr_left'
  cases hlast : e.documentFormats.getLast? with
  | none => simpa using by decide +kernel
  | some v =>
    constructor
    · intro h; exact ⟨v,rfl,h⟩
    · rintro ⟨w,hw,h⟩; cases hw; exact h

/-- A relayed request passed the check on the copy, which sees the last format only. -/
theorem checkedFormat_of_relay {contentLength : ℕ}
    (hplan : (ippProxyPlanRequest e.inspect t contentLength).action = .relay)
    (hop : formatMustBeRelayable e.inspect = true)
    (hconvert : ¬ Converted t e.documentFormats) {v : Bytes}
    (hlast : e.documentFormats.getLast? = some v) (hne : v ≠ []) (h0 : 0 ∉ v)
    (hlen : v.length ≤ 63) : Listed t.pdl.val v := by
  have hcopy : e.inspect.documentFormat.val = v := by
    rw [e.inspect_documentFormat, hlast]
    exact Text.copy_val h0 hlen
  have hpass := plan_relay_format hplan
  rw [← convertsDocument_iff, Bool.not_eq_true] at hconvert
  rw [formatRefused, hop, hconvert, hcopy] at hpass
  rw [← ippCodecFormatSupported_iff]
  simpa [hne] using hpass

/-- Every format that reaches the printer is one it lists exactly when the check covered them. The
policy only sees a 64-octet copy of the last value, while the request is relayed with all of
them. -/
theorem relayed_formats_listed_iff {n : ℕ} {mem mem' : Memory}
    {m printerUri authority out : Bytes} {t : PrinterTarget} {info : RequestInfo}
    {contentLength k : ℕ} (hinspect : ippCodecInspectRequest m = .ok info)
    (hplan : (ippProxyPlanRequest info t contentLength).action = .relay)
    (hop : info.operationId = Operation.printJob ∨ info.operationId = Operation.validateJob ∨
      info.operationId = Operation.createJob ∨ info.operationId = Operation.sendDocument)
    (hrewrite : ippCodecRewriteRequestForFormatDiagnostic (n := n) mem mem' m printerUri authority t
      (ippProxyPlanRequest info t contentLength).upstreamDocumentFormat = .ok (out,k)) :
    ∃ e e', decode m = .ok e ∧ decode out = .ok e' ∧
      ((∀ v ∈ e'.documentFormats, Listed t.pdl.val v) ↔ FormatsCovered t e.documentFormats) := by
  obtain ⟨e,e',he,he',-,-,-,hr,-⟩ := rewriteRequest_ok hrewrite
  obtain ⟨e1,he1,rfl⟩ := inspect_ok_iff.mp hinspect
  rw [he] at he1
  cases he1
  refine ⟨e,e',he,he',?_⟩
  have hmust : formatMustBeRelayable e.inspect = true := by
    simpa [formatMustBeRelayable, or_assoc] using hop
  rw [plan_upstreamDocumentFormat] at hr
  rw [relayed_documentFormats hr]
  by_cases hconvert : Converted t e.documentFormats
  · -- one listed format goes out in place of all
    rw [if_pos (convertsDocument_iff.mpr hconvert)]
    refine iff_of_true ?_ (.inl hconvert)
    intro v hv
    obtain ⟨w,-,rfl⟩ := List.mem_map.mp hv
    have hurf : cstr (octets "image/urf") = octets "image/urf" := cstr_eq_self (by decide +kernel)
    simpa [hurf] using hconvert.2
  rw [if_neg (fun h => hconvert (convertsDocument_iff.mp h))]
  simp only [Option.map_none, Option.getD_none, List.map_id']
  constructor
  · intro hall
    refine .inr ⟨fun v hv => hall v (List.mem_of_mem_dropLast hv),fun v hv => .inr ?_⟩
    exact hall v (List.mem_of_getLast? hv)
  · rintro (h | ⟨hearlier,hlast⟩) v hv
    · exact absurd h hconvert
    rcases List.eq_nil_or_concat e.documentFormats with hnil | ⟨before,last,hsplit⟩
    · rw [hnil] at hv
      cases hv
    · have hlast' : e.documentFormats.getLast? = some last := by simp [hsplit]
      rw [hsplit, List.concat_eq_append, List.mem_append, List.mem_singleton] at hv
      rcases hv with hv | rfl
      · exact hearlier v (by simpa [hsplit] using hv)
      · rcases hlast v hlast' with ⟨hne,h0,hlen⟩ | h
        · exact checkedFormat_of_relay hplan hmust hconvert hlast' hne h0 hlen
        · exact h

end

/-- A Print-Job request for documents of the given formats. -/
def printJobItems (formats : List String) : List Item :=
  .group Tag.operationAttributes :: attributeList
    [("attributes-charset",[str Tag.charset "utf-8"]),
     ("attributes-natural-language",[str Tag.language "en"]),
     ("printer-uri",[str Tag.uri "ipp://printer/ipp/print"]),
     ("document-format",formats.map (str Tag.mimeType))]

/-- A printer that takes PDF documents. -/
def pdfTarget : PrinterTarget :=
  { PrinterTarget.zero with
    pdl := .copy 256 (octets "application/pdf")
    operationsSupported := 1 <<< Operation.printJob }

def twoFormatsRequest : Envelope where
  header := [2,0,0,2,0,0,0,1]
  items := printJobItems ["text/x-unknown","application/pdf"]
  document := [0x25]
  header_length := literalHeader_length
  items_ok := by decide +kernel

def pdfRequest : Envelope where
  header := [2,0,0,2,0,0,0,1]
  items := printJobItems ["application/pdf"]
  document := [0x25]
  header_length := literalHeader_length
  items_ok := by decide +kernel

/-- A format that the printer does not list goes through in front of one that it does. -/
theorem relayed_format_not_listed :
    ippCodecInspectRequest twoFormatsRequest.encode = .ok twoFormatsRequest.inspect ∧
    (ippProxyPlanRequest twoFormatsRequest.inspect pdfTarget
      twoFormatsRequest.encode.length).action = .relay ∧
    twoFormatsRequest.inspect.operationId = Operation.printJob ∧
    ippCodecRewriteRequestForFormatDiagnostic (n := 64) .unlimited .unlimited
      twoFormatsRequest.encode (octets "ipp://printer/ipp/print") (octets "ipp://printer") pdfTarget
      (ippProxyPlanRequest twoFormatsRequest.inspect pdfTarget
        twoFormatsRequest.encode.length).upstreamDocumentFormat =
      .ok (twoFormatsRequest.encode,twoFormatsRequest.attributesLength) ∧
    ∃ v ∈ twoFormatsRequest.documentFormats, ¬ Listed pdfTarget.pdl.val v := by
  refine ⟨?_,?_,?_,?_,octets "text/x-unknown",?_,?_⟩
  · decide +kernel
  · decide +kernel
  · decide +kernel
  · decide +kernel
  · decide +kernel
  · decide +kernel

theorem relayed_formats_listed_pdf :
    ∃ e e', decode pdfRequest.encode = .ok e ∧ decode pdfRequest.encode = .ok e' ∧
      ((∀ v ∈ e'.documentFormats, Listed pdfTarget.pdl.val v) ↔
        FormatsCovered pdfTarget e.documentFormats) :=
  relayed_formats_listed_iff
    (show ippCodecInspectRequest pdfRequest.encode = .ok pdfRequest.inspect by decide +kernel)
    (show (ippProxyPlanRequest pdfRequest.inspect pdfTarget pdfRequest.encode.length).action =
      .relay by decide +kernel)
    (.inl (by decide +kernel))
    (show ippCodecRewriteRequestForFormatDiagnostic (n := 64) .unlimited .unlimited
        pdfRequest.encode (octets "ipp://printer/ipp/print") (octets "ipp://printer") pdfTarget
        (ippProxyPlanRequest pdfRequest.inspect pdfTarget
          pdfRequest.encode.length).upstreamDocumentFormat =
      .ok (pdfRequest.encode,pdfRequest.attributesLength) by decide +kernel)

/-! ### What is passed through -/

/-- The document goes to the printer as it is: the plan neither converts it nor names another
format, and the rewriter keeps the document and its formats. -/
structure PassedThrough (request : RequestInfo) (t : PrinterTarget) (contentLength : ℕ) : Prop where
  transform : (ippProxyPlanRequest request t contentLength).documentTransform = .passthrough
  override : (ippProxyPlanRequest request t contentLength).upstreamDocumentFormat = none
  relayed : ∀ {n : ℕ} {mem mem' : Memory} {m printerUri authority out : Bytes} {k : ℕ},
    ippCodecInspectRequest m = .ok request →
    ippCodecRewriteRequestForFormatDiagnostic (n := n) mem mem' m printerUri authority t
      (ippProxyPlanRequest request t contentLength).upstreamDocumentFormat = .ok (out,k) →
    ∃ e e', decode m = .ok e ∧ decode out = .ok e' ∧ e'.document = e.document ∧
      e'.documentFormats = e.documentFormats

theorem plan_documentTransform (request : RequestInfo) (t : PrinterTarget) (contentLength : ℕ) :
    (ippProxyPlanRequest request t contentLength).documentTransform =
      if convertsDocument request t then .pwgToUrf else .passthrough := by
  unfold ippProxyPlanRequest
  simp only
  split_ifs <;> simp_all [Plan.reject, relayPlan]

theorem convertsDocument_eq_true (request : RequestInfo) (t : PrinterTarget) :
    convertsDocument request t = true ↔
      equalSpan request.documentFormat.val (octets "image/pwg-raster") = true ∧
        Listed t.pdl.val (octets "image/urf") := by
  rw [convertsDocument, Bool.and_eq_true, strcasecmp_text _ (by decide +kernel),
    ippCodecFormatSupported_iff]

theorem passedThrough_iff {request : RequestInfo} {t : PrinterTarget} {contentLength : ℕ} :
    PassedThrough request t contentLength ↔ ¬ convertsDocument request t = true := by
  constructor
  · intro hpass hconverts
    have htransform := hpass.transform
    rw [plan_documentTransform, if_pos hconverts] at htransform
    cases htransform
  · intro hnot
    have hnone : (ippProxyPlanRequest request t contentLength).upstreamDocumentFormat = none := by
      rw [plan_upstreamDocumentFormat, if_neg hnot]
    refine ⟨by rw [plan_documentTransform, if_neg hnot],hnone,fun hinspect hrewrite => ?_⟩
    rw [hnone] at hrewrite
    obtain ⟨e,e',he,he',-,-,hdocument,hr,-⟩ := rewriteRequest_ok hrewrite
    refine ⟨e,e',he,he',hdocument,?_⟩
    rw [relayed_documentFormats hr]
    simp

/-- A format that the printer lists is passed through, unless it is PWG Raster and the printer
lists URF as well. -/
theorem plan_passes_listed_iff (request : RequestInfo) (t : PrinterTarget) (contentLength : ℕ) :
    (Listed t.pdl.val request.documentFormat.val → PassedThrough request t contentLength) ↔
      ¬ (equalSpan request.documentFormat.val (octets "image/pwg-raster") = true ∧
        Listed t.pdl.val (octets "image/pwg-raster") ∧ Listed t.pdl.val (octets "image/urf")) := by
  rw [passedThrough_iff, convertsDocument_eq_true]
  constructor
  · rintro hpass ⟨hformat,hpwg,hurf⟩
    exact hpass ((listed_congr hformat).mpr hpwg) ⟨hformat,hurf⟩
  · rintro hnot hlisted ⟨hformat,hurf⟩
    exact hnot ⟨hformat,(listed_congr hformat).mp hlisted,hurf⟩

/-- A printer that takes both raster formats. -/
def rasterTarget : PrinterTarget :=
  { PrinterTarget.zero with
    pdl := .copy 256 (octets "image/urf,image/pwg-raster")
    operationsSupported := 1 <<< Operation.printJob }

def pwgRequest : Envelope where
  header := [2,0,0,2,0,0,0,1]
  items := printJobItems ["image/pwg-raster"]
  document := [0x52]
  header_length := literalHeader_length
  items_ok := by decide +kernel

/-- PWG Raster is converted although the printer takes it. -/
theorem plan_converts_listed :
    Listed rasterTarget.pdl.val pwgRequest.inspect.documentFormat.val ∧
    (ippProxyPlanRequest pwgRequest.inspect rasterTarget pwgRequest.encode.length).action = .relay ∧
    ¬ PassedThrough pwgRequest.inspect rasterTarget pwgRequest.encode.length := by
  refine ⟨by decide +kernel,by decide +kernel,fun hpass => ?_⟩
  have htransform := hpass.transform
  revert htransform
  decide +kernel

end Espresso.Proxy
