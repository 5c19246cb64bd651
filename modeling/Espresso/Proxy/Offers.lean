import Espresso.Proxy.Formats
import Espresso.Codec.Probed

/-! What the normalised Get-Printer-Attributes response offers, against what the policy lets pass. -/
namespace Espresso.Proxy

open Codec

/-- A media type is a text that is not empty. -/
def MediaType := {f : Bytes // f ≠ [] ∧ 0 ∉ f}

section
variable {hundredths : Bytes → ℕ → Option ℕ} {mem : Memory}
  {input out printerUri authority localUuid : Bytes} {t : PrinterTarget} {k : ℕ} {e' : Envelope}

/-! ### Formats -/

/-- The listed formats: the profile's, and PWG Raster if it can be converted. -/
theorem normalize_formats (hstatus : ippCodecMessageCode input < 0x0400)
    (h : ippCodecNormalizePrinterResponse hundredths mem input printerUri authority localUuid t =
      .ok (out,k)) (hout : decode out = .ok e') (v : UInt8 × Bytes) :
    v ∈ e'.valuesOf Tag.printerAttributes (octets "document-format-supported") ↔
      v.1 = Tag.mimeType ∧ (v.2 ∈ entries t.pdl.val ∨ v.2 = octets "image/pwg-raster" ∧
        Listed t.pdl.val (octets "image/urf") ∧
        ¬ Listed t.pdl.val (octets "image/pwg-raster")) := by
  have hs : (⟨Present.formats,"document-format-supported",
      csvValues Tag.mimeType t.pdl.val ++
        only (csvContains t.pdl.val (octets "image/urf") &&
          !csvContains t.pdl.val (octets "image/pwg-raster"))
          [str Tag.mimeType "image/pwg-raster"]⟩ : Standin) ∈
      standins hundredths (cstr printerUri) (cstr localUuid) t :=
    List.mem_of_getElem? (i := 19) rfl
  have hreplaced : isReplaced (octets "document-format-supported") = true := by decide +kernel
  refine (normalize_replaced hstatus h hout hs hreplaced v).trans ?_
  rw [List.mem_append, csvValues, csvTokens_entries, List.mem_map, ← csvContains_iff,
    ← csvContains_iff]
  obtain ⟨tag,value⟩ := v
  constructor
  · rintro (⟨entry,hentry,heq⟩ | hpwg)
    · cases heq
      exact ⟨rfl,.inl hentry⟩
    · unfold only at hpwg
      split at hpwg
      · rename_i hc
        obtain ⟨rfl,rfl⟩ : tag = Tag.mimeType ∧ value = octets "image/pwg-raster" := by
          simpa [str] using hpwg
        exact ⟨rfl,.inr ⟨rfl,by simpa using hc⟩⟩
      · cases hpwg
  · rintro ⟨rfl,hentry | ⟨rfl,hurf,hpwg⟩⟩
    · exact .inl ⟨value,hentry,rfl⟩
    · right
      simp [only, hurf, hpwg, str]

/-- The formats a client finds are those the profile lists, and PWG Raster besides URF. -/
theorem normalize_offers_format (hstatus : ippCodecMessageCode input < 0x0400)
    (h : ippCodecNormalizePrinterResponse hundredths mem input printerUri authority localUuid t =
      .ok (out,k)) (hout : decode out = .ok e') (f : Bytes) :
    (∃ v ∈ e'.valuesOf Tag.printerAttributes (octets "document-format-supported"),
        equalSpan v.2 f = true) ↔
      Listed t.pdl.val f ∨ equalSpan f (octets "image/pwg-raster") = true ∧
        Listed t.pdl.val (octets "image/urf") := by
  have hmem := normalize_formats hstatus h hout
  have hsymm : ∀ {a b : Bytes}, equalSpan a b = true → equalSpan b a = true := by
    intro a b hab
    rw [equalSpan_iff] at hab ⊢
    exact hab.symm
  constructor
  · rintro ⟨v,hv,heq⟩
    rcases ((hmem v).mp hv).2 with hentry | ⟨hpwg,hurf,-⟩
    · exact .inl ⟨v.2,hentry,heq⟩
    · rw [hpwg] at heq
      exact .inr ⟨hsymm heq,hurf⟩
  · rintro (⟨entry,hentry,heq⟩ | ⟨hpwg,hurf⟩)
    · exact ⟨(Tag.mimeType,entry),(hmem _).mpr ⟨rfl,.inl hentry⟩,heq⟩
    · by_cases hlisted : Listed t.pdl.val (octets "image/pwg-raster")
      · obtain ⟨entry,hentry,heq⟩ := (listed_congr hpwg).mpr hlisted
        exact ⟨(Tag.mimeType,entry),(hmem _).mpr ⟨rfl,.inl hentry⟩,heq⟩
      · exact ⟨(Tag.mimeType,octets "image/pwg-raster"),
          (hmem _).mpr ⟨rfl,.inr ⟨rfl,hurf,hlisted⟩⟩,hsymm hpwg⟩

/-- The policy judges a Print-Job by the 64-octet copy of its format. -/
theorem plan_accepts_format {e : Envelope} {contentLength : ℕ} (hvalid : WellAddressed e.inspect)
    (hop : e.inspect.operationId = Operation.printJob)
    (hrelayed : operationRelayed e.inspect t = true)
    (hbody : e.inspect.attributesLength < contentLength) {f : MediaType}
    (hf : e.documentFormats = [f.val]) :
    (ippProxyPlanRequest e.inspect t contentLength).statusCode ≠
        Status.documentFormatNotSupported ↔
      Listed t.pdl.val (f.val.take 63) ∨
        equalSpan (f.val.take 63) (octets "image/pwg-raster") = true ∧
          Listed t.pdl.val (octets "image/urf") := by
  obtain ⟨f,hne,h0⟩ := f
  have h0' : 0 ∉ f.take 63 := fun h => h0 (List.mem_of_mem_take h)
  have hcopy : e.inspect.documentFormat.val = f.take 63 := by
    rw [e.inspect_documentFormat, hf]
    exact cstr_eq_self h0'
  have hfits : BodyFits e.inspect contentLength :=
    ⟨hbody.le,fun _ => hbody,fun h => absurd hop h⟩
  have hmust : formatMustBeRelayable e.inspect = true := by simp [formatMustBeRelayable, hop]
  have hconvert : convertsDocument e.inspect t = true ↔
      equalSpan (f.take 63) (octets "image/pwg-raster") = true ∧
        Listed t.pdl.val (octets "image/urf") := by
    rw [convertsDocument_iff, Converted, hf]
    simp [cstr_eq_self h0']
  rw [plan_format hvalid hrelayed hfits, formatRefused, hmust, hcopy, ← hconvert,
    ← ippCodecFormatSupported_iff]
  have hcopy_ne : f.take 63 ≠ [] := by simpa using hne
  cases ippCodecFormatSupported t (f.take 63) <;> cases convertsDocument e.inspect t <;>
    simp [hcopy_ne]

/-- A format is offered exactly if it is accepted, but for media types of more than 63 octets:
these are accepted if their first 63 octets are listed. -/
theorem format_offered_iff_accepted {m : Bytes} {e : Envelope} {info : RequestInfo}
    {contentLength : ℕ} (hstatus : ippCodecMessageCode input < 0x0400)
    (h : ippCodecNormalizePrinterResponse hundredths mem input printerUri authority localUuid t =
      .ok (out,k)) (hout : decode out = .ok e') (hm : decode m = .ok e)
    (hinspect : ippCodecInspectRequest m = .ok info) (hvalid : WellAddressed info)
    (hop : info.operationId = Operation.printJob) (hrelayed : operationRelayed info t = true)
    (hbody : info.attributesLength < contentLength) {f : MediaType}
    (hf : e.documentFormats = [f.val]) :
    ((∃ v ∈ e'.valuesOf Tag.printerAttributes (octets "document-format-supported"),
        equalSpan v.2 f.val = true) ↔
      (ippProxyPlanRequest info t contentLength).statusCode ≠
        Status.documentFormatNotSupported) ↔
    f.val.length ≤ 63 ∨ (Listed t.pdl.val f.val ↔ Listed t.pdl.val (f.val.take 63)) := by
  obtain ⟨e1,he1,rfl⟩ := inspect_ok_iff.mp hinspect
  rw [hm] at he1
  cases he1
  rw [normalize_offers_format hstatus h hout, plan_accepts_format hvalid hop hrelayed hbody hf]
  by_cases hlen : f.val.length ≤ 63
  · rw [List.take_of_length_le hlen]
    simp [hlen]
  · have hlong : ∀ g : Bytes, 63 ≤ g.length → equalSpan g (octets "image/pwg-raster") = false := by
      intro g hg
      have : (octets "image/pwg-raster").length = 16 := by decide +kernel
      simp only [equalSpan, this, Bool.and_eq_false_iff, decide_eq_false_iff_not]
      exact .inl (by omega)
    rw [hlong _ (by omega), hlong _ (by rw [List.length_take]; omega)]
    simp [hlen]

end

/-- A media type of 64 octets that the printer lists. -/
def longFormat : String :=
  "application/vnd.example-document-format-with-a-rather-long-name1"

/-- A printer that lists only this format. -/
def longFormatTarget : PrinterTarget :=
  { PrinterTarget.zero with
    pdl := .copy 256 (octets longFormat)
    operationsSupported := 1 <<< Operation.printJob }

def longFormatRequest : Envelope where
  header := [2,0,0,2,0,0,0,1]
  items := printJobItems [longFormat]
  document := [0x25]
  header_length := literalHeader_length
  items_ok := by decide +kernel

theorem longFormatRequest_wellAddressed : WellAddressed longFormatRequest.inspect :=
  ⟨by decide +kernel,by decide +kernel,by decide +kernel⟩

/-- The normalised response offers the long media type, and the policy refuses it. -/
theorem format_offered_not_accepted :
    ∃ out k e', ippCodecMessageCode namedResponse.encode < 0x0400 ∧
      ippCodecNormalizePrinterResponse (fun _ _ => none) .unlimited namedResponse.encode
        (octets "ipp://espresso.local:631/ipp/print") (octets "ipp://espresso.local:631")
        (octets "1b2c") longFormatTarget = .ok (out,k) ∧ decode out = .ok e' ∧
      (∃ v ∈ e'.valuesOf Tag.printerAttributes (octets "document-format-supported"),
        equalSpan v.2 (octets longFormat) = true) ∧
      ippCodecInspectRequest longFormatRequest.encode = .ok longFormatRequest.inspect ∧
      WellAddressed longFormatRequest.inspect ∧
      longFormatRequest.inspect.operationId = Operation.printJob ∧
      operationRelayed longFormatRequest.inspect longFormatTarget = true ∧
      longFormatRequest.inspect.attributesLength < longFormatRequest.encode.length ∧
      longFormatRequest.documentFormats = [octets longFormat] ∧
      (ippProxyPlanRequest longFormatRequest.inspect longFormatTarget
        longFormatRequest.encode.length).statusCode = Status.documentFormatNotSupported := by
  have hstatus : ippCodecMessageCode namedResponse.encode < 0x0400 := by decide +kernel
  obtain ⟨⟨out,k⟩,h⟩ := exists_of_isOk (show (ippCodecNormalizePrinterResponse (fun _ _ => none)
    .unlimited namedResponse.encode (octets "ipp://espresso.local:631/ipp/print")
    (octets "ipp://espresso.local:631") (octets "1b2c") longFormatTarget).isOk = true by
      decide +kernel)
  obtain ⟨e',he',-⟩ := normalize_printerNames (decode_encode namedResponse) hstatus h
  have hoffered := (normalize_offers_format hstatus h he' (octets longFormat)).mpr
    (.inl (by decide +kernel))
  exact ⟨out,k,e',hstatus,h,he',hoffered,by decide +kernel,longFormatRequest_wellAddressed,
    by decide +kernel,by decide +kernel,by decide +kernel,by decide +kernel,by decide +kernel⟩

/-- For PDF both agree. -/
theorem format_offered_pdf :
    ∃ out k e', ippCodecNormalizePrinterResponse (fun _ _ => none) .unlimited namedResponse.encode
        (octets "ipp://espresso.local:631/ipp/print") (octets "ipp://espresso.local:631")
        (octets "1b2c") pdfTarget = .ok (out,k) ∧ decode out = .ok e' ∧
      (((∃ v ∈ e'.valuesOf Tag.printerAttributes (octets "document-format-supported"),
          equalSpan v.2 (octets "application/pdf") = true) ↔
        (ippProxyPlanRequest pdfRequest.inspect pdfTarget pdfRequest.encode.length).statusCode ≠
          Status.documentFormatNotSupported) ↔
      (octets "application/pdf").length ≤ 63 ∨
        (Listed pdfTarget.pdl.val (octets "application/pdf") ↔
          Listed pdfTarget.pdl.val ((octets "application/pdf").take 63))) := by
  have hstatus : ippCodecMessageCode namedResponse.encode < 0x0400 := by decide +kernel
  obtain ⟨⟨out,k⟩,h⟩ := exists_of_isOk (show (ippCodecNormalizePrinterResponse (fun _ _ => none)
    .unlimited namedResponse.encode (octets "ipp://espresso.local:631/ipp/print")
    (octets "ipp://espresso.local:631") (octets "1b2c") pdfTarget).isOk = true by decide +kernel)
  obtain ⟨e',he',-⟩ := normalize_printerNames (decode_encode namedResponse) hstatus h
  have hvalid : WellAddressed pdfRequest.inspect :=
    ⟨by decide +kernel,by decide +kernel,by decide +kernel⟩
  exact ⟨out,k,e',h,he',format_offered_iff_accepted hstatus h he' (decode_encode pdfRequest)
    (show ippCodecInspectRequest pdfRequest.encode = .ok pdfRequest.inspect by decide +kernel)
    hvalid (by decide +kernel) (by decide +kernel) (by decide +kernel)
    (f := ⟨octets "application/pdf",by decide +kernel⟩) (by decide +kernel)⟩

/-! ### Operations -/

/-- The operations that a response lists. -/
def operationsListed (e : Envelope) : Set ℕ :=
  {n | ∃ v ∈ e.valuesOf Tag.printerAttributes (octets "operations-supported"),
    v.1 = Tag.enum ∧ v.2.length = 4 ∧ encodedU32 v.2 = n}

theorem encodedU32_u32 {n : ℕ} (h : n < 4294967296) : encodedU32 (u32 n) = n := readU32_u32 n h

/-- Create-Job and Send-Document pass together or not at all. -/
theorem relayOperations_paired {operations n : ℕ}
    (hn : n = Operation.createJob ∨ n = Operation.sendDocument)
    (h : (ippCodecRelayOperations operations).testBit n = true) :
    operations.testBit Operation.createJob = true ∧
      operations.testBit Operation.sendDocument = true := by
  unfold ippCodecRelayOperations at h
  simp only at h
  split at h
  · rename_i hboth
    exact hboth
  · exfalso
    have hsafe : individuallySafe.testBit n = false := by rcases hn with rfl | rfl <;> decide
    have hget : (1 <<< Operation.getPrinterAttributes).testBit n = false := by
      rcases hn with rfl | rfl <;> decide
    simp only [Nat.testBit_or, Nat.testBit_and, hsafe, hget, Bool.and_false, Bool.or_false] at h
    cases h

section
variable {hundredths : Bytes → ℕ → Option ℕ} {mem : Memory}
  {input out printerUri authority localUuid : Bytes} {t : PrinterTarget} {k : ℕ} {e' : Envelope}

/-- The upstream list is dropped; what is listed are the bits of the relay mask. -/
theorem normalize_operations (hstatus : ippCodecMessageCode input < 0x0400)
    (h : ippCodecNormalizePrinterResponse hundredths mem input printerUri authority localUuid t =
      .ok (out,k)) (hout : decode out = .ok e') (v : UInt8 × Bytes) :
    v ∈ e'.valuesOf Tag.printerAttributes (octets "operations-supported") ↔
      ∃ n < 64, (ippCodecRelayOperations t.operationsSupported).testBit n = true ∧
        v = (Tag.enum,u32 n) := by
  have hs : (⟨Present.operations,"operations-supported",
      ((List.range 64).filter (ippCodecRelayOperations t.operationsSupported).testBit).map
        (int32 Tag.enum)⟩ : Standin) ∈
      standins hundredths (cstr printerUri) (cstr localUuid) t :=
    List.mem_of_getElem? (i := 1) rfl
  have hreplaced : isReplaced (octets "operations-supported") = true := by decide +kernel
  refine (normalize_replaced hstatus h hout hs hreplaced v).trans ?_
  simp only [List.mem_map, List.mem_filter, List.mem_range, int32]
  constructor
  · rintro ⟨n,⟨hn,hbit⟩,rfl⟩; exact ⟨n,hn,hbit,rfl⟩
  · rintro ⟨n,hn,hbit,rfl⟩; exact ⟨n,⟨hn,hbit⟩,rfl⟩

theorem mem_operationsListed (hstatus : ippCodecMessageCode input < 0x0400)
    (h : ippCodecNormalizePrinterResponse hundredths mem input printerUri authority localUuid t =
      .ok (out,k)) (hout : decode out = .ok e') (n : ℕ) :
    n ∈ operationsListed e' ↔
      n < 64 ∧ (ippCodecRelayOperations t.operationsSupported).testBit n = true := by
  have hmem := normalize_operations hstatus h hout
  constructor
  · rintro ⟨v,hv,-,-,rfl⟩
    obtain ⟨n,hn,hbit,rfl⟩ := (hmem v).mp hv
    rw [encodedU32_u32 (by omega)]
    exact ⟨hn,hbit⟩
  · rintro ⟨hn,hbit⟩
    exact ⟨(Tag.enum,u32 n),(hmem _).mpr ⟨n,hn,hbit,rfl⟩,rfl,rfl,encodedU32_u32 (by omega)⟩

/-- The operations a client finds are those that the policy does not refuse. Create-Job and
Send-Document are among them only if responses of the printer listed both. -/
theorem operations_listed_iff_relayed (hstatus : ippCodecMessageCode input < 0x0400)
    (h : ippCodecNormalizePrinterResponse hundredths mem input printerUri authority localUuid t =
      .ok (out,k)) (hout : decode out = .ok e') :
    (∀ v ∈ e'.valuesOf Tag.printerAttributes (octets "operations-supported"),
      v.1 = Tag.enum ∧ v.2.length = 4 ∧ encodedU32 v.2 < 65536) ∧
    (∀ (request : RequestInfo) (contentLength : ℕ), WellAddressed request →
      (request.operationId ∈ operationsListed e' ↔
        (ippProxyPlanRequest request t contentLength).statusCode ≠
          Status.operationNotSupported)) ∧
    (Operation.createJob ∈ operationsListed e' ∨ Operation.sendDocument ∈ operationsListed e' →
      t.operationsSupported.testBit Operation.createJob = true ∧
      t.operationsSupported.testBit Operation.sendDocument = true ∧
      ∀ inputs, Probed inputs t → (∃ response ∈ inputs, Reports response Operation.createJob) ∧
        ∃ response ∈ inputs, Reports response Operation.sendDocument) := by
  have hlisted := mem_operationsListed hstatus h hout
  refine ⟨?_,?_,?_⟩
  · intro v hv
    obtain ⟨n,hn,-,rfl⟩ := (normalize_operations hstatus h hout v).mp hv
    refine ⟨rfl,rfl,?_⟩
    rw [encodedU32_u32 (by omega)]
    omega
  · intro request contentLength hvalid
    rw [plan_operation hvalid, hlisted, operationRelayed, Bool.and_eq_true, decide_eq_true_iff]
  · intro hany
    obtain ⟨hcreate,hsend⟩ : t.operationsSupported.testBit Operation.createJob = true ∧
        t.operationsSupported.testBit Operation.sendDocument = true := by
      rcases hany with hn | hn
      · exact relayOperations_paired (.inl rfl) ((hlisted _).mp hn).2
      · exact relayOperations_paired (.inr rfl) ((hlisted _).mp hn).2
    refine ⟨hcreate,hsend,?_⟩
    intro inputs hprobed
    constructor
    · rcases hprobed.operations hcreate with h | h | h
      · exact absurd h (by decide)
      · exact absurd h (by decide)
      · exact h
    · rcases hprobed.operations hsend with h | h | h
      · exact absurd h (by decide)
      · exact absurd h (by decide)
      · exact h

end

/-- A printer that supports only Print-Job lists that and Get-Printer-Attributes. -/
theorem operations_listed_pdf :
    ∃ out k e', ippCodecNormalizePrinterResponse (fun _ _ => none) .unlimited namedResponse.encode
        (octets "ipp://espresso.local:631/ipp/print") (octets "ipp://espresso.local:631")
        (octets "1b2c") pdfTarget = .ok (out,k) ∧ decode out = .ok e' ∧
      ∀ (request : RequestInfo) (contentLength : ℕ), WellAddressed request →
        (request.operationId ∈ operationsListed e' ↔
          (ippProxyPlanRequest request pdfTarget contentLength).statusCode ≠
            Status.operationNotSupported) := by
  have hstatus : ippCodecMessageCode namedResponse.encode < 0x0400 := by decide +kernel
  obtain ⟨⟨out,k⟩,h⟩ := exists_of_isOk (show (ippCodecNormalizePrinterResponse (fun _ _ => none)
    .unlimited namedResponse.encode (octets "ipp://espresso.local:631/ipp/print")
    (octets "ipp://espresso.local:631") (octets "1b2c") pdfTarget).isOk = true by decide +kernel)
  obtain ⟨e',he',-⟩ := normalize_printerNames (decode_encode namedResponse) hstatus h
  exact ⟨out,k,e',h,he',(operations_listed_iff_relayed hstatus h he').2.1⟩

end Espresso.Proxy
