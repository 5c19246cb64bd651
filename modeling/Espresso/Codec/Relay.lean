import Espresso.Codec.Request

/-! What the printer receives for a client request: both passes of
`ipp_codec_rewrite_request_for_format_diagnostic` as one map on decoded records. -/
namespace Espresso.Codec

/-- What becomes of one record of the client's request. -/
def relayedRecord (printerUri authority : Bytes) (t : PrinterTarget)
    (upstreamDocumentFormat : Option Bytes) (r : Record) : Option Record :=
  facadeRecord t upstreamDocumentFormat (rewriteRecord printerUri authority r)

section
variable (printerUri authority : Bytes) {t : PrinterTarget}

theorem isRewritten_not_consumed {tag : UInt8} {name : Bytes} (h : isRewritten tag name = true)
    (t : PrinterTarget) (group : UInt8) : isConsumed t group name = false := by
  simp only [isRewritten, rewrittenNames, List.any_cons, List.any_nil, Bool.or_false,
    Bool.and_eq_true, Bool.or_eq_true, decide_eq_true_eq] at h
  obtain ⟨-,h⟩ := h
  rcases h with rfl | rfl | rfl | rfl | rfl <;>
    simp [isConsumed, isContentHint, neutralDefaults, NeutralDefault.applies]

/-- The URI pass touches no attribute that the second pass looks at. -/
theorem isRefused_rewriteRecord (r : Record) :
    isRefused t (rewriteRecord printerUri authority r) = isRefused t r := by
  cases h : isRewritten r.tag r.attributeName with
  | true =>
    have hc := isRewritten_not_consumed h t r.group
    have hr : isRefused t r = false := by
      by_contra hr
      rw [isRefused_consumed (by simpa using hr)] at hc
      cases hc
    have hr' : isRefused t (rewriteRecord printerUri authority r) = false := by
      by_contra hr'
      have := isRefused_consumed (by simpa using hr')
      exact absurd (this.symm.trans hc) (by simp)
    rw [hr, hr']
  | false =>
    have hv : rewriteRecord printerUri authority r = r := by
      simp [rewriteRecord, rewrittenValue, newValue, h]
    rw [hv]

theorem find_isRefused_map (rs : List Record) :
    (rs.map (rewriteRecord printerUri authority)).find? (isRefused t) =
      (rs.find? (isRefused t)).map (rewriteRecord printerUri authority) := by
  rw [List.find?_map]
  congr 2
  funext r
  exact isRefused_rewriteRecord printerUri authority r

end

/-! ### The whole call -/

section
variable {n : ℕ} {mem mem' : Memory} {input printerUri authority : Bytes} {t : PrinterTarget}
  {upstreamDocumentFormat : Option Bytes}

theorem rewriteRequest_ok {out : Bytes} {k : ℕ}
    (h : ippCodecRewriteRequestForFormatDiagnostic (n := n) mem mem' input printerUri authority t
      upstreamDocumentFormat = .ok (out,k)) :
    ∃ e e', decode input = .ok e ∧ decode out = .ok e' ∧ k = e'.attributesLength ∧
      e'.header = e.header ∧ e'.document = e.document ∧
      e'.records = e.records.filterMap
        (relayedRecord printerUri authority t upstreamDocumentFormat) ∧
      ∀ r ∈ e.records, isRefused t r = false := by
  unfold ippCodecRewriteRequestForFormatDiagnostic at h
  split at h
  · cases h
  rename_i rewritten k' hrewrite
  obtain ⟨e,m,he,hm,-,hh,hd,hr⟩ := ippCodecRewrite_ok printerUri authority hrewrite
  obtain ⟨m',e',hm',he',hk,hh',hd',hr',hrefused⟩ := normalizeFacadeJobDefaults_ok h
  rw [hm] at hm'
  cases hm'
  refine ⟨e,e',he,he',hk,hh'.trans hh,hd'.trans hd,?_,?_⟩
  · rw [hr', hr, List.filterMap_map]
    rfl
  · intro r hmem
    rw [← isRefused_rewriteRecord printerUri authority]
    apply hrefused
    rw [hr]
    exact List.mem_map_of_mem hmem

/-- What it takes to be answered NO_MEMORY. -/
def OutOfMemory (mem mem' : Memory) (input printerUri authority : Bytes)
    (upstreamDocumentFormat : Option Bytes) : Prop :=
  mem.Refuses ∨ mem'.Refuses ∨ LongUri printerUri authority input ∨
    LongFormat upstreamDocumentFormat

theorem rewriteRequest_error {r : Rejection n} {e : Envelope} (he : decode input = .ok e)
    (h : ippCodecRewriteRequestForFormatDiagnostic mem mem' input printerUri authority t
      upstreamDocumentFormat = .error r) :
    (r = .plain .noMemory ∧
        OutOfMemory mem mem' input printerUri authority upstreamDocumentFormat) ∨
      ∃ q, e.records.find? (isRefused t) = some q ∧
        r = ⟨.unsupported,Text.copy n q.attributeName⟩ := by
  unfold ippCodecRewriteRequestForFormatDiagnostic at h
  split at h
  · rename_i hrewrite
    cases h
    rcases ippCodecRewrite_error printerUri authority hrewrite with ⟨rfl,hm | hu⟩ | hd
    · exact .inl ⟨rfl,.inl hm⟩
    · exact .inl ⟨rfl,.inr (.inr (.inl hu))⟩
    · rw [he] at hd; cases hd
  rename_i rewritten k' hrewrite
  obtain ⟨e1,m,he1,hm,-,-,-,hr⟩ := ippCodecRewrite_ok printerUri authority hrewrite
  rw [he] at he1
  cases he1
  refine (normalizeFacadeJobDefaults_error h hm).imp ?_ ?_
  · rintro ⟨rfl,hm' | hf⟩
    · exact ⟨rfl,.inr (.inl hm')⟩
    · exact ⟨rfl,.inr (.inr (.inr hf))⟩
  · rintro ⟨q,hq,hr'⟩
    rw [hr, find_isRefused_map, Option.map_eq_some_iff] at hq
    obtain ⟨q',hq',rfl⟩ := hq
    exact ⟨q',hq',hr'⟩

end

/-- A rewritten request is the client's, record by record: `relayedRecord` says what changes. A
well-formed request that is not relayed either ran out of memory or holds a Job Template value
that the printer cannot be asked for; the first such record is the one reported. -/
theorem rewriteRequest_relays (n : ℕ) (mem mem' : Memory) (input printerUri authority : Bytes)
    (t : PrinterTarget) (upstreamDocumentFormat : Option Bytes) :
    (∀ out k, ippCodecRewriteRequestForFormatDiagnostic (n := n) mem mem' input printerUri
        authority t upstreamDocumentFormat = .ok (out,k) →
      ∃ e e', decode input = .ok e ∧ decode out = .ok e' ∧
        out.take ippHeaderLength = input.take ippHeaderLength ∧
        k = e'.attributesLength ∧ out.drop k = input.drop e.attributesLength ∧
        e'.records = e.records.filterMap
          (relayedRecord printerUri authority t upstreamDocumentFormat) ∧
        ∀ r ∈ e.records, isRefused t r = false) ∧
    (∀ e r, decode input = .ok e → ippCodecRewriteRequestForFormatDiagnostic (n := n) mem mem' input
        printerUri authority t upstreamDocumentFormat = .error r →
      (r = .plain .noMemory ∧
          OutOfMemory mem mem' input printerUri authority upstreamDocumentFormat) ∨
        ∃ q, e.records.find? (isRefused t) = some q ∧
          r = ⟨.unsupported,Text.copy n q.attributeName⟩) := by
  refine ⟨?_,fun e r he h => rewriteRequest_error he h⟩
  intro out k h
  obtain ⟨e,e',he,he',hk,hh,hd,hr,hrefused⟩ := rewriteRequest_ok h
  refine ⟨e,e',he,he',?_,hk,?_,hr,hrefused⟩
  · rw [header_of_decode he, header_of_decode he', hh]
  · rw [hk, document_of_decode he, document_of_decode he', hd]

/-! ### Job Template attributes the printer never advertised -/

/-- The capability bit of each Job Template attribute. -/
def jobCapabilityNames : List (String × ℕ) :=
  [("copies",JobCap.copies), ("finishings",JobCap.finishings),
   ("orientation-requested",JobCap.orientation), ("output-bin",JobCap.outputBin),
   ("print-quality",JobCap.printQuality), ("sides",JobCap.sides),
   ("print-color-mode",JobCap.printColorMode)]

/-- No job attribute asks for something outside the recorded capabilities. -/
def OnlyAdvertised (t : PrinterTarget) (records : List Record) : Prop :=
  ∀ r ∈ records, r.group = Tag.jobAttributes →
    ∀ c ∈ jobCapabilityNames, r.attributeName = octets c.1 → t.hasCap c.2 = true

instance (t : PrinterTarget) (records : List Record) : Decidable (OnlyAdvertised t records) := by
  unfold OnlyAdvertised; infer_instance

/-- All entries but the last have a neutral default, which consumes them. -/
theorem isConsumed_of_capability {t : PrinterTarget} {c : String × ℕ}
    (hc : c ∈ jobCapabilityNames) (hcap : t.hasCap c.2 = false) :
    isConsumed t Tag.jobAttributes (octets c.1) = true ∨
      c = ("print-color-mode",JobCap.printColorMode) := by
  have htable : ∀ c ∈ jobCapabilityNames, c = ("print-color-mode",JobCap.printColorMode) ∨
      ∃ d ∈ neutralDefaults, d.name = c.1 ∧ d.capability = c.2 := by decide +kernel
  rcases htable c hc with h | ⟨d,hd,hname,hcapability⟩
  · exact .inr h
  · left
    have happly : d.applies t (octets c.1) = true := by
      simp [NeutralDefault.applies, hname, hcapability, hcap]
    simp [isConsumed, List.any_eq_true.mpr ⟨d,hd,happly⟩]

theorem relayedRecord_eq_some {printerUri authority : Bytes} {t : PrinterTarget}
    {upstreamDocumentFormat : Option Bytes} {r q : Record}
    (h : relayedRecord printerUri authority t upstreamDocumentFormat r = some q) :
    isConsumed t r.group r.attributeName = false ∧ q.group = r.group ∧
      q.name = facadeName t r.group r.name := by
  simp only [relayedRecord, facadeRecord] at h
  split at h
  · cases h
  · rename_i hc
    cases h
    exact ⟨by simpa [rewriteRecord, Record.attributeName] using hc,rfl,rfl⟩

/-- The one name without a rule of its own is `print-color-mode`: it reaches a printer that did
not advertise it unless the printer takes it as `output-mode`. -/
theorem rewriteRequest_onlyAdvertised_iff {mem mem' : Memory}
    {input printerUri authority out : Bytes} {t : PrinterTarget} {k : ℕ}
    (h : ippCodecRewriteRequest mem mem' input printerUri authority t = .ok (out,k)) :
    ∃ e e', decode input = .ok e ∧ decode out = .ok e' ∧
      (OnlyAdvertised t e'.records ↔ t.legacyOutputMode = true ∨
        t.hasCap JobCap.printColorMode = true ∨ ∀ r ∈ e.records,
          r.group = Tag.jobAttributes → r.attributeName ≠ octets "print-color-mode") := by
  obtain ⟨e,e',he,he',-,-,-,hr,-⟩ := rewriteRequest_ok h
  refine ⟨e,e',he,he',?_⟩
  rw [hr]
  constructor
  · intro hall
    by_contra hnot
    push Not at hnot
    obtain ⟨hlegacy,hcap,r,hmem,hgroup,hname⟩ := hnot
    have hkeep : isConsumed t r.group r.attributeName = false := by
      rw [hname]
      simp [isConsumed, isContentHint, neutralDefaults, NeutralDefault.applies]
    obtain ⟨q,hq⟩ : ∃ q, relayedRecord printerUri authority t none r = some q := by
      simp only [relayedRecord, facadeRecord]
      rw [if_neg (by simpa [rewriteRecord, Record.attributeName] using hkeep)]
      exact ⟨_,rfl⟩
    obtain ⟨-,hqg,hqn⟩ := relayedRecord_eq_some hq
    have hqname : q.attributeName = octets "print-color-mode" := by
      rw [Record.attributeName, hqn, facadeName, if_neg (by simp [isLegacyColorMode, hlegacy])]
      exact hname
    exact hcap (hall q (List.mem_filterMap.mpr ⟨r,hmem,hq⟩) (hqg.trans hgroup)
      ("print-color-mode",JobCap.printColorMode) (by simp [jobCapabilityNames]) hqname)
  · intro hcond q hq hqgroup c hc hqc
    obtain ⟨r,hmem,hrq⟩ := List.mem_filterMap.mp hq
    obtain ⟨hkeep,hqg,hqn⟩ := relayedRecord_eq_some hrq
    by_contra hcap
    rw [Bool.not_eq_true] at hcap
    have hgroup : r.group = Tag.jobAttributes := hqg ▸ hqgroup
    by_cases hl : isLegacyColorMode t r.attributeName = true
    · -- renamed to an attribute without a capability bit
      rw [Record.attributeName, hqn, facadeName, if_pos ⟨hgroup,hl⟩] at hqc
      have hmode : ∀ d ∈ jobCapabilityNames, cstr (octets "output-mode") ≠ octets d.1 := by
        decide +kernel
      exact hmode c hc hqc
    · have hname : r.attributeName = octets c.1 := by
        rw [← hqc, Record.attributeName, Record.attributeName, hqn, facadeName,
          if_neg (fun h => hl h.2)]
      rcases isConsumed_of_capability hc hcap with hcons | rfl
      · rw [hgroup, hname, hcons] at hkeep
        cases hkeep
      · rcases hcond with hlegacy | hcolor | hnone
        · exact hl (by simp [isLegacyColorMode, hname, hlegacy])
        · rw [hcolor] at hcap; cases hcap
        · exact hnone r hmem hgroup hname

/-- A Print-Job request that asks for monochrome output. -/
def monochromeRequest : Envelope where
  header := [2,0,0,2,0,0,0,1]
  items := [.group Tag.operationAttributes,
    named Tag.charset "attributes-charset" (octets "utf-8"), .group Tag.jobAttributes,
    named Tag.keyword "print-color-mode" (octets "monochrome")]
  document := []
  header_length := literalHeader_length
  items_ok := by decide +kernel

/-- A printer without any recorded Job Template attribute is still sent `print-color-mode`. -/
theorem rewriteRequest_sends_unadvertised :
    ippCodecRewriteRequest .unlimited .unlimited monochromeRequest.encode
        (octets "ipp://printer/ipp/print") (octets "ipp://printer") .zero =
      .ok (monochromeRequest.encode,monochromeRequest.attributesLength) ∧
    ¬ OnlyAdvertised .zero monochromeRequest.records := by
  constructor
  · decide +kernel
  · decide +kernel

/-- The condition is not vacuous: with the colour mode advertised the same request goes through
with its colour mode. -/
theorem rewriteRequest_onlyAdvertised_color :
    ∃ e e', decode monochromeRequest.encode = .ok e ∧ decode monochromeRequest.encode = .ok e' ∧
      (OnlyAdvertised (.withCap .zero JobCap.printColorMode) e'.records ↔
        (PrinterTarget.withCap .zero JobCap.printColorMode).legacyOutputMode = true ∨
        (PrinterTarget.withCap .zero JobCap.printColorMode).hasCap JobCap.printColorMode = true ∨
        ∀ r ∈ e.records, r.group = Tag.jobAttributes →
          r.attributeName ≠ octets "print-color-mode") :=
  rewriteRequest_onlyAdvertised_iff
    (show ippCodecRewriteRequest .unlimited .unlimited monochromeRequest.encode
        (octets "ipp://printer/ipp/print") (octets "ipp://printer")
        (.withCap .zero JobCap.printColorMode) =
      .ok (monochromeRequest.encode,monochromeRequest.attributesLength) by decide +kernel)

/-! ### The rewritten request, octet by octet -/

section
variable {n : ℕ} {mem mem' : Memory} {input printerUri authority : Bytes} {t : PrinterTarget}
  {upstreamDocumentFormat : Option Bytes}

/-- Both passes over the attributes. -/
def relayedItems (printerUri authority : Bytes) (t : PrinterTarget)
    (upstreamDocumentFormat : Option Bytes) (items : List Item) : List Item :=
  facadeItems t upstreamDocumentFormat [] 0 true (transformItems printerUri authority false 0 [] items)

/-- The request for the printer up to its document, but for its version. -/
def relayedEnvelope (printerUri authority : Bytes) (t : PrinterTarget)
    (upstreamDocumentFormat : Option Bytes) (e : Envelope) : Bytes :=
  e.header ++ (encodeItems (relayedItems printerUri authority t upstreamDocumentFormat e.items) ++
    [Tag.endAttributes])

/-- The rewritten message is a function of the attributes, and the document follows as it is. -/
theorem rewriteRequest_message {out : Bytes} {k : ℕ}
    (h : ippCodecRewriteRequestForFormatDiagnostic (n := n) mem mem' input printerUri authority t
      upstreamDocumentFormat = .ok (out,k)) :
    ∃ e, decode input = .ok e ∧
      out = relayedEnvelope printerUri authority t upstreamDocumentFormat e ++ e.document := by
  unfold ippCodecRewriteRequestForFormatDiagnostic at h
  split at h
  · cases h
  rename_i rewritten k' hrewrite
  obtain ⟨e,m,he,hm,-,hheader,hdocument,hitems⟩ := ippCodecRewrite_items printerUri authority hrewrite
  obtain ⟨m',e',hm',he',-,hheader',hdocument',hitems',-⟩ := normalizeFacadeJobDefaults_items h
  rw [hm] at hm'
  cases hm'
  refine ⟨e,he,?_⟩
  rw [← encode_of_decode he']
  simp only [Envelope.encode, Envelope.attributes, hheader', hheader, hitems', hitems, hdocument',
    hdocument, relayedEnvelope, relayedItems, List.append_assoc]

/-! What a rewritten request can grow to. -/

/-- No record grows by more than `grown` octets, and at most as many are added as there are. -/
theorem length_encodeItems_editItems {drops : UInt8 → Bytes → Bool}
    {newData : UInt8 → Bytes → Bytes → Bytes} {grown : ℕ}
    (h : ∀ tag name value, (newData tag name value).length ≤ value.length + grown) (group : UInt8)
    (current : Bytes) (items : List Item) :
    (editItems drops newData group current items).length ≤ items.length ∧
      (encodeItems (editItems drops newData group current items)).length ≤
        (encodeItems items).length + grown * items.length := by
  induction items generalizing group current with
  | nil => exact ⟨le_rfl,le_rfl⟩
  | cons i items ih =>
    cases i with
    | group tag =>
      obtain ⟨hcount,hlength⟩ := ih tag []
      simp only [editItems, encodeItems_cons, Item.encode, List.length_append, List.length_cons,
        List.length_nil, Nat.mul_add] at hcount hlength ⊢
      omega
    | value tag name value =>
      obtain ⟨hcount,hlength⟩ := ih group (carryName current name)
      have hvalue := h tag (carryName current name) value
      simp only [editItems]
      split
      · simp only [encodeItems_cons, Item.encode, List.length_append, List.length_cons,
          Nat.mul_add] at hcount hlength ⊢
        omega
      · simp only [encodeItems_cons, Item.encode, u16, List.length_append, List.length_cons,
          List.length_nil, Nat.mul_add] at hcount hlength ⊢
        omega

theorem rewrittenValue_length (printerUri authority : Bytes) (tag : UInt8) (name value : Bytes) :
    (rewrittenValue printerUri authority tag name value).length ≤
      value.length + (22 + printerUri.length + authority.length) := by
  have hpath := (uriPath_suffix value).length_le
  have huri := cstr_length_le printerUri
  have hauthority := cstr_length_le authority
  have hjoined := cstr_length_le (cstr authority ++ uriPath value)
  rw [List.length_append] at hjoined
  unfold rewrittenValue newValue
  split
  · unfold rewriteUri
    have hinfo : (octets "http://espresso.local/").length = 22 := by decide
    split_ifs
    · rw [Option.getD_some, hinfo]
      omega
    · rw [Option.getD_some]
      omega
    · rw [Option.getD_some]
      omega
    · rw [Option.getD_none]
      omega
  · rw [Option.getD_some]
    omega

theorem outputName_grows (t : PrinterTarget) (own : Bytes) (group : UInt8) (name : Bytes) :
    (outputName own (replacementFor t group name)).length ≤ own.length + 11 := by
  rcases outputName_replacementFor own group name with h | ⟨-,h⟩
  · rw [h]
    omega
  · rw [h, show (octets "output-mode").length = 11 by decide]
    omega

theorem outputValue_grows (upstreamDocumentFormat : Option Bytes) (group tag : UInt8)
    (name value : Bytes) : (outputValue upstreamDocumentFormat group tag name value).length ≤
      value.length + (upstreamDocumentFormat.getD []).length := by
  unfold outputValue
  split
  · rename_i format
    have hformat := cstr_length_le format
    rw [Option.getD_some]
    split_ifs <;> omega
  · omega

theorem length_encodeItems_facadeItems (t : PrinterTarget) (upstreamDocumentFormat : Option Bytes)
    (current : Bytes) (group : UInt8) (emitted : Bool) (items : List Item) :
    (encodeItems (facadeItems t upstreamDocumentFormat current group emitted items)).length ≤
      (encodeItems items).length +
        (12 + (upstreamDocumentFormat.getD []).length) * items.length := by
  induction items generalizing current group emitted with
  | nil => exact Nat.le_add_right _ _
  | cons i items ih =>
    cases i with
    | group tag =>
      have hlength := ih [] tag false
      simp only [facadeItems, encodeItems_cons, Item.encode, List.length_append, List.length_cons,
        List.length_nil, Nat.mul_add] at hlength ⊢
      omega
    | value tag name value =>
      have hvalue := outputValue_grows upstreamDocumentFormat group tag (carryName current name)
        value
      by_cases hkeep : (groupAction t group (carryName current name) tag value).1 = .keep
      · have haction : groupAction t group (carryName current name) tag value =
            (.keep,(groupAction t group (carryName current name) tag value).2) :=
          Prod.ext hkeep rfl
        have hname := outputName_grows t name group (carryName current name)
        rw [← groupAction_eq_keep haction] at hname
        have hlength := ih (carryName current name) group true
        have hemitted : (encodeItems (if emitted then [] else [Item.group group])).length ≤ 1 := by
          cases emitted <;> simp [Item.encode]
        rw [facadeItems_value_keep t upstreamDocumentFormat emitted items haction]
        simp only [encodeItems_append, encodeItems_cons, Item.encode, u16, List.length_append,
          List.length_cons, List.length_nil, Nat.mul_add] at hlength hemitted ⊢
        omega
      · have hlength := ih (carryName current name) group emitted
        rw [facadeItems_value_drop t upstreamDocumentFormat emitted items hkeep]
        simp only [encodeItems_cons, List.length_append, List.length_cons, Nat.mul_add] at hlength ⊢
        omega

theorem length_le_encodeItems (items : List Item) : items.length ≤ (encodeItems items).length := by
  induction items with
  | nil => exact le_rfl
  | cons i items ih =>
    have hpos : 0 < i.encode.length := by cases i <;> exact Nat.succ_pos _
    rw [encodeItems_cons, List.length_append, List.length_cons]
    omega

/-- The rewritten envelope is at most as many times as long as a URI and a format are long. -/
theorem relayedEnvelope_length (printerUri authority : Bytes) (t : PrinterTarget)
    (upstreamDocumentFormat : Option Bytes) (e : Envelope) :
    (relayedEnvelope printerUri authority t upstreamDocumentFormat e).length ≤
      (35 + printerUri.length + authority.length + (upstreamDocumentFormat.getD []).length) *
        e.attributesLength := by
  have hcount := length_le_encodeItems e.items
  obtain ⟨hitems,hedit⟩ : (transformItems printerUri authority false 0 [] e.items).length ≤ _ ∧
      (encodeItems (transformItems printerUri authority false 0 [] e.items)).length ≤ _ :=
    length_encodeItems_editItems (rewrittenValue_length printerUri authority) 0 [] e.items
  have hfacade : (encodeItems (relayedItems printerUri authority t upstreamDocumentFormat
      e.items)).length ≤ _ := length_encodeItems_facadeItems t upstreamDocumentFormat [] 0 true
    (transformItems printerUri authority false 0 [] e.items)
  generalize hm : (upstreamDocumentFormat.getD []).length = m at *
  generalize hp : 22 + printerUri.length + authority.length = p at *
  have hfactor : 35 + printerUri.length + authority.length + m = p + (12 + m) + 1 := by omega
  have hheader : e.header.length = 8 := e.header_length
  have hattributes : e.attributesLength = 8 + (encodeItems e.items).length + 1 :=
    e.attributesLength_eq
  have hlength : (relayedEnvelope printerUri authority t upstreamDocumentFormat e).length =
      (encodeItems (relayedItems printerUri authority t upstreamDocumentFormat e.items)).length +
        9 := by
    simp only [relayedEnvelope, List.length_append, List.length_cons, List.length_nil, hheader]
    omega
  rw [hfactor, hattributes, hlength]
  calc (encodeItems (relayedItems printerUri authority t upstreamDocumentFormat e.items)).length + 9
      ≤ (encodeItems e.items).length + p * e.items.length + (12 + m) * e.items.length + 9 := by
        have hmono := Nat.mul_le_mul_left (12 + m) hitems
        omega
    _ ≤ (p + (12 + m) + 1) * (8 + (encodeItems e.items).length + 1) := by nlinarith

end

end Espresso.Codec
