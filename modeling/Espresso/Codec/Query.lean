import Espresso.Codec.OperationOrder
import Espresso.Codec.Selectors

/-! The Get-Printer-Attributes request that the bridge makes itself, and what it reads as. -/
namespace Espresso.Codec

section
variable (major minor : UInt8) (requestId : ℕ) (printerUri : Bytes)
  (includeMediaColDatabase : Bool) (documentFormat : Option Bytes)

def queryHeader : Bytes := [major,minor] ++ u16 Operation.getPrinterAttributes ++ u32 requestId

/-- The format that is asked about; none is the same as an empty one. -/
def queryFormat : Bytes := cstr (documentFormat.getD [])

/-- The values in the order in which they are appended. -/
def queryValues : List Item :=
  [named Tag.charset "attributes-charset" (octets "utf-8"),
   named Tag.language "attributes-natural-language" (octets "en"),
   named Tag.uri "printer-uri" (cstr printerUri),
   named Tag.keyword "requested-attributes" (octets "all")] ++
  (if queryFormat documentFormat ≠ [] then
    [named Tag.mimeType "document-format" (queryFormat documentFormat)] else []) ++
  (if includeMediaColDatabase then [additional Tag.keyword (octets "media-col-database")] else [])

def ippCodecBuildGetPrinterAttributesForFormat (mem : Memory) : Except CodecError Bytes :=
  if major = 0 then .error .malformed
  else match append mem [] (queryHeader major minor requestId ++ [Tag.operationAttributes]) with
    | none => .error .noMemory
    | some request =>
      match appendItems mem request
          (queryValues printerUri includeMediaColDatabase documentFormat) with
      | none => .error .noMemory
      | some request =>
        match append mem request [Tag.endAttributes] with
        | none => .error .noMemory
        | some request => .ok request

end

/-- The message reads as the arguments it was made from. -/
structure ReadsAs (out : Bytes) (major minor : UInt8) (requestId : ℕ)
    (includeMediaColDatabase : Bool) (documentFormat : Option Bytes) (info : RequestInfo) :
    Prop where
  accepted : ippCodecInspectRequest out = .ok info
  major_eq : info.major = major
  minor_eq : info.minor = minor
  requestId_eq : info.requestId = requestId
  operation : info.operationId = Operation.getPrinterAttributes
  valid : info.operationAttributesValid = true
  noDocument : info.hasDocument = false
  format : info.documentFormat.val = queryFormat documentFormat
  requested : info.requestedAttributes.val =
    octets (if includeMediaColDatabase then "all,media-col-database" else "all")

section
variable {major minor : UInt8} {requestId : ℕ} {printerUri : Bytes}
  {includeMediaColDatabase : Bool} {documentFormat : Option Bytes} {mem : Memory}

/-- The attributes that the values add up to: an unnamed value continues what was appended last. -/
def queryAttributes (printerUri : Bytes) (includeMediaColDatabase : Bool)
    (documentFormat : Option Bytes) : List (String × List (UInt8 × Bytes)) :=
  let more := only includeMediaColDatabase [str Tag.keyword "media-col-database"]
  [("attributes-charset",[str Tag.charset "utf-8"]),
   ("attributes-natural-language",[str Tag.language "en"]),
   ("printer-uri",[(Tag.uri,cstr printerUri)])] ++
  if queryFormat documentFormat ≠ [] then
    [("requested-attributes",[str Tag.keyword "all"]),
     ("document-format",(Tag.mimeType,queryFormat documentFormat) :: more)]
  else [("requested-attributes",str Tag.keyword "all" :: more)]

theorem queryValues_eq : queryValues printerUri includeMediaColDatabase documentFormat =
    attributeList (queryAttributes printerUri includeMediaColDatabase documentFormat) := by
  unfold queryValues queryAttributes
  cases includeMediaColDatabase with
  | false => split <;> rfl
  | true => split <;> rfl

theorem queryAttributes_ok :
    AttributesOk (queryAttributes printerUri includeMediaColDatabase documentFormat) := by
  have hplain : ∀ name ∈ ["attributes-charset","attributes-natural-language","printer-uri",
      "requested-attributes","document-format"], Plain name := by decide +kernel
  simp only [List.forall_mem_cons] at hplain
  obtain ⟨h1,h2,h3,h4,h5,-⟩ := hplain
  have hmore : TagsOk (only includeMediaColDatabase [str Tag.keyword "media-col-database"]) :=
    tagsOk_only rfl
  unfold AttributesOk queryAttributes
  simp only [List.cons_append, List.nil_append, List.forall_mem_cons]
  refine ⟨⟨h1,rfl⟩,⟨h2,rfl⟩,⟨h3,rfl⟩,?_⟩
  split
  · simp only [List.forall_mem_cons]
    exact ⟨⟨h4,rfl⟩,⟨h5,hmore⟩,nofun⟩
  · simp only [List.forall_mem_cons]
    exact ⟨⟨h4,hmore⟩,nofun⟩

theorem queryValues_fits (huri : (cstr printerUri).length < 65536)
    (hformat : (queryFormat documentFormat).length < 65536) :
    ∀ i ∈ queryValues printerUri includeMediaColDatabase documentFormat, i.Fits := by
  have hshort : ∀ s ∈ ["attributes-charset","utf-8","attributes-natural-language","en","printer-uri",
      "requested-attributes","all","document-format","media-col-database"],
      (octets s).length < 65536 := by decide +kernel
  simp only [List.forall_mem_cons] at hshort
  obtain ⟨h1,h2,h3,h4,h5,h6,h7,h8,h9,-⟩ := hshort
  unfold queryValues
  cases includeMediaColDatabase <;> split <;>
    simp [named, additional, Item.Fits, h1, h2, h3, h4, h5, h6, h7, h8, h9, huri, hformat]

/-- The request that is built. -/
def queryEnvelope (major minor : UInt8) (requestId : ℕ) (includeMediaColDatabase : Bool)
    (huri : (cstr printerUri).length < 65536)
    (hformat : (queryFormat documentFormat).length < 65536) : Envelope where
  header := queryHeader major minor requestId
  items := .group Tag.operationAttributes ::
    queryValues printerUri includeMediaColDatabase documentFormat
  document := []
  header_length := rfl
  items_ok := by
    refine ⟨by decide,by decide,?_⟩
    have hfits := @queryValues_fits _ includeMediaColDatabase _ huri hformat
    rw [queryValues_eq] at hfits ⊢
    refine @attributeList_ok _ [] queryAttributes_ok fun i hi => ?_
    have hi := hfits i hi
    cases i with
    | group tag => trivial
    | value tag name data => exact hi.2

/-- Memory aside, that is what is returned. -/
theorem build_eq (hmajor : major ≠ 0) (huri : (cstr printerUri).length < 65536)
    (hformat : (queryFormat documentFormat).length < 65536) :
    (ippCodecBuildGetPrinterAttributesForFormat major minor requestId printerUri
        includeMediaColDatabase documentFormat mem = .error .noMemory ∧ mem.Refuses) ∨
      ippCodecBuildGetPrinterAttributesForFormat major minor requestId printerUri
        includeMediaColDatabase documentFormat mem =
          .ok (queryEnvelope major minor requestId includeMediaColDatabase huri hformat).encode := by
  unfold ippCodecBuildGetPrinterAttributesForFormat
  rw [if_neg hmajor]
  split
  · rename_i ha
    exact .inl ⟨rfl,append_none ha⟩
  rename_i request hrequest
  split
  · rename_i ha
    refine .inl ⟨rfl,(appendItems_none ha).resolve_right ?_⟩
    rintro ⟨i,hi,hlong⟩
    exact hlong (queryValues_fits huri hformat i hi)
  rename_i request' hvalues
  split
  · rename_i ha
    exact .inl ⟨rfl,append_none ha⟩
  rename_i request'' hend
  refine .inr (congrArg _ ?_)
  rw [append_some hend, (appendItems_some hvalues).1, append_some hrequest]
  simp [Envelope.encode, Envelope.attributes, queryEnvelope, Item.encode]

/-- A value of the request. -/
def queryRecord (name : String) (v : UInt8 × Bytes) : Record :=
  ⟨Tag.operationAttributes,octets name,v.1,v.2⟩

theorem queryEnvelope_records (huri : (cstr printerUri).length < 65536)
    (hformat : (queryFormat documentFormat).length < 65536) :
    (queryEnvelope major minor requestId includeMediaColDatabase huri hformat).records =
      (queryAttributes printerUri includeMediaColDatabase documentFormat).flatMap
        fun a => a.2.map (queryRecord a.1) := by
  rw [Envelope.records, queryEnvelope, recordsFrom, queryValues_eq,
    recordsFrom_attributeList queryAttributes_ok]
  rfl

theorem queryRecord_names : ∀ name ∈ ["attributes-charset","attributes-natural-language",
    "printer-uri","requested-attributes","document-format"], cstr (octets name) = octets name := by
  decide +kernel

theorem groupTags_attributeList (attributes : List (String × List (UInt8 × Bytes))) :
    groupTags (attributeList attributes) = [] := by
  have hitems : ∀ name values, groupTags (attributeItems name values) = [] := by
    intro name values
    cases values with
    | nil => rfl
    | cons v vs =>
      induction vs with
      | nil => rfl
      | cons w vs ih => exact ih
  induction attributes with
  | nil => rfl
  | cons a as ih =>
    have hsplit : groupTags (attributeList (a :: as)) =
        groupTags (attributeItems a.1 a.2) ++ groupTags (attributeList as) := by
      simp [groupTags, attributeList]
    rw [hsplit, hitems, ih]
    rfl

/-- The operation attributes are in order. -/
theorem queryEnvelope_valid (huri : (cstr printerUri).length < 65536)
    (hformat : (queryFormat documentFormat).length < 65536) :
    (queryEnvelope major minor requestId includeMediaColDatabase huri
      hformat).inspect.operationAttributesValid = true := by
  have hnames := queryRecord_names
  simp only [List.forall_mem_cons] at hnames
  obtain ⟨h1,h2,h3,h4,h5,-⟩ := hnames
  have htags : groupTags (queryEnvelope major minor requestId includeMediaColDatabase huri
      hformat).items = [Tag.operationAttributes] := by
    change Tag.operationAttributes :: groupTags (queryValues _ _ _) = _
    rw [queryValues_eq, groupTags_attributeList]
  rw [Envelope.inspect_valid]
  refine ⟨by rw [htags]; rfl,by rw [htags]; rfl,?_⟩
  have hall : (queryAttributes printerUri includeMediaColDatabase documentFormat).flatMap
      (fun a => a.2.map (queryRecord a.1)) = queryRecord "attributes-charset" (str Tag.charset "utf-8") ::
        queryRecord "attributes-natural-language" (str Tag.language "en") ::
        ((queryAttributes printerUri includeMediaColDatabase documentFormat).drop 2).flatMap
          fun a => a.2.map (queryRecord a.1) := rfl
  rw [queryEnvelope_records, List.filter_eq_self.mpr, hall]
  · refine ⟨_,_,_,rfl,?_,?_,?_⟩
    · simp [queryRecord, Record.isCharset, Record.attributeName, h1, str]
    · simp [queryRecord, Record.isLanguage, Record.attributeName, h2, str]
    · have htag : ∀ a ∈ (queryAttributes printerUri includeMediaColDatabase documentFormat).drop 2,
          ∀ v ∈ a.2, v.1 = Tag.uri ∨ v.1 = Tag.keyword ∨ v.1 = Tag.mimeType := by
        unfold queryAttributes only
        by_cases hne : queryFormat documentFormat = []
        · cases includeMediaColDatabase <;> simp [hne, str, or_imp, forall_and]
        · cases includeMediaColDatabase <;> simp [hne, str, or_imp, forall_and]
      intro r hr
      obtain ⟨a,ha,hr⟩ := List.mem_flatMap.mp hr
      obtain ⟨v,hv,rfl⟩ := List.mem_map.mp hr
      have hne : v.1 ≠ Tag.charset ∧ v.1 ≠ Tag.language := by
        rcases htag a ha v hv with h | h | h <;> rw [h] <;> decide
      simp [queryRecord, Record.isCharset, Record.isLanguage, hne]
  · intro r hr
    obtain ⟨a,ha,hr⟩ := List.mem_flatMap.mp hr
    obtain ⟨v,hv,rfl⟩ := List.mem_map.mp hr
    simp [isOperation, queryRecord]

theorem queryEnvelope_documentFormat (huri : (cstr printerUri).length < 65536)
    (hformat : (queryFormat documentFormat).length < 65536)
    (hshort : (queryFormat documentFormat).length < 64) :
    (queryEnvelope major minor requestId includeMediaColDatabase huri
      hformat).inspect.documentFormat.val = queryFormat documentFormat := by
  have hnames := queryRecord_names
  simp only [List.forall_mem_cons] at hnames
  obtain ⟨h1,h2,h3,h4,h5,-⟩ := hnames
  have htag : Tag.keyword ≠ Tag.mimeType := by decide
  have hcopy : (Text.copy 64 (queryFormat documentFormat)).val = queryFormat documentFormat :=
    Text.copy_val (zero_notMem_cstr _) (by omega)
  rw [Envelope.inspect_documentFormat, Envelope.documentFormats, queryEnvelope_records]
  unfold queryAttributes only
  by_cases hne : queryFormat documentFormat = []
  · cases includeMediaColDatabase <;>
      simp [hne, queryRecord, Record.isDocumentFormat, Record.attributeName, h1, h2, h3, h4, str]
  · cases includeMediaColDatabase <;>
      simp [hne, queryRecord, Record.isDocumentFormat, Record.attributeName, h1, h2, h3, h4, h5, str,
        hcopy, htag]

theorem queryEnvelope_selectorValues (huri : (cstr printerUri).length < 65536)
    (hformat : (queryFormat documentFormat).length < 65536) :
    (queryEnvelope major minor requestId includeMediaColDatabase huri hformat).selectorValues =
      octets "all" :: if includeMediaColDatabase ∧ queryFormat documentFormat = [] then
        [octets "media-col-database"] else [] := by
  have hnames := queryRecord_names
  simp only [List.forall_mem_cons] at hnames
  obtain ⟨h1,h2,h3,h4,h5,-⟩ := hnames
  rw [Envelope.selectorValues, queryEnvelope_records]
  unfold queryAttributes only
  by_cases hne : queryFormat documentFormat = []
  · cases includeMediaColDatabase <;>
      simp [hne, queryRecord, Record.isSelector, Record.attributeName, h1, h2, h3, h4, str]
  · cases includeMediaColDatabase <;>
      simp [hne, queryRecord, Record.isSelector, Record.attributeName, h1, h2, h3, h4, h5, str]

/-- The header fields of a summary. -/
def RequestInfo.headerFields (info : RequestInfo) : UInt8 × UInt8 × ℕ × ℕ :=
  (info.major,info.minor,info.operationId,info.requestId)

theorem Envelope.inspect_headerFields (e : Envelope) :
    e.inspect.headerFields = (RequestInfo.ofHeader e.header).headerFields := by
  have hview := @Envelope.inspect_view _ RequestInfo.headerFields (fun old _ => old)
    (fun _ _ => rfl) (fun _ _ _ => rfl) (by
      intro info r
      unfold InspectState.readValue
      simp only
      split_ifs <;> first | rfl | (split <;> rfl)) e
  rw [hview]
  generalize e.records = rs
  induction rs with
  | nil => rfl
  | cons r rs ih => exact ih

theorem queryEnvelope_headerFields (hid : requestId < 4294967296)
    (huri : (cstr printerUri).length < 65536)
    (hformat : (queryFormat documentFormat).length < 65536) :
    (queryEnvelope major minor requestId includeMediaColDatabase huri hformat).inspect.headerFields =
      (major,minor,Operation.getPrinterAttributes,requestId) := by
  have hcode : readU16 (UInt8.ofNat (Operation.getPrinterAttributes / 256))
      (UInt8.ofNat Operation.getPrinterAttributes) = Operation.getPrinterAttributes := by decide
  rw [Envelope.inspect_headerFields]
  simp only [RequestInfo.headerFields, RequestInfo.ofHeader, queryEnvelope, queryHeader, u16, u32,
    List.cons_append, List.nil_append, List.getD_cons_zero, List.getD_cons_succ, hcode,
    readU32_u32 requestId hid]

theorem requested_all : (([octets "all"].foldl csvAddSplit
    (.empty : Text ippRequestedAttributesMax))).val = octets "all" := by
  decide +kernel

theorem requested_all_media : (([octets "all",octets "media-col-database"].foldl csvAddSplit
    (.empty : Text ippRequestedAttributesMax))).val = octets "all,media-col-database" := by
  decide +kernel

/-- Behind a document format the media database is not asked for. -/
theorem queryEnvelope_not_readsAs (huri : (cstr printerUri).length < 65536)
    (hformat : (queryFormat documentFormat).length < 65536)
    (hne : queryFormat documentFormat ≠ []) (info : RequestInfo) :
    ¬ ReadsAs (queryEnvelope major minor requestId true huri hformat).encode major minor requestId
      true documentFormat info := by
  intro hinfo
  obtain ⟨e,he,hinspect⟩ := inspect_ok_iff.mp hinfo.accepted
  rw [decode_encode] at he
  cases he
  have hall := hinfo.requested
  rw [hinspect, Envelope.inspect_requestedAttributes, queryEnvelope_selectorValues,
    if_neg (fun h => hne h.2), requested_all, if_pos rfl, octets_inj] at hall
  exact absurd hall (by decide)

/-- The request reads as its arguments, but for the media database: appended last, it continues the
document format where one is given. -/
theorem build_reads_iff (mem : Memory) (minor : UInt8) (includeMediaColDatabase : Bool)
    (hmajor : major ≠ 0) (hid : requestId < 4294967296)
    (huri : (cstr printerUri).length < 65536) (hformat : (queryFormat documentFormat).length < 64) :
    (ippCodecBuildGetPrinterAttributesForFormat major minor requestId printerUri
        includeMediaColDatabase documentFormat mem = .error .noMemory ∧ mem.Refuses) ∨
      ∃ out, ippCodecBuildGetPrinterAttributesForFormat major minor requestId printerUri
          includeMediaColDatabase documentFormat mem = .ok out ∧
        ((∃ info, ReadsAs out major minor requestId includeMediaColDatabase documentFormat info) ↔
          ¬ (includeMediaColDatabase = true ∧ queryFormat documentFormat ≠ [])) := by
  have hformat' : (queryFormat documentFormat).length < 65536 := by omega
  refine (build_eq hmajor huri hformat').imp_right fun hbuild => ⟨_,hbuild,?_⟩
  constructor
  · rintro ⟨info,hinfo⟩ ⟨rfl,hne⟩
    exact queryEnvelope_not_readsAs huri hformat' hne info hinfo
  · intro hcond
    have hfields := @queryEnvelope_headerFields major minor requestId _ includeMediaColDatabase _
      hid huri hformat'
    simp only [RequestInfo.headerFields, Prod.mk.injEq] at hfields
    refine ⟨_,inspect_ok_iff.mpr ⟨_,decode_encode _,rfl⟩,hfields.1,hfields.2.1,hfields.2.2.2,
      hfields.2.2.1,queryEnvelope_valid huri hformat',rfl,
      queryEnvelope_documentFormat huri hformat' hformat,?_⟩
    rw [Envelope.inspect_requestedAttributes, queryEnvelope_selectorValues]
    cases includeMediaColDatabase with
    | false => exact requested_all
    | true =>
      have hnil : queryFormat documentFormat = [] := by simpa using hcond
      rw [if_pos ⟨rfl,hnil⟩]
      exact requested_all_media

end

/-- The capability query for URF: the media database becomes a value of the document format. -/
theorem build_reads_urf : ∃ out,
    ippCodecBuildGetPrinterAttributesForFormat 2 0 1 (octets "ipp://printer/ipp") true
      (some (octets "image/urf")) Memory.unlimited = .ok out ∧
    ¬ ∃ info, ReadsAs out 2 0 1 true (some (octets "image/urf")) info := by
  have huri : (cstr (octets "ipp://printer/ipp")).length < 65536 := by decide +kernel
  have hformat : (queryFormat (some (octets "image/urf"))).length < 65536 := by decide +kernel
  have hmajor : (2 : UInt8) ≠ 0 := by decide
  rcases @build_eq 2 0 1 _ true _ Memory.unlimited hmajor huri hformat with h | h
  · exact absurd h.2 Memory.unlimited_not_refuses
  · refine ⟨_,h,?_⟩
    rintro ⟨info,hinfo⟩
    exact queryEnvelope_not_readsAs huri hformat (by decide +kernel) info hinfo

theorem build_reads_all : (2 : UInt8) ≠ 0 ∧
    ((ippCodecBuildGetPrinterAttributesForFormat 2 0 1 (octets "ipp://printer/ipp") true none
        Memory.unlimited = .error .noMemory ∧ Memory.unlimited.Refuses) ∨
      ∃ out, ippCodecBuildGetPrinterAttributesForFormat 2 0 1 (octets "ipp://printer/ipp") true none
          Memory.unlimited = .ok out ∧
        ((∃ info, ReadsAs out 2 0 1 true none info) ↔ ¬ (true = true ∧ queryFormat none ≠ []))) :=
  ⟨by decide,build_reads_iff Memory.unlimited 0 true (by decide) (by decide) (by decide +kernel)
    (by decide +kernel)⟩

end Espresso.Codec
