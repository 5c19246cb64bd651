import Espresso.Codec.Query

/-! The IPP responses that the bridge makes itself: a status, and perhaps a message. -/
namespace Espresso.Codec

/-! ### Messages with operation attributes only -/

/-- Header, operation attributes and their end, appended one after the other. -/
def appendMessage (mem : Memory) (header : Bytes) (items : List Item) : Option Bytes :=
  (append mem [] (header ++ [Tag.operationAttributes])).bind fun message =>
    (appendItems mem message items).bind fun message => append mem message [Tag.endAttributes]

theorem appendMessage_eq (mem : Memory) (header : Bytes) {items : List Item}
    (hfits : ∀ i ∈ items, i.Fits) :
    (appendMessage mem header items = none ∧ mem.Refuses) ∨
      appendMessage mem header items = some
        (header ++ (encodeItems (.group Tag.operationAttributes :: items) ++ [Tag.endAttributes])) := by
  unfold appendMessage
  cases hfirst : append mem [] (header ++ [Tag.operationAttributes]) with
  | none => exact .inl ⟨rfl,append_none hfirst⟩
  | some first =>
    rw [Option.bind_some]
    cases hitems : appendItems mem first items with
    | none =>
      refine .inl ⟨rfl,(appendItems_none hitems).resolve_right ?_⟩
      rintro ⟨i,hi,hlong⟩
      exact hlong (hfits i hi)
    | some second =>
      rw [Option.bind_some]
      cases hend : append mem second [Tag.endAttributes] with
      | none => exact .inl ⟨rfl,append_none hend⟩
      | some out =>
        refine .inr (congrArg some ?_)
        rw [append_some hend, (appendItems_some hitems).1, append_some hfirst]
        simp [encodeItems, Item.encode]

/-! ### The status response -/

section
variable (major minor : UInt8) (statusCode requestId : ℕ) (statusMessage : Option Bytes)

def statusHeader : Bytes := [major,minor] ++ u16 statusCode ++ u32 requestId

/-- No message is the same as an empty one. -/
def statusText : Bytes := cstr (statusMessage.getD [])

def statusAttributes : List (String × List (UInt8 × Bytes)) :=
  [("attributes-charset",[str Tag.charset "utf-8"]),
   ("attributes-natural-language",[str Tag.language "en"])] ++
  if statusText statusMessage ≠ [] then
    [("status-message",[(Tag.text,statusText statusMessage)])] else []

def ippCodecBuildStatusResponse (mem : Memory) : Except CodecError Bytes :=
  if major = 0 then .error .malformed
  else match appendMessage mem (statusHeader major minor statusCode requestId)
      (attributeList (statusAttributes statusMessage)) with
    | none => .error .noMemory
    | some response => .ok response

end

section
variable {major minor : UInt8} {statusCode requestId : ℕ} {statusMessage : Option Bytes}
  {mem : Memory}

theorem statusAttributes_names : ∀ name ∈ ["attributes-charset","attributes-natural-language",
    "status-message"], Plain name ∧ cstr (octets name) = octets name := by
  decide +kernel

theorem statusAttributes_ok : AttributesOk (statusAttributes statusMessage) := by
  have hnames := statusAttributes_names
  simp only [List.forall_mem_cons] at hnames
  obtain ⟨⟨h1,-⟩,⟨h2,-⟩,⟨h3,-⟩,-⟩ := hnames
  unfold AttributesOk statusAttributes
  simp only [List.cons_append, List.nil_append, List.forall_mem_cons]
  refine ⟨⟨h1,rfl⟩,⟨h2,rfl⟩,?_⟩
  split
  · simp only [List.forall_mem_cons]
    exact ⟨⟨h3,rfl⟩,nofun⟩
  · nofun

theorem statusAttributes_fits (htext : (statusText statusMessage).length < 65536) :
    ∀ i ∈ attributeList (statusAttributes statusMessage), i.Fits := by
  have hshort : ∀ s ∈ ["attributes-charset","utf-8","attributes-natural-language","en",
      "status-message"], (octets s).length < 65536 := by decide +kernel
  simp only [List.forall_mem_cons] at hshort
  obtain ⟨h1,h2,h3,h4,h5,-⟩ := hshort
  unfold statusAttributes attributeList
  split <;>
    simp [attributeItems, named, additional, str, Item.Fits, h1, h2, h3, h4, h5, htext]

/-- The response that is built. -/
def statusEnvelope (major minor : UInt8) (statusCode requestId : ℕ)
    (htext : (statusText statusMessage).length < 65536) : Envelope where
  header := statusHeader major minor statusCode requestId
  items := .group Tag.operationAttributes :: attributeList (statusAttributes statusMessage)
  document := []
  header_length := rfl
  items_ok := by
    refine ⟨by decide,by decide,?_⟩
    refine @attributeList_ok _ [] statusAttributes_ok fun i hi => ?_
    have hi := statusAttributes_fits htext i hi
    cases i with
    | group tag => trivial
    | value tag name data => exact hi.2

theorem buildStatusResponse_eq (hmajor : major ≠ 0)
    (htext : (statusText statusMessage).length < 65536) :
    (ippCodecBuildStatusResponse major minor statusCode requestId statusMessage mem =
        .error .noMemory ∧ mem.Refuses) ∨
      ippCodecBuildStatusResponse major minor statusCode requestId statusMessage mem =
        .ok (statusEnvelope major minor statusCode requestId htext).encode := by
  unfold ippCodecBuildStatusResponse
  rw [if_neg hmajor]
  rcases appendMessage_eq mem (statusHeader major minor statusCode requestId)
      (statusAttributes_fits htext) with ⟨hnone,hmem⟩ | hsome
  · rw [hnone]
    exact .inl ⟨rfl,hmem⟩
  · rw [hsome]
    refine .inr (congrArg Except.ok ?_)
    rw [Envelope.encode_eq]
    simp [statusEnvelope]

/-! ### What it reads as -/

def statusRecord (name : String) (v : UInt8 × Bytes) : Record :=
  ⟨Tag.operationAttributes,octets name,v.1,v.2⟩

theorem statusEnvelope_records (htext : (statusText statusMessage).length < 65536) :
    (statusEnvelope major minor statusCode requestId htext).records =
      statusRecord "attributes-charset" (str Tag.charset "utf-8") ::
      statusRecord "attributes-natural-language" (str Tag.language "en") ::
      if statusText statusMessage ≠ [] then
        [statusRecord "status-message" (Tag.text,statusText statusMessage)] else [] := by
  rw [Envelope.records, statusEnvelope, recordsFrom, recordsFrom_attributeList statusAttributes_ok]
  unfold statusAttributes
  split <;> rfl

theorem statusEnvelope_headerFields (hcode : statusCode < 65536) (hid : requestId < 4294967296)
    (htext : (statusText statusMessage).length < 65536) :
    (statusEnvelope major minor statusCode requestId htext).inspect.headerFields =
      (major,minor,statusCode,requestId) := by
  rw [Envelope.inspect_headerFields]
  simp only [RequestInfo.headerFields, RequestInfo.ofHeader, statusEnvelope, statusHeader, u16, u32,
    List.cons_append, List.nil_append, List.getD_cons_zero, List.getD_cons_succ,
    readU16_u16 statusCode hcode, readU32_u32 requestId hid]

theorem statusEnvelope_valid (htext : (statusText statusMessage).length < 65536) :
    (statusEnvelope major minor statusCode requestId htext).inspect.operationAttributesValid =
      true := by
  have hnames := statusAttributes_names
  simp only [List.forall_mem_cons] at hnames
  obtain ⟨⟨-,h1⟩,⟨-,h2⟩,⟨-,h3⟩,-⟩ := hnames
  have htags : groupTags (statusEnvelope major minor statusCode requestId htext).items =
      [Tag.operationAttributes] := by
    change Tag.operationAttributes :: groupTags (attributeList _) = _
    rw [groupTags_attributeList]
  rw [Envelope.inspect_valid]
  refine ⟨by rw [htags]; rfl,by rw [htags]; rfl,?_⟩
  rw [statusEnvelope_records, List.filter_eq_self.mpr]
  · refine ⟨_,_,_,rfl,?_,?_,?_⟩
    · simp [statusRecord, Record.isCharset, Record.attributeName, h1, str]
    · simp [statusRecord, Record.isLanguage, Record.attributeName, h2, str]
    · intro r hr
      split at hr
      · obtain rfl := List.mem_singleton.mp hr
        have hne : Tag.text ≠ Tag.charset ∧ Tag.text ≠ Tag.language := by decide
        simp [statusRecord, Record.isCharset, Record.isLanguage, hne]
      · cases hr
  · intro r hr
    split at hr <;> simp at hr
    · rcases hr with rfl | rfl | rfl <;> rfl
    · rcases hr with rfl | rfl <;> rfl

/-- The response says what it was made from, and nothing else. -/
structure StatusReads (out : Bytes) (major minor : UInt8) (statusCode requestId : ℕ)
    (statusMessage : Option Bytes) (e : Envelope) : Prop where
  decoded : decode out = .ok e
  header : e.inspect.headerFields = (major,minor,statusCode,requestId)
  valid : e.inspect.operationAttributesValid = true
  records : e.records =
    statusRecord "attributes-charset" (str Tag.charset "utf-8") ::
    statusRecord "attributes-natural-language" (str Tag.language "en") ::
    if statusText statusMessage ≠ [] then
      [statusRecord "status-message" (Tag.text,statusText statusMessage)] else []
  document : e.document = []

theorem buildStatusResponse_reads (mem : Memory) (minor : UInt8) (hmajor : major ≠ 0)
    (hcode : statusCode < 65536) (hid : requestId < 4294967296)
    (htext : (statusText statusMessage).length < 65536) :
    (ippCodecBuildStatusResponse major minor statusCode requestId statusMessage mem =
        .error .noMemory ∧ mem.Refuses) ∨
      ∃ out e, ippCodecBuildStatusResponse major minor statusCode requestId statusMessage mem =
        .ok out ∧ StatusReads out major minor statusCode requestId statusMessage e :=
  (buildStatusResponse_eq hmajor htext).imp_right fun hbuild => ⟨_,_,hbuild,decode_encode _,
    statusEnvelope_headerFields hcode hid htext,statusEnvelope_valid htext,
    statusEnvelope_records htext,rfl⟩

end

end Espresso.Codec
