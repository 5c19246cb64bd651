import Espresso.Codec.Walk
import Espresso.Codec.Text

/-! `ipp_codec_inspect_request`: what the relay needs to know of a client request. -/
namespace Espresso.Codec

abbrev ippRequestedAttributesMax : ℕ := 1536

structure RequestInfo where
  major : UInt8
  minor : UInt8
  operationId : ℕ
  requestId : ℕ
  attributesLength : ℕ
  hasDocument : Bool
  hasAttributesCharset : Bool
  hasNaturalLanguage : Bool
  hasTargetUri : Bool
  hasJobId : Bool
  hasLastDocument : Bool
  lastDocument : Bool
  jobId : ℕ
  operationAttributesValid : Bool
  attributesCharset : Text 32
  documentFormat : Text 64
  jobName : Text 64
  requestedAttributes : Text ippRequestedAttributesMax
  deriving DecidableEq

/-- The record after the header has been read. -/
def RequestInfo.ofHeader (input : Bytes) : RequestInfo where
  major := input.getD 0 0
  minor := input.getD 1 0
  operationId := readU16 (input.getD 2 0) (input.getD 3 0)
  requestId := readU32 (input.getD 4 0) (input.getD 5 0) (input.getD 6 0) (input.getD 7 0)
  attributesLength := 0
  hasDocument := false
  hasAttributesCharset := false
  hasNaturalLanguage := false
  hasTargetUri := false
  hasJobId := false
  hasLastDocument := false
  lastDocument := false
  jobId := 0
  operationAttributesValid := true
  attributesCharset := .empty
  documentFormat := .empty
  jobName := .empty
  requestedAttributes := .empty

/-- Locals of the loop. -/
structure InspectState where
  info : RequestInfo
  currentGroup : UInt8
  operationAttributeIndex : ℕ
  sawGroup : Bool
  sawOperationGroup : Bool

namespace InspectState

def invalidIf (s : InspectState) (condition : Bool) : InspectState :=
  if condition then { s with info := { s.info with operationAttributesValid := false } } else s

def onGroup (s : InspectState) (tag : UInt8) : InspectState :=
  let operation : Bool := tag = Tag.operationAttributes
  { s.invalidIf (!s.sawGroup && !operation || operation && s.sawOperationGroup) with
    sawOperationGroup := s.sawOperationGroup || operation
    sawGroup := true
    currentGroup := tag }

/-- Charset first, natural language second, neither again. -/
def countOperationAttribute (s : InspectState) (name : Bytes) (tag : UInt8) : InspectState :=
  if s.currentGroup = Tag.operationAttributes then
    let isCharset : Bool := name = octets "attributes-charset" && tag = Tag.charset
    let isLanguage : Bool := name = octets "attributes-natural-language" && tag = Tag.language
    let index := s.operationAttributeIndex
    { s.invalidIf (index = 0 && !isCharset || index = 1 && !isLanguage ||
        1 < index && (isCharset || isLanguage)) with
      operationAttributeIndex := index + 1 }
  else s

def readValue (info : RequestInfo) (group : UInt8) (name : Bytes) (tag : UInt8) (value : Bytes) :
    RequestInfo :=
  let operation : Bool := group = Tag.operationAttributes
  if operation && name = octets "document-format" && tag = Tag.mimeType then
    { info with documentFormat := .copy 64 value }
  else if operation && name = octets "attributes-charset" && tag = Tag.charset then
    { info with hasAttributesCharset := true, attributesCharset := .copy 32 value }
  else if operation && name = octets "attributes-natural-language" && tag = Tag.language then
    { info with hasNaturalLanguage := true }
  else if operation && (name = octets "printer-uri" || name = octets "job-uri") &&
      tag = Tag.uri then
    { info with hasTargetUri := true }
  else if operation && name = octets "requested-attributes" && tag = Tag.keyword then
    { info with requestedAttributes := csvAddSplit info.requestedAttributes value }
  else if name = octets "job-name" && (tag = Tag.name || tag = Tag.text) then
    { info with jobName := .copy 64 value }
  else if operation && name = octets "job-id" && tag = Tag.integer && value.length = 4 then
    match value with
    | [a,b,c,d] => { info with hasJobId := true, jobId := readU32 a b c d }
    | _ => info
  else if operation && name = octets "last-document" && tag = Tag.boolean &&
      value.length = 1 then
    { info with hasLastDocument := true, lastDocument := value ≠ [0] }
  else info

def onValue (s : InspectState) (current : Bytes) (tag : UInt8) (value : Bytes) : InspectState :=
  let s := s.countOperationAttribute current tag
  { s with info := readValue s.info s.currentGroup current tag value }

end InspectState

def ippCodecInspectRequest (input : Bytes) : Except CodecError RequestInfo :=
  if input.length < ippHeaderLength then .error .incomplete
  else
    match (Walker.reader InspectState.onGroup InspectState.onValue fun _ e => e).walk
        ⟨.ofHeader input,0,0,false,false⟩ [] (input.drop ippHeaderLength) with
    | .error e => .error e
    | .ok (s,document) =>
      let s := s.invalidIf (!s.sawOperationGroup || s.operationAttributeIndex < 2)
      .ok { s.info with attributesLength := input.length - document.length
                        hasDocument := document ≠ [] }

/-- A loop that stops, with the value, at the first number under the name. -/
def u32Finder (attributeName : Bytes) : Walker Unit (Option ℕ) where
  onGroup _ _ := .ok ()
  onValue _ current tag _ value :=
    match value with
    | [a,b,c,d] =>
      if (tag = Tag.integer ∨ tag = Tag.enum) ∧ current = attributeName then
        .error (some (readU32 a b c d))
      else .ok ()
    | _ => .ok ()
  onFault _ _ := none

def ippCodecGetU32Attribute (input attributeName : Bytes) : Option ℕ :=
  if input.length < ippHeaderLength then none
  else match (u32Finder attributeName).walk () [] (input.drop ippHeaderLength) with
    | .error value => value
    | .ok _ => none

/-! ### Inspection of an envelope -/

/-- The record for a well-formed message. All of it but `hasDocument` is read off the attributes. -/
def Envelope.inspect (e : Envelope) : RequestInfo :=
  let s := Walker.readItems InspectState.onGroup InspectState.onValue
    ⟨.ofHeader e.header,0,0,false,false⟩ [] e.items
  let s := s.invalidIf (!s.sawOperationGroup || s.operationAttributeIndex < 2)
  { s.info with attributesLength := e.attributesLength, hasDocument := e.document ≠ [] }

theorem RequestInfo.ofHeader_take (input : Bytes) :
    ofHeader (input.take ippHeaderLength) = ofHeader input := by
  simp [ofHeader, ippHeaderLength]

/-- Inspection succeeds exactly on the well-formed messages, and fails as decoding does. -/
theorem ippCodecInspectRequest_eq (input : Bytes) :
    ippCodecInspectRequest input = (decode input).map Envelope.inspect := by
  unfold ippCodecInspectRequest
  by_cases hlen : input.length < ippHeaderLength
  · rw [if_pos hlen, decode_of_short hlen]
    rfl
  rw [if_neg hlen]
  cases hd : decode input with
  | error f =>
    obtain ⟨s',hw⟩ := Walker.reader_error InspectState.onGroup InspectState.onValue
      (fun _ e => e) hlen hd ⟨.ofHeader input,0,0,false,false⟩
    rw [hw]
    rfl
  | ok e =>
    have hlength : input.length - e.document.length = e.attributesLength := by
      rw [← encode_of_decode hd]
      simp [Envelope.encode, Envelope.attributesLength]
    rw [Walker.reader_ok _ _ _ hd, ← RequestInfo.ofHeader_take, header_of_decode hd]
    simp only [Except.map, Envelope.inspect, hlength]

end Espresso.Codec
