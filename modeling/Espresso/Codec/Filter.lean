import Espresso.Codec.Record
import Espresso.Codec.Walk
import Espresso.Codec.Text

/-! `ipp_codec_filter_response`: a response reduced to the attributes a client asked for. A missing
selector list is the empty list here; the code treats both alike. -/
namespace Espresso.Codec

namespace RequestedGroup
abbrev jobTemplate : ℕ := 1 <<< 0
abbrev jobDescription : ℕ := 1 <<< 1
abbrev printerDescription : ℕ := 1 <<< 2
end RequestedGroup

def requestedGroupSelectors : List (String × ℕ) :=
  [("job-template",RequestedGroup.jobTemplate), ("job-description",RequestedGroup.jobDescription),
   ("printer-description",RequestedGroup.printerDescription)]

def jobTemplateAttributes : List String :=
  ["copies","finishings","finishings-col","finishing-template","job-account-id",
   "job-accounting-user-id","job-hold-until","job-priority","job-sheets","job-sheets-col","media",
   "media-col","multiple-document-handling","number-up","orientation-requested","output-bin",
   "page-ranges","pages-ranges","print-color-mode","print-content-optimize","print-quality",
   "print-rendering-intent","printer-resolution","sheet-collate","sides"]

def printerJobTemplateSuffixes : List String := ["-default","-supported","-ready"]

def explicitOnlyPrinterAttributes : List String := ["media-col-database"]

def attributeNameEquals (name : Bytes) (expected : String) : Bool :=
  equalSpan name (octets expected)

def isJobTemplateAttribute (delimiterTag : UInt8) (name : Bytes) : Bool :=
  jobTemplateAttributes.any fun base =>
    let length := (octets base).length
    delimiterTag = Tag.jobAttributes && attributeNameEquals name base ||
    delimiterTag = Tag.printerAttributes && length < name.length &&
      equalSpan (name.take length) (octets base) &&
      printerJobTemplateSuffixes.any (attributeNameEquals (name.drop length))

def isExplicitOnlyPrinterAttribute (name : Bytes) : Bool :=
  explicitOnlyPrinterAttributes.any (attributeNameEquals name)

def classifyResponseAttribute (delimiterTag : UInt8) (name : Bytes) : ℕ :=
  if delimiterTag = Tag.printerAttributes then
    if isExplicitOnlyPrinterAttribute name then 0
    else if isJobTemplateAttribute delimiterTag name then RequestedGroup.jobTemplate
    else RequestedGroup.printerDescription
  else if delimiterTag = Tag.jobAttributes then
    if isJobTemplateAttribute delimiterTag name then RequestedGroup.jobTemplate
    else RequestedGroup.jobDescription
  else 0

def requestedGroupMask (requestedAttributes : Bytes) : ℕ :=
  requestedGroupSelectors.foldl (fun groups selector =>
    if csvContains requestedAttributes (octets selector.1) then groups ||| selector.2
    else groups) 0

inductive ResponseKind
  | printer
  | job
  deriving DecidableEq, Repr

def ResponseKind.filteredGroup : ResponseKind → UInt8
  | .printer => Tag.printerAttributes
  | .job => Tag.jobAttributes

section
variable (mem : Memory) (kind : ResponseKind) (requestedAttributes : Bytes)

/-- The attribute is left out of the response. -/
def filtersOut (group : UInt8) (name : Bytes) : Bool :=
  let attributeGroup := classifyResponseAttribute group name
  let requestAll := requestedAttributes = [] || csvContains requestedAttributes (octets "all")
  !(group ≠ kind.filteredGroup || csvContains requestedAttributes name ||
    requestAll && attributeGroup ≠ 0 ||
    attributeGroup &&& requestedGroupMask requestedAttributes ≠ 0)

/-- Locals of the loop: the response so far and the group. -/
structure FilterState where
  result : Bytes
  currentGroup : UInt8

/-- The loop of `ipp_codec_filter_response`: a record is copied as it stands, in one piece. -/
def filterWalker : Walker FilterState CodecError where
  onGroup s tag :=
    match append mem s.result [tag] with
    | none => .error .noMemory
    | some result => .ok ⟨result,tag⟩
  onValue s current tag name value :=
    if filtersOut kind requestedAttributes s.currentGroup current then .ok s
    else
      match append mem s.result (Item.value tag name value).encode with
      | none => .error .noMemory
      | some result => .ok { s with result := result }
  onFault _ e := e

/-- Returns the output and the offset of the document in it. -/
def ippCodecFilterResponse (input : Bytes) : Except CodecError (Bytes × ℕ) :=
  if input.length < ippHeaderLength then .error .incomplete
  else match append mem [] (input.take ippHeaderLength) with
    | none => .error .noMemory
    | some result =>
      match (filterWalker mem kind requestedAttributes).walk ⟨result,0⟩ []
          (input.drop ippHeaderLength) with
      | .error e => .error e
      | .ok (s,rest) =>
        match append mem s.result [Tag.endAttributes] with
        | none => .error .noMemory
        | some result =>
          match append mem result rest with
          | none => .error .noMemory
          | some output => .ok (output,result.length)

end

section
variable {mem : Memory} {kind : ResponseKind} {requestedAttributes : Bytes}

/-- The items that stay. -/
abbrev filterItems (kind : ResponseKind) (requestedAttributes : Bytes) :
    UInt8 → Bytes → List Item → List Item :=
  editItems (filtersOut kind requestedAttributes) fun _ _ value => value

theorem filterWalker_fold_ok {s s' : FilterState} {current : Bytes} {items : List Item}
    (h : (filterWalker mem kind requestedAttributes).fold s current items = .ok s') :
    s'.result = s.result ++
      encodeItems (filterItems kind requestedAttributes s.currentGroup current items) := by
  induction items generalizing s current with
  | nil => cases h; simp [filterItems, editItems]
  | cons i is ih =>
    cases i with
    | group tag =>
      obtain ⟨s1,hs1,h⟩ := Walker.fold_group_ok h
      simp only [filterWalker] at hs1
      split at hs1
      · cases hs1
      rename_i result hresult
      cases hs1
      rw [ih h, append_some hresult]
      simp [filterItems, editItems, Item.encode]
    | value tag name value =>
      obtain ⟨s1,hs1,h⟩ := Walker.fold_value_ok h
      simp only [filterWalker] at hs1
      simp only [filterItems, editItems]
      split at hs1
      · rename_i hskip
        cases hs1
        rw [ih h, if_pos hskip]
      rename_i hskip
      split at hs1
      · cases hs1
      rename_i result hresult
      cases hs1
      rw [ih h, append_some hresult, if_neg hskip, encodeItems_cons, List.append_assoc]

theorem filterWalker_raises {input : Bytes} {e : CodecError}
    (h : (filterWalker mem kind requestedAttributes).Raises input e) :
    e = .noMemory ∧ mem.Refuses := by
  rcases h with ⟨s,tag,h⟩ | ⟨s,current,tag,name,value,-,-,-,h⟩
  · simp only [filterWalker] at h
    split at h
    · rename_i ha; cases h; exact ⟨rfl,append_none ha⟩
    · cases h
  · simp only [filterWalker] at h
    split at h
    · cases h
    split at h
    · rename_i ha; cases h; exact ⟨rfl,append_none ha⟩
    · cases h

/-- Filtering keeps the lengths of the values it keeps. -/
theorem filterItems_short {group : UInt8} {current : Bytes} {items : List Item}
    (h : ItemsOk current items) :
    ∀ i ∈ filterItems kind requestedAttributes group current items, i.Short := by
  induction items generalizing group current with
  | nil => simp [filterItems, editItems]
  | cons i is ih =>
    cases i with
    | group tag => simpa [filterItems, editItems, Item.Short] using ih h.2.2
    | value tag name value =>
      obtain ⟨hvalue,hrest⟩ := h
      simp only [filterItems, editItems]
      split
      · exact ih hrest
      · intro i hi
        rcases List.mem_cons.mp hi with rfl | hi
        · exact hvalue.2.2.1
        · exact ih hrest i hi

/-- The filtered response, item by item. -/
theorem ippCodecFilterResponse_items {input out : Bytes} {k : ℕ}
    (h : ippCodecFilterResponse mem kind requestedAttributes input = .ok (out,k)) :
    ∃ e e', decode input = .ok e ∧ decode out = .ok e' ∧ k = e'.attributesLength ∧
      e'.header = e.header ∧ e'.document = e.document ∧
      e'.items = filterItems kind requestedAttributes 0 [] e.items := by
  unfold ippCodecFilterResponse at h
  split at h
  · cases h
  rename_i hlen
  split at h
  · cases h
  rename_i result hresult
  split at h
  · cases h
  rename_i s rest hwalk
  split at h
  · cases h
  rename_i result' hend
  split at h
  · cases h
  rename_i output houtput
  cases h
  obtain ⟨e,he,hf,rfl⟩ := Walker.walk_message_ok hlen hwalk
  have hout := filterWalker_fold_ok hf
  have hstep := InStep.refl (filtersOut kind requestedAttributes) 0 []
  have hok := editItems_ok hstep e.items_ok (filterItems_short e.items_ok)
  have hmessage : result' = e.header ++ (encodeItems
      (filterItems kind requestedAttributes 0 (cstr []) e.items) ++ [Tag.endAttributes]) := by
    rw [append_some hend, hout, append_some hresult, header_of_decode he]
    simp
  refine ⟨e,⟨e.header,_,e.document,e.header_length,hok⟩,he,?_,?_,rfl,rfl,rfl⟩
  · rw [append_some houtput, hmessage, List.append_assoc, List.append_assoc, List.singleton_append,
      decode_parts e.header_length hok]
  · rw [hmessage]
    rfl

/-- The filtered response: same header, same document, the requested records. -/
theorem ippCodecFilterResponse_ok {input out : Bytes} {k : ℕ}
    (h : ippCodecFilterResponse mem kind requestedAttributes input = .ok (out,k)) :
    ∃ e e', decode input = .ok e ∧ decode out = .ok e' ∧ k = e'.attributesLength ∧
      e'.header = e.header ∧ e'.document = e.document ∧
      e'.records = e.records.filter fun r =>
        !filtersOut kind requestedAttributes r.group r.attributeName := by
  obtain ⟨e,e',he,he',hk,hheader,hdocument,hitems⟩ := ippCodecFilterResponse_items h
  refine ⟨e,e',he,he',hk,hheader,hdocument,?_⟩
  have hrecords := @recordsFrom_editItems _ (fun _ _ value => value) _ _ _ e.items
    (InStep.refl (filtersOut kind requestedAttributes) 0 [])
  rw [Envelope.records, hitems, Envelope.records]
  simpa using hrecords

theorem ippCodecFilterResponse_error {input : Bytes} {f : CodecError}
    (h : ippCodecFilterResponse mem kind requestedAttributes input = .error f) :
    (f = .noMemory ∧ mem.Refuses) ∨ decode input = .error f := by
  unfold ippCodecFilterResponse at h
  split at h
  · rename_i hlen
    cases h
    exact .inr (decode_of_short hlen)
  rename_i hlen
  split at h
  · rename_i ha; cases h; exact .inl ⟨rfl,append_none ha⟩
  split at h
  · rename_i hwalk
    cases h
    rcases Walker.walk_message_error hlen hwalk with hraise | ⟨-,f',hf,rfl⟩
    · exact .inl (filterWalker_raises hraise)
    · exact .inr hf
  split at h
  · rename_i ha; cases h; exact .inl ⟨rfl,append_none ha⟩
  split at h
  · rename_i ha; cases h; exact .inl ⟨rfl,append_none ha⟩
  · cases h

/-- Whatever can be decoded can be filtered, if there is the memory for it. -/
theorem ippCodecFilterResponse_succeeds {input : Bytes} {e : Envelope} (hmem : ¬ mem.Refuses)
    (he : decode input = .ok e) :
    ∃ out k, ippCodecFilterResponse mem kind requestedAttributes input = .ok (out,k) := by
  cases h : ippCodecFilterResponse mem kind requestedAttributes input with
  | ok result => exact ⟨result.1,result.2,rfl⟩
  | error f =>
    rcases ippCodecFilterResponse_error h with ⟨-,hrefuses⟩ | hdecode
    · exact absurd hrefuses hmem
    · cases he.symm.trans hdecode

end

end Espresso.Codec
