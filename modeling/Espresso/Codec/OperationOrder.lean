import Espresso.Codec.Agreement

/-! The verdict `operation_attributes_valid`: the operation attributes come first, once, and begin
with the charset and the natural language. -/
namespace Espresso.Codec

def Record.isCharset (r : Record) : Bool :=
  r.attributeName = octets "attributes-charset" && r.tag = Tag.charset

def Record.isLanguage (r : Record) : Bool :=
  r.attributeName = octets "attributes-natural-language" && r.tag = Tag.language

def groupTags (items : List Item) : List UInt8 :=
  items.filterMap fun i => match i with
    | .group tag => some tag
    | .value .. => none

def isOperation (r : Record) : Bool := r.group = Tag.operationAttributes

/-- Charset first, natural language second, neither again. -/
def OrderedOperation (rs : List Record) : Prop :=
  ∃ charset language rest, rs = charset :: language :: rest ∧ charset.isCharset = true ∧
    language.isLanguage = true ∧ ∀ r ∈ rest, r.isCharset = false ∧ r.isLanguage = false

/-- The rule of the protocol: the message opens with the only group of operation attributes, and
its records are in order. -/
structure OperationRule (input : Bytes) (e : Envelope) : Prop where
  first : input[8]? = some Tag.operationAttributes
  single : (groupTags e.items).count Tag.operationAttributes = 1
  order : OrderedOperation (e.records.filter isOperation)

/-- What the loop enforces: values in front of the first group are not looked at. -/
structure GroupRule (e : Envelope) : Prop where
  first : (groupTags e.items).head? = some Tag.operationAttributes
  single : (groupTags e.items).count Tag.operationAttributes = 1
  order : OrderedOperation (e.records.filter isOperation)

/-! ### The loop -/

/-- The group tags that leave the verdict alone, behind groups that have been seen. -/
def groupsOk : Bool → Bool → List UInt8 → Bool
  | _, _, [] => true
  | sawGroup, sawOperation, tag :: tags =>
    let operation : Bool := tag = Tag.operationAttributes
    !(!sawGroup && !operation || operation && sawOperation) &&
      groupsOk true (sawOperation || operation) tags

/-- The operation records that leave the verdict alone, behind `index` others. -/
def orderOk : ℕ → List Record → Bool
  | _, [] => true
  | index, r :: rs =>
    !(index = 0 && !r.isCharset || index = 1 && !r.isLanguage ||
      1 < index && (r.isCharset || r.isLanguage)) && orderOk (index + 1) rs

theorem invalidIf_valid (s : InspectState) (condition : Bool) :
    (s.invalidIf condition).info.operationAttributesValid =
      (s.info.operationAttributesValid && !condition) := by
  cases condition <;> simp [InspectState.invalidIf]

theorem readValue_valid (info : RequestInfo) (group : UInt8) (name : Bytes) (tag : UInt8)
    (value : Bytes) : (InspectState.readValue info group name tag value).operationAttributesValid =
      info.operationAttributesValid := by
  unfold InspectState.readValue
  simp only
  split_ifs <;> first | rfl | (split <;> rfl)

/-- One value. -/
theorem onValue_valid (s : InspectState) (r : Record) (h : r.group = s.currentGroup) :
    (s.onValue r.attributeName r.tag r.value).info.operationAttributesValid =
        (s.info.operationAttributesValid &&
          orderOk s.operationAttributeIndex ([r].filter isOperation)) ∧
      (s.onValue r.attributeName r.tag r.value).operationAttributeIndex =
        s.operationAttributeIndex + ([r].filter isOperation).length ∧
      (s.onValue r.attributeName r.tag r.value).currentGroup = s.currentGroup ∧
      (s.onValue r.attributeName r.tag r.value).sawGroup = s.sawGroup ∧
      (s.onValue r.attributeName r.tag r.value).sawOperationGroup = s.sawOperationGroup := by
  have hsame : ∀ c, (s.invalidIf c).currentGroup = s.currentGroup ∧
      (s.invalidIf c).sawGroup = s.sawGroup ∧
      (s.invalidIf c).sawOperationGroup = s.sawOperationGroup := by
    intro c
    cases c <;> exact ⟨rfl,rfl,rfl⟩
  simp only [InspectState.onValue, readValue_valid]
  unfold InspectState.countOperationAttribute
  by_cases hgroup : s.currentGroup = Tag.operationAttributes
  · rw [if_pos hgroup]
    have hop : isOperation r = true := by simp [isOperation, h, hgroup]
    simp only [invalidIf_valid, List.filter_cons_of_pos hop, List.filter_nil, List.length_singleton]
    refine ⟨?_,trivial,hsame _⟩
    simp [orderOk, Record.isCharset, Record.isLanguage]
  · rw [if_neg hgroup]
    have hop : ¬ isOperation r = true := by simp [isOperation, h, hgroup]
    simp [List.filter_cons_of_neg hop, orderOk]

theorem orderOk_append (index : ℕ) (rs rs' : List Record) :
    orderOk index (rs ++ rs') = (orderOk index rs && orderOk (index + rs.length) rs') := by
  induction rs generalizing index with
  | nil => simp [orderOk]
  | cons r rs ih =>
    rw [List.cons_append, orderOk, ih, orderOk, List.length_cons, Bool.and_assoc]
    congr 3
    omega

theorem readItems_valid (s : InspectState) (current : Bytes) (items : List Item) :
    (Walker.readItems InspectState.onGroup InspectState.onValue s (cstr current)
        items).info.operationAttributesValid =
      (s.info.operationAttributesValid &&
        (groupsOk s.sawGroup s.sawOperationGroup (groupTags items) &&
          orderOk s.operationAttributeIndex
            ((recordsFrom s.currentGroup current items).filter isOperation))) ∧
    (Walker.readItems InspectState.onGroup InspectState.onValue s (cstr current)
        items).sawOperationGroup =
      (s.sawOperationGroup || (groupTags items).contains Tag.operationAttributes) ∧
    (Walker.readItems InspectState.onGroup InspectState.onValue s (cstr current)
        items).operationAttributeIndex =
      s.operationAttributeIndex +
        ((recordsFrom s.currentGroup current items).filter isOperation).length := by
  induction items generalizing s current with
  | nil => simp [Walker.readItems, groupTags, groupsOk, recordsFrom, orderOk]
  | cons i is ih =>
    cases i with
    | group tag =>
      obtain ⟨hvalid,hsaw,hindex⟩ := ih (s.onGroup tag) []
      rw [cstr_nil] at hvalid hsaw hindex
      have hkept : (s.onGroup tag).operationAttributeIndex = s.operationAttributeIndex := by
        simp only [InspectState.onGroup, InspectState.invalidIf]
        split <;> rfl
      rw [Walker.readItems, hvalid, hsaw, hindex, hkept]
      refine ⟨?_,?_,rfl⟩
      · simp only [InspectState.onGroup, invalidIf_valid, groupTags, List.filterMap_cons, groupsOk,
          recordsFrom]
        simp only [Bool.and_assoc]
      · simp only [InspectState.onGroup, groupTags, List.filterMap_cons, List.contains_cons,
          Bool.or_assoc]
        congr 2
        simp [eq_comm, beq_eq_decide]
    | value tag name value =>
      obtain ⟨hvalid,hsaw,hindex⟩ := ih
        (s.onValue (cstr (inheritName current name)) tag value) (inheritName current name)
      obtain ⟨h1,h2,h3,h4,h5⟩ := onValue_valid s
        ⟨s.currentGroup,inheritName current name,tag,value⟩ rfl
      simp only [Record.attributeName] at h1 h2 h3 h4 h5
      have hsplit : (recordsFrom s.currentGroup current (.value tag name value :: is)).filter
            isOperation =
          [(⟨s.currentGroup,inheritName current name,tag,value⟩ : Record)].filter isOperation ++
            (recordsFrom s.currentGroup (inheritName current name) is).filter isOperation := by
        rw [recordsFrom, ← List.filter_append]
        rfl
      rw [Walker.readItems, ← cstr_inheritName, hvalid, hsaw, hindex, h1, h2, h3, h4, h5, hsplit,
        orderOk_append, List.length_append]
      refine ⟨?_,rfl,by omega⟩
      simp only [groupTags, List.filterMap_cons]
      simp only [Bool.and_assoc, Bool.and_left_comm]

/-! ### The verdict -/

theorem groupsOk_seen (tags : List UInt8) :
    groupsOk true true tags = true ↔ Tag.operationAttributes ∉ tags := by
  induction tags with
  | nil => simp [groupsOk]
  | cons tag tags ih =>
    rw [groupsOk, Bool.and_eq_true, Bool.true_or, ih, List.mem_cons, not_or]
    simp [eq_comm (a := tag)]

theorem groupsOk_start (tags : List UInt8) :
    (groupsOk false false tags = true ∧ Tag.operationAttributes ∈ tags) ↔
      tags.head? = some Tag.operationAttributes ∧ tags.count Tag.operationAttributes = 1 := by
  cases tags with
  | nil => simp
  | cons tag tags =>
    by_cases htag : tag = Tag.operationAttributes
    · subst htag
      simp only [groupsOk, decide_true, Bool.not_true, Bool.and_false, Bool.or_false, Bool.not_false,
        Bool.true_and, Bool.false_or, List.mem_cons_self, and_true, List.head?_cons, true_and,
        List.count_cons_self, Nat.add_eq_right, List.count_eq_zero]
      exact groupsOk_seen tags
    · simp [groupsOk, htag]

theorem orderOk_later {index : ℕ} (h : 1 < index) (rs : List Record) :
    orderOk index rs = true ↔ ∀ r ∈ rs, r.isCharset = false ∧ r.isLanguage = false := by
  induction rs generalizing index with
  | nil => simp [orderOk]
  | cons r rs ih =>
    have h0 : ¬ index = 0 := by omega
    have h1 : ¬ index = 1 := by omega
    simp [orderOk, h, h0, h1, ih (show 1 < index + 1 by omega)]

theorem orderOk_start (rs : List Record) :
    (orderOk 0 rs = true ∧ 2 ≤ rs.length) ↔ OrderedOperation rs := by
  constructor
  · rintro ⟨h,hlen⟩
    match rs, hlen with
    | charset :: language :: rest, _ =>
      simp only [orderOk, Bool.and_eq_true] at h
      obtain ⟨h0,h1,hrest⟩ := h
      exact ⟨charset,language,rest,rfl,by simpa using h0,by simpa using h1,
        (orderOk_later (by omega) rest).mp hrest⟩
  · rintro ⟨charset,language,rest,rfl,hcharset,hlanguage,hrest⟩
    refine ⟨?_,by simp⟩
    have hlater := (orderOk_later (show 1 < 2 by omega) rest).mpr hrest
    simp [orderOk, hcharset, hlanguage, hlater]

/-- The verdict is that of the group rule. -/
theorem Envelope.inspect_valid (e : Envelope) :
    e.inspect.operationAttributesValid = true ↔ GroupRule e := by
  obtain ⟨hvalid,hsaw,hindex⟩ := readItems_valid ⟨.ofHeader e.header,0,0,false,false⟩ [] e.items
  rw [cstr_nil] at hvalid hsaw hindex
  have hrule : e.inspect.operationAttributesValid = true ↔
      (groupsOk false false (groupTags e.items) = true ∧
        Tag.operationAttributes ∈ groupTags e.items) ∧
      (orderOk 0 (e.records.filter isOperation) = true ∧
        2 ≤ (e.records.filter isOperation).length) := by
    simp only [Envelope.inspect, invalidIf_valid, hvalid, hsaw, hindex]
    simp [RequestInfo.ofHeader, Envelope.records]
    tauto
  rw [hrule, groupsOk_start, orderOk_start]
  exact ⟨fun h => ⟨h.1.1,h.1.2,h.2⟩,fun h => ⟨⟨h.first,h.single⟩,h.order⟩⟩

/-- The octet behind the header. -/
theorem Envelope.encode_get (e : Envelope) : e.encode[8]? =
    (encodeItems e.items ++ Tag.endAttributes :: e.document).head? := by
  rw [e.encode_eq, List.getElem?_append_right (by rw [e.header_length]), e.header_length,
    List.head?_eq_getElem?]
  rfl

/-- The two rules agree on a message that does not begin with a value. -/
theorem operationRule_iff {input : Bytes} {e : Envelope} (he : decode input = .ok e) :
    OperationRule input e ↔ GroupRule e ∧ ∃ tag, input[8]? = some tag ∧ tag ≤ 0x0f := by
  have hget : input[8]? = (encodeItems e.items ++ Tag.endAttributes :: e.document).head? := by
    rw [← encode_of_decode he, e.encode_get]
  have hok := e.items_ok
  cases hitems : e.items with
  | nil =>
    constructor
    · intro h
      have hfirst := h.first
      rw [hget, hitems, encodeItems_nil, List.nil_append, List.head?_cons, Option.some.injEq]
        at hfirst
      exact absurd hfirst (by decide)
    · rintro ⟨h,-⟩
      have hfirst := h.first
      rw [hitems] at hfirst
      cases hfirst
  | cons i is =>
    rw [hitems] at hget hok
    cases i with
    | group tag =>
      have hget : input[8]? = some tag := by simpa [Item.encode] using hget
      have hhead : (groupTags e.items).head? = some tag := by simp [hitems, groupTags]
      constructor
      · intro h
        have hfirst := h.first
        rw [hget] at hfirst
        exact ⟨⟨hhead.trans hfirst,h.single,h.order⟩,tag,hget,hok.1⟩
      · rintro ⟨h,-⟩
        have hfirst := h.first
        rw [hhead] at hfirst
        exact ⟨hget.trans hfirst,h.single,h.order⟩
    | value tag name value =>
      have hget : input[8]? = some tag := by simpa [Item.encode] using hget
      have htag : 0x0f < tag := hok.1.1
      constructor
      · intro h
        have hfirst := h.first
        rw [hget] at hfirst
        cases hfirst
        exact absurd htag (by decide)
      · rintro ⟨-,tag',hget',hle⟩
        rw [hget] at hget'
        cases hget'
        exact absurd htag (UInt8.not_lt.mpr hle)

/-- The verdict is the protocol's, unless a value stands in front of a group of operation attributes
that is otherwise in order: the loop does not see that such a value comes first. -/
theorem operationAttributesValid_iff {input : Bytes} {info : RequestInfo}
    (h : ippCodecInspectRequest input = .ok info) :
    ∃ e, decode input = .ok e ∧
      ((info.operationAttributesValid = true ↔ OperationRule input e) ↔
        (∃ tag, input[8]? = some tag ∧ tag ≤ 0x0f) ∨ ¬ GroupRule e) := by
  obtain ⟨e,he,rfl⟩ := inspect_ok_iff.mp h
  refine ⟨e,he,?_⟩
  rw [e.inspect_valid, operationRule_iff he, iff_self_and, imp_iff_or_not]

/-- A request whose first octet behind the header belongs to a job name. -/
def earlyValue : Envelope where
  header := [2,0,0,0x0b,0,0,0,1]
  items := [named Tag.name "job-name" (octets "x"),.group Tag.operationAttributes,
    named Tag.charset "attributes-charset" (octets "utf-8"),
    named Tag.language "attributes-natural-language" (octets "en")]
  document := []
  header_length := literalHeader_length
  items_ok := by decide +kernel

theorem operationAttributesValid_early :
    (∃ info, ippCodecInspectRequest earlyValue.encode = .ok info ∧
      info.operationAttributesValid = true) ∧
    ¬ OperationRule earlyValue.encode earlyValue := by
  have hvalid : earlyValue.inspect.operationAttributesValid = true := by decide +kernel
  refine ⟨⟨earlyValue.inspect,inspect_ok_iff.mpr ⟨earlyValue,decode_encode _,rfl⟩,hvalid⟩,?_⟩
  intro h
  exact absurd h.first (by decide +kernel)

/-- A request in order. -/
def orderedRequest : Envelope where
  header := [2,0,0,0x0b,0,0,0,1]
  items := [.group Tag.operationAttributes,
    named Tag.charset "attributes-charset" (octets "utf-8"),
    named Tag.language "attributes-natural-language" (octets "en")]
  document := []
  header_length := literalHeader_length
  items_ok := by decide +kernel

theorem operationAttributesValid_ordered :
    ippCodecInspectRequest orderedRequest.encode = .ok orderedRequest.inspect ∧
    ∃ e, decode orderedRequest.encode = .ok e ∧
      ((orderedRequest.inspect.operationAttributesValid = true ↔
          OperationRule orderedRequest.encode e) ↔
        (∃ tag, orderedRequest.encode[8]? = some tag ∧ tag ≤ 0x0f) ∨ ¬ GroupRule e) := by
  have hinspect : ippCodecInspectRequest orderedRequest.encode = .ok orderedRequest.inspect :=
    inspect_ok_iff.mpr ⟨orderedRequest,decode_encode _,rfl⟩
  exact ⟨hinspect,operationAttributesValid_iff hinspect⟩

end Espresso.Codec
