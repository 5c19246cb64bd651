import Espresso.Codec.Inspect
import Espresso.Codec.Record

/-! The summary of a client request, read off its records. The inspector's loop looks at one value
after the other; each field of the summary it keeps is a fold over the records. -/
namespace Espresso.Codec

section
variable {α : Type} {view : RequestInfo → α} {step : α → Record → α}

/-- A part of the summary that only `readValue` changes is a fold over the records. -/
theorem readItems_view
    (hvalid : ∀ info b, view { info with operationAttributesValid := b } = view info)
    (hstep : ∀ info r, view (InspectState.readValue info r.group r.attributeName r.tag r.value) =
      step (view info) r) (s : InspectState) (current : Bytes) (items : List Item) :
    view (Walker.readItems InspectState.onGroup InspectState.onValue s (cstr current) items).info =
      (recordsFrom s.currentGroup current items).foldl step (view s.info) := by
  have hinvalid : ∀ (s : InspectState) (c : Bool), view (s.invalidIf c).info = view s.info := by
    intro s c
    unfold InspectState.invalidIf
    split
    · exact hvalid _ _
    · rfl
  induction items generalizing s current with
  | nil => rfl
  | cons i is ih =>
    cases i with
    | group tag =>
      have hrest := ih (s.onGroup tag) []
      rw [cstr_nil] at hrest
      rw [Walker.readItems, hrest]
      simp only [InspectState.onGroup, hinvalid, recordsFrom]
    | value tag name value =>
      rw [Walker.readItems, ← cstr_inheritName, ih, recordsFrom, List.foldl_cons]
      obtain ⟨hgroup,hview⟩ :
          (s.countOperationAttribute (cstr (inheritName current name)) tag).currentGroup =
            s.currentGroup ∧
          view (s.countOperationAttribute (cstr (inheritName current name)) tag).info =
            view s.info := by
        unfold InspectState.countOperationAttribute
        split
        · refine ⟨?_,hinvalid _ _⟩
          simp only [InspectState.invalidIf]
          split <;> rfl
        · exact ⟨rfl,rfl⟩
      have hnext := hstep (s.countOperationAttribute (cstr (inheritName current name)) tag).info
        ⟨s.currentGroup,inheritName current name,tag,value⟩
      rw [hview] at hnext
      simp only [InspectState.onValue, hgroup]
      rw [← hnext]
      rfl

/-- The same for a whole message. -/
theorem Envelope.inspect_view
    (hvalid : ∀ info b, view { info with operationAttributesValid := b } = view info)
    (hend : ∀ info n b, view { info with attributesLength := n, hasDocument := b } = view info)
    (hstep : ∀ info r, view (InspectState.readValue info r.group r.attributeName r.tag r.value) =
      step (view info) r) (e : Envelope) :
    view e.inspect = e.records.foldl step (view (.ofHeader e.header)) := by
  have hitems := readItems_view hvalid hstep ⟨.ofHeader e.header,0,0,false,false⟩ [] e.items
  rw [cstr_nil] at hitems
  rw [Envelope.records, ← hitems, Envelope.inspect, hend, InspectState.invalidIf]
  split
  · exact hvalid _ _
  · rfl

end

/-! ### The document format -/

/-- A value of `document-format` where the protocol puts it. -/
def Record.isDocumentFormat (r : Record) : Bool :=
  r.group = Tag.operationAttributes && r.attributeName = octets "document-format" &&
    r.tag = Tag.mimeType

theorem Record.isDocumentFormat_iff {r : Record} : r.isDocumentFormat = true ↔
    r.group = Tag.operationAttributes ∧ r.attributeName = octets "document-format" ∧
      r.tag = Tag.mimeType := by
  simp [Record.isDocumentFormat, and_assoc]

def Envelope.documentFormats (e : Envelope) : List Bytes :=
  (e.records.filter Record.isDocumentFormat).map Record.value

/-- A fold that overwrites keeps the last value. -/
theorem foldl_overwrite {α β : Type} (p : α → Bool) (f : α → β) (l : List α) (b : β) :
    l.foldl (fun old a => if p a then f a else old) b = ((l.filter p).map f).getLast?.getD b := by
  induction l generalizing b with
  | nil => rfl
  | cons a l ih =>
    rw [List.foldl_cons, ih]
    by_cases h : p a = true
    · rw [if_pos h, List.filter_cons_of_pos h, List.map_cons, List.getLast?_cons]
      rfl
    · rw [if_neg h, List.filter_cons_of_neg h]

/-- The summary keeps a 64-octet copy of the last value. -/
theorem Envelope.inspect_documentFormat (e : Envelope) :
    e.inspect.documentFormat = (e.documentFormats.getLast?.map (Text.copy 64)).getD .empty := by
  have hview := @Envelope.inspect_view _ RequestInfo.documentFormat
    (fun old r => if r.isDocumentFormat then .copy 64 r.value else old)
    (fun _ _ => rfl) (fun _ _ _ => rfl) (by
      intro info r
      unfold InspectState.readValue Record.isDocumentFormat
      simp only
      split_ifs <;> first | rfl | (split <;> rfl)) e
  rw [hview, foldl_overwrite, documentFormats, ← List.getLast?_map, List.map_map]
  rfl

end Espresso.Codec
