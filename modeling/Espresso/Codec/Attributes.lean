import Espresso.Codec.Relay
import Espresso.Codec.Filter
import Espresso.Codec.Normalize

/-! Messages as lists of attributes. A value without a name belongs to the last named value before
it, so an edit of the items moves values between attributes unless it keeps or deletes each
attribute as a whole. -/
namespace Espresso.Codec

/-- A named value with the values that continue it. -/
structure Attribute where
  group : UInt8
  name : Bytes
  values : List (UInt8 × Bytes)
  deriving DecidableEq, Repr

/-- Values that continue an attribute from before the items, and the attributes that start in
them. -/
abbrev Split := List (UInt8 × Bytes) × List Attribute

/-- Values at the start of a group continue nothing. -/
def Split.close (group : UInt8) (s : Split) : List Attribute :=
  if s.1 = [] then s.2 else ⟨group,[],s.1⟩ :: s.2

def splitItems : UInt8 → List Item → Split
  | _, [] => ([],[])
  | _, .group tag :: is => ([],(splitItems tag is).close tag)
  | group, .value tag name value :: is =>
    if name = [] then ((tag,value) :: (splitItems group is).1,(splitItems group is).2)
    else ([],⟨group,name,(tag,value) :: (splitItems group is).1⟩ :: (splitItems group is).2)

def Envelope.attributeBlocks (e : Envelope) : List Attribute := (splitItems 0 e.items).close 0

theorem Split.close_append (group : UInt8) (s : Split) (attributes : List Attribute) :
    Split.close group (s.1,s.2 ++ attributes) = s.close group ++ attributes := by
  unfold Split.close
  split <;> rfl

/-- What starts with a name or a group leaves the attribute before it alone. -/
theorem splitItems_append {group : UInt8} {is js : List Item}
    (h : (splitItems (groupAfter group is) js).1 = []) :
    splitItems group (is ++ js) = ((splitItems group is).1,
      (splitItems group is).2 ++ (splitItems (groupAfter group is) js).2) := by
  induction is generalizing group with
  | nil =>
    rw [groupAfter] at h
    simp only [List.nil_append, splitItems, groupAfter]
    rw [← h]
  | cons i is ih =>
    cases i with
    | group tag =>
      simp only [List.cons_append, splitItems, groupAfter]
      rw [ih h, Split.close_append]
    | value tag name value =>
      simp only [List.cons_append, splitItems, groupAfter]
      rw [ih h]
      split <;> rfl

/-! ### Deleting attributes and replacing values -/

section
variable (drops : UInt8 → Bytes → Bool) (newData : UInt8 → Bytes → Bytes → Bytes)

def editValues (name : Bytes) (values : List (UInt8 × Bytes)) : List (UInt8 × Bytes) :=
  values.map fun v => (v.1,newData v.1 (cstr name) v.2)

/-- An attribute after `editItems`: it goes as a whole or keeps all its values. -/
def editAttribute (a : Attribute) : Option Attribute :=
  if drops a.group (cstr a.name) then none
  else some { a with values := editValues newData a.name a.values }

def Split.edit (group : UInt8) (name : Bytes) (s : Split) : Split :=
  (if drops group (cstr name) then [] else editValues newData name s.1,
    s.2.filterMap (editAttribute drops newData))

theorem Split.close_edit (group : UInt8) (s : Split) :
    (s.edit drops newData group []).close group =
      (s.close group).filterMap (editAttribute drops newData) := by
  obtain ⟨lead,attributes⟩ := s
  rw [edit, close, close, cstr_nil]
  cases hd : drops group [] with
  | true => cases lead <;> simp [editAttribute, hd]
  | false => cases lead <;> simp [editAttribute, editValues, hd]

theorem splitItems_editItems (group : UInt8) (name : Bytes) (items : List Item) :
    splitItems group (editItems drops newData group (cstr name) items) =
      (splitItems group items).edit drops newData group name := by
  induction items generalizing group name with
  | nil => simp [editItems, splitItems, Split.edit, editValues]
  | cons i is ih =>
    cases i with
    | group tag =>
      have hrest := ih tag []
      rw [cstr_nil] at hrest
      simp only [editItems, splitItems]
      rw [hrest, Split.close_edit]
      simp [Split.edit, editValues]
    | value tag own value =>
      have hrest := ih group (inheritName name own)
      simp only [editItems, ← cstr_inheritName, splitItems]
      by_cases hown : own = []
      · subst hown
        simp only [inheritName, if_true] at hrest ⊢
        cases hd : drops group (cstr name) with
        | true => simpa [Split.edit, hd] using hrest
        | false =>
          simp only [Bool.false_eq_true, if_false, splitItems, if_true, hrest]
          simp [Split.edit, hd, editValues]
      · simp only [inheritName, if_neg hown] at hrest ⊢
        cases hd : drops group (cstr own) with
        | true =>
          simp only [if_true, hrest]
          simp [Split.edit, hd, editAttribute, editValues]
        | false =>
          simp only [Bool.false_eq_true, if_false, splitItems, if_neg hown, hrest]
          simp [Split.edit, hd, editAttribute, editValues]

theorem attributes_editItems {e e' : Envelope}
    (h : e'.items = editItems drops newData 0 [] e.items) :
    e'.attributeBlocks = e.attributeBlocks.filterMap (editAttribute drops newData) := by
  have hsplit := splitItems_editItems drops newData 0 [] e.items
  rw [cstr_nil] at hsplit
  rw [Envelope.attributeBlocks, h, hsplit, Split.close_edit]
  rfl

end

/-! ### The facade's job attributes -/

section
variable (t : PrinterTarget) (upstreamDocumentFormat : Option Bytes)

def facadeValues (group : UInt8) (name : Bytes) (values : List (UInt8 × Bytes)) :
    List (UInt8 × Bytes) :=
  values.map fun v => (v.1,outputValue upstreamDocumentFormat group v.1 (cstr name) v.2)

/-- An attribute after the second pass over a request. -/
def facadeAttribute (a : Attribute) : Option Attribute :=
  if isConsumed t a.group (cstr a.name) then none
  else some ⟨a.group,facadeName t a.group a.name,
    facadeValues upstreamDocumentFormat a.group a.name a.values⟩

def Split.facade (group : UInt8) (name : Bytes) (s : Split) : Split :=
  (if isConsumed t group (cstr name) then [] else facadeValues upstreamDocumentFormat group name s.1,
    s.2.filterMap (facadeAttribute t upstreamDocumentFormat))

theorem facadeName_nil (group : UInt8) : facadeName t group [] = [] := by
  have hname : isLegacyColorMode t [] = false := by
    have hne : ([] : Bytes) ≠ octets "print-color-mode" := by decide
    simp [isLegacyColorMode, hne]
  simp [facadeName, hname]

theorem Split.close_facade (group : UInt8) (s : Split) :
    (s.facade t upstreamDocumentFormat group []).close group =
      (s.close group).filterMap (facadeAttribute t upstreamDocumentFormat) := by
  obtain ⟨lead,attributes⟩ := s
  rw [facade, close, close, cstr_nil]
  cases hc : isConsumed t group [] with
  | true => cases lead <;> simp [facadeAttribute, hc]
  | false => cases lead <;> simp [facadeAttribute, facadeValues, facadeName_nil, hc]

variable {t upstreamDocumentFormat}

theorem outputName_named {own : Bytes} (hown : own ≠ []) (group : UInt8) :
    outputName own (replacementFor t group (cstr own)) = facadeName t group own := by
  unfold replacementFor facadeName
  split <;> simp [outputName, hown]

/-- A kept value goes where it was, under the attribute's new name. -/
theorem splitItems_kept {group tag : UInt8} {name own value : Bytes} {is js : List Item}
    (hc : isConsumed t group (cstr (inheritName name own)) = false)
    (hrest : splitItems group js =
      (splitItems group is).facade t upstreamDocumentFormat group (inheritName name own)) :
    splitItems group (.value tag
        (outputName own (replacementFor t group (cstr (inheritName name own))))
        (outputValue upstreamDocumentFormat group tag (cstr (inheritName name own)) value) :: js) =
      (splitItems group (.value tag own value :: is)).facade t upstreamDocumentFormat group name := by
  rw [splitItems, hrest, splitItems]
  by_cases hown : own = []
  · subst hown
    have hout : outputName [] (replacementFor t group (cstr name)) = [] :=
      (outputName_replacementFor [] group (cstr name)).resolve_right fun h => h.1 rfl
    simp only [inheritName, if_true] at hc ⊢
    simp [hout, Split.facade, hc, facadeValues]
  · have hne : facadeName t group own ≠ [] := by
      rw [← outputName_named hown]
      exact fun h => hown (outputName_eq_nil h)
    simp only [inheritName, if_neg hown] at hc ⊢
    rw [outputName_named hown, if_neg hne]
    simp [Split.facade, hc, facadeValues, facadeAttribute]

/-- The group tag is written with the first value that is kept. -/
theorem splitItems_facadeItems {group group' : UInt8} {emitted : Bool} {name : Bytes}
    (items : List Item) (hgroup : emitted = true → group' = group) :
    splitItems group' (facadeItems t upstreamDocumentFormat (cstr name) group emitted items) =
      if emitted then (splitItems group items).facade t upstreamDocumentFormat group name
      else ([],((splitItems group items).facade t upstreamDocumentFormat group name).close group) := by
  induction items generalizing group group' emitted name with
  | nil => cases emitted <;> simp [facadeItems, splitItems, Split.facade, Split.close, facadeValues]
  | cons i is ih =>
    cases i with
    | group tag =>
      have hrest := @ih tag group' false [] (by simp)
      simp only [Bool.false_eq_true, if_false] at hrest
      rw [facadeItems, ← cstr_nil, hrest]
      simp only [splitItems, Split.close_facade]
      cases emitted <;> simp [Split.facade, Split.close, facadeValues]
    | value tag own value =>
      cases hc : isConsumed t group (cstr (inheritName name own)) with
      | true =>
        rw [facadeItems_value_consumed hc, @ih group group' emitted (inheritName name own) hgroup]
        by_cases hown : own = []
        · subst hown
          simp only [inheritName, if_true] at hc ⊢
          simp [splitItems, Split.facade, hc]
        · simp only [inheritName, if_neg hown] at hc ⊢
          simp [splitItems, Split.facade, hc, hown, facadeAttribute, facadeValues]
      | false =>
        rw [facadeItems_value_kept hc]
        have hrest := @ih group group true (inheritName name own) (fun _ => rfl)
        simp only [if_true] at hrest
        have hsplit := @splitItems_kept _ _ _ tag _ _ value _ _ hc hrest
        cases emitted with
        | true =>
          obtain rfl := hgroup rfl
          simpa using hsplit
        | false =>
          simp only [Bool.false_eq_true, if_false, List.cons_append, List.nil_append]
          rw [splitItems, hsplit]

theorem attributes_facadeItems {e e' : Envelope}
    (h : e'.items = facadeItems t upstreamDocumentFormat [] 0 true e.items) :
    e'.attributeBlocks = e.attributeBlocks.filterMap (facadeAttribute t upstreamDocumentFormat) := by
  have hsplit := @splitItems_facadeItems t upstreamDocumentFormat 0 0 true [] e.items fun _ => rfl
  rw [cstr_nil, if_pos rfl] at hsplit
  rw [Envelope.attributeBlocks, h, hsplit, Split.close_facade]
  rfl

end

/-! ### Synthesised attributes -/

/-- The attributes that a table stands for: those it has values for. -/
def tableAttributes (group : UInt8) (attributes : List (String × List (UInt8 × Bytes))) :
    List Attribute :=
  (attributes.filter fun a => a.2 ≠ []).map fun a => ⟨group,octets a.1,a.2⟩

/-- The attributes that are added for a profile. -/
def addedAttributes (hundredths : Bytes → ℕ → Option ℕ) (present : ℕ)
    (printerUri localUuid : Bytes) (t : PrinterTarget) : List Attribute :=
  tableAttributes Tag.printerAttributes
    (missingStandins hundredths present printerUri localUuid t ++ (facadeOwned t ++ rasterOwned t))

theorem splitItems_additional (group : UInt8) (values : List (UInt8 × Bytes)) :
    splitItems group (values.map fun w => additional w.1 w.2) = (values,[]) := by
  induction values with
  | nil => rfl
  | cons v vs ih =>
    rw [List.map_cons, additional, splitItems, if_pos rfl, ih]

theorem splitItems_attributeItems {name : String} (h : Plain name) (group : UInt8)
    (values : List (UInt8 × Bytes)) :
    splitItems group (attributeItems name values) = ([],tableAttributes group [(name,values)]) := by
  cases values with
  | nil => rfl
  | cons v vs =>
    simp [attributeItems, named, splitItems, h.1, splitItems_additional, tableAttributes]

theorem splitItems_attributeList {attributes : List (String × List (UInt8 × Bytes))}
    (h : AttributesOk attributes) (group : UInt8) :
    splitItems group (attributeList attributes) = ([],tableAttributes group attributes) := by
  induction attributes with
  | nil => rfl
  | cons a as ih =>
    have hrest := ih fun b hb => h b (List.mem_cons_of_mem _ hb)
    have hfirst := splitItems_attributeItems (h a List.mem_cons_self).1 group a.2
    have hsplit : attributeList (a :: as) = attributeItems a.1 a.2 ++ attributeList as := rfl
    rw [hsplit, splitItems_append (by rw [groupAfter_attributeItems, hrest]),
      groupAfter_attributeItems, hfirst, hrest, tableAttributes, tableAttributes, tableAttributes,
      ← List.map_append, ← List.filter_append]
    rfl

section
variable {hundredths : Bytes → ℕ → Option ℕ} {present : ℕ} {printerUri localUuid : Bytes}
  {t : PrinterTarget}

/-- A profile whose resolutions come in pairs has no resolution without its attribute. -/
theorem orphanResolution_eq_nil (h : t.resolutionLowDpi = 0 ↔ t.resolutionHighDpi = 0) :
    orphanResolution t = [] := by
  unfold orphanResolution
  rw [if_neg]
  rintro ⟨-,hlow,hlt⟩
  have := h.mp hlow
  omega

/-- Every value that is added belongs to the attribute it was added for. -/
theorem splitItems_synthesized (horphan : orphanResolution t = []) (group : UInt8) :
    splitItems group (synthesizedAttributes hundredths present group printerUri localUuid t) =
      ([],addedAttributes hundredths present printerUri localUuid t) := by
  have hok : AttributesOk (missingStandins hundredths present printerUri localUuid t ++
      (facadeOwned t ++ rasterOwned t)) := by
    intro a ha
    rcases List.mem_append.mp ha with ha | ha
    · exact missingStandins_ok hundredths present printerUri localUuid t a ha
    · exact facadeOwned_ok t a ha
  have hitems : attributeList (missingStandins hundredths present printerUri localUuid t) ++
      facadeAttributes t = attributeList (missingStandins hundredths present printerUri localUuid t
        ++ (facadeOwned t ++ rasterOwned t)) := by
    rw [facadeAttributes, horphan, List.nil_append]
    simp [attributeList]
  rw [synthesizedAttributes, hitems]
  split
  · rename_i hg
    rw [hg]
    exact splitItems_attributeList hok _
  · rw [List.singleton_append, splitItems, splitItems_attributeList hok]
    rfl

end

end Espresso.Codec
