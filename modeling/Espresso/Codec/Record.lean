import Espresso.Codec.Buffer

/-! The decoded view of an envelope: one record for each value, with the group it lies in and
the name octets it inherits. Names are compared as C strings, so `attributeName` cuts them at
the first NUL. -/
namespace Espresso.Codec

structure Record where
  group : UInt8
  name : Bytes
  tag : UInt8
  value : Bytes
  deriving DecidableEq, Repr

/-- The name that the codec compares. -/
def Record.attributeName (r : Record) : Bytes := cstr r.name

/-- Name octets in force after a record. -/
def inheritName (current name : Bytes) : Bytes := if name = [] then current else name

theorem cstr_inheritName (current name : Bytes) :
    cstr (inheritName current name) = carryName (cstr current) name := by
  unfold inheritName carryName
  split <;> rfl

def recordsFrom : UInt8 → Bytes → List Item → List Record
  | _, _, [] => []
  | _, _, .group group :: is => recordsFrom group [] is
  | group, current, .value tag name value :: is =>
    ⟨group,inheritName current name,tag,value⟩ :: recordsFrom group (inheritName current name) is

/-- Group in force after a list of items. -/
def groupAfter : UInt8 → List Item → UInt8
  | group, [] => group
  | _, .group group :: is => groupAfter group is
  | group, .value .. :: is => groupAfter group is

def nameAfter : Bytes → List Item → Bytes
  | current, [] => current
  | _, .group _ :: is => nameAfter [] is
  | current, .value _ name _ :: is => nameAfter (inheritName current name) is

theorem groupAfter_append (group : UInt8) (is js : List Item) :
    groupAfter group (is ++ js) = groupAfter (groupAfter group is) js := by
  induction is generalizing group with
  | nil => rfl
  | cons i is ih =>
    cases i with
    | group tag => exact ih tag
    | value tag name value => exact ih group

theorem nameAfter_append (current : Bytes) (is js : List Item) :
    nameAfter current (is ++ js) = nameAfter (nameAfter current is) js := by
  induction is generalizing current with
  | nil => rfl
  | cons i is ih =>
    cases i with
    | group tag => exact ih []
    | value tag name value => exact ih _

theorem recordsFrom_append (group : UInt8) (current : Bytes) (is js : List Item) :
    recordsFrom group current (is ++ js) =
      recordsFrom group current is ++
        recordsFrom (groupAfter group is) (nameAfter current is) js := by
  induction is generalizing group current with
  | nil => rfl
  | cons i is ih =>
    cases i with
    | group tag => simp only [List.cons_append, recordsFrom, groupAfter, nameAfter, ih]
    | value tag name value => simp only [List.cons_append, recordsFrom, groupAfter, nameAfter, ih]

/-- The decoded sequence of records. -/
def Envelope.records (e : Envelope) : List Record := recordsFrom 0 [] e.items

theorem itemsOk_append (current : Bytes) (is js : List Item) :
    ItemsOk (cstr current) (is ++ js) ↔
      ItemsOk (cstr current) is ∧ ItemsOk (cstr (nameAfter current is)) js := by
  induction is generalizing current with
  | nil => simp [ItemsOk, nameAfter]
  | cons i is ih =>
    cases i with
    | group tag =>
      have h := ih []
      simp only [cstr_nil] at h
      simp only [List.cons_append, ItemsOk, nameAfter, h]
      tauto
    | value tag name value =>
      have h := ih (inheritName current name)
      rw [cstr_inheritName] at h
      simp only [List.cons_append, ItemsOk, nameAfter, h]
      tauto

/-- Records of an envelope fit the length field and are no delimiters. -/
theorem recordsFrom_ok {group : UInt8} {current current' : Bytes} {items : List Item}
    (hok : ItemsOk current' items) {r : Record} (hr : r ∈ recordsFrom group current items) :
    0x0f < r.tag ∧ r.value.length < 65536 := by
  induction items generalizing group current current' with
  | nil => cases hr
  | cons i is ih =>
    cases i with
    | group tag => exact ih hok.2.2 hr
    | value tag name value =>
      rcases List.mem_cons.mp hr with rfl | hr
      · exact ⟨hok.1.1,hok.1.2.2.1⟩
      · exact ih hok.2 hr

/-! ### Attributes

An attribute starts at each value that bears a name of its own. -/

/-- The attributes of a list of items: the group and the compared name of each. -/
def attributeNames : UInt8 → List Item → List (UInt8 × Bytes)
  | _, [] => []
  | _, .group group :: is => attributeNames group is
  | group, .value _ name _ :: is =>
    if name = [] then attributeNames group is else (group,cstr name) :: attributeNames group is

def Envelope.attributeNames (e : Envelope) : List (UInt8 × Bytes) := Codec.attributeNames 0 e.items

theorem attributeNames_append (group : UInt8) (is js : List Item) :
    attributeNames group (is ++ js) =
      attributeNames group is ++ attributeNames (groupAfter group is) js := by
  induction is generalizing group with
  | nil => rfl
  | cons i is ih =>
    cases i with
    | group tag => exact ih tag
    | value tag name value =>
      simp only [List.cons_append, attributeNames, groupAfter, ih]
      split <;> rfl

/-- Every record belongs to an attribute that starts in the list, or continues the one in force. -/
theorem attributeNames_of_record {group : UInt8} {current : Bytes} {items : List Item}
    (hok : ItemsOk (cstr current) items) {r : Record} (hr : r ∈ recordsFrom group current items) :
    (r.group,r.attributeName) ∈ attributeNames group items ∨
      (r.group = group ∧ r.attributeName = cstr current ∧ cstr current ≠ []) := by
  induction items generalizing group current with
  | nil => cases hr
  | cons i is ih =>
    cases i with
    | group tag =>
      obtain ⟨-,-,hrest⟩ := hok
      rw [← cstr_nil] at hrest
      rcases ih hrest hr with h | ⟨-,-,h⟩
      · exact .inl h
      · exact absurd rfl h
    | value tag name value =>
      obtain ⟨hvalue,hrest⟩ := hok
      rw [← cstr_inheritName] at hrest
      simp only [attributeNames]
      by_cases hname : name = []
      · have hcur : cstr current ≠ [] := fun h => hvalue.2.2.2 ⟨hname,h⟩
        simp only [recordsFrom, inheritName, hname, if_true] at hr hrest ⊢
        rcases List.mem_cons.mp hr with rfl | hr
        · exact .inr ⟨rfl,rfl,hcur⟩
        · exact ih hrest hr
      · simp only [recordsFrom, inheritName, hname, if_false] at hr hrest ⊢
        rcases List.mem_cons.mp hr with rfl | hr
        · exact .inl List.mem_cons_self
        · rcases ih hrest hr with h | ⟨hg,hn,-⟩
          · exact .inl (List.mem_cons_of_mem _ h)
          · left
            rw [hg, hn]
            exact List.mem_cons_self

theorem record_of_attributeNames {group : UInt8} {items : List Item} {p : UInt8 × Bytes}
    (h : p ∈ attributeNames group items) (current : Bytes) :
    ∃ r ∈ recordsFrom group current items, r.group = p.1 ∧ r.attributeName = p.2 := by
  induction items generalizing group current with
  | nil => cases h
  | cons i is ih =>
    cases i with
    | group tag => exact ih h []
    | value tag name value =>
      have htail : p ∈ attributeNames group is →
          ∃ r ∈ recordsFrom group current (.value tag name value :: is),
            r.group = p.1 ∧ r.attributeName = p.2 := by
        intro h
        obtain ⟨r,hr,hrp⟩ := ih h (inheritName current name)
        exact ⟨r,List.mem_cons_of_mem _ hr,hrp⟩
      simp only [attributeNames] at h
      split at h
      · exact htail h
      · rename_i hname
        rcases List.mem_cons.mp h with rfl | h
        · exact ⟨_,List.mem_cons_self,rfl,by simp [Record.attributeName, inheritName, hname]⟩
        · exact htail h

/-- The attributes of a message are those that have records. -/
theorem Envelope.mem_attributeNames {e : Envelope} {group : UInt8} {name : Bytes} :
    (group,name) ∈ e.attributeNames ↔
      ∃ r ∈ e.records, r.group = group ∧ r.attributeName = name := by
  constructor
  · intro h
    exact record_of_attributeNames h []
  · rintro ⟨r,hr,rfl,rfl⟩
    rcases attributeNames_of_record (show ItemsOk (cstr []) e.items from e.items_ok) hr with
      h | ⟨-,-,h⟩
    · exact h
    · exact absurd rfl h

/-! ### Deleting attributes and replacing values -/

section
variable (drops : UInt8 → Bytes → Bool) (newData : UInt8 → Bytes → Bytes → Bytes)

/-- Delete whole attributes, by group and name, and give the values that stay new data. -/
def editItems : UInt8 → Bytes → List Item → List Item
  | _, _, [] => []
  | _, _, .group group :: is => .group group :: editItems group [] is
  | group, current, .value tag name value :: is =>
    let current := carryName current name
    if drops group current then editItems group current is
    else .value tag name (newData tag current value) :: editItems group current is

/-- Names in force before and after the deletions: they part only inside a deleted attribute. -/
def InStep (group : UInt8) (current current' : Bytes) : Prop :=
  drops group (cstr current) = false → current' = current

theorem InStep.refl (group : UInt8) (current : Bytes) : InStep drops group current current :=
  fun _ => rfl

variable {drops newData} {group : UInt8} {current current' : Bytes}

theorem InStep.of_drops (h : drops group (cstr current) = true) (current' : Bytes) :
    InStep drops group current current' := fun h' => absurd (h.symm.trans h') (by simp)

/-- A record that is kept bears the same name on both sides. -/
theorem InStep.inheritName_eq {name : Bytes} (hstep : InStep drops group current current')
    (hkeep : drops group (cstr (inheritName current name)) = false) :
    inheritName current' name = inheritName current name := by
  unfold inheritName at hkeep ⊢
  split
  · rename_i hname
    rw [if_pos hname] at hkeep
    exact hstep hkeep
  · rfl

theorem editItems_ok {items : List Item} (hstep : InStep drops group current current')
    (hok : ItemsOk (cstr current) items)
    (hshort : ∀ i ∈ editItems drops newData group (cstr current) items, i.Short) :
    ItemsOk (cstr current') (editItems drops newData group (cstr current) items) := by
  induction items generalizing group current current' with
  | nil => trivial
  | cons i is ih =>
    cases i with
    | group tag =>
      obtain ⟨hle,hne,hrest⟩ := hok
      refine ⟨hle,hne,?_⟩
      have hshort' : ∀ i ∈ editItems drops newData tag (cstr []) is, i.Short :=
        fun i hi => hshort i (List.mem_cons_of_mem _ hi)
      exact ih (InStep.refl drops tag []) hrest hshort'
    | value tag name value =>
      obtain ⟨hvalue,hrest⟩ := hok
      rw [← cstr_inheritName] at hrest
      simp only [editItems, ← cstr_inheritName] at hshort ⊢
      cases hd : drops group (cstr (inheritName current name)) with
      | true =>
        simp only [hd, if_true] at hshort ⊢
        exact ih (InStep.of_drops hd current') hrest hshort
      | false =>
        simp only [hd, Bool.false_eq_true, if_false] at hshort ⊢
        have hkept := hstep.inheritName_eq hd
        have hv : Item.Short (.value tag name (newData tag (cstr (inheritName current name))
            value)) := hshort _ List.mem_cons_self
        obtain ⟨htag,hname,-,hnamed⟩ := hvalue
        refine ⟨⟨htag,hname,hv,?_⟩,?_⟩
        · rintro ⟨rfl,hcur⟩
          apply hnamed
          refine ⟨rfl,?_⟩
          simp only [inheritName, if_true] at hkept
          rw [← hkept, hcur]
        · rw [← cstr_inheritName, hkept]
          exact ih (InStep.refl drops group _) hrest fun i hi =>
            hshort i (List.mem_cons_of_mem _ hi)

theorem attributeNames_editItems (group : UInt8) (current : Bytes) (items : List Item) :
    attributeNames group (editItems drops newData group current items) =
      (attributeNames group items).filter fun p => !drops p.1 p.2 := by
  induction items generalizing group current with
  | nil => rfl
  | cons i is ih =>
    cases i with
    | group tag => exact ih tag []
    | value tag name value =>
      simp only [editItems, attributeNames]
      by_cases hname : name = []
      · split <;> simp [attributeNames, hname, ih]
      · cases hd : drops group (cstr name) <;>
          simp [carryName, attributeNames, hname, hd, ih]

theorem groupAfter_editItems (group : UInt8) (current : Bytes) (items : List Item) :
    groupAfter group (editItems drops newData group current items) = groupAfter group items := by
  induction items generalizing group current with
  | nil => rfl
  | cons i is ih =>
    cases i with
    | group tag => exact ih tag []
    | value tag name value =>
      simp only [editItems]
      split
      · exact ih group _
      · exact ih group _

/-- Nothing moves to another attribute or group. -/
theorem recordsFrom_editItems (items : List Item) (hstep : InStep drops group current current') :
    recordsFrom group current' (editItems drops newData group (cstr current) items) =
      ((recordsFrom group current items).filter fun r => !drops r.group r.attributeName).map
        fun r => { r with value := newData r.tag r.attributeName r.value } := by
  induction items generalizing group current current' with
  | nil => rfl
  | cons i is ih =>
    cases i with
    | group tag => exact ih (InStep.refl drops tag [])
    | value tag name value =>
      simp only [editItems, ← cstr_inheritName, recordsFrom]
      cases hd : drops group (cstr (inheritName current name)) with
      | true =>
        simp only [if_true]
        rw [List.filter_cons_of_neg (by simp [Record.attributeName, hd])]
        exact ih (InStep.of_drops hd current')
      | false =>
        simp only [Bool.false_eq_true, if_false, recordsFrom]
        rw [List.filter_cons_of_pos (by simp [Record.attributeName, hd]), List.map_cons,
          hstep.inheritName_eq hd, ih (InStep.refl drops group _)]
        rfl

end

end Espresso.Codec
