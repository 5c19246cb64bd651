import Espresso.Codec.Transform

/-! The normalised Get-Printer-Attributes response as a message: which attributes its
printer-attributes group has, and where each comes from. -/
namespace Espresso.Codec

/-! ### Synthesised attributes as records -/

/-- An attribute name that a record can carry. -/
def Plain (name : String) : Prop :=
  octets name ≠ [] ∧ 0 ∉ octets name ∧ (octets name).length ≤ ippNameMax

instance (name : String) : Decidable (Plain name) := by unfold Plain; infer_instance

theorem Plain.cstr {name : String} (h : Plain name) : cstr (octets name) = octets name :=
  cstr_eq_self h.2.1

/-- No value type is a delimiter. Checked by evaluation where the types are fixed. -/
def TagsOk (values : List (UInt8 × Bytes)) : Prop := values.all (0x0f < ·.1) = true

theorem TagsOk.tag {values : List (UInt8 × Bytes)} (h : TagsOk values) {v : UInt8 × Bytes}
    (hv : v ∈ values) : 0x0f < v.1 := by
  simpa using List.all_eq_true.mp h v hv

def AttributesOk (attributes : List (String × List (UInt8 × Bytes))) : Prop :=
  ∀ a ∈ attributes, Plain a.1 ∧ TagsOk a.2

section
variable {name : String} {values : List (UInt8 × Bytes)} {group : UInt8} {current : Bytes}

theorem recordsFrom_additional (group : UInt8) (current : Bytes) (values : List (UInt8 × Bytes)) :
    recordsFrom group current (values.map fun w => additional w.1 w.2) =
      values.map fun v => ⟨group,current,v.1,v.2⟩ := by
  induction values with
  | nil => rfl
  | cons v vs ih =>
    simp only [List.map_cons, additional, recordsFrom, inheritName, if_true]
    exact congrArg _ ih

theorem nameAfter_additional (current : Bytes) (values : List (UInt8 × Bytes)) :
    nameAfter current (values.map fun w => additional w.1 w.2) = current := by
  induction values with
  | nil => rfl
  | cons v vs ih =>
    simp only [List.map_cons, additional, nameAfter, inheritName, if_true]
    exact ih

theorem recordsFrom_attributeItems (h : Plain name) :
    recordsFrom group current (attributeItems name values) =
      values.map fun v => ⟨group,octets name,v.1,v.2⟩ := by
  cases values with
  | nil => rfl
  | cons v vs =>
    simp only [attributeItems, named, recordsFrom, inheritName, if_neg h.1, List.map_cons,
      recordsFrom_additional]

theorem nameAfter_attributeItems (h : Plain name) :
    nameAfter current (attributeItems name values) =
      if values = [] then current else octets name := by
  cases values with
  | nil => rfl
  | cons v vs =>
    simp [attributeItems, named, nameAfter, inheritName, h.1, nameAfter_additional]

theorem groupAfter_attributeItems : groupAfter group (attributeItems name values) = group := by
  have hadd : ∀ vs : List (UInt8 × Bytes),
      groupAfter group (vs.map fun w => additional w.1 w.2) = group := by
    intro vs
    induction vs with
    | nil => rfl
    | cons v vs ih => exact ih
  cases values with
  | nil => rfl
  | cons v vs => exact hadd vs

theorem attributeNames_attributeItems (h : Plain name) :
    attributeNames group (attributeItems name values) =
      if values = [] then [] else [(group,octets name)] := by
  have hadd : ∀ vs : List (UInt8 × Bytes),
      attributeNames group (vs.map fun w => additional w.1 w.2) = [] := by
    intro vs
    induction vs with
    | nil => rfl
    | cons v vs ih => simpa [additional, attributeNames] using ih
  cases values with
  | nil => rfl
  | cons v vs => simp [attributeItems, named, attributeNames, h.1, h.cstr, hadd]

theorem attributeItems_ok (h : Plain name) (htags : TagsOk values)
    (hshort : ∀ i ∈ attributeItems name values, i.Short) :
    ItemsOk (cstr current) (attributeItems name values) := by
  have hadd : ∀ vs : List (UInt8 × Bytes), TagsOk vs →
      (∀ i ∈ vs.map fun w => additional w.1 w.2, i.Short) →
      ItemsOk (octets name) (vs.map fun w => additional w.1 w.2) := by
    intro vs htags hshort
    induction vs with
    | nil => trivial
    | cons v vs ih =>
      refine ⟨⟨htags.tag List.mem_cons_self,by simp,hshort _ List.mem_cons_self,
        fun h' => h.1 h'.2⟩,?_⟩
      exact ih (Bool.and_eq_true_iff.mp htags).2
        fun i hi => hshort i (List.mem_cons_of_mem _ hi)
  cases values with
  | nil => trivial
  | cons v vs =>
    refine ⟨⟨htags.tag List.mem_cons_self,h.2.2,hshort _ List.mem_cons_self,fun h' => h.1 h'.1⟩,?_⟩
    rw [carryName, if_neg h.1, h.cstr]
    exact hadd vs (Bool.and_eq_true_iff.mp htags).2
      fun i hi => hshort i (List.mem_cons_of_mem _ hi)

end

section
variable {attributes : List (String × List (UInt8 × Bytes))} {group : UInt8} {current : Bytes}

theorem groupAfter_attributeList : groupAfter group (attributeList attributes) = group := by
  induction attributes with
  | nil => rfl
  | cons a as ih =>
    rw [attributeList, List.flatMap_cons, groupAfter_append, groupAfter_attributeItems]
    exact ih

/-- One record for each value. -/
theorem recordsFrom_attributeList (h : AttributesOk attributes) :
    recordsFrom group current (attributeList attributes) =
      attributes.flatMap fun a => a.2.map fun v => ⟨group,octets a.1,v.1,v.2⟩ := by
  induction attributes generalizing current with
  | nil => rfl
  | cons a as ih =>
    rw [attributeList, List.flatMap_cons, recordsFrom_append,
      recordsFrom_attributeItems (h a List.mem_cons_self).1, groupAfter_attributeItems,
      List.flatMap_cons]
    exact congrArg _ (ih fun a ha => h a (List.mem_cons_of_mem _ ha))

theorem attributeNames_attributeList (h : AttributesOk attributes) :
    attributeNames group (attributeList attributes) =
      (attributes.filter fun a => a.2 ≠ []).map fun a => (group,octets a.1) := by
  induction attributes with
  | nil => rfl
  | cons a as ih =>
    have hrest := ih fun a ha => h a (List.mem_cons_of_mem _ ha)
    rw [attributeList] at hrest
    rw [attributeList, List.flatMap_cons, attributeNames_append,
      attributeNames_attributeItems (h a List.mem_cons_self).1, groupAfter_attributeItems, hrest]
    by_cases ha : a.2 = [] <;> simp [ha]

/-- After a list with at least one value the name in force is one of its own. -/
theorem nameAfter_attributeList (h : AttributesOk attributes) (hne : ∃ a ∈ attributes, a.2 ≠ []) :
    ∃ a ∈ attributes, a.2 ≠ [] ∧ nameAfter current (attributeList attributes) = octets a.1 := by
  induction attributes generalizing current with
  | nil => obtain ⟨a,ha,-⟩ := hne; cases ha
  | cons a as ih =>
    have has : AttributesOk as := fun a ha => h a (List.mem_cons_of_mem _ ha)
    rw [attributeList, List.flatMap_cons, nameAfter_append,
      nameAfter_attributeItems (h a List.mem_cons_self).1]
    by_cases hrest : ∃ a ∈ as, a.2 ≠ []
    · obtain ⟨b,hb,hname⟩ := ih has hrest
      exact ⟨b,List.mem_cons_of_mem _ hb,hname⟩
    · push Not at hrest
      have hnil : as.flatMap (fun a => attributeItems a.1 a.2) = [] := by
        apply List.flatMap_eq_nil_iff.mpr
        intro b hb
        rw [hrest b hb]
        rfl
      obtain ⟨b,hb,hvalues⟩ := hne
      rcases List.mem_cons.mp hb with rfl | hb
      · exact ⟨b,List.mem_cons_self,hvalues,by rw [hnil, if_neg hvalues]; rfl⟩
      · exact absurd (hrest b hb) hvalues

theorem attributeList_ok (h : AttributesOk attributes)
    (hshort : ∀ i ∈ attributeList attributes, i.Short) :
    ItemsOk (cstr current) (attributeList attributes) := by
  induction attributes generalizing current with
  | nil => trivial
  | cons a as ih =>
    obtain ⟨hplain,htags⟩ := h a List.mem_cons_self
    rw [attributeList, List.flatMap_cons] at hshort ⊢
    rw [itemsOk_append]
    refine ⟨attributeItems_ok hplain htags fun i hi => hshort i (List.mem_append_left _ hi),?_⟩
    exact ih (fun a ha => h a (List.mem_cons_of_mem _ ha))
      fun i hi => hshort i (List.mem_append_right _ hi)

end

/-! ### The attributes that are synthesised -/

section
variable {vs ws : List (UInt8 × Bytes)}

theorem tagsOk_append (hv : TagsOk vs) (hw : TagsOk ws) : TagsOk (vs ++ ws) := by
  rw [TagsOk, List.all_append, hv, hw]
  rfl

theorem tagsOk_only {condition : Bool} (h : TagsOk vs) : TagsOk (only condition vs) := by
  cases condition
  · rfl
  · exact h

theorem tagsOk_map {α : Type} {f : α → UInt8 × Bytes} {l : List α} (h : ∀ a, 0x0f < (f a).1) :
    TagsOk (l.map f) := by
  rw [TagsOk, List.all_map]
  exact List.all_eq_true.mpr fun a _ => by simpa using h a

theorem tagsOk_csvValues {tag : UInt8} (h : 0x0f < tag) (csv : Bytes) :
    TagsOk (csvValues tag csv) := tagsOk_map fun _ => h

theorem tagsOk_forMedia {hundredths : Bytes → ℕ → Option ℕ} {media : Bytes}
    {collection : Bytes → ℕ × ℕ → List (UInt8 × Bytes)} (h : ∀ m size, TagsOk (collection m size)) :
    TagsOk (forMedia hundredths media collection) := by
  rw [TagsOk, forMedia, List.all_flatMap]
  apply List.all_eq_true.mpr
  intro m _
  split
  · exact h m _
  · rfl

theorem tagsOk_defaultCollection (hundredths : Bytes → ℕ → Option ℕ) (t : PrinterTarget) :
    TagsOk (defaultCollection hundredths t) := by
  unfold defaultCollection
  split
  · rfl
  · split <;> rfl

end

section
variable (hundredths : Bytes → ℕ → Option ℕ) (present : ℕ) (printerUri localUuid : Bytes)
  (t : PrinterTarget)

theorem standins_tagsOk : ∀ s ∈ standins hundredths printerUri localUuid t, TagsOk s.values := by
  simp only [standins, List.forall_mem_cons]
  and_intros
  all_goals repeat first
    | rfl
    | apply tagsOk_append
    | apply tagsOk_only
    | exact tagsOk_csvValues (by decide) _
    | exact tagsOk_map fun _ => show (0x0f : UInt8) < Tag.enum by decide
    | exact tagsOk_forMedia fun _ _ => rfl
    | exact tagsOk_defaultCollection hundredths t
    | split
    | simp

/-- Names and presence bits do not depend on the profile. -/
def standinTable : List (String × ℕ) :=
  (standins (fun _ _ => none) [] [] .zero).map fun s => (s.name,s.flag)

theorem standins_table : (standins hundredths printerUri localUuid t).map
    (fun s => (s.name,s.flag)) = standinTable := rfl

theorem standinTable_presence : ∀ e ∈ standinTable, e ∈ presenceTable := by decide +kernel

theorem standinTable_plain : ∀ e ∈ standinTable, Plain e.1 := by decide +kernel

theorem standinTable_nodup : (standinTable.map fun e => octets e.1).Nodup := by decide +kernel

theorem mem_missingStandins {a : String × List (UInt8 × Bytes)} :
    a ∈ missingStandins hundredths present printerUri localUuid t ↔
      ∃ s ∈ standins hundredths printerUri localUuid t, present &&& s.flag = 0 ∧
        a = (s.name,s.values) := by
  simp only [missingStandins, List.mem_map, List.mem_filter, decide_eq_true_eq]
  constructor
  · rintro ⟨s,⟨hs,hp⟩,rfl⟩; exact ⟨s,hs,hp,rfl⟩
  · rintro ⟨s,hs,hp,rfl⟩; exact ⟨s,⟨hs,hp⟩,rfl⟩

theorem standin_mem_table {s : Standin} (hs : s ∈ standins hundredths printerUri localUuid t) :
    (s.name,s.flag) ∈ standinTable := by
  rw [← standins_table hundredths printerUri localUuid t]
  exact List.mem_map_of_mem hs

theorem missingStandins_ok :
    AttributesOk (missingStandins hundredths present printerUri localUuid t) := by
  intro a ha
  obtain ⟨s,hs,-,rfl⟩ := (mem_missingStandins hundredths present printerUri localUuid t).mp ha
  exact ⟨standinTable_plain _ (standin_mem_table hundredths printerUri localUuid t hs),
    standins_tagsOk hundredths printerUri localUuid t s hs⟩

/-- Names of the facade's own attributes. -/
def facadeTable : List String := (facadeOwned .zero ++ rasterOwned .zero).map Prod.fst

theorem facadeOwned_table : (facadeOwned t ++ rasterOwned t).map Prod.fst = facadeTable := rfl

theorem facadeTable_plain : ∀ name ∈ facadeTable, Plain name := by decide +kernel

theorem facadeTable_nodup : (facadeTable.map octets).Nodup := by decide +kernel

theorem facadeTable_not_replaced : ∀ name ∈ facadeTable, isReplaced (octets name) = false := by
  decide +kernel

theorem facadeTable_not_standin : ∀ name ∈ facadeTable, ∀ e ∈ standinTable, name ≠ e.1 := by
  decide +kernel

theorem facadeOwned_ok : AttributesOk (facadeOwned t ++ rasterOwned t) := by
  intro a ha
  refine ⟨?_,?_⟩
  · apply facadeTable_plain
    rw [← facadeOwned_table t]
    exact List.mem_map_of_mem ha
  · revert a
    simp only [facadeOwned, rasterOwned, List.cons_append, List.nil_append, List.forall_mem_cons]
    and_intros
    all_goals repeat first
      | rfl
      | apply tagsOk_append
      | apply tagsOk_only
      | simp

/-- The attributes that `facadeAttributes` starts. -/
def facadeNames : List Bytes :=
  ((facadeOwned t ++ rasterOwned t).filter fun a => a.2 ≠ []).map fun a => octets a.1

theorem facadeOwned_left : AttributesOk (facadeOwned t) :=
  fun a ha => facadeOwned_ok t a (List.mem_append_left _ ha)

theorem rasterOwned_right : AttributesOk (rasterOwned t) :=
  fun a ha => facadeOwned_ok t a (List.mem_append_right _ ha)

theorem groupAfter_orphanResolution (group : UInt8) :
    groupAfter group (orphanResolution t) = group := by
  unfold orphanResolution
  split <;> rfl

theorem attributeNames_orphanResolution (group : UInt8) :
    attributeNames group (orphanResolution t) = [] := by
  unfold orphanResolution
  split <;> rfl

theorem attributeNames_facadeAttributes (group : UInt8) :
    attributeNames group (facadeAttributes t) = (facadeNames t).map fun name => (group,name) := by
  rw [facadeAttributes, attributeNames_append, attributeNames_append, groupAfter_attributeList,
    attributeNames_orphanResolution, groupAfter_orphanResolution,
    attributeNames_attributeList (facadeOwned_left t),
    attributeNames_attributeList (rasterOwned_right t), facadeNames, List.filter_append,
    List.map_append, List.map_append, List.map_map, List.map_map, List.nil_append]
  rfl

/-- The attributes that an orphaned resolution can end up in. -/
def lastOwned : List String :=
  ["which-jobs-supported","multiple-operation-time-out","multiple-operation-time-out-action",
   "pwg-raster-document-resolution-supported"]

theorem lastOwned_ne_nil : ∀ name ∈ lastOwned, cstr (octets name) ≠ [] := by decide +kernel

theorem nameAfter_facadeOwned (current : Bytes) : ∃ name ∈ lastOwned, octets name ∈ facadeNames t ∧
    nameAfter current (attributeList (facadeOwned t)) = octets name := by
  have hsplit : attributeList (facadeOwned t) =
      attributeList ((facadeOwned t).take 24) ++ attributeList ((facadeOwned t).drop 24) := by
    rw [attributeList, attributeList, attributeList, ← List.flatMap_append,
      List.take_append_drop]
  have hok : AttributesOk ((facadeOwned t).drop 24) :=
    fun a ha => facadeOwned_left t a (List.mem_of_mem_drop ha)
  rw [hsplit, nameAfter_append]
  obtain ⟨a,ha,hvalues,hname⟩ := @nameAfter_attributeList _
    (nameAfter current (attributeList ((facadeOwned t).take 24))) hok
    ⟨_,List.mem_cons_self,by simp⟩
  refine ⟨a.1,?_,?_,hname⟩
  · have hmem := List.mem_map_of_mem (f := Prod.fst) ha
    exact hmem
  · refine List.mem_map.mpr ⟨a,List.mem_filter.mpr ⟨?_,by simpa using hvalues⟩,rfl⟩
    exact List.mem_append_left _ (List.mem_of_mem_drop ha)

theorem facadeAttributes_ok (current : Bytes)
    (hshort : ∀ i ∈ facadeAttributes t, i.Short) :
    ItemsOk (cstr current) (facadeAttributes t) := by
  unfold facadeAttributes at hshort ⊢
  rw [itemsOk_append, itemsOk_append]
  refine ⟨attributeList_ok (facadeOwned_left t)
    fun i hi => hshort i (List.mem_append_left _ hi),?_,attributeList_ok (rasterOwned_right t)
    fun i hi => hshort i (List.mem_append_right _ (List.mem_append_right _ hi))⟩
  have hshort' : ∀ i ∈ orphanResolution t, i.Short :=
    fun i hi => hshort i (List.mem_append_right _ (List.mem_append_left _ hi))
  obtain ⟨name,hmem,-,hname⟩ := nameAfter_facadeOwned t current
  have hne := lastOwned_ne_nil name hmem
  rw [hname]
  unfold orphanResolution at hshort' ⊢
  split
  · rename_i hc
    rw [if_pos hc] at hshort'
    exact ⟨⟨by decide,by simp,hshort' _ List.mem_cons_self,fun h => hne h.2⟩,trivial⟩
  · trivial

end

/-! ### The normalised message -/

theorem seenNames_eq (normalize : Bool) (group : UInt8) (current : Bytes) (items : List Item) :
    seenNames normalize (cstr current) items =
      ((recordsFrom group current items).filter fun r =>
        !(normalize && isReplaced r.attributeName)).map Record.attributeName := by
  induction items generalizing group current with
  | nil => rfl
  | cons i is ih =>
    cases i with
    | group tag => exact ih tag []
    | value tag name value =>
      simp only [seenNames, ← cstr_inheritName, recordsFrom]
      have hrest := ih group (inheritName current name)
      cases hr : (normalize && isReplaced (cstr (inheritName current name))) with
      | true =>
        rw [List.filter_cons_of_neg (by simpa [Record.attributeName] using hr)]
        simpa using hrest
      | false =>
        rw [List.filter_cons_of_pos (by simp [Record.attributeName, hr]), List.map_cons, ← hrest]
        simp [Record.attributeName]

/-- The records that stay: all but those the facade answers itself. -/
def Envelope.keptRecords (e : Envelope) : List Record :=
  e.records.filter fun r => !isReplaced r.attributeName

/-- The presence mask that the response leaves behind. -/
def Envelope.presence (e : Envelope) : ℕ := presenceOf (e.keptRecords.map Record.attributeName)

/-- Records that are added for a profile. They all lie in the printer-attributes group. -/
def addedRecords (hundredths : Bytes → ℕ → Option ℕ) (present : ℕ) (printerUri localUuid : Bytes)
    (t : PrinterTarget) : List Record :=
  recordsFrom Tag.printerAttributes [] (attributeList
    (missingStandins hundredths present printerUri localUuid t) ++ facadeAttributes t)

/-- The attributes that are added for a profile. -/
def addedNames (hundredths : Bytes → ℕ → Option ℕ) (present : ℕ) (printerUri localUuid : Bytes)
    (t : PrinterTarget) : List Bytes :=
  ((missingStandins hundredths present printerUri localUuid t).filter fun a => a.2 ≠ []).map
    (fun a => octets a.1) ++ facadeNames t

section
variable {hundredths : Bytes → ℕ → Option ℕ} {present : ℕ} {printerUri localUuid : Bytes}
  {t : PrinterTarget}

/-- The added records do not depend on the name in force before them: the first bears a name. -/
theorem recordsFrom_added (current : Bytes) :
    recordsFrom Tag.printerAttributes current (attributeList
        (missingStandins hundredths present printerUri localUuid t) ++ facadeAttributes t) =
      addedRecords hundredths present printerUri localUuid t := by
  have hok := missingStandins_ok hundredths present printerUri localUuid t
  have hfacade : ∀ a b : Bytes, recordsFrom Tag.printerAttributes a (facadeAttributes t) =
      recordsFrom Tag.printerAttributes b (facadeAttributes t) := fun _ _ => rfl
  rw [addedRecords, recordsFrom_append, recordsFrom_append, recordsFrom_attributeList hok,
    recordsFrom_attributeList hok, groupAfter_attributeList]
  exact congrArg _ (hfacade _ _)

theorem mem_recordsFrom_attributeList {attributes : List (String × List (UInt8 × Bytes))}
    (hok : AttributesOk attributes) {group : UInt8} {current : Bytes} {r : Record}
    (hr : r ∈ recordsFrom group current (attributeList attributes)) :
    ∃ a ∈ attributes, ∃ v ∈ a.2, r = ⟨group,octets a.1,v.1,v.2⟩ := by
  rw [recordsFrom_attributeList hok] at hr
  obtain ⟨a,ha,hr⟩ := List.mem_flatMap.mp hr
  obtain ⟨v,hv,rfl⟩ := List.mem_map.mp hr
  exact ⟨a,ha,v,hv,rfl⟩

/-- The records of the facade's own attributes, the orphaned resolution among them. -/
theorem facadeRecords_cases {current : Bytes} {r : Record}
    (hr : r ∈ recordsFrom Tag.printerAttributes current (facadeAttributes t)) :
    (∃ a ∈ facadeOwned t ++ rasterOwned t, ∃ v ∈ a.2,
      r = ⟨Tag.printerAttributes,octets a.1,v.1,v.2⟩) ∨
    ∃ name ∈ lastOwned, octets name ∈ facadeNames t ∧ r.group = Tag.printerAttributes ∧
      r.name = octets name := by
  rw [facadeAttributes, recordsFrom_append, groupAfter_attributeList, recordsFrom_append,
    groupAfter_orphanResolution] at hr
  rcases List.mem_append.mp hr with hr | hr
  · obtain ⟨a,ha,v,hv,rfl⟩ := mem_recordsFrom_attributeList (facadeOwned_left t) hr
    exact .inl ⟨a,List.mem_append_left _ ha,v,hv,rfl⟩
  rcases List.mem_append.mp hr with hr | hr
  · obtain ⟨name,hlast,hname,hafter⟩ := nameAfter_facadeOwned t current
    rw [hafter] at hr
    unfold orphanResolution at hr
    split at hr
    · simp only [additional, recordsFrom, inheritName, if_true, List.mem_singleton] at hr
      subst hr
      exact .inr ⟨name,hlast,hname,rfl,rfl⟩
    · cases hr
  · obtain ⟨a,ha,v,hv,rfl⟩ := mem_recordsFrom_attributeList (rasterOwned_right t) hr
    exact .inl ⟨a,List.mem_append_right _ ha,v,hv,rfl⟩

/-- Where an added record comes from: a stand-in, an attribute of the facade's own, or an orphaned
resolution behind one of these. -/
theorem addedRecords_cases {r : Record}
    (hr : r ∈ addedRecords hundredths present printerUri localUuid t) :
    (∃ s ∈ standins hundredths printerUri localUuid t, present &&& s.flag = 0 ∧
      ∃ v ∈ s.values, r = ⟨Tag.printerAttributes,octets s.name,v.1,v.2⟩) ∨
    (∃ a ∈ facadeOwned t ++ rasterOwned t, ∃ v ∈ a.2,
      r = ⟨Tag.printerAttributes,octets a.1,v.1,v.2⟩) ∨
    ∃ name ∈ lastOwned, octets name ∈ facadeNames t ∧ r.group = Tag.printerAttributes ∧
      r.name = octets name := by
  rw [addedRecords, recordsFrom_append, groupAfter_attributeList] at hr
  rcases List.mem_append.mp hr with hr | hr
  · obtain ⟨a,ha,v,hv,rfl⟩ := mem_recordsFrom_attributeList
      (missingStandins_ok hundredths present printerUri localUuid t) hr
    obtain ⟨s,hs,hp,rfl⟩ := (mem_missingStandins hundredths present printerUri localUuid t).mp ha
    exact .inl ⟨s,hs,hp,v,hv,rfl⟩
  · exact .inr (facadeRecords_cases hr)

/-- Every value of a missing stand-in is added. -/
theorem mem_addedRecords_of_standin {s : Standin}
    (hs : s ∈ standins hundredths printerUri localUuid t) (hp : present &&& s.flag = 0)
    {v : UInt8 × Bytes} (hv : v ∈ s.values) :
    ⟨Tag.printerAttributes,octets s.name,v.1,v.2⟩ ∈
      addedRecords hundredths present printerUri localUuid t := by
  rw [addedRecords, recordsFrom_append,
    recordsFrom_attributeList (missingStandins_ok hundredths present printerUri localUuid t)]
  refine List.mem_append_left _ (List.mem_flatMap.mpr ⟨(s.name,s.values),?_,?_⟩)
  · exact (mem_missingStandins hundredths present printerUri localUuid t).mpr ⟨s,hs,hp,rfl⟩
  · exact List.mem_map.mpr ⟨v,hv,rfl⟩

/-- Every added record belongs to an added attribute. -/
theorem mem_addedRecords {r : Record}
    (hr : r ∈ addedRecords hundredths present printerUri localUuid t) :
    r.group = Tag.printerAttributes ∧
      r.attributeName ∈ addedNames hundredths present printerUri localUuid t := by
  have hfacade : ∀ name, octets name ∈ facadeNames t → cstr (octets name) = octets name := by
    intro name hname
    obtain ⟨a,ha,hoctets⟩ := List.mem_map.mp hname
    rw [← hoctets]
    exact (facadeOwned_ok t a (List.mem_filter.mp ha).1).1.cstr
  simp only [addedNames, Record.attributeName]
  rcases addedRecords_cases hr with ⟨s,hs,hp,v,hv,rfl⟩ | ⟨a,ha,v,hv,rfl⟩ | ⟨name,-,hname,hg,hn⟩
  · have hmem := (mem_missingStandins hundredths present printerUri localUuid t).mpr ⟨s,hs,hp,rfl⟩
    refine ⟨rfl,List.mem_append_left _ (List.mem_map.mpr
      ⟨_,List.mem_filter.mpr ⟨hmem,by simpa using List.ne_nil_of_mem hv⟩,?_⟩)⟩
    exact (missingStandins_ok hundredths present printerUri localUuid t _ hmem).1.cstr.symm
  · refine ⟨rfl,List.mem_append_right _ (List.mem_map.mpr
      ⟨a,List.mem_filter.mpr ⟨ha,by simpa using List.ne_nil_of_mem hv⟩,?_⟩)⟩
    exact (facadeOwned_ok t a ha).1.cstr.symm
  · rw [hn, hfacade name hname]
    exact ⟨hg,List.mem_append_right _ hname⟩

theorem synthesizedAttributes_ok (group : UInt8) (current : Bytes)
    (hshort : ∀ i ∈ synthesizedAttributes hundredths present group printerUri localUuid t,
      i.Short) :
    ItemsOk (cstr current)
      (synthesizedAttributes hundredths present group printerUri localUuid t) := by
  have hadded : ∀ current, ItemsOk (cstr current) (attributeList
      (missingStandins hundredths present printerUri localUuid t) ++ facadeAttributes t) := by
    intro current
    rw [itemsOk_append]
    exact ⟨attributeList_ok (missingStandins_ok hundredths present printerUri localUuid t)
        fun i hi => hshort i (List.mem_append_right _ (List.mem_append_left _ hi)),
      facadeAttributes_ok t _
        fun i hi => hshort i (List.mem_append_right _ (List.mem_append_right _ hi))⟩
  unfold synthesizedAttributes
  split
  · exact hadded current
  · exact ⟨by decide,by decide,hadded []⟩

theorem recordsFrom_synthesized (group : UInt8) (current : Bytes) :
    recordsFrom group current
        (synthesizedAttributes hundredths present group printerUri localUuid t) =
      addedRecords hundredths present printerUri localUuid t := by
  unfold synthesizedAttributes
  split
  · rename_i hg
    rw [hg]
    exact recordsFrom_added current
  · exact recordsFrom_added []

theorem attributeNames_synthesized (group : UInt8) :
    attributeNames group
        (synthesizedAttributes hundredths present group printerUri localUuid t) =
      (addedNames hundredths present printerUri localUuid t).map
        fun name => (Tag.printerAttributes,name) := by
  have hadded : attributeNames Tag.printerAttributes (attributeList
      (missingStandins hundredths present printerUri localUuid t) ++ facadeAttributes t) =
      (addedNames hundredths present printerUri localUuid t).map
        fun name => (Tag.printerAttributes,name) := by
    rw [attributeNames_append, groupAfter_attributeList, attributeNames_facadeAttributes,
      attributeNames_attributeList (missingStandins_ok hundredths present printerUri localUuid t),
      addedNames, List.map_append, List.map_map]
    rfl
  unfold synthesizedAttributes
  split
  · rename_i hg
    rw [hg]
    exact hadded
  · exact hadded

end

section
variable {hundredths : Bytes → ℕ → Option ℕ} {mem : Memory}
  {input out printerUri authority localUuid : Bytes} {t : PrinterTarget} {k : ℕ}

/-- Normalisation, item by item. -/
theorem normalize_items
    (h : ippCodecNormalizePrinterResponse hundredths mem input printerUri authority localUuid t =
      .ok (out,k))
    (hstatus : ippCodecMessageCode input < 0x0400) :
    ∃ e e', decode input = .ok e ∧ decode out = .ok e' ∧
      e'.header = e.header ∧ e'.document = e.document ∧
      e'.items = transformItems printerUri authority true 0 [] e.items ++
        synthesizedAttributes hundredths e.presence (groupAfter 0 e.items) (cstr printerUri)
          (cstr localUuid) t := by
  rw [ippCodecNormalizePrinterResponse, if_neg (by omega)] at h
  obtain ⟨e,he,-,hout,hshort⟩ := transformMessage_ok h
  have hstep := InStep.refl (replaces true) 0 []
  have hpresence : presenceOf (seenNames true [] e.items) = e.presence := by
    rw [← cstr_nil, seenNames_eq true 0]
    simp only [Bool.true_and]
    rfl
  simp only [imageItems, insertedItems, Option.isSome_some, hpresence] at hout hshort
  have hedit := editItems_ok hstep e.items_ok
    fun i hi => hshort i (List.mem_append_left _ hi)
  have hinserted := synthesizedAttributes_ok (groupAfter 0 e.items)
    (nameAfter [] (editItems (replaces true) (rewrittenValue printerUri authority) 0 [] e.items))
    fun i hi => hshort i (List.mem_append_right _ hi)
  have hok := (itemsOk_append [] _ _).mpr ⟨hedit,hinserted⟩
  refine ⟨e,⟨e.header,_,e.document,e.header_length,hok⟩,he,?_,rfl,rfl,rfl⟩
  rw [hout]
  exact decode_parts e.header_length hok

/-- Normalisation as a map on decoded messages. -/
theorem normalize_ok
    (h : ippCodecNormalizePrinterResponse hundredths mem input printerUri authority localUuid t =
      .ok (out,k))
    (hstatus : ippCodecMessageCode input < 0x0400) :
    ∃ e e', decode input = .ok e ∧ decode out = .ok e' ∧
      e'.header = e.header ∧ e'.document = e.document ∧
      e'.records = e.keptRecords.map (rewriteRecord printerUri authority) ++
        addedRecords hundredths e.presence (cstr printerUri) (cstr localUuid) t ∧
      e'.attributeNames = e.attributeNames.filter (fun p => !isReplaced p.2) ++
        (addedNames hundredths e.presence (cstr printerUri) (cstr localUuid) t).map
          fun name => (Tag.printerAttributes,name) := by
  obtain ⟨e,e',he,he',hheader,hdocument,hitems⟩ := normalize_items h hstatus
  refine ⟨e,e',he,he',hheader,hdocument,?_,?_⟩
  · have hrecords := @recordsFrom_editItems _ (rewrittenValue printerUri authority) _ _ _
      e.items (InStep.refl (replaces true) 0 [])
    rw [cstr_nil] at hrecords
    rw [Envelope.records, hitems, recordsFrom_append, hrecords, groupAfter_editItems,
      recordsFrom_synthesized]
    rfl
  · rw [Envelope.attributeNames, hitems, attributeNames_append, attributeNames_editItems,
      groupAfter_editItems, attributeNames_synthesized]
    rfl

end

end Espresso.Codec
