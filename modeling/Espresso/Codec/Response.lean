import Espresso.Codec.Normalize
import Espresso.Codec.Discovery

/-! What a client learns from a normalised Get-Printer-Attributes response: which attributes are
there once, which come from the facade and which from the printer. -/
namespace Espresso.Codec

/-- The attributes of the printer-attributes group. -/
def Envelope.printerNames (e : Envelope) : List Bytes :=
  (e.attributeNames.filter fun p => p.1 = Tag.printerAttributes).map Prod.snd

/-- The values of an attribute. -/
def Envelope.valuesOf (e : Envelope) (group : UInt8) (name : Bytes) : List (UInt8 × Bytes) :=
  (e.records.filter fun r => r.group = group ∧ r.attributeName = name).map
    fun r => (r.tag,r.value)

theorem Envelope.mem_printerNames {e : Envelope} {name : Bytes} :
    name ∈ e.printerNames ↔
      ∃ r ∈ e.records, r.group = Tag.printerAttributes ∧ r.attributeName = name := by
  rw [← e.mem_attributeNames]
  simp only [printerNames, List.mem_map, List.mem_filter, decide_eq_true_eq]
  constructor
  · rintro ⟨⟨_,_⟩,⟨hp,rfl⟩,rfl⟩; exact hp
  · intro h; exact ⟨_,⟨h,rfl⟩,rfl⟩

/-- Stand-ins that have a value whatever the profile. -/
def unconditionalStandins : List String :=
  ["ipp-versions-supported","operations-supported","printer-uri-supported",
   "uri-authentication-supported","uri-security-supported","reference-uri-schemes-supported",
   "printer-name","printer-info","printer-make-and-model","printer-location","charset-configured",
   "charset-supported","natural-language-configured","generated-natural-language-supported",
   "printer-more-info","printer-up-time","pdl-override-supported","queued-job-count",
   "color-supported","sides-supported","media-source-supported","media-type-supported",
   "printer-input-tray","print-color-mode-supported","finishings-default","finishings-supported",
   "orientation-requested-default","orientation-requested-supported","output-bin-default",
   "output-bin-supported","print-quality-default","print-quality-supported","sides-default",
   "pages-per-minute","compression-supported","multiple-document-jobs-supported",
   "job-creation-attributes-supported"]

/-- The facade's own attributes that have a value whatever the profile. -/
def unconditionalOwned : List String :=
  ((facadeOwned .zero ++ rasterOwned .zero).filter fun a => a.2 ≠ []).map Prod.fst

theorem relayOperations_ne_nil (operations : ℕ) :
    (List.range 64).filter (ippCodecRelayOperations operations).testBit ≠ [] := by
  have hmem : Operation.getPrinterAttributes ∈
      (List.range 64).filter (ippCodecRelayOperations operations).testBit := by
    rw [List.mem_filter]
    refine ⟨by decide,?_⟩
    unfold ippCodecRelayOperations
    simp only
    split <;> simp [Nat.testBit_or, Nat.one_shiftLeft]
  exact List.ne_nil_of_mem hmem

theorem unconditionalStandins_values (hundredths : Bytes → ℕ → Option ℕ)
    (printerUri localUuid : Bytes) (t : PrinterTarget) :
    ∀ s ∈ standins hundredths printerUri localUuid t, s.name ∈ unconditionalStandins →
      s.values ≠ [] := by
  simp only [standins, List.forall_mem_cons]
  and_intros
  all_goals first
    | exact fun _ => List.cons_ne_nil _ _
    | exact fun h => absurd h (by decide)
    | exact fun _ h => relayOperations_ne_nil _ (List.map_eq_nil_iff.mp h)
    | simp

theorem unconditionalStandins_table : ∀ name ∈ unconditionalStandins, ∃ e ∈ standinTable,
    e.1 = name := by decide +kernel

theorem unconditionalOwned_values (t : PrinterTarget) :
    ∀ a ∈ facadeOwned t ++ rasterOwned t, a.1 ∈ unconditionalOwned → a.2 ≠ [] := by
  simp only [facadeOwned, rasterOwned, List.cons_append, List.nil_append, List.forall_mem_cons]
  and_intros
  all_goals first
    | exact fun _ => List.cons_ne_nil _ _
    | exact fun h => absurd h (by decide +kernel)
    | simp

theorem unconditionalOwned_names (t : PrinterTarget) {name : String}
    (h : name ∈ unconditionalOwned) : octets name ∈ facadeNames t := by
  have htable : ∀ name ∈ unconditionalOwned, name ∈ facadeTable := by decide +kernel
  have hname := htable name h
  rw [← facadeOwned_table t] at hname
  obtain ⟨a,ha,rfl⟩ := List.mem_map.mp hname
  exact List.mem_map.mpr ⟨a,List.mem_filter.mpr
    ⟨ha,by simpa using unconditionalOwned_values t a ha h⟩,rfl⟩

/-- Synthesised for every profile: exactly once, if the response is as it should be. -/
def unconditionalNames : List String := unconditionalStandins ++ unconditionalOwned

/-- What normalisation should make of a response. -/
structure Normalized (e e' : Envelope) : Prop where
  once : e'.printerNames.Nodup
  complete : ∀ name ∈ unconditionalNames, e'.printerNames.count (octets name) = 1
  kept : ∀ group name, isReplaced name = false →
    (∀ r ∈ e.records, r.group = group → r.attributeName = name →
      isRewritten r.tag r.attributeName = false) →
    e.valuesOf group name ≠ [] → e'.valuesOf group name = e.valuesOf group name

/-! ### The attributes of the normalised group -/

section
variable {hundredths : Bytes → ℕ → Option ℕ} {printerUri localUuid : Bytes} {t : PrinterTarget}
  {e : Envelope}

/-- A stand-in is missing exactly when no kept record bears its name. -/
theorem standin_missing_iff {s : Standin}
    (hs : s ∈ standins hundredths printerUri localUuid t) :
    e.presence &&& s.flag = 0 ↔ ∀ r ∈ e.keptRecords, r.attributeName ≠ octets s.name := by
  have hentry := standinTable_presence _ (standin_mem_table hundredths printerUri localUuid t hs)
  rw [Envelope.presence, presenceOf_and hentry, List.mem_map]
  push Not
  rfl

theorem mem_keptRecords {r : Record} :
    r ∈ e.keptRecords ↔ r ∈ e.records ∧ isReplaced r.attributeName = false := by
  simp [Envelope.keptRecords]

/-- The added stand-ins are stand-ins of names that no kept record bears. -/
theorem mem_addedNames {name : Bytes} :
    name ∈ addedNames hundredths e.presence printerUri localUuid t ↔
      (∃ s ∈ standins hundredths printerUri localUuid t, name = octets s.name ∧ s.values ≠ [] ∧
        ∀ r ∈ e.keptRecords, r.attributeName ≠ name) ∨ name ∈ facadeNames t := by
  simp only [addedNames, List.mem_append, List.mem_map, List.mem_filter, mem_missingStandins,
    decide_eq_true_eq]
  apply or_congr_left
  constructor
  · rintro ⟨a,⟨⟨s,hs,hp,rfl⟩,hv⟩,rfl⟩
    exact ⟨s,hs,rfl,hv,(standin_missing_iff hs).mp hp⟩
  · rintro ⟨s,hs,rfl,hv,hr⟩
    exact ⟨_,⟨⟨s,hs,(standin_missing_iff hs).mpr hr,rfl⟩,hv⟩,rfl⟩

theorem facadeNames_table {name : Bytes} (h : name ∈ facadeNames t) :
    ∃ n ∈ facadeTable, name = octets n := by
  obtain ⟨a,ha,rfl⟩ := List.mem_map.mp h
  refine ⟨a.1,?_,rfl⟩
  rw [← facadeOwned_table t]
  exact List.mem_map_of_mem (List.mem_filter.mp ha).1

theorem facadeNames_nodup : (facadeNames t).Nodup := by
  refine List.Nodup.sublist ?_ facadeTable_nodup
  rw [← facadeOwned_table t, List.map_map]
  exact List.filter_sublist.map _

theorem addedNames_nodup :
    (addedNames hundredths e.presence printerUri localUuid t).Nodup := by
  refine List.nodup_append'.mpr ⟨?_,facadeNames_nodup,?_⟩
  · refine List.Nodup.sublist ?_ standinTable_nodup
    rw [← standins_table hundredths printerUri localUuid t, List.map_map]
    have hsub : (((missingStandins hundredths e.presence printerUri localUuid t).filter
        fun a => a.2 ≠ []).map (fun a => octets a.1)).Sublist
        ((missingStandins hundredths e.presence printerUri localUuid t).map
          (fun a => octets a.1)) := List.filter_sublist.map _
    refine hsub.trans ?_
    rw [missingStandins, List.map_map]
    exact List.filter_sublist.map _
  · intro name hs hf
    obtain ⟨n,hn,rfl⟩ := facadeNames_table hf
    simp only [List.mem_map, List.mem_filter, mem_missingStandins] at hs
    obtain ⟨a,⟨⟨s,hs,-,rfl⟩,-⟩,hname⟩ := hs
    exact facadeTable_not_standin n hn _
      (standin_mem_table hundredths printerUri localUuid t hs) (octets_inj.mp hname).symm

/-! ### When normalisation does what it should -/

/-- No attribute that the facade adds regardless is already in the printer's group. -/
def NoOwnedReported (t : PrinterTarget) (e : Envelope) : Prop :=
  ∀ name ∈ facadeNames t, name ∉ e.printerNames

/-- What the presence mask takes as reported is reported in the printer's group. -/
def ReportedInGroup (e : Envelope) : Prop :=
  ∀ name ∈ unconditionalStandins, isReplaced (octets name) = false →
    (∃ r ∈ e.records, r.attributeName = octets name) → octets name ∈ e.printerNames

theorem mem_filter_printerNames {name : Bytes} :
    name ∈ e.printerNames.filter (fun name => !isReplaced name) ↔
      ∃ r ∈ e.keptRecords, r.group = Tag.printerAttributes ∧ r.attributeName = name := by
  simp only [List.mem_filter, Envelope.mem_printerNames, mem_keptRecords, Bool.not_eq_true']
  constructor
  · rintro ⟨⟨r,hr,hg,rfl⟩,hname⟩; exact ⟨r,⟨hr,hname⟩,hg,rfl⟩
  · rintro ⟨r,⟨hr,hname⟩,hg,rfl⟩; exact ⟨⟨r,hr,hg,rfl⟩,hname⟩

/-- The added attributes clash with the printer's own only if the facade owns one of these. -/
theorem disjoint_addedNames_iff :
    (e.printerNames.filter fun name => !isReplaced name).Disjoint
        (addedNames hundredths e.presence printerUri localUuid t) ↔ NoOwnedReported t e := by
  constructor
  · intro hdisjoint name hname hreported
    obtain ⟨n,hn,rfl⟩ := facadeNames_table hname
    refine hdisjoint (List.mem_filter.mpr ⟨hreported,?_⟩) (mem_addedNames.mpr (.inr hname))
    simp [facadeTable_not_replaced n hn]
  · intro hnone name hprinter hadded
    rcases mem_addedNames.mp hadded with ⟨s,-,-,-,hmissing⟩ | hfacade
    · obtain ⟨r,hr,-,rfl⟩ := mem_filter_printerNames.mp hprinter
      exact hmissing r hr rfl
    · exact hnone name hfacade (List.mem_filter.mp hprinter).1

/-- Every unconditional attribute is there exactly when none is only reported elsewhere. -/
theorem unconditional_mem_iff :
    (∀ name ∈ unconditionalNames, octets name ∈ e.printerNames.filter (fun n => !isReplaced n) ++
      addedNames hundredths e.presence printerUri localUuid t) ↔ ReportedInGroup e := by
  constructor
  · intro hall name hname hrep ⟨r,hr,hrname⟩
    rcases List.mem_append.mp (hall name (List.mem_append_left _ hname)) with h | h
    · exact (List.mem_filter.mp h).1
    · exfalso
      rcases mem_addedNames.mp h with ⟨s,-,-,-,hmissing⟩ | hfacade
      · exact hmissing r (mem_keptRecords.mpr ⟨hr,hrname ▸ hrep⟩) hrname
      · obtain ⟨n,hn,hoctets⟩ := facadeNames_table hfacade
        obtain ⟨entry,hentry,rfl⟩ := unconditionalStandins_table name hname
        exact facadeTable_not_standin n hn entry hentry (octets_inj.mp hoctets).symm
  · intro hgroup name hname
    rcases List.mem_append.mp hname with hname | hname
    · by_cases hseen : ∃ r ∈ e.keptRecords, r.attributeName = octets name
      · obtain ⟨r,hr,hrname⟩ := hseen
        obtain ⟨hmem,hrep⟩ := mem_keptRecords.mp hr
        rw [hrname] at hrep
        refine List.mem_append_left _ (List.mem_filter.mpr ⟨?_,by simp [hrep]⟩)
        exact hgroup name hname hrep ⟨r,hmem,hrname⟩
      · push Not at hseen
        refine List.mem_append_right _ (mem_addedNames.mpr (.inl ?_))
        obtain ⟨entry,hentry,rfl⟩ := unconditionalStandins_table name hname
        rw [← standins_table hundredths printerUri localUuid t] at hentry
        obtain ⟨s,hs,rfl⟩ := List.mem_map.mp hentry
        exact ⟨s,hs,rfl,unconditionalStandins_values hundredths printerUri localUuid t s hs hname,
          hseen⟩
    · exact List.mem_append_right _ (mem_addedNames.mpr (.inr (unconditionalOwned_names t hname)))

/-- Rewriting leaves the values of an attribute that holds no URI of the facade. -/
theorem filter_rewritten (printerUri authority : Bytes) {rs : List Record} {group : UInt8}
    {name : Bytes} (huri : ∀ r ∈ rs, r.group = group → r.attributeName = name →
      isRewritten r.tag r.attributeName = false) :
    ((rs.map (rewriteRecord printerUri authority)).filter
        fun r => r.group = group ∧ r.attributeName = name).map (fun r => (r.tag,r.value)) =
      (rs.filter fun r => r.group = group ∧ r.attributeName = name).map
        fun r => (r.tag,r.value) := by
  rw [List.filter_map, List.map_map]
  apply List.map_congr_left
  intro r hr
  obtain ⟨hr,hcond⟩ := List.mem_filter.mp hr
  obtain ⟨hgroup,hname⟩ : r.group = group ∧ r.attributeName = name := of_decide_eq_true hcond
  have hsame := huri r hr hgroup hname
  simp [rewriteRecord, rewrittenValue, newValue, hsame]

theorem valuesOf_rewritten (printerUri authority : Bytes) {group : UInt8} {name : Bytes}
    (hrep : isReplaced name = false)
    (huri : ∀ r ∈ e.records, r.group = group → r.attributeName = name →
      isRewritten r.tag r.attributeName = false) :
    ((e.keptRecords.map (rewriteRecord printerUri authority)).filter
        fun r => r.group = group ∧ r.attributeName = name).map (fun r => (r.tag,r.value)) =
      e.valuesOf group name := by
  have hkept : e.keptRecords.filter (fun r => r.group = group ∧ r.attributeName = name) =
      e.records.filter fun r => r.group = group ∧ r.attributeName = name := by
    rw [Envelope.keptRecords, List.filter_filter]
    apply List.filter_congr
    intro r _
    by_cases h : r.group = group ∧ r.attributeName = name
    · simp [h.1, h.2, hrep]
    · simp [h]
  rw [filter_rewritten printerUri authority fun r hr => huri r (mem_keptRecords.mp hr).1, hkept]
  rfl

/-- An attribute that the printer reported gets no further values. -/
theorem addedRecords_filter (hnone : NoOwnedReported t e) {group : UInt8} {name : Bytes}
    (hrep : isReplaced name = false) (hvalues : e.valuesOf group name ≠ []) :
    (addedRecords hundredths e.presence printerUri localUuid t).filter
      (fun r => r.group = group ∧ r.attributeName = name) = [] := by
  apply List.filter_eq_nil_iff.mpr
  rintro r hr hcond
  obtain ⟨rfl,rfl⟩ : r.group = group ∧ r.attributeName = name := by simpa using hcond
  obtain ⟨hgroup,hadded⟩ := mem_addedRecords hr
  rw [hgroup] at hvalues
  have hprinter : r.attributeName ∈ e.printerNames := by
    obtain ⟨v,hv⟩ := List.exists_mem_of_ne_nil _ hvalues
    obtain ⟨q,hq,-⟩ := List.mem_map.mp hv
    obtain ⟨hq,hcond⟩ := List.mem_filter.mp hq
    exact Envelope.mem_printerNames.mpr ⟨q,hq,by simpa using hcond⟩
  exact disjoint_addedNames_iff.mpr hnone
    (List.mem_filter.mpr ⟨hprinter,by simp [hrep]⟩) hadded

end

theorem normalize_printerNames {hundredths : Bytes → ℕ → Option ℕ} {mem : Memory}
    {input out printerUri authority localUuid : Bytes} {t : PrinterTarget} {k : ℕ} {e : Envelope}
    (he : decode input = .ok e) (hstatus : ippCodecMessageCode input < 0x0400)
    (h : ippCodecNormalizePrinterResponse hundredths mem input printerUri authority localUuid t =
      .ok (out,k)) :
    ∃ e', decode out = .ok e' ∧
      e'.records = e.keptRecords.map (rewriteRecord printerUri authority) ++
        addedRecords hundredths e.presence (cstr printerUri) (cstr localUuid) t ∧
      e'.printerNames = e.printerNames.filter (fun name => !isReplaced name) ++
        addedNames hundredths e.presence (cstr printerUri) (cstr localUuid) t := by
  obtain ⟨e1,e',he1,he',-,-,hrecords,hnames⟩ := normalize_ok h hstatus
  rw [he] at he1
  cases he1
  refine ⟨e',he',hrecords,?_⟩
  rw [Envelope.printerNames, hnames, List.filter_append, List.map_append]
  congr 1
  · rw [Envelope.printerNames, List.filter_map, List.filter_filter, List.filter_filter]
    congr 2
    funext p
    exact Bool.and_comm _ _
  · rw [List.filter_map, List.map_map]
    simp

/-- What the facade always answers itself comes from its stand-in alone. -/
theorem normalize_replaced {hundredths : Bytes → ℕ → Option ℕ} {mem : Memory}
    {input out printerUri authority localUuid : Bytes} {t : PrinterTarget} {k : ℕ} {e' : Envelope}
    (hstatus : ippCodecMessageCode input < 0x0400)
    (h : ippCodecNormalizePrinterResponse hundredths mem input printerUri authority localUuid t =
      .ok (out,k)) (hout : decode out = .ok e') {s : Standin}
    (hs : s ∈ standins hundredths (cstr printerUri) (cstr localUuid) t)
    (hrep : isReplaced (octets s.name) = true) (v : UInt8 × Bytes) :
    v ∈ e'.valuesOf Tag.printerAttributes (octets s.name) ↔ v ∈ s.values := by
  obtain ⟨e,e1,-,he1,-,-,hrecords,-⟩ := normalize_ok h hstatus
  rw [hout] at he1
  cases he1
  have hkept : ∀ r ∈ e.keptRecords, r.attributeName ≠ octets s.name := by
    intro r hr hname
    have := (mem_keptRecords.mp hr).2
    rw [hname, hrep] at this
    cases this
  have hfacade : ∀ name ∈ facadeTable, cstr (octets name) ≠ octets s.name := by
    intro name hmem hname
    rw [(facadeTable_plain name hmem).cstr] at hname
    have := facadeTable_not_replaced name hmem
    rw [hname, hrep] at this
    cases this
  simp only [Envelope.valuesOf, List.mem_map, List.mem_filter, decide_eq_true_eq, hrecords,
    List.mem_append]
  constructor
  · rintro ⟨r,⟨⟨q,hq,rfl⟩ | hr,-,hname⟩,rfl⟩
    · exact absurd hname (hkept q hq)
    rcases addedRecords_cases hr with ⟨s',hs',-,v,hv,rfl⟩ | ⟨a,ha,v,hv,rfl⟩ | ⟨name,hmem,-,-,hn⟩
    · have hentry := standin_mem_table hundredths (cstr printerUri) (cstr localUuid) t hs'
      rw [Record.attributeName, (standinTable_plain _ hentry).cstr] at hname
      have hnodup : ((standins hundredths (cstr printerUri) (cstr localUuid) t).map
          fun s => octets s.name).Nodup := standinTable_nodup
      rw [← List.inj_on_of_nodup_map hnodup hs' hs hname]
      exact hv
    · refine absurd hname (hfacade a.1 ?_)
      rw [← facadeOwned_table t]
      exact List.mem_map_of_mem ha
    · have hsub : ∀ name ∈ lastOwned, name ∈ facadeTable := by decide +kernel
      rw [Record.attributeName, hn] at hname
      exact absurd hname (hfacade name (hsub name hmem))
  · intro hv
    have hplain := standinTable_plain _
      (standin_mem_table hundredths (cstr printerUri) (cstr localUuid) t hs)
    exact ⟨_,⟨.inr (mem_addedRecords_of_standin hs ((standin_missing_iff hs).mpr hkept) hv),rfl,
      hplain.cstr⟩,rfl⟩

/-- Normalisation keeps every attribute single, adds each unconditional one and keeps the
printer's values exactly when the printer reports no attribute of the facade's own and reports
what the presence mask takes as reported in the printer-attributes group. -/
theorem normalizePrinterResponse_iff {hundredths : Bytes → ℕ → Option ℕ} {mem : Memory}
    {input out printerUri authority localUuid : Bytes} {t : PrinterTarget} {k : ℕ} {e : Envelope}
    (he : decode input = .ok e) (hstatus : ippCodecMessageCode input < 0x0400)
    (hnodup : e.printerNames.Nodup)
    (h : ippCodecNormalizePrinterResponse hundredths mem input printerUri authority localUuid t =
      .ok (out,k)) :
    ∃ e', decode out = .ok e' ∧
      (Normalized e e' ↔ NoOwnedReported t e ∧ ReportedInGroup e) := by
  obtain ⟨e',he',hrecords,hprinter⟩ := normalize_printerNames he hstatus h
  refine ⟨e',he',?_⟩
  constructor
  · intro hn
    have honce := hn.once
    rw [hprinter] at honce
    have hmem : ∀ name ∈ unconditionalNames, octets name ∈ e'.printerNames := by
      intro name hname
      have hcount := hn.complete name hname
      exact List.count_pos_iff.mp (by omega)
    rw [hprinter] at hmem
    exact ⟨disjoint_addedNames_iff.mp (List.disjoint_of_nodup_append honce),
      unconditional_mem_iff.mp hmem⟩
  · rintro ⟨hnone,hgroup⟩
    have honce : e'.printerNames.Nodup := by
      rw [hprinter]
      exact List.nodup_append'.mpr
        ⟨hnodup.filter _,addedNames_nodup,disjoint_addedNames_iff.mpr hnone⟩
    refine ⟨honce,?_,?_⟩
    · intro name hname
      refine List.count_eq_one_of_mem honce ?_
      rw [hprinter]
      exact unconditional_mem_iff.mpr hgroup name hname
    · intro group name hrep huri hvalues
      rw [Envelope.valuesOf, hrecords, List.filter_append, addedRecords_filter hnone hrep hvalues,
        List.append_nil]
      exact valuesOf_rewritten printerUri authority hrep huri

/-- A printer that reports its device id, like every IPP Everywhere printer. -/
def deviceIdResponse : Envelope where
  header := [2,0,0,0,0,0,0,1]
  items := [.group Tag.operationAttributes,
    named Tag.charset "attributes-charset" (octets "utf-8"),
    named Tag.language "attributes-natural-language" (octets "en"),
    .group Tag.printerAttributes, named Tag.text "printer-device-id" (octets "MFG:Acme;MDL:1;")]
  document := []
  header_length := literalHeader_length
  items_ok := by decide +kernel

theorem exists_of_isOk {ε α : Type} {x : Except ε α} (h : x.isOk = true) : ∃ a, x = .ok a := by
  cases x with
  | error e => cases h
  | ok a => exact ⟨a,rfl⟩

/-- The profile of that printer: discovered, then merged with the response. -/
def deviceIdTarget : PrinterTarget :=
  deviceIdResponse.applyTo (targetFromResult ⟨some (octets "Acme"),none,631,[],[]⟩ false)

/-- Its normalised response has that attribute twice. -/
theorem normalizePrinterResponse_duplicates :
    Reachable [deviceIdResponse] deviceIdTarget ∧ deviceIdResponse.printerNames.Nodup ∧
    ippCodecMessageCode deviceIdResponse.encode < 0x0400 ∧
    ∃ out k e', ippCodecNormalizePrinterResponse (fun _ _ => none) .unlimited
        deviceIdResponse.encode (octets "ipp://espresso.local:631/ipp/print")
        (octets "ipp://espresso.local:631") (octets "1b2c") deviceIdTarget = .ok (out,k) ∧
      decode out = .ok e' ∧ ¬ e'.printerNames.Nodup := by
  have hstatus : ippCodecMessageCode deviceIdResponse.encode < 0x0400 := by decide +kernel
  refine ⟨.merged _ (.discovered _ _),by decide +kernel,hstatus,?_⟩
  obtain ⟨⟨out,k⟩,h⟩ := exists_of_isOk (show (ippCodecNormalizePrinterResponse (fun _ _ => none)
    .unlimited deviceIdResponse.encode (octets "ipp://espresso.local:631/ipp/print")
    (octets "ipp://espresso.local:631") (octets "1b2c") deviceIdTarget).isOk = true by
      decide +kernel)
  obtain ⟨e',he',-,hnames⟩ := normalize_printerNames (decode_encode deviceIdResponse) hstatus h
  refine ⟨out,k,e',h,he',?_⟩
  rw [hnames]
  intro hnodup
  refine List.disjoint_of_nodup_append hnodup
    (show octets "printer-device-id" ∈ _ by decide +kernel) (mem_addedNames.mpr (.inr ?_))
  decide +kernel

/-- A response with one attribute of its own, which is none of the facade's. -/
def namedResponse : Envelope where
  header := [2,0,0,0,0,0,0,1]
  items := [.group Tag.operationAttributes,
    named Tag.charset "attributes-charset" (octets "utf-8"),
    named Tag.language "attributes-natural-language" (octets "en"),
    .group Tag.printerAttributes, named Tag.name "printer-name" (octets "Acme")]
  document := []
  header_length := literalHeader_length
  items_ok := by decide +kernel

theorem normalizePrinterResponse_named :
    ∃ out k, ippCodecNormalizePrinterResponse (fun _ _ => none) .unlimited namedResponse.encode
        (octets "ipp://espresso.local:631/ipp/print") (octets "ipp://espresso.local:631")
        (octets "1b2c") .zero = .ok (out,k) ∧
      ∃ e', decode out = .ok e' ∧ (Normalized namedResponse e' ↔
        NoOwnedReported .zero namedResponse ∧ ReportedInGroup namedResponse) := by
  obtain ⟨⟨out,k⟩,h⟩ := exists_of_isOk (show (ippCodecNormalizePrinterResponse (fun _ _ => none)
    .unlimited namedResponse.encode (octets "ipp://espresso.local:631/ipp/print")
    (octets "ipp://espresso.local:631") (octets "1b2c") .zero).isOk = true by decide +kernel)
  exact ⟨out,k,h,normalizePrinterResponse_iff (decode_encode namedResponse)
    (by decide +kernel) (by decide +kernel) h⟩

end Espresso.Codec
