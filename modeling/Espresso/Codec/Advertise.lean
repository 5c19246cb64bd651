import Espresso.Codec.Discovery
import Espresso.Codec.Relay
import Espresso.Codec.Response

/-! Advertisement and acceptance: whether a client may ask for what the normalised response lists. -/
namespace Espresso.Codec

/-- Job Template attributes, each with the attribute that lists its values. -/
def listedAttributes : List (String × String) :=
  [("finishings","finishings-supported"),
   ("orientation-requested","orientation-requested-supported"),
   ("output-bin","output-bin-supported"), ("print-quality","print-quality-supported"),
   ("sides","sides-supported"), ("print-content-optimize","print-content-optimize-supported"),
   ("print-rendering-intent","print-rendering-intent-supported")]

/-- An IPP integer. -/
def encodedI32 (value : Bytes) : ℤ :=
  if encodedU32 value < 2147483648 then encodedU32 value else encodedU32 value - 4294967296

theorem encodedU32Equals_one {value : Bytes} (hlen : value.length = 4) (h : encodedI32 value = 1) :
    encodedU32Equals value 1 = true := by
  obtain ⟨a,b,c,d,rfl⟩ : ∃ a b c d, value = [a,b,c,d] := by
    rcases value with _ | ⟨a,_ | ⟨b,_ | ⟨c,_ | ⟨d,_ | ⟨x,rest⟩⟩⟩⟩⟩
    all_goals simp at hlen
    exact ⟨a,b,c,d,rfl⟩
  have hlt := readU32_lt a b c d
  have hread : encodedU32 [a,b,c,d] = readU32 a b c d := rfl
  rw [encodedI32, hread] at h
  simp only [encodedU32Equals, decide_eq_true_eq]
  split at h <;> omega

/-- The response lists this value. -/
def Envelope.Lists (e : Envelope) (name : String) (tag : UInt8) (value : Bytes) : Prop :=
  ∃ r ∈ e.records, r.group = Tag.printerAttributes ∧ r.attributeName = octets name ∧
    r.tag = tag ∧ r.value = value

/-- A job attribute with a listed value, or with a number of copies from a listed range. -/
def Envelope.Offers (e : Envelope) (r : Record) : Prop :=
  (∃ a ∈ listedAttributes, r.attributeName = octets a.1 ∧ e.Lists a.2 r.tag r.value) ∨
    (r.attributeName = octets "copies" ∧ r.tag = Tag.integer ∧ r.value.length = 4 ∧
      ∃ range : Bytes, range.length = 8 ∧ e.Lists "copies-supported" Tag.range range ∧
        encodedI32 (range.take 4) ≤ encodedI32 r.value ∧
        encodedI32 r.value ≤ encodedI32 (range.drop 4))

/-- The request asks for nothing but what the response offers. -/
def OnlyOffered (e m : Envelope) : Prop :=
  ∀ r ∈ m.records, r.group = Tag.jobAttributes →
    (r.attributeName = octets "copies" ∨ ∃ a ∈ listedAttributes, r.attributeName = octets a.1) →
    e.Offers r

/-- No request that stays within the offer is answered UNSUPPORTED. -/
def AcceptsOffered (t : PrinterTarget) (e : Envelope) : Prop :=
  ∀ (mem mem' : Memory) (request printerUri authority : Bytes) (m : Envelope),
    decode request = .ok m → OnlyOffered e m → ∀ rejection,
    ippCodecRewriteRequest mem mem' request printerUri authority t = .error rejection →
    rejection.error ≠ .unsupported

/-! ### Acceptance, record by record -/

theorem isRefused_group {t : PrinterTarget} {r : Record} (h : isRefused t r = true) :
    r.group = Tag.jobAttributes := by
  have hc := isRefused_consumed h
  simp only [isConsumed, Bool.and_eq_true, decide_eq_true_eq] at hc
  exact hc.1

/-- Only these attributes can be refused. -/
theorem isRefused_name {t : PrinterTarget} {r : Record} (h : isRefused t r = true) :
    r.attributeName = octets "copies" ∨ ∃ a ∈ listedAttributes, r.attributeName = octets a.1 := by
  have hc := isRefused_consumed h
  simp only [isConsumed, Bool.and_eq_true, Bool.or_eq_true, isContentHint, decide_eq_true_eq,
    List.any_eq_true, NeutralDefault.applies] at hc
  have htable : ∀ d ∈ neutralDefaults, d.name = "copies" ∨ ∃ a ∈ listedAttributes, d.name = a.1 := by
    decide +kernel
  rcases hc.2 with (h | h) | ⟨d,hd,hname,-⟩
  · exact .inr ⟨("print-content-optimize","print-content-optimize-supported"),
      by simp [listedAttributes],h⟩
  · exact .inr ⟨("print-rendering-intent","print-rendering-intent-supported"),
      by simp [listedAttributes],h⟩
  · rw [← hname]
    simpa using htable d hd

/-- Without an authority of its own a URI does not grow past the limit. -/
theorem not_longUri (input : Bytes) : ¬ LongUri [] [] input := by
  rintro ⟨tag,own,name,value,-,hlen,hrewritten,hlong⟩
  have hle : (rewrittenValue [] [] tag name value).length ≤ 65535 := by
    unfold rewrittenValue newValue
    rw [if_pos hrewritten, rewriteUri]
    split_ifs
    · exact show (octets "http://espresso.local/").length ≤ 65535 by decide +kernel
    · simp
    · have := (cstr_length_le (uriPath value)).trans (uriPath_suffix value).length_le
      simp only [cstr_nil, List.nil_append, Option.getD_some]
      omega
    · simp only [Option.getD_none]
      omega
  omega

/-- A request with one job attribute. -/
def jobRequest (name : String) (tag : UInt8) (value : Bytes)
    (h : ValueOk [] tag (octets name) value) : Envelope where
  header := [2,0,0,2,0,0,0,1]
  items := [.group Tag.jobAttributes,named tag name value]
  document := []
  header_length := literalHeader_length
  items_ok := ⟨by decide,by decide,h,trivial⟩

theorem jobRequest_records {name : String} (hname : Plain name) (tag : UInt8) (value : Bytes)
    (h : ValueOk [] tag (octets name) value) :
    (jobRequest name tag value h).records = [⟨Tag.jobAttributes,octets name,tag,value⟩] := by
  simp [jobRequest, Envelope.records, named, recordsFrom, inheritName, hname.1]

/-- Only the compared name counts. -/
theorem isRefused_congr {r q : Record} (t : PrinterTarget) (hgroup : r.group = q.group)
    (hname : r.attributeName = q.attributeName) (htag : r.tag = q.tag) (hvalue : r.value = q.value) :
    isRefused t r = isRefused t q := by rw [isRefused, hgroup, hname, htag, hvalue, isRefused]

theorem Envelope.Offers.congr {e : Envelope} {r q : Record} (h : e.Offers r)
    (hname : r.attributeName = q.attributeName) (htag : r.tag = q.tag) (hvalue : r.value = q.value) :
    e.Offers q := by
  unfold Envelope.Offers at h ⊢
  rwa [hname, htag, hvalue] at h

/-- Names of the attributes in question. -/
def offeredNames : List String := "copies" :: listedAttributes.map Prod.fst

theorem offeredNames_plain : ∀ name ∈ offeredNames, Plain name := by decide +kernel

theorem mem_offeredNames {name : Bytes} : (name = octets "copies" ∨
    ∃ a ∈ listedAttributes, name = octets a.1) ↔ ∃ n ∈ offeredNames, name = octets n := by
  simp only [offeredNames, List.mem_cons, List.mem_map]
  constructor
  · rintro (h | ⟨a,ha,h⟩)
    · exact ⟨_,.inl rfl,h⟩
    · exact ⟨_,.inr ⟨a,ha,rfl⟩,h⟩
  · rintro ⟨n,rfl | ⟨a,ha,rfl⟩,h⟩
    · exact .inl h
    · exact .inr ⟨a,ha,h⟩

/-- Acceptance is decided value by value. -/
theorem acceptsOffered_iff_isRefused {t : PrinterTarget} {e : Envelope} :
    AcceptsOffered t e ↔ ∀ name ∈ offeredNames, ∀ tag value,
      ValueOk [] tag (octets name) value →
      e.Offers ⟨Tag.jobAttributes,octets name,tag,value⟩ →
      isRefused t ⟨Tag.jobAttributes,octets name,tag,value⟩ = false := by
  constructor
  · intro haccept name hname tag value hok hoffer
    have hplain := offeredNames_plain name hname
    have hrecords := jobRequest_records hplain tag value hok
    have honly : OnlyOffered e (jobRequest name tag value hok) := by
      intro r hr _ _
      rw [hrecords, List.mem_singleton] at hr
      exact hr ▸ hoffer
    cases h : ippCodecRewriteRequest .unlimited .unlimited (jobRequest name tag value hok).encode
        [] [] t with
    | ok r =>
      obtain ⟨m,-,hm,-,-,-,-,-,hrefused⟩ := rewriteRequest_ok h
      rw [decode_encode] at hm
      cases hm
      exact hrefused _ (by rw [hrecords]; exact List.mem_singleton_self _)
    | error rejection =>
      exfalso
      have hnot := haccept _ _ _ _ _ _ (decode_encode _) honly _ h
      rcases rewriteRequest_error (decode_encode _) h with ⟨-,hmemory⟩ | ⟨q,-,rfl⟩
      · rcases hmemory with h | h | h | h
        · exact Memory.unlimited_not_refuses h
        · exact Memory.unlimited_not_refuses h
        · exact not_longUri _ h
        · obtain ⟨_,h,-⟩ := h
          cases h
      · exact hnot rfl
  · intro hall mem mem' request printerUri authority m hm honly rejection h hunsupported
    rcases rewriteRequest_error hm h with ⟨rfl,-⟩ | ⟨q,hfind,-⟩
    · cases hunsupported
    · have hrefused := List.find?_some hfind
      have hmem := List.mem_of_find?_eq_some hfind
      have hgroup := isRefused_group hrefused
      obtain ⟨name,hname,hq⟩ := mem_offeredNames.mp (isRefused_name hrefused)
      have hplain := offeredNames_plain name hname
      obtain ⟨htag,hvalue⟩ := recordsFrom_ok m.items_ok hmem
      have hq' : q.attributeName =
          (⟨Tag.jobAttributes,octets name,q.tag,q.value⟩ : Record).attributeName :=
        hq.trans hplain.cstr.symm
      have hoffer := (honly q hmem hgroup (isRefused_name hrefused)).congr hq' rfl rfl
      have hno := hall name hname q.tag q.value
        ⟨htag,hplain.2.2,hvalue,fun h => hplain.1 h.1⟩ hoffer
      rw [isRefused_congr t hgroup hq' rfl rfl, hno] at hrefused
      cases hrefused

/-! ### What the two sides say about each attribute -/

section
variable {t : PrinterTarget}

theorem isRefused_hint {name : String}
    (h : name = "print-content-optimize" ∨ name = "print-rendering-intent") (tag : UInt8)
    (value : Bytes) : isRefused t ⟨Tag.jobAttributes,octets name,tag,value⟩ =
      !(tag = Tag.keyword && equalSpan value (octets "auto")) := by
  have hplain : cstr (octets name) = octets name := by
    rcases h with rfl | rfl <;> decide +kernel
  have hhint : isContentHint (octets name) = true := by
    rcases h with rfl | rfl <;> decide +kernel
  have hlegacy : isLegacyColorMode t (octets name) = false := by
    rcases h with rfl | rfl <;> simp [isLegacyColorMode]
  simp only [isRefused, Record.attributeName, hplain, groupAction, if_true,
    facadeJobAttributeAction, hlegacy, hhint, Bool.false_eq_true, if_false]
  split
  · rename_i hauto; simp [hauto]
  · rename_i hauto; simp [hauto]

theorem isRefused_default {d : NeutralDefault} (hd : d ∈ neutralDefaults) (tag : UInt8)
    (value : Bytes) : isRefused t ⟨Tag.jobAttributes,octets d.name,tag,value⟩ =
      (!t.hasCap d.capability && !d.accepts tag value) := by
  have hplain : ∀ d ∈ neutralDefaults, cstr (octets d.name) = octets d.name := by decide +kernel
  have hhint : ∀ d ∈ neutralDefaults, isContentHint (octets d.name) = false := by decide +kernel
  have hcolor : ∀ d ∈ neutralDefaults, d.name ≠ "print-color-mode" := by decide +kernel
  have hlegacy : isLegacyColorMode t (octets d.name) = false := by
    simp [isLegacyColorMode, hcolor d hd]
  have hfind : neutralDefaults.find? (·.applies t (octets d.name)) =
      if t.hasCap d.capability then none else some d := by
    simp only [neutralDefaults, List.mem_cons, List.not_mem_nil, or_false] at hd
    rcases hd with rfl | rfl | rfl | rfl | rfl | rfl
    all_goals
      simp only [neutralDefaults, List.find?, NeutralDefault.applies, octets_inj, String.reduceEq,
        decide_false, decide_true, Bool.false_and, Bool.true_and]
      split <;> rename_i hcap <;> simp_all
  simp only [isRefused, Record.attributeName, hplain d hd, groupAction, if_true,
    facadeJobAttributeAction, hlegacy, hhint d hd, Bool.false_eq_true, if_false, hfind]
  cases t.hasCap d.capability
  · simp only [Bool.false_eq_true, if_false]
    cases d.accepts tag value <;> simp
  · simp

/-- The values that stand in for an attribute which the printer does not report. -/
def standardValues (t : PrinterTarget) : List (String × List (UInt8 × Bytes)) :=
  [("finishings-supported",[int32 Tag.enum 3]),
   ("orientation-requested-supported",[int32 Tag.enum 3]),
   ("output-bin-supported",[str Tag.keyword "face-down"]),
   ("print-quality-supported",[int32 Tag.enum 4]),
   ("sides-supported",str Tag.keyword "one-sided" :: only t.duplex
      [str Tag.keyword "two-sided-long-edge",str Tag.keyword "two-sided-short-edge"]),
   ("copies-supported",only (t.copiesUpper ≠ 0) [(Tag.range,u32 1 ++ u32 t.copiesUpper)])]

theorem standins_standardValues (hundredths : Bytes → ℕ → Option ℕ) (printerUri localUuid : Bytes) :
    ∀ s ∈ standins hundredths printerUri localUuid t, ∀ p ∈ standardValues t, s.name = p.1 →
      s.values = p.2 := by
  simp only [standins, standardValues, List.forall_mem_cons]
  and_intros
  all_goals simp

theorem owned_hintValues : ∀ a ∈ facadeOwned t ++ rasterOwned t,
    a.1 = "print-content-optimize-supported" ∨ a.1 = "print-rendering-intent-supported" →
      a.2 = [str Tag.keyword "auto"] := by
  simp only [facadeOwned, rasterOwned, List.cons_append, List.nil_append, List.forall_mem_cons]
  and_intros
  all_goals simp

variable {hundredths : Bytes → ℕ → Option ℕ} {present : ℕ} {printerUri localUuid : Bytes}
  {r : Record}

theorem standardValues_table : ∀ p ∈ standardValues t, ∃ entry ∈ standinTable, entry.1 = p.1 := by
  have htable : ∀ name ∈ (standardValues .zero).map Prod.fst,
      ∃ entry ∈ standinTable, entry.1 = name := by decide +kernel
  intro p hp
  exact htable p.1 (show p.1 ∈ (standardValues t).map Prod.fst from List.mem_map_of_mem hp)

theorem addedRecords_standard (hr : r ∈ addedRecords hundredths present printerUri localUuid t)
    {p : String × List (UInt8 × Bytes)} (hp : p ∈ standardValues t)
    (hname : r.attributeName = octets p.1) : (r.tag,r.value) ∈ p.2 := by
  obtain ⟨entry,hentry,hp1⟩ := standardValues_table p hp
  have hfacade : ∀ name ∈ facadeTable, cstr (octets name) ≠ octets p.1 := by
    intro name hmem h
    rw [(facadeTable_plain name hmem).cstr, octets_inj] at h
    exact facadeTable_not_standin name hmem entry hentry (h.trans hp1.symm)
  rcases addedRecords_cases hr with ⟨s,hs,-,v,hv,rfl⟩ | ⟨a,ha,v,hv,rfl⟩ | ⟨name,hmem,-,-,hn⟩
  · have hplain := standinTable_plain _ (standin_mem_table hundredths printerUri localUuid t hs)
    rw [Record.attributeName, hplain.cstr, octets_inj] at hname
    rw [← standins_standardValues hundredths printerUri localUuid s hs p hp hname]
    exact hv
  · refine absurd hname (hfacade a.1 ?_)
    rw [← facadeOwned_table t]
    exact List.mem_map_of_mem ha
  · have hsub : ∀ name ∈ lastOwned, name ∈ facadeTable := by decide +kernel
    rw [Record.attributeName, hn] at hname
    exact absurd hname (hfacade name (hsub name hmem))

theorem addedRecords_hint (hr : r ∈ addedRecords hundredths present printerUri localUuid t)
    {name : String} (h : name = "print-content-optimize-supported" ∨
      name = "print-rendering-intent-supported") (hname : r.attributeName = octets name) :
    (r.tag,r.value) = str Tag.keyword "auto" := by
  have hmem : name ∈ facadeTable := by rcases h with rfl | rfl <;> decide +kernel
  rcases addedRecords_cases hr with ⟨s,hs,-,v,hv,rfl⟩ | ⟨a,ha,v,hv,rfl⟩ | ⟨last,hlast,-,-,hn⟩
  · have hentry := standin_mem_table hundredths printerUri localUuid t hs
    rw [Record.attributeName, (standinTable_plain _ hentry).cstr, octets_inj] at hname
    exact absurd hname.symm (facadeTable_not_standin name hmem _ hentry)
  · rw [Record.attributeName, (facadeOwned_ok t a ha).1.cstr, octets_inj] at hname
    rw [owned_hintValues a ha (hname ▸ h), List.mem_singleton] at hv
    exact hv
  · exfalso
    have hne : ∀ last ∈ lastOwned, cstr (octets last) ≠ octets "print-content-optimize-supported" ∧
        cstr (octets last) ≠ octets "print-rendering-intent-supported" := by decide +kernel
    rw [Record.attributeName, hn] at hname
    rcases h with rfl | rfl
    · exact (hne last hlast).1 hname
    · exact (hne last hlast).2 hname

end

/-! ### When the offer is kept -/

/-- The condition: two-sided printing is offered only if the printer itself listed sides, and the
printer lists no content hint but `auto`. -/
structure OfferKept (t : PrinterTarget) (e : Envelope) : Prop where
  sides : t.duplex = true → t.hasCap JobCap.sides = true
  hints : ∀ name tag value, name = "print-content-optimize-supported" ∨
    name = "print-rendering-intent-supported" → e.Lists name tag value →
    tag = Tag.keyword ∧ equalSpan value (octets "auto") = true

/-- Attributes that list supported values are neither replaced nor rewritten. -/
def listingNames : List String := "copies-supported" :: listedAttributes.map Prod.snd

section
variable {hundredths : Bytes → ℕ → Option ℕ} {printerUri authority localUuid : Bytes}
  {t : PrinterTarget} {e e' : Envelope}

/-- A listed value is the printer's own or an added one. -/
theorem lists_iff (hrecords : e'.records = e.keptRecords.map (rewriteRecord printerUri authority) ++
      addedRecords hundredths e.presence (cstr printerUri) (cstr localUuid) t)
    {name : String} (hname : name ∈ listingNames) {tag : UInt8} {value : Bytes} :
    e'.Lists name tag value ↔ e.Lists name tag value ∨
      ∃ r ∈ addedRecords hundredths e.presence (cstr printerUri) (cstr localUuid) t,
        r.attributeName = octets name ∧ r.tag = tag ∧ r.value = value := by
  have hrep : ∀ name ∈ listingNames, isReplaced (octets name) = false := by decide +kernel
  have huri : ∀ name ∈ listingNames, ∀ n ∈ rewrittenNames, octets n ≠ octets name := by
    decide +kernel
  have hsame : ∀ r : Record, r.attributeName = octets name →
      rewriteRecord printerUri authority r = r := by
    intro r hr
    have hno : isRewritten r.tag r.attributeName = false := by
      rw [hr, isRewritten, List.any_eq_false.mpr fun n hn => by simpa using huri name hname n hn,
        Bool.and_false]
    simp [rewriteRecord, rewrittenValue, newValue, hno]
  constructor
  · rintro ⟨r,hr,hgroup,hn,htag,hvalue⟩
    rw [hrecords, List.mem_append] at hr
    rcases hr with hr | hr
    · obtain ⟨q,hq,rfl⟩ := List.mem_map.mp hr
      rw [hsame q hn] at htag hvalue
      exact .inl ⟨q,(mem_keptRecords.mp hq).1,hgroup,hn,htag,hvalue⟩
    · exact .inr ⟨r,hr,hn,htag,hvalue⟩
  · rintro (⟨r,hr,hgroup,hn,htag,hvalue⟩ | ⟨r,hr,hn,htag,hvalue⟩)
    · refine ⟨r,?_,hgroup,hn,htag,hvalue⟩
      rw [hrecords]
      refine List.mem_append_left _ (List.mem_map.mpr ⟨r,?_,hsame r hn⟩)
      exact mem_keptRecords.mpr ⟨hr,hn ▸ hrep name hname⟩
    · refine ⟨r,?_,(mem_addedRecords hr).1,hn,htag,hvalue⟩
      rw [hrecords]
      exact List.mem_append_right _ hr

variable {es : List Envelope}
  (hrecords : e'.records = e.keptRecords.map (rewriteRecord printerUri authority) ++
    addedRecords hundredths e.presence (cstr printerUri) (cstr localUuid) t)
  (ht : Reachable es t) (he : e ∈ es)
include hrecords ht he

/-- A value of the printer's own comes with the capability; a stand-in is the neutral default. -/
theorem accepts_standard {d : NeutralDefault} (hd : d ∈ neutralDefaults) {name : String}
    {values : List (UInt8 × Bytes)} (hsource : (name,d.capability) ∈ capabilitySources)
    (hvalues : (name,values) ∈ standardValues t)
    (hok : ∀ v ∈ values, t.hasCap d.capability = true ∨ d.accepts v.1 v.2 = true)
    {tag : UInt8} {value : Bytes} (hlists : e'.Lists name tag value) :
    isRefused t ⟨Tag.jobAttributes,octets d.name,tag,value⟩ = false := by
  have hlisting : ∀ c ∈ capabilitySources, c.1 ∈ listingNames := by decide +kernel
  rw [isRefused_default hd]
  rcases (lists_iff hrecords (hlisting _ hsource)).mp hlists with
    ⟨r,hr,-,hname,-,-⟩ | ⟨r,hr,hname,rfl,rfl⟩
  · have hcap := ht.caps he hr (.inl ⟨_,hsource,hname,rfl⟩)
    simp only [hcap, Bool.not_true, Bool.false_and]
  · rcases hok _ (addedRecords_standard hr hvalues hname) with h | h
    · simp only [h, Bool.not_true, Bool.false_and]
    · simp only [h, Bool.not_true, Bool.and_false]

omit ht he in
theorem accepts_hint (hkept : OfferKept t e) {name listing : String}
    (hname : (name,listing) = ("print-content-optimize","print-content-optimize-supported") ∨
      (name,listing) = ("print-rendering-intent","print-rendering-intent-supported"))
    {tag : UInt8} {value : Bytes} (hlists : e'.Lists listing tag value) :
    isRefused t ⟨Tag.jobAttributes,octets name,tag,value⟩ = false := by
  have hhint : name = "print-content-optimize" ∨ name = "print-rendering-intent" :=
    hname.imp (congrArg Prod.fst) (congrArg Prod.fst)
  have hlisting : listing = "print-content-optimize-supported" ∨
      listing = "print-rendering-intent-supported" :=
    hname.imp (congrArg Prod.snd) (congrArg Prod.snd)
  have hmem : listing ∈ listingNames := by rcases hlisting with rfl | rfl <;> decide +kernel
  rw [isRefused_hint hhint]
  rcases (lists_iff hrecords hmem).mp hlists with hown | ⟨r,hr,hn,rfl,rfl⟩
  · obtain ⟨rfl,hauto⟩ := hkept.hints listing tag value hlisting hown
    simp [hauto]
  · obtain ⟨htag,hvalue⟩ := Prod.mk.injEq .. ▸ addedRecords_hint hr hlisting hn
    simp [htag, hvalue, equalSpan_self]

theorem accepts_copies {value range : Bytes} (hvalue : value.length = 4) (hrange : range.length = 8)
    (hlists : e'.Lists "copies-supported" Tag.range range)
    (hlow : encodedI32 (range.take 4) ≤ encodedI32 value)
    (hhigh : encodedI32 value ≤ encodedI32 (range.drop 4)) :
    isRefused t ⟨Tag.jobAttributes,octets "copies",Tag.integer,value⟩ = false := by
  have hrefused := @isRefused_default t ⟨"copies",JobCap.copies,Tag.integer,1,none⟩
    (by simp [neutralDefaults]) Tag.integer value
  simp only at hrefused
  rw [hrefused]
  rcases (lists_iff hrecords (by decide +kernel)).mp hlists with
    ⟨r,hr,-,hname,htag,rfl⟩ | ⟨r,hr,hname,htag,rfl⟩
  · have hcap := ht.caps he hr (.inr ⟨hname,htag,hrange,rfl⟩)
    simp only [hcap, Bool.not_true, Bool.false_and]
  · have hadded := addedRecords_standard hr
      (p := ("copies-supported",only (t.copiesUpper ≠ 0) [(Tag.range,u32 1 ++ u32 t.copiesUpper)]))
      (by simp [standardValues]) hname
    by_cases hmany : 1 < t.copiesUpper
    · simp only [ht.copies hmany, Bool.not_true, Bool.false_and]
    · -- the range that stands in is then `1-1`
      have hone : t.copiesUpper = 1 := by
        by_contra h1
        have h0 : t.copiesUpper = 0 := by omega
        simp [only, h0] at hadded
      simp only [hone, only, ne_eq, one_ne_zero, not_false_eq_true, decide_true, if_true,
        List.mem_singleton, Prod.mk.injEq] at hadded
      have hlow' : encodedI32 (r.value.take 4) = 1 := by rw [hadded.2]; decide +kernel
      have hhigh' : encodedI32 (r.value.drop 4) = 1 := by rw [hadded.2]; decide +kernel
      have hcount : encodedU32Equals value 1 = true := encodedU32Equals_one hvalue (by omega)
      simp [NeutralDefault.accepts, hcount]

theorem acceptsOffered_of_offerKept (hkept : OfferKept t e) : AcceptsOffered t e' := by
  have hsingle : ∀ {d : NeutralDefault} {v : UInt8 × Bytes}, d.accepts v.1 v.2 = true →
      ∀ w ∈ [v], t.hasCap d.capability = true ∨ d.accepts w.1 w.2 = true := by
    intro d v h w hw
    exact .inr (List.mem_singleton.mp hw ▸ h)
  rw [acceptsOffered_iff_isRefused]
  rintro name hname tag value - (⟨a,ha,hn,hlists⟩ | ⟨hn,rfl,hvalue,range,hrange,hlists,hlow,hhigh⟩)
  · have hn' : name = a.1 := by
      rwa [Record.attributeName, (offeredNames_plain name hname).cstr, octets_inj] at hn
    subst hn'
    simp only [listedAttributes, List.mem_cons, List.not_mem_nil, or_false] at ha
    rcases ha with rfl | rfl | rfl | rfl | rfl | rfl | rfl
    · exact accepts_standard hrecords ht he (d := ⟨"finishings",JobCap.finishings,Tag.enum,3,none⟩)
        (by simp [neutralDefaults]) (by simp [capabilitySources])
        (.head _)
        (hsingle (by decide +kernel)) hlists
    · exact accepts_standard hrecords ht he (d := ⟨"orientation-requested",JobCap.orientation,Tag.enum,3,none⟩)
        (by simp [neutralDefaults]) (by simp [capabilitySources])
        (.tail _ (.head _))
        (hsingle (by decide +kernel)) hlists
    · exact accepts_standard hrecords ht he (d := ⟨"output-bin",JobCap.outputBin,Tag.keyword,0,some "face-down"⟩)
        (by simp [neutralDefaults]) (by simp [capabilitySources])
        (.tail _ (.tail _ (.head _)))
        (hsingle (by decide +kernel)) hlists
    · exact accepts_standard hrecords ht he (d := ⟨"print-quality",JobCap.printQuality,Tag.enum,4,none⟩)
        (by simp [neutralDefaults]) (by simp [capabilitySources])
        (.tail _ (.tail _ (.tail _ (.head _))))
        (hsingle (by decide +kernel)) hlists
    · refine accepts_standard hrecords ht he
        (d := ⟨"sides",JobCap.sides,Tag.keyword,0,some "one-sided"⟩)
        (by simp [neutralDefaults]) (by simp [capabilitySources])
        (.tail _ (.tail _ (.tail _ (.tail _ (.head _))))) ?_ hlists
      intro v hv
      rcases List.mem_cons.mp hv with rfl | hv
      · exact .inr (by decide +kernel)
      · left
        apply hkept.sides
        by_contra hduplex
        simp [only, hduplex] at hv
    · exact accepts_hint hrecords hkept (.inl rfl) hlists
    · exact accepts_hint hrecords hkept (.inr rfl) hlists
  · have hn' : name = "copies" := by
      rwa [Record.attributeName, (offeredNames_plain name hname).cstr, octets_inj] at hn
    subst hn'
    exact accepts_copies hrecords ht he hvalue hrange hlists hlow hhigh

/-- Without the capability no merged response listed sides, so the stand-in is there. -/
theorem lists_twoSided (hduplex : t.duplex = true) (hcap : t.hasCap JobCap.sides = false) :
    e'.Lists "sides-supported" Tag.keyword (octets "two-sided-long-edge") := by
  obtain ⟨entry,hentry,hsides⟩ := @standardValues_table t _
    (.tail _ (.tail _ (.tail _ (.tail _ (.head _)))))
  rw [← standins_table hundredths (cstr printerUri) (cstr localUuid) t] at hentry
  obtain ⟨s,hs,rfl⟩ := List.mem_map.mp hentry
  have hname : s.name = "sides-supported" := hsides
  have hvalues := standins_standardValues hundredths _ _ s hs _
    (.tail _ (.tail _ (.tail _ (.tail _ (.head _))))) hname
  have hmissing : e.presence &&& s.flag = 0 := by
    refine (standin_missing_iff hs).mpr fun r hr hr' => ?_
    have hset := ht.caps he (mem_keptRecords.mp hr).1
      (.inl ⟨("sides-supported",JobCap.sides),by simp [capabilitySources],hname ▸ hr',rfl⟩)
    rw [hcap] at hset
    cases hset
  have hadded := mem_addedRecords_of_standin hs hmissing
    (v := str Tag.keyword "two-sided-long-edge") (by simp [hvalues, only, hduplex])
  refine (lists_iff hrecords (by decide +kernel)).mpr (.inr ⟨_,hadded,?_,rfl,rfl⟩)
  rw [hname]
  decide +kernel

theorem offerKept_of_acceptsOffered (haccept : AcceptsOffered t e') : OfferKept t e := by
  rw [acceptsOffered_iff_isRefused] at haccept
  constructor
  · intro hduplex
    by_contra hcap
    have hlists := lists_twoSided hrecords ht he hduplex (by simpa using hcap)
    have hrefused := haccept "sides" (by decide +kernel) Tag.keyword (octets "two-sided-long-edge")
      (by decide +kernel)
      (.inl ⟨("sides","sides-supported"),by simp [listedAttributes],by decide +kernel,hlists⟩)
    have hdefault := @isRefused_default t ⟨"sides",JobCap.sides,Tag.keyword,0,some "one-sided"⟩
      (by simp [neutralDefaults]) Tag.keyword (octets "two-sided-long-edge")
    simp only at hdefault
    rw [hdefault, Bool.and_eq_false_iff] at hrefused
    rcases hrefused with h | h
    · exact hcap (by simpa using h)
    · exact absurd h (by decide +kernel)
  · intro listing tag value hlisting hlists
    obtain ⟨r,hr,-,-,rfl,rfl⟩ := id hlists
    obtain ⟨htag,hvalue⟩ := recordsFrom_ok e.items_ok hr
    obtain ⟨name,hname,hmem⟩ : ∃ name, (name = "print-content-optimize" ∨
        name = "print-rendering-intent") ∧ (name,listing) ∈ listedAttributes := by
      rcases hlisting with rfl | rfl
      · exact ⟨_,.inl rfl,by simp [listedAttributes]⟩
      · exact ⟨_,.inr rfl,by simp [listedAttributes]⟩
    have hoffered : name ∈ offeredNames :=
      List.mem_cons_of_mem _ (List.mem_map.mpr ⟨_,hmem,rfl⟩)
    have hplain := offeredNames_plain name hoffered
    have hlisting' : listing ∈ listingNames :=
      List.mem_cons_of_mem _ (List.mem_map.mpr ⟨_,hmem,rfl⟩)
    have hlists' := (lists_iff hrecords hlisting').mpr (.inl hlists)
    have hrefused := haccept name hoffered r.tag r.value
      ⟨htag,hplain.2.2,hvalue,fun h => hplain.1 h.1⟩
      (.inl ⟨(name,listing),hmem,hplain.cstr,hlists'⟩)
    rw [isRefused_hint hname] at hrefused
    simpa using hrefused

end

/-- The facade accepts every option it lists in a normalised response exactly when two-sided
printing is not known from DNS-SD alone and the printer lists no content hint but `auto`. -/
theorem normalizePrinterResponse_accepted_iff {hundredths : Bytes → ℕ → Option ℕ} {mem : Memory}
    {input out printerUri authority localUuid : Bytes} {t : PrinterTarget} {k : ℕ}
    {es : List Envelope} {e : Envelope} (ht : Reachable es t) (he : e ∈ es)
    (hinput : decode input = .ok e) (hstatus : ippCodecMessageCode input < 0x0400)
    (h : ippCodecNormalizePrinterResponse hundredths mem input printerUri authority localUuid t =
      .ok (out,k)) :
    ∃ e', decode out = .ok e' ∧ (AcceptsOffered t e' ↔ OfferKept t e) := by
  obtain ⟨e',he',hrecords,-⟩ := normalize_printerNames hinput hstatus h
  exact ⟨e',he',offerKept_of_acceptsOffered hrecords ht he,acceptsOffered_of_offerKept hrecords ht he⟩

/-- A printer that announces two-sided printing over DNS-SD. -/
def duplexResult : MdnsResult where
  instanceName := some (octets "Acme")
  hostname := some (octets "acme")
  port := 631
  addresses := [.v4 (octets "192.0.2.7")]
  txt := [(octets "rp",some (octets "ipp/print")),(octets "Duplex",some (octets "T"))]

/-- Its response does not mention sides. -/
theorem normalizePrinterResponse_sides_refused :
    Reachable [namedResponse] (namedResponse.applyTo (targetFromResult duplexResult false)) ∧
    ∃ out k e', ippCodecNormalizePrinterResponse (fun _ _ => none) .unlimited namedResponse.encode
        (octets "ipp://espresso.local:631/ipp/print") (octets "ipp://espresso.local:631")
        (octets "1b2c") (namedResponse.applyTo (targetFromResult duplexResult false)) =
          .ok (out,k) ∧
      decode out = .ok e' ∧
      ¬ AcceptsOffered (namedResponse.applyTo (targetFromResult duplexResult false)) e' := by
  have ht : Reachable [namedResponse]
    (namedResponse.applyTo (targetFromResult duplexResult false)) := .merged _ (.discovered _ _)
  refine ⟨ht,?_⟩
  obtain ⟨⟨out,k⟩,h⟩ := exists_of_isOk (show (ippCodecNormalizePrinterResponse (fun _ _ => none)
    .unlimited namedResponse.encode (octets "ipp://espresso.local:631/ipp/print")
    (octets "ipp://espresso.local:631") (octets "1b2c")
    (namedResponse.applyTo (targetFromResult duplexResult false))).isOk = true by decide +kernel)
  obtain ⟨e',he',hrecords,-⟩ := normalize_printerNames (decode_encode _) (by decide +kernel) h
  refine ⟨out,k,e',h,he',fun haccept => ?_⟩
  have hkept := offerKept_of_acceptsOffered hrecords ht (.head _) haccept
  exact absurd (hkept.sides (by decide +kernel)) (by decide +kernel)

theorem normalizePrinterResponse_accepted_named :
    ∃ out k, ippCodecNormalizePrinterResponse (fun _ _ => none) .unlimited namedResponse.encode
        (octets "ipp://espresso.local:631/ipp/print") (octets "ipp://espresso.local:631")
        (octets "1b2c") (namedResponse.applyTo (targetFromResult duplexResult false)) =
          .ok (out,k) ∧
      ∃ e', decode out = .ok e' ∧
        (AcceptsOffered (namedResponse.applyTo (targetFromResult duplexResult false)) e' ↔
          OfferKept (namedResponse.applyTo (targetFromResult duplexResult false)) namedResponse) := by
  obtain ⟨⟨out,k⟩,h⟩ := exists_of_isOk (show (ippCodecNormalizePrinterResponse (fun _ _ => none)
    .unlimited namedResponse.encode (octets "ipp://espresso.local:631/ipp/print")
    (octets "ipp://espresso.local:631") (octets "1b2c")
    (namedResponse.applyTo (targetFromResult duplexResult false))).isOk = true by decide +kernel)
  exact ⟨out,k,h,normalizePrinterResponse_accepted_iff (.merged _ (.discovered _ _)) (.head _)
    (decode_encode _) (by decide +kernel) h⟩

end Espresso.Codec
