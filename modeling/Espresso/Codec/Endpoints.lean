import Espresso.Codec.Response

/-! The endpoints of a normalised response. IPP reads `printer-uri-supported`,
`uri-authentication-supported` and `uri-security-supported` side by side: the values at one position
describe one endpoint. The facade has one endpoint, and answers the last two attributes itself. -/
namespace Espresso.Codec

/-- The security value of an endpoint, by the scheme of its URI. -/
def schemeSecurity (uri : Bytes) : Bytes :=
  octets (if (octets "ipps://").isPrefixOf uri then "tls" else "none")

/-- The values of an attribute of the printer. -/
def Envelope.printerValues (e : Envelope) (name : String) : List (UInt8 × Bytes) :=
  e.valuesOf Tag.printerAttributes (octets name)

/-- The three attributes describe the same endpoints. -/
structure Parallel (e : Envelope) : Prop where
  authentications : (e.printerValues "uri-authentication-supported").length =
    (e.printerValues "printer-uri-supported").length
  securities : (e.printerValues "uri-security-supported").map Prod.snd =
    (e.printerValues "printer-uri-supported").map fun v => schemeSecurity v.2

/-- A response of a printer with one endpoint, or with none that it reports. -/
def OneEndpoint (printerUri : Bytes) (e : Envelope) : Prop :=
  (∀ r ∈ e.records, r.attributeName ≠ octets "printer-uri-supported") ∨
  ∃ v, e.printerValues "printer-uri-supported" = [v] ∧
    (v.1 = Tag.uri ∨ schemeSecurity v.2 = schemeSecurity (cstr printerUri))

/-! ### The values of one added attribute -/

section
variable {hundredths : Bytes → ℕ → Option ℕ} {present : ℕ} {printerUri localUuid : Bytes}
  {t : PrinterTarget}

theorem filter_facadeRecords {name : String} {flag : ℕ} (hname : (name,flag) ∈ standinTable)
    (current : Bytes) :
    (recordsFrom Tag.printerAttributes current (facadeAttributes t)).filter
      (fun r => r.group = Tag.printerAttributes ∧ r.attributeName = octets name) = [] := by
  have hother : ∀ n ∈ facadeTable, cstr (octets n) ≠ octets name := by
    intro n hn h
    rw [(facadeTable_plain n hn).cstr] at h
    exact facadeTable_not_standin n hn _ hname (octets_inj.mp h)
  apply List.filter_eq_nil_iff.mpr
  intro r hr hcond
  obtain ⟨-,hrname⟩ : r.group = Tag.printerAttributes ∧ r.attributeName = octets name := by
    simpa using hcond
  rcases facadeRecords_cases hr with ⟨a,ha,v,-,rfl⟩ | ⟨n,hn,-,-,hown⟩
  · refine hother a.1 ?_ hrname
    rw [← facadeOwned_table t]
    exact List.mem_map_of_mem ha
  · have hsub : ∀ n ∈ lastOwned, n ∈ facadeTable := by decide +kernel
    rw [Record.attributeName, hown] at hrname
    exact hother n (hsub n hn) hrname

/-- An attribute of a list without repeated names has the records of its own values. -/
theorem filter_flatMap_records {attributes : List (String × List (UInt8 × Bytes))}
    (hok : AttributesOk attributes) (hnodup : (attributes.map fun a => octets a.1).Nodup)
    (name : String) :
    ((attributes.flatMap fun a => a.2.map fun v =>
        (⟨Tag.printerAttributes,octets a.1,v.1,v.2⟩ : Record)).filter
        (fun r => r.group = Tag.printerAttributes ∧ r.attributeName = octets name)).map
        (fun r => (r.tag,r.value)) =
      ((attributes.find? fun a => a.1 = name).map Prod.snd).getD [] := by
  induction attributes with
  | nil => rfl
  | cons a as ih =>
    obtain ⟨ha,has⟩ := List.forall_mem_cons.mp hok
    rw [List.map_cons, List.nodup_cons] at hnodup
    have hrest := ih has hnodup.2
    have hown : ∀ v : UInt8 × Bytes,
        (⟨Tag.printerAttributes,octets a.1,v.1,v.2⟩ : Record).attributeName = octets a.1 :=
      fun _ => ha.1.cstr
    rw [List.flatMap_cons, List.filter_append, List.map_append, List.find?_cons]
    by_cases hname : a.1 = name
    · subst hname
      have hnone : as.find? (fun b => b.1 = a.1) = none := by
        rw [List.find?_eq_none]
        intro b hb heq
        refine hnodup.1 (List.mem_map.mpr ⟨b,hb,?_⟩)
        rw [show b.1 = a.1 by simpa using heq]
      rw [hrest, hnone, List.filter_eq_self.mpr]
      · simp [Function.comp_def]
      · intro r hr
        obtain ⟨v,-,rfl⟩ := List.mem_map.mp hr
        simpa using hown v
    · have hne : octets a.1 ≠ octets name := fun h => hname (octets_inj.mp h)
      rw [hrest, List.filter_eq_nil_iff.mpr]
      · simp [hname]
      · intro r hr
        obtain ⟨v,-,rfl⟩ := List.mem_map.mp hr
        simp [hown v, hne]

/-- A stand-in adds its own values if it is missing, and nothing else. -/
theorem addedRecords_values {s : Standin}
    (hs : s ∈ standins hundredths printerUri localUuid t) :
    ((addedRecords hundredths present printerUri localUuid t).filter
        (fun r => r.group = Tag.printerAttributes ∧ r.attributeName = octets s.name)).map
        (fun r => (r.tag,r.value)) =
      if present &&& s.flag = 0 then s.values else [] := by
  have hok := missingStandins_ok hundredths present printerUri localUuid t
  have hsub : ((missingStandins hundredths present printerUri localUuid t).map
      fun a => octets a.1).Nodup := by
    refine List.Nodup.sublist ?_ standinTable_nodup
    rw [← standins_table hundredths printerUri localUuid t, missingStandins, List.map_map,
      List.map_map]
    exact List.filter_sublist.map _
  have hnames : ((standins hundredths printerUri localUuid t).map
      fun s => octets s.name).Nodup := standinTable_nodup
  rw [addedRecords, recordsFrom_append, groupAfter_attributeList, List.filter_append,
    filter_facadeRecords (standin_mem_table hundredths printerUri localUuid t hs),
    List.append_nil, recordsFrom_attributeList hok, filter_flatMap_records hok hsub]
  split
  · rename_i hp
    cases hfind : (missingStandins hundredths present printerUri localUuid t).find?
        (fun a => a.1 = s.name) with
    | none =>
      have hmem := (mem_missingStandins hundredths present printerUri localUuid t).mpr
        ⟨s,hs,hp,rfl⟩
      exact absurd (by simp) (List.find?_eq_none.mp hfind _ hmem)
    | some a =>
      obtain ⟨s',hs',-,rfl⟩ := (mem_missingStandins hundredths present printerUri localUuid t).mp
        (List.mem_of_find?_eq_some hfind)
      have hsame : s'.name = s.name := by simpa using List.find?_some hfind
      rw [List.inj_on_of_nodup_map hnames hs' hs (congrArg octets hsame)]
      rfl
  · rename_i hp
    have hfind : (missingStandins hundredths present printerUri localUuid t).find?
        (fun a => a.1 = s.name) = none := by
      rw [List.find?_eq_none]
      intro a ha heq
      obtain ⟨s',hs',hp',rfl⟩ :=
        (mem_missingStandins hundredths present printerUri localUuid t).mp ha
      have hsame : s'.name = s.name := by simpa using heq
      rw [List.inj_on_of_nodup_map hnames hs' hs (congrArg octets hsame)] at hp'
      exact hp hp'
    rw [hfind]
    rfl

end

/-! ### Normalisation -/

section
variable {hundredths : Bytes → ℕ → Option ℕ} {mem : Memory}
  {input out printerUri authority localUuid : Bytes} {t : PrinterTarget} {k : ℕ} {e : Envelope}

theorem isRewritten_endpoint (tag : UInt8) :
    isRewritten tag (octets "printer-uri-supported") = decide (tag = Tag.uri) := by
  have hname : (rewrittenNames.any fun n => octets n = octets "printer-uri-supported") = true := by
    decide +kernel
  rw [isRewritten, hname, Bool.and_true]

/-- The facade's URI takes the place of every URI that the printer lists. -/
def facadeEndpoint (printerUri : Bytes) (v : UInt8 × Bytes) : UInt8 × Bytes :=
  if v.1 = Tag.uri then (v.1,cstr printerUri) else v

theorem rewriteRecord_endpoint {r : Record}
    (hname : r.attributeName = octets "printer-uri-supported") :
    ((rewriteRecord printerUri authority r).tag,(rewriteRecord printerUri authority r).value) =
      facadeEndpoint printerUri (r.tag,r.value) := by
  simp only [rewriteRecord, rewrittenValue, newValue, hname, isRewritten_endpoint, facadeEndpoint,
    decide_eq_true_eq]
  split
  · simp [rewriteUri, octets_inj]
  · rfl

/-- The values of an attribute that has a stand-in: what is kept of the printer's, then the
stand-in's if no kept record bears the name. -/
theorem normalize_standin_values {e' : Envelope}
    (hrecords : e'.records = e.keptRecords.map (rewriteRecord printerUri authority) ++
      addedRecords hundredths e.presence (cstr printerUri) (cstr localUuid) t) {s : Standin}
    (hs : s ∈ standins hundredths (cstr printerUri) (cstr localUuid) t) :
    e'.printerValues s.name =
      (e.keptRecords.filter fun r => r.group = Tag.printerAttributes ∧
          r.attributeName = octets s.name).map
        (fun r => ((rewriteRecord printerUri authority r).tag,
          (rewriteRecord printerUri authority r).value)) ++
      if ∀ r ∈ e.keptRecords, r.attributeName ≠ octets s.name then s.values else [] := by
  rw [Envelope.printerValues, Envelope.valuesOf, hrecords, List.filter_append, List.map_append,
    addedRecords_values hs, List.filter_map, List.map_map]
  simp only [standin_missing_iff hs]
  rfl

/-- A replaced attribute has the values of its stand-in, in order. -/
theorem normalize_replaced_values {e' : Envelope}
    (hrecords : e'.records = e.keptRecords.map (rewriteRecord printerUri authority) ++
      addedRecords hundredths e.presence (cstr printerUri) (cstr localUuid) t) {s : Standin}
    (hs : s ∈ standins hundredths (cstr printerUri) (cstr localUuid) t)
    (hrep : isReplaced (octets s.name) = true) : e'.printerValues s.name = s.values := by
  have hkept : ∀ r ∈ e.keptRecords, r.attributeName ≠ octets s.name := by
    intro r hr hname
    have hr := (mem_keptRecords.mp hr).2
    rw [hname, hrep] at hr
    cases hr
  rw [normalize_standin_values hrecords hs, if_pos hkept, List.filter_eq_nil_iff.mpr]
  · rfl
  · intro r hr hcond
    exact hkept r hr (of_decide_eq_true hcond).2

theorem normalize_endpoints {e' : Envelope}
    (hrecords : e'.records = e.keptRecords.map (rewriteRecord printerUri authority) ++
      addedRecords hundredths e.presence (cstr printerUri) (cstr localUuid) t) :
    e'.printerValues "printer-uri-supported" =
      (e.printerValues "printer-uri-supported").map (facadeEndpoint printerUri) ++
      if ∀ r ∈ e.records, r.attributeName ≠ octets "printer-uri-supported" then
        [(Tag.uri,cstr printerUri)] else [] := by
  have hs : (⟨Present.printerUri,"printer-uri-supported",[(Tag.uri,cstr printerUri)]⟩ : Standin) ∈
      standins hundredths (cstr printerUri) (cstr localUuid) t := by simp [standins]
  have hrep : isReplaced (octets "printer-uri-supported") = false := by decide +kernel
  have hkept : (∀ r ∈ e.keptRecords, r.attributeName ≠ octets "printer-uri-supported") ↔
      ∀ r ∈ e.records, r.attributeName ≠ octets "printer-uri-supported" := by
    constructor
    · intro h r hr hname
      exact h r (mem_keptRecords.mpr ⟨hr,hname ▸ hrep⟩) hname
    · intro h r hr
      exact h r (mem_keptRecords.mp hr).1
  have hfilter : e.keptRecords.filter (fun r => r.group = Tag.printerAttributes ∧
      r.attributeName = octets "printer-uri-supported") =
      e.records.filter fun r => r.group = Tag.printerAttributes ∧
        r.attributeName = octets "printer-uri-supported" := by
    rw [Envelope.keptRecords, List.filter_filter]
    apply List.filter_congr
    intro r _
    by_cases h : r.group = Tag.printerAttributes ∧
      r.attributeName = octets "printer-uri-supported"
    · simp [h.1, h.2, hrep]
    · simp [h]
  rw [normalize_standin_values hrecords hs, hfilter, Envelope.printerValues, Envelope.valuesOf,
    List.map_map]
  simp only [hkept]
  congr 1
  apply List.map_congr_left
  intro r hr
  exact rewriteRecord_endpoint (of_decide_eq_true (List.mem_filter.mp hr).2).2

theorem schemeSecurity_facadeEndpoint (v : UInt8 × Bytes) :
    schemeSecurity (cstr printerUri) = schemeSecurity (facadeEndpoint printerUri v).2 ↔
      v.1 = Tag.uri ∨ schemeSecurity v.2 = schemeSecurity (cstr printerUri) := by
  unfold facadeEndpoint
  by_cases htag : v.1 = Tag.uri
  · simp [htag]
  · simp only [htag, if_false, false_or]
    exact eq_comm

/-- The three attributes of a normalised response describe the same endpoints exactly when the
printer reports a single one: its URIs are rewritten one by one, but the other two attributes are
stripped and added again for one endpoint. -/
theorem normalize_parallel_iff (he : decode input = .ok e)
    (hstatus : ippCodecMessageCode input < 0x0400)
    (h : ippCodecNormalizePrinterResponse hundredths mem input printerUri authority localUuid t =
      .ok (out,k)) :
    ∃ e', decode out = .ok e' ∧ (Parallel e' ↔ OneEndpoint printerUri e) := by
  obtain ⟨e',he',hrecords,-⟩ := normalize_printerNames he hstatus h
  refine ⟨e',he',?_⟩
  have hauth := normalize_replaced_values hrecords
    (s := ⟨Present.uriAuth,"uri-authentication-supported",[str Tag.keyword "none"]⟩)
    (by simp [standins]) (by decide +kernel)
  have hsec := normalize_replaced_values hrecords
    (s := ⟨Present.uriSecurity,"uri-security-supported",
      [str Tag.keyword (if (octets "ipps://").isPrefixOf (cstr printerUri) then "tls" else "none")]⟩)
    (by simp [standins]) (show isReplaced (octets "uri-security-supported") = true by decide +kernel)
  have huris := normalize_endpoints hrecords
  have hiff : Parallel e' ↔ ∃ v, e'.printerValues "printer-uri-supported" = [v] ∧
      schemeSecurity (cstr printerUri) = schemeSecurity v.2 := by
    constructor
    · rintro ⟨-,hsecurities⟩
      rw [hsec] at hsecurities
      obtain ⟨v,hv,hsecurity⟩ := List.map_eq_singleton_iff.mp hsecurities.symm
      exact ⟨v,hv,hsecurity.symm⟩
    · rintro ⟨v,hv,hsecurity⟩
      refine ⟨by rw [hauth, hv]; rfl,?_⟩
      rw [hsec, hv]
      exact congrArg (fun security => [security]) hsecurity
  rw [hiff, huris, OneEndpoint]
  by_cases hnone : ∀ r ∈ e.records, r.attributeName ≠ octets "printer-uri-supported"
  · have hnil : e.printerValues "printer-uri-supported" = [] := by
      rw [Envelope.printerValues, Envelope.valuesOf, List.map_eq_nil_iff, List.filter_eq_nil_iff]
      intro r hr hcond
      exact hnone r hr (of_decide_eq_true hcond).2
    rw [hnil, if_pos hnone]
    exact iff_of_true ⟨_,rfl,rfl⟩ (.inl hnone)
  · rw [if_neg hnone, List.append_nil]
    constructor
    · rintro ⟨v,hv,hsecurity⟩
      obtain ⟨w,hw,rfl⟩ := List.map_eq_singleton_iff.mp hv
      exact .inr ⟨w,hw,schemeSecurity_facadeEndpoint w |>.mp hsecurity⟩
    · rintro (habsent | ⟨w,hw,hmatch⟩)
      · exact absurd habsent hnone
      · rw [hw]
        exact ⟨_,rfl,schemeSecurity_facadeEndpoint w |>.mpr hmatch⟩

end

theorem normalize_parallel_named :
    ∃ out k, ippCodecNormalizePrinterResponse (fun _ _ => none) .unlimited namedResponse.encode
        (octets "ipps://espresso.local:631/ipp/print") (octets "ipps://espresso.local:631")
        (octets "1b2c") .zero = .ok (out,k) ∧
      ∃ e', decode out = .ok e' ∧
        (Parallel e' ↔ OneEndpoint (octets "ipps://espresso.local:631/ipp/print") namedResponse) := by
  obtain ⟨⟨out,k⟩,h⟩ := exists_of_isOk (show (ippCodecNormalizePrinterResponse (fun _ _ => none)
    .unlimited namedResponse.encode (octets "ipps://espresso.local:631/ipp/print")
    (octets "ipps://espresso.local:631") (octets "1b2c") .zero).isOk = true by decide +kernel)
  exact ⟨out,k,h,normalize_parallel_iff (decode_encode namedResponse) (by decide +kernel) h⟩

/-- A printer that listens with and without TLS. -/
def twoEndpointResponse : Envelope where
  header := [2,0,0,0,0,0,0,1]
  items := [.group Tag.operationAttributes,
    named Tag.charset "attributes-charset" (octets "utf-8"),
    named Tag.language "attributes-natural-language" (octets "en"),
    .group Tag.printerAttributes,
    named Tag.uri "printer-uri-supported" (octets "ipp://acme.local/ipp/print"),
    .value Tag.uri [] (octets "ipps://acme.local/ipp/print"),
    named Tag.keyword "uri-authentication-supported" (octets "none"),
    .value Tag.keyword [] (octets "none"),
    named Tag.keyword "uri-security-supported" (octets "none"),
    .value Tag.keyword [] (octets "tls")]
  document := []
  header_length := literalHeader_length
  items_ok := by decide +kernel

/-- The profile of that printer: discovered, then merged with the response. -/
def twoEndpointTarget : PrinterTarget :=
  twoEndpointResponse.applyTo (targetFromResult ⟨some (octets "Acme"),none,631,[],[]⟩ false)

/-- Its two URIs are both kept, as two copies of the facade's, with one security value. -/
theorem normalize_not_parallel :
    Reachable [twoEndpointResponse] twoEndpointTarget ∧ Parallel twoEndpointResponse ∧
    ippCodecMessageCode twoEndpointResponse.encode < 0x0400 ∧
    ∃ out k e', ippCodecNormalizePrinterResponse (fun _ _ => none) .unlimited
        twoEndpointResponse.encode (octets "ipp://espresso.local:631/ipp/print")
        (octets "ipp://espresso.local:631") (octets "1b2c") twoEndpointTarget = .ok (out,k) ∧
      decode out = .ok e' ∧ ¬ Parallel e' := by
  have hstatus : ippCodecMessageCode twoEndpointResponse.encode < 0x0400 := by decide +kernel
  refine ⟨.merged _ (.discovered _ _),⟨by decide +kernel,by decide +kernel⟩,hstatus,?_⟩
  obtain ⟨⟨out,k⟩,h⟩ := exists_of_isOk (show (ippCodecNormalizePrinterResponse (fun _ _ => none)
    .unlimited twoEndpointResponse.encode (octets "ipp://espresso.local:631/ipp/print")
    (octets "ipp://espresso.local:631") (octets "1b2c") twoEndpointTarget).isOk = true by
      decide +kernel)
  obtain ⟨e',he',hrecords,-⟩ := normalize_printerNames (decode_encode twoEndpointResponse) hstatus h
  refine ⟨out,k,e',h,he',?_⟩
  intro hparallel
  have hauth := normalize_replaced_values hrecords
    (s := ⟨Present.uriAuth,"uri-authentication-supported",[str Tag.keyword "none"]⟩)
    (by simp [standins]) (by decide +kernel)
  have huris : (e'.printerValues "printer-uri-supported").length =
      (twoEndpointResponse.printerValues "printer-uri-supported").length := by
    rw [normalize_endpoints hrecords, if_neg (by decide +kernel), List.append_nil, List.length_map]
  have htwo : (twoEndpointResponse.printerValues "printer-uri-supported").length = 2 := by
    decide +kernel
  have hcount := hparallel.authentications
  rw [huris, htwo, hauth] at hcount
  cases hcount

end Espresso.Codec
