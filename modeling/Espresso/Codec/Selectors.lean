import Espresso.Codec.Summary
import Espresso.Codec.Filter
import Espresso.Codec.Response
import Espresso.Codec.CommaList

/-! The `requested-attributes` of a client and the attributes it is sent. The inspector keeps the
selectors in an array of 1536 octets, which is all that the filter sees of them. -/
namespace Espresso.Codec

/-! ### What a request asks for -/

/-- A value of `requested-attributes` where the protocol puts it. -/
def Record.isSelector (r : Record) : Bool :=
  r.group = Tag.operationAttributes && r.attributeName = octets "requested-attributes" &&
    r.tag = Tag.keyword

def Envelope.selectorValues (e : Envelope) : List Bytes :=
  (e.records.filter Record.isSelector).map Record.value

/-- The selectors: one value may hold several. -/
def selectors (values : List Bytes) : List Bytes := values.flatMap entries

/-- One selector asks for an attribute of the printer-attributes group. -/
def Selects (name selector : Bytes) : Prop :=
  equalSpan selector name = true ∨
    (equalSpan selector (octets "all") = true ∧ ¬ attributeNameEquals name "media-col-database") ∨
    (equalSpan selector (octets "job-template") = true ∧
      classifyResponseAttribute Tag.printerAttributes name = RequestedGroup.jobTemplate) ∨
    (equalSpan selector (octets "printer-description") = true ∧
      classifyResponseAttribute Tag.printerAttributes name = RequestedGroup.printerDescription)

instance (name selector : Bytes) : Decidable (Selects name selector) := by
  unfold Selects; infer_instance

/-- The request asks for the attribute; without selectors it asks for all but the media database. -/
def Selected (values : List Bytes) (name : Bytes) : Prop :=
  if values = [] then ¬ attributeNameEquals name "media-col-database"
  else ∃ s ∈ selectors values, Selects name s

instance (values : List Bytes) (name : Bytes) : Decidable (Selected values name) := by
  unfold Selected; infer_instance

/-- The selectors that fit into the array, one after the other. -/
def keptSelectors (values : List Bytes) : List Bytes :=
  ((values.flatMap (·.splitOn comma)).foldl (keepPiece ippRequestedAttributesMax) ([],0)).1

/-! ### What the filter sees -/

theorem Envelope.inspect_requestedAttributes (e : Envelope) :
    e.inspect.requestedAttributes = e.selectorValues.foldl csvAddSplit .empty := by
  have hview := @Envelope.inspect_view _ RequestInfo.requestedAttributes
    (fun old r => if r.isSelector then csvAddSplit old r.value else old)
    (fun _ _ => rfl) (fun _ _ _ => rfl) (by
      intro info r
      unfold InspectState.readValue Record.isSelector
      simp only
      split_ifs <;> first | rfl | (split <;> rfl) | simp_all) e
  rw [hview, selectorValues, List.foldl_map, ← List.foldl_filter]
  rfl

/-- The array holds the kept selectors. -/
theorem requestedAttributes_entries (e : Envelope) :
    entries e.inspect.requestedAttributes.val = keptSelectors e.selectorValues := by
  rw [e.inspect_requestedAttributes]
  have h := csvAddSplit_keeps (n := ippRequestedAttributesMax) .empty e.selectorValues
  exact congrArg Prod.fst h

/-- A kept piece takes room and says something, or does neither. -/
theorem keepPiece_nil_iff {n : ℕ} {kept : List Bytes × ℕ} (h : kept.1 = [] ↔ kept.2 = 0)
    (piece : Bytes) : (keepPiece n kept piece).1 = [] ↔ (keepPiece n kept piece).2 = 0 := by
  unfold keepPiece
  extract_lets separator
  have hseparator : kept.2 = 0 → separator = 0 := fun h0 => if_pos h0
  split
  · exact h
  rename_i hkeep
  have htext : trim piece ≠ [] := fun h' => hkeep (.inl h')
  cases ht : trim piece with
  | nil => exact absurd ht htext
  | cons c rest =>
    by_cases hc : c = 0
    · -- cut at once: a separator is added only behind something
      have hcut : cstr (c :: rest) = [] := by simp [cstr, hc]
      have hentry : entryOf (cstr (c :: rest)) = [] := by rw [hcut]; decide
      rw [hentry, hcut, List.append_nil, h]
      by_cases h0 : kept.2 = 0
      · simp [h0, hseparator h0]
      · simp [h0]
    · have hcut : cstr (c :: rest) = c :: cstr rest := by simp [cstr, hc]
      have hspace := isspace_of_trim_cons ht
      have hentry : entryOf (cstr (c :: rest)) ≠ [] := by
        rw [hcut, entryOf, trim_eq_trimEnd hspace, if_neg (trimEnd_ne_nil hspace _)]
        simp
      rw [hcut] at hentry ⊢
      simp [hentry]

theorem requestedAttributes_eq_nil_iff (e : Envelope) :
    e.inspect.requestedAttributes.val = [] ↔ keptSelectors e.selectorValues = [] := by
  have hfold : ∀ (pieces : List Bytes) (kept : List Bytes × ℕ), (kept.1 = [] ↔ kept.2 = 0) →
      ((pieces.foldl (keepPiece ippRequestedAttributesMax) kept).1 = [] ↔
        (pieces.foldl (keepPiece ippRequestedAttributesMax) kept).2 = 0) := by
    intro pieces
    induction pieces with
    | nil => intro kept h; exact h
    | cons piece pieces ih => intro kept h; exact ih _ (keepPiece_nil_iff h piece)
  have h := csvAddSplit_keeps (n := ippRequestedAttributesMax) .empty e.selectorValues
  rw [keptSelectors, hfold _ ([],0) (by simp), e.inspect_requestedAttributes,
    ← List.length_eq_zero_iff]
  exact iff_of_eq (congrArg (fun p => p.2 = 0) h)

theorem classify_printer (name : Bytes) :
    (classifyResponseAttribute Tag.printerAttributes name = 0 ∧
      attributeNameEquals name "media-col-database" = true) ∨
    ((classifyResponseAttribute Tag.printerAttributes name = RequestedGroup.jobTemplate ∨
        classifyResponseAttribute Tag.printerAttributes name =
          RequestedGroup.printerDescription) ∧
      attributeNameEquals name "media-col-database" = false) := by
  have honly : isExplicitOnlyPrinterAttribute name =
      attributeNameEquals name "media-col-database" := by
    simp [isExplicitOnlyPrinterAttribute, explicitOnlyPrinterAttributes]
  simp only [classifyResponseAttribute, if_true, honly]
  cases attributeNameEquals name "media-col-database" with
  | true => simp
  | false =>
    cases isJobTemplateAttribute Tag.printerAttributes name <;> simp

/-- The mask has the bit of a group whose name is among the selectors. -/
theorem and_requestedGroupMask (requestedAttributes : Bytes) (group : ℕ)
    (h : group = 0 ∨ group = RequestedGroup.jobTemplate ∨
      group = RequestedGroup.printerDescription) :
    group &&& requestedGroupMask requestedAttributes ≠ 0 ↔
      (group = RequestedGroup.jobTemplate ∧ Listed requestedAttributes (octets "job-template")) ∨
      (group = RequestedGroup.printerDescription ∧
        Listed requestedAttributes (octets "printer-description")) := by
  rw [← csvContains_iff, ← csvContains_iff]
  simp only [requestedGroupMask, requestedGroupSelectors, List.foldl_cons, List.foldl_nil]
  cases csvContains requestedAttributes (octets "job-template") <;>
  cases csvContains requestedAttributes (octets "job-description") <;>
  cases csvContains requestedAttributes (octets "printer-description") <;>
  rcases h with rfl | rfl | rfl <;> decide

theorem filtersOut_printer (requestedAttributes name : Bytes) :
    filtersOut .printer requestedAttributes Tag.printerAttributes name = false ↔
      (requestedAttributes = [] ∧ ¬ attributeNameEquals name "media-col-database") ∨
        ∃ s ∈ entries requestedAttributes, Selects name s := by
  have hgroup := and_requestedGroupMask requestedAttributes
    (classifyResponseAttribute Tag.printerAttributes name)
    ((classify_printer name).imp And.left And.left)
  have hclass : classifyResponseAttribute Tag.printerAttributes name ≠ 0 ↔
      ¬ attributeNameEquals name "media-col-database" := by
    rcases classify_printer name with ⟨h0,h⟩ | ⟨h0 | h0,h⟩ <;> simp [h0, h]
  simp only [filtersOut, ResponseKind.filteredGroup, ne_eq, not_true_eq_false, decide_false,
    Bool.false_or, Bool.not_eq_false', Bool.or_eq_true, Bool.and_eq_true, decide_eq_true_eq,
    csvContains_iff] at hgroup hclass ⊢
  rw [hgroup, hclass]
  simp only [Listed, Selects]
  constructor
  · rintro ((⟨s,hs,h⟩ | ⟨hnil | ⟨s,hs,h⟩,hdb⟩) | ⟨hclass,s,hs,h⟩ | ⟨hclass,s,hs,h⟩)
    · exact .inr ⟨s,hs,.inl h⟩
    · exact .inl ⟨hnil,hdb⟩
    · exact .inr ⟨s,hs,.inr (.inl ⟨h,hdb⟩)⟩
    · exact .inr ⟨s,hs,.inr (.inr (.inl ⟨h,hclass⟩))⟩
    · exact .inr ⟨s,hs,.inr (.inr (.inr ⟨h,hclass⟩))⟩
  · rintro (⟨hnil,hdb⟩ | ⟨s,hs,h | ⟨h,hdb⟩ | ⟨h,hclass⟩ | ⟨h,hclass⟩⟩)
    · exact .inl (.inr ⟨.inl hnil,hdb⟩)
    · exact .inl (.inl ⟨s,hs,h⟩)
    · exact .inl (.inr ⟨.inr ⟨s,hs,h⟩,hdb⟩)
    · exact .inr (.inl ⟨hclass,s,hs,h⟩)
    · exact .inr (.inr ⟨hclass,s,hs,h⟩)

/-! ### What the client is sent -/

/-- The kept selectors ask for an attribute exactly if the request does. Where selectors are given
but none is kept, the client is sent all but the media database. -/
def SelectorsCover (values : List Bytes) (name : Bytes) : Prop :=
  values = [] ∨
    if keptSelectors values = [] then
      ¬ attributeNameEquals name "media-col-database" ↔ ∃ s ∈ selectors values, Selects name s
    else (∃ s ∈ keptSelectors values, Selects name s) ↔ ∃ s ∈ selectors values, Selects name s

instance (values : List Bytes) (name : Bytes) : Decidable (SelectorsCover values name) := by
  unfold SelectorsCover; infer_instance

/-- A filtered response has the attributes that the filter lets through. -/
theorem mem_printerNames_filtered {mem : Memory} {requestedAttributes input out : Bytes} {k : ℕ}
    {e e' : Envelope} (he : decode input = .ok e) (he' : decode out = .ok e')
    (h : ippCodecFilterResponse mem .printer requestedAttributes input = .ok (out,k))
    (name : Bytes) :
    name ∈ e'.printerNames ↔ name ∈ e.printerNames ∧
      filtersOut .printer requestedAttributes Tag.printerAttributes name = false := by
  obtain ⟨e1,e2,he1,he2,-,-,-,hrecords⟩ := ippCodecFilterResponse_ok h
  rw [he] at he1
  rw [he'] at he2
  cases he1
  cases he2
  simp only [Envelope.mem_printerNames, hrecords, List.mem_filter, Bool.not_eq_true']
  constructor
  · rintro ⟨r,⟨hr,hkeep⟩,hgroup,hname⟩
    rw [hgroup, hname] at hkeep
    exact ⟨⟨r,hr,hgroup,hname⟩,hkeep⟩
  · rintro ⟨⟨r,hr,hgroup,hname⟩,hkeep⟩
    refine ⟨r,⟨hr,?_⟩,hgroup,hname⟩
    rw [hgroup, hname]
    exact hkeep

/-- What passes the filter is what the kept selectors ask for. -/
theorem filtersOut_requested (e : Envelope) (name : Bytes) :
    filtersOut .printer e.inspect.requestedAttributes.val Tag.printerAttributes name = false ↔
      if keptSelectors e.selectorValues = [] then ¬ attributeNameEquals name "media-col-database"
      else ∃ s ∈ keptSelectors e.selectorValues, Selects name s := by
  rw [filtersOut_printer, requestedAttributes_eq_nil_iff, requestedAttributes_entries]
  by_cases h : keptSelectors e.selectorValues = []
  · simp [h]
  · simp [h]

/-! ### Requests that fit -/

theorem selectors_eq (values : List Bytes) :
    selectors values = ((values.flatMap (·.splitOn comma)).map trim).filter (· ≠ []) := by
  rw [selectors, List.map_flatMap, List.filter_flatMap]
  rfl

/-- Octets taken by a list so far, with the separator that the next entry needs. -/
def cost (used : ℕ) : ℕ := if used = 0 then 0 else used + 1

/-- Pieces without NUL that fit together are all kept, up to case, and nothing else is. -/
theorem foldl_keepPiece_of_fit {n : ℕ} {pieces : List Bytes} {kept : List Bytes × ℕ}
    (h0 : ∀ p ∈ pieces, 0 ∉ p)
    (hfit : cost kept.2 +
      (((pieces.map trim).filter (· ≠ [])).map fun s => s.length + 1).sum ≤ n) :
    (∀ k ∈ kept.1, k ∈ (pieces.foldl (keepPiece n) kept).1) ∧
    (∀ s ∈ (pieces.map trim).filter (· ≠ []), ∃ k ∈ (pieces.foldl (keepPiece n) kept).1,
      equalSpan k s = true) ∧
    ∀ k ∈ (pieces.foldl (keepPiece n) kept).1,
      k ∈ kept.1 ∨ k ∈ (pieces.map trim).filter (· ≠ []) := by
  induction pieces generalizing kept with
  | nil => exact ⟨fun _ h => h,fun _ h => by simp at h,fun _ h => .inl h⟩
  | cons piece pieces ih =>
    have h0' : ∀ p ∈ pieces, 0 ∉ p := fun p hp => h0 p (List.mem_cons_of_mem _ hp)
    rw [List.foldl_cons, List.map_cons]
    by_cases hblank : trim piece = []
    · have hskip : keepPiece n kept piece = kept := if_pos (.inl hblank)
      rw [List.map_cons, List.filter_cons_of_neg (by simpa using hblank)] at hfit
      rw [hskip, List.filter_cons_of_neg (by simpa using hblank)]
      exact ih h0' hfit
    rw [List.map_cons, List.filter_cons_of_pos (by simpa using hblank), List.map_cons,
      List.sum_cons] at hfit
    rw [List.filter_cons_of_pos (by simpa using hblank)]
    by_cases hlisted : ∃ entry ∈ kept.1, equalSpan entry (trim piece) = true
    · have hskip : keepPiece n kept piece = kept := if_pos (.inr (.inl hlisted))
      obtain ⟨hold,hall,hnew⟩ := ih h0' (show cost kept.2 + _ ≤ n by omega)
      rw [hskip]
      refine ⟨hold,?_,fun k hk => (hnew k hk).imp_right (List.mem_cons_of_mem _)⟩
      intro s hs
      rcases List.mem_cons.mp hs with rfl | hs
      · obtain ⟨entry,hentry,heq⟩ := hlisted
        exact ⟨entry,hold entry hentry,heq⟩
      · exact hall s hs
    · -- there is room: the array keeps the piece as it stands
      have hcstr : cstr (trim piece) = trim piece := by
        apply cstr_eq_self
        exact fun h => h0 piece List.mem_cons_self ((trim_sublist piece).subset h)
      have hseparator : kept.2 + (if kept.2 = 0 then 0 else 1) = cost kept.2 := by
        unfold cost
        split <;> omega
      have hpos : (trim piece).length ≠ 0 := by simpa using hblank
      have hkeep : keepPiece n kept piece =
          (kept.1 ++ [trim piece],cost kept.2 + (trim piece).length) := by
        rw [keepPiece, hseparator, hcstr, entryOf, trim_trim, if_neg hblank]
        refine if_neg ?_
        rintro (h | h | h)
        · exact hblank h
        · exact hlisted h
        · omega
      have hcost : cost (cost kept.2 + (trim piece).length) =
          cost kept.2 + (trim piece).length + 1 := if_neg (by omega)
      obtain ⟨hold,hall,hnew⟩ := ih h0'
        (show cost (keepPiece n kept piece).2 + _ ≤ n by rw [hkeep, hcost]; omega)
      rw [hkeep] at hold hall hnew ⊢
      refine ⟨fun k hk => hold k (List.mem_append_left _ hk),?_,?_⟩
      · intro s hs
        rcases List.mem_cons.mp hs with rfl | hs
        · exact ⟨_,hold _ (List.mem_append_right _ (List.mem_singleton_self _)),equalSpan_self _⟩
        · exact hall s hs
      · intro k hk
        rcases hnew k hk with hk | hk
        · rcases List.mem_append.mp hk with hk | hk
          · exact .inl hk
          · rw [List.mem_singleton.mp hk]
            exact .inr List.mem_cons_self
        · exact .inr (List.mem_cons_of_mem _ hk)

theorem selects_congr {name selector selector' : Bytes} (h : equalSpan selector selector' = true) :
    Selects name selector ↔ Selects name selector' := by
  have hlower := (equalSpan_iff selector selector').mp h
  simp only [Selects, equalSpan_iff, hlower]

/-- Selectors without NUL that take at most 1535 octets with their commas are all respected. -/
theorem selectorsCover_of_fit {values : List Bytes} (h0 : ∀ v ∈ values, 0 ∉ v)
    (hsome : values ≠ [] → selectors values ≠ [])
    (hfit : ((selectors values).map fun s => s.length + 1).sum ≤ ippRequestedAttributesMax)
    (name : Bytes) : SelectorsCover values name := by
  have hpieces : ∀ p ∈ values.flatMap (·.splitOn comma), 0 ∉ p := by
    intro p hp hzero
    obtain ⟨v,hv,hp⟩ := List.mem_flatMap.mp hp
    exact h0 v hv ((part_of_splitOn hp).2 hzero)
  by_cases hvalues : values = []
  · exact .inl hvalues
  rw [selectors_eq] at hfit
  obtain ⟨-,hall,hnew⟩ := foldl_keepPiece_of_fit hpieces
    (show cost (([],0) : List Bytes × ℕ).2 + _ ≤ ippRequestedAttributesMax by
      simpa [cost] using hfit)
  rw [← selectors_eq] at hall hnew
  have hkept : keptSelectors values ≠ [] := by
    obtain ⟨s,hs⟩ := List.exists_mem_of_ne_nil _ (hsome hvalues)
    obtain ⟨k,hk,-⟩ := hall s hs
    exact List.ne_nil_of_mem hk
  right
  rw [if_neg hkept]
  constructor
  · rintro ⟨k,hk,hselects⟩
    rcases hnew k hk with h | h
    · cases h
    · exact ⟨k,h,hselects⟩
  · rintro ⟨s,hs,hselects⟩
    obtain ⟨k,hk,heq⟩ := hall s hs
    exact ⟨k,hk,(selects_congr heq).mpr hselects⟩

/-- The answer to a Get-Printer-Attributes request, as `proxy_handler` makes it from the printer's
response: normalised for the profile, then filtered by the selectors. Returns both messages. -/
def printerAttributesAnswer (hundredths : Bytes → ℕ → Option ℕ) (mem mem' : Memory)
    (input printerUri authority localUuid : Bytes) (t : PrinterTarget) (info : RequestInfo) :
    Except CodecError (Bytes × Bytes) := do
  let (normalized,_) ←
    ippCodecNormalizePrinterResponse hundredths mem input printerUri authority localUuid t
  let (sent,_) ← ippCodecFilterResponse mem' .printer info.requestedAttributes.val normalized
  return (normalized,sent)

theorem printerAttributesAnswer_ok {hundredths : Bytes → ℕ → Option ℕ} {mem mem' : Memory}
    {input printerUri authority localUuid normalized sent : Bytes} {t : PrinterTarget}
    {info : RequestInfo} (h : printerAttributesAnswer hundredths mem mem' input printerUri authority
      localUuid t info = .ok (normalized,sent)) :
    ∃ k k', ippCodecNormalizePrinterResponse hundredths mem input printerUri authority localUuid t =
        .ok (normalized,k) ∧
      ippCodecFilterResponse mem' .printer info.requestedAttributes.val normalized =
        .ok (sent,k') := by
  unfold printerAttributesAnswer at h
  cases hn : ippCodecNormalizePrinterResponse hundredths mem input printerUri authority localUuid t
    with
  | error f => rw [hn] at h; cases h
  | ok r =>
    obtain ⟨normalized',k⟩ := r
    rw [hn] at h
    cases hf : ippCodecFilterResponse mem' .printer info.requestedAttributes.val normalized' with
    | error f => simp only [bind, Except.bind, hf] at h; cases h
    | ok r =>
      obtain ⟨sent',k'⟩ := r
      simp only [bind, Except.bind, hf] at h
      cases h
      exact ⟨k,k',rfl,hf⟩

/-- With enough memory every normalised response is answered. -/
theorem printerAttributesAnswer_unlimited {hundredths : Bytes → ℕ → Option ℕ} {mem : Memory}
    {input printerUri authority localUuid normalized : Bytes} {t : PrinterTarget} {k : ℕ}
    {e : Envelope} (h : ippCodecNormalizePrinterResponse hundredths mem input printerUri authority
      localUuid t = .ok (normalized,k)) (he : decode normalized = .ok e) (info : RequestInfo) :
    ∃ sent, printerAttributesAnswer hundredths mem .unlimited input printerUri authority localUuid t
      info = .ok (normalized,sent) := by
  obtain ⟨sent,k',hf⟩ : ∃ sent k', ippCodecFilterResponse .unlimited .printer
      info.requestedAttributes.val normalized = .ok (sent,k') :=
    ippCodecFilterResponse_succeeds Memory.unlimited_not_refuses he
  refine ⟨sent,?_⟩
  simp only [printerAttributesAnswer, h, hf, bind, Except.bind]
  rfl

/-- A Get-Printer-Attributes request with the given selectors. -/
def selectorItems (values : List Bytes) : List Item :=
  .group Tag.operationAttributes :: attributeList
    [("attributes-charset",[str Tag.charset "utf-8"]),
     ("attributes-natural-language",[str Tag.language "en"]),
     ("printer-uri",[str Tag.uri "ipp://espresso.local:631/ipp/print"]),
     ("requested-attributes",values.map fun v => (Tag.keyword,v))]

/-- Six selectors that fill the array, then one more. -/
def fullRequest : Envelope where
  header := [2,0,0,0x0b,0,0,0,1]
  items := selectorItems ([0x61,0x62,0x63,0x64,0x65,0x66].map (List.replicate 255) ++
    [octets "printer-name"])
  document := []
  header_length := literalHeader_length
  items_ok := by decide +kernel

def nameRequest : Envelope where
  header := [2,0,0,0x0b,0,0,0,1]
  items := selectorItems [octets "printer-name, printer-info"]
  document := []
  header_length := literalHeader_length
  items_ok := by decide +kernel

end Espresso.Codec
