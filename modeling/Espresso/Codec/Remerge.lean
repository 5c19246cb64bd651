import Espresso.Codec.CommaList
import Espresso.Codec.Fields

/-! Merging the same response again: a list takes a piece once, a field is written as it was. -/
namespace Espresso.Codec

/-! ### Lists -/

/-- A part of a value without NUL. -/
def CleanPiece (piece : Bytes) : Prop := 0 ∉ piece ∧ comma ∉ piece

theorem csvAdd_clean {n : ℕ} {csv : Text n} {piece : Bytes} (hpiece : CleanPiece piece)
    (h : ¬ Refuses csv piece) :
    entries (csvAdd csv piece).val = entries csv.val ++ [trim piece] ∧
      csv.val.length + (trim piece).length ≤ (csvAdd csv piece).val.length := by
  have hkeeps := csvAdd_keeps csv hpiece.2
  rw [keepPiece, if_neg fun hr => h (refuses_iff.mpr hr), cstr_eq_self fun h0 =>
    hpiece.1 ((trim_sublist piece).subset h0), entryOf, trim_trim, Prod.mk.injEq] at hkeeps
  have hne : trim piece ≠ [] := fun he => h (refuses_iff.mpr (.inl he))
  rw [if_neg hne] at hkeeps
  exact ⟨hkeeps.1,by rw [hkeeps.2]; split <;> omega⟩

theorem csvAdd_eq_self_iff {n : ℕ} {csv : Text n} {piece : Bytes} (hpiece : CleanPiece piece) :
    csvAdd csv piece = csv ↔ Refuses csv piece := by
  refine ⟨fun heq => ?_,csvAdd_of_refuses⟩
  by_contra h
  have hlonger := (csvAdd_clean hpiece h).2
  rw [heq] at hlonger
  have hnil : trim piece = [] := List.length_eq_zero_iff.mp (by omega)
  exact h (refuses_iff.mpr (.inl hnil))

/-- A list that grows goes on refusing what it refused. -/
theorem Refuses.csvAdd {n : ℕ} {csv : Text n} {piece : Bytes} (h : Refuses csv piece)
    {other : Bytes} (hother : CleanPiece other) : Refuses (csvAdd csv other) piece := by
  by_cases hr : Refuses csv other
  · rwa [csvAdd_of_refuses hr]
  obtain ⟨hentries,hlength⟩ := csvAdd_clean hother hr
  rw [refuses_iff, hentries]
  obtain h | ⟨entry,hentry,heq⟩ | h := refuses_iff.mp h
  · exact .inl h
  · exact .inr (.inl ⟨entry,List.mem_append_left _ hentry,heq⟩)
  · refine .inr (.inr ?_)
    split at h <;> split <;> omega

/-- A piece is in the list once it has been added, or is refused from then on. -/
theorem settles_csvAdd (n : ℕ) : Settles CleanPiece (@csvAdd n) := by
  refine ⟨fun csv piece hpiece => ?_,fun csv piece other hpiece hother h => ?_⟩
  · by_cases h : Refuses csv piece
    · rw [csvAdd_of_refuses h, csvAdd_of_refuses h]
    · apply csvAdd_of_refuses
      rw [refuses_iff, (csvAdd_clean hpiece h).1]
      exact .inr (.inl ⟨trim piece,List.mem_append_right _ (List.mem_singleton_self _),
        equalSpan_self _⟩)
  · exact csvAdd_of_refuses (((csvAdd_eq_self_iff hpiece).mp h).csvAdd hother)

theorem foldl_csvAdd_eq_self_iff {n : ℕ} {ps : List Bytes} {csv : Text n} :
    ps.foldl csvAdd csv = csv ↔ ∀ piece ∈ ps, csvAdd csv piece = csv := by
  refine ⟨fun h => ?_,foldl_fixed⟩
  induction ps with
  | nil => exact fun _ hp => absurd hp List.not_mem_nil
  | cons p ps ih =>
    have hp : csvAdd csv p = csv := by
      apply Subtype.ext
      have hlater := foldl_csvAdd_isPrefix ps (csvAdd csv p)
      rw [← List.foldl_cons, h] at hlater
      exact ((csvAdd_isPrefix csv p).eq_of_length_le hlater.length_le).symm
    rw [List.foldl_cons, hp] at h
    exact List.forall_mem_cons.mpr ⟨hp,ih h⟩

/-- The pieces that the records bring to a list. -/
def pieces (values : Record → Option Bytes) (rs : List Record) : List Bytes :=
  rs.flatMap fun r => ((values r).map (·.splitOn comma)).getD []

theorem foldl_addTo {n : ℕ} (values : Record → Option Bytes) (rs : List Record) (csv : Text n) :
    rs.foldl (fun csv r => addTo csv (values r)) csv = (pieces values rs).foldl csvAdd csv := by
  induction rs generalizing csv with
  | nil => rfl
  | cons r rs ih =>
    have hpieces : pieces values (r :: rs) =
        ((values r).map (·.splitOn comma)).getD [] ++ pieces values rs := List.flatMap_cons
    rw [List.foldl_cons, ih, hpieces, List.foldl_append]
    cases values r <;> rfl

theorem pieces_clean {values : Record → Option Bytes} {rs : List Record}
    (hvalues : ∀ r v, values r = some v → v = r.value) (h : ∀ r ∈ rs, 0 ∉ r.value) :
    ∀ piece ∈ pieces values rs, CleanPiece piece := by
  intro piece hpiece
  obtain ⟨r,hr,hmem⟩ := List.mem_flatMap.mp hpiece
  cases hv : values r with
  | none =>
    rw [hv] at hmem
    cases hmem
  | some v =>
    rw [hv] at hmem
    obtain ⟨hcomma,hsub⟩ := part_of_splitOn hmem
    obtain rfl := hvalues r v hv
    exact ⟨fun h0 => h r hr (hsub h0),hcomma⟩

/-- Adding the same values again leaves the list as it is. -/
theorem foldl_addTo_idem {n : ℕ} {values : Record → Option Bytes} {rs : List Record}
    (hvalues : ∀ r v, values r = some v → v = r.value) (h : ∀ r ∈ rs, 0 ∉ r.value)
    (csv : Text n) :
    rs.foldl (fun csv r => addTo csv (values r))
      (rs.foldl (fun csv r => addTo csv (values r)) csv) =
      rs.foldl (fun csv r => addTo csv (values r)) csv := by
  simp only [foldl_addTo]
  exact (settles_csvAdd n).foldl_idem (pieces_clean hvalues h) csv

theorem valueOf_eq {name : String} (r : Record) (v : Bytes) (h : r.valueOf name = some v) :
    v = r.value := by
  unfold Record.valueOf at h
  split at h
  · exact (Option.some.inj h).symm
  · cases h

theorem taggedValueOf_eq {name : String} {tag : UInt8} (r : Record) (v : Bytes)
    (h : r.taggedValueOf name tag = some v) : v = r.value := by
  unfold Record.taggedValueOf at h
  split at h
  · exact (Option.some.inj h).symm
  · cases h

/-! ### The other fields that records change in place -/

theorem foldl_getD_idem {α : Type} (written : Record → Option α) (rs : List Record) (x : α) :
    rs.foldl (fun x r => (written r).getD x) (rs.foldl (fun x r => (written r).getD x) x) =
      rs.foldl (fun x r => (written r).getD x) x := by
  simp only [foldl_getD]
  cases lastWritten written rs <;> rfl

theorem settles_or (bits : Record → ℕ) :
    Settles (fun _ => True) fun (mask : ℕ) r => mask ||| bits r := by
  refine ⟨fun mask r _ => ?_,fun mask r s _ _ h => ?_⟩
  · rw [Nat.or_assoc, Nat.or_self]
  · rw [Nat.or_right_comm, h]

/-- Whatever the records are, they make a new label or fill in for a missing one. -/
theorem foldl_mergedLabel (rs : List Record) :
    (∃ label, ∀ l, rs.foldl mergedLabel l = label) ∨
      ∃ label : Text 96, ∀ l, rs.foldl mergedLabel l = if l.val = [] then label else l := by
  induction rs with
  | nil =>
    refine .inr ⟨.empty,fun l => ?_⟩
    split
    · rename_i h
      exact Subtype.ext h
    · rfl
  | cons r rs ih =>
    obtain ⟨label,h⟩ | ⟨label,h⟩ := ih
    · exact .inl ⟨label,fun l => h _⟩
    · simp only [List.foldl_cons, h]
      by_cases hmodel : r.attributeName = octets "printer-make-and-model"
      · simp only [mergedLabel, if_pos hmodel]
        exact .inl ⟨_,fun _ => rfl⟩
      by_cases hinfo : r.attributeName = octets "printer-info"
      · refine .inr ⟨if (Text.copy 96 r.value).val = [] then label else .copy 96 r.value,fun l => ?_⟩
        by_cases hl : l.val = []
        · simp only [mergedLabel, if_neg hmodel, eq_true hinfo, hl, and_self, if_true]
        · simp only [mergedLabel, if_neg hmodel, hl, and_false, if_false]
      · refine .inr ⟨label,fun l => ?_⟩
        simp only [mergedLabel, if_neg hmodel, hinfo, false_and, if_false]

theorem foldl_mergedLabel_idem (rs : List Record) (l : Text 96) :
    rs.foldl mergedLabel (rs.foldl mergedLabel l) = rs.foldl mergedLabel l := by
  obtain ⟨label,h⟩ | ⟨label,h⟩ := foldl_mergedLabel rs
  · rw [h, h]
  · simp only [h]
    split
    · exact ite_self label
    · rfl

/-- The capabilities with the mode that depends on them. -/
def modeOf (t : PrinterTarget) : ℕ × Bool := (t.jobTemplateCapabilities,t.legacyOutputMode)

def mergedMode (mode : ℕ × Bool) (r : Record) : ℕ × Bool :=
  (mode.1 ||| r.capability,mergedLegacy mode.1 mode.2 r)

theorem capability_of_colorMode {r : Record}
    (h : r.attributeName = octets "print-color-mode-supported") :
    r.capability = JobCap.printColorMode := if_pos h

theorem and_eq_zero_of_or {a b bit : ℕ} (h : (a ||| b) &&& bit = 0) : a &&& bit = 0 := by
  rw [Nat.and_or_distrib_right] at h
  exact (Nat.or_eq_zero_iff.mp h).1

theorem mergedLegacy_again (caps more : ℕ) (legacy : Bool) (r : Record) :
    mergedLegacy (caps ||| more) (mergedLegacy caps legacy r) r = mergedLegacy caps legacy r := by
  by_cases hmode : r.attributeName = octets "print-color-mode-supported"
  · simp only [mergedLegacy, if_pos hmode]
  by_cases hsome : (caps ||| more) &&& JobCap.printColorMode = 0
  · have hnone := and_eq_zero_of_or hsome
    by_cases hlegacy : r.attributeName = octets "output-mode-supported"
    · simp only [mergedLegacy, if_neg hmode, if_pos (And.intro hlegacy hsome),
        if_pos (And.intro hlegacy hnone)]
    · simp only [mergedLegacy, if_neg hmode, hlegacy, false_and, if_false]
  · rw [mergedLegacy, if_neg hmode, if_neg fun h => hsome h.2]

/-- print-color-mode-supported ends the legacy mode for good; output-mode-supported starts it only
before. -/
theorem settles_mode : Settles (fun _ => True) mergedMode := by
  refine ⟨fun ⟨caps,legacy⟩ r _ => ?_,fun ⟨caps,legacy⟩ r s _ _ h => ?_⟩
  · simp only [mergedMode, Prod.mk.injEq]
    exact ⟨by rw [Nat.or_assoc, Nat.or_self],mergedLegacy_again _ _ _ _⟩
  · simp only [mergedMode, Prod.mk.injEq] at h ⊢
    obtain ⟨hcaps,hlegacy⟩ := h
    refine ⟨by rw [Nat.or_right_comm, hcaps],?_⟩
    by_cases hmode : r.attributeName = octets "print-color-mode-supported"
    · -- the bit is set, so that no other record starts the legacy mode
      have hbit : ¬ caps &&& JobCap.printColorMode = 0 := by
        rw [← hcaps, capability_of_colorMode hmode]
        intro h0
        rw [Nat.or_comm] at h0
        exact absurd (and_eq_zero_of_or h0) (by decide)
      rw [mergedLegacy, if_pos hmode] at hlegacy ⊢
      simp only [mergedLegacy, hbit, and_false, if_false, ← hlegacy, ite_self]
    by_cases hstarts : r.attributeName = octets "output-mode-supported" ∧
        (caps ||| s.capability) &&& JobCap.printColorMode = 0
    · have hnone := and_eq_zero_of_or hstarts.2
      rw [mergedLegacy, if_neg hmode, if_pos ⟨hstarts.1,hnone⟩] at hlegacy
      have hother : s.attributeName ≠ octets "print-color-mode-supported" := by
        intro hs
        have h0 := hstarts.2
        rw [capability_of_colorMode hs, Nat.or_comm] at h0
        exact absurd (and_eq_zero_of_or h0) (by decide)
      rw [mergedLegacy, if_neg hmode, if_pos hstarts, mergedLegacy, if_neg hother, ← hlegacy,
        ite_self]
    · rw [mergedLegacy, if_neg hmode, if_neg hstarts]

/-! ### The profile -/

section
variable {α : Type} {view : PrinterTarget → α} {seen : α → Record → α}

/-- A field that records settle and nothing else touches is not changed by merging again. -/
theorem view_again (hseen : ∀ t r, view (mergedRecord t r) = seen (view t) r)
    (hheader : ∀ t input, view (applyHeader t input) = view t)
    (hfinal : ∀ t, view (finalizedProfile t) = view t) {input : Bytes}
    (hidem : ∀ x, (responseRecords input).foldl seen ((responseRecords input).foldl seen x) =
      (responseRecords input).foldl seen x) (t : PrinterTarget) :
    view (mergeResponse (finalizedProfile (mergeResponse t input)) input) =
      view (mergeResponse t input) := by
  simp only [mergeResponse, view_mergeRecords view seen hseen, hheader, hfinal, hidem]

end

/-- The profile that a response makes of the one it has made, before finalisation. -/
abbrev remerged (t : PrinterTarget) (input : Bytes) : PrinterTarget :=
  mergeResponse (finalizedProfile (mergeResponse t input)) input

section
variable {input : Bytes} (t : PrinterTarget)

theorem list_again {n : ℕ} (view : PrinterTarget → Text n) {values : Record → Option Bytes}
    (hclean : ∀ r ∈ responseRecords input, 0 ∉ r.value)
    (hvalues : ∀ r v, values r = some v → v = r.value)
    (hseen : ∀ t r, view (mergedRecord t r) = addTo (view t) (values r))
    (hheader : ∀ t input, view (applyHeader t input) = view t)
    (hfinal : ∀ t, view (finalizedProfile t) = view t) :
    view (remerged t input) = view (mergeResponse t input) :=
  view_again hseen hheader hfinal (foldl_addTo_idem hvalues hclean) t

theorem written_again {α : Type} (view : PrinterTarget → α) {written : Record → Option α}
    (hseen : ∀ t r, view (mergedRecord t r) = (written r).getD (view t))
    (hheader : ∀ t input, view (applyHeader t input) = view t)
    (hfinal : ∀ t, view (finalizedProfile t) = view t) :
    view (remerged t input) = view (mergeResponse t input) :=
  view_again hseen hheader hfinal (foldl_getD_idem written _) t

theorem untouched_again {α : Type} (view : PrinterTarget → α)
    (hseen : ∀ t r, view (mergedRecord t r) = view t)
    (hheader : ∀ t input, view (applyHeader t input) = view t) :
    view (remerged t input) = view (finalizedProfile (mergeResponse t input)) := by
  rw [remerged, mergeResponse, view_mergeRecords view (fun x _ => x) hseen, hheader]
  exact foldl_fixed fun _ _ => rfl

/-- A field that the last record writes is what it was before finalisation or after. -/
theorem finalized_again {α : Type} (view : PrinterTarget → α) {written : Record → Option α}
    (hseen : ∀ t r, view (mergedRecord t r) = (written r).getD (view t))
    (hheader : ∀ t input, view (applyHeader t input) = view t) :
    view (remerged t input) = view (mergeResponse t input) ∨
      view (remerged t input) = view (finalizedProfile (mergeResponse t input)) := by
  have hview : ∀ t, view (mergeResponse t input) =
      (lastWritten written (responseRecords input)).getD (view t) := by
    intro t
    rw [mergeResponse, view_mergeRecords view (fun x r => (written r).getD x) hseen, hheader,
      foldl_getD]
  rw [remerged, hview (finalizedProfile _)]
  cases hlast : lastWritten written (responseRecords input) with
  | none => exact .inr rfl
  | some x =>
    left
    rw [hview, hlast, Option.getD_some, Option.getD_some]

/-- The header of the response writes the same again. -/
theorem header_again {α : Type} (view : PrinterTarget → α) {header : Bytes → α}
    (hseen : ∀ t r, view (mergedRecord t r) = view t)
    (hheader : ∀ t input, view (applyHeader t input) = header input) :
    view (remerged t input) = view (mergeResponse t input) := by
  have hview : ∀ t, view (mergeResponse t input) = header input := by
    intro t
    rw [mergeResponse, view_mergeRecords view (fun x _ => x) hseen, hheader]
    exact foldl_fixed fun _ _ => rfl
  rw [remerged, hview, hview]

theorem mode_again : modeOf (remerged t input) = modeOf (mergeResponse t input) :=
  @view_again _ modeOf mergedMode (fun _ _ => rfl) (fun _ _ => rfl) (fun _ => rfl) input
    (settles_mode.foldl_idem fun _ _ => trivial) t

theorem operations_again : (remerged t input).operationsSupported =
    (finalizedProfile (mergeResponse t input)).operationsSupported := by
  have hfold : ∀ t, (mergeResponse t input).operationsSupported =
      (responseRecords input).foldl (fun mask r => mask ||| r.operation)
        t.operationsSupported := fun t =>
    view_mergeRecords (fun t => t.operationsSupported) _ (fun _ _ => rfl) _ _
  rw [remerged, hfold]
  refine foldl_fixed fun r hr => ?_
  have hsettled := (settles_or Record.operation).foldl_settled (fun _ _ => trivial)
    t.operationsSupported hr
  rw [← hfold] at hsettled
  simp only [finalizedProfile]
  split
  · rw [Nat.or_right_comm, hsettled]
  · exact hsettled

theorem versions_again (hclean : ∀ r ∈ responseRecords input, 0 ∉ r.value) :
    (remerged t input).ippVersions = (finalizedProfile (mergeResponse t input)).ippVersions := by
  have hfold : ∀ t, (mergeResponse t input).ippVersions =
      (pieces (fun r => r.taggedValueOf "ipp-versions-supported" Tag.keyword)
        (responseRecords input)).foldl csvAdd t.ippVersions := fun t =>
    (view_mergeRecords (fun t => t.ippVersions) _ (fun _ _ => rfl) _ _).trans (foldl_addTo _ _ _)
  have hpieces := pieces_clean
    (@taggedValueOf_eq "ipp-versions-supported" Tag.keyword) hclean
  rw [remerged, hfold]
  refine foldl_fixed fun piece hpiece => csvAdd_of_refuses ?_
  have hsettled := (settles_csvAdd 32).foldl_settled hpieces t.ippVersions hpiece
  rw [← hfold, csvAdd_eq_self_iff (hpieces piece hpiece)] at hsettled
  simp only [finalizedProfile]
  split
  · -- a piece that the empty list refuses is blank or too long for any list
    rename_i hempty
    rw [refuses_iff, hempty.1] at hsettled
    rw [refuses_iff]
    obtain h | ⟨entry,hentry,-⟩ | h := hsettled
    · exact .inl h
    · cases hentry
    · refine .inr (.inr ?_)
      rw [List.length_nil, if_pos rfl] at h
      omega
  · exact hsettled

end

/-- Merging a response again into the profile it has made gives that profile. -/
theorem remerge {input : Bytes} (hclean : ∀ r ∈ responseRecords input, 0 ∉ r.value)
    (t : PrinterTarget) :
    finalizedProfile (remerged t input) = finalizedProfile (mergeResponse t input) := by
  have hurf := list_again t (fun t => t.urf) hclean taggedValueOf_eq (fun _ _ => rfl)
    (fun _ _ => rfl) fun _ => rfl
  have hmedia := list_again t (fun t => t.media) hclean valueOf_eq (fun _ _ => rfl)
    (fun _ _ => rfl) fun _ => rfl
  have hmode := Prod.mk.inj (@mode_again input t)
  have hmajor : (remerged t input).upstreamIppMajor = (mergeResponse t input).upstreamIppMajor :=
    header_again t (fun t => t.upstreamIppMajor) (fun _ _ => rfl) fun _ _ => rfl
  have hminor : (remerged t input).upstreamIppMinor = (mergeResponse t input).upstreamIppMinor :=
    header_again t (fun t => t.upstreamIppMinor) (fun _ _ => rfl) fun _ _ => rfl
  have hversion : upstreamVersion (remerged t input) = upstreamVersion (mergeResponse t input) := by
    rw [upstreamVersion, hmajor, hminor, upstreamVersion]
  have hupper : (remerged t input).copiesUpper = (mergeResponse t input).copiesUpper ∨
      (remerged t input).copiesUpper = (finalizedProfile (mergeResponse t input)).copiesUpper :=
    finalized_again t (fun t => t.copiesUpper) (fun _ _ => rfl) fun _ _ => rfl
  apply PrinterTarget.ext
  case pdl =>
    exact list_again t (fun t => t.pdl) hclean taggedValueOf_eq (fun _ _ => rfl) (fun _ _ => rfl)
      fun _ => rfl
  case urf => exact hurf
  case media => exact hmedia
  case stateReasons =>
    exact list_again t (fun t => t.stateReasons) hclean taggedValueOf_eq (fun _ _ => rfl)
      (fun _ _ => rfl) fun _ => rfl
  case label =>
    exact @view_again _ (fun t => t.label) mergedLabel (fun _ _ => rfl) (fun _ _ => rfl)
      (fun _ => rfl) input (foldl_mergedLabel_idem _) t
  case jobTemplateCapabilities => exact hmode.1
  case legacyOutputMode => exact hmode.2
  case acceptingJobsKnown =>
    refine @written_again input t _ (fun t => t.acceptingJobsKnown)
      (fun r => r.newAccepting.map fun _ => true) (fun t r => ?_) (fun _ _ => rfl) fun _ => rfl
    cases h : r.newAccepting <;> simp [mergedRecord, h]
  case profileSchema =>
    exact header_again t (fun t => t.profileSchema) (fun _ _ => rfl) fun _ _ => rfl
  case upstreamIppMajor => exact hmajor
  case upstreamIppMinor => exact hminor
  case location =>
    exact written_again t (fun t => t.location) (fun _ _ => rfl) (fun _ _ => rfl) fun _ => rfl
  case uuid =>
    exact written_again t (fun t => t.uuid) (fun _ _ => rfl) (fun _ _ => rfl) fun _ => rfl
  case colorModeDefault =>
    exact written_again t (fun t => t.colorModeDefault) (fun _ _ => rfl) (fun _ _ => rfl)
      fun _ => rfl
  case printerState =>
    exact written_again t (fun t => t.printerState) (fun _ _ => rfl) (fun _ _ => rfl) fun _ => rfl
  case acceptingJobs =>
    exact written_again t (fun t => t.acceptingJobs) (fun _ _ => rfl) (fun _ _ => rfl) fun _ => rfl
  case duplex =>
    exact written_again t (fun t => t.duplex) (fun _ _ => rfl) (fun _ _ => rfl) fun _ => rfl
  case collate =>
    exact written_again t (fun t => t.collate) (fun _ _ => rfl) (fun _ _ => rfl) fun _ => rfl
  case adminUrl =>
    exact written_again t (fun t => t.adminUrl) (fun _ _ => rfl) (fun _ _ => rfl) fun _ => rfl
  case pageRangesSupported =>
    exact written_again t (fun t => t.pageRangesSupported) (fun _ _ => rfl) (fun _ _ => rfl)
      fun _ => rfl
  case overridesDocumentNumber =>
    exact written_again t (fun t => t.overridesDocumentNumber) (fun _ _ => rfl) (fun _ _ => rfl)
      fun _ => rfl
  case overridesPages =>
    exact written_again t (fun t => t.overridesPages) (fun _ _ => rfl) (fun _ _ => rfl) fun _ => rfl
  case ippEverywhere =>
    exact written_again t (fun t => t.ippEverywhere) (fun _ _ => rfl) (fun _ _ => rfl) fun _ => rfl
  case instanceName =>
    exact untouched_again t (fun t => t.instanceName) (fun _ _ => rfl) fun _ _ => rfl
  case hostname => exact untouched_again t (fun t => t.hostname) (fun _ _ => rfl) fun _ _ => rfl
  case address => exact untouched_again t (fun t => t.address) (fun _ _ => rfl) fun _ _ => rfl
  case port => exact untouched_again t (fun t => t.port) (fun _ _ => rfl) fun _ _ => rfl
  case resourcePath =>
    exact untouched_again t (fun t => t.resourcePath) (fun _ _ => rfl) fun _ _ => rfl
  case capabilityQueried =>
    exact untouched_again t (fun t => t.capabilityQueried) (fun _ _ => rfl) fun _ _ => rfl
  case secureTransport =>
    exact untouched_again t (fun t => t.secureTransport) (fun _ _ => rfl) fun _ _ => rfl
  -- what finalisation adds to
  case operationsSupported =>
    simp only [finalizedProfile, hurf, operations_again]
    split
    · rw [Nat.or_assoc, Nat.or_self]
    · rfl
  case ippVersions =>
    simp only [finalizedProfile, versions_again t hclean, hmajor, hversion]
    split_ifs <;> rfl
  case mediaDefault =>
    have h : (remerged t input).mediaDefault = (mergeResponse t input).mediaDefault ∨
        (remerged t input).mediaDefault = (finalizedProfile (mergeResponse t input)).mediaDefault :=
      finalized_again t (fun t => t.mediaDefault) (fun _ _ => rfl) fun _ _ => rfl
    simp only [finalizedProfile, hmedia] at h ⊢
    obtain h | h := h
    · rw [h]
    · rw [h]
      split_ifs <;> rfl
  case copiesUpper =>
    simp only [finalizedProfile, hurf] at hupper ⊢
    obtain h | h := hupper
    · rw [h]
    · rw [h]
      split_ifs <;> rfl
  case copies =>
    have h : (remerged t input).copies = (mergeResponse t input).copies ∨
        (remerged t input).copies = (finalizedProfile (mergeResponse t input)).copies :=
      finalized_again t (fun t => t.copies) (fun _ _ => rfl) fun _ _ => rfl
    have hlarge : 1 < (remerged t input).copiesUpper ↔ 1 < (mergeResponse t input).copiesUpper := by
      obtain h | h := hupper
      · rw [h]
      · rw [h]
        simp only [finalizedProfile]
        split <;> omega
    simp only [finalizedProfile, hlarge] at h ⊢
    obtain h | h := h
    · rw [h]
    · rw [h, Bool.or_assoc, Bool.or_self]
  case color =>
    have h : (remerged t input).color = (mergeResponse t input).color ∨
        (remerged t input).color = (finalizedProfile (mergeResponse t input)).color :=
      finalized_again t (fun t => t.color) (fun _ _ => rfl) fun _ _ => rfl
    simp only [finalizedProfile, hurf] at h ⊢
    obtain h | h := h
    · rw [h]
    · rw [h, ← Bool.or_assoc, Bool.or_self]
  case resolutionLowDpi =>
    have h : (remerged t input).resolutionLowDpi =
        (finalizedProfile (mergeResponse t input)).resolutionLowDpi :=
      untouched_again t (fun t => t.resolutionLowDpi) (fun _ _ => rfl) fun _ _ => rfl
    simp only [finalizedProfile, hurf] at h ⊢
    rw [h]
    cases lastWritten urfResolutions (csvTokens (mergeResponse t input).urf.val) <;> rfl
  case resolutionHighDpi =>
    have h : (remerged t input).resolutionHighDpi =
        (finalizedProfile (mergeResponse t input)).resolutionHighDpi :=
      untouched_again t (fun t => t.resolutionHighDpi) (fun _ _ => rfl) fun _ _ => rfl
    simp only [finalizedProfile, hurf] at h ⊢
    rw [h]
    cases lastWritten urfResolutions (csvTokens (mergeResponse t input).urf.val) <;> rfl

end Espresso.Codec
