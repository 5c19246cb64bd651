import Espresso.Codec.Remerge
import Espresso.Proxy.Response
import Espresso.Proxy.Settlement
import Espresso.State.Selection

/-! What a Get-Printer-Attributes response does to the selected profile. -/
namespace Espresso.Proxy
open Callback Codec Http Jobs

/-! ### The state reasons, which start afresh -/

/-- The reasons after one more record. -/
def addReasons (reasons : Text 192) (r : Record) : Text 192 :=
  addTo reasons (r.taggedValueOf "printer-state-reasons" Tag.keyword)

/-- The reasons that a response adds to a list. -/
def mergedReasons (input : Bytes) (reasons : Text 192) : Text 192 :=
  (responseRecords input).foldl addReasons reasons

abbrev withReasons (t : PrinterTarget) (reasons : Text 192) : PrinterTarget :=
  { t with stateReasons := reasons }

/-- The other fields do not depend on them. -/
theorem mergeResponse_reasons (input : Bytes) (t : PrinterTarget) (reasons : Text 192) :
    mergeResponse (withReasons t reasons) input =
      withReasons (mergeResponse t input) (mergedReasons input reasons) := by
  have hstep : ∀ (t : PrinterTarget) (reasons : Text 192) (r : Record),
      mergeRecord (withReasons t reasons) r =
        withReasons (mergeRecord t r) (addReasons reasons r) := by
    intro t reasons r
    rw [mergeRecord_eq, mergeRecord_eq]
    rfl
  have hfold : ∀ (rs : List Record) (t : PrinterTarget) (reasons : Text 192),
      rs.foldl mergeRecord (withReasons t reasons) =
        withReasons (rs.foldl mergeRecord t) (rs.foldl addReasons reasons) := by
    intro rs
    induction rs with
    | nil => exact fun _ _ => rfl
    | cons r rs ih =>
      intro t reasons
      rw [List.foldl_cons, hstep, ih]
      rfl
  exact hfold _ (applyHeader t input) reasons

theorem mergeResponse_stateReasons (input : Bytes) (t : PrinterTarget) :
    (mergeResponse t input).stateReasons = mergedReasons input t.stateReasons :=
  congrArg PrinterTarget.stateReasons (mergeResponse_reasons input t t.stateReasons)

/-! ### Merging a response twice -/

section
variable {input : Bytes} {t t' : PrinterTarget}

theorem apply_ok (h : ippCodecApplyPrinterAttributes input t = .ok t') :
    (∃ e, decode input = .ok e) ∧ t' = finalizedProfile (mergeResponse t input) := by
  have hlen : ¬ input.length < ippHeaderLength := by
    intro hlen
    rw [ippCodecApplyPrinterAttributes, if_pos hlen] at h
    cases h
  rw [ippCodecApplyPrinterAttributes_eq hlen] at h
  split at h
  · rename_i e he
    cases h
    exact ⟨⟨e,he⟩,ippCodecFinalizeProfile_eq _⟩
  · cases h

theorem apply_of_decode {e : Envelope} (he : decode input = .ok e) (t : PrinterTarget) :
    ippCodecApplyPrinterAttributes input t = .ok (finalizedProfile (mergeResponse t input)) := by
  have hlen : ¬ input.length < ippHeaderLength := by
    intro hlen
    rw [decode_of_short hlen] at he
    cases he
  rw [ippCodecApplyPrinterAttributes_eq hlen, he, ippCodecFinalizeProfile_eq]

end

/-- A response in which the printer is low on media. -/
def mediaLowResponse : Envelope where
  header := [2,0,0,0,0,0,0,1]
  items := [.group Tag.operationAttributes,
    named Tag.charset "attributes-charset" (octets "utf-8"),
    named Tag.language "attributes-natural-language" (octets "en"),
    .group Tag.printerAttributes, named Tag.keyword "printer-state-reasons" (octets "media-low")]
  document := []
  header_length := literalHeader_length
  items_ok := by decide +kernel

/-- No piece of these values goes into the list: each is blank, listed already or too long. -/
def NoneAdded {n : ℕ} (values : Record → Option Bytes) (response : Bytes) (csv : Text n) : Prop :=
  ∀ piece ∈ pieces values (responseRecords response), csvAdd csv piece = csv

/-- The last of the values that are written, if there is one, is the value that was there. -/
def Rewritten {α : Type} (written : Record → Option α) (response : Bytes) (x : α) : Prop :=
  ∀ v, lastWritten written (responseRecords response) = some v → v = x

/-- The copies limit and flag that the last copies-supported gives, or that were there. -/
def reportedCopies (t : PrinterTarget) (response : Bytes) : ℕ × Bool :=
  (lastWritten Record.newCopies (responseRecords response)).getD (t.copiesUpper,t.copies)

def reportedDefault (t : PrinterTarget) (response : Bytes) : Text 64 :=
  (lastWritten (fun r => (r.valueOf "media-default").map (Text.copy 64))
    (responseRecords response)).getD t.mediaDefault

/-- All that a response says, and all that follows from it, is in the profile already. -/
structure NothingNew (t : PrinterTarget) (response : Bytes) : Prop where
  header : applyHeader t response = t
  pdl : NoneAdded (fun r => r.taggedValueOf "document-format-supported" Tag.mimeType) response t.pdl
  urf : NoneAdded (fun r => r.taggedValueOf "urf-supported" Tag.keyword) response t.urf
  media : NoneAdded (fun r => r.valueOf "media-supported") response t.media
  ippVersions : NoneAdded (fun r => r.taggedValueOf "ipp-versions-supported" Tag.keyword) response
    t.ippVersions
  version : t.ippVersions.val = [] → t.upstreamIppMajor = 0
  stateReasons : mergedReasons response .empty = t.stateReasons
  label : (responseRecords response).foldl mergedLabel t.label = t.label
  location : Rewritten (fun r => (r.valueOf "printer-location").map (Text.copy 96)) response
    t.location
  uuid : Rewritten Record.newUuid response t.uuid
  adminUrl : Rewritten Record.newAdminUrl response t.adminUrl
  colorModeDefault : Rewritten Record.newColorMode response t.colorModeDefault
  mediaDefault : (if (reportedDefault t response).val = [] ∧ t.media.val ≠ [] then
    firstMedia t.media else reportedDefault t response) = t.mediaDefault
  capabilities : ∀ r ∈ responseRecords response,
    t.jobTemplateCapabilities ||| r.capability = t.jobTemplateCapabilities
  legacy : ∀ r ∈ responseRecords response,
    mergedLegacy t.jobTemplateCapabilities t.legacyOutputMode r = t.legacyOutputMode
  operations : ∀ r ∈ responseRecords response,
    t.operationsSupported ||| r.operation = t.operationsSupported
  urfOperations : t.urf.val ≠ [] → t.operationsSupported |||
    (1 <<< Operation.printJob ||| 1 <<< Operation.getPrinterAttributes) = t.operationsSupported
  copiesUpper : (if t.urf.val ≠ [] ∧ (reportedCopies t response).1 = 0 then 1
    else (reportedCopies t response).1) = t.copiesUpper
  copies : ((reportedCopies t response).2 || 1 < (reportedCopies t response).1) = t.copies
  resolutions : ∀ dpi, lastWritten urfResolutions (csvTokens t.urf.val) = some dpi →
    dpi = (t.resolutionLowDpi,t.resolutionHighDpi)
  printerState : Rewritten Record.newState response t.printerState
  acceptingJobs : Rewritten Record.newAccepting response t.acceptingJobs
  acceptingJobsKnown : (∃ r ∈ responseRecords response, r.newAccepting.isSome) →
    t.acceptingJobsKnown = true
  color : ((csvTokens t.urf.val).any urfColor ||
    (lastWritten Record.newColor (responseRecords response)).getD t.color) = t.color
  duplex : Rewritten Record.newDuplex response t.duplex
  collate : Rewritten Record.newCollate response t.collate
  pageRanges : Rewritten Record.newPageRanges response t.pageRangesSupported
  overridesDocumentNumber : Rewritten Record.newOverridesDocumentNumber response
    t.overridesDocumentNumber
  overridesPages : Rewritten Record.newOverridesPages response t.overridesPages
  ippEverywhere : Rewritten Record.newEverywhere response t.ippEverywhere

/-- The reported values, before finalisation. -/
theorem view_list {n : ℕ} (view : PrinterTarget → Text n) {values : Record → Option Bytes}
    (hseen : ∀ t r, view (mergedRecord t r) = addTo (view t) (values r))
    (hheader : ∀ t input, view (applyHeader t input) = view t) (t : PrinterTarget) (input : Bytes) :
    view (mergeResponse t input) =
      (pieces values (responseRecords input)).foldl csvAdd (view t) := by
  rw [mergeResponse, view_mergeRecords view (fun csv r => addTo csv (values r)) hseen, hheader,
    foldl_addTo]

theorem view_written {α : Type} (view : PrinterTarget → α) {written : Record → Option α}
    (hseen : ∀ t r, view (mergedRecord t r) = (written r).getD (view t))
    (hheader : ∀ t input, view (applyHeader t input) = view t) (t : PrinterTarget) (input : Bytes) :
    view (mergeResponse t input) =
      (lastWritten written (responseRecords input)).getD (view t) := by
  rw [mergeResponse, view_mergeRecords view (fun x r => (written r).getD x) hseen, hheader,
    foldl_getD]

theorem view_header {α : Type} (view : PrinterTarget → α)
    (hseen : ∀ t r, view (mergedRecord t r) = view t) (t : PrinterTarget) (input : Bytes) :
    view (mergeResponse t input) = view (applyHeader t input) := by
  rw [mergeResponse, view_mergeRecords view (fun x _ => x) hseen]
  exact foldl_fixed fun _ _ => rfl

/-- The profile after the response, if that is complete. -/
def refreshed (t : PrinterTarget) (response : Bytes) : PrinterTarget :=
  finalizedProfile (mergeResponse (withReasons t .empty) response)

section
variable {t : PrinterTarget} {response : Bytes}

theorem noneAdded_iff {n : ℕ} (view : PrinterTarget → Text n) {values : Record → Option Bytes}
    (hseen : ∀ t r, view (mergedRecord t r) = addTo (view t) (values r))
    (hheader : ∀ t input, view (applyHeader t input) = view t)
    (hfinal : ∀ t, view (finalizedProfile t) = view t)
    (hreasons : ∀ t reasons, view (withReasons t reasons) = view t) :
    view (refreshed t response) = view t ↔ NoneAdded values response (view t) := by
  rw [refreshed, hfinal, view_list view hseen hheader, hreasons, foldl_csvAdd_eq_self_iff]
  rfl

theorem rewritten_iff {α : Type} (view : PrinterTarget → α) {written : Record → Option α}
    (hseen : ∀ t r, view (mergedRecord t r) = (written r).getD (view t))
    (hheader : ∀ t input, view (applyHeader t input) = view t)
    (hfinal : ∀ t, view (finalizedProfile t) = view t)
    (hreasons : ∀ t reasons, view (withReasons t reasons) = view t) :
    view (refreshed t response) = view t ↔ Rewritten written response (view t) := by
  rw [refreshed, hfinal, view_written view hseen hheader, hreasons, getD_eq_self_iff]
  rfl

theorem mode_iff : modeOf (refreshed t response) = modeOf t ↔
    (∀ r ∈ responseRecords response,
      t.jobTemplateCapabilities ||| r.capability = t.jobTemplateCapabilities) ∧
    ∀ r ∈ responseRecords response,
      mergedLegacy t.jobTemplateCapabilities t.legacyOutputMode r = t.legacyOutputMode := by
  have hfold : modeOf (refreshed t response) =
      (responseRecords response).foldl mergedMode (modeOf t) :=
    view_mergeRecords modeOf mergedMode (fun _ _ => rfl) _ _
  rw [hfold, settles_mode.foldl_eq_self_iff fun _ _ => trivial, ← forall₂_and]
  exact forall₂_congr fun r _ => Prod.mk_inj

theorem known_iff : (refreshed t response).acceptingJobsKnown = t.acceptingJobsKnown ↔
    ((∃ r ∈ responseRecords response, r.newAccepting.isSome) → t.acceptingJobsKnown = true) := by
  have hfold : (refreshed t response).acceptingJobsKnown =
      (responseRecords response).foldl (fun known r => r.newAccepting.isSome || known)
        t.acceptingJobsKnown :=
    view_mergeRecords (fun t => t.acceptingJobsKnown) _ (fun _ _ => rfl) _ _
  have hsettles : Settles (fun _ => True) fun known (r : Record) =>
      r.newAccepting.isSome || known := by
    refine ⟨fun known r _ => ?_,fun known r s _ _ h => ?_⟩
    · rw [← Bool.or_assoc, Bool.or_self]
    · rw [Bool.or_left_comm, h]
  rw [hfold, hsettles.foldl_eq_self_iff fun _ _ => trivial]
  simp only [Bool.or_eq_right_iff_imp]
  constructor
  · rintro h ⟨r,hr,hsome⟩
    exact h r hr hsome
  · exact fun h r hr hsome => h ⟨r,hr,hsome⟩

theorem refreshed_untouched {α : Type} (view : PrinterTarget → α)
    (hseen : ∀ t r, view (mergedRecord t r) = view t)
    (hfinal : ∀ t, view (finalizedProfile t) = view t) :
    view (refreshed t response) = view (applyHeader (withReasons t .empty) response) := by
  rw [refreshed, hfinal, view_header view hseen]

theorem header_iff : ((refreshed t response).profileSchema = t.profileSchema ∧
    (refreshed t response).upstreamIppMajor = t.upstreamIppMajor ∧
    (refreshed t response).upstreamIppMinor = t.upstreamIppMinor) ↔ applyHeader t response = t := by
  rw [refreshed_untouched (fun t => t.profileSchema) (fun _ _ => rfl) fun _ => rfl,
    refreshed_untouched (fun t => t.upstreamIppMajor) (fun _ _ => rfl) fun _ => rfl,
    refreshed_untouched (fun t => t.upstreamIppMinor) (fun _ _ => rfl) fun _ => rfl]
  constructor
  · rintro ⟨hschema,hmajor,hminor⟩
    exact PrinterTarget.ext hschema rfl rfl rfl rfl rfl rfl rfl rfl rfl rfl rfl rfl rfl rfl rfl rfl
      rfl rfl rfl rfl hmajor hminor rfl rfl rfl rfl rfl rfl rfl rfl rfl rfl rfl rfl rfl rfl rfl
  · intro h
    exact ⟨congrArg (fun t => t.profileSchema) h,congrArg (fun t => t.upstreamIppMajor) h,
      congrArg (fun t => t.upstreamIppMinor) h⟩

/-! ### The fields that finalisation looks at -/

theorem refreshed_operations (hurf : (refreshed t response).urf = t.urf) :
    (refreshed t response).operationsSupported = t.operationsSupported ↔
      (∀ r ∈ responseRecords response,
        t.operationsSupported ||| r.operation = t.operationsSupported) ∧
      (t.urf.val ≠ [] → t.operationsSupported |||
        (1 <<< Operation.printJob ||| 1 <<< Operation.getPrinterAttributes) =
          t.operationsSupported) := by
  generalize hbits : 1 <<< Operation.printJob ||| 1 <<< Operation.getPrinterAttributes = bits
  have hmerged : (mergeResponse (withReasons t .empty) response).operationsSupported =
      (responseRecords response).foldl (fun mask r => mask ||| r.operation)
        t.operationsSupported :=
    view_mergeRecords (fun t => t.operationsSupported) _ (fun _ _ => rfl) _ _
  have hfinal : (refreshed t response).operationsSupported =
      if t.urf.val ≠ [] then (responseRecords response).foldl (fun mask r => mask ||| r.operation)
        t.operationsSupported ||| bits
      else (responseRecords response).foldl (fun mask r => mask ||| r.operation)
        t.operationsSupported := by
    rw [← hmerged, ← hurf, ← hbits]
    rfl
  have hsettled : ∀ r ∈ responseRecords response, _ := fun r hr =>
    (settles_or Record.operation).foldl_settled (fun _ _ => trivial) t.operationsSupported hr
  rw [hfinal]
  by_cases hempty : t.urf.val ≠ []
  · rw [if_pos hempty]
    constructor
    · intro h
      refine ⟨fun r hr => ?_,fun _ => ?_⟩
      · rw [← h, Nat.or_right_comm, hsettled r hr]
      · rw [← h, Nat.or_assoc, Nat.or_self]
    · rintro ⟨hrecords,hurfBits⟩
      rw [foldl_fixed hrecords, hurfBits hempty]
  · rw [if_neg hempty]
    constructor
    · intro h
      refine ⟨fun r hr => ?_,fun hne => absurd hne hempty⟩
      rw [← h, hsettled r hr]
    · exact fun h => foldl_fixed h.1

theorem refreshed_copies (hurf : (refreshed t response).urf = t.urf) :
    (refreshed t response).copiesUpper =
      (if t.urf.val ≠ [] ∧ (reportedCopies t response).1 = 0 then 1
        else (reportedCopies t response).1) ∧
    (refreshed t response).copies =
      ((reportedCopies t response).2 || 1 < (reportedCopies t response).1) := by
  have hmerged : ((mergeResponse (withReasons t .empty) response).copiesUpper,
      (mergeResponse (withReasons t .empty) response).copies) = reportedCopies t response := by
    refine view_written (fun t => (t.copiesUpper,t.copies)) (fun t r => ?_) (fun _ _ => rfl) _ _
    change ((r.newCopies.map Prod.fst).getD t.copiesUpper,
      (r.newCopies.map Prod.snd).getD t.copies) = _
    cases r.newCopies <;> rfl
  rw [← hmerged, ← hurf]
  exact ⟨rfl,rfl⟩

theorem refreshed_mediaDefault (hmedia : (refreshed t response).media = t.media) :
    (refreshed t response).mediaDefault =
      if (reportedDefault t response).val = [] ∧ t.media.val ≠ [] then firstMedia t.media
      else reportedDefault t response := by
  have hmerged : (mergeResponse (withReasons t .empty) response).mediaDefault =
      reportedDefault t response :=
    view_written (fun t => t.mediaDefault) (fun _ _ => rfl) (fun _ _ => rfl) _ _
  rw [← hmerged, ← hmedia]
  rfl

theorem refreshed_urf (hurf : (refreshed t response).urf = t.urf) :
    ((refreshed t response).resolutionLowDpi,(refreshed t response).resolutionHighDpi) =
      (lastWritten urfResolutions (csvTokens t.urf.val)).getD
        (t.resolutionLowDpi,t.resolutionHighDpi) ∧
    (refreshed t response).color = ((csvTokens t.urf.val).any urfColor ||
      (lastWritten Record.newColor (responseRecords response)).getD t.color) := by
  have hlow : (mergeResponse (withReasons t .empty) response).resolutionLowDpi =
      t.resolutionLowDpi := view_header (fun t => t.resolutionLowDpi) (fun _ _ => rfl) _ _
  have hhigh : (mergeResponse (withReasons t .empty) response).resolutionHighDpi =
      t.resolutionHighDpi := view_header (fun t => t.resolutionHighDpi) (fun _ _ => rfl) _ _
  have hcolor : (mergeResponse (withReasons t .empty) response).color =
      (lastWritten Record.newColor (responseRecords response)).getD t.color :=
    view_written (fun t => t.color) (fun _ _ => rfl) (fun _ _ => rfl) _ _
  rw [← hlow, ← hhigh, ← hcolor, ← hurf]
  refine ⟨?_,rfl⟩
  change (((lastWritten urfResolutions (csvTokens (refreshed t response).urf.val)).map
    Prod.fst).getD _,((lastWritten urfResolutions (csvTokens (refreshed t response).urf.val)).map
    Prod.snd).getD _) = _
  cases lastWritten urfResolutions (csvTokens (refreshed t response).urf.val) <;> rfl

theorem octets_append (a b : String) : octets (a ++ b) = octets a ++ octets b := by
  simp [octets]

theorem decimal_head (n : Fin 256) :
    ((octets (toString n.val)).head?.any fun c => c ≠ 0) = true := by
  revert n
  decide +kernel

theorem upstreamVersion_ne_nil (t : PrinterTarget) : (upstreamVersion t).val ≠ [] := by
  obtain ⟨c,hc,h0⟩ := (Option.any_eq_true _ _).mp (decimal_head t.upstreamIppMajor.toFin)
  obtain ⟨rest,hrest⟩ := List.head?_eq_some_iff.mp hc
  have hmajor : octets (toString t.upstreamIppMajor.toNat) = c :: rest := hrest
  rw [upstreamVersion, octets_append, octets_append, hmajor]
  change cstr ((c :: (rest ++ _) ++ _).take 31) ≠ []
  rw [List.cons_append, List.take_succ_cons, cstr, List.takeWhile_cons, if_pos (by simpa using h0)]
  exact List.cons_ne_nil _ _

theorem refreshed_versions :
    (refreshed t response).ippVersions = t.ippVersions ↔
      NoneAdded (fun r => r.taggedValueOf "ipp-versions-supported" Tag.keyword) response
        t.ippVersions ∧
      (t.ippVersions.val = [] → (applyHeader t response).upstreamIppMajor = 0) := by
  have hmerged : (mergeResponse (withReasons t .empty) response).ippVersions =
      (pieces (fun r => r.taggedValueOf "ipp-versions-supported" Tag.keyword)
        (responseRecords response)).foldl csvAdd t.ippVersions :=
    view_list (fun t => t.ippVersions) (fun _ _ => rfl) (fun _ _ => rfl) _ _
  have hmajor : (mergeResponse (withReasons t .empty) response).upstreamIppMajor =
      (applyHeader t response).upstreamIppMajor :=
    view_header (fun t => t.upstreamIppMajor) (fun _ _ => rfl) _ _
  have hfinal : (refreshed t response).ippVersions =
      if (mergeResponse (withReasons t .empty) response).ippVersions.val = [] ∧
          (mergeResponse (withReasons t .empty) response).upstreamIppMajor ≠ 0 then
        upstreamVersion (mergeResponse (withReasons t .empty) response)
      else (mergeResponse (withReasons t .empty) response).ippVersions := rfl
  have hgrows := foldl_csvAdd_isPrefix (pieces
    (fun r => r.taggedValueOf "ipp-versions-supported" Tag.keyword) (responseRecords response))
    t.ippVersions
  rw [← hmerged] at hgrows
  have hnone : (mergeResponse (withReasons t .empty) response).ippVersions = t.ippVersions ↔
      NoneAdded (fun r => r.taggedValueOf "ipp-versions-supported" Tag.keyword) response
        t.ippVersions := by
    rw [hmerged]
    exact foldl_csvAdd_eq_self_iff
  rw [hfinal, hmajor, ← hnone]
  by_cases hempty : (mergeResponse (withReasons t .empty) response).ippVersions.val = []
  · have hold : t.ippVersions.val = [] := List.prefix_nil.mp (hempty ▸ hgrows)
    by_cases hzero : (applyHeader t response).upstreamIppMajor = 0
    · rw [if_neg fun h => h.2 hzero]
      exact ⟨fun h => ⟨h,fun _ => hzero⟩,fun h => h.1⟩
    · rw [if_pos ⟨hempty,hzero⟩]
      constructor
      · intro h
        exact absurd (h ▸ hold) (upstreamVersion_ne_nil _)
      · exact fun h => absurd (h.2 hold) hzero
  · rw [if_neg fun h => hempty h.1]
    exact ⟨fun h => ⟨h,fun hold => absurd (h ▸ hold) hempty⟩,fun h => h.1⟩

/-- A response that says nothing new is one that changes nothing. -/
theorem refreshed_eq_iff (t : PrinterTarget) (response : Bytes) :
    refreshed t response = t ↔ NothingNew t response := by
  have hreasons : (refreshed t response).stateReasons = mergedReasons response .empty :=
    mergeResponse_stateReasons response _
  have hlabel : (refreshed t response).label =
      (responseRecords response).foldl mergedLabel t.label :=
    view_mergeRecords (fun t => t.label) mergedLabel (fun _ _ => rfl) _ _
  have hpdl := @noneAdded_iff t response _ (fun t => t.pdl) _ (fun _ _ => rfl) (fun _ _ => rfl)
    (fun _ => rfl) fun _ _ => rfl
  have hurf := @noneAdded_iff t response _ (fun t => t.urf) _ (fun _ _ => rfl) (fun _ _ => rfl)
    (fun _ => rfl) fun _ _ => rfl
  have hmedia := @noneAdded_iff t response _ (fun t => t.media) _ (fun _ _ => rfl) (fun _ _ => rfl)
    (fun _ => rfl) fun _ _ => rfl
  have hlocation := @rewritten_iff t response _ (fun t => t.location) _ (fun _ _ => rfl)
    (fun _ _ => rfl) (fun _ => rfl) fun _ _ => rfl
  have huuid := @rewritten_iff t response _ (fun t => t.uuid) _ (fun _ _ => rfl)
    (fun _ _ => rfl) (fun _ => rfl) fun _ _ => rfl
  have hadminUrl := @rewritten_iff t response _ (fun t => t.adminUrl) _ (fun _ _ => rfl)
    (fun _ _ => rfl) (fun _ => rfl) fun _ _ => rfl
  have hcolorMode := @rewritten_iff t response _ (fun t => t.colorModeDefault) _ (fun _ _ => rfl)
    (fun _ _ => rfl) (fun _ => rfl) fun _ _ => rfl
  have hstate := @rewritten_iff t response _ (fun t => t.printerState) _ (fun _ _ => rfl)
    (fun _ _ => rfl) (fun _ => rfl) fun _ _ => rfl
  have haccepting := @rewritten_iff t response _ (fun t => t.acceptingJobs) _ (fun _ _ => rfl)
    (fun _ _ => rfl) (fun _ => rfl) fun _ _ => rfl
  have hduplex := @rewritten_iff t response _ (fun t => t.duplex) _ (fun _ _ => rfl)
    (fun _ _ => rfl) (fun _ => rfl) fun _ _ => rfl
  have hcollate := @rewritten_iff t response _ (fun t => t.collate) _ (fun _ _ => rfl)
    (fun _ _ => rfl) (fun _ => rfl) fun _ _ => rfl
  have hranges := @rewritten_iff t response _ (fun t => t.pageRangesSupported) _ (fun _ _ => rfl)
    (fun _ _ => rfl) (fun _ => rfl) fun _ _ => rfl
  have hnumber := @rewritten_iff t response _ (fun t => t.overridesDocumentNumber) _
    (fun _ _ => rfl) (fun _ _ => rfl) (fun _ => rfl) fun _ _ => rfl
  have hpages := @rewritten_iff t response _ (fun t => t.overridesPages) _ (fun _ _ => rfl)
    (fun _ _ => rfl) (fun _ => rfl) fun _ _ => rfl
  have heverywhere := @rewritten_iff t response _ (fun t => t.ippEverywhere) _ (fun _ _ => rfl)
    (fun _ _ => rfl) (fun _ => rfl) fun _ _ => rfl
  constructor
  · intro h
    have hfield : ∀ {α : Type} (view : PrinterTarget → α), view (refreshed t response) = view t :=
      fun view => congrArg view h
    have hheader : applyHeader t response = t :=
      header_iff.mp ⟨hfield fun t => t.profileSchema,hfield fun t => t.upstreamIppMajor,
        hfield fun t => t.upstreamIppMinor⟩
    have hurfSame : (refreshed t response).urf = t.urf := hfield fun t => t.urf
    have hversions := refreshed_versions.mp (hfield fun t => t.ippVersions)
    have hmode := mode_iff.mp (hfield modeOf)
    have hoperations := (refreshed_operations hurfSame).mp (hfield fun t => t.operationsSupported)
    obtain ⟨hupper,hcopies⟩ := refreshed_copies hurfSame
    obtain ⟨hresolutions,hcolor⟩ := refreshed_urf hurfSame
    have hdefault := refreshed_mediaDefault (hfield fun t => t.media)
    rw [hfield fun t => t.copiesUpper] at hupper
    rw [hfield fun t => t.copies] at hcopies
    rw [hfield fun t => t.color] at hcolor
    rw [hfield fun t => t.mediaDefault] at hdefault
    rw [hfield fun t => t.resolutionLowDpi, hfield fun t => t.resolutionHighDpi] at hresolutions
    exact
      { header := hheader
        pdl := hpdl.mp (hfield _)
        urf := hurf.mp (hfield _)
        media := hmedia.mp (hfield _)
        ippVersions := hversions.1
        version := hheader ▸ hversions.2
        stateReasons := hreasons.symm.trans (hfield fun t => t.stateReasons)
        label := hlabel.symm.trans (hfield fun t => t.label)
        location := hlocation.mp (hfield _)
        uuid := huuid.mp (hfield _)
        adminUrl := hadminUrl.mp (hfield _)
        colorModeDefault := hcolorMode.mp (hfield _)
        mediaDefault := hdefault.symm
        capabilities := hmode.1
        legacy := hmode.2
        operations := hoperations.1
        urfOperations := hoperations.2
        copiesUpper := hupper.symm
        copies := hcopies.symm
        resolutions := getD_eq_self_iff.mp hresolutions.symm
        printerState := hstate.mp (hfield _)
        acceptingJobs := haccepting.mp (hfield _)
        acceptingJobsKnown := known_iff.mp (hfield fun t => t.acceptingJobsKnown)
        color := hcolor.symm
        duplex := hduplex.mp (hfield _)
        collate := hcollate.mp (hfield _)
        pageRanges := hranges.mp (hfield _)
        overridesDocumentNumber := hnumber.mp (hfield _)
        overridesPages := hpages.mp (hfield _)
        ippEverywhere := heverywhere.mp (hfield _) }
  · intro h
    have hurfSame : (refreshed t response).urf = t.urf := hurf.mpr h.urf
    have hmediaSame : (refreshed t response).media = t.media := hmedia.mpr h.media
    obtain ⟨hschema,hmajor,hminor⟩ := header_iff.mpr h.header
    have hmode := Prod.mk.inj (mode_iff.mpr ⟨h.capabilities,h.legacy⟩)
    obtain ⟨hupper,hcopies⟩ := refreshed_copies hurfSame
    obtain ⟨hresolutions,hcolor⟩ := refreshed_urf hurfSame
    have hpair := Prod.mk.inj (hresolutions.trans (getD_eq_self_iff.mpr h.resolutions))
    apply PrinterTarget.ext
    case profileSchema => exact hschema
    case pdl => exact hpdl.mpr h.pdl
    case urf => exact hurfSame
    case media => exact hmediaSame
    case mediaDefault => exact (refreshed_mediaDefault hmediaSame).trans h.mediaDefault
    case label => exact hlabel.trans h.label
    case location => exact hlocation.mpr h.location
    case uuid => exact huuid.mpr h.uuid
    case ippVersions => exact refreshed_versions.mpr ⟨h.ippVersions,h.header.symm ▸ h.version⟩
    case colorModeDefault => exact hcolorMode.mpr h.colorModeDefault
    case stateReasons => exact hreasons.trans h.stateReasons
    case operationsSupported =>
      exact (refreshed_operations hurfSame).mpr ⟨h.operations,h.urfOperations⟩
    case jobTemplateCapabilities => exact hmode.1
    case copiesUpper => exact hupper.trans h.copiesUpper
    case resolutionLowDpi => exact hpair.1
    case resolutionHighDpi => exact hpair.2
    case upstreamIppMajor => exact hmajor
    case upstreamIppMinor => exact hminor
    case printerState => exact hstate.mpr h.printerState
    case acceptingJobs => exact haccepting.mpr h.acceptingJobs
    case acceptingJobsKnown => exact known_iff.mpr h.acceptingJobsKnown
    case color => exact hcolor.trans h.color
    case duplex => exact hduplex.mpr h.duplex
    case copies => exact hcopies.trans h.copies
    case collate => exact hcollate.mpr h.collate
    case legacyOutputMode => exact hmode.2
    case adminUrl => exact hadminUrl.mpr h.adminUrl
    case pageRangesSupported => exact hranges.mpr h.pageRanges
    case overridesDocumentNumber => exact hnumber.mpr h.overridesDocumentNumber
    case overridesPages => exact hpages.mpr h.overridesPages
    case ippEverywhere => exact heverywhere.mpr h.ippEverywhere
    case instanceName =>
      exact refreshed_untouched (fun t => t.instanceName) (fun _ _ => rfl) fun _ => rfl
    case hostname =>
      exact refreshed_untouched (fun t => t.hostname) (fun _ _ => rfl) fun _ => rfl
    case address =>
      exact refreshed_untouched (fun t => t.address) (fun _ _ => rfl) fun _ => rfl
    case port =>
      exact refreshed_untouched (fun t => t.port) (fun _ _ => rfl) fun _ => rfl
    case resourcePath =>
      exact refreshed_untouched (fun t => t.resourcePath) (fun _ _ => rfl) fun _ => rfl
    case capabilityQueried =>
      exact refreshed_untouched (fun t => t.capabilityQueried) (fun _ _ => rfl) fun _ => rfl
    case secureTransport =>
      exact refreshed_untouched (fun t => t.secureTransport) (fun _ _ => rfl) fun _ => rfl

end

/-! ### The profile in memory -/

/-- What the exchange leaves in memory of the profile that it started with. -/
def Served.stored {σ υ : Type} (served : Served σ υ) (t : PrinterTarget) : PrinterTarget :=
  match served.profile with
  | some updated => if State.storable updated then updated else t
  | none => t

/-- The response is cut short or malformed, or it says nothing new; or the profile has no address,
so that none is stored for it. -/
def LeavesProfile (t : PrinterTarget) (response : Bytes) : Prop :=
  (∀ e, decode response ≠ .ok e) ∨ NothingNew t response ∨ State.storable t = false

theorem updatedProfile_of_decode {e : Envelope} {response : Bytes} (he : decode response = .ok e)
    (t : PrinterTarget) : updatedProfile t response =
      if refreshed t response ≠ t then some (refreshed t response) else none := by
  have happly : ippCodecApplyPrinterAttributes response { t with stateReasons := .empty } =
      .ok (refreshed t response) := apply_of_decode he _
  rw [updatedProfile, happly]

theorem updatedProfile_of_error {f : CodecError} {response : Bytes}
    (hf : decode response = .error f) (t : PrinterTarget) : updatedProfile t response = none := by
  rw [updatedProfile]
  split
  · rename_i updated happly
    obtain ⟨⟨e,he⟩,-⟩ := apply_ok happly
    rw [hf] at he
    cases he
  · rfl

/-- Merging leaves the address alone. -/
theorem storable_refreshed (t : PrinterTarget) (response : Bytes) :
    State.storable (refreshed t response) = State.storable t := by
  have haddress : (refreshed t response).address = t.address :=
    refreshed_untouched (fun t => t.address) (fun _ _ => rfl) fun _ => rfl
  have hport : (refreshed t response).port = t.port :=
    refreshed_untouched (fun t => t.port) (fun _ _ => rfl) fun _ => rfl
  rw [State.storable, haddress, hport, State.storable]

section
variable {σ υ : Type} {served : Served σ υ} {t : PrinterTarget} {response : Bytes}

theorem stored_eq_iff (h : served.profile = updatedProfile t response) :
    served.stored t = t ↔ LeavesProfile t response := by
  rw [Served.stored, h, LeavesProfile]
  cases hd : decode response with
  | error f =>
    rw [updatedProfile_of_error hd]
    simp
  | ok e =>
    have hok : ¬ ∀ e', Except.ok e ≠ (Except.ok e' : Except CodecError Envelope) :=
      fun h => h e rfl
    rw [updatedProfile_of_decode hd, or_iff_right hok, ← refreshed_eq_iff]
    by_cases hsame : refreshed t response = t
    · simp [hsame]
    · simp only [ne_eq, hsame, not_false_iff, if_true, false_or, storable_refreshed]
      cases State.storable t <;> simp [hsame]

/-- A query that is answered updates the profile by the answer. -/
theorem relay_profile {env : Environment σ υ} {beside : Beside} {q : Relayed} {c : Request × σ}
    {u : υ} {h : JobHistory} (hserved : relay env beside q c u h = some served)
    (hresponse : served.response = some response) :
    served.profile = if q.queriesPrinter then updatedProfile q.target response else none := by
  unfold relay at hserved
  simp only at hserved
  split at hserved
  · cases hserved
    cases hresponse
  · split at hserved
    · cases hserved
    · cases hserved
      cases hresponse
    · split at hserved
      · cases hserved
        cases hresponse
      · split at hserved
        · cases hserved
          cases hresponse
          rfl
        · cases hserved
          cases hresponse
          rfl

end

section
variable {σ υ : Type} {env : Environment σ υ} {beside : Beside} {t : PrinterTarget}
  {c : Request × σ} {u : υ} {h : JobHistory} {served : Served σ υ} {info : RequestInfo} {id : ℕ}
  {response : Bytes}

/-- A request that is given a job is relayed to the selected printer. -/
theorem proxyHandler_relays (hserved : proxyHandler env beside (some t) c u h = some served)
    (hjob : served.job = some (info,id)) :
    ∃ q c', relay env beside q c' u h = some served ∧ q.info = info ∧ q.target = t := by
  obtain ⟨t',info',s,hadmission,-,hrelay⟩ := proxyHandler_job (some t) c hserved hjob
  have ht : t' = t := by
    unfold admission at hadmission
    simp only at hadmission
    split_ifs at hadmission
    cases hadmission
    rfl
  have hinfo : info' = info := by
    have hentries := (relay_entries hrelay).1
    rw [hjob] at hentries
    exact (congrArg Prod.fst (Option.some.inj hentries)).symm
  exact ⟨_,_,hrelay,hinfo,ht⟩

/-- An answered query updates the profile by the answer, whatever the status of that. -/
theorem proxyHandler_profile (hserved : proxyHandler env beside (some t) c u h = some served)
    (hjob : served.job = some (info,id))
    (hquery : info.operationId = Operation.getPrinterAttributes)
    (hresponse : served.response = some response) :
    served.profile = updatedProfile t response := by
  obtain ⟨q,c',hrelay,hinfo,ht⟩ := proxyHandler_relays hserved hjob
  have hprofile := relay_profile hrelay hresponse
  rwa [if_pos (by simpa [Relayed.queriesPrinter, hinfo] using hquery), ht] at hprofile

/-- A query that the printer turns down leaves the profile in memory just if the reply has nothing
to say. -/
theorem proxyHandler_keeps_iff (hserved : proxyHandler env beside (some t) c u h = some served)
    (hjob : served.job = some (info,id))
    (hquery : info.operationId = Operation.getPrinterAttributes)
    (hresponse : served.response = some response)
    (_hrefused : 0x0400 ≤ ippCodecMessageCode response) :
    served.stored t = t ↔ LeavesProfile t response :=
  stored_eq_iff (proxyHandler_profile hserved hjob hquery hresponse)

end

/-- A Get-Printer-Attributes request. -/
def attributesRequest : Envelope where
  header := [2,0,0,0x0b,0,0,0,1]
  items := [.group Tag.operationAttributes,
    named Tag.charset "attributes-charset" (octets "utf-8"),
    named Tag.language "attributes-natural-language" (octets "en"),
    named Tag.uri "printer-uri" (octets "ipp://espresso.local:631/ipp/print")]
  document := []
  header_length := literalHeader_length
  items_ok := by decide +kernel

/-- The printer is busy, and says so in IPP/1.1. -/
def busyResponse : Envelope where
  header := [1,1,0x05,0x07,0,0,0,1]
  items := [.group Tag.operationAttributes,
    named Tag.charset "attributes-charset" (octets "utf-8"),
    named Tag.language "attributes-natural-language" (octets "en")]
  document := []
  header_length := literalHeader_length
  items_ok := orderedRequest.items_ok

/-- A printer that has spoken IPP/2.0 so far. -/
def modernPrinter : PrinterTarget :=
  { pdfPrinter with
    profileSchema := espressoProfileSchema
    upstreamIppMajor := 2 }

/-! ### Exchanges without a failure -/

theorem willingPrinter_delivering :
    Printer.Delivering willingPrinter fun u _ body => u.2 = body := by
  rintro u k body n rfl hn
  refine ⟨u.2.drop n,(List.take_append_drop n u.2).symm,rfl,?_⟩
  intro h
  exact (List.take_eq_nil_iff.mp h).resolve_left (by omega)

theorem readAnswer_willing {u : Bytes × Bytes} (hmin : 8 ≤ u.2.length)
    (hmax : u.2.length < responseMax) :
    (readAnswer willingPrinter unlimitedHeaps u).1 = .ok u.2 := by
  have hread : (readUpstreamResponse willingPrinter unlimitedHeaps.response u).1 = .ok u.2 :=
    (Printer.readUpstreamResponse_delivering _ _ willingPrinter_delivering
      Memory.unlimited_not_refuses rfl).trans (if_pos hmax)
  have hheaders : ¬ ((willingPrinter.fetchHeaders u).1 < 0 ∧
      !willingPrinter.isChunkedResponse (willingPrinter.fetchHeaders u).2 ∨
      willingPrinter.statusCode (willingPrinter.fetchHeaders u).2 < 200 ∨
      300 ≤ willingPrinter.statusCode (willingPrinter.fetchHeaders u).2) := by
    simp [willingPrinter]
  have hnext : (willingPrinter.fetchHeaders u).2 = u := rfl
  rw [readAnswer]
  simp only [hnext] at hheaders ⊢
  rw [if_neg hheaders]
  generalize readUpstreamResponse willingPrinter unlimitedHeaps.response u = r at hread
  obtain ⟨result,u'⟩ := r
  cases hread
  simp only
  rw [if_neg (by omega)]

theorem relay_of_answer {σ υ : Type} {env : Environment σ υ} {beside : Beside} {q : Relayed}
    {c c' : Request × σ} {u u' u'' : υ} {h : JobHistory} {up : Upload} {response : Bytes}
    (hprepare : prepare env.heap q = .ok up)
    (hforward : forward (receiveRequest env.read) env.client env.heap env.turns q up (c,u) =
      (.ok (),(c',u')))
    (hanswer : readAnswer env.client env.heap u' = (.ok response,u'')) :
    ∃ served id, relay env beside q c u h = some served ∧ served.job = some (q.info,id) ∧
      served.response = some response ∧
      ∀ body, translate env.hundredths env.heap env.mac env.secure q response = .ok body →
        served.reply = .response (setVersion q.info.major q.info.minor body) := by
  unfold relay
  simp only [hprepare, hforward, hanswer]
  split
  · rename_i htranslate
    refine ⟨_,_,rfl,rfl,rfl,fun body h => ?_⟩
    cases htranslate.symm.trans h
  · rename_i htranslate
    refine ⟨_,_,rfl,rfl,rfl,fun body h => ?_⟩
    cases htranslate.symm.trans h
    rfl

/-- The request is relayed, and this is what the printer has left to say. -/
def relaysTo (t : PrinterTarget) (request answer : Bytes) (info : RequestInfo) : Bool :=
  match admission (some t) (ippRequest request.length) true,
      readAhead (receiveRequest wholeRead) .unlimited false
        ⟨(ippRequest request.length,request),[],0⟩ with
  | .ok t, (.ok read,s) =>
    let q : Relayed := ⟨read,t,s.buffer,false,request.length⟩
    decide (read = info) && match prepare unlimitedHeaps q with
      | .ok up => match forward (receiveRequest wholeRead) willingPrinter unlimitedHeaps 4 q up
          (s.connection,([],answer)) with
        | (.ok (),(_,u)) => decide (u.2 = answer)
        | _ => false
      | .error _ => false
  | _, _ => false

theorem proxyHandler_of_relaysTo {t : PrinterTarget} {request answer : Bytes} {info : RequestInfo}
    (h : relaysTo t request answer info = true) (hmin : 8 ≤ answer.length)
    (hmax : answer.length < responseMax) :
    ∃ served id, proxyHandler smoothEnvironment quietBeside (some t)
        (ippRequest request.length,request) ([],answer) .init = some served ∧
      served.job = some (info,id) ∧ served.response = some answer ∧
      ∀ body, translate smoothEnvironment.hundredths unlimitedHeaps smoothEnvironment.mac false
          ⟨info,t,[],false,0⟩ answer = .ok body →
        served.reply = .response (setVersion info.major info.minor body) := by
  unfold relaysTo at h
  split at h
  · rename_i t' info' s hadmission hahead
    obtain ⟨hinfo,h⟩ := (Bool.and_eq_true _ _).mp h
    split at h
    · rename_i up hprepare
      split at h
      · rename_i c u hforward
        have hleft : u.2 = answer := of_decide_eq_true h
        have hread := readAnswer_willing (hleft ▸ hmin) (hleft ▸ hmax)
        rw [hleft] at hread
        generalize hanswer : readAnswer willingPrinter unlimitedHeaps u = r at hread
        obtain ⟨result,u'⟩ := r
        cases hread
        have hrun : proxyHandler smoothEnvironment quietBeside (some t)
            (ippRequest request.length,request) ([],answer) .init =
            relay smoothEnvironment quietBeside ⟨info',t',s.buffer,false,request.length⟩
              s.connection ([],answer) .init := by
          unfold proxyHandler
          rw [show admission (some t) (ippRequest request.length) smoothEnvironment.continued =
            .ok t' from hadmission]
          simp only
          rw [show readAhead (receiveRequest smoothEnvironment.read) smoothEnvironment.heap.intake
            (ippRequest request.length).chunked ⟨(ippRequest request.length,request),[],0⟩ =
            (.ok info',s) from hahead]
          rfl
        obtain rfl : info' = info := of_decide_eq_true hinfo
        obtain rfl : t' = t := by
          unfold admission at hadmission
          simp only at hadmission
          split_ifs at hadmission
          cases hadmission
          rfl
        rw [hrun]
        exact relay_of_answer hprepare hforward hanswer
      · cases h
    · cases h
  · cases h

theorem relaysTo_busy :
    relaysTo modernPrinter attributesRequest.encode busyResponse.encode attributesRequest.inspect =
      true := by decide +kernel

/-- The busy printer's reply changes the version that it is spoken to in. -/
theorem proxyHandler_busy :
    ∃ served id, proxyHandler smoothEnvironment quietBeside (some modernPrinter)
        (ippRequest attributesRequest.encode.length,attributesRequest.encode)
        ([],busyResponse.encode) .init = some served ∧
      served.job = some (attributesRequest.inspect,id) ∧
      attributesRequest.inspect.operationId = Operation.getPrinterAttributes ∧
      served.response = some busyResponse.encode ∧
      0x0400 ≤ ippCodecMessageCode busyResponse.encode ∧
      (served.stored modernPrinter).upstreamIppMajor ≠ modernPrinter.upstreamIppMajor := by
  obtain ⟨served,id,hrun,hjob,hresponse,-⟩ :=
    proxyHandler_of_relaysTo relaysTo_busy (by decide +kernel) (by decide +kernel)
  have hquery : attributesRequest.inspect.operationId = Operation.getPrinterAttributes := by
    decide +kernel
  refine ⟨served,id,hrun,hjob,hquery,hresponse,by decide +kernel,?_⟩
  rw [Served.stored, proxyHandler_profile hrun hjob hquery hresponse]
  decide +kernel

theorem proxyHandler_keeps_busy :
    ∃ served id, proxyHandler smoothEnvironment quietBeside (some modernPrinter)
        (ippRequest attributesRequest.encode.length,attributesRequest.encode)
        ([],busyResponse.encode) .init = some served ∧
      served.job = some (attributesRequest.inspect,id) ∧
      served.response = some busyResponse.encode ∧
      (served.stored modernPrinter = modernPrinter ↔
        LeavesProfile modernPrinter busyResponse.encode) := by
  obtain ⟨served,id,hrun,hjob,hresponse,-⟩ :=
    proxyHandler_of_relaysTo relaysTo_busy (by decide +kernel) (by decide +kernel)
  exact ⟨served,id,hrun,hjob,hresponse,proxyHandler_keeps_iff hrun hjob (by decide +kernel)
    hresponse (by decide +kernel)⟩

end Espresso.Proxy
