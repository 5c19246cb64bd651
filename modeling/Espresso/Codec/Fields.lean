import Espresso.Lib.Fold
import Espresso.Codec.Probed

/-! Merging a response into the profile, field by field. -/
namespace Espresso.Codec

attribute [ext] PrinterTarget

/-! ### What one record says about each field -/

namespace Record
variable (r : Record)

def valueOf (name : String) : Option Bytes :=
  if r.attributeName = octets name then some r.value else none

def taggedValueOf (name : String) (tag : UInt8) : Option Bytes :=
  if r.attributeName = octets name ∧ r.tag = tag then some r.value else none

def newAdminUrl : Option (Text 256) :=
  if r.attributeName = octets "printer-more-info" ∧ r.tag = Tag.uri ∧ r.value.length < 256 ∧
      webUrlValue r.value then some (.copy 256 r.value) else none

/-- The UUID without its URN. -/
def newUuid : Option (Text 64) :=
  (r.valueOf "printer-uuid").map fun value =>
    .copy 64 (if 9 < value.length ∧ (octets "urn:uuid:").isPrefixOf value then value.drop 9
      else value)

def newColor : Option Bool :=
  if r.attributeName = octets "urf-supported" ∧ r.tag = Tag.keyword ∧
      anyOf r.value ["srgb","adobergb","devrgb"] then some true
  else if r.attributeName = octets "color-supported" ∧ r.tag = Tag.boolean ∧ r.value.length = 1 then
    some (r.value ≠ [0])
  else if (r.attributeName = octets "print-color-mode-supported" ∨
      r.attributeName = octets "output-mode-supported") ∧
      anyOf r.value ["color","rgb","cmyk"] then some true
  else none

def newColorMode : Option (Text 16) :=
  if r.attributeName = octets "print-color-mode-default" ∨
      r.attributeName = octets "output-mode-default" then
    (colorModeOf r.value).map fun mode => .copy 16 (octets mode)
  else none

def capability : ℕ :=
  if r.attributeName = octets "print-color-mode-supported" then JobCap.printColorMode
  else if r.attributeName = octets "sides-supported" then JobCap.sides
  else if r.attributeName = octets "copies-supported" ∧ r.tag = Tag.range ∧ r.value.length = 8 then
    JobCap.copies
  else if r.attributeName = octets "finishings-supported" then JobCap.finishings
  else if r.attributeName = octets "orientation-requested-supported" then JobCap.orientation
  else if r.attributeName = octets "output-bin-supported" then JobCap.outputBin
  else if r.attributeName = octets "print-quality-supported" then JobCap.printQuality
  else 0

def newCopies : Option (ℕ × Bool) :=
  if r.attributeName = octets "copies-supported" ∧ r.tag = Tag.range ∧ r.value.length = 8 then
    some (min (encodedU32 (r.value.drop 4)) 65535,1 < min (encodedU32 (r.value.drop 4)) 65535)
  else none

def newDuplex : Option Bool :=
  if r.attributeName = octets "sides-supported" ∧ valueContains r.value (octets "two-sided") then
    some true else none

def newCollate : Option Bool :=
  if (r.attributeName = octets "sheet-collate-supported" ∨
      r.attributeName = octets "multiple-document-handling-supported") ∧
      valueContains r.value (octets "collated") ∧
      ¬ valueContains r.value (octets "uncollated") then some true else none

def operation : ℕ :=
  if r.attributeName = octets "operations-supported" ∧ r.tag = Tag.enum ∧ r.value.length = 4 ∧
      encodedU32 r.value < 64 then 1 <<< encodedU32 r.value else 0

def newState : Option UInt8 :=
  if r.attributeName = octets "printer-state" ∧ r.tag = Tag.enum ∧ r.value.length = 4 ∧
      encodedU32 r.value ≤ 255 then some (UInt8.ofNat (encodedU32 r.value)) else none

def newAccepting : Option Bool :=
  if r.attributeName = octets "printer-is-accepting-jobs" ∧ r.tag = Tag.boolean ∧
      r.value.length = 1 then some (r.value ≠ [0]) else none

def newPageRanges : Option Bool :=
  if r.attributeName = octets "page-ranges-supported" ∧ r.tag = Tag.boolean ∧
      r.value.length = 1 then some (r.value ≠ [0]) else none

def newOverridesDocumentNumber : Option Bool :=
  if r.attributeName = octets "overrides-supported" ∧ r.tag = Tag.keyword ∧
      equalSpan r.value (octets "document-number") then some true else none

def newOverridesPages : Option Bool :=
  if r.attributeName = octets "overrides-supported" ∧ r.tag = Tag.keyword ∧
      ¬ equalSpan r.value (octets "document-number") ∧ equalSpan r.value (octets "pages") then
    some true else none

def newEverywhere : Option Bool :=
  if r.attributeName = octets "ipp-features-supported" ∧ r.tag = Tag.keyword ∧
      equalSpan r.value (octets "ipp-everywhere") then some true else none

end Record

/-- A list with the pieces of a value, if there is one. -/
def addTo {n : ℕ} (csv : Text n) (value : Option Bytes) : Text n :=
  match value with
  | some value => csvAddSplit csv value
  | none => csv

/-- The make and model, or the information where there is no label yet. -/
def mergedLabel (label : Text 96) (r : Record) : Text 96 :=
  if r.attributeName = octets "printer-make-and-model" then .copy 96 r.value
  else if r.attributeName = octets "printer-info" ∧ label.val = [] then .copy 96 r.value
  else label

/-- The mode that output-mode-supported announces, unless print-color-mode-supported is known. -/
def mergedLegacy (capabilities : ℕ) (legacy : Bool) (r : Record) : Bool :=
  if r.attributeName = octets "print-color-mode-supported" then false
  else if r.attributeName = octets "output-mode-supported" ∧
      capabilities &&& JobCap.printColorMode = 0 then true
  else legacy

/-- The profile after one record. -/
def mergedRecord (t : PrinterTarget) (r : Record) : PrinterTarget :=
  { t with
    pdl := addTo t.pdl (r.taggedValueOf "document-format-supported" Tag.mimeType)
    urf := addTo t.urf (r.taggedValueOf "urf-supported" Tag.keyword)
    media := addTo t.media (r.valueOf "media-supported")
    mediaDefault := ((r.valueOf "media-default").map (Text.copy 64)).getD t.mediaDefault
    label := mergedLabel t.label r
    location := ((r.valueOf "printer-location").map (Text.copy 96)).getD t.location
    uuid := r.newUuid.getD t.uuid
    ippVersions := addTo t.ippVersions (r.taggedValueOf "ipp-versions-supported" Tag.keyword)
    colorModeDefault := r.newColorMode.getD t.colorModeDefault
    stateReasons := addTo t.stateReasons (r.taggedValueOf "printer-state-reasons" Tag.keyword)
    operationsSupported := t.operationsSupported ||| r.operation
    jobTemplateCapabilities := t.jobTemplateCapabilities ||| r.capability
    copiesUpper := (r.newCopies.map Prod.fst).getD t.copiesUpper
    printerState := r.newState.getD t.printerState
    acceptingJobs := r.newAccepting.getD t.acceptingJobs
    acceptingJobsKnown := r.newAccepting.isSome || t.acceptingJobsKnown
    color := r.newColor.getD t.color
    duplex := r.newDuplex.getD t.duplex
    copies := (r.newCopies.map Prod.snd).getD t.copies
    collate := r.newCollate.getD t.collate
    legacyOutputMode := mergedLegacy t.jobTemplateCapabilities t.legacyOutputMode r
    adminUrl := r.newAdminUrl.getD t.adminUrl
    pageRangesSupported := r.newPageRanges.getD t.pageRangesSupported
    overridesDocumentNumber := r.newOverridesDocumentNumber.getD t.overridesDocumentNumber
    overridesPages := r.newOverridesPages.getD t.overridesPages
    ippEverywhere := r.newEverywhere.getD t.ippEverywhere }

/-- The names that a record can have; first those of which more than the tag and the length is
tested. -/
def profileNames : List String :=
  ["urf-supported","overrides-supported","output-mode-supported","copies-supported",
    "operations-supported","printer-state","print-color-mode-default","output-mode-default",
    "document-format-supported","media-supported","media-default","ipp-versions-supported",
    "page-ranges-supported","ipp-features-supported","printer-make-and-model","printer-info",
    "printer-location","printer-more-info","printer-uuid","color-supported",
    "print-color-mode-supported","sides-supported","finishings-supported",
    "orientation-requested-supported","output-bin-supported","print-quality-supported",
    "sheet-collate-supported","multiple-document-handling-supported",
    "printer-is-accepting-jobs","printer-state-reasons"]

theorem mergeRecord_eq (t : PrinterTarget) (r : Record) : mergeRecord t r = mergedRecord t r := by
  obtain ⟨name,hname⟩ : ∃ name, r.attributeName = name := ⟨_,rfl⟩
  simp only [mergeRecord, mergedRecord, applyValue, Record.valueOf, Record.taggedValueOf,
    Record.newAdminUrl, Record.newUuid, Record.newColor, Record.newColorMode, Record.capability,
    Record.newCopies, Record.newDuplex, Record.newCollate, Record.operation, Record.newState,
    Record.newAccepting, Record.newPageRanges, Record.newOverridesDocumentNumber,
    Record.newOverridesPages, Record.newEverywhere, mergedLabel, mergedLegacy, hname]
  generalize r.tag = tag, r.value = value
  by_cases hknown : ∃ known ∈ profileNames, name = octets known
  · obtain ⟨known,hmem,rfl⟩ := hknown
    simp only [profileNames, List.mem_cons, List.not_mem_nil, or_false] at hmem
    -- one case for each name
    rcases hmem with rfl | rfl | rfl | rfl | rfl | rfl | rfl | rfl | rfl | rfl | rfl | rfl | rfl |
      rfl | rfl | rfl | rfl | rfl | rfl | rfl | rfl | rfl | rfl | rfl | rfl | rfl | rfl | rfl |
      rfl | rfl
    all_goals
      simp only [octets_inj, String.reduceEq, false_and, true_and, or_false, false_or, or_self,
        if_true, if_false, colorIf, PrinterTarget.withCap, Option.getD_none, Option.map_none,
        Option.isSome_none, Nat.or_zero, Bool.false_or, addTo]
    · by_cases htag : tag = Tag.keyword
      · by_cases hcolor : anyOf value ["srgb","adobergb","devrgb"] = true
        · simp only [htag, hcolor, and_self, if_true, Option.getD_some]
        · simp only [htag, hcolor, Bool.false_eq_true, and_false, if_true, if_false, Option.getD_none]
      · simp only [htag, false_and, if_false, Option.getD_none]
    · by_cases htag : tag = Tag.keyword
      · by_cases hnumber : equalSpan value (octets "document-number") = true
        · simp only [htag, hnumber, true_and, not_true, false_and, and_false, if_true, if_false,
            Option.getD_some, Option.getD_none]
        · by_cases hpages : equalSpan value (octets "pages") = true
          · simp only [htag, hnumber, hpages, Bool.false_eq_true, true_and, not_false_iff, and_false,
              if_true, if_false, Option.getD_some, Option.getD_none]
          · simp only [htag, hnumber, hpages, Bool.false_eq_true, and_false, if_true, if_false,
              Option.getD_none]
      · simp only [htag, false_and, if_false, Option.getD_none]
    · by_cases hcap : t.hasCap JobCap.printColorMode = true
      · have hbit : ¬ t.jobTemplateCapabilities &&& JobCap.printColorMode = 0 := by
          simpa [PrinterTarget.hasCap] using hcap
        simp only [hcap, hbit, if_true, if_false]
        split <;> rfl
      · have hbit : t.jobTemplateCapabilities &&& JobCap.printColorMode = 0 := by
          simpa [PrinterTarget.hasCap] using hcap
        simp only [hcap, hbit, if_true, if_false, Bool.false_eq_true]
        split <;> rfl
    · by_cases hvalue : tag = Tag.range ∧ value.length = 8
      · simp only [if_pos hvalue]
        -- by rewriting: evaluation would run into the bound of the copies
        rw [Option.map_some, Option.getD_some, Option.map_some, Option.getD_some]
      · simp only [hvalue, if_false, Option.map_none, Option.getD_none, Nat.or_zero]
    · by_cases hvalue : tag = Tag.enum ∧ value.length = 4
      · by_cases hsmall : encodedU32 value < 64
        · simp only [hvalue.1, hvalue.2, hsmall, and_self, if_true]
        · simp only [hvalue.1, hvalue.2, hsmall, and_false, and_self, if_true, if_false, Nat.or_zero]
      · have hnone : ¬ (tag = Tag.enum ∧ value.length = 4 ∧ encodedU32 value < 64) :=
          fun h => hvalue ⟨h.1,h.2.1⟩
        simp only [hvalue, hnone, if_false, Nat.or_zero]
    · by_cases hvalue : tag = Tag.enum ∧ value.length = 4
      · by_cases hsmall : encodedU32 value ≤ 255
        · simp only [hvalue.1, hvalue.2, hsmall, and_self, if_true, Option.getD_some]
        · simp only [hvalue.1, hvalue.2, hsmall, and_false, and_self, if_true, if_false,
            Option.getD_none]
      · have hnone : ¬ (tag = Tag.enum ∧ value.length = 4 ∧ encodedU32 value ≤ 255) :=
          fun h => hvalue ⟨h.1,h.2.1⟩
        simp only [hvalue, hnone, if_false, Option.getD_none]
    · cases colorModeOf value <;> rfl
    · cases colorModeOf value <;> rfl
    -- the others test nothing else, or nothing twice
    all_goals first | rfl | (split_ifs <;> rfl)
  · have hother : ∀ known ∈ profileNames, (name = octets known) = False := fun known hmem =>
      eq_false fun h => hknown ⟨known,hmem,h⟩
    simp only [profileNames, List.forall_mem_cons, List.not_mem_nil] at hother
    simp only [hother, false_and, or_self, if_false, Option.getD_none, Option.map_none,
      Option.isSome_none, Nat.or_zero, Bool.false_or, addTo]

/-! ### Finalisation -/

/-- The resolutions that an entry of the URF list gives. -/
def urfResolutions (token : Bytes) : Option (ℕ × ℕ) :=
  if 2 ≤ token.length ∧ equalSpan (token.take 2) (octets "rs") then
    let (low,next) := strtoul ((token.drop 2).take 23)
    let (high,next) := if next.head? = some 0x2d then strtoul next.tail else (low,next)
    if next = [] ∧ 0 < low ∧ low ≤ 65535 ∧ 0 < high ∧ high ≤ 65535 then some (low,high) else none
  else none

def urfColor (token : Bytes) : Bool :=
  valueContains token (octets "srgb") || valueContains token (octets "adobergb") ||
    valueContains token (octets "devrgb")

theorem finalizeUrf_eq (t : PrinterTarget) (token : Bytes) :
    finalizeUrf t token = { t with
      resolutionLowDpi := ((urfResolutions token).map Prod.fst).getD t.resolutionLowDpi
      resolutionHighDpi := ((urfResolutions token).map Prod.snd).getD t.resolutionHighDpi
      color := urfColor token || t.color } := by
  have hresolution : (if 2 ≤ token.length ∧ equalSpan (token.take 2) (octets "rs") then
        let (low,next) := strtoul ((token.drop 2).take 23)
        let (high,next) := if next.head? = some 0x2d then strtoul next.tail else (low,next)
        if next = [] ∧ 0 < low ∧ low ≤ 65535 ∧ 0 < high ∧ high ≤ 65535 then
          { t with resolutionLowDpi := low, resolutionHighDpi := high }
        else t
      else t) = { t with
        resolutionLowDpi := ((urfResolutions token).map Prod.fst).getD t.resolutionLowDpi
        resolutionHighDpi := ((urfResolutions token).map Prod.snd).getD t.resolutionHighDpi } := by
    unfold urfResolutions
    split
    · generalize strtoul ((token.drop 2).take 23) = first
      obtain ⟨low,next⟩ := first
      simp only
      generalize (if next.head? = some 0x2d then strtoul next.tail else (low,next)) = second
      obtain ⟨high,rest⟩ := second
      simp only
      split
      · rw [Option.map_some, Option.map_some, Option.getD_some, Option.getD_some]
      · rfl
    · rfl
  have hcolor : ∀ u : PrinterTarget, (if urfColor token then { u with color := true } else u) =
      { u with color := urfColor token || u.color } := by
    intro u
    cases urfColor token <;> rfl
  refine (hcolor _).trans ?_
  rw [hresolution]

theorem finalizeUrf_foldl (t : PrinterTarget) (tokens : List Bytes) :
    tokens.foldl finalizeUrf t = { t with
      resolutionLowDpi := ((lastWritten urfResolutions tokens).map Prod.fst).getD t.resolutionLowDpi
      resolutionHighDpi :=
        ((lastWritten urfResolutions tokens).map Prod.snd).getD t.resolutionHighDpi
      color := tokens.any urfColor || t.color } := by
  induction tokens using List.reverseRecOn with
  | nil => rfl
  | append_singleton tokens token ih =>
    rw [List.foldl_append, ih]
    simp only [List.foldl_cons, List.foldl_nil, finalizeUrf_eq, lastWritten, List.reverse_append,
      List.reverse_cons, List.reverse_nil, List.nil_append, List.singleton_append,
      List.findSome?_cons, List.any_append, List.any_cons, List.any_nil, Bool.or_false]
    rw [Bool.or_left_comm, ← Bool.or_assoc]
    cases urfResolutions token <;> rfl

/-- The first entry of the media list. -/
def firstMedia (media : Text 384) : Text 64 :=
  .copy 64 (trimEnd (media.val.takeWhile (· ≠ comma)))

def upstreamVersion (t : PrinterTarget) : Text 32 :=
  .copy 32 (octets (toString t.upstreamIppMajor.toNat ++ "." ++ toString t.upstreamIppMinor.toNat))

/-- The profile after `ipp_codec_finalize_profile`. -/
def finalizedProfile (t : PrinterTarget) : PrinterTarget :=
  let resolutions := lastWritten urfResolutions (csvTokens t.urf.val)
  { t with
    mediaDefault := if t.mediaDefault.val = [] ∧ t.media.val ≠ [] then firstMedia t.media
      else t.mediaDefault
    ippVersions := if t.ippVersions.val = [] ∧ t.upstreamIppMajor ≠ 0 then upstreamVersion t
      else t.ippVersions
    operationsSupported := if t.urf.val ≠ [] then t.operationsSupported |||
        (1 <<< Operation.printJob ||| 1 <<< Operation.getPrinterAttributes)
      else t.operationsSupported
    copiesUpper := if t.urf.val ≠ [] ∧ t.copiesUpper = 0 then 1 else t.copiesUpper
    resolutionLowDpi := (resolutions.map Prod.fst).getD t.resolutionLowDpi
    resolutionHighDpi := (resolutions.map Prod.snd).getD t.resolutionHighDpi
    color := (csvTokens t.urf.val).any urfColor || t.color
    copies := t.copies || 1 < t.copiesUpper }

theorem ippCodecFinalizeProfile_eq (t : PrinterTarget) :
    ippCodecFinalizeProfile t = finalizedProfile t := by
  have hoperations : ∀ u : PrinterTarget, (if u.urf.val ≠ [] then
        { u with
          operationsSupported := u.operationsSupported |||
            (1 <<< Operation.printJob ||| 1 <<< Operation.getPrinterAttributes)
          copiesUpper := if u.copiesUpper = 0 then 1 else u.copiesUpper }
      else u) = { u with
        operationsSupported := if u.urf.val ≠ [] then u.operationsSupported |||
            (1 <<< Operation.printJob ||| 1 <<< Operation.getPrinterAttributes)
          else u.operationsSupported
        copiesUpper := if u.urf.val ≠ [] ∧ u.copiesUpper = 0 then 1 else u.copiesUpper } := by
    intro u
    by_cases hurf : u.urf.val ≠ []
    · simp only [eq_true hurf, true_and, if_true]
    · simp only [eq_false hurf, false_and, if_false]
  have hmedia : ∀ u : PrinterTarget, (if u.mediaDefault.val = [] ∧ u.media.val ≠ [] then
        { u with mediaDefault := firstMedia u.media } else u) =
      { u with mediaDefault := if u.mediaDefault.val = [] ∧ u.media.val ≠ [] then
          firstMedia u.media else u.mediaDefault } := by
    intro u
    split <;> rfl
  have hversions : ∀ u : PrinterTarget, (if u.ippVersions.val = [] ∧ u.upstreamIppMajor ≠ 0 then
        { u with ippVersions := upstreamVersion u } else u) =
      { u with ippVersions := if u.ippVersions.val = [] ∧ u.upstreamIppMajor ≠ 0 then
          upstreamVersion u else u.ippVersions } := by
    intro u
    split <;> rfl
  unfold ippCodecFinalizeProfile
  extract_lets t1 t2 t3 t4
  have h1 := finalizeUrf_foldl t (csvTokens t.urf.val)
  have h2 : t2 = { t1 with copies := t1.copies || 1 < t1.copiesUpper } := rfl
  refine (hversions t4).trans ?_
  rw [show t4 = _ from hmedia t3, show t3 = _ from hoperations t2, h2, show t1 = _ from h1]
  rfl

/-! ### What a view of the profile sees -/

section
variable {α : Type} (view : PrinterTarget → α) (seen : α → Record → α)

theorem view_mergeRecords (hseen : ∀ t r, view (mergedRecord t r) = seen (view t) r)
    (rs : List Record) (t : PrinterTarget) :
    view (rs.foldl mergeRecord t) = rs.foldl seen (view t) :=
  foldl_view view (fun t r => by rw [mergeRecord_eq, hseen]) rs t

/-- What neither records nor the header nor finalisation touch, no call touches. -/
theorem Leaves.untouched (hseen : ∀ t r, view (mergedRecord t r) = view t)
    (hheader : ∀ t input, view (applyHeader t input) = view t)
    (hfinal : ∀ t, view (finalizedProfile t) = view t) {input : Bytes} {t t' : PrinterTarget}
    (h : Leaves input t t') : view t' = view t := by
  have hmerge : view (mergeResponse t input) = view t := by
    rw [mergeResponse, view_mergeRecords view (fun x _ => x) hseen, hheader]
    exact foldl_fixed fun _ _ => rfl
  obtain rfl | rfl | rfl := h.cases
  · rfl
  · exact hmerge
  · rw [ippCodecFinalizeProfile_eq, hfinal, hmerge]

end

end Espresso.Codec
