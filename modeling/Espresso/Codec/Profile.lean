import Espresso.Codec.Walk
import Espresso.Codec.Text
import Espresso.Codec.Target
import Espresso.Codec.Operations

/-! Merging a printer's Get-Printer-Attributes response into the profile. -/
namespace Espresso.Codec

/-- `ULONG_MAX` of the target, where `unsigned long` has 32 bits. -/
abbrev ulongMax : ℕ := 4294967295

def decimalValue (digits : Bytes) : ℕ :=
  digits.foldl (fun n c => n * 10 + (c.toNat - 0x30)) 0

/-- `strtoul(s, &next, 10)`: the number and `next`. -/
def strtoul (s : Bytes) : ℕ × Bytes :=
  let start := s.dropWhile isspace
  let negative : Bool := start.head? = some 0x2d
  let start := if start.head? = some 0x2d ∨ start.head? = some 0x2b then start.tail else start
  let digits := start.takeWhile isdigit
  let value := decimalValue digits
  if digits = [] then (0,s)
  else (if ulongMax < value then ulongMax
        else if negative then (ulongMax + 1 - value) % (ulongMax + 1) else value,
    start.dropWhile isdigit)

/-- One entry of `urf-supported`: an `RS` entry gives the resolutions, a colour space the colour. -/
def finalizeUrf (t : PrinterTarget) (token : Bytes) : PrinterTarget :=
  let t :=
    if 2 ≤ token.length ∧ equalSpan (token.take 2) (octets "rs") then
      let (low,next) := strtoul ((token.drop 2).take 23)
      let (high,next) := if next.head? = some 0x2d then strtoul next.tail else (low,next)
      if next = [] ∧ 0 < low ∧ low ≤ 65535 ∧ 0 < high ∧ high ≤ 65535 then
        { t with resolutionLowDpi := low, resolutionHighDpi := high }
      else t
    else t
  if valueContains token (octets "srgb") || valueContains token (octets "adobergb") ||
      valueContains token (octets "devrgb") then { t with color := true }
  else t

def ippCodecFinalizeProfile (t : PrinterTarget) : PrinterTarget :=
  let t := (csvTokens t.urf.val).foldl finalizeUrf t
  let t := { t with copies := t.copies || 1 < t.copiesUpper }
  -- a printer discovered as URF implements these even if its firmware does not say so
  let t :=
    if t.urf.val ≠ [] then
      { t with
        operationsSupported := t.operationsSupported |||
          (1 <<< Operation.printJob ||| 1 <<< Operation.getPrinterAttributes)
        copiesUpper := if t.copiesUpper = 0 then 1 else t.copiesUpper }
    else t
  let t :=
    if t.mediaDefault.val = [] ∧ t.media.val ≠ [] then
      { t with mediaDefault := .copy 64 (trimEnd (t.media.val.takeWhile (· ≠ comma))) }
    else t
  if t.ippVersions.val = [] ∧ t.upstreamIppMajor ≠ 0 then
    { t with ippVersions := .copy 32 (octets
      (toString t.upstreamIppMajor.toNat ++ "." ++ toString t.upstreamIppMinor.toNat)) }
  else t

def anyOf (value : Bytes) (needles : List String) : Bool :=
  needles.any fun needle => valueContains value (octets needle)

def colorModeOf (value : Bytes) : Option String :=
  if anyOf value ["monochrome","gray","bi-level"] then some "monochrome"
  else if anyOf value ["color","rgb","cmyk"] then some "color"
  else if anyOf value ["auto"] then some "auto"
  else none

def colorIf (t : PrinterTarget) (condition : Bool) : PrinterTarget :=
  if condition then { t with color := true } else t

def encodedU32 (value : Bytes) : ℕ :=
  readU32 (value.getD 0 0) (value.getD 1 0) (value.getD 2 0) (value.getD 3 0)

/-- What one value record of the response does to the profile. -/
def applyValue (t : PrinterTarget) (name : Bytes) (tag : UInt8) (value : Bytes) : PrinterTarget :=
  if name = octets "document-format-supported" ∧ tag = Tag.mimeType then
    { t with pdl := csvAddSplit t.pdl value }
  else if name = octets "urf-supported" ∧ tag = Tag.keyword then
    colorIf { t with urf := csvAddSplit t.urf value } (anyOf value ["srgb","adobergb","devrgb"])
  else if name = octets "media-supported" then { t with media := csvAddSplit t.media value }
  else if name = octets "media-default" then { t with mediaDefault := .copy 64 value }
  else if name = octets "ipp-versions-supported" ∧ tag = Tag.keyword then
    { t with ippVersions := csvAddSplit t.ippVersions value }
  else if name = octets "page-ranges-supported" ∧ tag = Tag.boolean ∧ value.length = 1 then
    { t with pageRangesSupported := value ≠ [0] }
  else if name = octets "overrides-supported" ∧ tag = Tag.keyword then
    if equalSpan value (octets "document-number") then { t with overridesDocumentNumber := true }
    else if equalSpan value (octets "pages") then { t with overridesPages := true }
    else t
  else if name = octets "ipp-features-supported" ∧ tag = Tag.keyword ∧
      equalSpan value (octets "ipp-everywhere") then { t with ippEverywhere := true }
  else if name = octets "printer-make-and-model" then { t with label := .copy 96 value }
  else if name = octets "printer-info" ∧ t.label.val = [] then { t with label := .copy 96 value }
  else if name = octets "printer-location" then { t with location := .copy 96 value }
  else if name = octets "printer-more-info" ∧ tag = Tag.uri ∧ value.length < 256 ∧
      webUrlValue value then { t with adminUrl := .copy 256 value }
  else if name = octets "printer-uuid" then
    { t with uuid := .copy 64 (if 9 < value.length ∧ (octets "urn:uuid:").isPrefixOf value then
        value.drop 9 else value) }
  else if name = octets "color-supported" ∧ tag = Tag.boolean ∧ value.length = 1 then
    { t with color := value ≠ [0] }
  else if name = octets "print-color-mode-default" ∨ name = octets "output-mode-default" then
    match colorModeOf value with
    | some mode => { t with colorModeDefault := .copy 16 (octets mode) }
    | none => t
  else if name = octets "print-color-mode-supported" then
    colorIf { t.withCap JobCap.printColorMode with legacyOutputMode := false }
      (anyOf value ["color","rgb","cmyk"])
  else if name = octets "output-mode-supported" then
    colorIf (if t.hasCap JobCap.printColorMode then t else { t with legacyOutputMode := true })
      (anyOf value ["color","rgb","cmyk"])
  else if name = octets "sides-supported" then
    let t := t.withCap JobCap.sides
    if valueContains value (octets "two-sided") then { t with duplex := true } else t
  else if name = octets "copies-supported" ∧ tag = Tag.range ∧ value.length = 8 then
    let upper := min (encodedU32 (value.drop 4)) 65535
    { t.withCap JobCap.copies with copiesUpper := upper, copies := 1 < upper }
  else if name = octets "finishings-supported" then t.withCap JobCap.finishings
  else if name = octets "orientation-requested-supported" then t.withCap JobCap.orientation
  else if name = octets "output-bin-supported" then t.withCap JobCap.outputBin
  else if name = octets "print-quality-supported" then t.withCap JobCap.printQuality
  else if (name = octets "sheet-collate-supported" ∨
      name = octets "multiple-document-handling-supported") ∧
      valueContains value (octets "collated") ∧ ¬ valueContains value (octets "uncollated") then
    { t with collate := true }
  else if name = octets "operations-supported" ∧ tag = Tag.enum ∧ value.length = 4 then
    if encodedU32 value < 64 then
      { t with operationsSupported := t.operationsSupported ||| 1 <<< encodedU32 value }
    else t
  else if name = octets "printer-state" ∧ tag = Tag.enum ∧ value.length = 4 then
    if encodedU32 value ≤ 255 then { t with printerState := UInt8.ofNat (encodedU32 value) } else t
  else if name = octets "printer-is-accepting-jobs" ∧ tag = Tag.boolean ∧ value.length = 1 then
    { t with acceptingJobs := value ≠ [0], acceptingJobsKnown := true }
  else if name = octets "printer-state-reasons" ∧ tag = Tag.keyword then
    { t with stateReasons := csvAddSplit t.stateReasons value }
  else t

/-- The profile once the header has been read. -/
def applyHeader (t : PrinterTarget) (input : Bytes) : PrinterTarget :=
  { t with
    profileSchema := espressoProfileSchema
    upstreamIppMajor := input.getD 0 0
    upstreamIppMinor := input.getD 1 0 }

/-- The profile is updated in place: a failed call leaves what it has merged so far. -/
def ippCodecApplyPrinterAttributes (input : Bytes) (t : PrinterTarget) :
    Except (CodecError × PrinterTarget) PrinterTarget :=
  if input.length < ippHeaderLength then .error (.incomplete,t)
  else
    match (Walker.reader (fun t _ => t) applyValue fun t e => (e,t)).walk (applyHeader t input) []
        (input.drop ippHeaderLength) with
    | .error e => .error e
    | .ok (t,_) => .ok (ippCodecFinalizeProfile t)

/-- The profile after a well-formed response. The document plays no part. -/
def Envelope.applyTo (e : Envelope) (t : PrinterTarget) : PrinterTarget :=
  ippCodecFinalizeProfile
    (Walker.readItems (fun t _ => t) applyValue (applyHeader t e.header) [] e.items)

theorem applyHeader_take (t : PrinterTarget) (input : Bytes) :
    applyHeader t (input.take ippHeaderLength) = applyHeader t input := by
  simp [applyHeader, ippHeaderLength]

theorem ippCodecApplyPrinterAttributes_ok {input : Bytes} {e : Envelope}
    (h : decode input = .ok e) (t : PrinterTarget) :
    ippCodecApplyPrinterAttributes input t = .ok (e.applyTo t) := by
  rw [ippCodecApplyPrinterAttributes, if_neg (length_of_decode h), Walker.reader_ok _ _ _ h,
    ← applyHeader_take, header_of_decode h]
  rfl

theorem ippCodecApplyPrinterAttributes_error {input : Bytes} {f : CodecError}
    (h : decode input = .error f) (t : PrinterTarget) :
    ∃ t', ippCodecApplyPrinterAttributes input t = .error (f,t') := by
  unfold ippCodecApplyPrinterAttributes
  by_cases hlen : input.length < ippHeaderLength
  · rw [decode_of_short hlen] at h
    cases h
    exact ⟨t,by rw [if_pos hlen]⟩
  · obtain ⟨t',hw⟩ := Walker.reader_error (fun t _ => t) applyValue (fun t e => (e,t)) hlen h
      (applyHeader t input)
    exact ⟨t',by rw [if_neg hlen, hw]⟩

end Espresso.Codec
