import Espresso.Lib.Octets

/-! The compact printer profile of `printer_types.h`. Text fields are the C strings their arrays
hold; the two bit masks are natural numbers, of which only the bits below 64 and 7 are ever set. -/
namespace Espresso.Codec

abbrev espressoProfileSchema : ℕ := 7

namespace JobCap
abbrev copies : ℕ := 1 <<< 0
abbrev finishings : ℕ := 1 <<< 1
abbrev orientation : ℕ := 1 <<< 2
abbrev outputBin : ℕ := 1 <<< 3
abbrev printQuality : ℕ := 1 <<< 4
abbrev sides : ℕ := 1 <<< 5
abbrev printColorMode : ℕ := 1 <<< 6
end JobCap

structure PrinterTarget where
  profileSchema : ℕ
  instanceName : Text 64
  hostname : Text 64
  address : Text 48
  port : ℕ
  resourcePath : Text 128
  pdl : Text 256
  urf : Text 160
  media : Text 384
  mediaDefault : Text 64
  label : Text 96
  location : Text 96
  uuid : Text 64
  ippVersions : Text 32
  colorModeDefault : Text 16
  stateReasons : Text 192
  operationsSupported : ℕ
  jobTemplateCapabilities : ℕ
  copiesUpper : ℕ
  resolutionLowDpi : ℕ
  resolutionHighDpi : ℕ
  upstreamIppMajor : UInt8
  upstreamIppMinor : UInt8
  printerState : UInt8
  capabilityQueried : Bool
  acceptingJobs : Bool
  acceptingJobsKnown : Bool
  color : Bool
  duplex : Bool
  copies : Bool
  collate : Bool
  legacyOutputMode : Bool
  adminUrl : Text 256
  secureTransport : Bool
  pageRangesSupported : Bool
  overridesDocumentNumber : Bool
  overridesPages : Bool
  ippEverywhere : Bool
  deriving DecidableEq

namespace PrinterTarget

/-- `memset(target, 0, sizeof(*target))`. -/
def zero : PrinterTarget where
  profileSchema := 0
  instanceName := .empty
  hostname := .empty
  address := .empty
  port := 0
  resourcePath := .empty
  pdl := .empty
  urf := .empty
  media := .empty
  mediaDefault := .empty
  label := .empty
  location := .empty
  uuid := .empty
  ippVersions := .empty
  colorModeDefault := .empty
  stateReasons := .empty
  operationsSupported := 0
  jobTemplateCapabilities := 0
  copiesUpper := 0
  resolutionLowDpi := 0
  resolutionHighDpi := 0
  upstreamIppMajor := 0
  upstreamIppMinor := 0
  printerState := 0
  capabilityQueried := false
  acceptingJobs := false
  acceptingJobsKnown := false
  color := false
  duplex := false
  copies := false
  collate := false
  legacyOutputMode := false
  adminUrl := .empty
  secureTransport := false
  pageRangesSupported := false
  overridesDocumentNumber := false
  overridesPages := false
  ippEverywhere := false

instance : Inhabited PrinterTarget := ⟨zero⟩

/-- The printer advertised the Job Template attribute behind this capability bit. -/
def hasCap (t : PrinterTarget) (capability : ℕ) : Bool :=
  t.jobTemplateCapabilities &&& capability ≠ 0

/-- Record a capability bit. -/
def withCap (t : PrinterTarget) (capability : ℕ) : PrinterTarget :=
  { t with jobTemplateCapabilities := t.jobTemplateCapabilities ||| capability }

theorem hasCap_congr {t t' : PrinterTarget}
    (h : t'.jobTemplateCapabilities = t.jobTemplateCapabilities) (capability : ℕ) :
    t'.hasCap capability = t.hasCap capability := by rw [hasCap, h, hasCap]

/-- Recording a bit loses no other. -/
theorem hasCap_withCap (t : PrinterTarget) (capability other : ℕ) (h : t.hasCap other = true) :
    (t.withCap capability).hasCap other = true := by
  rw [hasCap, decide_eq_true_iff] at h ⊢
  intro h0
  apply h
  apply Nat.eq_of_testBit_eq
  intro i
  have hi := congrArg (fun n => n.testBit i) h0
  simp only [withCap, Nat.testBit_and, Nat.testBit_or, Nat.zero_testBit] at hi ⊢
  cases hb : t.jobTemplateCapabilities.testBit i <;> simp_all

theorem hasCap_withCap_self (t : PrinterTarget) {capability : ℕ} (h : capability ≠ 0) :
    (t.withCap capability).hasCap capability = true := by
  rw [hasCap, decide_eq_true_iff]
  intro h0
  apply h
  apply Nat.eq_of_testBit_eq
  intro i
  have hi := congrArg (fun n => n.testBit i) h0
  simp only [withCap, Nat.testBit_and, Nat.testBit_or, Nat.zero_testBit] at hi ⊢
  cases hb : capability.testBit i <;> simp_all

end PrinterTarget

end Espresso.Codec
