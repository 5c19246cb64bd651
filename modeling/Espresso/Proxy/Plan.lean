import Espresso.Codec.Inspect
import Espresso.Codec.CommaList
import Espresso.Codec.Operations

/-! The relay policy of `ipp_proxy_core.c`: what becomes of an inspected client request before the
printer is contacted. -/
namespace Espresso.Proxy

open Codec

namespace Status
abbrev badRequest : ℕ := 0x0400
abbrev documentFormatNotSupported : ℕ := 0x040a
abbrev charsetNotSupported : ℕ := 0x040d
abbrev operationNotSupported : ℕ := 0x0501
abbrev versionNotSupported : ℕ := 0x0503
end Status

inductive Action
  | relay
  | localStatus
  deriving DecidableEq, Repr

inductive DocumentTransform
  | passthrough
  | pwgToUrf
  deriving DecidableEq, Repr

structure Plan where
  action : Action
  documentOperation : Bool
  documentTransform : DocumentTransform
  upstreamDocumentFormat : Option Bytes
  responseMajor : UInt8
  responseMinor : UInt8
  upstreamMajor : UInt8
  upstreamMinor : UInt8
  statusCode : ℕ
  statusMessage : Option String
  deriving DecidableEq

def Plan.reject (plan : Plan) (status : ℕ) (message : String) : Plan :=
  { plan with action := .localStatus, statusCode := status, statusMessage := some message }

section
variable (request : RequestInfo) (t : PrinterTarget) (contentLength : ℕ)

/-- The client sends PWG Raster and the printer takes URF. -/
def convertsDocument : Bool :=
  strcasecmp request.documentFormat.val (octets "image/pwg-raster") &&
    ippCodecFormatSupported t (octets "image/urf")

/-- The plan before the first check. -/
def relayPlan : Plan :=
  let upstreamMajor :=
    if t.capabilityQueried ∧ 2 ≤ t.upstreamIppMajor then t.upstreamIppMajor else 1
  { action := .relay
    documentOperation := request.operationId = Operation.printJob ||
      request.operationId = Operation.sendDocument
    documentTransform := if convertsDocument request t then .pwgToUrf else .passthrough
    upstreamDocumentFormat :=
      if convertsDocument request t then some (octets "image/urf") else none
    responseMajor := request.major
    responseMinor := request.minor
    upstreamMajor := upstreamMajor
    upstreamMinor := if 2 ≤ upstreamMajor then t.upstreamIppMinor else 1
    statusCode := 0
    statusMessage := none }

def versionSupported : Bool :=
  request.major = 1 && request.minor = 1 || request.major = 2 && request.minor = 0

def requiredPresent : Bool :=
  request.requestId ≠ 0 && request.operationAttributesValid && request.hasAttributesCharset &&
    request.hasNaturalLanguage && request.hasTargetUri

def operationRelayed : Bool :=
  request.operationId < 64 &&
    (ippCodecRelayOperations t.operationsSupported).testBit request.operationId

def formatMustBeRelayable : Bool :=
  request.operationId = Operation.printJob || request.operationId = Operation.validateJob ||
    request.operationId = Operation.createJob || request.operationId = Operation.sendDocument

def formatRefused : Bool :=
  formatMustBeRelayable request && request.documentFormat.val ≠ [] &&
    !ippCodecFormatSupported t request.documentFormat.val && !convertsDocument request t

def ippProxyPlanRequest : Plan :=
  let plan := relayPlan request t
  if !versionSupported request then
    { plan with responseMajor := 2, responseMinor := 0 }.reject Status.versionNotSupported
      "ESPresso supports IPP/1.1 and IPP/2.0"
  else if !requiredPresent request then
    plan.reject Status.badRequest "Missing required IPP operation attribute"
  else if !strcasecmp request.attributesCharset.val (octets "utf-8") then
    plan.reject Status.charsetNotSupported "Only utf-8 IPP attributes are supported"
  else if !operationRelayed request t then
    plan.reject Status.operationNotSupported
      "Operation is not supported by the selected printer"
  else if contentLength < request.attributesLength then
    plan.reject Status.badRequest "IPP attributes exceed the request body"
  else if request.operationId = Operation.printJob ∧
      contentLength = request.attributesLength then
    plan.reject Status.badRequest "Print-Job requires document data"
  else if !plan.documentOperation ∧ contentLength ≠ request.attributesLength then
    plan.reject Status.badRequest "This operation cannot contain document data"
  else if formatRefused request t then
    plan.reject Status.documentFormatNotSupported
      "Document format cannot be relayed to the selected printer"
  else plan

/-- The body carries document data where the operation takes it, and only there. -/
def BodyFits : Prop :=
  request.attributesLength ≤ contentLength ∧
    (request.operationId = Operation.printJob → request.attributesLength < contentLength) ∧
    (request.operationId ≠ Operation.printJob → request.operationId ≠ Operation.sendDocument →
      contentLength = request.attributesLength)

/-- What a request needs before its operation is looked at. -/
def WellAddressed : Prop :=
  versionSupported request = true ∧ requiredPresent request = true ∧
    strcasecmp request.attributesCharset.val (octets "utf-8") = true

variable {request t contentLength}

/-- A plan is the relay plan or a rejection of it. -/
theorem plan_upstreamDocumentFormat :
    (ippProxyPlanRequest request t contentLength).upstreamDocumentFormat =
      if convertsDocument request t then some (octets "image/urf") else none := by
  unfold ippProxyPlanRequest
  simp only
  split_ifs <;> simp_all [Plan.reject, relayPlan]

theorem plan_relay_format (h : (ippProxyPlanRequest request t contentLength).action = .relay) :
    formatRefused request t = false := by
  unfold ippProxyPlanRequest at h
  simp only at h
  by_contra hr
  rw [Bool.not_eq_false] at hr
  split_ifs at h <;> simp_all [Plan.reject]

/-- The operation check looks at nothing but the profile's operations. -/
theorem plan_operation (h : WellAddressed request) :
    (ippProxyPlanRequest request t contentLength).statusCode ≠ Status.operationNotSupported ↔
      operationRelayed request t = true := by
  obtain ⟨hversion,hrequired,hcharset⟩ := h
  unfold ippProxyPlanRequest
  simp only [hversion, hrequired, hcharset, Bool.not_true, Bool.false_eq_true, if_false]
  constructor
  · intro h
    by_contra hop
    rw [Bool.not_eq_true] at hop
    exact h (by rw [hop]; rfl)
  · intro hop
    rw [hop]
    simp only [Bool.not_true, Bool.false_eq_true, if_false]
    split_ifs <;> simp [Plan.reject, relayPlan]

/-- The format check is the last one. -/
theorem plan_format (h : WellAddressed request) (hop : operationRelayed request t = true)
    (hbody : BodyFits request contentLength) :
    (ippProxyPlanRequest request t contentLength).statusCode ≠
        Status.documentFormatNotSupported ↔ formatRefused request t = false := by
  obtain ⟨hversion,hrequired,hcharset⟩ := h
  obtain ⟨hle,hprint,hother⟩ := hbody
  have h1 : ¬ contentLength < request.attributesLength := by omega
  have h2 : ¬ (request.operationId = Operation.printJob ∧
      contentLength = request.attributesLength) := by
    rintro ⟨hid,heq⟩
    have := hprint hid
    omega
  have h3 : ¬ ((!(relayPlan request t).documentOperation) = true ∧
      contentLength ≠ request.attributesLength) := by
    rintro ⟨hid,hne⟩
    simp only [relayPlan, Bool.not_eq_true', Bool.or_eq_false_iff, decide_eq_false_iff_not] at hid
    exact hne (hother hid.1 hid.2)
  unfold ippProxyPlanRequest
  simp only [hversion, hrequired, hcharset, hop, Bool.not_true, Bool.false_eq_true, if_false]
  rw [if_neg h1, if_neg h2, if_neg h3]
  cases formatRefused request t <;> simp [Plan.reject, relayPlan]

end

/-- Only a body that fits its operation is relayed. -/
theorem plan_relay_bodyFits {request : RequestInfo} {t : PrinterTarget} {contentLength : ℕ}
    (h : (ippProxyPlanRequest request t contentLength).action ≠ .localStatus) :
    BodyFits request contentLength := by
  unfold ippProxyPlanRequest at h
  simp only at h
  split_ifs at h with h1 h2 h3 h4 h5 h6 h7 h8
  all_goals first
    | exact absurd rfl h
    | skip
  refine ⟨not_lt.mp h5,fun hid => lt_of_le_of_ne (not_lt.mp h5) fun heq => h6 ⟨hid,heq.symm⟩,
    fun hprint hsend => ?_⟩
  by_contra hne
  exact h7 ⟨by simp [relayPlan, hprint, hsend],hne⟩

end Espresso.Proxy
