import Espresso.Codec.PartialMerge
import Espresso.Codec.Transform
import Espresso.Lib.Search

/-! The capability probe of `printer_capabilities.c`: Get-Printer-Attributes in IPP/2.0, then in
IPP/1.1, then once for each of a few document formats. The queries themselves are a parameter. -/
namespace Espresso.Printer
open Codec

/-- `esp_err_t`, without `ESP_OK`. -/
inductive EspError
  | fail
  | noMemory
  | invalidArg
  | other (code : ℕ)
  deriving DecidableEq, Repr

abbrev formatQueryMax : ℕ := 6

/-- The arguments of `query`. -/
structure CapabilityQuery where
  target : PrinterTarget
  major : UInt8
  minor : UInt8
  mediaColDatabase : Bool
  documentFormat : Option Bytes

/-- The outcome of the n-th query of a probe: an error of the transport, or the response. -/
abbrev Queries := ℕ → CapabilityQuery → Except EspError Bytes

/-- The status code of an outcome; without a response it is `UINT16_MAX`. -/
def statusOf (outcome : Except EspError Bytes) : ℕ :=
  match outcome with
  | .ok response => ippCodecMessageCode response
  | .error _ => 65535

/-- What the probe clears before it asks. -/
def clearLive (t : PrinterTarget) : PrinterTarget :=
  { t with
    pdl := .empty
    operationsSupported := 0
    printerState := 0
    acceptingJobs := false
    acceptingJobsKnown := false
    stateReasons := .empty
    pageRangesSupported := false
    overridesDocumentNumber := false
    overridesPages := false
    ippEverywhere := false }

def restorePdl (discoveredPdl : Text 256) (t : PrinterTarget) : PrinterTarget :=
  { t with pdl := .copy 256 discoveredPdl.val }

/-- The entries of the format list, trimmed of blanks; some may be empty. -/
def formatEntries (formats : Bytes) : List Bytes :=
  match formats with
  | [] => []
  | c :: cs =>
    let start := (c :: cs).dropWhile fun c => c = comma ∨ c = 0x20
    ((start.takeWhile (· ≠ comma)).reverse.dropWhile (· = 0x20)).reverse ::
      formatEntries (start.dropWhile (· ≠ comma)).tail
termination_by formats.length
decreasing_by
  have hskip := (List.dropWhile_sublist (fun x => decide (x = comma ∨ x = 0x20))
    (l := c :: cs)).length_le
  have hentry := (List.dropWhile_sublist (fun x => decide (x ≠ comma))
    (l := (c :: cs).dropWhile fun c => c = comma ∨ c = 0x20)).length_le
  simp only [List.length_tail, List.length_cons] at hskip hentry ⊢
  omega

/-- The formats that are asked for: URF first, then the others, six at most. -/
def selectedFormats (formats : Bytes) : List Bytes :=
  let priorityUrf : Bool := (occurrence (octets "image/urf") formats).isSome
  let entries := (formatEntries formats).filter (· ≠ [])
  ((if priorityUrf then entries.filter (· = octets "image/urf") else []) ++
    entries.filter fun entry => !priorityUrf || entry ≠ octets "image/urf").take formatQueryMax

section
variable (query : Queries)

/-- One format query; a failure of any kind is only logged, also when it comes after part of the
response has been merged. -/
def probeFormat (n : ℕ) (t : PrinterTarget) (documentFormat : Bytes) : PrinterTarget :=
  match query n ⟨t,t.upstreamIppMajor,t.upstreamIppMinor,2 ≤ t.upstreamIppMajor,
      some documentFormat⟩ with
  | .error _ => t
  | .ok response =>
    if ippCodecMessageCode response < 0x0400 then
      match ippCodecApplyPrinterAttributes response t with
      | .ok t => t
      | .error (_,t) => t
    else t

/-- The format queries follow `n` earlier ones. -/
def probeFormats : ℕ → PrinterTarget → List Bytes → PrinterTarget
  | _, t, [] => t
  | n, t, documentFormat :: rest =>
    probeFormats (n + 1) (probeFormat query n t documentFormat) rest

/-- Number of general queries and the outcome of the last one. -/
def askCapabilities (t : PrinterTarget) : ℕ × Except EspError Bytes :=
  let outcome := query 0 ⟨t,2,0,true,none⟩
  if 0x0400 ≤ statusOf outcome then (2,query 1 ⟨t,1,1,false,none⟩) else (1,outcome)

/-- The error comes with the profile as it is left. -/
def printerCapabilitiesProbe (t : PrinterTarget) : Except (EspError × PrinterTarget) PrinterTarget :=
  if t.address.val = [] ∨ t.resourcePath.val = [] ∨ t.port = 0 then .error (.invalidArg,t)
  else
    let discoveredPdl : Text 256 := .copy 256 t.pdl.val
    let t := clearLive t
    let (asked,outcome) := askCapabilities query t
    match outcome with
    | .error e => .error (e,restorePdl discoveredPdl t)
    | .ok response =>
      if 0x0400 ≤ ippCodecMessageCode response then .error (.fail,restorePdl discoveredPdl t)
      else
        match ippCodecApplyPrinterAttributes response t with
        | .error (e,t) =>
          .error (if e = .noMemory then .noMemory else .fail,restorePdl discoveredPdl t)
        | .ok t =>
          let t := { t with capabilityQueried := true }
          let t := if t.pdl.val = [] then restorePdl discoveredPdl t else t
          .ok (ippCodecFinalizeProfile (probeFormats query asked t (selectedFormats t.pdl.val)))

/-! ### The failure exits -/

/-- The response that the probe merges into the profile, if it gets one. -/
def acceptedResponse (t : PrinterTarget) : Option Bytes :=
  match (askCapabilities query (clearLive t)).2 with
  | .error _ => none
  | .ok response => if 0x0400 ≤ ippCodecMessageCode response then none else some response

/-- The profile of a failed probe. -/
def failedProbe (t : PrinterTarget) : PrinterTarget :=
  restorePdl t.pdl (match acceptedResponse query t with
    | none => clearLive t
    | some response =>
      if response.length < ippHeaderLength then clearLive t
      else mergeResponse (clearLive t) response)

variable {query}

theorem printerCapabilitiesProbe_error {t t' : PrinterTarget} {e : EspError}
    (haddress : t.address.val ≠ []) (hpath : t.resourcePath.val ≠ []) (hport : t.port ≠ 0)
    (h : printerCapabilitiesProbe query t = .error (e,t')) : t' = failedProbe query t := by
  have hpdl : restorePdl (.copy 256 t.pdl.val) = restorePdl t.pdl := by
    funext u
    rw [restorePdl, restorePdl, Text.copy_val t.pdl.property.1 t.pdl.property.2]
  have hcomplete : ¬ (t.address.val = [] ∨ t.resourcePath.val = [] ∨ t.port = 0) := by
    simp [haddress, hpath, hport]
  rw [printerCapabilitiesProbe, if_neg hcomplete] at h
  simp only [hpdl] at h
  rw [failedProbe, acceptedResponse]
  cases hask : (askCapabilities query (clearLive t)).2 with
  | error e' =>
    simp only [hask] at h
    cases h
    rfl
  | ok response =>
    simp only [hask] at h
    split at h
    · rename_i hrefused
      cases h
      simp only [if_pos hrefused]
    · rename_i hcode
      simp only [if_neg hcode]
      split at h
      · rename_i e' t1 happly
        cases h
        congr 1
        by_cases hlen : response.length < ippHeaderLength
        · rw [ippCodecApplyPrinterAttributes, if_pos hlen] at happly
          cases happly
          rw [if_pos hlen]
        · rw [if_neg hlen]
          rw [ippCodecApplyPrinterAttributes_eq hlen] at happly
          cases hd : decode response with
          | ok env => rw [hd] at happly; cases happly
          | error f => rw [hd] at happly; cases happly; rfl
      · cases h

end

theorem printerCapabilitiesProbe_unanswered {t : PrinterTarget} (haddress : t.address.val ≠ [])
    (hpath : t.resourcePath.val ≠ []) (hport : t.port ≠ 0) (e : EspError) :
    printerCapabilitiesProbe (fun _ _ => .error e) t =
      .error (e,restorePdl (.copy 256 t.pdl.val) (clearLive t)) := by
  have hcomplete : ¬ (t.address.val = [] ∨ t.resourcePath.val = [] ∨ t.port = 0) := by
    simp [haddress, hpath, hport]
  rw [printerCapabilitiesProbe, if_neg hcomplete]
  rfl

/-- The fields that the probe clears, format list and operations apart. -/
structure SameLive (t t' : PrinterTarget) : Prop where
  printerState : t'.printerState = t.printerState
  acceptingJobs : t'.acceptingJobs = t.acceptingJobs
  acceptingJobsKnown : t'.acceptingJobsKnown = t.acceptingJobsKnown
  stateReasons : t'.stateReasons = t.stateReasons
  pageRangesSupported : t'.pageRangesSupported = t.pageRangesSupported
  overridesDocumentNumber : t'.overridesDocumentNumber = t.overridesDocumentNumber
  overridesPages : t'.overridesPages = t.overridesPages
  ippEverywhere : t'.ippEverywhere = t.ippEverywhere

theorem SameLive.refl (t : PrinterTarget) : SameLive t t := ⟨rfl,rfl,rfl,rfl,rfl,rfl,rfl,rfl⟩

theorem SameLive.trans {t t' t'' : PrinterTarget} (h : SameLive t t') (h' : SameLive t' t'') :
    SameLive t t'' :=
  ⟨h'.1.trans h.1,h'.2.trans h.2,h'.3.trans h.3,h'.4.trans h.4,h'.5.trans h.5,h'.6.trans h.6,
    h'.7.trans h.7,h'.8.trans h.8⟩

theorem SameLive.ite {t a b : PrinterTarget} {c : Prop} [Decidable c] (ha : SameLive t a)
    (hb : SameLive t b) : SameLive t (if c then a else b) := by
  split
  · exact ha
  · exact hb

theorem sameLive_finalizeUrf (t : PrinterTarget) (token : Bytes) :
    SameLive t (finalizeUrf t token) := by
  unfold finalizeUrf
  extract_lets t1
  have h1 : SameLive t t1 := by
    refine SameLive.ite ?_ (.refl t)
    exact SameLive.ite ⟨rfl,rfl,rfl,rfl,rfl,rfl,rfl,rfl⟩ (.refl t)
  exact h1.trans (SameLive.ite ⟨rfl,rfl,rfl,rfl,rfl,rfl,rfl,rfl⟩ (.refl _))

theorem sameLive_finalize (t : PrinterTarget) : SameLive t (ippCodecFinalizeProfile t) := by
  have hurf : ∀ (tokens : List Bytes) t, SameLive t (tokens.foldl finalizeUrf t) := by
    intro tokens
    induction tokens with
    | nil => exact SameLive.refl
    | cons token tokens ih =>
      intro t
      exact (sameLive_finalizeUrf t token).trans (ih _)
  unfold ippCodecFinalizeProfile
  extract_lets t1 t2 t3 t4
  have h2 : SameLive t t2 := (hurf _ t).trans ⟨rfl,rfl,rfl,rfl,rfl,rfl,rfl,rfl⟩
  have h3 : SameLive t2 t3 := SameLive.ite ⟨rfl,rfl,rfl,rfl,rfl,rfl,rfl,rfl⟩ (.refl _)
  have h4 : SameLive t3 t4 := SameLive.ite ⟨rfl,rfl,rfl,rfl,rfl,rfl,rfl,rfl⟩ (.refl _)
  exact ((h2.trans h3).trans h4).trans
    (SameLive.ite ⟨rfl,rfl,rfl,rfl,rfl,rfl,rfl,rfl⟩ (.refl _))

section
variable (result : MdnsResult) (secure : Bool)

/-- Only the URF list implies operations. -/
theorem targetFromResult_operations :
    (targetFromResult result secure).operationsSupported = 0 ↔
      (targetOfTxt result secure).urf.val = [] := by
  have hbits := finalize_operations (targetOfTxt result secure)
  constructor
  · intro hzero
    by_contra hurf
    have hprint := (hbits Operation.printJob).mpr (.inr ⟨hurf,.inl rfl⟩)
    rw [targetFromResult] at hzero
    rw [hzero, Nat.zero_testBit] at hprint
    cases hprint
  · intro hurf
    apply Nat.zero_of_testBit_eq_false
    intro n
    rw [Bool.eq_false_iff]
    intro hn
    rcases (hbits n).mp hn with h | ⟨h,-⟩
    · simp [targetOfTxt, PrinterTarget.zero] at h
    · exact h hurf

/-- The format list aside, a discovered profile has two things that the probe clears: the
operations of a URF printer and the state in its TXT record. -/
theorem restorePdl_clearLive :
    restorePdl (targetFromResult result secure).pdl (clearLive (targetFromResult result secure)) =
        targetFromResult result secure ↔
      (targetOfTxt result secure).urf.val = [] ∧ (targetOfTxt result secure).printerState = 0 := by
  have hlive : SameLive (targetOfTxt result secure) (targetFromResult result secure) :=
    sameLive_finalize _
  rw [← targetFromResult_operations, ← hlive.printerState]
  constructor
  · intro h
    exact ⟨congrArg PrinterTarget.operationsSupported h.symm,
      congrArg PrinterTarget.printerState h.symm⟩
  · rintro ⟨hoperations,hstate⟩
    have haccepting : (targetFromResult result secure).acceptingJobs = false :=
      hlive.acceptingJobs
    have hknown : (targetFromResult result secure).acceptingJobsKnown = false :=
      hlive.acceptingJobsKnown
    have hreasons : (targetFromResult result secure).stateReasons = .empty := hlive.stateReasons
    have hranges : (targetFromResult result secure).pageRangesSupported = false :=
      hlive.pageRangesSupported
    have hnumber : (targetFromResult result secure).overridesDocumentNumber = false :=
      hlive.overridesDocumentNumber
    have hpages : (targetFromResult result secure).overridesPages = false := hlive.overridesPages
    have heverywhere : (targetFromResult result secure).ippEverywhere = false :=
      hlive.ippEverywhere
    clear hlive
    generalize targetFromResult result secure = t at *
    rw [restorePdl, clearLive, Text.copy_self]
    cases t
    simp only at hoperations hstate haccepting hknown hreasons hranges hnumber hpages heverywhere
    subst hoperations hstate haccepting hknown hreasons hranges hnumber hpages heverywhere
    rfl

end

/-- Nothing is lost to a failed probe: without a response that it merges, the DNS-SD record has
neither a URF list nor a printer state; else what the response puts into the cleared profile before
it breaks off is just what was cleared. -/
def KeepsDiscovered (query : Queries) (result : MdnsResult) (secure : Bool) : Prop :=
  let t := targetFromResult result secure
  match (acceptedResponse query t).filter fun response => ippHeaderLength ≤ response.length with
  | none => (targetOfTxt result secure).urf.val = [] ∧ (targetOfTxt result secure).printerState = 0
  | some response => restorePdl t.pdl (mergeResponse (clearLive t) response) = t

/-- A URF printer that does not answer queries. -/
def silentPrinter : MdnsResult where
  instanceName := some (octets "Acme")
  hostname := some (octets "acme")
  port := 631
  addresses := [.v4 (octets "192.168.1.20")]
  txt := [(octets "rp",some (octets "ipp/print")), (octets "pdl",some (octets "image/urf")),
    (octets "URF",some (octets "W8,SRGB24,RS300"))]

theorem silentPrinter_complete :
    (targetFromResult silentPrinter false).address.val ≠ [] ∧
    (targetFromResult silentPrinter false).resourcePath.val ≠ [] ∧
    (targetFromResult silentPrinter false).port ≠ 0 := by decide +kernel

end Espresso.Printer
