import Espresso.Codec.Profile
import Espresso.Codec.Record

/-! Profiles as the bridge comes to know them: built from a DNS-SD result, then merged with
capability responses. -/
namespace Espresso.Codec

/-- An address of a DNS-SD result, as `IPSTR` and `IPV6STR` print it. -/
inductive MdnsAddress
  | v4 (text : Bytes)
  | v6 (text : Bytes)

/-- The parts of `mdns_result_t` that are read. -/
structure MdnsResult where
  instanceName : Option Bytes
  hostname : Option Bytes
  port : ℕ
  addresses : List MdnsAddress
  txt : List (Bytes × Option Bytes)

/-- The value of a TXT key, if there is one; a key without value counts as empty. -/
def txtFind (result : MdnsResult) (key : String) : Option Bytes :=
  (result.txt.find? fun item => strcasecmp item.1 (octets key)).map fun item => item.2.getD []

def txtGet (result : MdnsResult) (key : String) (n : ℕ) : Text n :=
  .copy n ((txtFind result key).getD [])

def textIsTrue (value : Bytes) : Bool :=
  strcasecmp value (octets "T") || strcasecmp value (octets "true") || value = octets "1"

def safeWebUrl (value : Bytes) : Bool :=
  ((octets "http://").isPrefixOf value || (octets "https://").isPrefixOf value) &&
  value.all fun c => !(c < 0x20 || c = 0x7f)

/-- The first IPv4 address, else the first IPv6 address. -/
def firstAddress (addresses : List MdnsAddress) : Bytes :=
  match addresses.findSome? fun a => match a with | .v4 text => some text | .v6 _ => none with
  | some text => text
  | none => (addresses.findSome? fun a => match a with
    | .v6 text => some text | .v4 _ => none).getD []

def resourcePathOf (path : Bytes) : Text 128 :=
  match path with
  | [] => .copy 128 (octets "/ipp/print")
  | c :: cs => if c = 0x2f then .copy 128 (c :: cs) else .copy 128 (0x2f :: c :: cs)

/-- The profile before `ipp_codec_finalize_profile`. -/
def targetOfTxt (result : MdnsResult) (secure : Bool) : PrinterTarget :=
  let instanceName : Text 64 := .copy 64 (result.instanceName.getD (octets "IPP printer"))
  let flag (key : String) : Bool := textIsTrue (txtGet result key 12).val
  let adminUrl := txtGet result "adminurl" 256
  let state := (strtoul (txtGet result "printer-state" 12).val).1
  { PrinterTarget.zero with
    profileSchema := espressoProfileSchema
    secureTransport := secure
    instanceName := instanceName
    hostname := .copy 64 (result.hostname.getD [])
    port := if result.port = 0 then 631 else result.port
    address := .copy 48 (firstAddress result.addresses)
    resourcePath := resourcePathOf (txtGet result "rp" 128).val
    pdl := txtGet result "pdl" 256
    urf := txtGet result "URF" 160
    label := if (txtFind result "ty").isSome then txtGet result "ty" 96
      else .copy 96 instanceName.val
    uuid := txtGet result "UUID" 64
    color := flag "Color"
    duplex := flag "Duplex"
    copies := flag "Copies"
    collate := flag "Collate"
    location := txtGet result "note" 96
    adminUrl := if safeWebUrl adminUrl.val then adminUrl else .empty
    printerState := if 3 ≤ state ∧ state ≤ 5 then UInt8.ofNat state else 0 }

def targetFromResult (result : MdnsResult) (secure : Bool) : PrinterTarget :=
  ippCodecFinalizeProfile (targetOfTxt result secure)

/-! ### What merging can do to the recorded capabilities -/

/-- Merging records capabilities and drops none; a copies limit above one comes with the copies
capability. -/
structure Extends (t t' : PrinterTarget) : Prop where
  caps : ∀ capability, t.hasCap capability = true → t'.hasCap capability = true
  copies : t'.copiesUpper ≤ 1 ∨ t'.copiesUpper = t.copiesUpper ∨ t'.hasCap JobCap.copies = true

theorem Extends.of_same {t t' : PrinterTarget}
    (hcaps : t'.jobTemplateCapabilities = t.jobTemplateCapabilities)
    (hcopies : t'.copiesUpper ≤ 1 ∨ t'.copiesUpper = t.copiesUpper) : Extends t t' := by
  refine ⟨fun capability h => ?_,hcopies.imp_right .inl⟩
  rwa [PrinterTarget.hasCap_congr hcaps]

theorem Extends.of_withCap {t t' : PrinterTarget} (capability : ℕ)
    (hcaps : t'.jobTemplateCapabilities = (t.withCap capability).jobTemplateCapabilities)
    (hcopies : t'.copiesUpper = t.copiesUpper ∨ capability = JobCap.copies) : Extends t t' := by
  refine ⟨fun other h => ?_,.inr (hcopies.imp_right ?_)⟩
  · rw [PrinterTarget.hasCap_congr hcaps]
    exact t.hasCap_withCap capability other h
  · rintro rfl
    rw [PrinterTarget.hasCap_congr hcaps]
    exact t.hasCap_withCap_self (by decide)

theorem Extends.refl (t : PrinterTarget) : Extends t t := .of_same rfl (.inr rfl)

theorem Extends.trans {t t' t'' : PrinterTarget} (h : Extends t t') (h' : Extends t' t'') :
    Extends t t'' := by
  refine ⟨fun capability hc => h'.caps capability (h.caps capability hc),?_⟩
  rcases h'.copies with h1 | h1 | h1
  · exact .inl h1
  · rw [h1]
    rcases h.copies with h2 | h2 | h2
    · exact .inl h2
    · exact .inr (.inl h2)
    · exact .inr (.inr (h'.caps _ h2))
  · exact .inr (.inr h1)

/-- A copies limit above one goes on coming with the capability. -/
theorem Extends.keepsCopies {t t' : PrinterTarget} (h : Extends t t')
    (hold : 1 < t.copiesUpper → t.hasCap JobCap.copies = true) (hnew : 1 < t'.copiesUpper) :
    t'.hasCap JobCap.copies = true := by
  rcases h.copies with h1 | h1 | h1
  · omega
  · exact h.caps _ (hold (h1 ▸ hnew))
  · exact h1

theorem Extends.ite {t a b : PrinterTarget} {c : Prop} [Decidable c] (ha : Extends t a)
    (hb : Extends t b) : Extends t (if c then a else b) := by
  split
  · exact ha
  · exact hb

theorem Extends.colorIf {t a : PrinterTarget} {condition : Bool} (h : Extends t a) :
    Extends t (colorIf a condition) := by
  unfold Codec.colorIf
  split
  · exact ⟨h.caps,h.copies⟩
  · exact h

/-- One value of the response. Only the copies limit needs a look: it is set together with its
capability. -/
theorem extends_applyValue (t : PrinterTarget) (name : Bytes) (tag : UInt8) (value : Bytes) :
    Extends t (applyValue t name tag value) := by
  unfold applyValue
  repeat' first
    | with_reducible apply Extends.ite
    | with_reducible apply Extends.colorIf
    | exact Extends.of_same rfl (.inr rfl)
    | exact Extends.of_withCap _ rfl (.inl rfl)
  · split
    · exact .of_same rfl (.inr rfl)
    · exact .of_same rfl (.inr rfl)
  · exact .of_withCap JobCap.copies rfl (.inr rfl)

theorem extends_readItems (t : PrinterTarget) (current : Bytes) (items : List Item) :
    Extends t (Walker.readItems (fun t _ => t) applyValue t current items) := by
  induction items generalizing t current with
  | nil => exact .refl t
  | cons i is ih =>
    cases i with
    | group tag => exact ih t []
    | value tag name value => exact (extends_applyValue t _ tag value).trans (ih _ _)

theorem finalizeUrf_capabilities (t : PrinterTarget) (tokens : List Bytes) :
    (tokens.foldl finalizeUrf t).jobTemplateCapabilities = t.jobTemplateCapabilities ∧
      (tokens.foldl finalizeUrf t).copiesUpper = t.copiesUpper ∧
      (tokens.foldl finalizeUrf t).duplex = t.duplex := by
  induction tokens generalizing t with
  | nil => exact ⟨rfl,rfl,rfl⟩
  | cons token tokens ih =>
    obtain ⟨h1,h2,h3⟩ := ih (finalizeUrf t token)
    rw [List.foldl_cons, h1, h2, h3]
    unfold finalizeUrf
    and_intros
    all_goals
      simp only
      split_ifs <;> rfl

theorem extends_finalize (t : PrinterTarget) : Extends t (ippCodecFinalizeProfile t) := by
  unfold ippCodecFinalizeProfile
  extract_lets t1 t2 t3 t4
  obtain ⟨hcaps,hcopies,-⟩ := finalizeUrf_capabilities t (csvTokens t.urf.val)
  have h1 : Extends t t1 := .of_same hcaps (.inr hcopies)
  have h2 : Extends t t2 := ⟨h1.caps,h1.copies⟩
  have h3 : Extends t t3 := by
    refine .ite (h2.trans (.of_same rfl ?_)) h2
    by_cases h0 : t2.copiesUpper = 0
    · exact .inl (by simp [h0])
    · exact .inr (by simp [h0])
  have h4 : Extends t t4 := .ite ⟨h3.caps,h3.copies⟩ h3
  exact .ite ⟨h4.caps,h4.copies⟩ h4

theorem extends_applyTo (e : Envelope) (t : PrinterTarget) : Extends t (e.applyTo t) := by
  have hheader : Extends t (applyHeader t e.header) := .of_same rfl (.inr rfl)
  exact (hheader.trans (extends_readItems _ [] e.items)).trans (extends_finalize _)

/-- A call that fails half-way has merged what it read until then. -/
theorem extends_error {input : Bytes} {t t' : PrinterTarget} {f : CodecError}
    (h : ippCodecApplyPrinterAttributes input t = .error (f,t')) : Extends t t' := by
  unfold ippCodecApplyPrinterAttributes at h
  split at h
  · cases h
    exact .refl t
  · split at h
    · rename_i hwalk
      cases h
      have hheader : Extends t (applyHeader t input) := .of_same rfl (.inr rfl)
      obtain ⟨s,f',hs,heq⟩ := Walker.reader_walk_error _ _ _ (fun _ _ h => h)
        (fun s current tag value h => h.trans (extends_applyValue s current tag value))
        hwalk hheader
      cases heq
      exact hs
    · cases h

/-! ### Reachable profiles -/

/-- What selection, persistence and address refresh may change: not the job options. -/
structure SameOptions (t t' : PrinterTarget) : Prop where
  capabilities : t'.jobTemplateCapabilities = t.jobTemplateCapabilities
  copiesUpper : t'.copiesUpper = t.copiesUpper
  duplex : t'.duplex = t.duplex

/-- Profiles that discovery and merging lead to, with the responses that were merged. -/
inductive Reachable : List Envelope → PrinterTarget → Prop
  | discovered (result : MdnsResult) (secure : Bool) : Reachable [] (targetFromResult result secure)
  | merged {es : List Envelope} {t : PrinterTarget} (e : Envelope) (h : Reachable es t) :
    Reachable (e :: es) (e.applyTo t)
  | failed {es : List Envelope} {t t' : PrinterTarget} {input : Bytes} {f : CodecError}
    (h : Reachable es t) (happly : ippCodecApplyPrinterAttributes input t = .error (f,t')) :
    Reachable es t'
  | edited {es : List Envelope} {t t' : PrinterTarget} (h : Reachable es t)
    (hsame : SameOptions t t') : Reachable es t'

/-- The copies limit of a reachable profile exceeds one only if a printer said so. -/
theorem Reachable.copies {es : List Envelope} {t : PrinterTarget} (h : Reachable es t)
    (hcopies : 1 < t.copiesUpper) : t.hasCap JobCap.copies = true := by
  induction h with
  | discovered result secure =>
    have hext := extends_finalize (targetOfTxt result secure)
    exact hext.keepsCopies (fun h => absurd h (by simp [targetOfTxt, PrinterTarget.zero])) hcopies
  | merged e _ ih => exact (extends_applyTo e _).keepsCopies ih hcopies
  | failed _ happly ih => exact (extends_error happly).keepsCopies ih hcopies
  | edited _ hsame ih =>
    exact (Extends.of_same hsame.capabilities (.inr hsame.copiesUpper)).keepsCopies ih hcopies

/-! ### What a merged response leaves behind -/

/-- The attribute that records each capability. -/
def capabilitySources : List (String × ℕ) :=
  [("finishings-supported",JobCap.finishings),
   ("orientation-requested-supported",JobCap.orientation),
   ("output-bin-supported",JobCap.outputBin), ("print-quality-supported",JobCap.printQuality),
   ("sides-supported",JobCap.sides)]

/-- The record sets this capability. -/
def Record.Sets (r : Record) (capability : ℕ) : Prop :=
  (∃ c ∈ capabilitySources, r.attributeName = octets c.1 ∧ capability = c.2) ∨
    (r.attributeName = octets "copies-supported" ∧ r.tag = Tag.range ∧ r.value.length = 8 ∧
      capability = JobCap.copies)

theorem applyValue_sets {r : Record} {capability : ℕ} (h : r.Sets capability) (t : PrinterTarget) :
    (applyValue t r.attributeName r.tag r.value).hasCap capability = true := by
  have hset : ∀ {c : ℕ} {t' : PrinterTarget}, c ≠ 0 →
      t'.jobTemplateCapabilities = (t.withCap c).jobTemplateCapabilities → t'.hasCap c = true := by
    intro c t' hc hcaps
    rw [PrinterTarget.hasCap_congr hcaps]
    exact t.hasCap_withCap_self hc
  rcases h with ⟨c,hc,hname,rfl⟩ | ⟨hname,htag,hlen,rfl⟩
  · simp only [capabilitySources, List.mem_cons, List.not_mem_nil, or_false] at hc
    rcases hc with rfl | rfl | rfl | rfl | rfl
    all_goals
      rw [hname]
      simp only [applyValue, octets_inj, String.reduceEq, false_and, or_self, if_false, if_true]
    · exact hset (by decide) rfl
    · exact hset (by decide) rfl
    · exact hset (by decide) rfl
    · exact hset (by decide) rfl
    · split
      · exact hset (by decide) rfl
      · exact hset (by decide) rfl
  · rw [hname, htag]
    simp only [applyValue, octets_inj, String.reduceEq, false_and, or_self, if_false, hlen,
      if_true, and_self]
    exact hset (by decide) rfl

theorem readItems_sets {group : UInt8} {current : Bytes} {items : List Item} {r : Record}
    {capability : ℕ} (hr : r ∈ recordsFrom group current items) (h : r.Sets capability)
    (t : PrinterTarget) :
    (Walker.readItems (fun t _ => t) applyValue t (cstr current) items).hasCap capability = true := by
  induction items generalizing group current t with
  | nil => cases hr
  | cons i is ih =>
    cases i with
    | group tag => exact ih hr t
    | value tag name value =>
      rw [Walker.readItems, ← cstr_inheritName]
      rcases List.mem_cons.mp hr with rfl | hr
      · exact (extends_readItems _ _ is).caps _ (applyValue_sets h t)
      · exact ih hr _

/-- Whatever a merged response listed stays recorded. -/
theorem Reachable.caps {es : List Envelope} {t : PrinterTarget} (h : Reachable es t)
    {e : Envelope} (he : e ∈ es) {r : Record} (hr : r ∈ e.records) {capability : ℕ}
    (hsets : r.Sets capability) : t.hasCap capability = true := by
  induction h with
  | discovered => cases he
  | merged e' _ ih =>
    rcases List.mem_cons.mp he with rfl | he
    · exact (extends_finalize _).caps _ (readItems_sets hr hsets _)
    · exact (extends_applyTo e' _).caps _ (ih he)
  | failed _ happly ih => exact (extends_error happly).caps _ (ih he)
  | edited _ hsame ih => exact (Extends.of_same hsame.capabilities (.inr hsame.copiesUpper)).caps _ (ih he)

end Espresso.Codec
