import Espresso.Codec.CommaList
import Espresso.Codec.Fields

/-! Relations between the fields of a profile, which hold whatever the printer answers. -/
namespace Espresso.Codec

/-! ### Texts -/

/-- The texts of a profile, with the sizes of their arrays. -/
def PrinterTarget.texts (t : PrinterTarget) : List (ℕ × Bytes) :=
  [(64,t.instanceName.val), (64,t.hostname.val), (48,t.address.val), (128,t.resourcePath.val),
   (256,t.pdl.val), (160,t.urf.val), (384,t.media.val), (64,t.mediaDefault.val), (96,t.label.val),
   (96,t.location.val), (64,t.uuid.val), (32,t.ippVersions.val), (16,t.colorModeDefault.val),
   (192,t.stateReasons.val), (256,t.adminUrl.val)]

/-- The text and its NUL fit into the array. -/
def Terminated (text : ℕ × Bytes) : Prop := 0 ∉ text.2 ∧ text.2.length < text.1

theorem terminated {n : ℕ} (text : Text (n + 1)) : Terminated (n + 1,text.val) :=
  ⟨text.property.1,Nat.lt_succ_of_le text.property.2⟩

theorem texts_terminated (t : PrinterTarget) : ∀ text ∈ t.texts, Terminated text := by
  simp only [PrinterTarget.texts, List.forall_mem_cons]
  exact ⟨terminated _,terminated _,terminated _,terminated _,terminated _,terminated _,
    terminated _,terminated _,terminated _,terminated _,terminated _,terminated _,terminated _,
    terminated _,terminated _,fun _ h => absurd h List.not_mem_nil⟩

/-! ### Lists that start with an entry -/

/-- A list is empty or starts with an entry. -/
def StartsClean (csv : Bytes) : Prop := ∀ c, csv.head? = some c → isspace c = false ∧ c ≠ comma

theorem startsClean_csvAdd {n : ℕ} {csv : Text n} (h : StartsClean csv.val) {piece : Bytes}
    (hpiece : comma ∉ piece) : StartsClean (csvAdd csv piece).val := by
  by_cases hr : Refuses csv piece
  · rwa [csvAdd_of_refuses hr]
  rw [csvAdd_of_not_refuses hr]
  intro c hc
  by_cases hnil : csv.val = []
  · rw [hnil, if_pos rfl, List.nil_append, List.nil_append] at hc
    have hhead : (trim piece).head? = some c := by
      cases htrim : trim piece with
      | nil =>
        rw [htrim] at hc
        cases hc
      | cons d rest =>
        rw [htrim, cstr, List.takeWhile_cons] at hc
        split at hc
        · exact hc
        · cases hc
    obtain ⟨rest,hrest⟩ := List.head?_eq_some_iff.mp hhead
    refine ⟨isspace_of_trim_cons hrest,?_⟩
    rintro rfl
    exact hpiece ((trim_sublist piece).subset (hrest ▸ List.mem_cons_self))
  · obtain ⟨d,rest,hcons⟩ := List.exists_cons_of_ne_nil hnil
    have hd : d ≠ 0 := fun h0 => csv.property.1 (hcons ▸ h0 ▸ List.mem_cons_self)
    apply h c
    rw [hcons, List.cons_append, List.cons_append, cstr, List.takeWhile_cons,
      if_pos (by simpa using hd)] at hc
    rw [hcons]
    exact hc

theorem startsClean_addTo {n : ℕ} {csv : Text n} (h : StartsClean csv.val) (value : Option Bytes) :
    StartsClean (addTo csv value).val := by
  cases value with
  | none => exact h
  | some value =>
    have hfold : ∀ (parts : List Bytes) (csv : Text n), (∀ part ∈ parts, comma ∉ part) →
        StartsClean csv.val → StartsClean (parts.foldl csvAdd csv).val := by
      intro parts
      induction parts with
      | nil => exact fun _ _ h => h
      | cons part parts ih =>
        intro csv hparts h
        exact ih _ (fun p hp => hparts p (List.mem_cons_of_mem _ hp))
          (startsClean_csvAdd h (hparts part List.mem_cons_self))
    exact hfold _ csv (fun part hpart => (part_of_splitOn hpart).1) h

/-- Such a list has a first entry. -/
theorem firstMedia_ne_nil {media : Text 384} (h : StartsClean media.val) (hne : media.val ≠ []) :
    (firstMedia media).val ≠ [] := by
  obtain ⟨c,rest,hcons⟩ := List.exists_cons_of_ne_nil hne
  obtain ⟨hspace,hcomma⟩ := h c (by rw [hcons]; rfl)
  have h0 : c ≠ 0 := fun h0 => media.property.1 (hcons ▸ h0 ▸ List.mem_cons_self)
  have hspan : media.val.takeWhile (· ≠ comma) = c :: rest.takeWhile (· ≠ comma) := by
    rw [hcons, List.takeWhile_cons, if_pos (by simpa using hcomma)]
  obtain ⟨d,entry,hentry⟩ := List.exists_cons_of_ne_nil
    (trimEnd_ne_nil hspace (rest.takeWhile (· ≠ comma)))
  have hd : d = c := by
    have hprefix := trimEnd_isPrefix (c :: rest.takeWhile (· ≠ comma))
    rw [hentry] at hprefix
    exact (List.cons_prefix_cons.mp hprefix).1
  rw [firstMedia, hspan, hentry, hd]
  change cstr ((c :: entry).take 63) ≠ []
  rw [List.take_succ_cons, cstr, List.takeWhile_cons, if_pos (by simpa using h0)]
  exact List.cons_ne_nil _ _

/-! ### Every profile -/

/-- What holds of a profile at any time. -/
structure Related (t : PrinterTarget) : Prop where
  resolutions : t.resolutionLowDpi = 0 ↔ t.resolutionHighDpi = 0
  legacy : t.legacyOutputMode = true → t.hasCap JobCap.printColorMode = false
  copies : 1 < t.copiesUpper → t.hasCap JobCap.copies = true
  texts : ∀ text ∈ t.texts, Terminated text

/-- What holds besides when it has just been finalised. -/
structure Settled (t : PrinterTarget) : Prop where
  printJob : t.urf.val ≠ [] → t.operationsSupported.testBit Operation.printJob = true
  getPrinterAttributes : t.urf.val ≠ [] →
    t.operationsSupported.testBit Operation.getPrinterAttributes = true
  copies : t.urf.val ≠ [] → 1 ≤ t.copiesUpper
  media : t.media.val ≠ [] → t.mediaDefault.val ≠ []

theorem capability_of_not_colorMode {r : Record}
    (h : r.attributeName ≠ octets "print-color-mode-supported") :
    r.capability &&& JobCap.printColorMode = 0 := by
  rw [Record.capability, if_neg h]
  split_ifs <;> decide

/-- The legacy mode is for printers without print-color-mode. -/
theorem Probed.legacy {inputs : List Bytes} {t : PrinterTarget} (h : Probed inputs t) :
    t.legacyOutputMode = true → t.hasCap JobCap.printColorMode = false := by
  refine Probed.induct
    (P := fun _ t => t.legacyOutputMode = true → t.hasCap JobCap.printColorMode = false)
    ?_ ?_ ?_ ?_ ?_ h
  · intro result secure hlegacy
    cases hlegacy
  · intro inputs t ih
    rw [ippCodecFinalizeProfile_eq]
    exact ih
  · intro input inputs t ih
    exact ih
  · intro input inputs t r _ ih hlegacy
    rw [mergeRecord_eq] at hlegacy ⊢
    change mergedLegacy t.jobTemplateCapabilities t.legacyOutputMode r = true at hlegacy
    have hstill : t.jobTemplateCapabilities &&& JobCap.printColorMode = 0 →
        (mergedRecord t r).hasCap JobCap.printColorMode = false := by
      intro hbit
      have hname : r.attributeName ≠ octets "print-color-mode-supported" := by
        intro hname
        rw [mergedLegacy, if_pos hname] at hlegacy
        cases hlegacy
      rw [PrinterTarget.hasCap, decide_eq_false_iff_not, not_not]
      change (t.jobTemplateCapabilities ||| r.capability) &&& JobCap.printColorMode = 0
      rw [Nat.and_or_distrib_right, hbit, capability_of_not_colorMode hname, Nat.or_self]
    by_cases hstarts : r.attributeName = octets "output-mode-supported" ∧
        t.jobTemplateCapabilities &&& JobCap.printColorMode = 0
    · exact hstill hstarts.2
    · have hold : t.legacyOutputMode = true := by
        rw [mergedLegacy, if_neg hstarts] at hlegacy
        split at hlegacy
        · cases hlegacy
        · exact hlegacy
      have hbit := ih hold
      rw [PrinterTarget.hasCap, decide_eq_false_iff_not, not_not] at hbit
      exact hstill hbit
  · intro input inputs t ih
    exact ih

theorem Probed.copies {inputs : List Bytes} {t : PrinterTarget} (h : Probed inputs t) :
    1 < t.copiesUpper → t.hasCap JobCap.copies = true := by
  refine Probed.induct (P := fun _ t => 1 < t.copiesUpper → t.hasCap JobCap.copies = true)
    ?_ ?_ ?_ ?_ ?_ h
  · intro result secure hcopies
    cases hcopies
  · intro inputs t ih
    exact (extends_finalize t).keepsCopies ih
  · intro input inputs t ih
    exact ih
  · intro input inputs t r _ ih
    exact (extends_applyValue t r.attributeName r.tag r.value).keepsCopies ih
  · intro input inputs t ih
    exact ih

theorem Probed.media {inputs : List Bytes} {t : PrinterTarget} (h : Probed inputs t) :
    StartsClean t.media.val := by
  refine Probed.induct (P := fun _ t => StartsClean t.media.val) ?_ ?_ ?_ ?_ ?_ h
  · intro result secure c hc
    cases hc
  · intro inputs t ih
    rw [ippCodecFinalizeProfile_eq]
    exact ih
  · intro input inputs t ih
    exact ih
  · intro input inputs t r _ ih
    rw [mergeRecord_eq]
    exact startsClean_addTo ih _
  · intro input inputs t ih
    exact ih

theorem settled_finalize {t : PrinterTarget} (h : StartsClean t.media.val) :
    Settled (ippCodecFinalizeProfile t) := by
  have hurf : (ippCodecFinalizeProfile t).urf = t.urf := by
    rw [ippCodecFinalizeProfile_eq]
    rfl
  refine ⟨fun hne => ?_,fun hne => ?_,fun hne => ?_,fun hne => ?_⟩
  · exact (finalize_operations t _).mpr (.inr ⟨hurf ▸ hne,.inl rfl⟩)
  · exact (finalize_operations t _).mpr (.inr ⟨hurf ▸ hne,.inr rfl⟩)
  · rw [hurf] at hne
    rw [ippCodecFinalizeProfile_eq]
    change 1 ≤ if t.urf.val ≠ [] ∧ t.copiesUpper = 0 then 1 else t.copiesUpper
    split
    · exact le_refl 1
    · rename_i hcopies
      have : t.copiesUpper ≠ 0 := fun h0 => hcopies ⟨hne,h0⟩
      omega
  · rw [ippCodecFinalizeProfile_eq] at hne ⊢
    change t.media.val ≠ [] at hne
    change (if t.mediaDefault.val = [] ∧ t.media.val ≠ [] then firstMedia t.media
      else t.mediaDefault).val ≠ []
    split
    · exact firstMedia_ne_nil h hne
    · rename_i hdefault
      exact fun h0 => hdefault ⟨h0,hne⟩

/-- A default that finalisation fills in is filled in as before. -/
theorem fill_again {α : Type} (missing : α → Prop) [DecidablePred missing] (c : Prop) [Decidable c]
    (x filled : α) :
    (if missing (if missing x ∧ c then filled else x) ∧ c then filled
      else if missing x ∧ c then filled else x) = if missing x ∧ c then filled else x := by
  by_cases h : missing x ∧ c
  · rw [if_pos h, ite_self]
  · rw [if_neg h, if_neg h]

theorem finalize_finalize (t : PrinterTarget) :
    ippCodecFinalizeProfile (ippCodecFinalizeProfile t) = ippCodecFinalizeProfile t := by
  simp only [ippCodecFinalizeProfile_eq]
  have hagain : ∀ (x : Option ℕ) d, x.getD (x.getD d) = x.getD d := by
    intro x d
    cases x <;> rfl
  apply PrinterTarget.ext
  case mediaDefault => exact fill_again (fun m : Text 64 => m.val = []) (t.media.val ≠ []) _ _
  case ippVersions =>
    exact fill_again (fun v : Text 32 => v.val = []) (t.upstreamIppMajor ≠ 0) _ (upstreamVersion t)
  case operationsSupported =>
    simp only [finalizedProfile]
    split
    · rw [Nat.or_assoc, Nat.or_self]
    · rfl
  case copiesUpper =>
    simp only [finalizedProfile]
    by_cases h : t.urf.val ≠ [] ∧ t.copiesUpper = 0
    · simp only [eq_true h, if_true, Nat.one_ne_zero, and_false, if_false]
    · simp only [h, if_false]
  case resolutionLowDpi => exact hagain _ _
  case resolutionHighDpi => exact hagain _ _
  case color =>
    simp only [finalizedProfile]
    rw [← Bool.or_assoc, Bool.or_self]
  case copies =>
    simp only [finalizedProfile]
    by_cases h : t.urf.val ≠ [] ∧ t.copiesUpper = 0
    · simp only [eq_true h, if_true]
      simp [h.2]
    · simp only [h, if_false, Bool.or_assoc, Bool.or_self]
  all_goals rfl

/-- The relations hold of every profile that discovery and probing lead to, and finalising it
changes it only once. -/
theorem Probed.relations {inputs : List Bytes} {t : PrinterTarget} (h : Probed inputs t) :
    Related t ∧ Settled (ippCodecFinalizeProfile t) ∧
      (∀ input t', ippCodecApplyPrinterAttributes input t = .ok t' → Settled t') ∧
      ippCodecFinalizeProfile (ippCodecFinalizeProfile t) = ippCodecFinalizeProfile t := by
  refine ⟨⟨h.resolutions,h.legacy,h.copies,texts_terminated t⟩,settled_finalize h.media,
    fun input t' happly => ?_,finalize_finalize t⟩
  have hmedia := (h.probed (.inl happly)).media
  have hlen : ¬ input.length < ippHeaderLength := by
    intro hlen
    rw [ippCodecApplyPrinterAttributes, if_pos hlen] at happly
    cases happly
  rw [ippCodecApplyPrinterAttributes_eq hlen] at happly
  split at happly
  · cases happly
    rw [ippCodecFinalizeProfile_eq] at hmedia
    exact settled_finalize hmedia
  · cases happly

/-- A colour laser printer found by DNS-SD. -/
def laserPrinter : MdnsResult where
  instanceName := some (octets "Laser")
  hostname := some (octets "laser")
  port := 631
  addresses := [.v4 (octets "192.168.1.30")]
  txt := [(octets "rp",some (octets "ipp/print")), (octets "Copies",some (octets "T")),
    (octets "URF",some (octets "W8,SRGB24,RS300-600"))]

theorem Probed.relations_laser :
    Related (targetFromResult laserPrinter true) ∧
      Settled (ippCodecFinalizeProfile (targetFromResult laserPrinter true)) ∧
      (∀ input t', ippCodecApplyPrinterAttributes input (targetFromResult laserPrinter true) =
        .ok t' → Settled t') ∧
      ippCodecFinalizeProfile (ippCodecFinalizeProfile (targetFromResult laserPrinter true)) =
        ippCodecFinalizeProfile (targetFromResult laserPrinter true) :=
  Probed.relations (.finalized (.discovered laserPrinter true))

end Espresso.Codec
