import Espresso.Lib.Octets

/-! The presence mask: which attributes of an upstream response need no synthesised stand-in.
Every name of the table has a bit of its own, so the mask records exactly the set of names seen. -/
namespace Espresso.Codec

namespace Present
abbrev versions : ℕ := 1 <<< 0
abbrev operations : ℕ := 1 <<< 1
abbrev printerUri : ℕ := 1 <<< 2
abbrev uriAuth : ℕ := 1 <<< 3
abbrev uriSecurity : ℕ := 1 <<< 4
abbrev uuid : ℕ := 1 <<< 5
abbrev name : ℕ := 1 <<< 6
abbrev info : ℕ := 1 <<< 7
abbrev makeModel : ℕ := 1 <<< 8
abbrev location : ℕ := 1 <<< 9
abbrev formats : ℕ := 1 <<< 10
abbrev formatDefault : ℕ := 1 <<< 11
abbrev urf : ℕ := 1 <<< 12
abbrev color : ℕ := 1 <<< 13
abbrev sides : ℕ := 1 <<< 14
abbrev copies : ℕ := 1 <<< 15
abbrev media : ℕ := 1 <<< 16
abbrev compression : ℕ := 1 <<< 17
abbrev multipleDocuments : ℕ := 1 <<< 18
abbrev mediaColDatabase : ℕ := 1 <<< 19
abbrev mediaColDefault : ℕ := 1 <<< 20
abbrev printColorMode : ℕ := 1 <<< 21
abbrev printColorDefault : ℕ := 1 <<< 22
abbrev resolution : ℕ := 1 <<< 23
abbrev resolutionDefault : ℕ := 1 <<< 24
abbrev jobCreation : ℕ := 1 <<< 25
abbrev printerState : ℕ := 1 <<< 26
abbrev stateReasons : ℕ := 1 <<< 27
abbrev acceptingJobs : ℕ := 1 <<< 28
abbrev charsetConfigured : ℕ := 1 <<< 29
abbrev charsetSupported : ℕ := 1 <<< 30
abbrev languageConfigured : ℕ := 1 <<< 31
abbrev languageSupported : ℕ := 1 <<< 32
abbrev moreInfo : ℕ := 1 <<< 33
abbrev upTime : ℕ := 1 <<< 34
abbrev pdlOverride : ℕ := 1 <<< 35
abbrev queuedJobCount : ℕ := 1 <<< 36
abbrev copiesDefault : ℕ := 1 <<< 37
abbrev mediaDefault : ℕ := 1 <<< 38
abbrev finishingsDefault : ℕ := 1 <<< 39
abbrev finishingsSupported : ℕ := 1 <<< 40
abbrev orientationDefault : ℕ := 1 <<< 41
abbrev orientationSupported : ℕ := 1 <<< 42
abbrev outputBinDefault : ℕ := 1 <<< 43
abbrev outputBinSupported : ℕ := 1 <<< 44
abbrev printQualityDefault : ℕ := 1 <<< 45
abbrev printQualitySupported : ℕ := 1 <<< 46
abbrev sidesDefault : ℕ := 1 <<< 47
abbrev pagesPerMinute : ℕ := 1 <<< 48
abbrev pagesPerMinuteColor : ℕ := 1 <<< 49
abbrev mediaColSupported : ℕ := 1 <<< 50
abbrev mediaColReady : ℕ := 1 <<< 51
abbrev mediaSourceSupported : ℕ := 1 <<< 52
abbrev mediaTypeSupported : ℕ := 1 <<< 53
abbrev printerInputTray : ℕ := 1 <<< 54
abbrev mandatoryJobAttributes : ℕ := 1 <<< 55
abbrev printScalingSupported : ℕ := 1 <<< 56
abbrev printScalingDefault : ℕ := 1 <<< 57
abbrev landscapePreferred : ℕ := 1 <<< 58
abbrev documentPasswordSupported : ℕ := 1 <<< 59
abbrev referenceUriSchemes : ℕ := 1 <<< 60
abbrev mediaKeySupported : ℕ := 1 <<< 61
abbrev mediaSizeSupported : ℕ := 1 <<< 62
end Present

/-- The names that take part in the presence mask, each with its bit. -/
def presenceTable : List (String × ℕ) :=
  [("ipp-versions-supported",Present.versions), ("operations-supported",Present.operations),
   ("printer-uri-supported",Present.printerUri), ("uri-authentication-supported",Present.uriAuth),
   ("uri-security-supported",Present.uriSecurity), ("printer-uuid",Present.uuid),
   ("printer-name",Present.name), ("printer-info",Present.info),
   ("printer-make-and-model",Present.makeModel), ("printer-location",Present.location),
   ("document-format-supported",Present.formats),
   ("document-format-default",Present.formatDefault), ("urf-supported",Present.urf),
   ("color-supported",Present.color), ("sides-supported",Present.sides),
   ("copies-supported",Present.copies), ("media-supported",Present.media),
   ("compression-supported",Present.compression),
   ("multiple-document-jobs-supported",Present.multipleDocuments),
   ("media-col-database",Present.mediaColDatabase), ("media-col-default",Present.mediaColDefault),
   ("print-color-mode-supported",Present.printColorMode),
   ("print-color-mode-default",Present.printColorDefault),
   ("printer-resolution-supported",Present.resolution),
   ("printer-resolution-default",Present.resolutionDefault),
   ("job-creation-attributes-supported",Present.jobCreation),
   ("printer-state",Present.printerState), ("printer-state-reasons",Present.stateReasons),
   ("printer-is-accepting-jobs",Present.acceptingJobs),
   ("charset-configured",Present.charsetConfigured),
   ("charset-supported",Present.charsetSupported),
   ("natural-language-configured",Present.languageConfigured),
   ("generated-natural-language-supported",Present.languageSupported),
   ("printer-more-info",Present.moreInfo), ("printer-up-time",Present.upTime),
   ("pdl-override-supported",Present.pdlOverride), ("queued-job-count",Present.queuedJobCount),
   ("copies-default",Present.copiesDefault), ("media-default",Present.mediaDefault),
   ("finishings-default",Present.finishingsDefault),
   ("finishings-supported",Present.finishingsSupported),
   ("orientation-requested-default",Present.orientationDefault),
   ("orientation-requested-supported",Present.orientationSupported),
   ("output-bin-default",Present.outputBinDefault),
   ("output-bin-supported",Present.outputBinSupported),
   ("print-quality-default",Present.printQualityDefault),
   ("print-quality-supported",Present.printQualitySupported),
   ("sides-default",Present.sidesDefault), ("pages-per-minute",Present.pagesPerMinute),
   ("pages-per-minute-color",Present.pagesPerMinuteColor),
   ("media-col-supported",Present.mediaColSupported), ("media-col-ready",Present.mediaColReady),
   ("media-source-supported",Present.mediaSourceSupported),
   ("media-type-supported",Present.mediaTypeSupported),
   ("printer-input-tray",Present.printerInputTray),
   ("printer-mandatory-job-attributes",Present.mandatoryJobAttributes),
   ("print-scaling-supported",Present.printScalingSupported),
   ("print-scaling-default",Present.printScalingDefault),
   ("landscape-orientation-requested-preferred",Present.landscapePreferred),
   ("document-password-supported",Present.documentPasswordSupported),
   ("reference-uri-schemes-supported",Present.referenceUriSchemes),
   ("media-key-supported",Present.mediaKeySupported),
   ("media-size-supported",Present.mediaSizeSupported)]

def attributePresence (name : Bytes) : ℕ :=
  match presenceTable.find? fun entry => octets entry.1 = name with
  | some entry => entry.2
  | none => 0

theorem presenceTable_names_nodup : (presenceTable.map Prod.fst).Nodup := by decide +kernel

/-- The bits are handed out in order. -/
theorem presenceTable_flags :
    presenceTable.map Prod.snd = (List.range presenceTable.length).map (1 <<< ·) := by decide +kernel

theorem one_shiftLeft_and (i j : ℕ) : (1 <<< i) &&& (1 <<< j) = 0 ↔ i ≠ j := by
  simp only [Nat.one_shiftLeft]
  constructor
  · rintro h rfl
    simp at h
  · intro h
    apply Nat.eq_of_testBit_eq
    intro k
    simp only [Nat.testBit_and, Nat.testBit_two_pow, Nat.zero_testBit]
    by_cases hk : i = k
    · simp [show ¬ j = k by omega]
    · simp [hk]

/-- Two entries share a bit only if they have one name. -/
theorem presenceTable_disjoint {e f : String × ℕ} (he : e ∈ presenceTable)
    (hf : f ∈ presenceTable) : e.2 &&& f.2 = 0 ↔ e.1 ≠ f.1 := by
  obtain ⟨i,hi,rfl⟩ := List.mem_iff_getElem.mp he
  obtain ⟨j,hj,rfl⟩ := List.mem_iff_getElem.mp hf
  have hflag : ∀ k (hk : k < presenceTable.length), presenceTable[k].2 = 1 <<< k := by
    intro k hk
    have h := congrArg (fun l => l[k]?) presenceTable_flags
    simpa [List.getElem?_map, List.getElem?_eq_getElem hk, List.getElem?_range hk] using h
  rw [hflag i hi, hflag j hj, one_shiftLeft_and, ne_eq, ne_eq, not_iff_not]
  constructor
  · rintro rfl; rfl
  · intro h
    have hentry := List.inj_on_of_nodup_map presenceTable_names_nodup he hf h
    have hbits : 1 <<< i = 1 <<< j := by rw [← hflag i hi, ← hflag j hj, hentry]
    rw [Nat.one_shiftLeft, Nat.one_shiftLeft] at hbits
    exact Nat.pow_right_injective (le_refl 2) hbits

theorem attributePresence_of_mem {e : String × ℕ} (h : e ∈ presenceTable) :
    attributePresence (octets e.1) = e.2 := by
  have hfind : presenceTable.find? (fun entry => octets entry.1 = octets e.1) = some e := by
    obtain ⟨e',he'⟩ := Option.isSome_iff_exists.mp
      (List.find?_isSome.mpr ⟨e,h,by simp⟩ :
        (presenceTable.find? fun entry => decide (octets entry.1 = octets e.1)).isSome)
    have hmem := List.mem_of_find?_eq_some he'
    have hname : e'.1 = e.1 := by simpa using List.find?_some he'
    rw [he', List.inj_on_of_nodup_map presenceTable_names_nodup hmem h hname]
  rw [attributePresence, hfind]

theorem attributePresence_of_notMem {name : Bytes}
    (h : ∀ e ∈ presenceTable, octets e.1 ≠ name) : attributePresence name = 0 := by
  have hfind : presenceTable.find? (fun entry => octets entry.1 = name) = none := by
    apply List.find?_eq_none.mpr
    intro e he
    simpa using h e he
  rw [attributePresence, hfind]

/-- The bit of a table name is set by that name alone. -/
theorem attributePresence_and {e : String × ℕ} (h : e ∈ presenceTable) (name : Bytes) :
    attributePresence name &&& e.2 = 0 ↔ name ≠ octets e.1 := by
  by_cases hn : ∃ f ∈ presenceTable, octets f.1 = name
  · obtain ⟨f,hf,rfl⟩ := hn
    rw [attributePresence_of_mem hf, presenceTable_disjoint hf h, ne_eq, ne_eq, octets_inj]
  · push Not at hn
    rw [attributePresence_of_notMem hn]
    simpa using (hn e h).symm

/-- The mask after a list of attribute names has gone by. -/
def presenceOf (names : List Bytes) : ℕ :=
  names.foldl (fun present name => present ||| attributePresence name) 0

theorem or_and_eq_zero (a b c : ℕ) : (a ||| b) &&& c = 0 ↔ a &&& c = 0 ∧ b &&& c = 0 := by
  rw [Nat.and_or_distrib_right, Nat.or_eq_zero_iff]

theorem foldl_presence_and {e : String × ℕ} (h : e ∈ presenceTable) (names : List Bytes)
    (start : ℕ) :
    names.foldl (fun present name => present ||| attributePresence name) start &&& e.2 = 0 ↔
      start &&& e.2 = 0 ∧ octets e.1 ∉ names := by
  induction names generalizing start with
  | nil => simp
  | cons name names ih =>
    rw [List.foldl_cons, ih, or_and_eq_zero, attributePresence_and h, List.mem_cons, not_or]
    constructor
    · rintro ⟨⟨h1,h2⟩,h3⟩; exact ⟨h1,Ne.symm h2,h3⟩
    · rintro ⟨h1,h2,h3⟩; exact ⟨⟨h1,Ne.symm h2⟩,h3⟩

/-- A bit of the mask is clear exactly when its attribute has not been seen. -/
theorem presenceOf_and {e : String × ℕ} (h : e ∈ presenceTable) (names : List Bytes) :
    presenceOf names &&& e.2 = 0 ↔ octets e.1 ∉ names := by
  rw [presenceOf, foldl_presence_and h]
  simp

end Espresso.Codec
