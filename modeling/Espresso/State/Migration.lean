import Espresso.Lib.Layout
import Espresso.Codec.Profile

/-! `app_state_init`: the selected printer as it is restored from NVS, which may hold the profile
structure of an older firmware. A structure in memory is the list of its octets. -/
namespace Espresso.State
open Codec

/-! ### The structure in memory -/

/-- The members of `printer_target_t`, with the sizes and alignments of the target. -/
def printerTargetMembers : List Member :=
  let chars (name : String) (n : ℕ) : Member := ⟨name,n,1⟩
  let u8 (name : String) : Member := ⟨name,1,1⟩
  let u16 (name : String) : Member := ⟨name,2,2⟩
  [⟨"profile_schema",4,4⟩, chars "instance" 64, chars "hostname" 64, chars "address" 48,
   u16 "port", chars "resource_path" 128, chars "pdl" 256, chars "urf" 160, chars "media" 384,
   chars "media_default" 64, chars "label" 96, chars "location" 96, chars "uuid" 64,
   chars "ipp_versions" 32, chars "color_mode_default" 16, chars "state_reasons" 192,
   ⟨"operations_supported",8,8⟩, ⟨"job_template_capabilities",4,4⟩, u16 "copies_upper",
   u16 "resolution_low_dpi", u16 "resolution_high_dpi", u8 "upstream_ipp_major",
   u8 "upstream_ipp_minor", u8 "printer_state", u8 "capability_queried", u8 "accepting_jobs",
   u8 "accepting_jobs_known", u8 "color", u8 "duplex", u8 "copies", u8 "collate",
   u8 "legacy_output_mode", chars "admin_url" 256, u8 "secure_transport",
   u8 "page_ranges_supported", u8 "overrides_document_number", u8 "overrides_pages",
   u8 "ipp_everywhere"]

abbrev targetOffset (name : String) : ℕ := offsetof printerTargetMembers name

abbrev targetField (name : String) (memory : Bytes) : Bytes :=
  fieldOf printerTargetMembers name memory

abbrev targetSize : ℕ := structSize printerTargetMembers

def littleEndian (octets : Bytes) : ℕ := octets.foldr (fun b n => b.toNat + 256 * n) 0

/-- The profile in memory. Its arrays hold terminated strings. -/
def readTarget (memory : Bytes) : PrinterTarget :=
  let text (name : String) (n : ℕ) : Text n := .copy n (targetField name memory)
  let number (name : String) : ℕ := littleEndian (targetField name memory)
  let octet (name : String) : UInt8 := (targetField name memory).getD 0 0
  let flag (name : String) : Bool := octet name ≠ 0
  { profileSchema := number "profile_schema"
    instanceName := text "instance" 64
    hostname := text "hostname" 64
    address := text "address" 48
    port := number "port"
    resourcePath := text "resource_path" 128
    pdl := text "pdl" 256
    urf := text "urf" 160
    media := text "media" 384
    mediaDefault := text "media_default" 64
    label := text "label" 96
    location := text "location" 96
    uuid := text "uuid" 64
    ippVersions := text "ipp_versions" 32
    colorModeDefault := text "color_mode_default" 16
    stateReasons := text "state_reasons" 192
    operationsSupported := number "operations_supported"
    jobTemplateCapabilities := number "job_template_capabilities"
    copiesUpper := number "copies_upper"
    resolutionLowDpi := number "resolution_low_dpi"
    resolutionHighDpi := number "resolution_high_dpi"
    upstreamIppMajor := octet "upstream_ipp_major"
    upstreamIppMinor := octet "upstream_ipp_minor"
    printerState := octet "printer_state"
    capabilityQueried := flag "capability_queried"
    acceptingJobs := flag "accepting_jobs"
    acceptingJobsKnown := flag "accepting_jobs_known"
    color := flag "color"
    duplex := flag "duplex"
    copies := flag "copies"
    collate := flag "collate"
    legacyOutputMode := flag "legacy_output_mode"
    adminUrl := text "admin_url" 256
    secureTransport := flag "secure_transport"
    pageRangesSupported := flag "page_ranges_supported"
    overridesDocumentNumber := flag "overrides_document_number"
    overridesPages := flag "overrides_pages"
    ippEverywhere := flag "ipp_everywhere" }

/-! ### The chosen name -/

def asciiWhitespace (c : UInt8) : Bool := c = 0x20 || c = 0x09 || c = 0x0d || c = 0x0a

inductive NameError
  | invalidArg
  | invalidSize
  deriving DecidableEq, Repr

def normalizePrinterName (name : Bytes) (normalizedSize : ℕ) : Except NameError Bytes :=
  let trimmed := ((name.dropWhile asciiWhitespace).reverse.dropWhile asciiWhitespace).reverse
  if normalizedSize ≤ trimmed.length then .error .invalidSize
  else if trimmed.any fun c => c < 0x20 || c = 0x7f then .error .invalidArg
  else .ok trimmed

/-! ### NVS -/

inductive NvsError
  | notFound
  | invalidLength
  | other (code : ℕ)
  deriving DecidableEq, Repr

/-- What NVS holds and how its calls end. -/
structure Nvs where
  openError : Option NvsError
  printer : Except NvsError Bytes
  printerName : Except NvsError Bytes
  setError : Option NvsError
  commitError : Option NvsError

/-- `nvs_get_blob` into memory of this size that has been cleared: the size and the memory. -/
def getBlob (stored : Except NvsError Bytes) (capacity : ℕ) : Except NvsError (ℕ × Bytes) :=
  match stored with
  | .error e => .error e
  | .ok blob =>
    if capacity < blob.length then .error .invalidLength
    else .ok (blob.length,writeAt 0 blob (List.replicate capacity 0))

/-- The size of an older structure, from the first member it lacks. -/
def schemaSize (firstLacking : String) : ℕ :=
  alignUp (alignof printerTargetMembers) (targetOffset firstLacking)

def profileSchema (memory : Bytes) : ℕ := littleEndian (targetField "profile_schema" memory)

def isOlderSchema (size : ℕ) (memory : Bytes) : Bool :=
  (size = schemaSize "admin_url" && profileSchema memory = 4) ||
  (size = schemaSize "secure_transport" && profileSchema memory = 5) ||
  (size = schemaSize "page_ranges_supported" && profileSchema memory = 6)

/-- The structure as the current schema has it: only the URL of the oldest one is cleared. -/
def migrateProfile (memory : Bytes) : Bytes :=
  let memory :=
    if profileSchema memory = 4 then
      writeAt (targetOffset "admin_url") (List.replicate 256 0) memory
    else memory
  writeAt (targetOffset "profile_schema") [UInt8.ofNat espressoProfileSchema,0,0,0] memory

structure InitResult where
  error : Option NvsError
  target : Option PrinterTarget
  printerName : Text 64
  /-- What NVS holds afterwards. -/
  stored : Except NvsError Bytes

def restoredName (stored : Except NvsError Bytes) : Text 64 :=
  match stored with
  | .error _ => .empty
  | .ok name =>
    match normalizePrinterName name 64 with
    | .ok normalized => .copy 64 normalized
    | .error _ => .empty

/-- The outcome of reading and, if need be, migrating the profile: its size and the structure, and
what NVS holds afterwards. -/
def loadTarget (nvs : Nvs) : Except NvsError (ℕ × Bytes) × Except NvsError Bytes :=
  match getBlob nvs.printer targetSize with
  | .error e => (.error e,nvs.printer)
  | .ok (size,memory) =>
    if isOlderSchema size memory then
      let migrated := migrateProfile memory
      match nvs.setError with
      | some e => (.error e,nvs.printer)
      | none =>
        match nvs.commitError with
        | some e => (.error e,.ok migrated)
        | none => (.ok (targetSize,migrated),.ok migrated)
    else (.ok (size,memory),nvs.printer)

def appStateInit (nvs : Nvs) : InitResult :=
  match nvs.openError with
  | some e => ⟨if e = .notFound then none else some e,none,.empty,nvs.printer⟩
  | none =>
    let printerName := restoredName nvs.printerName
    let (loaded,stored) := loadTarget nvs
    match loaded with
    | .ok (size,memory) =>
      let t := readTarget memory
      if size = targetSize ∧ profileSchema memory = espressoProfileSchema ∧ t.port ≠ 0 ∧
          t.address.val ≠ [] then
        ⟨none,some (ippCodecFinalizeProfile t),printerName,stored⟩
      else ⟨none,none,printerName,stored⟩
    | .error e =>
      ⟨if e = .notFound ∨ e = .invalidLength then none else some e,none,printerName,stored⟩

/-! ### What migration keeps -/

/-- The older schemas, each with the first member it lacks. -/
def olderSchemas : List (ℕ × String) :=
  [(4,"admin_url"),(5,"secure_transport"),(6,"page_ranges_supported")]

/-- A structure of the current schema that says what an older one says: the fields that the older
one has keep their octets, and the later ones are empty or false. -/
structure Preserves (firstLacking : String) (blob image : Bytes) : Prop where
  length : image.length = targetSize
  schema : profileSchema image = espressoProfileSchema
  kept : ∀ f ∈ layout printerTargetMembers, f.name ≠ "profile_schema" →
    f.offset < targetOffset firstLacking →
      readAt f.offset f.size image = readAt f.offset f.size blob
  blank : ∀ f ∈ layout printerTargetMembers, targetOffset firstLacking ≤ f.offset →
    image[f.offset]? = some 0

/-- The restored profile is the older one, and NVS holds it in the current schema. -/
def MigratesFaithfully (nvs : Nvs) (firstLacking : String) (blob : Bytes) : Prop :=
  ∃ image, (appStateInit nvs).stored = .ok image ∧ Preserves firstLacking blob image ∧
    (appStateInit nvs).target =
      if (readTarget image).port ≠ 0 ∧ (readTarget image).address.val ≠ [] then
        some (ippCodecFinalizeProfile (readTarget image))
      else none

section
variable {schema : ℕ} {firstLacking : String} {blob : Bytes}

theorem targetSize_eq : targetSize = 1968 := by decide +kernel

theorem profileSchema_offset : targetOffset "profile_schema" = 0 := by decide +kernel

theorem adminUrl_offset : targetOffset "admin_url" = 1701 := by decide +kernel

theorem secureTransport_offset : targetOffset "secure_transport" = 1957 := by decide +kernel

theorem layout_kept : ∀ entry ∈ olderSchemas, ∀ f ∈ layout printerTargetMembers,
    (f.name ≠ "profile_schema" → 4 ≤ f.offset) ∧
    (f.offset < targetOffset entry.2 → f.offset + f.size ≤ targetOffset entry.2) ∧
    f.offset < targetSize := by decide +kernel

theorem schemaSize_bounds : ∀ entry ∈ olderSchemas,
    4 ≤ targetOffset entry.2 ∧ targetOffset entry.2 ≤ schemaSize entry.2 ∧
    schemaSize entry.2 ≤ targetSize := by decide +kernel

/-- The padding of the oldest one lies under the URL that is cleared. -/
theorem layout_oldest : ∀ entry ∈ olderSchemas, entry.1 = 4 →
    targetOffset entry.2 = targetOffset "admin_url" ∧
    schemaSize entry.2 ≤ targetOffset "secure_transport" := by decide +kernel

/-- The padding of the newer two of them lies under members of the current structure. -/
theorem layout_padding : ∀ entry ∈ olderSchemas, entry.1 ≠ 4 →
    ∀ i < schemaSize entry.2, targetOffset entry.2 ≤ i →
      ∃ f ∈ layout printerTargetMembers, f.offset = i := by decide +kernel

/-- The memory that a blob is read into. -/
def targetMemory (blob : Bytes) : Bytes := writeAt 0 blob (List.replicate targetSize 0)

theorem getBlob_ok (h : blob.length ≤ targetSize) :
    getBlob (.ok blob) targetSize = .ok (blob.length,targetMemory blob) := by
  simp only [getBlob, if_neg (Nat.not_lt.mpr h), targetMemory]

theorem targetMemory_length (h : blob.length ≤ targetSize) :
    (targetMemory blob).length = targetSize := by
  rw [targetMemory, length_writeAt (by simpa using h), List.length_replicate]

theorem targetMemory_getElem? (h : blob.length ≤ targetSize) {i : ℕ} (hi : i < targetSize) :
    (targetMemory blob)[i]? = if i < blob.length then blob[i]? else some 0 := by
  rw [targetMemory, getElem?_writeAt (by simpa using h)]
  simp only [Nat.zero_le, true_and, Nat.zero_add, Nat.sub_zero]
  split
  · rfl
  · rw [List.getElem?_replicate, if_pos hi]

theorem profileSchema_eq (memory : Bytes) :
    profileSchema memory = littleEndian (readAt 0 4 memory) := rfl

theorem profileSchema_targetMemory (h : blob.length ≤ targetSize) (h4 : 4 ≤ blob.length) :
    profileSchema (targetMemory blob) = profileSchema blob := by
  rw [profileSchema_eq, profileSchema_eq]
  congr 1
  apply readAt_congr
  intro i hi
  rw [targetMemory_getElem? h (by omega), if_pos (by omega)]

/-- Clearing the URL, if the schema is the oldest. -/
theorem migrateProfile_eq {memory : Bytes} (h : memory.length = targetSize) :
    ∃ cleared : Bytes, cleared.length = targetSize ∧
      migrateProfile memory = writeAt 0 [7,0,0,0] cleared ∧
      ∀ i, cleared[i]? = if profileSchema memory = 4 ∧ targetOffset "admin_url" ≤ i ∧
        i < targetOffset "secure_transport" then some 0 else memory[i]? := by
  rw [targetSize_eq] at h
  rw [migrateProfile, profileSchema_offset, targetSize_eq, adminUrl_offset, secureTransport_offset]
  by_cases h4 : profileSchema memory = 4
  · have hroom : 1701 + (List.replicate 256 (0 : UInt8)).length ≤ memory.length := by
      rw [List.length_replicate, h]
      omega
    refine ⟨_,?_,rfl,fun i => ?_⟩
    · rw [if_pos h4, length_writeAt hroom, h]
    · rw [if_pos h4, getElem?_writeAt hroom, List.length_replicate]
      by_cases hi : 1701 ≤ i ∧ i < 1957
      · rw [if_pos (by omega), if_pos ⟨h4,hi⟩, List.getElem?_replicate, if_pos (by omega)]
      · rw [if_neg (by omega), if_neg (by omega)]
  · refine ⟨_,?_,rfl,fun i => ?_⟩
    · rw [if_neg h4, h]
    · rw [if_neg h4, if_neg (by omega)]

/-- Behind the schema number, migration changes the URL of the oldest schema only. -/
theorem migrateProfile_getElem? {memory : Bytes} (h : memory.length = targetSize) {i : ℕ}
    (hi : 4 ≤ i) :
    (migrateProfile memory)[i]? =
      if profileSchema memory = 4 ∧ targetOffset "admin_url" ≤ i ∧
        i < targetOffset "secure_transport" then some 0 else memory[i]? := by
  obtain ⟨cleared,hlength,heq,hcleared⟩ := migrateProfile_eq h
  rw [targetSize_eq] at hlength
  rw [heq, getElem?_writeAt (by rw [hlength]; decide), if_neg (by simp; omega), hcleared]

theorem profileSchema_migrateProfile {memory : Bytes} (h : memory.length = targetSize) :
    (migrateProfile memory).length = targetSize ∧
      profileSchema (migrateProfile memory) = espressoProfileSchema := by
  obtain ⟨cleared,hlength,heq,-⟩ := migrateProfile_eq h
  have hroom : 0 + ([7,0,0,0] : Bytes).length ≤ cleared.length := by
    rw [hlength, targetSize_eq]
    decide
  rw [heq, length_writeAt hroom, profileSchema_eq]
  exact ⟨hlength,congrArg littleEndian (readAt_writeAt_self hroom)⟩

/-- The migrated profile, octet by octet. -/
theorem migrated_getElem? (h : blob.length ≤ targetSize) (h4 : 4 ≤ blob.length) {i : ℕ}
    (hi : 4 ≤ i) (hsize : i < targetSize) :
    (migrateProfile (targetMemory blob))[i]? =
      if profileSchema blob = 4 ∧ targetOffset "admin_url" ≤ i ∧
        i < targetOffset "secure_transport" then some 0
      else if i < blob.length then blob[i]? else some 0 := by
  rw [migrateProfile_getElem? (targetMemory_length h) hi, profileSchema_targetMemory h h4,
    targetMemory_getElem? h hsize]

/-- The migrated profile says what the blob says, except that padding of the blob becomes flags. -/
theorem preserves_iff (hentry : (schema,firstLacking) ∈ olderSchemas)
    (hlength : blob.length = schemaSize firstLacking) (hschema : profileSchema blob = schema) :
    Preserves firstLacking blob (migrateProfile (targetMemory blob)) ↔
      schema = 4 ∨ ∀ octet ∈ blob.drop (targetOffset firstLacking), octet = 0 := by
  obtain ⟨hfour,hoffset,hsize⟩ := schemaSize_bounds _ hentry
  simp only at hfour hoffset hsize
  rw [← hlength] at hoffset hsize
  have h4 : 4 ≤ blob.length := hfour.trans hoffset
  obtain ⟨himage,hcurrent⟩ := profileSchema_migrateProfile (targetMemory_length hsize)
  have hget : ∀ {i : ℕ}, 4 ≤ i → i < targetSize → _ := migrated_getElem? hsize h4
  rw [hschema] at hget
  have hkept : ∀ f ∈ layout printerTargetMembers, f.name ≠ "profile_schema" →
      f.offset < targetOffset firstLacking →
        readAt f.offset f.size (migrateProfile (targetMemory blob)) =
          readAt f.offset f.size blob := by
    intro f hf hname hlt
    obtain ⟨hbehind,hbefore,-⟩ := layout_kept _ hentry f hf
    have hend := hbefore hlt
    have hstart := hbehind hname
    simp only at hend
    apply readAt_congr
    intro i hi
    have hurl : ¬ (schema = 4 ∧ targetOffset "admin_url" ≤ f.offset + i ∧
        f.offset + i < targetOffset "secure_transport") := by
      rintro ⟨hfirst,hge,-⟩
      have hsame := (layout_oldest _ hentry hfirst).1
      simp only at hsame
      omega
    rw [hget (by omega) (by omega), if_neg hurl, if_pos (by omega)]
  constructor
  · intro h
    by_cases hfirst : schema = 4
    · exact .inl hfirst
    refine .inr fun octet hoctet => ?_
    obtain ⟨i,hi⟩ := List.mem_iff_getElem?.mp hoctet
    rw [List.getElem?_drop] at hi
    have hlt : targetOffset firstLacking + i < blob.length := by
      by_contra hge
      rw [List.getElem?_eq_none (by omega)] at hi
      cases hi
    obtain ⟨f,hf,hfield⟩ := layout_padding _ hentry hfirst (targetOffset firstLacking + i)
      (by rw [← hlength]; exact hlt) (by simp)
    have hblank := h.blank f hf (by omega)
    rw [hfield, hget (by omega) (by omega), if_neg (fun hc => hfirst hc.1), if_pos hlt, hi] at hblank
    exact Option.some.inj hblank
  · intro h
    refine ⟨himage,hcurrent,hkept,fun f hf hle => ?_⟩
    obtain ⟨-,-,hinside⟩ := layout_kept _ hentry f hf
    rw [hget (by omega) hinside]
    by_cases hlt : f.offset < blob.length
    · by_cases hfirst : schema = 4
      · obtain ⟨hsame,hend⟩ := layout_oldest _ hentry hfirst
        simp only [← hlength] at hsame hend
        rw [if_pos ⟨hfirst,by omega,by omega⟩]
      · have hzero := h.resolve_left hfirst blob[f.offset] (List.mem_iff_getElem?.mpr
          ⟨f.offset - targetOffset firstLacking,by
            rw [List.getElem?_drop, Nat.add_sub_cancel' hle, List.getElem?_eq_getElem hlt]⟩)
        rw [if_neg (fun hc => hfirst hc.1), if_pos hlt, List.getElem?_eq_getElem hlt, hzero]
    · rw [if_neg hlt, ite_self]

/-- An older profile is restored with its meaning, and NVS then holds it in the current schema,
exactly when the structure is the oldest one or its padding is zero. -/
theorem appStateInit_migrates_iff {nvs : Nvs} (hentry : (schema,firstLacking) ∈ olderSchemas)
    (hlength : blob.length = schemaSize firstLacking) (hschema : profileSchema blob = schema)
    (hopen : nvs.openError = none) (hstored : nvs.printer = .ok blob)
    (hset : nvs.setError = none) (hcommit : nvs.commitError = none) :
    MigratesFaithfully nvs firstLacking blob ↔
      schema = 4 ∨ ∀ octet ∈ blob.drop (targetOffset firstLacking), octet = 0 := by
  obtain ⟨hfour,hoffset,hsize⟩ := schemaSize_bounds _ hentry
  simp only at hfour hoffset hsize
  rw [← hlength] at hoffset hsize
  have hmemory := profileSchema_targetMemory hsize (hfour.trans hoffset)
  have holder : isOlderSchema blob.length (targetMemory blob) = true := by
    rw [isOlderSchema, hmemory, hschema, hlength]
    simp only [olderSchemas, List.mem_cons, Prod.mk.injEq, List.not_mem_nil, or_false] at hentry
    rcases hentry with ⟨rfl,rfl⟩ | ⟨rfl,rfl⟩ | ⟨rfl,rfl⟩ <;> simp
  have hload : loadTarget nvs = (.ok (targetSize,migrateProfile (targetMemory blob)),
      .ok (migrateProfile (targetMemory blob))) := by
    rw [loadTarget, hstored, getBlob_ok hsize]
    simp only [holder, if_true, hset, hcommit]
  have hcurrent := (profileSchema_migrateProfile (targetMemory_length hsize)).2
  have hresult : (appStateInit nvs).stored = .ok (migrateProfile (targetMemory blob)) ∧
      (appStateInit nvs).target =
        if (readTarget (migrateProfile (targetMemory blob))).port ≠ 0 ∧
            (readTarget (migrateProfile (targetMemory blob))).address.val ≠ [] then
          some (ippCodecFinalizeProfile (readTarget (migrateProfile (targetMemory blob))))
        else none := by
    rw [appStateInit, hopen]
    simp only [hload, hcurrent, true_and]
    split <;> exact ⟨rfl,rfl⟩
  rw [← preserves_iff hentry hlength hschema]
  constructor
  · rintro ⟨image,himage,hpreserves,-⟩
    rw [hresult.1] at himage
    cases himage
    exact hpreserves
  · intro hpreserves
    exact ⟨_,hresult.1,hpreserves,hresult.2⟩

end

/-- A profile that an older firmware stored, with these octets in its padding. -/
def olderBlob (schema : UInt8) (size : ℕ) (padding : Bytes) : Bytes :=
  let blob := List.replicate (size - padding.length) 0 ++ padding
  let blob := writeAt 0 [schema,0,0,0] blob
  let blob := writeAt (targetOffset "address") (octets "192.168.1.20") blob
  writeAt (targetOffset "port") [0x77,0x02] blob

def nvsOf (blob : Bytes) : Nvs := ⟨none,.ok blob,.error .notFound,none,none⟩

theorem appStateInit_migrates_zeros :
    MigratesFaithfully (nvsOf (olderBlob 5 1960 [0,0,0])) "secure_transport"
        (olderBlob 5 1960 [0,0,0]) ↔
      5 = 4 ∨ ∀ octet ∈ (olderBlob 5 1960 [0,0,0]).drop (targetOffset "secure_transport"),
        octet = 0 :=
  appStateInit_migrates_iff (by decide) (by decide +kernel) (by decide +kernel) rfl rfl rfl rfl

/-- Padding of a schema 5 profile is restored as page ranges that the printer can print. -/
theorem appStateInit_padding :
    (olderBlob 5 1960 [0,1,0]).length = schemaSize "secure_transport" ∧
    profileSchema (olderBlob 5 1960 [0,1,0]) = 5 ∧
    ¬ MigratesFaithfully (nvsOf (olderBlob 5 1960 [0,1,0])) "secure_transport"
      (olderBlob 5 1960 [0,1,0]) := by
  refine ⟨by decide +kernel,by decide +kernel,?_⟩
  rintro ⟨image,himage,hpreserves,-⟩
  have hread : (appStateInit (nvsOf (olderBlob 5 1960 [0,1,0]))).stored.toOption.bind
      (fun image => image[1958]?) = some 1 := by decide +kernel
  have hblank := hpreserves.blank ⟨"page_ranges_supported",1958,1⟩ (by decide +kernel)
    (by decide +kernel)
  rw [himage] at hread
  exact absurd (hread.symm.trans hblank) (by decide)

end Espresso.State
