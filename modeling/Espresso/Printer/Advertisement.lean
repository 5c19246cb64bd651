import Espresso.Proxy.Offers

/-! The DNS-SD identity and TXT values of `printer_advertisement.c`, and how its list of formats
compares with the one that IPP clients are given. -/
namespace Espresso.Printer

open Codec Proxy

def isBlank (c : UInt8) : Bool := c = 0x20 || c = 0x09

def trimBlanks (b : Bytes) : Bytes :=
  ((b.dropWhile isBlank).reverse.dropWhile isBlank).reverse

/-- The list lookup of this file: only blanks are trimmed, and case counts. -/
def csvContains (csv wanted : Bytes) : Bool :=
  match csv with
  | [] => false
  | c :: cs =>
    trimBlanks ((c :: cs).takeWhile (· ≠ comma)) = wanted ||
      csvContains ((c :: cs).dropWhile (· ≠ comma)).tail wanted
termination_by csv.length
decreasing_by
  have h := (List.dropWhile_sublist (fun x => decide (x ≠ comma)) (l := c :: cs)).length_le
  simp only [List.length_tail, List.length_cons] at h ⊢
  omega

structure Advertisement where
  instanceName : Text 64
  makeModel : Text 96
  product : Text 99
  pdl : Text 252
  urf : Text 160
  uuid : Text 64
  note : Text 96
  color : Text 2
  duplex : Text 2
  copies : Text 2
  collate : Text 2
  printerState : Text 4
  ippEverywhere : Bool

/-- `sizeof(suffix)` counts the terminator. -/
def pwgSuffix : Bytes := octets ",image/pwg-raster"

def requiredOperations : ℕ :=
  1 <<< 2 ||| 1 <<< 4 ||| 1 <<< 5 ||| 1 <<< 6 ||| 1 <<< 8 ||| 1 <<< 9 ||| 1 <<< 10 ||| 1 <<< 11 |||
  1 <<< 57 ||| 1 <<< 59 ||| 1 <<< 60

section
variable (t : PrinterTarget)

def advertisedLabel : Bytes :=
  if t.label.val ≠ [] then t.label.val
  else if t.instanceName.val ≠ [] then t.instanceName.val
  else octets "Legacy AirPrint printer"

/-- The service instance name; without a chosen name it ends in the tail of the bridge's UUID. -/
def advertisedInstance (bridgeUuid customName : Option Bytes) : Text 64 :=
  let uuid := bridgeUuid.getD []
  let identitySuffix := if 4 < uuid.length then uuid.drop (uuid.length - 4) else uuid
  let label := advertisedLabel t
  match customName with
  | some (c :: cs) => .copy 64 (c :: cs)
  | _ =>
    if identitySuffix ≠ [] then
      .copy 64 (octets "ESPresso - " ++ label.take 45 ++ octets " (" ++ identitySuffix.take 4 ++
        octets ")")
    else .copy 64 (octets "ESPresso - " ++ label.take 51)

def advertisedPdl : Text 252 :=
  let pdl : Text 252 := .copy 252 (t.pdl.val.take 251)
  if csvContains t.pdl.val (octets "image/urf") ∧
      ¬ csvContains t.pdl.val (octets "image/pwg-raster") ∧
      pdl.val.length + (pwgSuffix.length + 1) ≤ 252 then .copy 252 (pdl.val ++ pwgSuffix)
  else pdl

def claimsIppEverywhere : Bool :=
  let has (format : String) := csvContains t.pdl.val (octets format)
  t.ippEverywhere && (has "application/pdf" || has "application/openxps") && has "image/urf" &&
    (!t.color || has "image/jpeg") &&
    t.operationsSupported &&& requiredOperations = requiredOperations &&
    t.pageRangesSupported && t.overridesDocumentNumber && t.overridesPages

def printerAdvertisementBuild (bridgeUuid customName : Option Bytes) : Advertisement :=
  let flag (b : Bool) : Text 2 := .copy 2 (octets (if b then "T" else "F"))
  { instanceName := advertisedInstance t bridgeUuid customName
    makeModel := .copy 96 (advertisedLabel t)
    product := .copy 99 (octets "(" ++ advertisedLabel t ++ octets ")")
    pdl := advertisedPdl t
    urf := .copy 160 t.urf.val
    uuid := .copy 64 (bridgeUuid.getD [])
    note := .copy 96 (if t.location.val ≠ [] then t.location.val
      else octets "Legacy printer bridged by ESPresso")
    color := flag t.color
    duplex := flag t.duplex
    copies := flag t.copies
    collate := flag t.collate
    printerState := .copy 4 (octets (toString (if t.printerState ≠ 0 then t.printerState.toNat
      else 3)))
    ippEverywhere := claimsIppEverywhere t }

@[simp] theorem printerAdvertisementBuild_uuid (bridgeUuid customName : Option Bytes) :
    (printerAdvertisementBuild t bridgeUuid customName).uuid = .copy 64 (bridgeUuid.getD []) := rfl

end

/-! ### Two ways to look up a format -/

theorem trim_append_of_isspace {c : UInt8} (h : isspace c = true) (b : Bytes) :
    trim (b ++ [c]) = trim b := by
  rw [trim, trim, List.dropWhile_append]
  by_cases hb : (b.dropWhile isspace).isEmpty
  · rw [if_pos hb, List.dropWhile_cons_of_pos h, List.isEmpty_iff.mp hb, List.dropWhile_nil]
  · rw [if_neg hb, trimEnd, List.reverse_append, List.reverse_singleton, List.singleton_append,
      List.dropWhile_cons_of_pos h, trimEnd]

theorem trim_of_spaces {before after : Bytes} (hbefore : ∀ c ∈ before, isspace c = true)
    (hafter : ∀ c ∈ after, isspace c = true) (b : Bytes) : trim (before ++ (b ++ after)) = trim b := by
  have hright : trim (b ++ after) = trim b := by
    induction after using List.reverseRecOn with
    | nil => rw [List.append_nil]
    | append_singleton after c ih =>
      rw [← List.append_assoc, trim_append_of_isspace (hafter c (by simp))]
      exact ih fun d hd => hafter d (by simp [hd])
  rw [← hright]
  induction before with
  | nil => rfl
  | cons c before ih =>
    rw [List.cons_append, trim_cons_of_isspace (hbefore c List.mem_cons_self)]
    exact ih fun d hd => hbefore d (List.mem_cons_of_mem _ hd)

theorem isspace_of_isBlank {c : UInt8} (h : isBlank c = true) : isspace c = true := by
  simp only [isBlank, Bool.or_eq_true, decide_eq_true_eq] at h
  rcases h with rfl | rfl <;> decide

/-- Blanks go first, then whatever other space there is. -/
theorem trim_trimBlanks (b : Bytes) : trim (trimBlanks b) = trim b := by
  have hleft := List.takeWhile_append_dropWhile (p := isBlank) (l := b)
  have hright := List.takeWhile_append_dropWhile (p := isBlank) (l := (b.dropWhile isBlank).reverse)
  have hsplit : b = b.takeWhile isBlank ++ (trimBlanks b ++
      ((b.dropWhile isBlank).reverse.takeWhile isBlank).reverse) := by
    rw [trimBlanks, ← List.reverse_append, hright, List.reverse_reverse, hleft]
  conv_rhs => rw [hsplit]
  refine (trim_of_spaces ?_ ?_ _).symm
  · intro c hc
    exact isspace_of_isBlank (List.mem_takeWhile_imp hc)
  · intro c hc
    exact isspace_of_isBlank (List.mem_takeWhile_imp (List.mem_reverse.mp hc))

/-- What this lookup finds is an entry of the list. -/
theorem mem_entries_of_csvContains {csv wanted : Bytes} (htrim : trim wanted = wanted)
    (hne : wanted ≠ []) (h : csvContains csv wanted = true) : wanted ∈ entries csv := by
  fun_induction csvContains csv wanted with
  | case1 => cases h
  | case2 c cs ih =>
    rw [Bool.or_eq_true, decide_eq_true_iff] at h
    rw [entries_eq, List.mem_append]
    rcases h with h | h
    · left
      have hpart : trim ((c :: cs).takeWhile (· ≠ comma)) = wanted := by
        rw [← trim_trimBlanks, h, htrim]
      rw [entryOf, hpart, if_neg hne]
      exact List.mem_singleton_self _
    · right
      rcases dropWhile_comma_cases (c :: cs) with hd | ⟨rest,hd⟩
      · rw [hd, List.tail_nil, csvContains] at h
        cases h
      · have hmem := ih h
        rw [hd, List.tail_cons] at hmem
        rw [hd, show entries (comma :: rest) = entries rest from entries_append [] rest]
        exact hmem

theorem listed_of_csvContains {csv : Bytes} {format : String}
    (htrim : trim (octets format) = octets format) (hne : octets format ≠ [])
    (h : csvContains csv (octets format) = true) : Listed csv (octets format) :=
  ⟨_,mem_entries_of_csvContains htrim hne h,equalSpan_self _⟩

/-! ### The list of formats -/

/-- The suffix is added only to lists that leave room for it; longer lists are cut. -/
theorem advertisedPdl_val (t : PrinterTarget) :
    (advertisedPdl t).val =
      if csvContains t.pdl.val (octets "image/urf") ∧
          ¬ csvContains t.pdl.val (octets "image/pwg-raster") ∧ t.pdl.val.length ≤ 234 then
        t.pdl.val ++ pwgSuffix
      else t.pdl.val.take 251 := by
  have hsuffix : pwgSuffix.length = 17 := by decide +kernel
  have h0 : 0 ∉ t.pdl.val.take 251 := fun h => t.pdl.property.1 (List.mem_of_mem_take h)
  have hcopy : (Text.copy 252 (t.pdl.val.take 251)).val = t.pdl.val.take 251 :=
    Text.copy_val h0 (List.length_take_le _ _)
  have hroom : (t.pdl.val.take 251).length + (pwgSuffix.length + 1) ≤ 252 ↔
      t.pdl.val.length ≤ 234 := by
    rw [hsuffix, List.length_take]
    omega
  simp only [advertisedPdl, hcopy, hroom]
  by_cases hadd : csvContains t.pdl.val (octets "image/urf") = true ∧
      ¬ csvContains t.pdl.val (octets "image/pwg-raster") = true ∧ t.pdl.val.length ≤ 234
  · rw [if_pos hadd, if_pos hadd, List.take_of_length_le (by omega)]
    apply Text.copy_val
    · rw [List.mem_append, not_or]
      exact ⟨t.pdl.property.1,by decide +kernel⟩
    · rw [List.length_append, hsuffix]
      omega
  · rw [if_neg hadd, if_neg hadd, hcopy]

/-- The two lists agree. A list that fits needs the suffix in IPP only if it gets it here; a list
that is cut must neither lose PWG Raster nor end in a piece of an entry. -/
def FormatsAgree (pdl : Bytes) : Prop :=
  if pdl.length ≤ 251 then
    Listed pdl (octets "image/urf") → Listed pdl (octets "image/pwg-raster") ∨
      csvContains pdl (octets "image/urf") = true ∧ pdl.length ≤ 234
  else
    (∀ entry ∈ entries (pdl.take 251), entry ∈ entries pdl ∨ entry = octets "image/pwg-raster") ∧
    (Listed (pdl.take 251) (octets "image/pwg-raster") ↔
      Listed pdl (octets "image/pwg-raster") ∨ Listed pdl (octets "image/urf"))

/-- DNS-SD and IPP publish the same formats exactly under this condition. -/
theorem advertised_formats_agree_iff {hundredths : Bytes → ℕ → Option ℕ} {mem : Memory}
    {input out printerUri authority localUuid : Bytes} {t : PrinterTarget} {k : ℕ} {e' : Envelope}
    (hstatus : ippCodecMessageCode input < 0x0400)
    (h : ippCodecNormalizePrinterResponse hundredths mem input printerUri authority localUuid t =
      .ok (out,k)) (hout : decode out = .ok e') (bridgeUuid customName : Option Bytes) :
    ((∀ entry ∈ entries (printerAdvertisementBuild t bridgeUuid customName).pdl.val,
        entry ∈ entries t.pdl.val ∨ entry = octets "image/pwg-raster") ∧
      (Listed (printerAdvertisementBuild t bridgeUuid customName).pdl.val
          (octets "image/pwg-raster") ↔
        ∃ v ∈ e'.valuesOf Tag.printerAttributes (octets "document-format-supported"),
          equalSpan v.2 (octets "image/pwg-raster") = true)) ↔
    FormatsAgree t.pdl.val := by
  have hpwg : trim (octets "image/pwg-raster") = octets "image/pwg-raster" := by decide +kernel
  have hurf : trim (octets "image/urf") = octets "image/urf" := by decide +kernel
  rw [normalize_offers_format hstatus h hout, equalSpan_self]
  change (∀ entry ∈ entries (advertisedPdl t).val, _) ∧
    (Listed (advertisedPdl t).val _ ↔ _) ↔ _
  rw [advertisedPdl_val, FormatsAgree]
  simp only [true_and]
  split_ifs with hadd hlen hlen
  · -- the suffix is there, and the lookup that put it there found an entry
    have hentries : entries (t.pdl.val ++ pwgSuffix) =
        entries t.pdl.val ++ [octets "image/pwg-raster"] := by
      have hsingle : entries (octets "image/pwg-raster") = [octets "image/pwg-raster"] := by
        decide +kernel
      rw [show pwgSuffix = comma :: octets "image/pwg-raster" by decide +kernel, entries_append,
        hsingle]
    have hlisted := listed_of_csvContains hurf (by decide +kernel) hadd.1
    refine iff_of_true ⟨?_,iff_of_true ?_ (.inr hlisted)⟩ fun _ => .inr ⟨hadd.1,hadd.2.2⟩
    · intro entry hentry
      rw [hentries, List.mem_append, List.mem_singleton] at hentry
      exact hentry
    · refine ⟨octets "image/pwg-raster",?_,equalSpan_self _⟩
      rw [hentries]
      exact List.mem_append_right _ (List.mem_singleton_self _)
  · omega
  · rw [List.take_of_length_le hlen]
    constructor
    · rintro ⟨-,hiff⟩ hu
      exact .inl (hiff.mpr (.inr hu))
    · intro hcond
      refine ⟨fun entry hentry => .inl hentry,.inl,?_⟩
      rintro (hw | hu)
      · exact hw
      · rcases hcond hu with hw | ⟨hu',hroom⟩
        · exact hw
        · by_contra hw
          refine hadd ⟨hu',fun hw' => hw ?_,hroom⟩
          exact listed_of_csvContains hpwg (by decide +kernel) hw'
  · exact Iff.rfl

/-- A printer that lists the Apple raster format in capitals. -/
def capitalsTarget : PrinterTarget :=
  { PrinterTarget.zero with pdl := .copy 256 (octets "application/pdf,image/URF") }

/-- IPP clients are offered PWG Raster, DNS-SD clients are not. -/
theorem advertised_formats_differ :
    ∃ out k e', ippCodecMessageCode namedResponse.encode < 0x0400 ∧
      ippCodecNormalizePrinterResponse (fun _ _ => none) .unlimited namedResponse.encode
        (octets "ipp://espresso.local:631/ipp/print") (octets "ipp://espresso.local:631")
        (octets "1b2c") capitalsTarget = .ok (out,k) ∧ decode out = .ok e' ∧
      (∃ v ∈ e'.valuesOf Tag.printerAttributes (octets "document-format-supported"),
        equalSpan v.2 (octets "image/pwg-raster") = true) ∧
      ¬ Listed (printerAdvertisementBuild capitalsTarget none none).pdl.val
        (octets "image/pwg-raster") := by
  have hstatus : ippCodecMessageCode namedResponse.encode < 0x0400 := by decide +kernel
  obtain ⟨⟨out,k⟩,h⟩ := exists_of_isOk (show (ippCodecNormalizePrinterResponse (fun _ _ => none)
    .unlimited namedResponse.encode (octets "ipp://espresso.local:631/ipp/print")
    (octets "ipp://espresso.local:631") (octets "1b2c") capitalsTarget).isOk = true by
      decide +kernel)
  obtain ⟨e',he',-⟩ := normalize_printerNames (decode_encode namedResponse) hstatus h
  have hoffered := (normalize_offers_format hstatus h he' (octets "image/pwg-raster")).mpr
    (.inr (by decide +kernel))
  exact ⟨out,k,e',hstatus,h,he',hoffered,by decide +kernel⟩

/-- A printer without Apple raster publishes its own formats both ways. -/
theorem advertised_formats_agree_pdf :
    ∃ out k e', ippCodecNormalizePrinterResponse (fun _ _ => none) .unlimited namedResponse.encode
        (octets "ipp://espresso.local:631/ipp/print") (octets "ipp://espresso.local:631")
        (octets "1b2c") pdfTarget = .ok (out,k) ∧ decode out = .ok e' ∧
      (((∀ entry ∈ entries (printerAdvertisementBuild pdfTarget none none).pdl.val,
          entry ∈ entries pdfTarget.pdl.val ∨ entry = octets "image/pwg-raster") ∧
        (Listed (printerAdvertisementBuild pdfTarget none none).pdl.val
            (octets "image/pwg-raster") ↔
          ∃ v ∈ e'.valuesOf Tag.printerAttributes (octets "document-format-supported"),
            equalSpan v.2 (octets "image/pwg-raster") = true)) ↔
      FormatsAgree pdfTarget.pdl.val) := by
  have hstatus : ippCodecMessageCode namedResponse.encode < 0x0400 := by decide +kernel
  obtain ⟨⟨out,k⟩,h⟩ := exists_of_isOk (show (ippCodecNormalizePrinterResponse (fun _ _ => none)
    .unlimited namedResponse.encode (octets "ipp://espresso.local:631/ipp/print")
    (octets "ipp://espresso.local:631") (octets "1b2c") pdfTarget).isOk = true by decide +kernel)
  obtain ⟨e',he',-⟩ := normalize_printerNames (decode_encode namedResponse) hstatus h
  exact ⟨out,k,e',h,he',advertised_formats_agree_iff hstatus h he' none none⟩

end Espresso.Printer
