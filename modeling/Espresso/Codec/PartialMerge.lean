import Espresso.Codec.Probed

/-! A failed merge. `ipp_codec_apply_printer_attributes` updates the profile in place, record by
record, so a response that breaks off leaves the profile between the old one and the new one; its
callers decide whether to keep that. -/
namespace Espresso.Codec

/-- A reading loop that faults has read whole items up to the fault. -/
theorem readRecords_of_fault {group : UInt8} {current bs : Bytes} {f : CodecError}
    (h : scan (cstr current) bs = .error f) :
    ∃ items rest, bs = encodeItems items ++ rest ∧
      readStep (cstr (nameAfter current items)) rest = .fault f ∧
      readRecords group current bs = recordsFrom group current items := by
  fun_induction readRecords group current bs with
  | case1 group current bs rest hs => rw [scan, hs] at h; cases h
  | case2 group current bs f' hs =>
    rw [scan, hs] at h
    cases h
    exact ⟨[],bs,rfl,hs,rfl⟩
  | case3 group current bs tag rest hs ih =>
    rw [scan, hs] at h
    cases hr : scan (cstr []) rest with
    | ok r =>
      have hr' : scan [] rest = .ok r := hr
      simp only [hr'] at h
      cases h
    | error f' =>
      have hr' : scan [] rest = .error f' := hr
      simp only [hr'] at h
      cases h
      obtain ⟨items,tail,rfl,hfault,hrecords⟩ := ih hr
      exact ⟨.group tag :: items,tail,(readStep_group_inv hs).1,hfault,hrecords⟩
  | case4 group current bs tag name value rest hs ih =>
    rw [scan, hs] at h
    simp only [← cstr_inheritName] at h
    cases hr : scan (cstr (inheritName current name)) rest with
    | ok r => simp only [hr] at h; cases h
    | error f' =>
      simp only [hr] at h
      cases h
      obtain ⟨items,tail,rfl,hfault,hrecords⟩ := ih hr
      refine ⟨.value tag name value :: items,tail,?_,hfault,?_⟩
      · rw [(readStep_value_inv hs).1, encodeItems_cons, List.append_assoc]
      · rw [recordsFrom, hrecords]

/-- What a failed call leaves behind: the profile it was given, if not even a header is there, else
that profile with the header and the whole records before the fault merged in order. Nothing is
taken from after the fault, and no derived field is finalised. -/
theorem ippCodecApplyPrinterAttributes_partial {input : Bytes} {t t' : PrinterTarget}
    {f : CodecError} (h : ippCodecApplyPrinterAttributes input t = .error (f,t')) :
    (input.length < ippHeaderLength ∧ t' = t) ∨
    ∃ header items rest, input = header ++ (encodeItems items ++ rest) ∧
      header.length = ippHeaderLength ∧ readStep (cstr (nameAfter [] items)) rest = .fault f ∧
      t' = (recordsFrom 0 [] items).foldl mergeRecord (applyHeader t header) := by
  by_cases hlen : input.length < ippHeaderLength
  · rw [ippCodecApplyPrinterAttributes, if_pos hlen] at h
    cases h
    exact .inl ⟨hlen,rfl⟩
  right
  rw [ippCodecApplyPrinterAttributes_eq hlen] at h
  cases hs : scan [] (input.drop ippHeaderLength) with
  | ok r =>
    obtain ⟨e,he,-⟩ := decode_of_scan_ok hlen hs
    rw [he] at h
    cases h
  | error f' =>
    rw [decode_of_scan_error hlen hs] at h
    cases h
    obtain ⟨items,rest,hbytes,hfault,hrecords⟩ := @readRecords_of_fault 0 [] _ _ hs
    refine ⟨input.take ippHeaderLength,items,rest,?_,?_,hfault,?_⟩
    · rw [← hbytes, List.take_append_drop]
    · rw [List.length_take]
      omega
    · rw [mergeResponse, responseRecords, hrecords, applyHeader_take]

/-- A response that ends in the middle of its second record. -/
def brokenOffResponse : Bytes :=
  [2,0,0,0,0,0,0,1,Tag.printerAttributes] ++
    (Item.value Tag.enum (octets "operations-supported") (u32 2)).encode ++ [Tag.keyword,0]

/-- The profile of a printer that DNS-SD found. -/
def foundTarget : PrinterTarget := targetFromResult ⟨some (octets "Acme"),none,631,[],[]⟩ false

theorem ippCodecApplyPrinterAttributes_brokenOff :
    ∃ f t', ippCodecApplyPrinterAttributes brokenOffResponse foundTarget = .error (f,t') ∧
      ((brokenOffResponse.length < ippHeaderLength ∧ t' = foundTarget) ∨
      ∃ header items rest, brokenOffResponse = header ++ (encodeItems items ++ rest) ∧
        header.length = ippHeaderLength ∧ readStep (cstr (nameAfter [] items)) rest = .fault f ∧
        t' = (recordsFrom 0 [] items).foldl mergeRecord (applyHeader foundTarget header)) := by
  have herror : decode brokenOffResponse = .error .incomplete := by decide +kernel
  obtain ⟨t',h⟩ := ippCodecApplyPrinterAttributes_error herror foundTarget
  exact ⟨_,t',h, ippCodecApplyPrinterAttributes_partial h⟩

/-- The operation it lists stays in the profile although the call fails. -/
theorem ippCodecApplyPrinterAttributes_not_atomic :
    ∃ f t', ippCodecApplyPrinterAttributes brokenOffResponse foundTarget = .error (f,t') ∧
      t' ≠ foundTarget := by
  have hlen : ¬ brokenOffResponse.length < ippHeaderLength := by decide +kernel
  have herror : decode brokenOffResponse = .error .incomplete := by decide +kernel
  refine ⟨.incomplete,mergeResponse foundTarget brokenOffResponse,?_,?_⟩
  · rw [ippCodecApplyPrinterAttributes_eq hlen, herror]
  · intro hsame
    have hoperations : (mergeResponse foundTarget brokenOffResponse).operationsSupported =
        foundTarget.operationsSupported := congrArg _ hsame
    revert hoperations
    decide +kernel

end Espresso.Codec
