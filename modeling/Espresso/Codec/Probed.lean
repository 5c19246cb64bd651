import Espresso.Codec.Discovery

/-! Profiles as the calls of the codec leave them: what the printer's responses, complete or not,
have put into them. -/
namespace Espresso.Codec

/-! ### The records that a reading loop sees -/

/-- Records up to the end of the attributes, or up to the first fault. -/
def readRecords (group : UInt8) (current bs : Bytes) : List Record :=
  match _h : readStep (cstr current) bs with
  | .ended _ => []
  | .fault _ => []
  | .group tag rest => readRecords tag [] rest
  | .value tag name value rest =>
    ⟨group,inheritName current name,tag,value⟩ :: readRecords group (inheritName current name) rest
termination_by bs.length
decreasing_by
  · exact readStep_group_length _h
  · exact readStep_value_length _h

theorem readRecords_of_scan {group : UInt8} {current bs document : Bytes} {items : List Item}
    (h : scan (cstr current) bs = .ok (items,document)) :
    readRecords group current bs = recordsFrom group current items := by
  fun_induction readRecords group current bs generalizing items with
  | case1 group current bs rest hs => rw [scan, hs] at h; cases h; rfl
  | case2 group current bs f hs => rw [scan, hs] at h; cases h
  | case3 group current bs tag rest hs ih =>
    rw [scan, hs] at h
    cases hr : scan (cstr []) rest with
    | error f =>
      have hr' : scan [] rest = .error f := hr
      simp only [hr'] at h
      cases h
    | ok r =>
      have hr' : scan [] rest = .ok r := hr
      simp only [hr'] at h
      cases h
      exact ih hr
  | case4 group current bs tag name value rest hs ih =>
    rw [scan, hs] at h
    simp only [← cstr_inheritName] at h
    cases hr : scan (cstr (inheritName current name)) rest with
    | error f => simp only [hr] at h; cases h
    | ok r =>
      simp only [hr] at h
      cases h
      rw [recordsFrom, ih hr]

/-- A loop that only looks at values folds over the records it sees, then stops as the scan
does. -/
theorem Walker.reader_walk_eq {σ ε : Type} (onValue : σ → Bytes → UInt8 → Bytes → σ)
    (onFault : σ → CodecError → ε) (group : UInt8) (current bs : Bytes) (s : σ) :
    (reader (fun s _ => s) onValue onFault).walk s (cstr current) bs =
      match scan (cstr current) bs with
      | .ok r => .ok ((readRecords group current bs).foldl
          (fun s r => onValue s r.attributeName r.tag r.value) s,r.2)
      | .error f => .error (onFault ((readRecords group current bs).foldl
          (fun s r => onValue s r.attributeName r.tag r.value) s) f) := by
  fun_induction readRecords group current bs generalizing s with
  | case1 group current bs rest hs => rw [walk, scan, hs]; rfl
  | case2 group current bs f hs => rw [walk, scan, hs]; rfl
  | case3 group current bs tag rest hs ih =>
    rw [walk, scan, hs]
    have hrest := ih s
    simp only [cstr_nil] at hrest
    simp only [reader] at hrest ⊢
    rw [hrest]
    cases scan [] rest <;> rfl
  | case4 group current bs tag name value rest hs ih =>
    rw [walk, scan, hs]
    simp only [reader, ← cstr_inheritName] at ih ⊢
    rw [ih, List.foldl_cons]
    cases scan (cstr (inheritName current name)) rest <;> rfl

/-! ### One call -/

/-- The records of a response, as far as it can be read. -/
def responseRecords (input : Bytes) : List Record := readRecords 0 [] (input.drop ippHeaderLength)

theorem responseRecords_of_decode {input : Bytes} {e : Envelope} (h : decode input = .ok e) :
    responseRecords input = e.records := by
  have hs : scan (cstr []) (input.drop ippHeaderLength) = .ok (e.items,e.document) :=
    Walker.scan_message h
  rw [responseRecords, readRecords_of_scan hs, Envelope.records]

def mergeRecord (t : PrinterTarget) (r : Record) : PrinterTarget :=
  applyValue t r.attributeName r.tag r.value

/-- The profile before it is finalised. -/
def mergeResponse (t : PrinterTarget) (input : Bytes) : PrinterTarget :=
  (responseRecords input).foldl mergeRecord (applyHeader t input)

/-- A call merges what it can read; only a complete message is finalised. -/
theorem ippCodecApplyPrinterAttributes_eq {input : Bytes}
    (hlen : ¬ input.length < ippHeaderLength) (t : PrinterTarget) :
    ippCodecApplyPrinterAttributes input t =
      match decode input with
      | .ok _ => .ok (ippCodecFinalizeProfile (mergeResponse t input))
      | .error f => .error (f,mergeResponse t input) := by
  have hwalk := Walker.reader_walk_eq applyValue (fun t e => (e,t)) 0 []
    (input.drop ippHeaderLength) (applyHeader t input)
  rw [cstr_nil] at hwalk
  rw [ippCodecApplyPrinterAttributes, if_neg hlen, hwalk]
  cases hs : scan [] (input.drop ippHeaderLength) with
  | ok r =>
    obtain ⟨items,document⟩ := r
    obtain ⟨e,he,-⟩ := decode_of_scan_ok hlen hs
    rw [he]
    rfl
  | error f =>
    rw [decode_of_scan_error hlen hs]
    rfl

/-- The call returns this profile, with or without an error. -/
def Leaves (input : Bytes) (t t' : PrinterTarget) : Prop :=
  ippCodecApplyPrinterAttributes input t = .ok t' ∨
    ∃ f, ippCodecApplyPrinterAttributes input t = .error (f,t')

/-- What a call can do to a profile. -/
theorem Leaves.cases {input : Bytes} {t t' : PrinterTarget} (h : Leaves input t t') :
    t' = t ∨ t' = mergeResponse t input ∨
      t' = ippCodecFinalizeProfile (mergeResponse t input) := by
  by_cases hlen : input.length < ippHeaderLength
  · have hshort : ippCodecApplyPrinterAttributes input t = .error (.incomplete,t) := if_pos hlen
    rw [Leaves, hshort] at h
    rcases h with h | ⟨f,h⟩
    · cases h
    · cases h
      exact .inl rfl
  · rw [Leaves, ippCodecApplyPrinterAttributes_eq hlen] at h
    right
    cases hd : decode input with
    | ok e =>
      rw [hd] at h
      rcases h with h | ⟨f,h⟩
      · cases h
        exact .inr rfl
      · cases h
    | error f' =>
      rw [hd] at h
      rcases h with h | ⟨f,h⟩
      · cases h
      · cases h
        exact .inl rfl

/-! ### Runs -/

/-- Profiles that start from a DNS-SD result and go through any calls of
`ipp_codec_apply_printer_attributes`, failing ones included, and `ipp_codec_finalize_profile`. The
list holds the responses, the last one first. -/
inductive Probed : List Bytes → PrinterTarget → Prop
  | discovered (result : MdnsResult) (secure : Bool) : Probed [] (targetOfTxt result secure)
  | finalized {inputs : List Bytes} {t : PrinterTarget} (h : Probed inputs t) :
    Probed inputs (ippCodecFinalizeProfile t)
  | probed {inputs : List Bytes} {t t' : PrinterTarget} (h : Probed inputs t) {input : Bytes}
    (hleaves : Leaves input t t') : Probed (input :: inputs) t'

/-- What discovery establishes and every record, header and finalisation keep holds of every such
profile. The invariant may speak of the responses seen so far. -/
theorem Probed.induct {P : List Bytes → PrinterTarget → Prop}
    (hdiscovered : ∀ result secure, P [] (targetOfTxt result secure))
    (hfinal : ∀ inputs t, P inputs t → P inputs (ippCodecFinalizeProfile t))
    (hheader : ∀ input inputs t, P inputs t → P (input :: inputs) (applyHeader t input))
    (hvalue : ∀ input inputs t, ∀ r ∈ responseRecords input, P (input :: inputs) t →
      P (input :: inputs) (mergeRecord t r))
    (hmore : ∀ input inputs t, P inputs t → P (input :: inputs) t)
    {inputs : List Bytes} {t : PrinterTarget} (h : Probed inputs t) : P inputs t := by
  induction h with
  | discovered result secure => exact hdiscovered result secure
  | finalized _ ih => exact hfinal _ _ ih
  | @probed inputs t t' _ input hleaves ih =>
    have hmerge : P (input :: inputs) (mergeResponse t input) := by
      have hfold : ∀ (rs : List Record) t, (∀ r ∈ rs, r ∈ responseRecords input) →
          P (input :: inputs) t → P (input :: inputs) (rs.foldl mergeRecord t) := by
        intro rs
        induction rs with
        | nil => intro t _ ht; exact ht
        | cons r rs ihr =>
          intro t hrs ht
          exact ihr _ (fun r' hr' => hrs r' (List.mem_cons_of_mem _ hr'))
            (hvalue input inputs t r (hrs r List.mem_cons_self) ht)
      exact hfold _ _ (fun _ hr => hr) (hheader input inputs t ih)
    rcases hleaves.cases with rfl | rfl | rfl
    · exact hmore input inputs _ ih
    · exact hmerge
    · exact hfinal _ _ hmerge

/-! ### Operations -/

/-- The response lists this operation. -/
def Record.Reports (r : Record) (operation : ℕ) : Prop :=
  r.attributeName = octets "operations-supported" ∧ r.tag = Tag.enum ∧ r.value.length = 4 ∧
    encodedU32 r.value = operation

def Reports (input : Bytes) (operation : ℕ) : Prop :=
  ∃ r ∈ responseRecords input, r.Reports operation

/-- What a record of this name leaves alone: the resolutions, and the operations unless it lists
them. -/
structure Untouched (name : Bytes) (t t' : PrinterTarget) : Prop where
  low : t'.resolutionLowDpi = t.resolutionLowDpi
  high : t'.resolutionHighDpi = t.resolutionHighDpi
  operations : name ≠ octets "operations-supported" →
    t'.operationsSupported = t.operationsSupported

section
variable {name : Bytes} {t a b : PrinterTarget}

theorem Untouched.ite {c : Prop} [Decidable c] (ha : c → Untouched name t a)
    (hb : Untouched name t b) : Untouched name t (if c then a else b) := by
  split
  · rename_i h
    exact ha h
  · exact hb

theorem Untouched.colorIf {condition : Bool} (h : Untouched name t a) :
    Untouched name t (colorIf a condition) := by
  unfold Codec.colorIf
  split
  · exact ⟨h.low,h.high,h.operations⟩
  · exact h

end

theorem untouched_applyValue (t : PrinterTarget) (name : Bytes) (tag : UInt8) (value : Bytes) :
    Untouched name t (applyValue t name tag value) := by
  unfold applyValue
  repeat' first
    | with_reducible refine Untouched.ite (fun _ => ?_) ?_
    | with_reducible refine Untouched.colorIf ?_
    | exact ⟨rfl,rfl,fun _ => rfl⟩
  · split
    · exact ⟨rfl,rfl,fun _ => rfl⟩
    · exact ⟨rfl,rfl,fun _ => rfl⟩
  · rename_i hname _
    exact ⟨rfl,rfl,fun h => absurd hname.1 h⟩

/-- A record sets the bit of the operation it lists, and no other. -/
theorem mergeRecord_operations (t : PrinterTarget) (r : Record) (n : ℕ) :
    (mergeRecord t r).operationsSupported.testBit n = true ↔
      t.operationsSupported.testBit n = true ∨ n < 64 ∧ r.Reports n := by
  by_cases hname : r.attributeName = octets "operations-supported"
  · rw [mergeRecord, hname]
    simp only [applyValue, octets_inj, String.reduceEq, false_and, or_self, if_false, true_and,
      Record.Reports, hname]
    by_cases hvalue : r.tag = Tag.enum ∧ r.value.length = 4
    · rw [if_pos hvalue]
      by_cases h64 : encodedU32 r.value < 64
      · rw [if_pos h64]
        simp only [Nat.testBit_or, Nat.one_shiftLeft, Nat.testBit_two_pow, Bool.or_eq_true,
          decide_eq_true_eq]
        constructor
        · rintro (h | rfl)
          · exact .inl h
          · exact .inr ⟨h64,hvalue.1,hvalue.2,rfl⟩
        · rintro (h | ⟨-,-,-,h⟩)
          · exact .inl h
          · exact .inr h
      · rw [if_neg h64]
        constructor
        · exact .inl
        · rintro (h | ⟨hn,-,-,rfl⟩)
          · exact h
          · exact absurd hn h64
    · rw [if_neg hvalue]
      constructor
      · exact .inl
      · rintro (h | ⟨-,h1,h2,-⟩)
        · exact h
        · exact absurd ⟨h1,h2⟩ hvalue
  · have h := untouched_applyValue t r.attributeName r.tag r.value
    rw [mergeRecord, h.operations hname]
    constructor
    · exact .inl
    · rintro (h | ⟨-,hr⟩)
      · exact h
      · exact absurd hr.1 hname

theorem finalizeUrf_operations (t : PrinterTarget) (tokens : List Bytes) :
    (tokens.foldl finalizeUrf t).operationsSupported = t.operationsSupported ∧
      (tokens.foldl finalizeUrf t).urf = t.urf := by
  induction tokens generalizing t with
  | nil => exact ⟨rfl,rfl⟩
  | cons token tokens ih =>
    obtain ⟨h1,h2⟩ := ih (finalizeUrf t token)
    rw [List.foldl_cons, h1, h2]
    unfold finalizeUrf
    and_intros
    all_goals
      simp only
      split_ifs <;> rfl

/-- Finalisation adds Print-Job and Get-Printer-Attributes for a URF printer. -/
theorem finalize_operations (t : PrinterTarget) (n : ℕ) :
    (ippCodecFinalizeProfile t).operationsSupported.testBit n = true ↔
      t.operationsSupported.testBit n = true ∨ t.urf.val ≠ [] ∧
        (n = Operation.printJob ∨ n = Operation.getPrinterAttributes) := by
  obtain ⟨hops,hurf⟩ := finalizeUrf_operations t (csvTokens t.urf.val)
  have heq : (ippCodecFinalizeProfile t).operationsSupported =
      if t.urf.val ≠ [] then t.operationsSupported |||
        (1 <<< Operation.printJob ||| 1 <<< Operation.getPrinterAttributes)
      else t.operationsSupported := by
    unfold ippCodecFinalizeProfile
    extract_lets t1 t2 t3 t4
    have h5 : (if t4.ippVersions.val = [] ∧ t4.upstreamIppMajor ≠ 0 then
        { t4 with ippVersions := .copy 32 (octets (toString t4.upstreamIppMajor.toNat ++ "." ++
          toString t4.upstreamIppMinor.toNat)) } else t4).operationsSupported =
        t4.operationsSupported := by split <;> rfl
    have h4 : t4.operationsSupported = t3.operationsSupported := by
      simp only [t4]
      split <;> rfl
    have h3 : t3.operationsSupported = if t2.urf.val ≠ [] then t2.operationsSupported |||
        (1 <<< Operation.printJob ||| 1 <<< Operation.getPrinterAttributes)
        else t2.operationsSupported := by
      simp only [t3]
      split <;> rfl
    have hops2 : t2.operationsSupported = t.operationsSupported := hops
    have hurf2 : t2.urf = t.urf := hurf
    rw [h5, h4, h3, hops2, hurf2]
  rw [heq]
  split
  · rename_i h
    simp only [Nat.testBit_or, Nat.one_shiftLeft, Nat.testBit_two_pow, Bool.or_eq_true,
      decide_eq_true_eq]
    constructor
    · rintro (h1 | h1 | h1)
      · exact .inl h1
      · exact .inr ⟨h,.inl h1.symm⟩
      · exact .inr ⟨h,.inr h1.symm⟩
    · rintro (h1 | ⟨-,h1 | h1⟩)
      · exact .inl h1
      · exact .inr (.inl h1.symm)
      · exact .inr (.inr h1.symm)
  · rename_i h
    simp [h]

/-- Every operation of a profile was listed in one of the responses, or is one that every URF
printer has. -/
theorem Probed.operations {inputs : List Bytes} {t : PrinterTarget} (h : Probed inputs t) {n : ℕ}
    (hn : t.operationsSupported.testBit n = true) :
    n = Operation.printJob ∨ n = Operation.getPrinterAttributes ∨
      ∃ input ∈ inputs, Reports input n := by
  revert hn
  refine Probed.induct (P := fun inputs t => t.operationsSupported.testBit n = true →
    n = Operation.printJob ∨ n = Operation.getPrinterAttributes ∨
      ∃ input ∈ inputs, Reports input n) ?_ ?_ ?_ ?_ ?_ h
  · intro result secure hn
    simp [targetOfTxt, PrinterTarget.zero] at hn
  · intro inputs t ih hn
    rcases (finalize_operations t n).mp hn with hn | ⟨-,rfl | rfl⟩
    · exact ih hn
    · exact .inl rfl
    · exact .inr (.inl rfl)
  · intro input inputs t ih hn
    rcases ih hn with h | h | ⟨i,hi,hr⟩
    · exact .inl h
    · exact .inr (.inl h)
    · exact .inr (.inr ⟨i,List.mem_cons_of_mem _ hi,hr⟩)
  · intro input inputs t r hr ih hn
    rcases (mergeRecord_operations t r n).mp hn with hn | ⟨-,hreports⟩
    · exact ih hn
    · exact .inr (.inr ⟨input,List.mem_cons_self,r,hr,hreports⟩)
  · intro input inputs t ih hn
    rcases ih hn with h | h | ⟨i,hi,hr⟩
    · exact .inl h
    · exact .inr (.inl h)
    · exact .inr (.inr ⟨i,List.mem_cons_of_mem _ hi,hr⟩)

/-! ### Resolutions -/

/-- Both resolutions are known or neither is. -/
def ResolutionsPaired (t : PrinterTarget) : Prop :=
  t.resolutionLowDpi = 0 ↔ t.resolutionHighDpi = 0

theorem finalizeUrf_paired {t : PrinterTarget} (token : Bytes) (h : ResolutionsPaired t) :
    ResolutionsPaired (finalizeUrf t token) := by
  unfold finalizeUrf
  extract_lets t1
  have h1 : ResolutionsPaired t1 := by
    simp only [t1]
    split
    · generalize strtoul ((token.drop 2).take 23) = first
      obtain ⟨low,next⟩ := first
      generalize (if next.head? = some 0x2d then strtoul next.tail else (low,next)) = second
      obtain ⟨high,rest⟩ := second
      simp only
      split
      · rename_i hrange
        obtain ⟨-,hlow,-,hhigh,-⟩ := hrange
        exact ⟨fun h => absurd h (Nat.ne_of_gt hlow),fun h => absurd h (Nat.ne_of_gt hhigh)⟩
      · exact h
    · exact h
  split
  · exact h1
  · exact h1

theorem finalize_paired {t : PrinterTarget} (h : ResolutionsPaired t) :
    ResolutionsPaired (ippCodecFinalizeProfile t) := by
  have hurf : ∀ (tokens : List Bytes) t, ResolutionsPaired t →
      ResolutionsPaired (tokens.foldl finalizeUrf t) := by
    intro tokens
    induction tokens with
    | nil => intro t h; exact h
    | cons token tokens ih => intro t h; exact ih _ (finalizeUrf_paired token h)
  unfold ippCodecFinalizeProfile
  extract_lets t1 t2 t3 t4
  have h2 : ResolutionsPaired t2 := hurf _ t h
  have h3 : ResolutionsPaired t3 := by
    simp only [t3]
    split <;> exact h2
  have h4 : ResolutionsPaired t4 := by
    simp only [t4]
    split <;> exact h3
  split <;> exact h4

theorem Probed.resolutions {inputs : List Bytes} {t : PrinterTarget} (h : Probed inputs t) :
    ResolutionsPaired t := by
  refine Probed.induct (P := fun _ t => ResolutionsPaired t) ?_ ?_ ?_ ?_ ?_ h
  · intro result secure
    exact Iff.rfl
  · intro inputs t ih
    exact finalize_paired ih
  · intro input inputs t ih
    exact ih
  · intro input inputs t r _ ih
    have hsame := untouched_applyValue t r.attributeName r.tag r.value
    rw [ResolutionsPaired, mergeRecord, hsame.low, hsame.high]
    exact ih
  · intro input inputs t ih
    exact ih

end Espresso.Codec
