import Espresso.Lib.Utf8
import Espresso.Printer.Advertisement
import Espresso.State.Migration

/-! The service instance name: its text, whether it is UTF-8, and how it tells bridges apart. -/
namespace Espresso.Printer
open Codec Utf8 State

/-- The end of a UUID that goes into the name. -/
def lastFour (uuid : Bytes) : Bytes := uuid.drop (uuid.length - 4)

/-- There is no custom name, or one that is valid and that `normalize_printer_name` has accepted. -/
def Accepted (custom : Option Bytes) : Prop :=
  ∀ normalized, custom = some normalized →
    ∃ name, Valid name ∧ normalizePrinterName name 64 = .ok normalized

/-- The name is the custom one, or neither the label nor the UUID is cut inside a character. -/
def WholeName (t : PrinterTarget) (uuid : Bytes) (custom : Option Bytes) : Prop :=
  custom.getD [] ≠ [] ∨
    if uuid = [] then Boundary (advertisedLabel t) 51
    else Boundary (advertisedLabel t) 45 ∧ Valid (lastFour uuid)

/-! ### Custom names -/

theorem asciiWhitespace_ascii {c : UInt8} (h : asciiWhitespace c = true) : c < 0x80 := by
  simp only [asciiWhitespace, Bool.or_eq_true, decide_eq_true_eq] at h
  rcases h with ((rfl | rfl) | rfl) | rfl <;> decide

theorem valid_dropWhile {b : Bytes} (h : Valid b) : Valid (b.dropWhile asciiWhitespace) := by
  rw [← List.takeWhile_append_dropWhile (p := asciiWhitespace) (l := b)] at h
  refine (valid_append_iff (valid_of_ascii fun c hc => ?_)).mp h
  exact asciiWhitespace_ascii (List.mem_takeWhile_imp hc)

/-- Blanks at the end are characters by themselves. -/
theorem valid_dropWhile_reverse {b : Bytes} (h : Valid b) :
    Valid (b.reverse.dropWhile asciiWhitespace).reverse := by
  induction b using List.reverseRecOn with
  | nil => exact valid_nil
  | append_singleton b c ih =>
    rw [List.reverse_append, List.reverse_singleton, List.singleton_append]
    by_cases hc : asciiWhitespace c = true
    · rw [List.dropWhile_cons_of_pos hc]
      exact ih ((valid_append_cons_iff (asciiWhitespace_ascii hc)).mp h).1
    · rw [List.dropWhile_cons_of_neg hc, List.reverse_cons, List.reverse_reverse]
      exact h

/-- An accepted name is stored whole, and is as valid as it was. -/
theorem normalizePrinterName_ok {name normalized : Bytes} {size : ℕ}
    (h : normalizePrinterName name size = .ok normalized) :
    normalized.length < size ∧ 0 ∉ normalized ∧ (Valid name → Valid normalized) := by
  rw [normalizePrinterName] at h
  split_ifs at h with hlong hcontrol
  cases h
  refine ⟨not_le.mp hlong,fun h0 => hcontrol ?_,fun hvalid => ?_⟩
  · exact List.any_eq_true.mpr ⟨0,h0,by decide⟩
  · exact valid_dropWhile_reverse (valid_dropWhile hvalid)

/-! ### The three forms of the name -/

theorem octets_service : octets "ESPresso - " =
    [0x45,0x53,0x50,0x72,0x65,0x73,0x73,0x6f,0x20,0x2d,0x20] := rfl

theorem octets_open : octets " (" = [0x20,0x28] := rfl

theorem octets_close : octets ")" = [0x29] := rfl

theorem octets_defaultLabel : octets "Legacy AirPrint printer" =
    [0x4c,0x65,0x67,0x61,0x63,0x79,0x20,0x41,0x69,0x72,0x50,0x72,0x69,0x6e,0x74,0x20,0x70,0x72,
      0x69,0x6e,0x74,0x65,0x72] := rfl

section
variable {t : PrinterTarget} {custom : Option Bytes}

theorem advertisedLabel_zero (t : PrinterTarget) : 0 ∉ advertisedLabel t := by
  rw [advertisedLabel]
  split_ifs
  · exact t.label.property.1
  · exact t.instanceName.property.1
  · rw [octets_defaultLabel]
    decide

theorem advertisedLabel_valid (hlabel : Valid t.label.val) (hinstance : Valid t.instanceName.val) :
    Valid (advertisedLabel t) := by
  rw [advertisedLabel]
  split_ifs
  · exact hlabel
  · exact hinstance
  · exact valid_octets _

theorem advertisedInstance_custom (haccepted : Accepted custom) (hcustom : custom.getD [] ≠ [])
    (t : PrinterTarget) (uuid : Option Bytes) :
    (advertisedInstance t uuid custom).val = custom.getD [] ∧ Valid (custom.getD []) := by
  cases custom with
  | none => exact absurd rfl hcustom
  | some normalized =>
    obtain ⟨name,hname,hnormalized⟩ := haccepted normalized rfl
    obtain ⟨hlength,hzero,hvalid⟩ := normalizePrinterName_ok hnormalized
    refine ⟨?_,hvalid hname⟩
    cases normalized with
    | nil => exact absurd rfl hcustom
    | cons c cs =>
      change (Text.copy 64 (c :: cs)).val = c :: cs
      exact Text.copy_val hzero (Nat.le_pred_of_lt hlength)

theorem lastFour_length (uuid : Bytes) : (lastFour uuid).length ≤ 4 := by
  rw [lastFour, List.length_drop]
  omega

/-- An empty name is no name. -/
theorem advertisedInstance_none (hcustom : custom.getD [] = []) (t : PrinterTarget)
    (uuid : Option Bytes) : advertisedInstance t uuid custom = advertisedInstance t uuid none := by
  rcases custom with _ | _ | ⟨c,cs⟩
  · rfl
  · rfl
  · cases hcustom

/-- The name of a bridge that has been given none. -/
def defaultName (t : PrinterTarget) (uuid : Bytes) : Bytes :=
  octets "ESPresso - " ++ (advertisedLabel t).take 45 ++ octets " (" ++ lastFour uuid ++ octets ")"

theorem advertisedInstance_default (hcustom : custom.getD [] = []) (t : PrinterTarget) {m : ℕ}
    {uuid : Text m} (huuid : uuid.val ≠ []) :
    (advertisedInstance t (some uuid.val) custom).val = defaultName t uuid.val := by
  have hsuffix : (if 4 < uuid.val.length then uuid.val.drop (uuid.val.length - 4) else uuid.val) =
      lastFour uuid.val := by
    rw [lastFour]
    split
    · rfl
    · rw [show uuid.val.length - 4 = 0 by omega, List.drop_zero]
  have hne : lastFour uuid.val ≠ [] := by
    have := List.length_pos_of_ne_nil huuid
    rw [lastFour, ne_eq, List.drop_eq_nil_iff]
    omega
  have hzero : 0 ∉ defaultName t uuid.val := by
    simp only [defaultName, List.mem_append, not_or]
    rw [octets_service, octets_open, octets_close]
    refine ⟨⟨⟨⟨by decide,fun h => ?_⟩,by decide⟩,fun h => ?_⟩,by decide⟩
    · exact advertisedLabel_zero t (List.mem_of_mem_take h)
    · exact uuid.property.1 (List.mem_of_mem_drop h)
  have hlength : (defaultName t uuid.val).length ≤ 63 := by
    have := lastFour_length uuid.val
    simp only [defaultName, octets_service, octets_open, octets_close, List.length_append,
      List.length_take, List.length_cons, List.length_nil]
    omega
  have hname : advertisedInstance t (some uuid.val) custom =
      .copy 64 (defaultName t uuid.val) := by
    rw [advertisedInstance_none hcustom]
    unfold advertisedInstance
    simp only [Option.getD_some, hsuffix, List.take_of_length_le (lastFour_length _)]
    exact if_pos hne
  rw [hname]
  exact Text.copy_val hzero hlength

theorem advertisedInstance_plain (hcustom : custom.getD [] = []) (t : PrinterTarget) :
    (advertisedInstance t (some []) custom).val =
      octets "ESPresso - " ++ (advertisedLabel t).take 51 := by
  have hname : advertisedInstance t (some []) custom =
      .copy 64 (octets "ESPresso - " ++ (advertisedLabel t).take 51) := by
    rw [advertisedInstance_none hcustom]
    rfl
  rw [hname]
  apply Text.copy_val
  · rw [List.mem_append, not_or, octets_service]
    exact ⟨by decide,fun h => advertisedLabel_zero t (List.mem_of_mem_take h)⟩
  · simp only [octets_service, List.length_append, List.length_take, List.length_cons,
      List.length_nil]
    omega

/-- The parts of a default name are separated by ASCII characters. -/
theorem defaultName_valid_iff (hlabel : Valid (advertisedLabel t)) (uuid : Bytes) :
    Valid (defaultName t uuid) ↔ Boundary (advertisedLabel t) 45 ∧ Valid (lastFour uuid) := by
  rw [defaultName, octets_open, octets_close, List.append_assoc, List.append_assoc,
    List.append_assoc, valid_append_iff (valid_octets _), List.cons_append, List.singleton_append,
    valid_append_cons_iff (by decide), hlabel.take_iff]
  rw [← List.nil_append (0x28 :: _), valid_append_cons_iff (by decide),
    valid_append_cons_iff (by decide)]
  simp [valid_nil]

theorem defaultName_differs {t' : PrinterTarget} {uuid uuid' : Bytes}
    (hlabel : advertisedLabel t' = advertisedLabel t) (hne : lastFour uuid' ≠ lastFour uuid) :
    defaultName t' uuid' ≠ defaultName t uuid := by
  intro h
  rw [defaultName, defaultName, hlabel] at h
  simp only [List.append_assoc, List.append_cancel_left_eq, List.append_cancel_right_eq] at h
  exact hne h

/-- The name is valid UTF-8 and tells apart the bridges of one label exactly if it is whole; it
always fits. -/
theorem advertisedInstance_iff (hlabel : Valid t.label.val) (hinstance : Valid t.instanceName.val)
    (haccepted : Accepted custom) {m : ℕ} (uuid : Text m) :
    (Valid (advertisedInstance t (some uuid.val) custom).val ∧
      (advertisedInstance t (some uuid.val) custom).val.length ≤ 63 ∧
      (custom.getD [] = [] → uuid.val ≠ [] → ∀ (t' : PrinterTarget) (m' : ℕ) (uuid' : Text m'),
        advertisedLabel t' = advertisedLabel t → uuid'.val ≠ [] →
        lastFour uuid'.val ≠ lastFour uuid.val →
        advertisedInstance t' (some uuid'.val) custom ≠
          advertisedInstance t (some uuid.val) custom)) ↔
    WholeName t uuid.val custom := by
  have hshort := (advertisedInstance t (some uuid.val) custom).property.2
  have hvalid := advertisedLabel_valid hlabel hinstance
  have hdiffers : custom.getD [] = [] → uuid.val ≠ [] → ∀ (t' : PrinterTarget) (m' : ℕ)
      (uuid' : Text m'), advertisedLabel t' = advertisedLabel t → uuid'.val ≠ [] →
      lastFour uuid'.val ≠ lastFour uuid.val →
      advertisedInstance t' (some uuid'.val) custom ≠
        advertisedInstance t (some uuid.val) custom := by
    intro hcustom huuid t' m' uuid' hsame huuid' hne h
    refine defaultName_differs hsame hne ?_
    rw [← advertisedInstance_default hcustom t' huuid', h, advertisedInstance_default hcustom t huuid]
  rw [WholeName]
  by_cases hcustom : custom.getD [] = []
  · rw [or_iff_right (not_not.mpr hcustom)]
    by_cases huuid : uuid.val = []
    · have hplain : Valid (advertisedInstance t (some uuid.val) custom).val ↔
          Boundary (advertisedLabel t) 51 := by
        rw [huuid, advertisedInstance_plain hcustom, valid_append_iff (valid_octets _),
          hvalid.take_iff]
      rw [if_pos huuid, ← hplain]
      exact ⟨And.left,fun h => ⟨h,hshort,hdiffers⟩⟩
    · rw [if_neg huuid, ← defaultName_valid_iff hvalid, ← advertisedInstance_default hcustom t huuid]
      exact ⟨And.left,fun h => ⟨h,hshort,hdiffers⟩⟩
  · obtain ⟨hname,hok⟩ := advertisedInstance_custom haccepted hcustom t (some uuid.val)
    refine iff_of_true ⟨hname ▸ hok,hshort,fun h => absurd h hcustom⟩ (.inl hcustom)

end

/-- A printer whose label has a letter of two octets across the cut. -/
def accentedTarget : PrinterTarget :=
  { PrinterTarget.zero with
    label := .copy 96 (octets "Imprimante couleur du laboratoire central, côté rue") }

theorem accentedTarget_label : accentedTarget.label.val =
    octets "Imprimante couleur du laboratoire central, côté rue" := rfl

/-- Half of that letter is in the name. -/
theorem advertisedInstance_cut : Valid accentedTarget.label.val ∧
    Valid accentedTarget.instanceName.val ∧ Accepted none ∧
    ¬ Valid (advertisedInstance accentedTarget (some (octets "1b2c")) none).val := by
  refine ⟨accentedTarget_label ▸ valid_octets _,valid_nil,fun _ h => (by cases h),fun h => ?_⟩
  have hvalid : Valid (advertisedLabel accentedTarget) := by
    refine advertisedLabel_valid (accentedTarget_label ▸ valid_octets _) valid_nil
  have hname : (advertisedInstance accentedTarget (some (octets "1b2c")) none).val =
      defaultName accentedTarget (octets "1b2c") := rfl
  rw [hname, defaultName_valid_iff hvalid] at h
  exact absurd (h.1 0xb4 rfl) (by decide)

theorem advertisedInstance_iff_accented :
    (Valid (advertisedInstance accentedTarget (some (Text.copy 5 (octets "1b2c")).val) none).val ∧
      (advertisedInstance accentedTarget (some (Text.copy 5 (octets "1b2c")).val) none).val.length ≤
        63 ∧
      ((none : Option Bytes).getD [] = [] → (Text.copy 5 (octets "1b2c")).val ≠ [] →
        ∀ (t' : PrinterTarget) (m' : ℕ) (uuid' : Text m'),
        advertisedLabel t' = advertisedLabel accentedTarget → uuid'.val ≠ [] →
        lastFour uuid'.val ≠ lastFour (Text.copy 5 (octets "1b2c")).val →
        advertisedInstance t' (some uuid'.val) none ≠
          advertisedInstance accentedTarget (some (Text.copy 5 (octets "1b2c")).val) none)) ↔
    WholeName accentedTarget (Text.copy 5 (octets "1b2c")).val none :=
  advertisedInstance_iff (accentedTarget_label ▸ valid_octets _) valid_nil
    (fun _ h => by cases h) (Text.copy 5 (octets "1b2c"))

end Espresso.Printer
