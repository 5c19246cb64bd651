import Mathlib

/-! Octet strings as a C program handles them: big-endian fields, NUL-terminated
strings, and fixed-size character arrays that carry their terminator. -/
namespace Espresso

abbrev Bytes := List UInt8

/-- The octets of a string literal, without the terminator. -/
def octets (s : String) : Bytes := s.toUTF8.data.toList

@[simp] theorem octets_inj {s t : String} : octets s = octets t ↔ s = t := by
  constructor
  · intro h
    apply String.toByteArray_inj.mp
    apply ByteArray.ext
    apply Array.toList_inj.mp
    exact h
  · rintro rfl; rfl

/-! ### Big-endian fields -/

def u16 (n : ℕ) : Bytes := [UInt8.ofNat (n / 256), UInt8.ofNat n]

def readU16 (hi lo : UInt8) : ℕ := hi.toNat * 256 + lo.toNat

def u32 (n : ℕ) : Bytes :=
  [UInt8.ofNat (n / 16777216), UInt8.ofNat (n / 65536), UInt8.ofNat (n / 256), UInt8.ofNat n]

def readU32 (a b c d : UInt8) : ℕ :=
  a.toNat * 16777216 + b.toNat * 65536 + c.toNat * 256 + d.toNat

@[simp] theorem u16_length (n : ℕ) : (u16 n).length = 2 := rfl
@[simp] theorem u32_length (n : ℕ) : (u32 n).length = 4 := rfl

theorem readU16_lt (hi lo : UInt8) : readU16 hi lo < 65536 := by
  have h := hi.toNat_lt
  have l := lo.toNat_lt
  unfold readU16
  omega

theorem readU32_lt (a b c d : UInt8) : readU32 a b c d < 4294967296 := by
  have ha := a.toNat_lt
  have hb := b.toNat_lt
  have hc := c.toNat_lt
  have hd := d.toNat_lt
  unfold readU32
  omega

/-- Storing a number in one octet keeps its last eight bits. -/
theorem ofNat_eq_octet {n : ℕ} {c : UInt8} (h : n % 256 = c.toNat) : UInt8.ofNat n = c := by
  apply UInt8.toNat_inj.mp
  simpa only [UInt8.toNat_ofNat'] using h

theorem u16_readU16 (hi lo : UInt8) : u16 (readU16 hi lo) = [hi,lo] := by
  have h := hi.toNat_lt
  have l := lo.toNat_lt
  have e1 : UInt8.ofNat (readU16 hi lo / 256) = hi := ofNat_eq_octet (by unfold readU16; omega)
  have e2 : UInt8.ofNat (readU16 hi lo) = lo := ofNat_eq_octet (by unfold readU16; omega)
  rw [u16,e1,e2]

theorem readU16_u16 (n : ℕ) (h : n < 65536) :
    readU16 (UInt8.ofNat (n / 256)) (UInt8.ofNat n) = n := by
  simp only [readU16, UInt8.toNat_ofNat']
  omega

theorem readU32_u32 (n : ℕ) (h : n < 4294967296) :
    readU32 (UInt8.ofNat (n / 16777216)) (UInt8.ofNat (n / 65536)) (UInt8.ofNat (n / 256))
      (UInt8.ofNat n) = n := by
  simp only [readU32, UInt8.toNat_ofNat']
  omega

theorem u32_readU32 (a b c d : UInt8) : u32 (readU32 a b c d) = [a,b,c,d] := by
  have ha := a.toNat_lt
  have hb := b.toNat_lt
  have hc := c.toNat_lt
  have hd := d.toNat_lt
  have e1 : UInt8.ofNat (readU32 a b c d / 16777216) = a :=
    ofNat_eq_octet (by unfold readU32; omega)
  have e2 : UInt8.ofNat (readU32 a b c d / 65536) = b := ofNat_eq_octet (by unfold readU32; omega)
  have e3 : UInt8.ofNat (readU32 a b c d / 256) = c := ofNat_eq_octet (by unfold readU32; omega)
  have e4 : UInt8.ofNat (readU32 a b c d) = d := ofNat_eq_octet (by unfold readU32; omega)
  rw [u32,e1,e2,e3,e4]

/-! ### NUL-terminated strings -/

/-- What the string functions of C see of an octet string: everything before the first NUL. -/
def cstr (b : Bytes) : Bytes := b.takeWhile (· ≠ 0)

@[simp] theorem cstr_nil : cstr [] = [] := rfl

theorem zero_notMem_cstr (b : Bytes) : 0 ∉ cstr b := by
  intro h
  simpa using List.mem_takeWhile_imp h

theorem cstr_eq_self {b : Bytes} (h : 0 ∉ b) : cstr b = b := by
  apply List.takeWhile_eq_self_iff.mpr
  intro x hx
  have : x ≠ 0 := fun e => h (e ▸ hx)
  simpa using this

@[simp] theorem cstr_cstr (b : Bytes) : cstr (cstr b) = cstr b :=
  cstr_eq_self (zero_notMem_cstr b)

theorem cstr_length_le (b : Bytes) : (cstr b).length ≤ b.length :=
  (List.takeWhile_sublist _).length_le

theorem cstr_append_of_notMem {a : Bytes} (h : 0 ∉ a) (b : Bytes) : cstr (a ++ b) = a ++ cstr b := by
  apply List.takeWhile_append_of_pos
  intro c hc
  have : c ≠ 0 := fun e => h (e ▸ hc)
  simpa using this

/-- What lies behind the terminator does not matter. -/
theorem cstr_append_of_mem {b : Bytes} (h : 0 ∈ b) (d : Bytes) : cstr (b ++ d) = cstr b := by
  induction b with
  | nil => cases h
  | cons c b ih =>
    by_cases hc : c = 0
    · simp [cstr, hc]
    · rcases List.mem_cons.mp h with h0 | hmem
      · exact absurd h0.symm hc
      · have hrec := ih hmem
        simpa [cstr, hc] using hrec

/-- The string ends before any NUL. -/
theorem cstr_length_le_of_zero {b : Bytes} {i : ℕ} (h : b[i]? = some 0) : (cstr b).length ≤ i := by
  induction b generalizing i with
  | nil => exact Nat.zero_le _
  | cons c b ih =>
    by_cases hc : c = 0
    · simp [cstr, hc]
    · cases i with
      | zero => exact absurd (Option.some_inj.mp h) hc
      | succ i =>
        have hrec := ih (i := i) h
        simpa [cstr, hc] using hrec

/-- A NUL-terminated string held in a character array of `n` octets. -/
def Text (n : ℕ) := {s : Bytes // 0 ∉ s ∧ s.length ≤ n - 1}

namespace Text

instance (n : ℕ) : DecidableEq (Text n) := inferInstanceAs (DecidableEq (Subtype _))

def empty {n : ℕ} : Text n := ⟨[],by simp⟩

instance (n : ℕ) : Inhabited (Text n) := ⟨empty⟩

/-- Bounded copy into the array: as many octets as fit before the terminator. -/
def copy (n : ℕ) (value : Bytes) : Text n :=
  ⟨cstr (value.take (n - 1)), zero_notMem_cstr _,
    (cstr_length_le _).trans (List.length_take_le _ _)⟩

@[simp] theorem empty_val {n : ℕ} : (empty : Text n).val = [] := rfl

theorem copy_val {n : ℕ} {value : Bytes} (h0 : 0 ∉ value) (hn : value.length ≤ n - 1) :
    (copy n value).val = value := by
  change cstr (value.take (n - 1)) = value
  rw [List.take_of_length_le hn]
  exact cstr_eq_self h0

theorem copy_self {n : ℕ} (t : Text n) : copy n t.val = t :=
  Subtype.ext (copy_val t.property.1 t.property.2)

end Text

/-! ### The character classes of the C locale -/

def isspace (c : UInt8) : Bool := c = 0x20 || (0x09 ≤ c && c ≤ 0x0d)

def isdigit (c : UInt8) : Bool := 0x30 ≤ c && c ≤ 0x39

def tolower (c : UInt8) : UInt8 := if 0x41 ≤ c && c ≤ 0x5a then c + 0x20 else c

def isxdigit (c : UInt8) : Bool := isdigit c || (0x61 ≤ tolower c && tolower c ≤ 0x66)

/-- `strcasecmp` on whole strings. -/
def strcasecmp (a b : Bytes) : Bool := (cstr a).map tolower = (cstr b).map tolower

end Espresso
