import Espresso.Lib.Octets

/-! UTF-8 in octet strings: where a valid string can be cut, and how valid strings are put together.
The encoding of a character is that of the standard library. -/
namespace Espresso.Utf8

/-- The octets encode some characters. -/
def Valid (b : Bytes) : Prop := ∃ cs : List Char, cs.flatMap String.utf8EncodeChar = b

/-- No character is cut in two before this octet. -/
def Boundary (b : Bytes) (k : ℕ) : Prop := ∀ c, b[k]? = some c → c.IsUTF8FirstByte

theorem valid_nil : Valid [] := ⟨[],rfl⟩

theorem Valid.append {a b : Bytes} (ha : Valid a) (hb : Valid b) : Valid (a ++ b) := by
  obtain ⟨cs,rfl⟩ := ha
  obtain ⟨ds,rfl⟩ := hb
  exact ⟨cs ++ ds,List.flatMap_append⟩

/-- The first character of a string is determined by its octets. -/
theorem encodeChar_append_inj {c d : Char} {a b : Bytes}
    (h : String.utf8EncodeChar c ++ a = String.utf8EncodeChar d ++ b) : c = d ∧ a = b := by
  have hdecode : ∀ (c : Char) (a : Bytes),
      (String.utf8EncodeChar c ++ a).toByteArray.utf8DecodeChar? 0 = some c := by
    intro c a
    rw [List.toByteArray_append]
    exact ByteArray.utf8DecodeChar?_utf8EncodeChar_append
  have hc := hdecode c a
  rw [h, hdecode d b] at hc
  cases hc
  exact ⟨rfl,List.append_cancel_left h⟩

theorem valid_encodeChar_append {c : Char} {b : Bytes} :
    Valid (String.utf8EncodeChar c ++ b) ↔ Valid b := by
  constructor
  · rintro ⟨cs,hcs⟩
    cases cs with
    | nil =>
      have hne := String.utf8EncodeChar_ne_nil (c := c)
      rw [List.flatMap_nil] at hcs
      exact absurd (List.append_eq_nil_iff.mp hcs.symm).1 hne
    | cons d ds =>
      rw [List.flatMap_cons] at hcs
      exact ⟨ds,(encodeChar_append_inj hcs).2⟩
  · exact Valid.append ⟨[c],by simp⟩

/-- What follows a valid string is valid if both together are. -/
theorem valid_append_iff {a b : Bytes} (ha : Valid a) : Valid (a ++ b) ↔ Valid b := by
  obtain ⟨cs,rfl⟩ := ha
  induction cs with
  | nil => rw [List.flatMap_nil, List.nil_append]
  | cons c cs ih => rw [List.flatMap_cons, List.append_assoc, valid_encodeChar_append, ih]

theorem getElem?_encodeChar {c : Char} {k : ℕ} (hk : k < (String.utf8EncodeChar c).length)
    (b : Bytes) : Boundary (String.utf8EncodeChar c ++ b) k ↔ k = 0 := by
  have hget : (String.utf8EncodeChar c ++ b)[k]? = some (String.utf8EncodeChar c)[k] := by
    rw [List.getElem?_append_left hk, List.getElem?_eq_getElem hk]
  rw [Boundary, hget]
  simp

/-- A beginning of a valid string is valid exactly if it ends between two characters. -/
theorem Valid.take_iff {b : Bytes} (hb : Valid b) (k : ℕ) : Valid (b.take k) ↔ Boundary b k := by
  obtain ⟨cs,rfl⟩ := hb
  induction cs generalizing k with
  | nil => simp [Boundary, valid_nil]
  | cons c cs ih =>
    rw [List.flatMap_cons]
    rcases Nat.lt_or_ge k (String.utf8EncodeChar c).length with hk | hk
    · rw [getElem?_encodeChar hk, List.take_append_of_le_length hk.le]
      constructor
      · rintro ⟨ds,hds⟩
        cases ds with
        | nil =>
          rw [List.flatMap_nil] at hds
          have := List.take_eq_nil_iff.mp hds.symm
          exact this.resolve_right String.utf8EncodeChar_ne_nil
        | cons d ds =>
          -- the first character of the beginning would be the whole one
          rw [List.flatMap_cons] at hds
          have hwhole := List.take_append_drop k (String.utf8EncodeChar c)
          rw [← hds, List.append_assoc, ← List.append_nil (String.utf8EncodeChar c)] at hwhole
          obtain ⟨rfl,-⟩ := encodeChar_append_inj hwhole
          have hlength := congrArg List.length hds
          rw [List.length_append, List.length_take] at hlength
          omega
      · rintro rfl
        rw [List.take_zero]
        exact valid_nil
    · rw [List.take_append, List.take_of_length_le hk, valid_encodeChar_append, ih]
      rw [Boundary, Boundary, List.getElem?_append_right hk]

theorem valid_singleton {c : UInt8} (hc : c < 0x80) : Valid [c] := by
  refine ⟨[Char.ofNat c.toNat],?_⟩
  revert c
  decide +kernel

/-- Octets of ASCII are characters by themselves. -/
theorem valid_of_ascii {b : Bytes} (h : ∀ c ∈ b, c < 0x80) : Valid b := by
  induction b with
  | nil => exact valid_nil
  | cons c b ih =>
    obtain ⟨hc,hb⟩ := List.forall_mem_cons.mp h
    exact (valid_singleton hc).append (ih hb)

/-- On either side of an ASCII octet there is a valid string. -/
theorem valid_append_cons_iff {a b : Bytes} {c : UInt8} (hc : c < 0x80) :
    Valid (a ++ c :: b) ↔ Valid a ∧ Valid b := by
  have hfirst : c.IsUTF8FirstByte := by
    revert c
    decide +kernel
  constructor
  · intro h
    have ha : Valid a := by
      have htake := (h.take_iff a.length).mpr fun d hd => by
        rw [List.getElem?_append_right (Nat.le_refl _), Nat.sub_self] at hd
        cases hd
        exact hfirst
      rwa [List.take_left] at htake
    rw [valid_append_iff ha] at h
    exact ⟨ha,(valid_append_iff (valid_singleton hc)).mp h⟩
  · rintro ⟨ha,hb⟩
    exact ha.append ((valid_singleton hc).append hb)

theorem valid_octets (s : String) : Valid (octets s) := by
  refine ⟨s.toList,?_⟩
  have h := congrArg (fun b : ByteArray => b.data.toList) (String.utf8Encode_toList (b := s))
  simpa [List.utf8Encode, octets] using h

end Espresso.Utf8
