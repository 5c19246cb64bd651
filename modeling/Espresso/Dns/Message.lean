import Espresso.Lib.Layout
import Espresso.Lib.Octets

/-! DNS messages as RFC 1035 lays them out: what it means that a name, a question, a record or a
whole message stands at a position of an octet string. -/
namespace Espresso.Dns

/-- A label of a domain name. -/
structure Label where
  val : Bytes
  pos : 0 < val.length
  le : val.length ≤ 63

/-- What a name takes without compression; at most 255 octets are allowed. -/
def nameSize (labels : List Label) : ℕ := (labels.map fun l => l.val.length + 1).sum + 1

structure Question where
  labels : List Label
  type : UInt16
  classCode : UInt16

structure Record where
  labels : List Label
  type : UInt16
  classCode : UInt16
  ttl : UInt32
  data : Bytes

structure Message where
  id : UInt16
  flags : UInt16
  questions : List Question
  answers : List Record
  authority : List Record
  additional : List Record

section
variable (message : Bytes)

/-- The name with these labels stands at the first position and ends before the second. Its end may
be a pointer to a name that begins earlier in the message. -/
inductive NameAt : ℕ → List Label → ℕ → Prop
  | root {i : ℕ} (h : readAt i 1 message = [0]) : NameAt i [] (i + 1)
  | label {i stop : ℕ} {l : Label} {labels : List Label}
      (h : readAt i (l.val.length + 1) message = UInt8.ofNat l.val.length :: l.val)
      (rest : NameAt (i + (l.val.length + 1)) labels stop) : NameAt i (l :: labels) stop
  | pointer {i target stop : ℕ} {labels : List Label} (htarget : target < 0x4000)
      (h : readAt i 2 message = u16 (0xc000 + target)) (earlier : target < i)
      (rest : NameAt target labels stop) : NameAt i labels (i + 2)

def QuestionAt (start : ℕ) (q : Question) (stop : ℕ) : Prop :=
  ∃ i, NameAt message start q.labels i ∧ nameSize q.labels ≤ 255 ∧
    readAt i 4 message = u16 q.type.toNat ++ u16 q.classCode.toNat ∧ stop = i + 4

def RecordAt (start : ℕ) (r : Record) (stop : ℕ) : Prop :=
  ∃ i, NameAt message start r.labels i ∧ nameSize r.labels ≤ 255 ∧ r.data.length < 65536 ∧
    readAt i 10 message =
      u16 r.type.toNat ++ (u16 r.classCode.toNat ++ (u32 r.ttl.toNat ++ u16 r.data.length)) ∧
    readAt (i + 10) r.data.length message = r.data ∧ stop = i + 10 + r.data.length

/-- One after the other, from the first position to the second. -/
def Sequence {α : Type} (at_ : ℕ → α → ℕ → Prop) : ℕ → List α → ℕ → Prop
  | start, [], stop => start = stop
  | start, x :: xs, stop => ∃ i, at_ start x i ∧ Sequence at_ i xs stop

/-- The octets are the message: its header counts its sections, and these follow the header one
after the other up to the end. -/
structure Message.Encoded (m : Message) : Prop where
  header : readAt 0 12 message = u16 m.id.toNat ++ (u16 m.flags.toNat ++
    (u16 m.questions.length ++ (u16 m.answers.length ++
      (u16 m.authority.length ++ u16 m.additional.length))))
  counts : m.questions.length < 65536 ∧ m.answers.length < 65536 ∧ m.authority.length < 65536 ∧
    m.additional.length < 65536
  sections : ∃ answers authority additional,
    Sequence (QuestionAt message) 12 m.questions answers ∧
    Sequence (RecordAt message) answers m.answers authority ∧
    Sequence (RecordAt message) authority m.authority additional ∧
    Sequence (RecordAt message) additional m.additional message.length

end

/-! ### A name is read in one way -/

section
variable {message : Bytes} {i stop stop' : ℕ} {labels labels' : List Label}

theorem readAt_head {n : ℕ} {c : UInt8} {rest : Bytes} (hn : 0 < n)
    (h : readAt i n message = c :: rest) : message[i]? = some c := by
  have hget := @getElem?_readAt _ message i n 0
  rw [h, if_pos hn] at hget
  simpa using hget.symm

@[ext] theorem Label.ext {l l' : Label} (h : l.val = l'.val) : l = l' := by
  cases l
  cases l'
  congr

theorem Label.length_ofNat (l : Label) : (UInt8.ofNat l.val.length).toNat = l.val.length := by
  have hle := l.le
  rw [UInt8.toNat_ofNat']
  omega

/-- The first octet of a pointer is larger than any length. -/
theorem pointer_head {target : ℕ} (h : target < 0x4000) :
    192 ≤ (UInt8.ofNat ((0xc000 + target) / 256)).toNat := by
  rw [UInt8.toNat_ofNat']
  omega

theorem NameAt.cons {n : ℕ} {val : Bytes} (hn : val.length = n) (hpos : 0 < n) (hle : n ≤ 63)
    (h : readAt i (n + 1) message = UInt8.ofNat n :: val)
    (rest : NameAt message (i + (n + 1)) labels stop) :
    NameAt message i (⟨val,hn ▸ hpos,hn ▸ hle⟩ :: labels) stop := by
  subst hn
  exact .label h rest

theorem NameAt.unique (h : NameAt message i labels stop) (h' : NameAt message i labels' stop') :
    labels = labels' ∧ stop = stop' := by
  induction h generalizing labels' stop' with
  | root hi =>
    have hfirst := readAt_head Nat.one_pos hi
    cases h' with
    | root => exact ⟨rfl,rfl⟩
    | @label _ _ l _ hl _ =>
      have hl := (readAt_head (Nat.succ_pos _) hl).symm.trans hfirst
      have hzero := l.length_ofNat
      rw [Option.some.inj hl] at hzero
      exact absurd l.pos (by simp [← hzero])
    | pointer ht hp _ _ =>
      have hp := (readAt_head two_pos hp).symm.trans hfirst
      have hlarge := pointer_head ht
      rw [Option.some.inj hp] at hlarge
      cases hlarge
  | @label i stop l labels hl rest ih =>
    have hfirst := readAt_head (Nat.succ_pos _) hl
    cases h' with
    | root hi =>
      have hi := (readAt_head Nat.one_pos hi).symm.trans hfirst
      have hzero := l.length_ofNat
      rw [← Option.some.inj hi] at hzero
      exact absurd l.pos (by simp [← hzero])
    | @label _ _ l' _ hl' rest' =>
      have hlen := Option.some.inj ((readAt_head (Nat.succ_pos _) hl').symm.trans hfirst)
      have hlen : l'.val.length = l.val.length := by
        rw [← l'.length_ofNat, hlen, l.length_ofNat]
      rw [hlen] at hl' rest'
      rw [hl] at hl'
      obtain rfl : l = l' := Label.ext (List.cons.inj hl').2
      obtain ⟨rfl,rfl⟩ := ih rest'
      exact ⟨rfl,rfl⟩
    | pointer ht hp _ _ =>
      have hp := Option.some.inj ((readAt_head two_pos hp).symm.trans hfirst)
      have hlarge := pointer_head ht
      rw [hp, l.length_ofNat] at hlarge
      exact absurd l.le (by omega)
  | @pointer i target stop labels ht hp _ _ ih =>
    have hfirst := readAt_head two_pos hp
    have hlarge := pointer_head ht
    cases h' with
    | root hi =>
      have hi := Option.some.inj ((readAt_head Nat.one_pos hi).symm.trans hfirst)
      rw [← hi] at hlarge
      cases hlarge
    | @label _ _ l _ hl _ =>
      have hl := Option.some.inj ((readAt_head (Nat.succ_pos _) hl).symm.trans hfirst)
      rw [← hl, l.length_ofNat] at hlarge
      exact absurd l.le (by omega)
    | @pointer _ target' _ _ ht' hp' _ rest' =>
      obtain rfl : target = target' := by
        rw [hp] at hp'
        have hvalue := congrArg (fun b => readU16 (b.getD 0 0) (b.getD 1 0)) hp'
        simp only [u16, List.getD_cons_zero, List.getD_cons_succ] at hvalue
        rw [readU16_u16 _ (by omega), readU16_u16 _ (by omega)] at hvalue
        omega
      exact ⟨(ih rest').1,rfl⟩

theorem NameAt.lt (h : NameAt message i labels stop) : i < stop := by
  induction h with
  | root => exact Nat.lt_succ_self _
  | label _ _ ih => omega
  | pointer => omega

/-- Two questions at one position end together. -/
theorem QuestionAt.unique {q q' : Question} (h : QuestionAt message i q stop)
    (h' : QuestionAt message i q' stop') : q.labels = q'.labels ∧ stop = stop' := by
  obtain ⟨j,hname,-,-,rfl⟩ := h
  obtain ⟨j',hname',-,-,rfl⟩ := h'
  obtain ⟨hlabels,rfl⟩ := hname.unique hname'
  exact ⟨hlabels,rfl⟩

theorem QuestionAt.le_length {q : Question} (h : QuestionAt message i q stop) :
    stop ≤ message.length := by
  obtain ⟨j,-,-,hfields,rfl⟩ := h
  exact le_length_of_readAt (by rw [hfields]; rfl) (by decide)

theorem RecordAt.lt {r : Record} (h : RecordAt message i r stop) : i < stop := by
  obtain ⟨j,hname,-,-,-,-,rfl⟩ := h
  have hlt := hname.lt
  omega

/-- A record that begins with a pointer has its data twelve octets later. -/
theorem RecordAt.of_pointer {r : Record} {target : ℕ} (h : RecordAt message i r stop)
    (htarget : target < 0x4000) (hp : readAt i 2 message = u16 (0xc000 + target)) :
    readAt (i + 12) r.data.length message = r.data ∧ stop = i + 12 + r.data.length := by
  obtain ⟨j,hname,-,-,-,hdata,rfl⟩ := h
  have hfirst := readAt_head two_pos hp
  have hlarge := pointer_head htarget
  generalize r.labels = labels at hname
  cases hname with
  | root hi =>
    have hi := Option.some.inj ((readAt_head Nat.one_pos hi).symm.trans hfirst)
    rw [← hi] at hlarge
    cases hlarge
  | @label _ _ l _ hl _ =>
    have hl := Option.some.inj ((readAt_head (Nat.succ_pos _) hl).symm.trans hfirst)
    rw [← hl, l.length_ofNat] at hlarge
    exact absurd l.le (by omega)
  | pointer => exact ⟨hdata,rfl⟩

theorem records_le {rs : List Record} (h : Sequence (RecordAt message) i rs stop) :
    i + rs.length ≤ stop := by
  induction rs generalizing i with
  | nil => exact h.le
  | cons r rs ih =>
    obtain ⟨j,hr,hrs⟩ := h
    have hlt := hr.lt
    have hle := ih hrs
    rw [List.length_cons]
    omega

end

end Espresso.Dns
