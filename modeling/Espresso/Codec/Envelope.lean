import Espresso.Lib.Octets

/-! The IPP attribute envelope: an eight-octet header, group delimiters and value records up to
the end-of-attributes tag, then document data. Every hand-written loop of `ipp_codec.c` opens
with the same record reader; it is `readStep` here. `decode` is the envelope it recognises. -/
namespace Espresso.Codec

inductive CodecError
  | incomplete
  | malformed
  | noMemory
  | unsupported
  deriving DecidableEq, Repr

namespace Tag
abbrev operationAttributes : UInt8 := 0x01
abbrev jobAttributes : UInt8 := 0x02
abbrev endAttributes : UInt8 := 0x03
abbrev printerAttributes : UInt8 := 0x04
abbrev unknown : UInt8 := 0x12
abbrev integer : UInt8 := 0x21
abbrev boolean : UInt8 := 0x22
abbrev enum : UInt8 := 0x23
abbrev octetString : UInt8 := 0x30
abbrev dateTime : UInt8 := 0x31
abbrev resolution : UInt8 := 0x32
abbrev range : UInt8 := 0x33
abbrev beginCollection : UInt8 := 0x34
abbrev endCollection : UInt8 := 0x37
abbrev text : UInt8 := 0x41
abbrev name : UInt8 := 0x42
abbrev keyword : UInt8 := 0x44
abbrev uri : UInt8 := 0x45
abbrev uriScheme : UInt8 := 0x46
abbrev charset : UInt8 := 0x47
abbrev language : UInt8 := 0x48
abbrev mimeType : UInt8 := 0x49
abbrev memberName : UInt8 := 0x4a
end Tag

abbrev ippHeaderLength : ℕ := 8
abbrev ippNameMax : ℕ := 255

/-- One group delimiter or one value record, with the name octets it carries itself: an
additional value and a collection member have none. -/
inductive Item
  | group (tag : UInt8)
  | value (tag : UInt8) (name data : Bytes)
  deriving DecidableEq, Repr

def Item.encode : Item → Bytes
  | .group tag => [tag]
  | .value tag name data => tag :: (u16 name.length ++ (name ++ (u16 data.length ++ data)))

def encodeItems (items : List Item) : Bytes := items.flatMap Item.encode

@[simp] theorem encodeItems_nil : encodeItems [] = [] := rfl

@[simp] theorem encodeItems_cons (i : Item) (is : List Item) :
    encodeItems (i::is) = i.encode ++ encodeItems is := rfl

@[simp] theorem encodeItems_append (is js : List Item) :
    encodeItems (is ++ js) = encodeItems is ++ encodeItems js := List.flatMap_append

/-- `current_name` after a record: an unnamed value keeps the name in force. -/
def carryName (current name : Bytes) : Bytes := if name = [] then current else cstr name

/-- What one turn of the loop finds at the cursor. -/
inductive Step
  | ended (rest : Bytes)
  | group (tag : UInt8) (rest : Bytes)
  | value (tag : UInt8) (name value rest : Bytes)
  | fault (error : CodecError)

/-- The record reader at the head of every loop. The order of the checks decides which of the
two errors a damaged record gets. -/
def readStep (current : Bytes) : Bytes → Step
  | [] => .fault .incomplete
  | tag :: rest =>
    if tag = Tag.endAttributes then .ended rest
    else if tag ≤ 0x0f then .group tag rest
    else match rest with
      | nameHigh :: nameLow :: rest =>
        let nameLength := readU16 nameHigh nameLow
        if ippNameMax < nameLength then .fault .malformed
        else if rest.length < nameLength + 2 then .fault .incomplete
        -- an unnamed value before any named one has nothing to continue
        else if nameLength = 0 ∧ current = [] then .fault .malformed
        else match rest.drop nameLength with
          | valueHigh :: valueLow :: body =>
            let valueLength := readU16 valueHigh valueLow
            if body.length < valueLength then .fault .incomplete
            else .value tag (rest.take nameLength) (body.take valueLength) (body.drop valueLength)
          | _ => .fault .incomplete
      | _ => .fault .incomplete

/-- A value record that the reader accepts while `current` is the name in force. -/
def ValueOk (current : Bytes) (tag : UInt8) (name value : Bytes) : Prop :=
  0x0f < tag ∧ name.length ≤ ippNameMax ∧ value.length < 65536 ∧ ¬ (name = [] ∧ current = [])

instance (current : Bytes) (tag : UInt8) (name value : Bytes) :
    Decidable (ValueOk current tag name value) := by unfold ValueOk; infer_instance

theorem endAttributes_le : (Tag.endAttributes : UInt8) ≤ 0x0f := by decide

theorem ValueOk.tag_ne_end {current : Bytes} {tag : UInt8} {name value : Bytes}
    (h : ValueOk current tag name value) : tag ≠ Tag.endAttributes := by
  rintro rfl
  exact absurd h.1 (by decide)

theorem readStep_ended (current rest : Bytes) :
    readStep current (Tag.endAttributes :: rest) = .ended rest := by simp [readStep]

theorem readStep_group (current rest : Bytes) {tag : UInt8} (hle : tag ≤ 0x0f)
    (hne : tag ≠ Tag.endAttributes) : readStep current (tag :: rest) = .group tag rest := by
  simp [readStep, hle, hne]

/-- The reader recovers every acceptable record from its encoding. -/
theorem readStep_value {current : Bytes} {tag : UInt8} {name value : Bytes}
    (h : ValueOk current tag name value) (rest : Bytes) :
    readStep current ((Item.value tag name value).encode ++ rest) = .value tag name value rest := by
  have hend := h.tag_ne_end
  obtain ⟨htag,hname,hvalue,hnamed⟩ := h
  have hgt : ¬ tag ≤ 0x0f := UInt8.not_le.mpr htag
  have hmax : ¬ ippNameMax < name.length := Nat.not_lt.mpr hname
  simp only [ippNameMax] at hname
  have hn : readU16 (UInt8.ofNat (name.length / 256)) (UInt8.ofNat name.length) = name.length :=
    readU16_u16 _ (by omega)
  have hv : readU16 (UInt8.ofNat (value.length / 256)) (UInt8.ofNat value.length) =
      value.length := readU16_u16 _ hvalue
  have hnamed' : ¬ (name.length = 0 ∧ current = []) := by
    simpa only [List.length_eq_zero_iff] using hnamed
  simp only [Item.encode, u16, List.cons_append, List.nil_append, List.append_assoc, readStep,
    if_neg hend, if_neg hgt, hn]
  rw [if_neg hmax, if_neg (by simp), if_neg hnamed', List.drop_left]
  simp only [hv]
  rw [if_neg (by simp), List.take_left, List.take_left, List.drop_left]

/-- Inversion: everything a turn can find, with the octets it came from. -/
theorem readStep_inv (current bs : Bytes) :
    match readStep current bs with
    | .ended rest => bs = Tag.endAttributes :: rest
    | .group tag rest => bs = tag :: rest ∧ tag ≤ 0x0f ∧ tag ≠ Tag.endAttributes
    | .value tag name value rest =>
      bs = (Item.value tag name value).encode ++ rest ∧ ValueOk current tag name value
    | .fault e => e = .incomplete ∨ e = .malformed := by
  cases bs with
  | nil => simp [readStep]
  | cons tag rest =>
    by_cases hend : tag = Tag.endAttributes
    · subst hend; simp [readStep]
    by_cases hle : tag ≤ 0x0f
    · rw [readStep_group current rest hle hend]
      exact ⟨rfl,hle,hend⟩
    match rest with
    | [] => simp [readStep, hend, hle]
    | [_] => simp [readStep, hend, hle]
    | nameHigh :: nameLow :: rest =>
      simp only [readStep, if_neg hend, if_neg hle]
      by_cases hmax : ippNameMax < readU16 nameHigh nameLow
      · simp [hmax]
      by_cases hroom : rest.length < readU16 nameHigh nameLow + 2
      · simp [hmax, hroom]
      by_cases hname : readU16 nameHigh nameLow = 0 ∧ current = []
      · rw [if_neg hmax, if_neg hroom, if_pos hname]; simp
      simp only [if_neg hmax, if_neg hroom, if_neg hname]
      have hlen : (rest.take (readU16 nameHigh nameLow)).length = readU16 nameHigh nameLow := by
        rw [List.length_take]; omega
      match hd : rest.drop (readU16 nameHigh nameLow) with
      | [] => simp
      | [_] => simp
      | valueHigh :: valueLow :: body =>
        by_cases hbody : body.length < readU16 valueHigh valueLow
        · simp [hbody]
        simp only [if_neg hbody]
        have hvlen : (body.take (readU16 valueHigh valueLow)).length =
            readU16 valueHigh valueLow := by rw [List.length_take]; omega
        have hu := u16_readU16 nameHigh nameLow
        have hv := u16_readU16 valueHigh valueLow
        refine ⟨?_,UInt8.not_le.mp hle,?_,?_,?_⟩
        · rw [Item.encode, hlen, hvlen, hu, hv]
          conv_lhs => rw [← List.take_append_drop (readU16 nameHigh nameLow) rest, hd]
          simp
        · rw [hlen]; omega
        · rw [hvlen]; exact readU16_lt _ _
        · rw [← List.length_eq_zero_iff, hlen]; exact hname

theorem readStep_group_inv {current bs rest : Bytes} {tag : UInt8}
    (h : readStep current bs = .group tag rest) :
    bs = tag :: rest ∧ tag ≤ 0x0f ∧ tag ≠ Tag.endAttributes := by
  simpa only [h] using readStep_inv current bs

theorem readStep_value_inv {current bs name value rest : Bytes} {tag : UInt8}
    (h : readStep current bs = .value tag name value rest) :
    bs = (Item.value tag name value).encode ++ rest ∧ ValueOk current tag name value := by
  simpa only [h] using readStep_inv current bs

theorem readStep_fault_inv {current bs : Bytes} {e : CodecError}
    (h : readStep current bs = .fault e) : e = .incomplete ∨ e = .malformed := by
  simpa only [h] using readStep_inv current bs

/-- Every turn that goes on consumes at least one octet. -/
theorem readStep_group_length {current bs rest : Bytes} {tag : UInt8}
    (h : readStep current bs = .group tag rest) : rest.length < bs.length := by
  obtain ⟨rfl,-,-⟩ := readStep_group_inv h
  simp

theorem readStep_value_length {current bs name value rest : Bytes} {tag : UInt8}
    (h : readStep current bs = .value tag name value rest) : rest.length < bs.length := by
  obtain ⟨rfl,-⟩ := readStep_value_inv h
  simp only [Item.encode, List.length_append, List.length_cons]
  omega

/-- A malformed record stays malformed whatever follows it. -/
theorem readStep_malformed_append {current bs : Bytes}
    (h : readStep current bs = .fault .malformed) (q : Bytes) :
    readStep current (bs ++ q) = .fault .malformed := by
  match bs with
  | [] => simp [readStep] at h
  | [tag] =>
    by_cases hend : tag = Tag.endAttributes <;> by_cases hle : tag ≤ 0x0f <;>
      simp [readStep, hend, hle] at h
  | [tag,_] =>
    by_cases hend : tag = Tag.endAttributes <;> by_cases hle : tag ≤ 0x0f <;>
      simp [readStep, hend, hle] at h
  | tag :: nameHigh :: nameLow :: rest =>
    simp only [readStep] at h
    split at h
    · simp at h
    rename_i hend
    split at h
    · simp at h
    rename_i hle
    simp only [List.cons_append, readStep, if_neg hend, if_neg hle]
    split at h
    · rename_i hmax; rw [if_pos hmax]
    rename_i hmax
    split at h
    · simp at h
    rename_i hroom
    split at h
    · rename_i hname
      rw [if_neg hmax, if_neg (by simp; omega), if_pos hname]
    · split at h
      · split at h <;> simp at h
      · simp at h

/-! ### Scanning to the end-of-attributes tag -/

/-- The items up to the end-of-attributes tag, and the octets after it. -/
def scan (current bs : Bytes) : Except CodecError (List Item × Bytes) :=
  match _h : readStep current bs with
  | .ended rest => .ok ([],rest)
  | .group tag rest => (scan [] rest).map fun r => (.group tag :: r.1,r.2)
  | .value tag name value rest =>
    (scan (carryName current name) rest).map fun r => (.value tag name value :: r.1,r.2)
  | .fault e => .error e
termination_by bs.length
decreasing_by
  · exact readStep_group_length _h
  · exact readStep_value_length _h

/-- Lists of items that a scan starting with `current` in force can return. -/
def ItemsOk : Bytes → List Item → Prop
  | _, [] => True
  | _, .group tag :: is => tag ≤ 0x0f ∧ tag ≠ Tag.endAttributes ∧ ItemsOk [] is
  | current, .value tag name value :: is =>
    ValueOk current tag name value ∧ ItemsOk (carryName current name) is

instance decidableItemsOk : (current : Bytes) → (items : List Item) →
    Decidable (ItemsOk current items)
  | _, [] => isTrue trivial
  | _, .group tag :: is =>
    haveI := decidableItemsOk [] is
    inferInstanceAs (Decidable (tag ≤ 0x0f ∧ tag ≠ Tag.endAttributes ∧ ItemsOk [] is))
  | current, .value tag name value :: is =>
    haveI := decidableItemsOk (carryName current name) is
    inferInstanceAs (Decidable (ValueOk current tag name value ∧ ItemsOk (carryName current name) is))

/-- The scan inverts the encoding of every acceptable item list. -/
theorem scan_encodeItems (current : Bytes) (items : List Item) (document : Bytes)
    (h : ItemsOk current items) :
    scan current (encodeItems items ++ Tag.endAttributes :: document) = .ok (items,document) := by
  induction items generalizing current with
  | nil => rw [encodeItems_nil, List.nil_append, scan, readStep_ended]
  | cons i is ih =>
    cases i with
    | group tag =>
      obtain ⟨hle,hne,hrest⟩ := h
      simp only [encodeItems_cons, Item.encode, List.cons_append, List.nil_append]
      rw [scan, readStep_group current _ hle hne]
      simp only [ih [] hrest]
      rfl
    | value tag name value =>
      obtain ⟨hvalue,hrest⟩ := h
      rw [encodeItems_cons, List.append_assoc, scan, readStep_value hvalue]
      simp only [ih _ hrest]
      rfl

/-- Conversely a successful scan accounts for every octet. -/
theorem scan_ok {current bs document : Bytes} {items : List Item}
    (h : scan current bs = .ok (items,document)) :
    bs = encodeItems items ++ Tag.endAttributes :: document ∧ ItemsOk current items := by
  fun_induction scan current bs generalizing items with
  | case1 current bs rest hs =>
    have hi := readStep_inv current bs
    rw [hs] at hi
    cases h
    exact ⟨hi,trivial⟩
  | case2 current bs tag rest hs ih =>
    obtain ⟨rfl,hle,hne⟩ := readStep_group_inv hs
    cases hr : scan [] rest with
    | error e => rw [hr] at h; cases h
    | ok r =>
      rw [hr] at h
      cases h
      obtain ⟨hb,hok⟩ := ih hr
      refine ⟨?_,hle,hne,hok⟩
      rw [encodeItems_cons, List.append_assoc, ← hb]
      rfl
  | case3 current bs tag name value rest hs ih =>
    obtain ⟨rfl,hv⟩ := readStep_value_inv hs
    cases hr : scan (carryName current name) rest with
    | error e => rw [hr] at h; cases h
    | ok r =>
      rw [hr] at h
      cases h
      obtain ⟨hb,hok⟩ := ih hr
      refine ⟨?_,hv,hok⟩
      rw [encodeItems_cons, List.append_assoc, ← hb]
  | case4 current bs e hs => cases h

theorem scan_error {current bs : Bytes} {e : CodecError} (h : scan current bs = .error e) :
    e = .incomplete ∨ e = .malformed := by
  fun_induction scan current bs with
  | case1 => cases h
  | case2 current bs tag rest hs ih =>
    cases hr : scan [] rest with
    | error e' => rw [hr] at h; cases h; exact ih hr
    | ok r => rw [hr] at h; cases h
  | case3 current bs tag name value rest hs ih =>
    cases hr : scan (carryName current name) rest with
    | error e' => rw [hr] at h; cases h; exact ih hr
    | ok r => rw [hr] at h; cases h
  | case4 current bs e' hs => cases h; exact readStep_fault_inv hs

theorem scan_malformed_append {current bs : Bytes} (h : scan current bs = .error .malformed)
    (q : Bytes) : scan current (bs ++ q) = .error .malformed := by
  fun_induction scan current bs with
  | case1 => cases h
  | case2 current bs tag rest hs ih =>
    obtain ⟨rfl,hle,hne⟩ := readStep_group_inv hs
    cases hr : scan [] rest with
    | error e' =>
      rw [hr] at h
      cases h
      rw [List.cons_append, scan, readStep_group current _ hle hne]
      simp only [ih hr]
      rfl
    | ok r => rw [hr] at h; cases h
  | case3 current bs tag name value rest hs ih =>
    obtain ⟨rfl,hv⟩ := readStep_value_inv hs
    cases hr : scan (carryName current name) rest with
    | error e' =>
      rw [hr] at h
      cases h
      rw [List.append_assoc, scan, readStep_value hv]
      simp only [ih hr]
      rfl
    | ok r => rw [hr] at h; cases h
  | case4 current bs e' hs =>
    cases h
    rw [scan, readStep_malformed_append hs]

/-! ### Envelopes -/

/-- A well-formed message. -/
@[ext] structure Envelope where
  header : Bytes
  items : List Item
  document : Bytes
  header_length : header.length = ippHeaderLength
  items_ok : ItemsOk [] items
  deriving DecidableEq

/-- A header that is written out has eight octets. -/
theorem literalHeader_length : 8 = ippHeaderLength := rfl

namespace Envelope

/-- Header, items and end tag: everything before the document. -/
def attributes (e : Envelope) : Bytes := e.header ++ (encodeItems e.items ++ [Tag.endAttributes])

def encode (e : Envelope) : Bytes := e.attributes ++ e.document

/-- Where the document starts. -/
def attributesLength (e : Envelope) : ℕ := e.attributes.length

theorem encode_eq (e : Envelope) :
    e.encode = e.header ++ (encodeItems e.items ++ Tag.endAttributes :: e.document) := by
  simp [encode, attributes]

@[simp] theorem drop_encode (e : Envelope) : e.encode.drop e.attributesLength = e.document :=
  List.drop_left

@[simp] theorem take_encode (e : Envelope) : e.encode.take e.attributesLength = e.attributes :=
  List.take_left

theorem attributesLength_eq (e : Envelope) :
    e.attributesLength = ippHeaderLength + (encodeItems e.items).length + 1 := by
  simp [attributesLength, attributes, e.header_length, Nat.add_assoc]

/-- The same attributes in front of another document. -/
def withDocument (e : Envelope) (document : Bytes) : Envelope := { e with document := document }

end Envelope

def decode (b : Bytes) : Except CodecError Envelope :=
  if h : b.length < ippHeaderLength then .error .incomplete
  else match hs : scan [] (b.drop ippHeaderLength) with
    | .ok (items,document) =>
      .ok ⟨b.take ippHeaderLength,items,document,by rw [List.length_take]; omega,(scan_ok hs).2⟩
    | .error e => .error e

theorem decode_of_short {b : Bytes} (h : b.length < ippHeaderLength) :
    decode b = .error .incomplete := by
  rw [decode, dif_pos h]

theorem decode_of_scan_error {b : Bytes} {e : CodecError} (hlen : ¬ b.length < ippHeaderLength)
    (h : scan [] (b.drop ippHeaderLength) = .error e) : decode b = .error e := by
  rw [decode, dif_neg hlen]
  split
  · rename_i h'; rw [h] at h'; cases h'
  · rename_i h'; rw [h] at h'; cases h'; rfl

theorem decode_of_scan_ok {b : Bytes} {items : List Item} {document : Bytes}
    (hlen : ¬ b.length < ippHeaderLength)
    (h : scan [] (b.drop ippHeaderLength) = .ok (items,document)) :
    ∃ e, decode b = .ok e ∧ e.header = b.take ippHeaderLength ∧ e.items = items ∧
      e.document = document := by
  rw [decode, dif_neg hlen]
  split
  · rename_i h'; rw [h] at h'; cases h'; exact ⟨_,rfl,rfl,rfl,rfl⟩
  · rename_i h'; rw [h] at h'; cases h'

@[simp] theorem decode_encode (e : Envelope) : decode e.encode = .ok e := by
  have hdrop : e.encode.drop ippHeaderLength =
      encodeItems e.items ++ Tag.endAttributes :: e.document := by
    rw [e.encode_eq, ← e.header_length, List.drop_left]
  have htake : e.encode.take ippHeaderLength = e.header := by
    rw [e.encode_eq, ← e.header_length, List.take_left]
  have hlen : ¬ e.encode.length < ippHeaderLength := by
    rw [e.encode_eq, List.length_append, e.header_length]; omega
  obtain ⟨e',he',hh,hi,hd⟩ := decode_of_scan_ok hlen
    (by rw [hdrop]; exact scan_encodeItems [] e.items e.document e.items_ok)
  rw [he', Envelope.ext (hh.trans htake) hi hd]

theorem decode_parts {header document : Bytes} {items : List Item}
    (hh : header.length = ippHeaderLength) (hi : ItemsOk [] items) :
    decode (header ++ (encodeItems items ++ Tag.endAttributes :: document)) =
      .ok ⟨header,items,document,hh,hi⟩ := by
  rw [← Envelope.encode_eq ⟨header,items,document,hh,hi⟩, decode_encode]

theorem encode_of_decode {b : Bytes} {e : Envelope} (h : decode b = .ok e) : e.encode = b := by
  rw [decode] at h
  split at h
  · cases h
  · split at h
    · rename_i hs
      cases h
      have hb := (scan_ok hs).1
      rw [Envelope.encode_eq, ← hb, List.take_append_drop]
    · cases h

theorem header_of_decode {b : Bytes} {e : Envelope} (h : decode b = .ok e) :
    b.take ippHeaderLength = e.header := by
  rw [← encode_of_decode h, e.encode_eq, ← e.header_length, List.take_left]

theorem document_of_decode {b : Bytes} {e : Envelope} (h : decode b = .ok e) :
    b.drop e.attributesLength = e.document := by
  rw [← encode_of_decode h, e.drop_encode]

theorem length_of_decode {b : Bytes} {e : Envelope} (h : decode b = .ok e) :
    ¬ b.length < ippHeaderLength := by
  rw [← encode_of_decode h, e.encode_eq, List.length_append, e.header_length]
  omega

theorem decode_eq_ok_iff {b : Bytes} {e : Envelope} : decode b = .ok e ↔ e.encode = b :=
  ⟨encode_of_decode,fun h => h ▸ decode_encode e⟩

theorem decode_error {b : Bytes} {e : CodecError} (h : decode b = .error e) :
    e = .incomplete ∨ e = .malformed := by
  rw [decode] at h
  split at h
  · cases h; exact .inl rfl
  · split at h
    · cases h
    · rename_i hs; cases h; exact scan_error hs

/-! ### Recognition is a prefix code -/

theorem decode_append {p : Bytes} {e : Envelope} (h : decode p = .ok e) (q : Bytes) :
    decode (p ++ q) = .ok (e.withDocument (e.document ++ q)) := by
  rw [decode_eq_ok_iff, ← encode_of_decode h]
  simp [Envelope.encode, Envelope.attributes, Envelope.withDocument]

theorem decode_malformed_append {p : Bytes} (h : decode p = .error .malformed) (q : Bytes) :
    decode (p ++ q) = .error .malformed := by
  rw [decode] at h
  split at h
  · cases h
  rename_i hlen
  split at h
  · cases h
  rename_i hs
  cases h
  apply decode_of_scan_error (by simp; omega)
  rw [List.drop_append_of_le_length (by omega)]
  exact scan_malformed_append hs q

/-- A prefix that stops before the end of the attributes is incomplete, never malformed. -/
theorem decode_prefix {p q : Bytes} {e : Envelope} (h : decode (p ++ q) = .ok e)
    (hp : p.length < e.attributesLength) : decode p = .error .incomplete := by
  cases hd : decode p with
  | ok e' =>
    have ha := decode_append hd q
    rw [h] at ha
    cases ha
    have hl := congrArg List.length (encode_of_decode hd)
    simp only [Envelope.encode, List.length_append] at hl
    simp only [Envelope.attributesLength, Envelope.attributes, Envelope.withDocument] at hp hl
    omega
  | error f =>
    rcases decode_error hd with rfl | rfl
    · rfl
    · rw [decode_malformed_append hd q] at h
      cases h

end Espresso.Codec
