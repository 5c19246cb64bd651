import Espresso.Codec.CommaList
import Espresso.Http.Opening
import Espresso.Http.Sizes
import Espresso.Lib.Recorded

/-! The framing of a request: which header lines an accepted head has, read off its text alone. The
parser cuts the same lines out of its buffer in place. -/
namespace Espresso.Http
open Callback

/-! ### The fields of a head -/

/-- The lines of a text, without the CRLF between them. -/
def linesOf : Bytes → List Bytes
  | [] => [[]]
  | 0x0d :: 0x0a :: rest => [] :: linesOf rest
  | c :: rest => (linesOf rest).modifyHead (c :: ·)

/-- Name and value of a line: what stands before its first colon, and behind it. -/
def fieldOf (line : Bytes) : Option (Bytes × Bytes) :=
  (occurrence [0x3a] line).map fun colon =>
    (Codec.trim (line.take colon),Codec.trim (line.drop (colon + 1)))

/-- The fields of a head are on the lines behind the request line. -/
def headerFields (text : Bytes) : List (Bytes × Bytes) := (linesOf text).tail.filterMap fieldOf

def isContentLength (field : Bytes × Bytes) : Bool := strcasecmp field.1 (octets "Content-Length")

def isTransferEncoding (field : Bytes × Bytes) : Bool :=
  strcasecmp field.1 (octets "Transfer-Encoding")

def isFraming (field : Bytes × Bytes) : Bool := isContentLength field || isTransferEncoding field

/-- What stands before the first blank line. -/
def headText (stream : Bytes) : Option Bytes := (occurrence (crlf ++ crlf) stream).map stream.take

/-- One field alone frames the request: a length that fits, or the chunked coding. -/
def Framed (text : Bytes) (r : Request) : Prop :=
  ∃ field, (headerFields text).filter isFraming = [field] ∧
    (isContentLength field = true ∧ field.2 ≠ [] ∧ (∀ c ∈ field.2, isdigit c = true) ∧
        Codec.decimalValue field.2 = r.contentLength ∧ r.contentLength ≤ sizeMax ∧ r.chunked = false ∨
      isTransferEncoding field = true ∧ strcasecmp field.2 (octets "chunked") = true ∧
        r.chunked = true)

/-! ### Lines -/

theorem linesOf_ne_nil (text : Bytes) : linesOf text ≠ [] := by
  fun_induction linesOf text with
  | case1 => exact List.cons_ne_nil _ _
  | case2 => exact List.cons_ne_nil _ _
  | case3 c rest hcrlf ih =>
    obtain ⟨line,lines,h⟩ := List.exists_cons_of_ne_nil ih
    rw [h]
    exact List.cons_ne_nil _ _

/-- The lines, each with its CRLF, make up the text with one more CRLF. -/
theorem flatMap_linesOf (text : Bytes) : (linesOf text).flatMap (· ++ crlf) = text ++ crlf := by
  fun_induction linesOf text with
  | case1 => rfl
  | case2 rest ih =>
    rw [List.flatMap_cons, ih]
    rfl
  | case3 c rest hcrlf ih =>
    obtain ⟨line,lines,h⟩ := List.exists_cons_of_ne_nil (linesOf_ne_nil rest)
    rw [h] at ih ⊢
    rw [List.modifyHead_cons, List.flatMap_cons, List.cons_append, List.cons_append,
      List.cons_append, ← ih, List.flatMap_cons]

theorem crlf_isPrefixOf_iff (c : UInt8) (rest : Bytes) :
    crlf.isPrefixOf (c :: rest) = true ↔ c = 0x0d ∧ rest.head? = some 0x0a := by
  cases rest with
  | nil => simp [crlf]
  | cons d rest =>
    simp only [crlf, List.isPrefixOf_cons_cons, List.isPrefixOf_nil_left, Bool.and_true,
      Bool.and_eq_true, beq_iff_eq, List.head?_cons, Option.some.injEq]
    exact and_congr eq_comm eq_comm

/-- A line starts as the text does. -/
theorem head_linesOf {text line : Bytes} {lines : List Bytes} (h : linesOf text = line :: lines) :
    line = [] ∨ line.head? = text.head? := by
  fun_cases linesOf text with
  | case1 =>
    cases h
    exact .inl rfl
  | case2 rest =>
    cases h
    exact .inl rfl
  | case3 c rest hcrlf =>
    obtain ⟨line',lines',h'⟩ := List.exists_cons_of_ne_nil (linesOf_ne_nil rest)
    rw [linesOf, h'] at h
    · cases h
      exact .inr rfl
    · exact hcrlf

theorem linesOf_whole (text : Bytes) : ∀ line ∈ linesOf text, occurrence crlf line = none := by
  fun_induction linesOf text with
  | case1 => simp [occurrence, crlf]
  | case2 rest ih =>
    rintro line (_ | ⟨_,hline⟩)
    · rfl
    · exact ih line hline
  | case3 c rest hcrlf ih =>
    obtain ⟨line,lines,h⟩ := List.exists_cons_of_ne_nil (linesOf_ne_nil rest)
    rw [h] at ih ⊢
    rintro l (_ | ⟨_,hl⟩)
    · have hno : ¬ crlf.isPrefixOf (c :: line) = true := by
        rw [crlf_isPrefixOf_iff]
        rintro ⟨rfl,hhead⟩
        rcases head_linesOf h with rfl | hsame
        · cases hhead
        · rw [hsame] at hhead
          obtain ⟨more,rfl⟩ := List.head?_eq_some_iff.mp hhead
          exact hcrlf more rfl rfl
      rw [occurrence, if_neg hno, ih line List.mem_cons_self]
      rfl
    · exact ih l (List.mem_cons_of_mem _ hl)

/-! ### One line, cut in place -/

/-- A string of the buffer ends at the next terminator. -/
theorem stringAt_parts (front : Bytes) {s : Bytes} (hs : 0 ∉ s) (gap : ℕ) (back : Bytes) :
    stringAt (front ++ s ++ List.replicate gap 0 ++ 0 :: back) front.length = s := by
  rw [stringAt, List.append_assoc, List.append_assoc, List.drop_left, cstr_append_of_notMem hs]
  cases gap with
  | zero => exact List.append_nil s
  | succ gap => exact List.append_nil s

theorem trimBack_parts (front s back : Bytes) :
    ∃ gap, trimBack (front ++ s ++ back) front.length (front.length + s.length) =
        front ++ Codec.trimEnd s ++ List.replicate gap 0 ++ back ∧
      (Codec.trimEnd s).length + gap = s.length := by
  induction s using List.reverseRecOn generalizing back with
  | nil =>
    refine ⟨0,?_,rfl⟩
    change _ = front ++ [] ++ [] ++ back
    rw [List.length_nil, Nat.add_zero, List.append_nil, List.append_nil]
    cases hfront : front.length with
    | zero => rfl
    | succ n => rw [trimBack, if_neg fun h => Nat.lt_irrefl _ h.1]
  | append_singleton s c ih =>
    have hget : (front ++ (s ++ [c]) ++ back).getD (front.length + s.length) 0 = c := by
      simp [List.getD_eq_getElem?_getD]
    have hset : (front ++ (s ++ [c]) ++ back).set (front.length + s.length) 0 =
        front ++ s ++ 0 :: back := by
      rw [← List.append_assoc, List.append_assoc, ← List.length_append,
        List.set_append_right _ _ (Nat.le_refl _), Nat.sub_self]
      rfl
    rw [List.length_append, List.length_singleton, ← Nat.add_assoc, trimBack, hget, hset]
    by_cases hc : isspace c = true
    · obtain ⟨gap,hgap,hlength⟩ := ih (0 :: back)
      have htrim : Codec.trimEnd (s ++ [c]) = Codec.trimEnd s := by
        rw [Codec.trimEnd, List.reverse_append, List.reverse_singleton, List.singleton_append,
          List.dropWhile_cons_of_pos hc, Codec.trimEnd]
      refine ⟨gap + 1,?_,?_⟩
      · rw [if_pos ⟨by omega,hc⟩, hgap, htrim, List.replicate_succ', ← List.append_assoc,
          List.append_assoc _ [0]]
        rfl
      · rw [htrim, ← Nat.add_assoc, hlength]
    · have htrim : Codec.trimEnd (s ++ [c]) = s ++ [c] := by
        rw [Codec.trimEnd, List.reverse_append, List.reverse_singleton, List.singleton_append,
          List.dropWhile_cons_of_neg hc, ← List.singleton_append, List.reverse_append,
          List.reverse_reverse, List.reverse_singleton]
      refine ⟨0,?_,?_⟩
      · rw [if_neg fun h => hc h.2, htrim, List.replicate_zero, List.append_nil]
      · rw [htrim, List.length_append, List.length_singleton, Nat.add_zero]

/-- Blanks in front are passed over, blanks behind become terminators. -/
theorem trim_parts (front : Bytes) {s : Bytes} (hs : 0 ∉ s) (back : Bytes) :
    ∃ blanks gap, trim (front ++ s ++ 0 :: back) front.length = ((front ++ blanks).length,
        front ++ blanks ++ Codec.trim s ++ List.replicate gap 0 ++ 0 :: back) ∧
      blanks.length + (Codec.trim s).length + gap = s.length := by
  have hstring := stringAt_parts front hs 0 back
  rw [List.replicate_zero, List.append_nil] at hstring
  have hwhole := List.takeWhile_append_dropWhile (p := isspace) (l := s)
  have hrest : 0 ∉ s.dropWhile isspace := fun h =>
    hs ((List.dropWhile_sublist isspace).subset h)
  have hsplit : front ++ s ++ 0 :: back =
      front ++ s.takeWhile isspace ++ s.dropWhile isspace ++ 0 :: back := by
    rw [List.append_assoc front (s.takeWhile isspace), hwhole]
  have hvalue := stringAt_parts (front ++ s.takeWhile isspace) hrest 0 back
  rw [List.replicate_zero, List.append_nil, ← hsplit] at hvalue
  obtain ⟨gap,hgap,hlength⟩ := trimBack_parts (front ++ s.takeWhile isspace)
    (s.dropWhile isspace) (0 :: back)
  refine ⟨s.takeWhile isspace,gap,?_,?_⟩
  · simp only [trim, hstring]
    rw [← List.length_append, hvalue, hsplit, hgap]
    rfl
  · have := congrArg List.length hwhole
    rw [List.length_append] at this
    change _ + (Codec.trimEnd (s.dropWhile isspace)).length + gap = _
    omega

theorem zero_notMem_trim {s : Bytes} (hs : 0 ∉ s) : 0 ∉ Codec.trim s := fun h =>
  hs ((Codec.trim_sublist s).subset h)

/-- A line with a colon becomes two trimmed strings; what lies behind the line stays. -/
theorem splitHeader_parts (front : Bytes) {name value : Bytes} (hname : 0 ∉ name)
    (hvalue : 0 ∉ value) (hcolon : 0x3a ∉ name) (back : Bytes) :
    ∃ n v buffer, splitHeader (front ++ (name ++ 0x3a :: value) ++ 0 :: back) front.length =
        some (n,v,buffer ++ back) ∧ buffer.length = front.length + name.length + value.length + 2 ∧
      stringAt (buffer ++ back) n = Codec.trim name ∧
      stringAt (buffer ++ back) v = Codec.trim value := by
  have hline : 0 ∉ name ++ 0x3a :: value := by simp [hname, hvalue]
  have hstring := stringAt_parts front hline 0 back
  rw [List.replicate_zero, List.append_nil] at hstring
  have hfind : strchr (front ++ (name ++ 0x3a :: value) ++ 0 :: back) front.length 0x3a =
      some (name.length + front.length) := by
    rw [strchr, strstr, hstring, occurrence_singleton hcolon value]
    rfl
  have hset : (front ++ (name ++ 0x3a :: value) ++ 0 :: back).set (name.length + front.length) 0 =
      front ++ name ++ 0 :: (value ++ 0 :: back) := by
    have hopen : front ++ (name ++ 0x3a :: value) ++ 0 :: back =
        front ++ name ++ 0x3a :: (value ++ 0 :: back) := by simp
    rw [hopen, Nat.add_comm, ← List.length_append, List.set_append_right _ _ (Nat.le_refl _),
      Nat.sub_self]
    rfl
  obtain ⟨blanks,gap,htrim,hlength⟩ := trim_parts front hname (value ++ 0 :: back)
  -- what stands in front of the value
  obtain ⟨front',hfront'⟩ : ∃ front',
      front' = front ++ blanks ++ Codec.trim name ++ List.replicate gap 0 ++ [0] := ⟨_,rfl⟩
  have hfront : front'.length = name.length + front.length + 1 := by
    simp only [hfront', List.length_append, List.length_replicate, List.length_singleton] at hlength ⊢
    omega
  have hmid : front ++ blanks ++ Codec.trim name ++ List.replicate gap 0 ++
      0 :: (value ++ 0 :: back) = front' ++ value ++ 0 :: back := by simp [hfront']
  obtain ⟨blanks',gap',htrim',hlength'⟩ := trim_parts front' hvalue back
  refine ⟨(front ++ blanks).length,(front' ++ blanks').length,
    front' ++ blanks' ++ Codec.trim value ++ List.replicate gap' 0 ++ [0],?_,?_,?_,?_⟩
  · rw [splitHeader, hfind, Option.map_some, hset, htrim]
    simp only
    rw [hmid, ← hfront, htrim', List.append_assoc _ [0] back]
    rfl
  · simp only [List.length_append, List.length_replicate, List.length_singleton] at hfront hlength' ⊢
    omega
  · have h := stringAt_parts (front ++ blanks) (zero_notMem_trim hname) gap
      (blanks' ++ Codec.trim value ++ List.replicate gap' 0 ++ [0] ++ back)
    rw [← h]
    simp [hfront']
  · have h := stringAt_parts (front' ++ blanks') (zero_notMem_trim hvalue) gap' back
    rw [List.append_assoc _ [0] back]
    exact h

theorem fieldOf_none {line : Bytes} (h : 0x3a ∉ line) : fieldOf line = none := by
  rw [fieldOf, occurrence_singleton_eq_none h]
  rfl

theorem fieldOf_some {name : Bytes} (h : 0x3a ∉ name) (value : Bytes) :
    fieldOf (name ++ 0x3a :: value) = some (Codec.trim name,Codec.trim value) := by
  have hname : (name ++ 0x3a :: value).take name.length = name := List.take_left
  have hvalue : (name ++ 0x3a :: value).drop (name.length + 1) = value := by
    rw [List.drop_add_one_eq_tail_drop, List.drop_left, List.tail_cons]
  rw [fieldOf, occurrence_singleton h, Option.map_some, hname, hvalue]

/-- The line that starts here ends at its CRLF. -/
theorem strstr_line (front : Bytes) {line : Bytes} (hline : 0 ∉ line)
    (hwhole : occurrence crlf line = none) (back : Bytes) :
    strstr (front ++ line ++ crlf ++ back) front.length crlf =
      some (line.length + front.length) := by
  have hstring : stringAt (front ++ line ++ crlf ++ back) front.length =
      line ++ 0x0d :: 0x0a :: cstr back := by
    rw [stringAt, List.append_assoc, List.append_assoc, List.drop_left,
      cstr_append_of_notMem hline, cstr_append_of_notMem (by decide)]
    rfl
  rw [strstr, hstring, crlf, occurrence_pair (by decide) hwhole]
  rfl

/-- A turn of the header loop applies the field of its line, and leaves what is behind it. -/
theorem headerLine_parts {r : Request} {front line back : Bytes}
    (hbuffer : r.buffer = front ++ line ++ crlf ++ back) (hline : 0 ∉ line)
    (hwhole : occurrence crlf line = none) (seen : Seen) :
    ∃ front', front'.length = front.length + line.length + 2 ∧
      headerLine r seen front.length = match fieldOf line with
        | none => .error .malformed
        | some (name,value) => match applyHeader { r with buffer := front' ++ back } seen name value with
          | .error e => .error e
          | .ok (r,seen) => .ok (r,seen,some front'.length) := by
  have hfind : strstr r.buffer front.length crlf = some (line.length + front.length) := by
    rw [hbuffer]
    exact strstr_line front hline hwhole back
  have hcut : cutAt r.buffer (some (line.length + front.length)) =
      front ++ line ++ 0 :: (0x0a :: back) := by
    rw [cutAt, hbuffer, Nat.add_comm, ← List.length_append, List.append_assoc _ crlf,
      List.set_append_right _ _ (Nat.le_refl _), Nat.sub_self]
    rfl
  by_cases hcolon : 0x3a ∈ line
  · obtain ⟨name,value,rfl,hname⟩ := List.eq_append_cons_of_mem hcolon
    rw [List.mem_append, List.mem_cons, not_or, not_or] at hline
    obtain ⟨n,v,buffer,hsplit,hlength,hn,hv⟩ :=
      splitHeader_parts front hline.1 hline.2.2 hname (0x0a :: back)
    refine ⟨buffer ++ [0x0a],?_,?_⟩
    · simp only [List.length_append, List.length_cons, List.length_nil]
      omega
    · have hback : buffer ++ [0x0a] ++ back = buffer ++ 0x0a :: back := List.append_assoc _ _ _
      have hnext : (buffer ++ [0x0a]).length = (name ++ 0x3a :: value).length + front.length + 2 := by
        simp only [List.length_append, List.length_cons, List.length_nil]
        omega
      simp only [headerLine, hfind, hcut, hsplit, hn, hv, fieldOf_some hname, hback, hnext]
      rfl
  · refine ⟨List.replicate (front.length + line.length + 2) 0,List.length_replicate,?_⟩
    have hnone := stringAt_parts front hline 0 (0x0a :: back)
    rw [List.replicate_zero, List.append_nil] at hnone
    have hsplit : splitHeader (front ++ line ++ 0 :: 0x0a :: back) front.length = none := by
      rw [splitHeader, strchr, strstr, hnone, occurrence_singleton_eq_none hcolon]
      rfl
    simp only [headerLine, hfind, hcut, hsplit, fieldOf_none hcolon]

/-! ### What the flags say about the fields -/

/-- Where the header loop stands after some fields: it has seen at most one of either kind, and has
the value of the one it has seen. -/
structure Reflects (fields : List (Bytes × Bytes)) (contentLength : ℕ) (chunked : Bool)
    (seen : Seen) : Prop where
  length : fields.filter isContentLength = [] ∧ seen.contentLength = false ∧ contentLength = 0 ∨
    ∃ field, fields.filter isContentLength = [field] ∧ seen.contentLength = true ∧
      parseDecimalSize field.2 = some contentLength
  coding : fields.filter isTransferEncoding = [] ∧ seen.transferEncoding = false ∧
      chunked = false ∨
    ∃ field, fields.filter isTransferEncoding = [field] ∧ seen.transferEncoding = true ∧
      strcasecmp field.2 (octets "chunked") = true ∧ chunked = true

theorem Reflects.nothing : Reflects [] 0 false ⟨false,false,false⟩ :=
  ⟨.inl ⟨rfl,rfl,rfl⟩,.inl ⟨rfl,rfl,rfl⟩⟩

section
variable {fields : List (Bytes × Bytes)} {contentLength : ℕ} {chunked : Bool} {seen : Seen}
  {field : Bytes × Bytes}

theorem filter_concat_of_neg {p : Bytes × Bytes → Bool} (h : p field = false) :
    (fields ++ [field]).filter p = fields.filter p := by
  rw [List.filter_append, List.filter_singleton, h]
  exact List.append_nil _

theorem filter_concat_of_pos {p : Bytes × Bytes → Bool} (h : p field = true) :
    (fields ++ [field]).filter p = fields.filter p ++ [field] := by
  rw [List.filter_append, List.filter_singleton, h]
  rfl

/-- A name is not both. -/
theorem isTransferEncoding_of_isContentLength (h : isContentLength field = true) :
    isTransferEncoding field = false := by
  rw [isContentLength, strcasecmp, decide_eq_true_eq] at h
  rw [isTransferEncoding, strcasecmp, h]
  decide

/-- Another field changes nothing. -/
theorem Reflects.other (h : Reflects fields contentLength chunked seen)
    (hlength : isContentLength field = false) (hcoding : isTransferEncoding field = false)
    (contentType : Bool) : Reflects (fields ++ [field]) contentLength chunked
      { seen with contentType := contentType } := by
  refine ⟨?_,?_⟩
  · rw [filter_concat_of_neg hlength]
    exact h.length
  · rw [filter_concat_of_neg hcoding]
    exact h.coding

theorem Reflects.withLength (h : Reflects fields contentLength chunked seen)
    (hfield : isContentLength field = true) (hunseen : ¬ seen.contentLength = true) {n : ℕ}
    (hparse : parseDecimalSize field.2 = some n) :
    Reflects (fields ++ [field]) n chunked { seen with contentLength := true } := by
  refine ⟨.inr ⟨field,?_,rfl,hparse⟩,?_⟩
  · rcases h.length with ⟨hnone,-⟩ | ⟨_,-,hseen,-⟩
    · rw [filter_concat_of_pos hfield, hnone]
      rfl
    · exact absurd hseen hunseen
  · rw [filter_concat_of_neg (isTransferEncoding_of_isContentLength hfield)]
    exact h.coding

theorem Reflects.withCoding (h : Reflects fields contentLength chunked seen)
    (hlength : isContentLength field = false) (hfield : isTransferEncoding field = true)
    (hunseen : ¬ seen.transferEncoding = true)
    (hchunked : strcasecmp field.2 (octets "chunked") = true) :
    Reflects (fields ++ [field]) contentLength true { seen with transferEncoding := true } := by
  refine ⟨?_,.inr ⟨field,?_,rfl,hchunked,rfl⟩⟩
  · rw [filter_concat_of_neg hlength]
    exact h.length
  · rcases h.coding with ⟨hnone,-⟩ | ⟨_,-,hseen,-⟩
    · rw [filter_concat_of_pos hfield, hnone]
      rfl
    · exact absurd hseen hunseen

/-- A field that is applied is reflected. -/
theorem applyHeader_reflects {r r' : Request} {seen' : Seen} {name value : Bytes}
    (h : Reflects fields r.contentLength r.chunked seen)
    (happly : applyHeader r seen name value = .ok (r',seen')) :
    Reflects (fields ++ [(name,value)]) r'.contentLength r'.chunked seen' := by
  unfold applyHeader at happly
  split at happly
  · cases happly
  split at happly
  · rename_i hname
    have hname : isContentLength (name,value) = true := hname
    split at happly
    · cases happly
    rename_i hunseen
    split at happly
    · cases happly
    rename_i n hparse
    cases happly
    exact h.withLength hname hunseen hparse
  rename_i hlength
  have hlength : isContentLength (name,value) = false := Bool.eq_false_iff.mpr hlength
  split at happly
  · rename_i hname
    have hname : isTransferEncoding (name,value) = true := hname
    split at happly
    · cases happly
    rename_i hgood
    obtain ⟨hunseen,hchunked⟩ := not_or.mp hgood
    cases happly
    exact h.withCoding hlength hname hunseen (not_not.mp hchunked)
  rename_i hcoding
  have hcoding : isTransferEncoding (name,value) = false := Bool.eq_false_iff.mpr hcoding
  split at happly
  · split at happly
    · cases happly
    split at happly
    · cases happly
    cases happly
    exact h.other hlength hcoding true
  split at happly
  · cases happly
    exact h.other hlength hcoding seen.contentType
  · cases happly
    exact h.other hlength hcoding seen.contentType

/-- The header loop goes through the lines one after the other, up to the terminator. -/
theorem headerLines_reflects {lines : List Bytes} {front back : Bytes} {r r' : Request}
    {seen' : Seen} (hbuffer : r.buffer = front ++ lines.flatMap (· ++ crlf) ++ 0 :: back)
    (hlines : ∀ line ∈ lines, 0 ∉ line ∧ occurrence crlf line = none)
    (h : Reflects fields r.contentLength r.chunked seen)
    (hrun : headerLines r seen front.length = .ok (r',seen')) :
    Reflects (fields ++ lines.filterMap fieldOf) r'.contentLength r'.chunked seen' := by
  induction lines generalizing front r seen fields with
  | nil =>
    have hend : stringAt r.buffer front.length = [] := by
      rw [hbuffer, List.flatMap_nil, List.append_nil, stringAt, List.drop_left]
      rfl
    rw [headerLines_eq, if_pos hend] at hrun
    cases hrun
    rw [List.filterMap_nil, List.append_nil]
    exact h
  | cons line lines ih =>
    obtain ⟨⟨hzero,hwhole⟩,hrest⟩ := List.forall_mem_cons.mp hlines
    have hline : r.buffer = front ++ line ++ crlf ++
        (lines.flatMap (· ++ crlf) ++ 0 :: back) := by
      rw [hbuffer, List.flatMap_cons]
      simp only [List.append_assoc]
    obtain ⟨front',-,hstep⟩ := headerLine_parts hline hzero hwhole seen
    have hmore : stringAt r.buffer front.length ≠ [] := by
      rw [stringAt, hline, List.append_assoc, List.append_assoc, List.drop_left,
        cstr_append_of_notMem hzero]
      exact List.append_ne_nil_of_right_ne_nil _ (List.cons_ne_nil _ _)
    rw [headerLines_eq, if_neg hmore, hstep] at hrun
    cases hfield : fieldOf line with
    | none =>
      rw [hfield] at hrun
      cases hrun
    | some field =>
      obtain ⟨name,value⟩ := field
      rw [hfield] at hrun
      simp only at hrun
      cases happly : applyHeader
          { r with buffer := front' ++ (lines.flatMap (· ++ crlf) ++ 0 :: back) } seen name value with
      | error e =>
        rw [happly] at hrun
        cases hrun
      | ok result =>
        obtain ⟨r1,seen1⟩ := result
        rw [happly] at hrun
        have hbuffer1 : r1.buffer = front' ++ lines.flatMap (· ++ crlf) ++ 0 :: back := by
          rw [applyHeader_buffer happly, List.append_assoc]
        have hstep : Reflects (fields ++ [(name,value)]) r1.contentLength r1.chunked seen1 := by
          refine applyHeader_reflects ?_ happly
          exact h
        have hmore := ih hbuffer1 hrest hstep hrun
        rw [List.append_assoc] at hmore
        rw [List.filterMap_cons, hfield]
        exact hmore

end

/-! ### The whole head -/

/-- The request line is written in place, in front of where it ends. -/
theorem requestLine_parts {r r' : Request} {line back : Bytes}
    (hbuffer : r.buffer = line ++ 0 :: back) (h : requestLine r = .ok r') :
    ∃ front, front.length = line.length ∧ r'.buffer = front ++ 0 :: back ∧
      r'.contentLength = r.contentLength ∧ r'.chunked = r.chunked := by
  have hends : Ends r.buffer line.length := by
    rw [hbuffer, Ends, List.getElem?_append_right (Nat.le_refl _), Nat.sub_self]
    rfl
  obtain ⟨first,second,hfirst,hsecond,method,path,rfl⟩ := requestLine_cuts h
  obtain ⟨-,hle1⟩ := hends.strstr_le (Nat.zero_le _) hfirst
  simp only [List.length_singleton] at hle1
  obtain ⟨-,hle2⟩ := hends.strstr_le hle1 hsecond
  simp only [List.length_singleton] at hle2
  refine ⟨(line.set first 0).set second 0,by simp,?_,rfl,rfl⟩
  simp only [hbuffer]
  rw [List.set_append_left _ _ (by omega), List.set_append_left _ _ (by rw [List.length_set]; omega)]

theorem parseDecimalSize_some {value : Bytes} {n : ℕ} (h : parseDecimalSize value = some n) :
    value ≠ [] ∧ (∀ c ∈ value, isdigit c = true) ∧ Codec.decimalValue value = n ∧ n ≤ sizeMax := by
  have hparse := (parseDecimalSizeIn_target value).symm.trans
    (parseDecimalSizeIn_eq (by decide) value)
  rw [h, Option.some.injEq] at hparse
  split at hparse
  · rename_i hgood
    cases hparse
    exact ⟨hgood.1,hgood.2.1,rfl,hgood.2.2⟩
  · cases hparse

/-- If only one flag is set, one field alone frames the request. -/
theorem Reflects.framed {text : Bytes} {r : Request} {seen : Seen}
    (h : Reflects (headerFields text) r.contentLength r.chunked seen)
    (hone : seen.contentLength ≠ seen.transferEncoding) : Framed text r := by
  have hfilter : ∀ {p q : Bytes × Bytes → Bool}, (headerFields text).filter q = [] →
      (headerFields text).filter (fun field => p field || q field) = (headerFields text).filter p := by
    intro p q hq
    refine List.filter_congr fun field hfield => ?_
    rw [Bool.eq_false_iff.mpr (List.filter_eq_nil_iff.mp hq field hfield), Bool.or_false]
  rcases h.length with ⟨hnone,hseen,-⟩ | ⟨field,hfield,hseen,hparse⟩
  · rcases h.coding with ⟨-,hseen',-⟩ | ⟨field,hfield,-,hchunked,hset⟩
    · exact absurd (hseen.trans hseen'.symm) hone
    · refine ⟨field,?_,.inr ⟨?_,hchunked,hset⟩⟩
      · rw [← hfield]
        exact (List.filter_congr fun _ _ => Bool.or_comm _ _).trans (hfilter hnone)
      · have hmem : field ∈ (headerFields text).filter isTransferEncoding := by simp [hfield]
        exact (List.mem_filter.mp hmem).2
  · rcases h.coding with ⟨hnone,-,hunset⟩ | ⟨_,-,hseen',-⟩
    · obtain ⟨hne,hdigits,hvalue,hle⟩ := parseDecimalSize_some hparse
      refine ⟨field,?_,.inl ⟨?_,hne,hdigits,hvalue,hle,hunset⟩⟩
      · rw [← hfield]
        exact hfilter hnone
      · have hmem : field ∈ (headerFields text).filter isContentLength := by simp [hfield]
        exact (List.mem_filter.mp hmem).2
    · exact absurd (hseen.trans hseen'.symm) hone

theorem zero_notMem_linesOf {text : Bytes} (h : 0 ∉ text) : ∀ line ∈ linesOf text, 0 ∉ line := by
  intro line hline hzero
  have hmem : (0 : UInt8) ∈ (linesOf text).flatMap (· ++ crlf) :=
    List.mem_flatMap.mpr ⟨line,hline,List.mem_append_left _ hzero⟩
  rw [flatMap_linesOf, List.mem_append] at hmem
  exact hmem.elim h (by decide)

/-- An accepted head has one framing field, which the request takes its framing from. -/
theorem parseHeaders_framed {text back : Bytes} {r r' : Request} (htext : 0 ∉ text)
    (hbuffer : r.buffer = text ++ crlf ++ crlf ++ back) (hlength : r.contentLength = 0)
    (hchunked : r.chunked = false) (h : parseHeaders r (text.length + 4) = .ok r') :
    Framed text r' := by
  obtain ⟨line,lines,hlines⟩ := List.exists_cons_of_ne_nil (linesOf_ne_nil text)
  have hjoin := flatMap_linesOf text
  rw [hlines, List.flatMap_cons, List.append_assoc] at hjoin
  have hzero := zero_notMem_linesOf htext
  have hwhole := linesOf_whole text
  rw [hlines, List.forall_mem_cons] at hzero hwhole
  -- the terminator goes to where the blank line starts
  have hset : r.buffer.set (text.length + 4 - 2) 0 =
      line ++ crlf ++ (lines.flatMap (· ++ crlf) ++ 0 :: 0x0a :: back) := by
    have hlast : text.length + 4 - 2 = (text ++ crlf).length := by
      rw [List.length_append]
      rfl
    rw [hlast, hbuffer, List.append_assoc _ crlf back, List.set_append_right _ _ (Nat.le_refl _),
      Nat.sub_self, ← hjoin]
    simp only [List.append_assoc]
    rfl
  have hfind : strstr (line ++ crlf ++ (lines.flatMap (· ++ crlf) ++ 0 :: 0x0a :: back)) 0 crlf =
      some line.length := strstr_line [] hzero.1 hwhole.1 _
  have hcut : (line ++ crlf ++ (lines.flatMap (· ++ crlf) ++ 0 :: 0x0a :: back)).set line.length 0 =
      line ++ 0 :: (0x0a :: (lines.flatMap (· ++ crlf) ++ 0 :: 0x0a :: back)) := by
    rw [List.append_assoc, List.set_append_right _ _ (Nat.le_refl _), Nat.sub_self]
    rfl
  simp only [parseHeaders, hset, hfind, hcut] at h
  split at h
  · cases h
  rename_i r1 hrequest
  obtain ⟨front,hfront,hbuffer1,hlength1,hchunked1⟩ := requestLine_parts rfl hrequest
  split at h
  · cases h
  rename_i r2 seen hrun
  split at h
  · cases h
  rename_i hone
  cases h
  have hnext : line.length + 2 = (front ++ [0,0x0a]).length := by
    rw [List.length_append, hfront]
    rfl
  have hstart : Reflects [] r1.contentLength r1.chunked ⟨false,false,false⟩ := by
    rw [hlength1, hchunked1, hlength, hchunked]
    exact .nothing
  rw [hnext] at hrun
  have hbuffer2 : r1.buffer = front ++ [0,0x0a] ++ lines.flatMap (· ++ crlf) ++
      0 :: 0x0a :: back := by
    rw [hbuffer1]
    simp only [List.append_assoc, List.cons_append, List.nil_append]
  have hreflects := headerLines_reflects hbuffer2
    (fun l hl => ⟨hzero.2 l hl,hwhole.2 l hl⟩) hstart hrun
  have hfields : headerFields text = [] ++ lines.filterMap fieldOf := by
    rw [headerFields, hlines]
    rfl
  rw [← hfields] at hreflects
  exact Reflects.framed hreflects hone

/-! ### Any reader -/

/-- What the filling loop has come to: if it ends well, the blank line is in what was taken. -/
def Collected (buffer : Bytes) (calls : List ReadCall) : Outcome HttpError (Bytes × ℕ) → Prop
  | .ok (whole,headerEnd) => buffer ++ taken calls = whole ∧
      ∃ i, occurrence (crlf ++ crlf) whole = some i ∧ headerEnd = i + 4
  | .error _ => True
  | .unfinished => False

theorem taken_fits {n : ℕ} {d : Bytes} (h : ¬ (d = [] ∨ n < d.length)) :
    taken [(n,some d)] = d := by
  rw [taken_cons, taken_nil, List.append_nil]
  exact if_pos (not_lt.mp (not_or.mp h).2)

theorem Collected.cons {buffer d : Bytes} {call : ReadCall} {calls : List ReadCall}
    {outcome : Outcome HttpError (Bytes × ℕ)} (h : Collected (buffer ++ d) calls outcome)
    (hcall : taken [call] = d) : Collected buffer (call :: calls) outcome := by
  cases outcome with
  | ok result =>
    rw [taken_cons, taken_nil, List.append_nil] at hcall
    rw [Collected, taken_cons, hcall, ← List.append_assoc]
    exact h
  | error e => trivial
  | unfinished => exact h

theorem fill_recorded {σ : Type} (read : ReadFn σ) (buffer : Bytes) (searchStart : ℕ) (s : σ)
    (before : List ReadCall) (hno : occurrence (crlf ++ crlf) buffer = none)
    (hstart : buffer.length < 3 → searchStart = 0) :
    ∃ calls, fill (recordedRead read) buffer searchStart (s,before) =
        ((fill read buffer searchStart s).1,((fill read buffer searchStart s).2,before ++ calls)) ∧
      Collected buffer calls (fill read buffer searchStart s).1 := by
  fun_induction fill read buffer searchStart s generalizing before with
  | case1 buffer start s hfull =>
    refine ⟨[],?_,trivial⟩
    rw [fill, if_pos hfull, List.append_nil]
  | case2 buffer start s hfull s' hread =>
    refine ⟨[(httpBufferSize - buffer.length,none)],?_,trivial⟩
    rw [fill, if_neg hfull]
    simp only [recordedRead, hread]
  | case3 buffer start s hfull d s' hread hbad =>
    refine ⟨[(httpBufferSize - buffer.length,some d)],?_,trivial⟩
    rw [fill, if_neg hfull]
    simp only [recordedRead, hread, if_pos hbad]
  | case4 buffer start s hfull d s' hread hgood searchStart next i hfind =>
    have htaken := taken_fits hgood
    have hocc : occurrence (crlf ++ crlf) next = some (i + searchStart) :=
      (occurrence_next hno hstart d).trans (congrArg (Option.map _) hfind)
    refine ⟨[(httpBufferSize - buffer.length,some d)],?_,?_,i + searchStart,hocc,rfl⟩
    · rw [fill, if_neg hfull]
      simp only [recordedRead, hread, if_neg hgood]
      split
      · rename_i j hj
        cases hfind.symm.trans hj
        rfl
      · rename_i hj
        cases hfind.symm.trans hj
    · rw [htaken]
  | case5 buffer start s hfull d s' hread hgood searchStart next hfind ih =>
    have htaken := taken_fits hgood
    have hocc : occurrence (crlf ++ crlf) next = none :=
      (occurrence_next hno hstart d).trans (congrArg (Option.map _) hfind)
    obtain ⟨calls,hrun,hcollected⟩ := ih (before ++ [(httpBufferSize - buffer.length,some d)]) hocc
      fun hshort => if_neg (by omega)
    refine ⟨(httpBufferSize - buffer.length,some d) :: calls,?_,?_⟩
    · rw [fill, if_neg hfull]
      simp only [recordedRead, hread, if_neg hgood]
      split
      · rename_i j hj
        cases hfind.symm.trans hj
      · refine hrun.trans ?_
        rw [List.append_assoc]
        rfl
    · exact hcollected.cons htaken

theorem open_recorded {σ : Type} (read : ReadFn σ) (memory : Bool) (s : σ) :
    ∃ calls, ippHttpRequestOpen (recordedRead read) memory (s,[]) =
        ((ippHttpRequestOpen read memory s).1,((ippHttpRequestOpen read memory s).2,calls)) ∧
      (ippHttpRequestOpen read memory s).1 ≠ .unfinished ∧
      ∀ r, (ippHttpRequestOpen read memory s).1 = .ok r →
        ∃ text, headText (taken calls) = some text ∧ Framed text r := by
  cases memory with
  | false => exact ⟨[],rfl,(fun h => by cases h),fun r h => by cases h⟩
  | true =>
    obtain ⟨calls,hrun,hcollected⟩ := fill_recorded read [] 0 s [] rfl fun _ => rfl
    rw [List.nil_append] at hrun
    simp only [ippHttpRequestOpen, Bool.true_eq_false, if_false, Run.bind_apply, hrun]
    cases hfill : fill read [] 0 s with
    | mk outcome s' =>
      rw [hfill] at hcollected
      cases outcome with
      | unfinished => exact hcollected.elim
      | error e => exact ⟨calls,rfl,(fun h => by cases h),fun r h => by cases h⟩
      | ok result =>
        obtain ⟨buffer,headerEnd⟩ := result
        obtain ⟨htaken,i,hocc,rfl⟩ := hcollected
        rw [List.nil_append] at htaken
        refine ⟨calls,?_⟩
        simp only
        by_cases hzero : 0 ∈ buffer.take (i + 4)
        · simp only [if_pos hzero]
          exact ⟨rfl,(fun h => by cases h),fun r h => by cases h⟩
        · simp only [if_neg hzero]
          cases hparse : parseHeaders
              { Request.zero with buffer := buffer, bufferOffset := i + 4 } (i + 4) with
          | error e => exact ⟨rfl,(fun h => by cases h),fun r h => by cases h⟩
          | ok r =>
            refine ⟨rfl,(fun h => by cases h),fun r' hr' => ?_⟩
            cases hr'
            obtain ⟨hle,⟨body,hbody⟩,-⟩ := occurrence_eq_some_iff.mp hocc
            have hlength : (buffer.take i).length = i := List.length_take_of_le hle
            have hbuffer : buffer = buffer.take i ++ crlf ++ crlf ++ body := by
              rw [List.append_assoc _ crlf crlf, List.append_assoc, hbody, List.take_append_drop]
            refine ⟨buffer.take i,?_,?_⟩
            · rw [htaken, headText, hocc]
              rfl
            · have htext : 0 ∉ buffer.take i := fun h =>
                hzero (List.take_subset_take_left _ (Nat.le_add_right i 4) h)
              rw [← hlength] at hparse
              exact parseHeaders_framed
                (r := { Request.zero with buffer := buffer, bufferOffset := (buffer.take i).length + 4 })
                htext hbuffer rfl rfl hparse

/-- A request is opened only if one field alone frames it, whatever the reader does; a head with no
such field or with more than one is refused. -/
theorem ippHttpRequestOpen_framed {σ : Type} (read : ReadFn σ) (memory : Bool) (s : σ) :
    ∃ calls, ippHttpRequestOpen (recordedRead read) memory (s,[]) =
        ((ippHttpRequestOpen read memory s).1,((ippHttpRequestOpen read memory s).2,calls)) ∧
      (∀ r, (ippHttpRequestOpen read memory s).1 = .ok r →
        ∃ text, headText (taken calls) = some text ∧ Framed text r) ∧
      (∀ text, headText (taken calls) = some text →
        ((headerFields text).filter isFraming).length ≠ 1 →
          ∃ e, (ippHttpRequestOpen read memory s).1 = .error e) := by
  obtain ⟨calls,hrun,hfinished,hframed⟩ := open_recorded read memory s
  refine ⟨calls,hrun,hframed,fun text htext hcount => ?_⟩
  cases ho : (ippHttpRequestOpen read memory s).1 with
  | unfinished => exact absurd ho hfinished
  | error e => exact ⟨e,rfl⟩
  | ok r =>
    obtain ⟨text',htext',field,hfield,-⟩ := hframed r ho
    cases htext.symm.trans htext'
    rw [hfield] at hcount
    exact absurd rfl hcount

end Espresso.Http
