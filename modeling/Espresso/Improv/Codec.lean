import Espresso.Lib.Octets

/-! The packets of the Improv serial protocol, `improv_serial_codec.c`: the encoder, and the parser
that is fed one octet at a time from a line that also carries log text. -/
namespace Espresso.Improv

/-- `s_header`. -/
def header : Bytes := octets "IMPROV"

abbrev improvSerialVersion : UInt8 := 1
abbrev improvSerialMaxData : ℕ := 255
abbrev improvSerialPacketOverhead : ℕ := 10
abbrev improvSerialMaxPacketSize : ℕ := improvSerialMaxData + improvSerialPacketOverhead

/-- `bytes` is the part of the array that has been filled, so that `length` is its length. -/
structure Parser where
  bytes : Bytes
  expectedLength : ℕ
  deriving DecidableEq, Repr

def Parser.length (p : Parser) : ℕ := p.bytes.length

structure Packet where
  type : UInt8
  length : UInt8
  data : Bytes
  deriving DecidableEq, Repr

inductive ParseResult
  | none
  | packet (packet : Packet)
  | invalid
  deriving DecidableEq, Repr

def improvSerialParserReset : Parser := ⟨[],0⟩

def restartWithByte (byte : UInt8) : Parser :=
  if byte = header.getD 0 0 then ⟨[byte],0⟩ else improvSerialParserReset

/-- The sum of the octets, as a `uint8_t`. -/
def checksum (b : Bytes) : UInt8 := b.foldl (· + ·) 0

/-- What a frame that is complete comes to; the parser is reset in any case. -/
def finishFrame (bytes : Bytes) (expectedLength : ℕ) : ParseResult :=
  if bytes.getD 6 0 = improvSerialVersion ∧
      checksum (bytes.take (expectedLength - 1)) = bytes.getD (expectedLength - 1) 0 then
    .packet ⟨bytes.getD 7 0,bytes.getD 8 0,(bytes.drop 9).take (bytes.getD 8 0).toNat⟩
  else .invalid

def improvSerialParserFeed (p : Parser) (byte : UInt8) : ParseResult × Parser :=
  if p.length = 0 then
    if byte = header.getD 0 0 then (.none,{ p with bytes := [byte] }) else (.none,p)
  else if p.length < header.length then
    if byte ≠ header.getD p.length 0 then (.none,restartWithByte byte)
    else (.none,{ p with bytes := p.bytes ++ [byte] })
  else if improvSerialMaxPacketSize ≤ p.length then (.invalid,restartWithByte byte)
  else
    let bytes := p.bytes ++ [byte]
    let expectedLength :=
      if bytes.length = 9 then improvSerialPacketOverhead + (bytes.getD 8 0).toNat
      else p.expectedLength
    if expectedLength = 0 ∨ bytes.length < expectedLength then (.none,⟨bytes,expectedLength⟩)
    else (finishFrame bytes expectedLength,improvSerialParserReset)

/-- No octets stand for a packet that is refused. -/
def improvSerialEncodePacket (type : UInt8) (data : Bytes) (capacity : ℕ) : Bytes :=
  if improvSerialMaxData < data.length then []
  else if capacity < improvSerialPacketOverhead + data.length then []
  else
    let body := header ++ [improvSerialVersion,type,UInt8.ofNat data.length] ++ data
    body ++ [checksum body]

/-- The results of one octet after the other, and the parser afterwards. -/
def feedAll (p : Parser) : Bytes → List ParseResult × Parser
  | [] => ([],p)
  | byte :: rest =>
    let (result,p) := improvSerialParserFeed p byte
    let (results,p) := feedAll p rest
    (result :: results,p)

theorem feedAll_append (p : Parser) (a b : Bytes) :
    feedAll p (a ++ b) =
      ((feedAll p a).1 ++ (feedAll (feedAll p a).2 b).1,(feedAll (feedAll p a).2 b).2) := by
  induction a generalizing p with
  | nil => rfl
  | cons byte rest ih => simp only [List.cons_append, feedAll, ih]

@[simp] theorem header_length : header.length = 6 := by decide +kernel

/-! ### The header word -/

/-- So much of the header has been seen. -/
def matching (k : ℕ) : Parser := ⟨header.take k,0⟩

@[simp] theorem matching_zero : matching 0 = improvSerialParserReset := rfl

theorem matching_length {k : ℕ} (hk : k ≤ 6) : (matching k).length = k := by
  rw [Parser.length, matching, List.length_take, header_length, Nat.min_eq_left hk]

theorem header_take_succ {k : ℕ} (hk : k < 6) :
    header.take (k + 1) = header.take k ++ [header.getD k 0] := by
  rw [List.take_succ_eq_append_getElem (by simpa using hk), List.getD_eq_getElem _ _ (by simpa using hk)]

theorem restartWithByte_eq (byte : UInt8) :
    restartWithByte byte = if byte = header.getD 0 0 then matching 1 else matching 0 := by
  unfold restartWithByte
  split
  · rename_i h
    rw [h]
    decide +kernel
  · rfl

/-- The next octet of the header is taken; any other one starts the search again. -/
theorem feed_matching {k : ℕ} (hk : k < 6) (byte : UInt8) :
    improvSerialParserFeed (matching k) byte =
      (.none,if byte = header.getD k 0 then matching (k + 1)
        else if byte = header.getD 0 0 then matching 1 else matching 0) := by
  rw [improvSerialParserFeed, matching_length hk.le, header_length]
  by_cases h0 : k = 0
  · subst h0
    rw [if_pos rfl]
    by_cases hbyte : byte = header.getD 0 0
    · rw [if_pos hbyte, if_pos hbyte, hbyte]
      decide +kernel
    · rw [if_neg hbyte, if_neg hbyte, if_neg hbyte]
  · rw [if_neg h0, if_pos hk]
    by_cases hbyte : byte = header.getD k 0
    · rw [if_neg (not_not.mpr hbyte), if_pos hbyte, matching, matching, header_take_succ hk, hbyte]
    · rw [if_pos hbyte, if_neg hbyte, restartWithByte_eq]

/-- The first octet of the header does not come back in it. -/
theorem header_head_ne {k : ℕ} (h0 : 0 < k) (hk : k < 6) : header.getD k 0 ≠ header.getD 0 0 := by
  have hall : ∀ k : Fin 6, 0 < k.val → header.getD k.val 0 ≠ header.getD 0 0 := by decide +kernel
  exact hall ⟨k,hk⟩ h0

/-- However much of the header has been seen, its first octet begins a new one. -/
theorem feed_head {k : ℕ} (hk : k < 6) :
    improvSerialParserFeed (matching k) (header.getD 0 0) = (.none,matching 1) := by
  rw [feed_matching hk]
  by_cases h0 : k = 0
  · subst h0
    rw [if_pos rfl]
  · rw [if_neg (Ne.symm (header_head_ne (Nat.pos_of_ne_zero h0) hk)), if_pos rfl]

/-- Noise without the header leaves the parser before the end of the header. -/
theorem feedAll_noise {noise : Bytes} {k : ℕ} (hk : k < 6)
    (hnoise : ¬ header <:+: header.take k ++ noise) :
    ∃ k' < 6, feedAll (matching k) noise = (List.replicate noise.length .none,matching k') := by
  induction noise generalizing k with
  | nil => exact ⟨k,hk,rfl⟩
  | cons byte rest ih =>
    -- the parser stands for a suffix of what it has seen, which the rest must not complete
    have hstep : ∃ k' < 6, improvSerialParserFeed (matching k) byte = (.none,matching k') ∧
        ¬ header <:+: header.take k' ++ rest := by
      rw [feed_matching hk]
      by_cases hbyte : byte = header.getD k 0
      · have hsame : header.take k ++ byte :: rest = header.take (k + 1) ++ rest := by
          rw [header_take_succ hk, ← hbyte, List.append_assoc, List.singleton_append]
        rw [hsame] at hnoise
        refine ⟨k + 1,?_,by rw [if_pos hbyte],hnoise⟩
        by_contra hlast
        obtain rfl : k = 5 := by omega
        exact hnoise (List.IsPrefix.isInfix ⟨rest,by rw [List.take_of_length_le (by simp)]⟩)
      · rw [if_neg hbyte]
        by_cases hhead : byte = header.getD 0 0
        · refine ⟨1,by decide,by rw [if_pos hhead],fun h => hnoise ?_⟩
          have hone : header.take 1 = [byte] := by
            rw [hhead]
            decide +kernel
          rw [hone] at h
          exact h.trans (List.suffix_append _ _).isInfix
        · refine ⟨0,by decide,by rw [if_neg hhead],fun h => hnoise (h.trans ?_)⟩
          exact ((List.suffix_cons byte rest).trans (List.suffix_append _ _)).isInfix
    obtain ⟨k1,hk1,hfeed,hrest⟩ := hstep
    obtain ⟨k',hk',hall⟩ := ih hk1 hrest
    refine ⟨k',hk',?_⟩
    simp only [feedAll, hfeed, hall, List.length_cons, List.replicate_succ]

/-- The header is found behind any part of it. -/
theorem feedAll_header {k : ℕ} (hk : k < 6) :
    feedAll (matching k) header = (List.replicate 6 .none,⟨header,0⟩) := by
  have hsplit : header = header.getD 0 0 :: header.drop 1 := by decide +kernel
  have htail : feedAll (matching 1) (header.drop 1) = (List.replicate 5 .none,⟨header,0⟩) := by
    decide +kernel
  rw [hsplit, feedAll, feed_head hk]
  simp only [htail, ← hsplit]
  rfl

/-! ### Frames -/

/-- The octets of a frame before its checksum. -/
def frameBody (version type length : UInt8) (data : Bytes) : Bytes :=
  header ++ version :: type :: length :: data

theorem frameBody_length (version type length : UInt8) (data : Bytes) :
    (frameBody version type length data).length = 9 + data.length := by
  simp [frameBody]
  omega

/-- Behind the header come version, type and length. -/
theorem frameBody_getD (version type length : UInt8) (data rest : Bytes) (i : ℕ) :
    (frameBody version type length data ++ rest).getD (6 + i) 0 =
      (version :: type :: length :: (data ++ rest)).getD i 0 := by
  rw [frameBody, List.append_assoc, List.getD_append_right _ _ _ _ (by simp), header_length,
    Nat.add_sub_cancel_left]
  rfl

/-- A frame is judged by its version and its checksum. -/
theorem finishFrame_eq (version type length sum : UInt8) {data : Bytes}
    (hlength : length.toNat = data.length) :
    finishFrame (frameBody version type length data ++ [sum]) (10 + data.length) =
      if version = improvSerialVersion ∧ checksum (frameBody version type length data) = sum then
        .packet ⟨type,length,data⟩
      else .invalid := by
  have hbody := frameBody_length version type length data
  have htake : (frameBody version type length data ++ [sum]).take (10 + data.length - 1) =
      frameBody version type length data := List.take_left' (by omega)
  have hsum : (frameBody version type length data ++ [sum]).getD (10 + data.length - 1) 0 =
      sum := by
    rw [List.getD_append_right _ _ _ _ (by omega), hbody]
    simp
  have hdata : ((frameBody version type length data ++ [sum]).drop 9).take length.toNat = data := by
    have hdrop : (frameBody version type length data ++ [sum]).drop 9 = data ++ [sum] := by
      have h9 : (9 : ℕ) = header.length + 3 := by rw [header_length]
      rw [frameBody, List.append_assoc, h9, ← List.drop_drop, List.drop_left]
      rfl
    rw [hdrop, hlength, List.take_left]
  have hversion : (frameBody version type length data ++ [sum]).getD 6 0 = version :=
    frameBody_getD _ _ _ _ _ 0
  have htype : (frameBody version type length data ++ [sum]).getD 7 0 = type :=
    frameBody_getD _ _ _ _ _ 1
  have hcount : (frameBody version type length data ++ [sum]).getD 8 0 = length :=
    frameBody_getD _ _ _ _ _ 2
  rw [finishFrame, htake, hsum, hversion, htype, hcount, hdata]

section
variable {bytes : Bytes} {expectedLength : ℕ} (byte : UInt8)

/-- Behind the header every octet is stored, until the frame is complete. -/
theorem feed_frame {announced : ℕ} (h6 : 6 ≤ bytes.length)
    (hroom : bytes.length < 265)
    (hannounced : (if (bytes ++ [byte]).length = 9 then
      10 + ((bytes ++ [byte]).getD 8 0).toNat else expectedLength) =
        announced) :
    improvSerialParserFeed ⟨bytes,expectedLength⟩ byte =
      if announced = 0 ∨ bytes.length + 1 < announced then (.none,⟨bytes ++ [byte],announced⟩)
      else (finishFrame (bytes ++ [byte]) announced,improvSerialParserReset) := by
  have hlength : Parser.length ⟨bytes,expectedLength⟩ = bytes.length := rfl
  have hfull : ¬ improvSerialMaxPacketSize ≤ bytes.length := Nat.not_le.mpr hroom
  rw [improvSerialParserFeed, hlength, header_length, if_neg (by omega), if_neg (by omega),
    if_neg hfull, ← hannounced]
  simp only [List.length_append, List.length_singleton]

theorem feed_collects (h6 : 6 ≤ bytes.length) (hroom : bytes.length < 265)
    (h8 : bytes.length ≠ 8) (hmore : expectedLength = 0 ∨ bytes.length + 1 < expectedLength) :
    improvSerialParserFeed ⟨bytes,expectedLength⟩ byte =
      (.none,⟨bytes ++ [byte],expectedLength⟩) := by
  have h9 : (bytes ++ [byte]).length ≠ 9 := by simpa using h8
  rw [feed_frame byte h6 hroom (if_neg h9), if_pos hmore]

/-- The ninth octet is the length of the payload. -/
theorem feed_announces (h8 : bytes.length = 8) :
    improvSerialParserFeed ⟨bytes,expectedLength⟩ byte =
      (.none,⟨bytes ++ [byte],10 + byte.toNat⟩) := by
  have hlength : (bytes ++ [byte]).getD 8 0 = byte := by
    rw [List.getD_append_right _ _ _ _ h8.le, h8]
    rfl
  have h9 : (bytes ++ [byte]).length = 9 := by simpa using h8
  have hroom : bytes.length < 265 := h8 ▸ by decide
  rw [feed_frame byte (by omega) hroom (if_pos h9), hlength, if_pos (.inr (by omega))]

theorem feed_completes (h9 : 9 ≤ bytes.length) (hroom : bytes.length < 265)
    (hlast : bytes.length + 1 = expectedLength) :
    improvSerialParserFeed ⟨bytes,expectedLength⟩ byte =
      (finishFrame (bytes ++ [byte]) expectedLength,improvSerialParserReset) := by
  have hne : (bytes ++ [byte]).length ≠ 9 := by
    rw [List.length_append, List.length_singleton]
    omega
  rw [feed_frame byte (by omega) hroom (if_neg hne), if_neg (by omega)]

end

theorem feedAll_lengths (version type length : UInt8) :
    feedAll ⟨header,0⟩ [version,type,length] =
      (List.replicate 3 .none,⟨frameBody version type length [],
        10 + length.toNat⟩) := by
  have hversion := @feed_collects header 0 version (by simp) (by rw [header_length]; decide)
    (by simp) (.inl rfl)
  have htype := @feed_collects (header ++ [version]) 0 type (by simp) (by simp) (by simp)
    (.inl rfl)
  have hlength := @feed_announces (header ++ [version] ++ [type]) 0 length (by simp)
  simp only [feedAll, hversion, htype, hlength]
  simp [frameBody, List.replicate_succ]

theorem feedAll_data {bytes data : Bytes} {expectedLength : ℕ} (h9 : 9 ≤ bytes.length)
    (hshort : bytes.length + data.length < expectedLength)
    (hmax : expectedLength ≤ 265) :
    feedAll ⟨bytes,expectedLength⟩ data =
      (List.replicate data.length .none,⟨bytes ++ data,expectedLength⟩) := by
  induction data generalizing bytes with
  | nil => rw [List.append_nil]; rfl
  | cons byte rest ih =>
    simp only [List.length_cons] at hshort
    have hfeed := @feed_collects bytes expectedLength byte (by omega) (by omega) (by omega)
      (.inr (by omega))
    have hrest := @ih (bytes ++ [byte]) (by simp; omega) (by simp; omega)
    simp only [feedAll, hfeed, hrest, List.length_cons, List.replicate_succ, List.append_assoc,
      List.singleton_append]

/-! ### Packets among noise -/

/-- Log text without the header, and then a packet. -/
structure NoisyPacket where
  noise : Bytes
  type : UInt8
  data : Bytes
  capacity : ℕ
  quiet : ¬ header <:+: noise
  short : data.length ≤ improvSerialMaxData
  room : improvSerialPacketOverhead + data.length ≤ capacity

namespace NoisyPacket

def stream (m : NoisyPacket) : Bytes :=
  m.noise ++ improvSerialEncodePacket m.type m.data m.capacity

/-- Nothing, up to the last octet. -/
def results (m : NoisyPacket) : List ParseResult :=
  List.replicate (m.stream.length - 1) .none ++
    [.packet ⟨m.type,UInt8.ofNat m.data.length,m.data⟩]

end NoisyPacket

theorem improvSerialEncodePacket_eq {data : Bytes} {capacity : ℕ}
    (hshort : data.length ≤ 255)
    (hroom : 10 + data.length ≤ capacity) (type : UInt8) :
    improvSerialEncodePacket type data capacity =
      frameBody improvSerialVersion type (UInt8.ofNat data.length) data ++
        [checksum (frameBody improvSerialVersion type (UInt8.ofNat data.length) data)] := by
  rw [improvSerialEncodePacket, if_neg (Nat.not_lt.mpr hshort), if_neg (Nat.not_lt.mpr hroom),
    frameBody]
  simp only [List.append_assoc, List.cons_append, List.nil_append]

theorem improvSerialEncodePacket_length {data : Bytes} {capacity : ℕ} (hshort : data.length ≤ 255)
    (hroom : 10 + data.length ≤ capacity) (type : UInt8) :
    (improvSerialEncodePacket type data capacity).length = 10 + data.length := by
  rw [improvSerialEncodePacket_eq hshort hroom, List.length_append, frameBody_length,
    List.length_singleton]
  omega

theorem feedAll_packet {data : Bytes} {capacity k : ℕ} (hk : k < 6)
    (hshort : data.length ≤ 255)
    (hroom : 10 + data.length ≤ capacity) (type : UInt8) :
    feedAll (matching k) (improvSerialEncodePacket type data capacity) =
      (List.replicate (10 + data.length - 1) .none ++
        [.packet ⟨type,UInt8.ofNat data.length,data⟩],improvSerialParserReset) := by
  have hlength : (UInt8.ofNat data.length).toNat = data.length := by
    rw [UInt8.toNat_ofNat']
    omega
  rw [improvSerialEncodePacket_eq hshort hroom]
  generalize hsum : checksum _ = sum
  have hparts : frameBody improvSerialVersion type (UInt8.ofNat data.length) data ++ [sum] =
      header ++ ([improvSerialVersion,type,UInt8.ofNat data.length] ++ (data ++ [sum])) := by
    simp [frameBody]
  have happend : frameBody improvSerialVersion type (UInt8.ofNat data.length) [] ++ data =
      frameBody improvSerialVersion type (UInt8.ofNat data.length) data := by
    simp [frameBody]
  have hbody := frameBody_length improvSerialVersion type (UInt8.ofNat data.length) data
  have hdata := @feedAll_data (frameBody improvSerialVersion type (UInt8.ofNat data.length) [])
    data (10 + data.length) (by simp [frameBody_length])
    (by simp [frameBody_length]) (by omega)
  have hlast := @feed_completes (frameBody improvSerialVersion type (UInt8.ofNat data.length) data)
    (10 + data.length) sum (by omega) (by omega) (by omega)
  rw [finishFrame_eq improvSerialVersion type _ sum hlength, if_pos ⟨rfl,hsum⟩] at hlast
  rw [hparts, feedAll_append, feedAll_header hk, feedAll_append, feedAll_lengths, hlength,
    feedAll_append, hdata, happend]
  have hnine : 10 + data.length - 1 = 6 + (3 + data.length) := by omega
  simp only [feedAll, hlast, hnine, List.replicate_add, List.append_assoc]

/-- A packet behind any noise without the header is found, and the parser is ready for the next. -/
theorem feedAll_noisy (packets : List NoisyPacket) :
    feedAll improvSerialParserReset (packets.flatMap NoisyPacket.stream) =
      (packets.flatMap NoisyPacket.results,improvSerialParserReset) := by
  induction packets with
  | nil => rfl
  | cons m packets ih =>
    obtain ⟨k,hk,hnoise⟩ := @feedAll_noise m.noise 0 (by decide) m.quiet
    have hpacket := feedAll_packet hk m.short m.room m.type
    rw [matching_zero] at hnoise
    have hone : feedAll improvSerialParserReset m.stream =
        (m.results,improvSerialParserReset) := by
      have hlength : m.stream.length - 1 = m.noise.length + (10 + m.data.length - 1) := by
        rw [NoisyPacket.stream, List.length_append,
          improvSerialEncodePacket_length m.short m.room]
        omega
      rw [NoisyPacket.results, hlength, NoisyPacket.stream, feedAll_append, hnoise, hpacket,
        List.replicate_add, List.append_assoc]
    rw [List.flatMap_cons, List.flatMap_cons, feedAll_append, hone, ih]

/-- Log text that ends inside the header word hides nothing. -/
example : (feedAll improvSerialParserReset (octets "IMPROIM" ++
    improvSerialEncodePacket 1 [4] 265)).1.getLast? = some (.packet ⟨1,1,[4]⟩) := by decide +kernel

end Espresso.Improv
