import Espresso.Improv.Codec

/-! The parser over any sequence of octets and resets: what it holds of the line, and what its
results say about the octets that were fed. -/
namespace Espresso.Improv

inductive Event
  | fed (byte : UInt8)
  | reset
  deriving DecidableEq

/-- The parser and the octets that it has been fed since it was last reset. -/
structure Session where
  parser : Parser
  since : Bytes

namespace Session

def initial : Session := ⟨improvSerialParserReset,[]⟩

def after (s : Session) : Event → Session
  | .fed byte => ⟨(improvSerialParserFeed s.parser byte).2,s.since ++ [byte]⟩
  | .reset => ⟨improvSerialParserReset,[]⟩

def run (events : List Event) : Session := events.foldl after initial

end Session

/-- A frame from its header to its checksum. -/
def Complete (frame : Bytes) : Prop :=
  header <+: frame ∧ frame.length = improvSerialPacketOverhead + (frame.getD 8 0).toNat

/-- What the parser holds is the end of what it was fed, and the beginning of a frame. -/
structure Tracks (s : Session) : Prop where
  suffix : s.parser.bytes <:+ s.since
  begins : s.parser.bytes.take 6 <+: header
  announced : s.parser.expectedLength = if 9 ≤ s.parser.length then
    improvSerialPacketOverhead + (s.parser.bytes.getD 8 0).toNat else 0
  incomplete : s.parser.expectedLength ≠ 0 → s.parser.length < s.parser.expectedLength

/-- A result is about the octets up to now: a packet is the encoding of what it holds, and what is
refused is a frame as well. -/
def Sound (since : Bytes) : ParseResult → Prop
  | .none => True
  | .packet p => p.data.length = p.length.toNat ∧
    improvSerialEncodePacket p.type p.data improvSerialMaxPacketSize <:+ since ∧
    (improvSerialEncodePacket p.type p.data improvSerialMaxPacketSize).length =
      improvSerialPacketOverhead + p.data.length
  | .invalid => ∃ frame, frame <:+ since ∧ Complete frame

/-! ### One octet -/

/-- A frame with a header and a checksum has all the parts. -/
theorem frame_cases {frame : Bytes} (hheader : header <+: frame) (hlength : 10 ≤ frame.length) :
    ∃ version type length data sum, frame = frameBody version type length data ++ [sum] := by
  obtain ⟨rest,rfl⟩ := hheader
  rw [List.length_append, header_length] at hlength
  match rest, hlength with
  | version :: type :: length :: tail, hlength =>
    rcases List.eq_nil_or_concat tail with rfl | ⟨data,sum,rfl⟩
    · simp at hlength
    · exact ⟨version,type,length,data,sum,by simp [frameBody]⟩

theorem Complete.sound {frame since : Bytes} (h : Complete frame) (hsuffix : frame <:+ since) :
    Sound since (finishFrame frame frame.length) := by
  have hten : frame.length = 10 + (frame.getD 8 0).toNat := h.2
  obtain ⟨version,type,length,data,sum,hframe⟩ := frame_cases h.1 (by omega)
  subst hframe
  have hcount : (frameBody version type length data ++ [sum]).getD 8 0 = length :=
    frameBody_getD _ _ _ _ _ 2
  rw [hcount] at hten
  have htotal : (frameBody version type length data ++ [sum]).length = 10 + data.length := by
    rw [List.length_append, frameBody_length, List.length_singleton]
    omega
  have hlength : length.toNat = data.length := by omega
  have hbyte := length.toNat_lt
  have hshort : data.length ≤ 255 := by omega
  rw [htotal, finishFrame_eq version type length sum hlength]
  split
  · rename_i hvalid
    obtain ⟨rfl,rfl⟩ := hvalid
    have hofNat : UInt8.ofNat data.length = length := by rw [← hlength, UInt8.ofNat_toNat]
    have hcapacity : 10 + data.length ≤ 265 := by omega
    have hencode := improvSerialEncodePacket_eq hshort hcapacity type
    rw [hofNat] at hencode
    refine ⟨hlength.symm,?_,improvSerialEncodePacket_length hshort hcapacity type⟩
    change improvSerialEncodePacket type data 265 <:+ since
    rwa [hencode]
  · exact ⟨_,hsuffix,h⟩

/-- The parser has less than its buffer can hold. -/
theorem Tracks.room {s : Session} (h : Tracks s) : s.parser.length < improvSerialMaxPacketSize := by
  by_cases h9 : 9 ≤ s.parser.length
  · have hbyte := (s.parser.bytes.getD 8 0).toNat_lt
    have hannounced := h.announced
    have hincomplete := h.incomplete
    rw [if_pos h9] at hannounced
    change _ < 265
    change s.parser.expectedLength = 10 + _ at hannounced
    omega
  · change _ < 265
    omega

theorem Tracks.initial : Tracks .initial := by
  refine ⟨List.suffix_refl _,List.nil_prefix,rfl,fun h => absurd rfl h⟩

/-- So much of the header is a state that the parser can be in, on any line that ends with it. -/
theorem Tracks.matching {since : Bytes} {k : ℕ} (hk : k ≤ 6) (hsuffix : header.take k <:+ since) :
    Tracks ⟨matching k,since⟩ := by
  refine ⟨hsuffix,?_,?_,fun h => absurd rfl h⟩
  · exact .trans ( List.take_prefix 6 _) ( List.take_prefix k header)
  · rw [if_neg (by rw [matching_length hk]; omega)]
    rfl

/-- Before the end of the header the parser is known from the number of its octets. -/
theorem Tracks.parser_eq {s : Session} (h : Tracks s) (h6 : s.parser.length < 6) :
    s.parser = Improv.matching s.parser.length := by
  obtain ⟨⟨bytes,expectedLength⟩,since⟩ := s
  have hbytes : bytes = header.take bytes.length := by
    have hbegins : bytes.take 6 <+: header := h.begins
    rw [List.take_of_length_le (Nat.le_of_lt h6)] at hbegins
    exact List.prefix_iff_eq_take.mp hbegins
  have hnone : expectedLength = 0 := by
    have hannounced := h.announced
    rwa [if_neg (by omega)] at hannounced
  rw [hnone, Improv.matching]
  exact congrArg (Parser.mk · 0) hbytes

/-- An octet behind the header that does not complete a frame. -/
theorem Tracks.collected {bytes since : Bytes} {expectedLength announced : ℕ} {byte : UInt8}
    (h : Tracks ⟨⟨bytes,expectedLength⟩,since⟩) (h6 : 6 ≤ bytes.length)
    (hannounced : announced = if 9 ≤ bytes.length + 1 then
      improvSerialPacketOverhead + ((bytes ++ [byte]).getD 8 0).toNat else 0)
    (hmore : announced ≠ 0 → bytes.length + 1 < announced) :
    Tracks ⟨⟨bytes ++ [byte],announced⟩,since ++ [byte]⟩ := by
  have hlength : Parser.length ⟨bytes ++ [byte],announced⟩ = bytes.length + 1 := by
    rw [Parser.length, List.length_append, List.length_singleton]
  refine ⟨List.suffix_append_self_iff.mpr h.suffix,?_,?_,?_⟩
  · rw [List.take_append_of_le_length h6]
    exact h.begins
  · rw [hlength]
    exact hannounced
  · rw [hlength]
    exact hmore

/-- One octet more: the parser keeps track, and what it returns is sound. -/
theorem Tracks.fed {s : Session} (h : Tracks s) (byte : UInt8) :
    Tracks (s.after (.fed byte)) ∧
      Sound (s.since ++ [byte]) (improvSerialParserFeed s.parser byte).1 := by
  rcases Nat.lt_or_ge s.parser.length 6 with h6 | h6
  · -- the header goes on, begins again, or has to be looked for
    have hparser := h.parser_eq h6
    have hsuffix := h.suffix
    rw [hparser] at hsuffix
    rw [Session.after, hparser, feed_matching h6]
    refine ⟨?_,trivial⟩
    split_ifs with hbyte hhead
    · refine Tracks.matching h6 ?_
      rw [header_take_succ h6, ← hbyte]
      exact List.suffix_append_self_iff.mpr hsuffix
    · refine Tracks.matching (by decide) ?_
      have hone : header.take 1 = [byte] := by
        rw [hhead]
        decide +kernel
      rw [hone]
      exact List.suffix_append _ _
    · exact Tracks.matching (by decide) (List.nil_suffix)
  obtain ⟨⟨bytes,expectedLength⟩,since⟩ := s
  have h6 : 6 ≤ bytes.length := h6
  have hroom : bytes.length < 265 := h.room
  have hannounced : expectedLength = if 9 ≤ bytes.length then 10 + (bytes.getD 8 0).toNat else 0 :=
    h.announced
  have hincomplete : expectedLength ≠ 0 → bytes.length < expectedLength := h.incomplete
  rcases Nat.lt_trichotomy bytes.length 8 with h8 | h8 | h8
  · rw [if_neg (by omega)] at hannounced
    subst hannounced
    have h9 : bytes.length ≠ 8 := by omega
    rw [Session.after, feed_collects byte h6 hroom h9 (.inl rfl)]
    refine ⟨h.collected h6 ?_ fun h0 => absurd rfl h0,trivial⟩
    rw [if_neg (by omega)]
  · have hlength : (bytes ++ [byte]).getD 8 0 = byte := by
      rw [List.getD_append_right _ _ _ _ h8.le, h8]
      rfl
    rw [Session.after, feed_announces byte h8]
    refine ⟨h.collected h6 ?_ fun _ => by omega,trivial⟩
    rw [if_pos (by omega), hlength]
  · rw [if_pos (by omega)] at hannounced
    have hlength : (bytes ++ [byte]).getD 8 0 = bytes.getD 8 0 := List.getD_append _ _ _ _ h8
    have hshort := hincomplete (by omega)
    rcases Nat.lt_or_ge (bytes.length + 1) expectedLength with hmore | hlast
    · rw [Session.after, feed_collects byte h6 hroom (by omega) (.inr hmore)]
      refine ⟨h.collected h6 ?_ fun _ => hmore,trivial⟩
      rw [if_pos (by omega), hlength]
      exact hannounced
    · have htotal : (bytes ++ [byte]).length = expectedLength := by
        rw [List.length_append, List.length_singleton]
        omega
      have hcomplete : Complete (bytes ++ [byte]) := by
        refine ⟨?_,by rw [htotal, hlength]; exact hannounced⟩
        have hbegins : bytes.take 6 = header := by
          have hlen : (bytes.take 6).length = header.length := by
            rw [List.length_take, header_length, Nat.min_eq_left h6]
          exact h.begins.eq_of_length hlen
        exact hbegins ▸ .trans ( List.take_prefix 6 bytes) (List.prefix_append _ _)
      rw [Session.after, feed_completes byte (by omega) hroom (by omega)]
      refine ⟨Tracks.matching (Nat.zero_le 6) List.nil_suffix,?_⟩
      rw [← htotal]
      exact hcomplete.sound (List.suffix_append_self_iff.mpr h.suffix)

theorem Tracks.after {s : Session} (h : Tracks s) (event : Event) : Tracks (s.after event) := by
  cases event with
  | fed byte => exact (h.fed byte).1
  | reset => exact .initial

theorem Tracks.run (events : List Event) : Tracks (.run events) := by
  rw [Session.run]
  induction events using List.reverseRecOn with
  | nil => exact .initial
  | append_singleton events event ih =>
    rw [List.foldl_append]
    exact ih.after event

/-- After any octets and resets the buffer has room for one more octet, a frame whose length is
known is not complete, and what the next octet brings is true of the octets up to it. -/
theorem session_sound (events : List Event) :
    (Session.run events).parser.length < improvSerialMaxPacketSize ∧
    ((Session.run events).parser.expectedLength ≠ 0 →
      (Session.run events).parser.length < (Session.run events).parser.expectedLength) ∧
    ∀ byte, Sound ((Session.run events).since ++ [byte])
      (improvSerialParserFeed (Session.run events).parser byte).1 := by
  have h := Tracks.run events
  exact ⟨h.room,h.incomplete,fun byte => (h.fed byte).2⟩

end Espresso.Improv
