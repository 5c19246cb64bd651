import Espresso.Dns.Message

/-! The captive portal's answer to a DNS query: `make_reply` of `dns_server.c`. -/
namespace Espresso.Dns

abbrev dnsTypeA : ℕ := 1

/-- `ntohs` of two octets of the packet. -/
def u16At (packet : Bytes) (i : ℕ) : ℕ := readU16 (packet.getD i 0) (packet.getD (i + 1) 0)

structure DnsHeader where
  id : ℕ
  flags : ℕ
  questions : ℕ
  answers : ℕ
  authority : ℕ
  additional : ℕ

def dnsHeader (packet : Bytes) : DnsHeader :=
  ⟨u16At packet 0,u16At packet 2,u16At packet 4,u16At packet 6,u16At packet 8,u16At packet 10⟩

structure DnsAnswer where
  namePointer : ℕ
  type : ℕ
  classCode : ℕ
  ttl : ℕ
  dataLength : ℕ
  address : UInt32

/-- The packed structure in network order; the address is kept in that order. -/
def DnsAnswer.octets (a : DnsAnswer) : Bytes :=
  u16 a.namePointer ++ (u16 a.type ++ (u16 a.classCode ++ (u32 a.ttl ++
    (u16 a.dataLength ++ u32 a.address.toNat))))

@[simp] theorem DnsAnswer.octets_length (a : DnsAnswer) : a.octets.length = 16 := rfl

/-- The loop over the labels of the question's name. -/
def nameEnd (packet : Bytes) (requestLength cursor : ℕ) : Option ℕ :=
  if cursor < requestLength ∧ packet.getD cursor 0 ≠ 0 then
    let labelLength := (packet.getD cursor 0).toNat
    if 63 < labelLength ∨ requestLength ≤ cursor + labelLength + 1 then none
    else nameEnd packet requestLength (cursor + (labelLength + 1))
  else some cursor
termination_by requestLength - cursor

/-- The replacement of -1 by `none` apart, `make_reply` with the packet it leaves. -/
def makeReply (packet : Bytes) (requestLength capacity : ℕ) (address : UInt32) :
    Option ℕ × Bytes :=
  if requestLength < 12 ∨ capacity < requestLength then (none,packet)
  else
    let header := dnsHeader packet
    if header.questions ≠ 1 ∨ header.flags &&& 0x7800 ≠ 0 then (none,packet)
    else match nameEnd packet requestLength 12 with
    | none => (none,packet)
    | some cursor =>
      if requestLength < cursor + 5 then (none,packet)
      else if u16At packet (cursor + 1) ≠ dnsTypeA then (none,packet)
      else if capacity < requestLength + 16 then (none,packet)
      else
        let answer : DnsAnswer := ⟨0xc00c,dnsTypeA,1,30,4,address⟩
        let packet := writeAt 2 (u16 (header.flags ||| 0x8000 ||| 0x0080)) packet
        let packet := writeAt 6 (u16 1) packet
        (some (requestLength + 16),writeAt requestLength answer.octets packet)

/-! ### When there is a reply, and what it looks like -/

section
variable {packet : Bytes} {requestLength capacity cursor stop : ℕ} {address : UInt32}

/-- The tests that a query must pass to be answered. -/
def Answered (packet : Bytes) (requestLength capacity : ℕ) : Prop :=
  12 ≤ requestLength ∧ requestLength + 16 ≤ capacity ∧ u16At packet 4 = 1 ∧
    u16At packet 2 &&& 0x7800 = 0 ∧ ∃ cursor, nameEnd packet requestLength 12 = some cursor ∧
      cursor + 5 ≤ requestLength ∧ u16At packet (cursor + 1) = dnsTypeA

/-- The packet with the header patched and the record behind what was received. -/
def replied (packet : Bytes) (requestLength : ℕ) (address : UInt32) : Bytes :=
  writeAt requestLength (DnsAnswer.octets ⟨0xc00c,dnsTypeA,1,30,4,address⟩)
    (writeAt 6 (u16 1) (writeAt 2 (u16 (u16At packet 2 ||| 0x8000 ||| 0x0080)) packet))

theorem makeReply_answered (h : Answered packet requestLength capacity) :
    makeReply packet requestLength capacity address =
      (some (requestLength + 16),replied packet requestLength address) := by
  obtain ⟨hheader,hroom,hquestions,hopcode,cursor,hname,hend,htype⟩ := h
  rw [makeReply, if_neg (by omega), if_neg (by simp [dnsHeader, hquestions, hopcode])]
  simp only [hname]
  rw [if_neg (by omega), if_neg (by simpa using htype), if_neg (by omega)]
  rfl

theorem makeReply_refused (h : ¬ Answered packet requestLength capacity) :
    makeReply packet requestLength capacity address = (none,packet) := by
  by_cases hlength : requestLength < 12 ∨ capacity < requestLength
  · rw [makeReply, if_pos hlength]
  rw [makeReply, if_neg hlength]
  by_cases hheader :
      (dnsHeader packet).questions ≠ 1 ∨ (dnsHeader packet).flags &&& 0x7800 ≠ 0
  · simp only [if_pos hheader]
  simp only [if_neg hheader]
  push Not at hheader
  cases hname : nameEnd packet requestLength 12 with
  | none => rfl
  | some cursor =>
    by_cases hend : requestLength < cursor + 5
    · simp only [if_pos hend]
    by_cases htype : u16At packet (cursor + 1) ≠ dnsTypeA
    · simp only [if_neg hend, if_pos htype]
    by_cases hroom : capacity < requestLength + 16
    · simp only [if_neg hend, if_neg htype, if_pos hroom]
    · exact absurd ⟨by omega,by omega,hheader.1,hheader.2,cursor,hname,by omega,
        not_not.mp htype⟩ h

/-- The loop reads a name without pointers. -/
theorem nameEnd_nameAt (h : nameEnd packet requestLength cursor = some stop)
    (hstop : stop < requestLength) (hpacket : requestLength ≤ packet.length) :
    ∃ labels, ∀ message : Bytes,
      (∀ i, cursor ≤ i → i < requestLength → message[i]? = packet[i]?) →
        NameAt message cursor labels (stop + 1) := by
  fun_induction nameEnd packet requestLength cursor with
  | case1 cursor hgo labelLength hbad => cases h
  | case2 cursor hgo labelLength hgood ih =>
    push Not at hgood
    obtain ⟨labels,hlabels⟩ := ih h
    have hlen : (readAt (cursor + 1) labelLength packet).length = labelLength := by
      rw [readAt, List.length_take, List.length_drop]
      omega
    have hpos : 0 < labelLength := Nat.pos_of_ne_zero fun h => hgo.2 (UInt8.toNat_inj.mp h)
    refine ⟨⟨readAt (cursor + 1) labelLength packet,hpos.trans_eq hlen.symm,hlen.trans_le hgood.1⟩ ::
      labels,?_⟩
    intro message hsame
    refine .cons hlen hpos hgood.1 ?_ (hlabels message fun i hi => hsame i (by omega))
    have hhead : UInt8.ofNat labelLength = packet.getD cursor 0 := UInt8.ofNat_toNat
    rw [readAt_congr fun i hi => hsame (cursor + i) (by omega) (by omega), hhead,
      readAt_succ (by omega), List.getD_eq_getElem?_getD, List.getElem?_eq_getElem (by omega)]
    rfl
  | case3 cursor hend =>
    cases h
    have hzero : packet.getD stop 0 = 0 := by
      by_contra hne
      exact hend ⟨hstop,hne⟩
    refine ⟨[],fun message hsame => .root ?_⟩
    rw [readAt_congr fun i hi => hsame (stop + i) (by omega) (by omega), readAt_succ (by omega)]
    rw [List.getD_eq_getElem?_getD, List.getElem?_eq_getElem (by omega)] at hzero
    simpa [readAt] using hzero

/-! ### The octets of the reply -/

theorem readAt_u16At {i : ℕ} (h : i + 2 ≤ packet.length) :
    readAt i 2 packet = u16 (u16At packet i) := by
  rw [u16At, u16_readU16, readAt_succ (by omega), readAt_succ (by omega),
    List.getD_eq_getElem?_getD, List.getD_eq_getElem?_getD, List.getElem?_eq_getElem (by omega),
    List.getElem?_eq_getElem (by omega)]
  simp [readAt]

theorem u16At_lt (i : ℕ) : u16At packet i < 65536 := readU16_lt _ _

theorem u16_inj {a b : ℕ} (ha : a < 65536) (hb : b < 65536) (h : u16 a = u16 b) : a = b := by
  have hvalue := congrArg (fun l => readU16 (l.getD 0 0) (l.getD 1 0)) h
  simpa only [u16, List.getD_cons_zero, List.getD_cons_succ, readU16_u16 _ ha, readU16_u16 _ hb]
    using hvalue

theorem flagged_length (h : 12 ≤ packet.length) (flags : ℕ) :
    (writeAt 2 (u16 flags) packet).length = packet.length :=
  length_writeAt (by rw [u16_length]; omega)

theorem counted_length (h : 12 ≤ packet.length) (flags : ℕ) :
    (writeAt 6 (u16 1) (writeAt 2 (u16 flags) packet)).length = packet.length := by
  rw [length_writeAt, flagged_length h]
  rw [flagged_length h, u16_length]
  omega

theorem getElem?_replied (hheader : 12 ≤ requestLength) (hroom : requestLength + 16 ≤ packet.length)
    (i : ℕ) : (replied packet requestLength address)[i]? =
      if requestLength ≤ i ∧ i < requestLength + 16 then
        (DnsAnswer.octets ⟨0xc00c,dnsTypeA,1,30,4,address⟩)[i - requestLength]?
      else if 6 ≤ i ∧ i < 8 then (u16 1)[i - 6]?
      else if 2 ≤ i ∧ i < 4 then (u16 (u16At packet 2 ||| 0x8000 ||| 0x0080))[i - 2]?
      else packet[i]? := by
  have hlen : 12 ≤ packet.length := by omega
  rw [replied, getElem?_writeAt (by rw [counted_length hlen]; exact hroom),
    getElem?_writeAt (by rw [flagged_length hlen, u16_length]; omega),
    getElem?_writeAt (by rw [u16_length]; omega)]
  rfl

theorem replied_length (hheader : 12 ≤ requestLength)
    (hroom : requestLength + 16 ≤ packet.length) :
    ((replied packet requestLength address).take (requestLength + 16)).length =
      requestLength + 16 := by
  have hlen : 12 ≤ packet.length := by omega
  rw [List.length_take, replied, length_writeAt (by rw [counted_length hlen]; exact hroom),
    counted_length hlen]
  omega

/-- Between the header and its end the query stands as it came. -/
theorem replied_question (hheader : 12 ≤ requestLength)
    (hroom : requestLength + 16 ≤ packet.length) (i : ℕ) (hi : 12 ≤ i) (hlt : i < requestLength) :
    ((replied packet requestLength address).take (requestLength + 16))[i]? = packet[i]? := by
  rw [List.getElem?_take, if_pos (by omega), getElem?_replied hheader hroom, if_neg (by omega),
    if_neg (by omega), if_neg (by omega)]

/-- The record is the last sixteen octets. -/
theorem replied_answer (hheader : 12 ≤ requestLength)
    (hroom : requestLength + 16 ≤ packet.length) :
    readAt requestLength 16 ((replied packet requestLength address).take (requestLength + 16)) =
      DnsAnswer.octets ⟨0xc00c,dnsTypeA,1,30,4,address⟩ := by
  have hlen : 12 ≤ packet.length := by omega
  have hfit : requestLength + (DnsAnswer.octets ⟨0xc00c,dnsTypeA,1,30,4,address⟩).length ≤
      (writeAt 6 (u16 1)
        (writeAt 2 (u16 (u16At packet 2 ||| 0x8000 ||| 0x0080)) packet)).length := by
    rw [counted_length hlen]
    exact hroom
  rw [readAt_take (Nat.le_refl _), replied]
  exact readAt_writeAt_self hfit

theorem replied_header (hheader : 12 ≤ requestLength)
    (hroom : requestLength + 16 ≤ packet.length) :
    readAt 0 12 ((replied packet requestLength address).take (requestLength + 16)) =
      u16 (u16At packet 0) ++ (u16 (u16At packet 2 ||| 0x8000 ||| 0x0080) ++
        (u16 (u16At packet 4) ++ (u16 1 ++ (u16 (u16At packet 8) ++ u16 (u16At packet 10))))) := by
  have hlen : 12 ≤ packet.length := by omega
  have hkeep : ∀ i, i + 2 ≤ 12 → (i + 2 ≤ 2 ∨ 4 ≤ i) → (i + 2 ≤ 6 ∨ 8 ≤ i) →
      readAt i 2 (replied packet requestLength address) = u16 (u16At packet i) := by
    intro i hi hflags hcount
    rw [← readAt_u16At (by omega)]
    apply readAt_congr
    intro j hj
    rw [getElem?_replied hheader hroom, if_neg (by omega), if_neg (by omega), if_neg (by omega)]
  have hflags : readAt 2 2 (replied packet requestLength address) =
      u16 (u16At packet 2 ||| 0x8000 ||| 0x0080) := by
    apply List.ext_getElem?
    intro j
    rw [getElem?_readAt]
    split
    · rw [getElem?_replied hheader hroom, if_neg (by omega), if_neg (by omega), if_pos (by omega)]
      congr 1
      omega
    · exact (List.getElem?_eq_none (by rw [u16_length]; omega)).symm
  have hcount : readAt 6 2 (replied packet requestLength address) = u16 1 := by
    apply List.ext_getElem?
    intro j
    rw [getElem?_readAt]
    split
    · rw [getElem?_replied hheader hroom, if_neg (by omega), if_pos (by omega)]
      congr 1
      omega
    · exact (List.getElem?_eq_none (by rw [u16_length]; omega)).symm
  rw [readAt_take (by omega), readAt_add (n := 10) 2]
  rw [readAt_add (n := 8) 2, readAt_add (n := 6) 2, readAt_add (n := 4) 2, readAt_add (n := 2) 2,
    hflags, hcount, hkeep 0 (by omega) (by omega) (by omega), hkeep 4 (by omega) (by omega) (by omega),
    hkeep 8 (by omega) (by omega) (by omega), hkeep 10 (by omega) (by omega) (by omega)]

/-- The address reaches only the last four octets. -/
theorem replied_address (hheader : 12 ≤ requestLength)
    (hroom : requestLength + 16 ≤ packet.length) (address' : UInt32) {i : ℕ}
    (hi : i < requestLength + 12) :
    ((replied packet requestLength address).take (requestLength + 16))[i]? =
      ((replied packet requestLength address').take (requestLength + 16))[i]? := by
  simp only [List.getElem?_take, getElem?_replied hheader hroom]
  split
  · split
    · have hlt : i - requestLength < 12 := by omega
      generalize i - requestLength = k at hlt
      simp only [DnsAnswer.octets, ← List.append_assoc]
      exact (List.getElem?_append_left hlt).trans (List.getElem?_append_left hlt).symm
    · rfl
  · rfl

end

/-! ### What a reply must be -/

/-- The reply is a message that answers the query: it has its id, the response bit and its question,
and where the answers begin stands the one address record, for the name of the question. -/
def Answers (request reply : Bytes) (address : UInt32) : Prop :=
  ∃ (m : Message) (q : Question) (a : Record) (stop : ℕ), m.Encoded reply ∧
    readAt 0 2 reply = readAt 0 2 request ∧ m.flags &&& 0x8000 ≠ 0 ∧
    m.questions = [q] ∧ QuestionAt request 12 q stop ∧ QuestionAt reply 12 q stop ∧
    m.answers = [a] ∧ readAt stop 2 reply = u16 0xc00c ∧ a.type.toNat = dnsTypeA ∧
    a.classCode = 1 ∧ a.data = u32 address.toNat

/-- A packet is answered within the capacity and with a proper reply, or left as it was. -/
def RepliesOrLeaves (packet : Bytes) (requestLength capacity : ℕ) (address : UInt32) : Prop :=
  match makeReply packet requestLength capacity address with
  | (none,packet') => packet' = packet
  | (some n,packet') => n ≤ capacity ∧ Answers (packet.take requestLength) (packet'.take n) address

/-- The query is over with its question and announces nothing behind it. -/
def EndsWithQuestion (request : Bytes) : Prop :=
  (∃ q, QuestionAt request 12 q request.length) ∧ u16At request 8 = 0 ∧ u16At request 10 = 0

section
variable {packet : Bytes} {requestLength capacity : ℕ} {address : UInt32}

theorem length_request (hroom : requestLength + 16 ≤ packet.length) :
    (packet.take requestLength).length = requestLength := by
  rw [List.length_take]
  omega

theorem u16At_request (hheader : 12 ≤ requestLength) (hroom : requestLength + 16 ≤ packet.length)
    {i : ℕ} (hi : i + 2 ≤ 12) : u16At (packet.take requestLength) i = u16At packet i := by
  apply u16_inj (u16At_lt _) (u16At_lt _)
  rw [← readAt_u16At (by rw [length_request hroom]; omega), ← readAt_u16At (by omega),
    readAt_take (by omega)]

/-- A proper reply has nothing before the record: what the query carries behind its question would
stand where the address is read. -/
theorem stop_of_answers (hheader : 12 ≤ requestLength) (hroom : requestLength + 16 ≤ packet.length)
    (h : ∀ address, Answers (packet.take requestLength)
      ((replied packet requestLength address).take (requestLength + 16)) address) :
    EndsWithQuestion (packet.take requestLength) := by
  obtain ⟨m,q,a,stop,hm,-,-,hquestions,hq,hreply,hanswers,hpointer,-,-,hdata⟩ := h 0
  obtain ⟨m',q',a',stop',hm',-,-,hquestions',hq',hreply',hanswers',hpointer',-,-,hdata'⟩ :=
    h 0x01000000
  obtain ⟨-,rfl⟩ := hq.unique hq'
  have hle : stop ≤ requestLength := hq.le_length.trans_eq (length_request hroom)
  -- the records that were parsed as answers
  obtain ⟨i,j,k,hqs,has,hauthority,hadditional⟩ := hm.sections
  obtain ⟨i',j',k',hqs',has',-,-⟩ := hm'.sections
  rw [hquestions] at hqs
  rw [hquestions'] at hqs'
  rw [hanswers] at has
  rw [hanswers'] at has'
  obtain ⟨_,hqi,rfl⟩ := hqs
  obtain ⟨_,hqi',rfl⟩ := hqs'
  obtain ⟨_,haj,rfl⟩ := has
  obtain ⟨_,haj',rfl⟩ := has'
  obtain ⟨-,rfl⟩ := hreply.unique hqi
  obtain ⟨-,rfl⟩ := hreply'.unique hqi'
  obtain ⟨hread,hstop⟩ := haj.of_pointer (show 12 < 0x4000 by decide) hpointer
  obtain ⟨hread',-⟩ := haj'.of_pointer (show 12 < 0x4000 by decide) hpointer'
  rw [hdata] at hread hstop
  rw [hdata'] at hread'
  have hend : stop = requestLength := by
    by_contra hne
    have hsame := @replied_address packet requestLength 0 hheader hroom 0x01000000 (stop + 12)
      (by omega)
    have hzero := readAt_head (by decide) hread
    have hone := readAt_head (by decide) hread'
    rw [hsame] at hzero
    have hcontra := hzero.symm.trans hone
    cases hcontra
  subst hend
  -- the sections behind it have no room
  have hle := records_le hauthority
  have hle' := records_le hadditional
  rw [replied_length hheader hroom] at hle'
  rw [u32_length] at hstop
  have hauthority : m.authority.length = 0 := by omega
  have hadditional : m.additional.length = 0 := by omega
  have hheaders := hm.header
  rw [replied_header hheader hroom, hauthority, hadditional] at hheaders
  have hzero : u16At packet 8 = 0 := u16_inj (u16At_lt _) (by decide)
    (congrArg (readAt 8 2) hheaders)
  have hzero' : u16At packet 10 = 0 := u16_inj (u16At_lt _) (by decide)
    (congrArg (readAt 10 2) hheaders)
  refine ⟨⟨q,?_⟩,?_,?_⟩
  · rw [length_request hroom]
    exact hq
  · rw [u16At_request hheader hroom (by decide), hzero]
  · rw [u16At_request hheader hroom (by decide), hzero']

theorem replied_id (hheader : 12 ≤ requestLength) (hroom : requestLength + 16 ≤ packet.length) :
    readAt 0 2 ((replied packet requestLength address).take (requestLength + 16)) =
      readAt 0 2 (packet.take requestLength) := by
  have h := congrArg (readAt 0 2) (@replied_header packet requestLength address hheader hroom)
  rw [readAt_readAt (by decide)] at h
  rw [readAt_take (n := requestLength) (by omega)]
  exact h.trans (readAt_u16At (show 0 + 2 ≤ packet.length by omega)).symm

theorem response_bit (flags : ℕ) (h : flags < 65536) :
    UInt16.ofNat (flags ||| 0x8000 ||| 0x0080) &&& 0x8000 ≠ 0 := by
  intro hzero
  have hbit := congrArg (fun f => f.toNat.testBit 15) hzero
  have hflags : flags ||| 0x8000 ||| 0x0080 < 65536 :=
    Nat.or_lt_two_pow (n := 16) (Nat.or_lt_two_pow h (by decide)) (by decide)
  have hset : Nat.testBit 0x8000 15 = true := by decide
  simp only [UInt16.toNat_and, UInt16.toNat_ofNat', Nat.mod_eq_of_lt hflags] at hbit
  simp [hset, Nat.testBit_and, Nat.testBit_or] at hbit

/-- The reply to a query that ends with its question. -/
theorem answers_of_endsWithQuestion (h : Answered packet requestLength capacity)
    (hcapacity : capacity ≤ packet.length)
    (hends : EndsWithQuestion (packet.take requestLength)) :
    Answers (packet.take requestLength)
      ((replied packet requestLength address).take (requestLength + 16)) address := by
  obtain ⟨hheader,hfit,hquestions,-,cursor,hname,hend,htype⟩ := h
  have hroom : requestLength + 16 ≤ packet.length := by omega
  obtain ⟨⟨q,hq⟩,hauthority,hadditional⟩ := hends
  rw [u16At_request hheader hroom (by decide)] at hauthority hadditional
  rw [length_request hroom] at hq
  -- the question stands in the reply as in the query
  obtain ⟨labels,hlabels⟩ := nameEnd_nameAt hname (by omega) (by omega)
  have hreply := hlabels ((replied packet requestLength address).take (requestLength + 16))
    (replied_question hheader hroom)
  have hrequest := hlabels (packet.take requestLength) fun i _ hi => by
    rw [List.getElem?_take, if_pos hi]
  obtain ⟨i,hqname,hsize,hfields,hstop⟩ := hq
  obtain ⟨rfl,rfl⟩ := hrequest.unique hqname
  have hqreply : QuestionAt ((replied packet requestLength address).take (requestLength + 16)) 12 q
      requestLength := by
    refine ⟨cursor + 1,hreply,hsize,?_,hstop⟩
    rw [← hfields]
    apply readAt_congr
    intro k hk
    rw [replied_question hheader hroom _ (by have := hqname.lt; omega) (by omega),
      List.getElem?_take, if_pos (by omega)]
  -- the record
  have hlast : ∀ start n, start + n ≤ 16 →
      readAt (requestLength + start) n
        ((replied packet requestLength address).take (requestLength + 16)) =
      readAt start n (DnsAnswer.octets ⟨0xc00c,dnsTypeA,1,30,4,address⟩) := by
    intro start n hle
    rw [← replied_answer hheader hroom, readAt_readAt hle]
  have hpointer := hlast 0 2 (by decide)
  have hrecord : RecordAt ((replied packet requestLength address).take (requestLength + 16))
      requestLength ⟨q.labels,1,1,30,u32 address.toNat⟩ (requestLength + 16) := by
    refine ⟨requestLength + 2,?_,hsize,show 4 < 65536 by decide,hlast 2 10 (by decide),
      hlast 12 4 (by decide),rfl⟩
    exact .pointer (show 12 < 0x4000 by decide) hpointer (by have := hqname.lt; omega) hreply
  have hflags : u16At packet 2 ||| 0x8000 ||| 0x0080 < 65536 :=
    Nat.or_lt_two_pow (n := 16) (Nat.or_lt_two_pow (u16At_lt 2) (by decide)) (by decide)
  refine ⟨⟨.ofNat (u16At packet 0),.ofNat (u16At packet 2 ||| 0x8000 ||| 0x0080),[q],
    [⟨q.labels,1,1,30,u32 address.toNat⟩],[],[]⟩,q,_,requestLength,?_,?_,?_,rfl,
    ⟨cursor + 1,hqname,hsize,hfields,hstop⟩,hqreply,rfl,hpointer,rfl,rfl,rfl⟩
  · refine ⟨?_,⟨Nat.one_lt_succ_succ _,Nat.one_lt_succ_succ _,Nat.succ_pos _,Nat.succ_pos _⟩,
      requestLength,requestLength + 16,requestLength + 16,⟨_,hqreply,rfl⟩,⟨_,hrecord,rfl⟩,rfl,
      (replied_length hheader hroom).symm⟩
    rw [replied_header hheader hroom, hquestions, hauthority, hadditional]
    simp only [UInt16.toNat_ofNat', Nat.mod_eq_of_lt (u16At_lt 0), Nat.mod_eq_of_lt hflags]
    rfl
  · exact replied_id hheader hroom
  · exact response_bit _ (u16At_lt 2)

/-- Every packet is answered properly, whatever the address, or left as it was, except a query that
passes the tests although something follows its question or is announced to: the record is put
behind that, and the counts of the query stay. -/
theorem makeReply_repliesOrLeaves_iff (hcapacity : capacity ≤ packet.length) :
    (∀ address, RepliesOrLeaves packet requestLength capacity address) ↔
      (Answered packet requestLength capacity →
        EndsWithQuestion (packet.take requestLength)) := by
  constructor
  · intro h hanswered
    refine stop_of_answers hanswered.1 (hanswered.2.1.trans hcapacity) fun address => ?_
    have haddress := h address
    rw [RepliesOrLeaves, makeReply_answered hanswered] at haddress
    exact haddress.2
  · intro h address
    by_cases hanswered : Answered packet requestLength capacity
    · rw [RepliesOrLeaves, makeReply_answered hanswered]
      exact ⟨hanswered.2.1,answers_of_endsWithQuestion hanswered hcapacity (h hanswered)⟩
    · rw [RepliesOrLeaves, makeReply_refused hanswered]

end

/-- A query for the address of `a`, with or without a record behind the question. -/
def exampleQuery (additional : UInt8) (record : Bytes) : Bytes :=
  [0x12,0x34,0x01,0x00,0,1,0,0,0,0,0,additional,0x01,0x61,0,0,1,0,1] ++ record ++
    List.replicate (493 - record.length) 0

theorem exampleQuery_replied : 512 ≤ (exampleQuery 0 []).length ∧
    RepliesOrLeaves (exampleQuery 0 []) 19 512 0xc0a80401 := by
  refine ⟨by decide +kernel,
    (makeReply_repliesOrLeaves_iff (by decide +kernel)).mpr (fun _ => ⟨⟨⟨[⟨[0x61],by decide,by decide⟩],
      1,1⟩,15,?_,by decide,by decide +kernel,by decide +kernel⟩,by decide +kernel,by decide +kernel⟩) _⟩
  exact .label (by decide +kernel) (.root (by decide +kernel))

/-- With the OPT record of a resolver the answer is looked for where that record stands. -/
theorem exampleQuery_opt :
    ¬ RepliesOrLeaves (exampleQuery 1 [0,0,0x29,0x10,0,0,0,0,0,0,0]) 30 512 0xc0a80401 := by
  have hanswered : Answered (exampleQuery 1 [0,0,0x29,0x10,0,0,0,0,0,0,0]) 30 512 :=
    ⟨by decide,by decide,by decide +kernel,by decide +kernel,14,by decide +kernel,by decide,
      by decide +kernel⟩
  intro h
  rw [RepliesOrLeaves, makeReply_answered hanswered] at h
  obtain ⟨-,m,q,a,stop,-,-,-,-,⟨i,hname,-,-,rfl⟩,-,-,hpointer,-⟩ := h
  have hshort : NameAt ((exampleQuery 1 [0,0,0x29,0x10,0,0,0,0,0,0,0]).take 30) 12
      [⟨[0x61],by decide,by decide⟩] 15 :=
    .label (by decide +kernel) (.root (by decide +kernel))
  obtain ⟨-,rfl⟩ := hshort.unique hname
  exact absurd hpointer (by decide +kernel)

end Espresso.Dns
