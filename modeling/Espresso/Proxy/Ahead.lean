import Espresso.Proxy.Delivery

/-! Which complete bodies `proxy_handler` gets as far as its relay policy with: how much it reads
ahead does not depend on how the body arrives, but for one length. -/
namespace Espresso.Proxy
open Callback Codec Http

/-! ### Beginnings of a body -/

section
variable {p q : Bytes} {e : Envelope}

/-- The octets that have a verdict, and the part of the document among them. -/
theorem decode_beginning (h : decode (p ++ q) = .ok e) (hp : e.attributesLength ≤ p.length) :
    decode p = .ok (e.withDocument (p.drop e.attributesLength)) := by
  rw [decode_eq_ok_iff] at h ⊢
  have htake : p.take e.attributesLength = e.attributes := by
    rw [← e.take_encode, h, List.take_append_of_le_length hp]
  change e.attributes ++ p.drop e.attributesLength = p
  rw [← htake, List.take_append_drop]

theorem attributesLength_le_of_decode (h : decode p = .ok e) : e.attributesLength ≤ p.length := by
  rw [decode_eq_ok_iff] at h
  rw [← h]
  exact (congrArg List.length e.take_encode).ge.trans (List.length_take_le' _ _)

end

/-! ### The buffer -/

section
variable {κ : Type} {receive : ReadFn κ} {mem : Memory} {R : κ → Bytes → Prop} {E : κ → Prop}
  {s s' : Intake κ} {rest : Bytes}

/-- The buffer fits its block of memory. -/
structure Intake.Fits (s : Intake κ) : Prop where
  capacity : s.buffer.length ≤ s.capacity
  most : s.capacity ≤ requestPrefixMax

theorem Intake.fits_start (c : κ) : (⟨c,[],0⟩ : Intake κ).Fits := ⟨le_rfl,Nat.zero_le _⟩

/-- There is always room for another octet, short of the limit. -/
theorem Intake.Fits.wanted (h : s.Fits) (hroom : s.buffer.length < requestPrefixMax) :
    s.buffer.length < s.wanted ∧ s.wanted ≤ requestPrefixMax := by
  obtain ⟨hcapacity,hmost⟩ := h
  change s.buffer.length < min (if s.capacity = 0 then 4096 else s.capacity * 2) 65536 ∧
    min (if s.capacity = 0 then 4096 else s.capacity * 2) 65536 ≤ 65536
  change s.buffer.length < 65536 at hroom
  split <;> omega

theorem Memory.granted (hmem : ¬ mem.Refuses) (n : ℕ) : mem n = true := by
  by_contra hn
  exact hmem ⟨n,Bool.eq_false_iff.mpr hn⟩

/-- A turn that ends with the body, or takes more of it. -/
theorem receiveMore_supplied (hreceive : Supplies receive R intMax) (hmem : ¬ mem.Refuses)
    (hs : R s.connection rest) (hfits : s.Fits) (hroom : s.buffer.length < requestPrefixMax) :
    (rest = [] ∧ ∃ s', receiveMore receive mem s = (.error .notFinished,s') ∧
      s'.buffer = s.buffer ∧ R s'.connection []) ∨
    ∃ d rest' s', d ≠ [] ∧ rest = d ++ rest' ∧ receiveMore receive mem s = (.ok (),s') ∧
      s'.buffer = s.buffer ++ d ∧ R s'.connection rest' ∧ s'.Fits := by
  obtain ⟨hwanted,hmost⟩ := hfits.wanted hroom
  have hint : (requestPrefixMax : ℕ) ≤ intMax := by decide
  obtain ⟨d,rest',c,hread,hsplit,hc,hle,hend⟩ :=
    hreceive s.connection rest (s.wanted - s.buffer.length) hs (by omega) (by omega)
  have hstep : receiveMore receive mem s =
      if d = [] then (.error .notFinished,{ s with connection := c, capacity := s.wanted })
      else (.ok (),⟨c,s.buffer ++ d,s.wanted⟩) := by
    unfold receiveMore
    rw [if_neg (not_le.mpr hroom), if_neg (not_le.mpr hwanted), Memory.granted hmem]
    simp only [Bool.not_true, Bool.false_eq_true, if_false, hread]
    cases d <;> rfl
  cases d with
  | nil =>
    obtain rfl := hend rfl
    obtain rfl : rest' = [] := hsplit.symm
    exact .inl ⟨rfl,_,hstep,rfl,hc⟩
  | cons x d =>
    rw [if_neg (List.cons_ne_nil x d)] at hstep
    refine .inr ⟨x :: d,rest',_,List.cons_ne_nil _ _,hsplit,hstep,rfl,hc,?_,hmost⟩
    change (s.buffer ++ x :: d).length ≤ s.wanted
    rw [List.length_append]
    omega

theorem receiveMore_full (hfull : requestPrefixMax ≤ s.buffer.length) :
    receiveMore receive mem s = (.error .noMem,s) := by
  unfold receiveMore
  rw [if_pos hfull]

/-! ### Attributes -/

/-- The attributes of a body are received if they fit the buffer. -/
theorem receiveEnvelope_supplied (hreceive : Supplies receive R intMax) (hmem : ¬ mem.Refuses)
    {e : Envelope} (he : decode (s.buffer ++ rest) = .ok e) (hs : R s.connection rest)
    (hfits : s.Fits) (hshort : s.buffer.length < e.attributesLength)
    (hlimit : e.attributesLength ≤ requestPrefixMax) :
    ∃ s' rest', receiveEnvelope receive mem s =
        (.ok (.ok (e.withDocument (s'.buffer.drop e.attributesLength)).inspect),s') ∧
      s.buffer ++ rest = s'.buffer ++ rest' ∧ R s'.connection rest' ∧ s'.Fits ∧
      e.attributesLength ≤ s'.buffer.length := by
  induction hmissing : requestPrefixMax - s.buffer.length using Nat.strong_induction_on
    generalizing s rest with
  | _ missing ih =>
    have hroom : s.buffer.length < requestPrefixMax := by omega
    rcases receiveMore_supplied hreceive hmem hs hfits hroom with
      ⟨rfl,-⟩ | ⟨d,rest1,s1,hne,rfl,hmore,hbuffer,hs1,hfits1⟩
    · -- the body does not end inside its attributes
      rw [List.append_nil] at he
      have hle := attributesLength_le_of_decode he
      omega
    have hpos := List.length_pos_of_ne_nil hne
    have hlength : s1.buffer.length = s.buffer.length + d.length := by
      rw [hbuffer, List.length_append]
    rw [← List.append_assoc, ← hbuffer] at he ⊢
    rw [receiveEnvelope, hmore]
    by_cases hless : s1.buffer.length < e.attributesLength
    · have hshort := decode_prefix he hless
      have hincomplete := inspect_error_iff.mpr hshort
      simp only [hincomplete]
      exact ih _ (by omega) he hs1 hfits1 hless rfl
    · have hbeginning := decode_beginning he (not_lt.mp hless)
      have hok := inspect_ok_iff.mpr ⟨_,hbeginning,rfl⟩
      simp only [hok]
      exact ⟨s1,rest1,rfl,rfl,hs1,hfits1,not_lt.mp hless⟩

/-! ### What follows them -/

/-- A body is drained if it ends short of the limit: its end is one more read. -/
theorem drainBody_supplied (hreceive : Supplies receive R intMax) (hmem : ¬ mem.Refuses)
    (hs : R s.connection rest) (hfits : s.Fits)
    (hshort : s.buffer.length + rest.length < requestPrefixMax) :
    ∃ s', drainBody receive mem s = (.ok (),s') ∧ s'.buffer = s.buffer ++ rest ∧
      R s'.connection [] := by
  induction hmissing : rest.length using Nat.strong_induction_on generalizing s rest with
  | _ missing ih =>
    rcases receiveMore_supplied hreceive hmem hs hfits (by omega) with
      ⟨rfl,s1,hmore,hbuffer,hs1⟩ | ⟨d,rest1,s1,hne,rfl,hmore,hbuffer,hs1,hfits1⟩
    · rw [drainBody, hmore]
      exact ⟨s1,rfl,by rw [hbuffer, List.append_nil],hs1⟩
    · have hpos := List.length_pos_of_ne_nil hne
      rw [List.length_append] at hshort hmissing
      have hlength : s1.buffer.length = s.buffer.length + d.length := by
        rw [hbuffer, List.length_append]
      obtain ⟨s2,hdrain,hall,hs2⟩ := ih rest1.length (by omega) hs1 hfits1 (by omega) rfl
      rw [drainBody, hmore]
      exact ⟨s2,hdrain,by rw [hall, hbuffer, List.append_assoc],hs2⟩

/-- A body that fills the buffer is not drained, even if it ends there. -/
theorem drainBody_full (hreceive : Supplies receive R intMax)
    (hmem : ¬ mem.Refuses) (hs : R s.connection rest) (hfits : s.Fits)
    (hlong : requestPrefixMax ≤ s.buffer.length + rest.length) :
    ∃ s', drainBody receive mem s = (.error .noMem,s') := by
  induction hmissing : rest.length using Nat.strong_induction_on generalizing s rest with
  | _ missing ih =>
    by_cases hfull : requestPrefixMax ≤ s.buffer.length
    · rw [drainBody, receiveMore_full hfull]
      exact ⟨s,rfl⟩
    rcases receiveMore_supplied hreceive hmem hs hfits (not_le.mp hfull) with
      ⟨rfl,-⟩ | ⟨d,rest1,s1,hne,rfl,hmore,hbuffer,hs1,hfits1⟩
    · rw [List.length_nil] at hlong
      omega
    · have hpos := List.length_pos_of_ne_nil hne
      rw [List.length_append] at hlong hmissing
      have hlength : s1.buffer.length = s.buffer.length + d.length := by
        rw [hbuffer, List.length_append]
      obtain ⟨s2,hdrain⟩ := ih rest1.length (by omega) hs1 hfits1 (by omega) rfl
      rw [drainBody, hmore]
      exact ⟨s2,hdrain⟩

/-- What has been received of a body when its request is looked at. -/
structure ReadAhead (R : κ → Bytes → Prop) (chunked : Bool) (e : Envelope) (body : Bytes)
    (info : RequestInfo) (s : Intake κ) : Prop where
  info_eq : ∃ document, info = (e.withDocument document).inspect
  attributes : e.attributesLength ≤ s.buffer.length
  rest : ∃ rest, body = s.buffer ++ rest ∧ R s.connection rest
  /-- All of it, if nothing but the attributes is expected. -/
  drained : chunked = true → isDocumentOperation e.inspect.operationId = false → s.buffer = body
  /-- Some of the document, if there has to be one. -/
  peeked : chunked = true → e.inspect.operationId = Operation.printJob →
    (s.buffer.length = e.attributesLength ↔ body.length = e.attributesLength)

/-- The chunked bodies whose end does not fit the buffer: where the end has to be seen. -/
def EndsBeyond (e : Envelope) (body : Bytes) : Prop :=
  isDocumentOperation e.inspect.operationId = false ∧ requestPrefixMax ≤ body.length ∨
    e.inspect.operationId = Operation.printJob ∧ e.attributesLength = requestPrefixMax

instance (e : Envelope) (body : Bytes) : Decidable (EndsBeyond e body) := by
  unfold EndsBeyond; infer_instance

theorem withDocument_operationId (e : Envelope) (document : Bytes) :
    (e.withDocument document).inspect.operationId = e.inspect.operationId := rfl

theorem withDocument_attributesLength (e : Envelope) (document : Bytes) :
    (e.withDocument document).inspect.attributesLength = e.attributesLength := rfl

/-- The attributes fit the buffer, and what follows them is as far as it has to be received. -/
theorem readMore_supplied (hreceive : Supplies receive R intMax) (hmem : ¬ mem.Refuses)
    {chunked : Bool} {e : Envelope} (hs : R s.connection rest) (hfits : s.Fits)
    (hattributes : e.attributesLength ≤ s.buffer.length) {document : Bytes}
    (hends : chunked = true → ¬ EndsBeyond e (s.buffer ++ rest)) :
    ∃ s', readMore receive mem chunked (e.withDocument document).inspect s = (.ok (),s') ∧
      ReadAhead R chunked e (s.buffer ++ rest) (e.withDocument document).inspect s' := by
  unfold readMore
  rw [withDocument_operationId, withDocument_attributesLength]
  by_cases hdrain : (chunked && !isDocumentOperation e.inspect.operationId) = true
  · rw [if_pos hdrain]
    obtain ⟨hchunked,hother⟩ := Bool.and_eq_true_iff.mp hdrain
    rw [Bool.not_eq_true'] at hother
    have hshort : (s.buffer ++ rest).length < requestPrefixMax := by
      by_contra hlong
      exact hends hchunked (.inl ⟨hother,not_lt.mp hlong⟩)
    rw [List.length_append] at hshort
    obtain ⟨s',hrun,hall,hs'⟩ := drainBody_supplied hreceive hmem hs hfits hshort
    refine ⟨s',hrun,⟨document,rfl⟩,?_,⟨[],by rw [hall, List.append_nil],hs'⟩,fun _ _ => hall,?_⟩
    · rw [hall, List.length_append]
      omega
    · rw [hall]
      exact fun _ _ => Iff.rfl
  rw [if_neg hdrain]
  have hdocument : chunked = true → isDocumentOperation e.inspect.operationId = false → False :=
    fun hchunked hother => hdrain (by rw [hchunked, hother]; rfl)
  by_cases hpeek : (chunked && decide (e.inspect.operationId = Operation.printJob) &&
      decide (s.buffer.length = e.attributesLength)) = true
  · rw [if_pos hpeek]
    simp only [Bool.and_eq_true, decide_eq_true_eq] at hpeek
    obtain ⟨⟨hchunked,hprint⟩,hall⟩ := hpeek
    have hroom : s.buffer.length < requestPrefixMax := by
      have hcapacity := hfits.capacity.trans hfits.most
      refine lt_of_le_of_ne hcapacity fun hfull => hends hchunked (.inr ⟨hprint,?_⟩)
      rw [← hall, hfull]
    unfold peekDocument
    rcases receiveMore_supplied hreceive hmem hs hfits hroom with
      ⟨rfl,s',hmore,hbuffer,hs'⟩ | ⟨d,rest',s',hne,rfl,hmore,hbuffer,hs',-⟩
    · rw [hmore]
      refine ⟨s',rfl,⟨document,rfl⟩,by rw [hbuffer]; exact hattributes,⟨[],by rw [hbuffer],hs'⟩,
        fun h1 h2 => (hdocument h1 h2).elim,?_⟩
      rw [hbuffer, List.append_nil]
      exact fun _ _ => Iff.rfl
    · rw [hmore]
      have hpos := List.length_pos_of_ne_nil hne
      refine ⟨s',rfl,⟨document,rfl⟩,?_,⟨rest',by rw [hbuffer, List.append_assoc],hs'⟩,
        fun h1 h2 => (hdocument h1 h2).elim,fun _ _ => ?_⟩
      · rw [hbuffer, List.length_append]
        omega
      · rw [hbuffer]
        simp only [List.length_append]
        omega
  · rw [if_neg hpeek]
    refine ⟨s,rfl,⟨document,rfl⟩,hattributes,⟨rest,rfl,hs⟩,
      fun h1 h2 => (hdocument h1 h2).elim,fun hchunked hprint => ?_⟩
    -- some of the document is there already
    have hmore : s.buffer.length ≠ e.attributesLength := by
      intro hall
      exact hpeek (by rw [hchunked, hprint, hall]; simp)
    rw [List.length_append]
    omega

/-- A chunked body that ends beyond the buffer is refused. -/
theorem readMore_endsBeyond (hreceive : Supplies receive R intMax) (hmem : ¬ mem.Refuses)
    {e : Envelope} (hs : R s.connection rest) (hfits : s.Fits)
    (hattributes : e.attributesLength ≤ s.buffer.length) {document : Bytes}
    (hends : EndsBeyond e (s.buffer ++ rest)) :
    ∃ s', readMore receive mem true (e.withDocument document).inspect s =
      (.error .noMem,s') := by
  unfold readMore
  rw [withDocument_operationId, withDocument_attributesLength]
  rcases hends with ⟨hother,hlong⟩ | ⟨hprint,hfull⟩
  · rw [hother]
    rw [List.length_append] at hlong
    exact drainBody_full hreceive hmem hs hfits hlong
  · have hdocument : isDocumentOperation e.inspect.operationId = true := by
      rw [hprint]
      rfl
    have hcapacity := hfits.capacity.trans hfits.most
    have hall : s.buffer.length = e.attributesLength := by omega
    rw [hdocument, hprint, hall]
    refine ⟨s,?_⟩
    simp only [Bool.not_true, Bool.and_false, Bool.false_eq_true, if_false, decide_true,
      Bool.and_self, if_true]
    unfold peekDocument
    rw [receiveMore_full (by omega)]

/-- Reading ahead succeeds with the bodies whose attributes fit the buffer, but for the chunked ones
that end beyond it. -/
theorem readAhead_exact (hreceive : Supplies receive R intMax) (hmem : ¬ mem.Refuses)
    (chunked : Bool) {e : Envelope} {c : κ} {body : Bytes} (hc : R c body)
    (he : decode body = .ok e) (hlimit : e.attributesLength ≤ requestPrefixMax) :
    if chunked = true ∧ EndsBeyond e body then
      ∃ reply s', readAhead receive mem chunked ⟨c,[],0⟩ = (.error reply,s')
    else ∃ info s', readAhead receive mem chunked ⟨c,[],0⟩ = (.ok info,s') ∧
      ReadAhead R chunked e body info s' := by
  have hpos : 0 < e.attributesLength := by
    rw [e.attributesLength_eq]
    omega
  obtain ⟨s,rest,hrun,hsplit,hs,hfits,hattributes⟩ := receiveEnvelope_supplied
    (s := ⟨c,[],0⟩) hreceive hmem he hc (Intake.fits_start c) hpos hlimit
  rw [List.nil_append] at hsplit
  unfold readAhead
  rw [hrun, hsplit]
  split
  · rename_i hends
    obtain ⟨rfl,hends⟩ := hends
    obtain ⟨s',hmore⟩ := readMore_endsBeyond hreceive hmem hs hfits hattributes hends
    simp only
    rw [hmore]
    exact ⟨_,s',rfl⟩
  · rename_i hends
    obtain ⟨s',hmore,hahead⟩ := readMore_supplied hreceive hmem hs hfits hattributes
      fun hchunked hbeyond => hends ⟨hchunked,hbeyond⟩
    simp only
    rw [hmore]
    exact ⟨_,s',rfl,hahead⟩

end

end Espresso.Proxy
