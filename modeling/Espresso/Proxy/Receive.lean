import Espresso.Codec.Agreement
import Espresso.Http.Chunk

/-! How `ipp_proxy.c` takes in the body of a client request: the buffer that grows until the
attributes are complete. -/
namespace Espresso.Proxy

open Callback Codec Http

abbrev requestPrefixMax : ℕ := 65536
abbrev streamChunk : ℕ := 4096
abbrev intMax : ℕ := 2147483647

inductive ReceiveError
  | noMem
  | invalidSize
  | notFinished
  | fail
  deriving DecidableEq, Repr

/-- `receive_request`: the end of the body is a read of no octets, every error a negative result. -/
def receiveRequest {σ : Type} (read : ReadFn σ) : ReadFn (Request × σ) := fun c n =>
  match ippHttpRequestRead read n c with
  | (.ok none,c) => (some [],c)
  | (.ok (some d),c) => (if d.length ≤ intMax then some d else none,c)
  | (_,c) => (none,c)

/-- The buffer with what has been received, and the connection it comes from. -/
structure Intake (κ : Type) where
  connection : κ
  buffer : Bytes
  capacity : ℕ

/-- The capacity that the buffer is given before the next read. -/
def Intake.wanted {κ : Type} (s : Intake κ) : ℕ :=
  min (if s.capacity = 0 then streamChunk else s.capacity * 2) requestPrefixMax

section
variable {κ : Type} (receive : ReadFn κ) (mem : Memory)

def receiveMore : Run (Intake κ) ReceiveError Unit := fun s =>
  if requestPrefixMax ≤ s.buffer.length then (.error .noMem,s)
  else if s.wanted ≤ s.buffer.length then (.error .invalidSize,s)
  else if !mem s.wanted then (.error .noMem,s)
  else
    match receive s.connection (s.wanted - s.buffer.length) with
    | (none,c) => (.error .fail,{ s with connection := c, capacity := s.wanted })
    | (some [],c) => (.error .notFinished,{ s with connection := c, capacity := s.wanted })
    | (some d,c) => (.ok (),⟨c,s.buffer ++ d,s.wanted⟩)

/-- What a successful call does. -/
theorem receiveMore_ok {s s' : Intake κ} (h : receiveMore receive mem s = (.ok (),s')) :
    ∃ d n, d ≠ [] ∧ 0 < n ∧ s.buffer.length + n ≤ requestPrefixMax ∧
      receive s.connection n = (some d,s'.connection) ∧ s'.buffer = s.buffer ++ d := by
  unfold receiveMore at h
  split at h
  · cases h
  split at h
  · cases h
  rename_i hwanted
  split at h
  · cases h
  split at h
  · cases h
  · cases h
  · rename_i d c hne hread
    cases h
    have hmax : s.wanted ≤ requestPrefixMax := min_le_right _ _
    refine ⟨d,s.wanted - s.buffer.length,hne,by omega,by omega,hread,rfl⟩

/-- The loop at the head of `proxy_handler`: it receives until the inspection is not cut short by
the end of the buffer any more. -/
def receiveEnvelope (s : Intake κ) : Outcome ReceiveError (Except CodecError RequestInfo) × Intake κ :=
  match _h : receiveMore receive mem s with
  | (.ok (),s') =>
    match ippCodecInspectRequest s'.buffer with
    | .error .incomplete => receiveEnvelope s'
    | result => (.ok result,s')
  | (.error e,s') => (.error e,s')
  | (.unfinished,s') => (.unfinished,s')
termination_by requestPrefixMax - s.buffer.length
decreasing_by
  obtain ⟨d,n,hne,hn,hmax,-,hbuffer⟩ := receiveMore_ok receive mem _h
  have hd := List.length_pos_of_ne_nil hne
  rw [hbuffer, List.length_append]
  omega

variable {receive mem} {R : κ → Bytes → Prop}

/-- Where the loop stops, the buffer holds a beginning of the body that has a verdict. -/
theorem receiveEnvelope_ok (h : Draws receive R) {s s' : Intake κ} {rest : Bytes}
    (hs : R s.connection rest) {result : Except CodecError RequestInfo}
    (hstop : receiveEnvelope receive mem s = (.ok result,s')) :
    s'.buffer <+: s.buffer ++ rest ∧ ippCodecInspectRequest s'.buffer = result ∧
      result ≠ .error .incomplete := by
  fun_induction receiveEnvelope receive mem s generalizing rest with
  | case1 s s1 hmore hinspect ih =>
    obtain ⟨d,n,-,hn,-,hread,hbuffer⟩ := receiveMore_ok receive mem hmore
    obtain ⟨rest1,hrest,hs1⟩ := h _ _ _ _ _ hs hn hread
    have hstep := ih hs1 hstop
    rw [hbuffer, List.append_assoc, ← hrest] at hstep
    exact hstep
  | case2 s s1 hmore hverdict =>
    obtain ⟨d,n,-,hn,-,hread,hbuffer⟩ := receiveMore_ok receive mem hmore
    obtain ⟨rest1,hrest,-⟩ := h _ _ _ _ _ hs hn hread
    cases hstop
    refine ⟨?_,rfl,hverdict⟩
    rw [hbuffer, hrest, ← List.append_assoc]
    exact List.prefix_append _ _
  | case3 s e s1 hmore => cases hstop
  | case4 s s1 hmore => cases hstop

end

/-! ### The body of a client request -/

/-- The octets of the body that are still to come. -/
def BodyRest {σ : Type} (R : σ → Bytes → Prop) (c : Request × σ) (body : Bytes) : Prop :=
  ∃ stream, Holds R c stream ∧ (expected c.1 stream).1 = body

theorem receiveRequest_draws {σ : Type} {read : ReadFn σ} {R : σ → Bytes → Prop}
    (h : Delivers read R) : Draws (receiveRequest read) (BodyRest R) := by
  rintro c body n d c' ⟨stream,hc,rfl⟩ hn hread
  have hstep := ippHttpRequestRead_progress h hc hn
  unfold receiveRequest at hread
  split at hread
  · rename_i c1 heq
    cases hread
    rw [heq] at hstep
    obtain ⟨hdone,-,stream',hc',-,hexp⟩ := hstep
    refine ⟨[],by rw [hexp]; rfl,stream',hc',?_⟩
    rw [expected_done hdone]
  · rename_i d1 c1 heq
    rw [heq] at hstep
    obtain ⟨-,-,-,stream',hc',-,hexp⟩ := hstep
    split at hread
    · cases hread
      exact ⟨(expected c'.1 stream').1,by rw [hexp],stream',hc',rfl⟩
    · cases hread
  · cases hread

/-! ### Recognition is a prefix code -/

section
variable {p : Bytes} {info : RequestInfo}

/-- More octets can only turn out to be document data. -/
theorem inspect_append (h : ippCodecInspectRequest p = .ok info) (q : Bytes) :
    ∃ info', ippCodecInspectRequest (p ++ q) = .ok info' ∧
      info'.attributesLength = info.attributesLength ∧
      { info' with hasDocument := info.hasDocument } = info := by
  obtain ⟨e,he,rfl⟩ := inspect_ok_iff.mp h
  exact ⟨_,inspect_ok_iff.mpr ⟨_,decode_append he q,rfl⟩,rfl,rfl⟩

theorem inspect_malformed_append (h : ippCodecInspectRequest p = .error .malformed) (q : Bytes) :
    ippCodecInspectRequest (p ++ q) = .error .malformed :=
  inspect_error_iff.mpr (decode_malformed_append (inspect_error_iff.mp h) q)

theorem inspect_short (h : ippCodecInspectRequest p = .ok info) {k : ℕ}
    (hk : k < info.attributesLength) : ippCodecInspectRequest (p.take k) = .error .incomplete := by
  obtain ⟨e,he,rfl⟩ := inspect_ok_iff.mp h
  have hk : k < e.attributesLength := hk
  apply inspect_error_iff.mpr
  rw [← List.take_append_drop k p] at he
  exact decode_prefix he ((List.length_take_le k p).trans_lt hk)

/-- Two verdicts on beginnings of one body. -/
def SameVerdict : Except CodecError RequestInfo → Except CodecError RequestInfo → Prop
  | .ok info, .ok info' => { info' with hasDocument := info.hasDocument } = info
  | .error f, .error f' => f = f'
  | _, _ => False

theorem sameVerdict_of_isPrefix {q : Bytes} (h : p <+: q)
    (hp : ippCodecInspectRequest p ≠ .error .incomplete) :
    SameVerdict (ippCodecInspectRequest p) (ippCodecInspectRequest q) := by
  obtain ⟨more,rfl⟩ := h
  cases hinspect : ippCodecInspectRequest p with
  | ok info =>
    obtain ⟨info',hinspect',-,hsame⟩ := inspect_append hinspect more
    rw [hinspect']
    exact hsame
  | error f =>
    rcases decode_error (inspect_error_iff.mp hinspect) with rfl | rfl
    · exact absurd hinspect hp
    · rw [inspect_malformed_append hinspect more]
      rfl

theorem SameVerdict.symm {v v' : Except CodecError RequestInfo} (h : SameVerdict v v') :
    SameVerdict v' v := by
  cases v with
  | ok info =>
    cases v' with
    | ok info' =>
      have h : { info' with hasDocument := info.hasDocument } = info := h
      change { info with hasDocument := info'.hasDocument } = info'
      rw [← h]
    | error f => exact h.elim
  | error f =>
    cases v' with
    | ok info => exact h.elim
    | error f' => exact Eq.symm h

end

/-- Nothing has been received yet. -/
def Intake.start {κ : Type} (connection : κ) : Intake κ := ⟨connection,[],0⟩

/-- What the codec has recognised stays recognised when more octets come, and nothing is recognised
before the end of the attributes. So the verdict at which the relay stops receiving is the body's
own, whatever its framing and however it arrives. -/
theorem inspect_prefix_code :
    (∀ (p q : Bytes) (info : RequestInfo), ippCodecInspectRequest p = .ok info →
      ∃ info', ippCodecInspectRequest (p ++ q) = .ok info' ∧
        info'.attributesLength = info.attributesLength ∧
        { info' with hasDocument := info.hasDocument } = info) ∧
    (∀ p q : Bytes, ippCodecInspectRequest p = .error .malformed →
      ippCodecInspectRequest (p ++ q) = .error .malformed) ∧
    (∀ (p : Bytes) (info : RequestInfo), ippCodecInspectRequest p = .ok info →
      ∀ k < info.attributesLength, ippCodecInspectRequest (p.take k) = .error .incomplete) ∧
    ∀ (σ σ' : Type) (read : ReadFn σ) (read' : ReadFn σ') (R : σ → Bytes → Prop)
      (R' : σ' → Bytes → Prop), Delivers read R → Delivers read' R' →
      ∀ (mem mem' : Memory) (c : Request × σ) (c' : Request × σ') (body : Bytes),
        BodyRest R c body → BodyRest R' c' body →
        ∀ result result' s s',
          receiveEnvelope (receiveRequest read) mem (.start c) = (.ok result,s) →
          receiveEnvelope (receiveRequest read') mem' (.start c') = (.ok result',s') →
          SameVerdict result result' := by
  refine ⟨fun p q info h => inspect_append h q,fun p q h => inspect_malformed_append h q,
    fun p info h k hk => inspect_short h hk,?_⟩
  intro σ σ' read read' R R' hread hread' mem mem' c c' body hc hc' result result' s s' hstop hstop'
  obtain ⟨hpre,rfl,hverdict⟩ := receiveEnvelope_ok (receiveRequest_draws hread) hc hstop
  obtain ⟨hpre',rfl,hverdict'⟩ := receiveEnvelope_ok (receiveRequest_draws hread') hc' hstop'
  -- of two beginnings of the body, one is a beginning of the other
  rcases le_total s.buffer.length s'.buffer.length with hle | hle
  · exact sameVerdict_of_isPrefix (List.prefix_of_prefix_length_le hpre hpre' hle) hverdict
  · exact (sameVerdict_of_isPrefix (List.prefix_of_prefix_length_le hpre' hpre hle)
      hverdict').symm

end Espresso.Proxy
