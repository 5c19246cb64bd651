import Espresso.Http.Interrupted
import Espresso.Proxy.Handler

/-! What `proxy_handler` has of a client's body when it turns to the printer, whatever the client
does. -/
namespace Espresso.Proxy
open Callback Codec Http

/-! ### The client's body -/

section
variable {σ : Type} {read : ReadFn σ} {R : σ → Bytes → Prop} {r : Request} {tail : Option Bytes}
  {c : Request × σ} {body : Bytes}

/-- `body` is still to come of the body of `r`; `tail` follows it if the body is complete. -/
structure Remaining (R : σ → Bytes → Prop) (r : Request) (tail : Option Bytes) (c : Request × σ)
    (body : Bytes) : Prop where
  fixed : r.chunked = false → c.1.chunked = false
  rest : ∃ stream, Holds R c stream ∧ expected c.1 stream = (body,tail)

/-- The body has been received to its end: what is left to read is what follows it. -/
def BodyReceived (R : σ → Bytes → Prop) (tail : Option Bytes) (c : Request × σ) : Prop :=
  ∃ rest, tail = some rest ∧ Holds R c rest

theorem Remaining.unread {s : σ} {stream : Bytes} (hr : Unread r) (hst : Holds R (r,s) stream) :
    Remaining R r (decoding r stream).2 (r,s) (decoding r stream).1 :=
  ⟨fun h => h,stream,hst,hr.expected stream⟩

/-- A body with a `Content-Length` has no terminator that would have to be read. -/
theorem Remaining.bodyReceived (hfixed : r.chunked = false) (h : Remaining R r tail c [])
    (htail : tail ≠ none) : BodyReceived R tail c := by
  obtain ⟨after,rfl⟩ := Option.ne_none_iff_exists'.mp htail
  obtain ⟨stream,hst,hexp⟩ := h.rest
  refine ⟨after,rfl,?_⟩
  unfold expected at hexp
  split at hexp
  · cases hexp
    exact hst
  rw [if_pos (by simp [h.fixed hfixed]), Prod.mk.injEq] at hexp
  obtain ⟨htake,hdrop⟩ := hexp
  split at hdrop
  · rename_i hle
    have hzero : c.1.fixedRemaining = 0 := by
      rcases List.take_eq_nil_iff.mp htake with h0 | hnil
      · exact h0
      · rw [hnil, List.length_nil] at hle
        omega
    rw [hzero, List.drop_zero, Option.some_inj] at hdrop
    rw [← hdrop]
    exact hst
  · cases hdrop

theorem receiveRequest_drawsTo (h : Draws read R) (r : Request) (tail : Option Bytes) :
    DrawsTo (receiveRequest read) (Remaining R r tail) (BodyReceived R tail) := by
  rintro c body n d c' ⟨hfixed,stream,hst,hexp⟩ hn hread
  have hkeep : ∀ {result : Option Bytes}, ippHttpRequestRead read n c = (.ok result,c') →
      r.chunked = false → c'.1.chunked = false :=
    fun hok hr => ippHttpRequestRead_fixed (hfixed hr) hok
  unfold receiveRequest at hread
  split at hread
  · rename_i c1 heq
    cases hread
    obtain ⟨hdone,-,stream',hst',-,hend⟩ := ippHttpRequestRead_ok h hst hn heq
    rw [hexp, Prod.mk.injEq] at hend
    obtain ⟨rfl,rfl⟩ := hend
    exact ⟨Nat.zero_le _,[],rfl,⟨hkeep heq,stream',hst',expected_done hdone _⟩,
      fun _ => ⟨rfl,stream',rfl,hst'⟩⟩
  · rename_i d1 c1 heq
    obtain ⟨hne,-,-,stream',hst',-,hmore⟩ := ippHttpRequestRead_ok h hst hn heq
    rw [hexp, Prod.mk.injEq] at hmore
    split at hread
    · cases hread
      exact ⟨ippHttpRequestRead_length heq,(expected c'.1 stream').1,hmore.1,
        ⟨hkeep heq,stream',hst',Prod.ext rfl hmore.2.symm⟩,fun hnil => absurd hnil hne⟩
    · cases hread
  · cases hread

end

/-! ### Reading ahead -/

section
variable {κ : Type} {receive : ReadFn κ} {mem : Memory} {R : κ → Bytes → Prop} {E : κ → Prop}
  {s s' : Intake κ} {rest : Bytes}

/-- What is in the buffer and what is to come are one body. -/
theorem receiveMore_keeps (h : DrawsTo receive R E) (hs : R s.connection rest)
    (hmore : receiveMore receive mem s = (.ok (),s')) :
    s.buffer <+: s'.buffer ∧
      ∃ rest', s.buffer ++ rest = s'.buffer ++ rest' ∧ R s'.connection rest' := by
  obtain ⟨d,n,-,hn,-,hread,hbuffer⟩ := receiveMore_ok receive mem hmore
  obtain ⟨-,rest',rfl,hs',-⟩ := h _ _ _ _ _ hs hn hread
  rw [hbuffer]
  exact ⟨List.prefix_append _ _,rest',by rw [List.append_assoc],hs'⟩

theorem receiveMore_notFinished (h : DrawsTo receive R E) (hs : R s.connection rest)
    (hmore : receiveMore receive mem s = (.error .notFinished,s')) :
    rest = [] ∧ s'.buffer = s.buffer ∧ R s'.connection [] ∧ E s'.connection := by
  unfold receiveMore at hmore
  split at hmore
  · cases hmore
  split at hmore
  · cases hmore
  rename_i hwanted
  split at hmore
  · cases hmore
  split at hmore
  · cases hmore
  · rename_i c' hread
    cases hmore
    obtain ⟨-,rest',rfl,hs',hend⟩ := h _ _ _ _ _ hs (by omega) hread
    obtain ⟨rfl,hE⟩ := hend rfl
    exact ⟨rfl,rfl,hs',hE⟩
  · cases hmore

theorem receiveEnvelope_keeps (h : DrawsTo receive R E) (hs : R s.connection rest)
    {result : Except CodecError RequestInfo}
    (hstop : receiveEnvelope receive mem s = (.ok result,s')) :
    (∃ rest', s.buffer ++ rest = s'.buffer ++ rest' ∧ R s'.connection rest') ∧
      ippCodecInspectRequest s'.buffer = result ∧ result ≠ .error .incomplete := by
  fun_induction receiveEnvelope receive mem s generalizing rest with
  | case1 s s1 hmore hinspect ih =>
    obtain ⟨-,rest1,heq,hs1⟩ := receiveMore_keeps h hs hmore
    obtain ⟨⟨rest',heq',hs'⟩,hresult⟩ := ih hs1 hstop
    exact ⟨⟨rest',heq.trans heq',hs'⟩,hresult⟩
  | case2 s s1 hmore hverdict =>
    cases hstop
    exact ⟨(receiveMore_keeps h hs hmore).2,rfl,hverdict⟩
  | case3 s e s1 hmore => cases hstop
  | case4 s s1 hmore => cases hstop

/-- Draining ends with the end of the body. -/
theorem drainBody_keeps (h : DrawsTo receive R E) (hs : R s.connection rest)
    (hdrain : drainBody receive mem s = (.ok (),s')) :
    s.buffer ++ rest = s'.buffer ∧ R s'.connection [] ∧ E s'.connection := by
  fun_induction drainBody receive mem s generalizing rest with
  | case1 s s1 hmore ih =>
    obtain ⟨-,rest1,heq,hs1⟩ := receiveMore_keeps h hs hmore
    obtain ⟨heq',hend⟩ := ih hs1 hdrain
    exact ⟨heq.trans heq',hend⟩
  | case2 s s1 hmore =>
    cases hdrain
    obtain ⟨rfl,hbuffer,hend⟩ := receiveMore_notFinished h hs hmore
    exact ⟨by rw [hbuffer, List.append_nil],hend⟩
  | case3 => cases hdrain
  | case4 => cases hdrain

theorem peekDocument_keeps (h : DrawsTo receive R E) (hs : R s.connection rest)
    (hpeek : peekDocument receive mem s = (.ok (),s')) :
    s.buffer <+: s'.buffer ∧ ∃ rest', s.buffer ++ rest = s'.buffer ++ rest' ∧ R s'.connection rest' := by
  unfold peekDocument at hpeek
  split at hpeek
  · rename_i s1 hmore
    cases hpeek
    obtain ⟨rfl,hbuffer,hs',-⟩ := receiveMore_notFinished h hs hmore
    rw [hbuffer]
    exact ⟨List.prefix_rfl,[],rfl,hs'⟩
  · exact receiveMore_keeps h hs hpeek

theorem readMore_keeps (h : DrawsTo receive R E) (hs : R s.connection rest) {chunked : Bool}
    {info : RequestInfo} (hmore : readMore receive mem chunked info s = (.ok (),s')) :
    s.buffer <+: s'.buffer ∧ ∃ rest', s.buffer ++ rest = s'.buffer ++ rest' ∧
      R s'.connection rest' ∧ (chunked = true → isDocumentOperation info.operationId = false →
        rest' = [] ∧ E s'.connection) := by
  unfold readMore at hmore
  by_cases hdrain : (chunked && !isDocumentOperation info.operationId) = true
  · rw [if_pos hdrain] at hmore
    obtain ⟨heq,hs',hE⟩ := drainBody_keeps h hs hmore
    exact ⟨⟨rest,heq⟩,[],by rw [heq, List.append_nil],hs',fun _ _ => ⟨rfl,hE⟩⟩
  rw [if_neg hdrain] at hmore
  have hnot : chunked = true → isDocumentOperation info.operationId = false → False := by
    intro hchunked hoperation
    exact hdrain (by rw [hchunked, hoperation]; rfl)
  split_ifs at hmore with hpeek
  · obtain ⟨hpre,rest',heq,hs'⟩ := peekDocument_keeps h hs hmore
    exact ⟨hpre,rest',heq,hs',fun h1 h2 => (hnot h1 h2).elim⟩
  · cases hmore
    exact ⟨List.prefix_rfl,rest,rfl,hs,fun h1 h2 => (hnot h1 h2).elim⟩

/-- What has been received when the printer is turned to: the inspected envelope, and all of the
body if the length of the upload depends on it. -/
theorem readAhead_keeps (h : DrawsTo receive R E) {c : κ} {body : Bytes} (hs : R c body)
    {chunked : Bool} {info : RequestInfo}
    (hahead : readAhead receive mem chunked ⟨c,[],0⟩ = (.ok info,s')) :
    ∃ rest, body = s'.buffer ++ rest ∧ R s'.connection rest ∧
      (∃ p, p <+: s'.buffer ∧ ippCodecInspectRequest p = .ok info) ∧
      (chunked = true → isDocumentOperation info.operationId = false →
        rest = [] ∧ E s'.connection) := by
  unfold readAhead at hahead
  split at hahead
  · cases hahead
  · cases hahead
  · cases hahead
  rename_i info1 s1 hstop
  obtain ⟨⟨rest1,heq,hs1⟩,hinspect,-⟩ := receiveEnvelope_keeps h hs hstop
  split at hahead
  · cases hahead
  · cases hahead
  rename_i s2 hmore
  cases hahead
  obtain ⟨hpre,rest2,heq',hs2,hend⟩ := readMore_keeps h hs1 hmore
  exact ⟨rest2,heq.trans heq',hs2,⟨s1.buffer,hpre,hinspect⟩,hend⟩

end

end Espresso.Proxy
