import Espresso.Proxy.Completion

/-! What arrives at the printer of a request that is relayed as it is: the rewritten attributes and
then the client's document, octet for octet, however the two connections cut it up. -/
namespace Espresso.Proxy
open Callback Codec Http Jobs Raster

open Printer (EspError)

/-! ### The client's body -/

section
variable {σ : Type} {read : ReadFn σ} {R : σ → Bytes → Prop} {r : Request} {after : Bytes}

/-- What is still to come of a body that is complete and not too long to be counted. -/
structure Countdown (R : σ → Bytes → Prop) (r : Request) (after : Bytes) (c : Request × σ)
    (b : Bytes) : Prop where
  remaining : Remaining R r (some after) c b
  counted : c.1.decodedLength + b.length ≤ sizeMax

theorem receiveRequest_counted (h : Draws read R) {c c' : Request × σ} {stream d : Bytes} {n : ℕ}
    (hst : Holds R c stream) (hn : 0 < n) (hread : receiveRequest read c n = (some d,c')) :
    c'.1.decodedLength = c.1.decodedLength + d.length := by
  unfold receiveRequest at hread
  split at hread
  · rename_i c1 heq
    cases hread
    obtain ⟨-,hcount,-⟩ := ippHttpRequestRead_ok h hst hn heq
    exact hcount
  · rename_i d1 c1 heq
    obtain ⟨-,hcount,-⟩ := ippHttpRequestRead_ok h hst hn heq
    split at hread
    · cases hread
      exact hcount
    · cases hread
  · cases hread

theorem receiveRequest_countdown (h : Draws read R) :
    DrawsTo (receiveRequest read) (Countdown R r after) (BodyReceived R (some after)) := by
  rintro c b n d c' ⟨hremaining,hcounted⟩ hn hread
  obtain ⟨hle,b',rfl,hc',hend⟩ :=
    receiveRequest_drawsTo h r (some after) c b n d c' hremaining hn hread
  obtain ⟨stream,hst,-⟩ := hremaining.rest
  have hcount := receiveRequest_counted h hst hn hread
  rw [List.length_append] at hcounted
  exact ⟨hle,b',rfl,⟨hc',by omega⟩,hend⟩

/-- A complete body is received without a failure. -/
theorem receiveRequest_supplies (h : Delivers read R) :
    Supplies (receiveRequest read) (Countdown R r after) intMax := by
  intro c b n hc hn hmost
  have hsome : ∃ d c', receiveRequest read c n = (some d,c') := by
    obtain ⟨stream,hst,hexp⟩ := hc.remaining.rest
    have hprogress := ippHttpRequestRead_progress h hst hn
    unfold receiveRequest
    cases hread : ippHttpRequestRead read n c with
    | mk o c' =>
      rw [hread] at hprogress
      cases o with
      | unfinished => exact hprogress.elim
      | error e =>
        rcases hprogress with hinc | hlong
        · rw [hexp] at hinc
          cases hinc
        · rw [hexp] at hlong
          exact absurd hc.counted (not_le.mpr hlong)
      | ok result =>
        cases result with
        | none => exact ⟨[],c',rfl⟩
        | some d =>
          have hlength : d.length ≤ n := ippHttpRequestRead_length hread
          exact ⟨d,c',by simp only [if_pos (hlength.trans hmost)]⟩
  obtain ⟨d,c',hread⟩ := hsome
  obtain ⟨hle,b',rfl,hc',hend⟩ := receiveRequest_countdown h.draws c b n d c' hc hn hread
  refine ⟨d,b',c',hread,rfl,hc',hle,?_⟩
  rintro rfl
  exact (hend rfl).1

end

/-! ### The document -/

section
variable {κ υ : Type} {receive : ReadFn κ} {client : HttpClient υ} {R : κ → Bytes → Prop}
  {taken : υ → Bytes}

theorem streamChunks_delivers (hreceive : Supplies receive R streamChunk)
    (hwrite : Accepts client.write taken) {turns : ℕ} {c : κ} {b : Bytes} (hc : R c b)
    (hturns : b.length < turns) (u : υ) :
    ∃ chunks c' u', streamChunks receive client turns (c,u) = (.ok (),(c',u')) ∧
      DataChunks chunks ∧ chunks.flatten = b ∧
      taken u' = taken u ++ (chunks ++ [[]]).flatMap httpChunk := by
  induction turns generalizing c b u with
  | zero => omega
  | succ turns ih =>
    obtain ⟨d,b',c',hread,rfl,hc',hle,hend⟩ := hreceive c b streamChunk hc (by decide) le_rfl
    have hsize : d.length ≤ sizeMax := hle.trans (by decide)
    obtain ⟨u',hrun,htaken⟩ := ippStreamWriteHttpChunk_accepts hwrite u hsize
    have hchunk : writeUpstreamChunk client d (c',u) = (.ok (),(c',u')) := by
      rw [writeUpstreamChunk, hrun]
    rw [streamChunks]
    simp only [hread]
    cases d with
    | nil =>
      obtain rfl := (List.append_eq_nil_iff.mp (hend rfl)).2
      exact ⟨[],c',u',hchunk,fun data hdata => absurd hdata List.not_mem_nil,rfl,
        by simpa using htaken⟩
    | cons x d =>
      rw [List.length_append, List.length_cons] at hturns
      obtain ⟨chunks,c'',u'',hrest,hchunks,hflatten,htaken'⟩ := ih hc' (by omega) u'
      refine ⟨(x :: d) :: chunks,c'',u'',?_,?_,?_,?_⟩
      · simp only [Run.bind_of_ok hchunk, hrest]
      · intro data hdata
        rcases List.mem_cons.mp hdata with rfl | hdata
        · exact ⟨List.cons_ne_nil _ _,hsize⟩
        · exact hchunks data hdata
      · rw [List.flatten_cons, hflatten]
      · rw [htaken', htaken, List.cons_append, List.flatMap_cons, List.append_assoc]

theorem copyRemaining_delivers {σ τ : Type} {read : ReadFn σ} {write : WriteFn τ}
    {R : σ → Bytes → Prop} {taken : τ → Bytes} {chunkSize : ℕ} (hread : Supplies read R chunkSize)
    (hwrite : Accepts write taken) (hchunk : 0 < chunkSize) (remaining : ℕ) {s : σ} {b : Bytes}
    (hs : R s b) (hle : remaining ≤ b.length) (t : τ) :
    ∃ s' t', copyRemaining read write chunkSize remaining (s,t) = (.ok (),(s',t')) ∧
      taken t' = taken t ++ b.take remaining := by
  induction remaining using Nat.strong_induction_on generalizing s b t with
  | _ remaining ih =>
    rw [copyRemaining]
    by_cases hdone : remaining = 0
    · rw [if_pos hdone]
      exact ⟨s,t,rfl,by simp [hdone]⟩
    rw [if_neg hdone]
    generalize hwanted : min remaining chunkSize = wanted
    obtain ⟨d,b',s',hrun,rfl,hs',hfits,hend⟩ := hread s b wanted hs (by omega) (by omega)
    have hne : d ≠ [] := by
      rintro rfl
      rw [hend rfl, List.length_nil] at hle
      omega
    have hpos := List.length_pos_of_ne_nil hne
    obtain ⟨t',hw,htaken⟩ := writeAll_accepts hwrite t d
    rw [List.length_append] at hle
    obtain ⟨s'',t'',hrest,htaken'⟩ := ih (remaining - d.length) (by omega) hs' (by omega) t'
    have hkeep : ¬ (d = [] ∨ wanted < d.length) := not_or.mpr ⟨hne,not_lt.mpr hfits⟩
    refine ⟨s'',t'',?_,?_⟩
    · simp only [hrun, if_neg hkeep, hw, hrest]
    · rw [htaken', htaken, List.append_assoc, List.take_append,
        List.take_of_length_le (by omega : d.length ≤ remaining)]

theorem streamRemainingRequest_delivers {mem : Memory} (hmem : ¬ mem.Refuses)
    (hreceive : Supplies receive R streamChunk) (hwrite : Accepts client.write taken)
    {P : υ → Prop} (hkeeps : Keeps client.write P P) {c : κ} {b : Bytes} (hc : R c b) {u : υ}
    (hu : P u) :
    ∃ c' u', streamRemainingRequest receive client mem b.length (c,u) = (.ok (),(c',u')) ∧
      taken u' = taken u ++ b ∧ P u' := by
  unfold streamRemainingRequest ippStreamCopy
  rw [if_neg (by decide)]
  by_cases hzero : b.length = 0
  · rw [if_pos hzero]
    exact ⟨c,u,rfl,by rw [List.eq_nil_of_length_eq_zero hzero, List.append_nil],hu⟩
  rw [if_neg hzero]
  have hgranted : ∀ n, mem n = true := fun n => by
    by_contra hn
    exact hmem ⟨n,Bool.eq_false_iff.mpr hn⟩
  obtain ⟨c',u',hrun,htaken⟩ := copyRemaining_delivers (hreceive.mono (min_le_left _ _)) hwrite
    (lt_min (by decide) (Nat.pos_of_ne_zero hzero)) b.length hc le_rfl u
  have hkept : P (copyRemaining receive client.write (min streamChunk b.length) b.length
      (c,u)).2.2 := copyRemaining_keeps hkeeps _ _ c hu
  rw [hrun] at hkept
  rw [List.take_length] at htaken
  simp only [hgranted, Bool.not_true, Bool.false_eq_true, if_false, hrun]
  exact ⟨c',u',rfl,htaken,hkept⟩

/-- The client gets through to the printer, which takes every octet in the end. -/
structure Wire.Reaches (w : Wire υ) (client : HttpClient υ) : Prop where
  records : w.Records client
  init : ∀ config u, (client.init config u).1 = true
  openRequest : ∀ n u, (client.openRequest n u).1 = none ∧
    w.announced (client.openRequest n u).2 = some n
  write : Accepts client.write w.body

theorem Wire.Records.keeps_announced {w : Wire υ} (h : w.Records client) (n : ℤ) :
    Keeps client.write (fun u => w.announced u = some n) (fun u => w.announced u = some n) := by
  intro u data _ hu
  have hkept : w.announced (client.write u data).2 = some n := (h.announced_write u data).trans hu
  split <;> exact hkept

theorem openClient_reaches {w : Wire υ} (hw : w.Reaches client) (q : Relayed) (up : Upload) (c : κ)
    {u : υ} (hu : w.Fresh u) :
    ∃ u', openClient client q up (c,u) = (.ok (),(c,u')) ∧ w.body u' = [] ∧
      w.announced u' = some (q.announces up.rewritten) := by
  have hinit := hw.init (clientConfig q up.endpoint) u
  have hfresh := hw.records.init (clientConfig q up.endpoint) u hu
  unfold openClient
  simp only
  cases hrun : client.init (clientConfig q up.endpoint) u with
  | mk ok u1 =>
    rw [hrun] at hinit hfresh
    obtain rfl : ok = true := hinit
    have hopen := hw.openRequest (q.announces up.rewritten) u1
    have hbody := (hw.records.openRequest (q.announces up.rewritten) u1 hfresh).1
    simp only
    rw [← Relayed.announces]
    cases hrun' : client.openRequest (q.announces up.rewritten) u1 with
    | mk e u' =>
      rw [hrun'] at hopen hbody
      obtain rfl : e = none := hopen.1
      exact ⟨u',rfl,hbody,hopen.2⟩

theorem writeEnvelope_chunked {q : Relayed} {up : Upload} (hout : q.outgoingChunked = true)
    (hdirect : q.converting = false) :
    (writeEnvelope client q up : Run (κ × υ) EspError Unit) =
      writeUpstreamChunk client up.rewritten := by
  unfold writeEnvelope
  rw [hout, hdirect]
  rfl

theorem streamDocument_chunked (heap : Heaps) (turns : ℕ) {q : Relayed}
    (hout : q.outgoingChunked = true) (hdirect : q.converting = false) :
    streamDocument receive client heap turns q =
      failing (streamChunkedRequest receive client heap.stream turns) := by
  unfold streamDocument
  rw [hout, hdirect]
  rfl

/-- An upload of which nothing is converted succeeds, and carries the envelope and the rest of the
body. -/
theorem forward_delivers {w : Wire υ} (hreceive : Supplies receive R streamChunk)
    (hw : w.Reaches client) {heap : Heaps} (hmem : ¬ heap.stream.Refuses) {turns : ℕ} {q : Relayed}
    {up : Upload} (hdirect : q.converting = false) {c : κ} {b : Bytes} (hc : R c b) {u : υ}
    (hu : w.Fresh u) (hturns : b.length < turns)
    (hchunked : q.outgoingChunked = true → up.rewritten ≠ [] ∧ up.rewritten.length ≤ sizeMax)
    (hfixed : q.outgoingChunked = false → q.remaining = b.length) :
    ∃ c' u', forward receive client heap turns q up (c,u) = (.ok (),(c',u')) ∧
      if q.outgoingChunked then ∃ chunks, DataChunks chunks ∧ chunks.flatten = up.rewritten ++ b ∧
        w.body u' = (chunks ++ [[]]).flatMap httpChunk
      else w.body u' = up.rewritten ++ b ∧
        w.announced u' = some (q.outgoingLength up.rewritten) := by
  obtain ⟨u1,hopen,hbody,hannounced⟩ := openClient_reaches hw q up c hu
  unfold forward
  rw [Run.bind_of_ok hopen]
  cases hout : q.outgoingChunked with
  | true =>
    obtain ⟨hne,hsize⟩ := hchunked hout
    obtain ⟨u2,hrun,htaken⟩ := ippStreamWriteHttpChunk_accepts hw.write u1 hsize
    obtain ⟨chunks,c',u',hstream,hchunks,hflatten,htaken'⟩ :=
      streamChunks_delivers hreceive hw.write hc hturns u2
    have henvelope : failing (writeEnvelope client q up) (c,u1) = (.ok (),(c,u2)) := by
      rw [writeEnvelope_chunked hout hdirect]
      unfold failing writeUpstreamChunk
      simp only [hrun]
    have hgranted : heap.stream streamChunk = true := by
      by_contra hn
      exact hmem ⟨_,Bool.eq_false_iff.mpr hn⟩
    have hdocument : streamDocument receive client heap turns q (c,u2) = (.ok (),(c',u')) := by
      rw [streamDocument_chunked heap turns hout hdirect]
      unfold failing streamChunkedRequest
      simp only [hgranted, Bool.not_true, Bool.false_eq_true, if_false, hstream]
    refine ⟨c',u',by rw [Run.bind_of_ok henvelope, hdocument],?_⟩
    rw [if_pos rfl]
    refine ⟨up.rewritten :: chunks,?_,?_,?_⟩
    · intro data hdata
      rcases List.mem_cons.mp hdata with rfl | hdata
      · exact ⟨hne,hsize⟩
      · exact hchunks data hdata
    · rw [List.flatten_cons, hflatten]
    · rw [htaken', htaken, hbody, List.nil_append, List.cons_append, List.flatMap_cons]
  | false =>
    rw [Relayed.announces, if_neg (by rw [hout]; decide)] at hannounced
    have hkeeps := hw.records.keeps_announced (q.outgoingLength up.rewritten)
    obtain ⟨u2,hrun,htaken⟩ := writeAll_accepts hw.write u1 up.rewritten
    have hkept := hkeeps.writeAll hannounced up.rewritten
    rw [hrun] at hkept
    obtain ⟨c',u',hstream,htaken',hkept'⟩ :=
      streamRemainingRequest_delivers hmem hreceive hw.write hkeeps hc hkept
    have henvelope : failing (writeEnvelope client q up) (c,u1) = (.ok (),(c,u2)) := by
      rw [writeEnvelope_fixed hout]
      unfold failing writeUpstream
      simp only [hrun]
    have hdocument : streamDocument receive client heap turns q (c,u2) = (.ok (),(c',u')) := by
      rw [streamDocument_fixed heap turns hout, hfixed hout]
      unfold failing
      simp only [hstream]
    refine ⟨c',u',by rw [Run.bind_of_ok henvelope, hdocument],?_⟩
    rw [if_neg (by decide), htaken', htaken, hbody, List.nil_append]
    exact ⟨rfl,hkept'⟩

end

/-! ### The buffer in front -/

section
variable {κ : Type} {receive : ReadFn κ} {mem : Memory} {s s' : Intake κ}

/-- What a reader returns fits the buffer it was given. -/
def Bounded (receive : ReadFn κ) : Prop :=
  ∀ c n d c', receive c n = (some d,c') → d.length ≤ n

theorem receiveRequest_bounded {σ : Type} (read : ReadFn σ) : Bounded (receiveRequest read) := by
  intro c n d c' hread
  unfold receiveRequest at hread
  split at hread
  · cases hread
    exact Nat.zero_le _
  · rename_i heq
    split at hread
    · cases hread
      exact ippHttpRequestRead_length heq
    · cases hread
  · cases hread

theorem receiveMore_fits (h : Bounded receive) (hmore : receiveMore receive mem s = (.ok (),s')) :
    s'.buffer.length ≤ requestPrefixMax := by
  obtain ⟨d,n,-,-,hmax,hread,hbuffer⟩ := receiveMore_ok receive mem hmore
  have hd := h _ _ _ _ hread
  rw [hbuffer, List.length_append]
  omega

theorem receiveEnvelope_fits (h : Bounded receive) {result : Except CodecError RequestInfo}
    (hstop : receiveEnvelope receive mem s = (.ok result,s')) :
    s'.buffer.length ≤ requestPrefixMax := by
  fun_induction receiveEnvelope receive mem s with
  | case1 s s1 hmore hinspect ih => exact ih hstop
  | case2 s s1 hmore hverdict =>
    cases hstop
    exact receiveMore_fits h hmore
  | case3 => cases hstop
  | case4 => cases hstop

theorem receiveMore_unchanged (hmore : receiveMore receive mem s = (.error .notFinished,s')) :
    s'.buffer = s.buffer := by
  unfold receiveMore at hmore
  split at hmore
  · cases hmore
  split at hmore
  · cases hmore
  split at hmore
  · cases hmore
  split at hmore <;> cases hmore
  rfl

theorem drainBody_fits (h : Bounded receive) (hs : s.buffer.length ≤ requestPrefixMax)
    (hdrain : drainBody receive mem s = (.ok (),s')) : s'.buffer.length ≤ requestPrefixMax := by
  fun_induction drainBody receive mem s with
  | case1 s s1 hmore ih => exact ih (receiveMore_fits h hmore) hdrain
  | case2 s s1 hmore =>
    cases hdrain
    rw [receiveMore_unchanged hmore]
    exact hs
  | case3 => cases hdrain
  | case4 => cases hdrain

theorem readMore_fits (h : Bounded receive) (hs : s.buffer.length ≤ requestPrefixMax)
    {chunked : Bool} {info : RequestInfo}
    (hmore : readMore receive mem chunked info s = (.ok (),s')) :
    s'.buffer.length ≤ requestPrefixMax := by
  unfold readMore at hmore
  split_ifs at hmore
  · exact drainBody_fits h hs hmore
  · unfold peekDocument at hmore
    split at hmore
    · rename_i hpeek
      cases hmore
      rw [receiveMore_unchanged hpeek]
      exact hs
    · exact receiveMore_fits h hmore
  · cases hmore
    exact hs

theorem readAhead_fits (h : Bounded receive) {chunked : Bool} {info : RequestInfo}
    (hahead : readAhead receive mem chunked s = (.ok info,s')) :
    s'.buffer.length ≤ requestPrefixMax := by
  unfold readAhead at hahead
  split at hahead
  · cases hahead
  · cases hahead
  · cases hahead
  rename_i hstop
  split at hahead
  · cases hahead
  · cases hahead
  rename_i hmore
  cases hahead
  exact readMore_fits h (receiveEnvelope_fits h hstop) hmore

end

/-! ### The handler -/

section
variable {σ υ : Type} {env : Environment σ υ} {R : σ → Bytes → Prop} {w : Wire υ} {r : Request}
  {stream after : Bytes} {q : Relayed} {up : Upload} {c' : Request × σ}

/-- The handler turns to the printer with this upload. -/
structure Relays (env : Environment σ υ) (target : Option PrinterTarget) (c : Request × σ)
    (q : Relayed) (up : Upload) (c' : Request × σ) : Prop where
  admitted : admission target c.1 env.continued = .ok q.target
  ahead : ∃ capacity, readAhead (receiveRequest env.read) env.heap.intake c.1.chunked ⟨c,[],0⟩ =
    (.ok q.info,⟨c',q.received,capacity⟩)
  chunked : q.chunked = c.1.chunked
  contentLength : q.contentLength = c.1.contentLength
  prepared : prepare env.heap q = .ok up

theorem Relays.uploadEnd {target : Option PrinterTarget} {c : Request × σ}
    (h : Relays env target c q up c') (u : υ) :
    uploadEnd env target c u =
      (forward (receiveRequest env.read) env.client env.heap env.turns q up (c',u)).2 := by
  obtain ⟨capacity,hahead⟩ := h.ahead
  have hq : (⟨q.info,q.target,q.received,c.1.chunked,c.1.contentLength⟩ : Relayed) = q := by
    rw [← h.chunked, ← h.contentLength]
  unfold Proxy.uploadEnd
  rw [h.admitted]
  simp only [hahead]
  rw [hq, h.prepared]

/-- The message for the printer: the rewritten attributes in its version of IPP, and the client's
document. -/
def printerMessage (q : Relayed) (endpoint : TransportEndpoint) (e : Envelope) : Bytes :=
  setVersion q.plan.upstreamMajor q.plan.upstreamMinor
    (relayedEnvelope endpoint.printerUri.val endpoint.authority.val q.target
      q.plan.upstreamDocumentFormat e) ++ e.document

/-- The message is what the body that has been sent stands for, and of the length announced. -/
def Wire.Carries (w : Wire υ) (chunked : Bool) (u : υ) (message : Bytes) : Prop :=
  if chunked then w.Announces (-1) u ∧ dechunk (w.body u) = (message,some [])
  else w.announced u = some (message.length : ℤ) ∧ w.body u = message

theorem Wire.Carries.of_same {chunked : Bool} {u u' : υ} {message : Bytes}
    (h : w.Carries chunked u message) (hannounced : w.announced u' = w.announced u)
    (hbody : w.body u' = w.body u) : w.Carries chunked u' message := by
  unfold Wire.Carries Wire.Announces at h ⊢
  rw [hannounced, hbody]
  exact h

theorem setVersion_relayedEnvelope (major minor : UInt8) (printerUri authority : Bytes)
    (t : PrinterTarget) (format : Option Bytes) (e : Envelope) (document : Bytes) :
    setVersion major minor (relayedEnvelope printerUri authority t format e ++ document) =
      setVersion major minor (relayedEnvelope printerUri authority t format e) ++ document := by
  have hlength : 2 ≤ (relayedEnvelope printerUri authority t format e).length := by
    have hheader : e.header.length = 8 := e.header_length
    rw [relayedEnvelope, List.length_append, hheader]
    omega
  rw [setVersion, setVersion, List.drop_append_of_le_length hlength, List.append_assoc]

theorem upstreamEnvelope_message {heap : Heaps} {endpoint : TransportEndpoint} {rewritten : Bytes}
    {attributesLength : ℕ} (hquery : q.queriesPrinter = false)
    (h : upstreamEnvelope heap q endpoint = .ok (rewritten,attributesLength)) :
    ∃ e, decode q.received = .ok e ∧ rewritten = printerMessage q endpoint e := by
  unfold upstreamEnvelope at h
  simp only [hquery, Bool.not_false, if_true] at h
  split at h
  · rename_i rewritten' k hrewrite
    cases h
    obtain ⟨e,he,rfl⟩ := rewriteRequest_message hrewrite
    exact ⟨e,he,setVersion_relayedEnvelope _ _ _ _ _ _ _ _⟩
  · split at h <;> cases h

/-- The document of a body of which a beginning has been received. -/
theorem printerMessage_more {e : Envelope} (endpoint : TransportEndpoint) (rest : Bytes) :
    printerMessage q endpoint (e.withDocument (e.document ++ rest)) =
      printerMessage q endpoint e ++ rest := by
  simp only [printerMessage, Envelope.withDocument, relayedEnvelope, List.append_assoc]

theorem plan_format_length : (q.plan.upstreamDocumentFormat.getD []).length ≤ 9 := by
  unfold Relayed.plan
  rw [plan_upstreamDocumentFormat]
  split <;> decide

/-- An envelope that has been received fits a chunk after it has been rewritten. -/
theorem printerMessage_length {endpoint : TransportEndpoint} {e : Envelope} {received : Bytes}
    (he : decode received = .ok e) (hfits : received.length ≤ requestPrefixMax) :
    (printerMessage q endpoint e).length ≤ sizeMax := by
  have hformat := plan_format_length (q := q)
  have huri := endpoint.printerUri.property.2
  have hauthority := endpoint.authority.property.2
  have hbound := relayedEnvelope_length endpoint.printerUri.val endpoint.authority.val q.target
    q.plan.upstreamDocumentFormat e
  have hsplit : received.length = e.attributesLength + e.document.length := by
    rw [← encode_of_decode he, e.encode_eq, e.attributesLength_eq]
    simp only [List.length_append, List.length_cons, e.header_length]
    omega
  have hfactor : 35 + endpoint.printerUri.val.length + endpoint.authority.val.length +
      (q.plan.upstreamDocumentFormat.getD []).length ≤ 330 := by omega
  have hmost := hbound.trans (Nat.mul_le_mul_right e.attributesLength hfactor)
  have hmax : received.length ≤ 65536 := hfits
  have hsum : (printerMessage q endpoint e).length ≤ 2 + 330 * 65536 + 65536 := by
    simp only [printerMessage, setVersion, List.length_append, List.length_cons, List.length_nil,
      List.length_drop]
    omega
  exact hsum.trans (by decide)

/-- What remains of a complete body is as long as the handler computes. -/
theorem TakenIn.remaining_eq {c : Request × σ} {rest : Bytes} (h : TakenIn R r stream q c rest)
    (hbody : (decoding r stream).2 = some after) (hquery : q.queriesPrinter = false)
    (hwhole : r.chunked = true → isDocumentOperation q.info.operationId = false → rest = [])
    (hfixed : q.outgoingChunked = false) {rewritten : Bytes}
    (hlength : q.lengthRefused rewritten = false) :
    q.remaining = rest.length ∧ q.outgoingLength rewritten = (rewritten ++ rest).length := by
  obtain ⟨hremaining,hsum⟩ := Relayed.remaining_eq hfixed hlength h.replaced_le
  have hreplaced : q.replacedLength = q.received.length := if_neg (by rw [hquery]; decide)
  have hrest : q.bodyLength - q.replacedLength = rest.length := by
    rw [hreplaced]
    by_cases hchunked : q.chunked = true
    · have hno := (Bool.or_eq_false_iff.mp hfixed).2
      rw [hchunked, Bool.true_and] at hno
      have hdocument := plan_documentOperation q.info q.target q.bodyLength
      rw [Relayed.plan, hdocument] at hno
      rw [hwhole (h.chunked ▸ hchunked) hno, Relayed.bodyLength, if_pos hchunked]
      simp
    · have hlength : (decoding r stream).1.length = r.contentLength := by
        rw [h.chunked] at hchunked
        unfold decoding at hbody ⊢
        rw [if_neg hchunked] at hbody ⊢
        simp only at hbody ⊢
        split at hbody
        · rw [List.length_take]
          omega
        · cases hbody
      rw [h.body, List.length_append, ← h.contentLength] at hlength
      rw [Relayed.bodyLength, if_neg hchunked]
      omega
  have hall : q.remaining = rest.length := hremaining.trans hrest
  refine ⟨hall,?_⟩
  rw [hsum, hall, List.length_append, Nat.cast_add]

/-- A complete request that is relayed as it is reaches the printer: the rewritten attributes in the
printer's version of IPP, and then the client's document, however its body is framed and cut up and
however the printer takes it. The length in front is the length of what is sent. -/
theorem proxyHandler_delivers (hread : Delivers env.read R) (hw : w.Reaches env.client)
    (hmem : ¬ env.heap.stream.Refuses) (hr : Unread r) {s : σ} (hst : Holds R (r,s) stream)
    (hbody : (decoding r stream).2 = some after)
    (hcount : (decoding r stream).1.length ≤ sizeMax)
    (hturns : (decoding r stream).1.length < env.turns) {target : Option PrinterTarget} {u : υ}
    (hu : w.Fresh u) (h : Relays env target (r,s) q up c') (hquery : q.queriesPrinter = false)
    (hdirect : q.converting = false) :
    ∃ e c1 u', decode (decoding r stream).1 = .ok e ∧
      forward (receiveRequest env.read) env.client env.heap env.turns q up (c',u) =
        (.ok (),(c1,u')) ∧
      w.Carries q.outgoingChunked u' (printerMessage q up.endpoint e) ∧
      ∀ beside history served, proxyHandler env beside target (r,s) u history = some served →
        w.Carries q.outgoingChunked served.upstream (printerMessage q up.endpoint e) := by
  obtain ⟨capacity,hahead⟩ := h.ahead
  have hstart : Countdown R r after (r,s) (decoding r stream).1 :=
    ⟨hbody ▸ Remaining.unread hr hst,by rw [hr.decodedLength, Nat.zero_add]; exact hcount⟩
  obtain ⟨rest,hsplit,hrest,⟨p,hbegins,hinspect⟩,hwhole⟩ :=
    readAhead_keeps (receiveRequest_countdown hread.draws) hstart hahead
  simp only at hsplit hrest hbegins hwhole
  obtain ⟨-,hlength,henvelope⟩ := prepare_ok h.prepared
  obtain ⟨e,he,hrewritten⟩ := upstreamEnvelope_message hquery henvelope
  have hfits : q.received.length ≤ requestPrefixMax :=
    readAhead_fits (receiveRequest_bounded env.read) hahead
  have hattributes : q.info.attributesLength ≤ q.received.length := by
    obtain ⟨e1,he1,hinfo⟩ := inspect_ok_iff.mp hinspect
    rw [decode_eq_ok_iff] at he1
    rw [← he1] at hbegins
    rw [hinfo]
    have hle : e1.attributesLength ≤ e1.encode.length :=
      (congrArg List.length e1.take_encode).ge.trans (List.length_take_le' _ _)
    exact hle.trans hbegins.length_le
  have htaken : TakenIn R r stream q c' rest :=
    ⟨h.chunked,h.contentLength,hsplit,hbody ▸ hrest.remaining,hattributes,
      fun hchunked hoperation => hbody ▸ (hwhole (h.chunked ▸ hchunked) hoperation).2⟩
  have hfixed : q.outgoingChunked = false → q.remaining = rest.length ∧
      q.outgoingLength up.rewritten = (up.rewritten ++ rest).length := fun hout =>
    htaken.remaining_eq hbody hquery (fun h1 h2 => (hwhole h1 h2).1) hout hlength
  have hrestLength : rest.length ≤ (decoding r stream).1.length := by
    rw [hsplit, List.length_append]
    exact Nat.le_add_left _ _
  obtain ⟨c1,u',hrun,hsent⟩ := forward_delivers
    ((receiveRequest_supplies hread).mono (show streamChunk ≤ intMax by decide)) hw hmem hdirect
    hrest hu (hrestLength.trans_lt hturns)
    (show q.outgoingChunked = true → up.rewritten ≠ [] ∧ up.rewritten.length ≤ sizeMax from
      fun _ => ⟨(upstreamEnvelope_ne_nil hquery henvelope).1,
        hrewritten ▸ printerMessage_length he hfits⟩) fun hout => (hfixed hout).1
  have hmessage : printerMessage q up.endpoint (e.withDocument (e.document ++ rest)) =
      up.rewritten ++ rest := by rw [printerMessage_more, ← hrewritten]
  suffices hcarries : w.Carries q.outgoingChunked u' (printerMessage q up.endpoint
      (e.withDocument (e.document ++ rest))) by
    refine ⟨e.withDocument (e.document ++ rest),c1,u',hsplit ▸ decode_append he rest,hrun,hcarries,
      fun beside history served hserved => ?_⟩
    obtain ⟨-,hannounced,hsame⟩ := proxyHandler_uploadEnd hw.records hserved
    rw [h.uploadEnd, hrun] at hannounced hsame
    exact hcarries.of_same hannounced hsame
  have hdraws := receiveRequest_drawsTo hread.draws r (some after)
  rw [hmessage]
  unfold Wire.Carries
  cases hout : q.outgoingChunked with
  | true =>
    rw [hout, if_pos rfl] at hsent
    obtain ⟨chunks,hchunks,hflatten,hsent⟩ := hsent
    rw [if_pos rfl]
    refine ⟨?_,?_⟩
    · have hdata : (if q.converting then up.rewritten.take up.attributesLength else up.rewritten) ≠
          [] := by
        rw [hdirect]
        exact (upstreamEnvelope_ne_nil hquery henvelope).1
      have huploaded := forward_uploads hdraws hw.records env.heap env.turns hout hdata (c',u)
        ⟨⟨rest,hrest.remaining⟩,hu⟩
      rw [hrun] at huploaded
      exact huploaded.1
    · have hall := dechunk_chunks (fun d hd => (hchunks d hd).1) (fun d hd => (hchunks d hd).2) []
      rw [List.append_nil] at hall
      rw [hsent, hall, hflatten]
  | false =>
    rw [hout, if_neg (by decide)] at hsent
    rw [if_neg (by decide)]
    exact ⟨(hfixed hout).2 ▸ hsent.2,hsent.1⟩

end

theorem attentivePrinter_reaches : attentiveWire.Reaches attentivePrinter where
  records := attentivePrinter_records
  init _ _ := rfl
  openRequest _ _ := ⟨rfl,rfl⟩
  write u data hne := ⟨data.length,(u.1,u.2 ++ data),rfl,List.length_pos_of_ne_nil hne,le_refl _,
    by simp [attentiveWire]⟩

def patientEnvironment : Environment Bytes (Option ℤ × Bytes) :=
  { attentiveEnvironment with turns := 65536 }

/-- The handler turns to the printer with the request as it is. -/
def turnsToPrinter (t : PrinterTarget) (request : Bytes) : Bool :=
  match admission (some t) (ippRequest request.length) true,
      readAhead (receiveRequest wholeRead) .unlimited false
        ⟨(ippRequest request.length,request),[],0⟩ with
  | .ok t, (.ok info,s) =>
    let q : Relayed := ⟨info,t,s.buffer,false,request.length⟩
    !q.queriesPrinter && !q.converting && (prepare unlimitedHeaps q).toOption.isSome
  | _, _ => false

theorem relays_of_turnsToPrinter {t : PrinterTarget} {request : Bytes}
    (h : turnsToPrinter t request = true) : ∃ q up c', Relays patientEnvironment (some t)
        (ippRequest request.length,request) q up c' ∧ q.queriesPrinter = false ∧
      q.converting = false := by
  unfold turnsToPrinter at h
  split at h
  · rename_i t' info s hadmission hahead
    simp only [Bool.and_eq_true, Bool.not_eq_true'] at h
    obtain ⟨⟨hquery,hdirect⟩,hprepared⟩ := h
    cases hprepare : prepare unlimitedHeaps ⟨info,t',s.buffer,false,request.length⟩ with
    | error refusal =>
      rw [hprepare] at hprepared
      cases hprepared
    | ok up => exact ⟨⟨info,t',s.buffer,false,request.length⟩,up,s.connection,
        ⟨hadmission,⟨s.capacity,hahead⟩,rfl,rfl,hprepare⟩,hquery,hdirect⟩
  · cases h

/-- A PDF reaches the printer behind its rewritten attributes. -/
theorem proxyHandler_delivers_pdf : ∃ q up c', Relays patientEnvironment (some pdfPrinter)
      (ippRequest pdfRequest.encode.length,pdfRequest.encode) q up c' ∧
    ∃ e c1 u', decode (decoding (ippRequest pdfRequest.encode.length) pdfRequest.encode).1 = .ok e ∧
      forward (receiveRequest wholeRead) attentivePrinter unlimitedHeaps 65536 q up (c',(none,[])) =
        (.ok (),(c1,u')) ∧
      attentiveWire.Carries q.outgoingChunked u' (printerMessage q up.endpoint e) := by
  obtain ⟨q,up,c',h,hquery,hdirect⟩ := relays_of_turnsToPrinter
    (show turnsToPrinter pdfPrinter pdfRequest.encode = true by decide +kernel)
  have hgranted : ¬ patientEnvironment.heap.stream.Refuses := fun ⟨_,hn⟩ => Bool.noConfusion hn
  have hlength : (decoding (ippRequest pdfRequest.encode.length) pdfRequest.encode).1.length <
      65536 := by decide +kernel
  obtain ⟨e,c1,u',he,hrun,hcarries,-⟩ := proxyHandler_delivers wholeRead_delivers attentivePrinter_reaches hgranted ⟨rfl,rfl,rfl,rfl,rfl⟩
    ⟨pdfRequest.encode,rfl,rfl⟩
    (show (decoding (ippRequest pdfRequest.encode.length) pdfRequest.encode).2 = some [] by
      decide +kernel)
    (hlength.le.trans (by decide)) hlength (u := (none,[])) ⟨rfl,rfl⟩ h hquery hdirect
  exact ⟨q,up,c',h,e,c1,u',he,hrun,hcarries⟩

end Espresso.Proxy
