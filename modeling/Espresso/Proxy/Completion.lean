import Espresso.Proxy.Intake
import Espresso.Proxy.Settlement
import Espresso.Raster.Ending

/-! When the printer has received a complete upload: not before the client's body has been
received to its end, whichever way the document takes and wherever it is broken off. -/
namespace Espresso.Proxy
open Callback Codec Http Jobs Raster

open Printer (EspError)

/-! ### What the printer has been sent -/

section
variable {κ υ : Type}

/-- What can be told from the state of a client: the length that has been announced, a negative one
for chunks, and the octets of the body that have been sent. -/
structure Wire (υ : Type) where
  announced : υ → Option ℤ
  body : υ → Bytes

namespace Wire
variable (w : Wire υ)

def Fresh (u : υ) : Prop := w.announced u = none ∧ w.body u = []

/-- The client announces the length it is given, sends the octets it takes and nothing else. -/
structure Records (client : HttpClient υ) : Prop where
  init : ∀ config u, w.Fresh u → w.Fresh (client.init config u).2
  openRequest : ∀ n u, w.Fresh u → w.body (client.openRequest n u).2 = [] ∧
    ∀ m ∈ w.announced (client.openRequest n u).2, m = n
  write : Transmits client.write w.body
  announced_write : ∀ u data, w.announced (client.write u data).2 = w.announced u
  fetchHeaders : ∀ u, w.announced (client.fetchHeaders u).2 = w.announced u ∧
    w.body (client.fetchHeaders u).2 = w.body u
  read : ∀ n u, w.announced (client.read n u).2 = w.announced u ∧
    w.body (client.read n u).2 = w.body u

/-- The printer has received a whole body: as many octets as announced, or the last chunk. -/
def Complete (u : υ) : Prop :=
  ∃ n ∈ w.announced u, if n < 0 then (dechunk (w.body u)).2 ≠ none else n ≤ (w.body u).length

def Announces (n : ℤ) (u : υ) : Prop := ∀ m ∈ w.announced u, m = n

/-- Between two chunks. -/
def Chunking (u : υ) : Prop := w.Announces (-1) u ∧ Between (w.body u)

/-- The last chunk has not been begun. -/
def Halted (u : υ) : Prop := w.Announces (-1) u ∧ Unended (w.body u)

/-- The last chunk has not been begun before the end that `E` tells of. -/
def Uploaded (E : κ → Prop) (st : κ × υ) : Prop :=
  w.Announces (-1) st.2 ∧ (Unended (w.body st.2) ∨ E st.1 ∧ Ending (w.body st.2))

variable {w} {client : HttpClient υ} {E : κ → Prop}

theorem Chunking.halted {u : υ} (h : w.Chunking u) : w.Halted u := ⟨h.1,h.2.unended⟩

theorem Records.keeps_announces (h : w.Records client) (n : ℤ) :
    Keeps client.write (w.Announces n) (w.Announces n) := by
  intro u data _ hu
  have hkept : w.Announces n (client.write u data).2 := by
    unfold Announces
    rw [h.announced_write]
    exact hu
  split <;> exact hkept

theorem Records.chunk (h : w.Records client) {u : υ} (hu : w.Chunking u) {data : Bytes}
    (hne : data ≠ []) : if (ippStreamWriteHttpChunk client.write u data).1 then
      w.Chunking (ippStreamWriteHttpChunk client.write u data).2
    else w.Halted (ippStreamWriteHttpChunk client.write u data).2 := by
  have hannounces := ippStreamWriteHttpChunk_keeps (h.keeps_announces (-1)) hu.1 data
  have hbody := ippStreamWriteHttpChunk_between h.write hu.2 hne
  split
  · rename_i hok
    rw [if_pos hok] at hbody
    exact ⟨hannounces,hbody⟩
  · rename_i hfailed
    rw [if_neg hfailed] at hbody
    exact ⟨hannounces,hbody⟩

theorem Records.last (h : w.Records client) {u : υ} (hu : w.Chunking u) {c : κ} (hc : E c) :
    w.Uploaded E (c,(ippStreamWriteHttpChunk client.write u []).2) :=
  ⟨ippStreamWriteHttpChunk_keeps (h.keeps_announces (-1)) hu.1 [],
    .inr ⟨hc,ippStreamWriteHttpChunk_last h.write hu.2⟩⟩

theorem Halted.uploaded {c : κ} {u : υ} (h : w.Halted u) : w.Uploaded E (c,u) := ⟨h.1,.inl h.2⟩

theorem Chunking.uploaded {c : κ} {u : υ} (h : w.Chunking u) : w.Uploaded E (c,u) :=
  h.halted.uploaded

end Wire

/-! ### Chunks on their way -/

section
variable {receive : ReadFn κ} {client : HttpClient υ} {w : Wire υ} {R : κ → Bytes → Prop}
  {E : κ → Prop} (hreceive : DrawsTo receive R E) (hw : w.Records client)
include hw

/-- The client's body is read as it should be, and the upload is between two chunks. -/
abbrev Relaying (R : κ → Bytes → Prop) (w : Wire υ) (st : κ × υ) : Prop :=
  (∃ b, R st.1 b) ∧ w.Chunking st.2

theorem writeUpstreamChunk_uploads {data : Bytes} (hne : data ≠ []) :
    Run.Triple (Relaying R w) (writeUpstreamChunk client data) (fun _ => Relaying R w)
      (w.Uploaded E) := by
  rintro ⟨c,u⟩ ⟨hc,hu⟩
  have hstep := hw.chunk hu hne
  unfold writeUpstreamChunk
  simp only
  cases hrun : ippStreamWriteHttpChunk client.write u data with
  | mk ok u' =>
    rw [hrun] at hstep
    cases ok with
    | true => exact ⟨hc,hstep⟩
    | false => exact Wire.Halted.uploaded hstep

/-- The last chunk, once the end has been found. -/
theorem writeUpstreamChunk_last : Run.Triple (fun st => E st.1 ∧ w.Chunking st.2)
    (writeUpstreamChunk client []) (fun _ => w.Uploaded E) (w.Uploaded E) := by
  rintro ⟨c,u⟩ ⟨hc,hu⟩
  have hstep := hw.last hu hc
  unfold writeUpstreamChunk
  simp only
  cases hrun : ippStreamWriteHttpChunk client.write u [] with
  | mk ok u' =>
    rw [hrun] at hstep
    cases ok <;> exact hstep

include hreceive

theorem streamChunks_uploads (turns : ℕ) : Run.Triple (Relaying R w)
    (streamChunks receive client turns) (fun _ => w.Uploaded E) (w.Uploaded E) := by
  induction turns with
  | zero => exact .unfinished fun st h => h.2.uploaded
  | succ turns ih =>
    rintro ⟨c,u⟩ ⟨⟨b,hb⟩,hu⟩
    rw [streamChunks]
    simp only
    cases hread : receive c streamChunk with
    | mk answer c' =>
      cases answer with
      | none =>
        change w.Uploaded E (c',u)
        exact hu.uploaded
      | some d =>
        obtain ⟨-,b',-,hc',hend⟩ := hreceive c b streamChunk d c' hb (by decide) hread
        cases d with
        | nil => exact writeUpstreamChunk_last hw (c',u) ⟨(hend rfl).2,hu⟩
        | cons x d =>
          have hstep := writeUpstreamChunk_uploads (E := E) (R := R) hw (List.cons_ne_nil x d)
          exact hstep.bind (fun _ => ih) (c',u) ⟨⟨b',hc'⟩,hu⟩

theorem streamChunkedRequest_uploads (mem : Memory) (turns : ℕ) : Run.Triple (Relaying R w)
    (streamChunkedRequest receive client mem turns) (fun _ => w.Uploaded E) (w.Uploaded E) :=
  .ite (fun _ => .fail fun _ h => h.2.uploaded) fun _ => streamChunks_uploads hreceive hw turns

omit hw in
/-- What has been received of the document is read before the rest of it. -/
theorem rasterDocumentRead_drawsTo : DrawsTo (rasterDocumentRead receive)
    (fun st b => ∃ rest, b = st.1 ++ rest ∧ R st.2 rest) (fun st => E st.2) := by
  rintro ⟨received,c⟩ b n d ⟨received',c'⟩ ⟨rest,rfl,hc⟩ hn hread
  unfold rasterDocumentRead at hread
  simp only at hread hc ⊢
  split at hread
  · rename_i hne
    split at hread
    · cases hread
      refine ⟨List.length_take_le _ _,received.drop n ++ rest,?_,⟨rest,rfl,hc⟩,fun hnil => ?_⟩
      · rw [← List.append_assoc, List.take_append_drop]
      · rcases List.take_eq_nil_iff.mp hnil with h0 | hnil
        · omega
        · exact absurd hnil hne
    · cases hread
  · rename_i hempty
    obtain rfl := not_not.mp hempty
    cases hread' : receive c n with
    | mk answer c1 =>
      rw [hread'] at hread
      cases hread
      obtain ⟨hle,b',hb,hc',hend⟩ := hreceive c rest n d c1 hc hn hread'
      exact ⟨hle,b',hb,⟨b',rfl,hc'⟩,hend⟩

omit hreceive in
theorem rasterDocumentWrite_keeps : Keeps (rasterDocumentWrite client) w.Chunking w.Halted := by
  intro u data hne hu
  have hstep := hw.chunk hu hne
  have hpos := List.length_pos_of_ne_nil hne
  unfold rasterDocumentWrite
  by_cases hlong : intMax < data.length
  · rw [if_pos hlong, if_pos (.inl (show (-1 : ℤ) ≤ 0 by decide))]
    exact hu.halted
  rw [if_neg hlong]
  cases hrun : ippStreamWriteHttpChunk client.write u data with
  | mk ok u' =>
    rw [hrun] at hstep
    cases ok with
    | true =>
      rw [if_neg (by simp only [not_or, not_le, not_lt]; omega)]
      exact hstep
    | false =>
      rw [if_pos (.inl (show (-1 : ℤ) ≤ 0 by decide))]
      exact hstep

theorem streamConvertedDocument_uploads (turns : ℕ) (received : Bytes) :
    Run.Triple (Relaying R w) (streamConvertedDocument receive client turns received)
      (fun _ => w.Uploaded E) (w.Uploaded E) := by
  rintro ⟨c,u⟩ ⟨⟨b,hb⟩,hu⟩
  have hrun := espressoPwgToUrf_ending (rasterDocumentRead_drawsTo hreceive)
    (rasterDocumentWrite_keeps hw) (fun _ => Wire.Chunking.halted) turns ((received,c),u)
    ⟨⟨received ++ b,b,rfl,hb⟩,hu⟩
  unfold streamConvertedDocument
  simp only
  cases hresult : espressoPwgToUrf (rasterDocumentRead receive) (rasterDocumentWrite client) turns
      ((received,c),u) with
  | mk o st =>
    obtain ⟨⟨p,c'⟩,u'⟩ := st
    rw [hresult] at hrun
    cases o with
    | unfinished => exact Wire.Halted.uploaded hrun
    | error e => exact Wire.Halted.uploaded hrun
    | ok _ =>
      have hlast := hw.last hrun.2 hrun.1
      cases hwrite : ippStreamWriteHttpChunk client.write u' [] with
      | mk ok u'' =>
        rw [hwrite] at hlast
        simp only [hwrite]
        cases ok <;> exact hlast

end

/-! ### A length in front -/

/-- Whatever the callbacks answer: if as many octets as were to be copied have been sent, they have
been read before. -/
theorem copyRemaining_counts {σ τ : Type} {read : ReadFn σ} {write : WriteFn τ}
    {R : σ → Bytes → Prop} {E : σ → Prop} {taken : τ → Bytes} (hread : DrawsTo read R E)
    (hwrite : Transmits write taken) {chunkSize : ℕ} (hchunk : 0 < chunkSize) (remaining : ℕ)
    {s : σ} {b : Bytes} (hs : R s b) (t : τ) :
    ∃ sent, taken (copyRemaining read write chunkSize remaining (s,t)).2.2 = taken t ++ sent ∧
      (remaining ≤ sent.length → ∃ d rest, b = d ++ rest ∧ d.length = remaining ∧
        R (copyRemaining read write chunkSize remaining (s,t)).2.1 rest) := by
  induction remaining using Nat.strong_induction_on generalizing s b t with
  | _ remaining ih =>
    rw [copyRemaining]
    by_cases hdone : remaining = 0
    · rw [if_pos hdone]
      exact ⟨[],by simp,fun _ => ⟨[],b,rfl,hdone.symm,hs⟩⟩
    rw [if_neg hdone]
    generalize hwanted : min remaining chunkSize = wanted
    simp only
    have hstop : ∀ s' : σ, ∃ sent, taken t = taken t ++ sent ∧
        (remaining ≤ sent.length → ∃ d rest, b = d ++ rest ∧ d.length = remaining ∧ R s' rest) :=
      fun s' => ⟨[],(List.append_nil _).symm,fun h => absurd (Nat.le_zero.mp h) hdone⟩
    cases hrun : read s wanted with
    | mk answer s' =>
      cases answer with
      | none => exact hstop s'
      | some d =>
        simp only
        by_cases hbad : d = [] ∨ wanted < d.length
        · rw [if_pos hbad]
          exact hstop s'
        rw [if_neg hbad]
        obtain ⟨hne,hfits⟩ := not_or.mp hbad
        have hpos := List.length_pos_of_ne_nil hne
        obtain ⟨-,rest,rfl,hs',-⟩ := hread s b wanted d s' hs (by omega) hrun
        obtain ⟨n,hn,htaken,hall⟩ := writeAll_transmits hwrite t d
        cases hw : writeAll write t d with
        | mk ok t' =>
          rw [hw] at htaken hall
          cases ok with
          | false =>
            refine ⟨d.take n,htaken,fun hlength => ⟨d,rest,rfl,?_,hs'⟩⟩
            rw [List.length_take] at hlength
            omega
          | true =>
            rw [hall rfl, List.take_length] at htaken
            obtain ⟨sent,htaken',hcount⟩ := ih (remaining - d.length) (by omega) hs' t'
            refine ⟨d ++ sent,by rw [htaken', htaken, List.append_assoc],fun hlength => ?_⟩
            rw [List.length_append] at hlength
            obtain ⟨d',rest',rfl,hd',hrest'⟩ := hcount (by omega)
            refine ⟨d ++ d',rest',by rw [List.append_assoc],?_,hrest'⟩
            rw [List.length_append]
            omega

theorem copyRemaining_keeps {σ τ : Type} {read : ReadFn σ} {write : WriteFn τ} {P : τ → Prop}
    (hwrite : Keeps write P P) (chunkSize remaining : ℕ) (s : σ) {t : τ} (ht : P t) :
    P (copyRemaining read write chunkSize remaining (s,t)).2.2 := by
  induction remaining using Nat.strong_induction_on generalizing s t with
  | _ remaining ih =>
    rw [copyRemaining]
    by_cases hdone : remaining = 0
    · rw [if_pos hdone]
      exact ht
    rw [if_neg hdone]
    simp only
    split
    · exact ht
    rename_i d s' hread
    by_cases hbad : d = [] ∨ min remaining chunkSize < d.length
    · rw [if_pos hbad]
      exact ht
    rw [if_neg hbad]
    have hpos := List.length_pos_of_ne_nil (not_or.mp hbad).1
    have hkept := hwrite.writeAll ht d
    split
    · rename_i t' hw
      rw [hw] at hkept
      exact hkept
    · rename_i t' hw
      rw [hw] at hkept
      exact ih _ (by omega) s' hkept

/-! ### The upload as a whole -/

section
variable {receive : ReadFn κ} {client : HttpClient υ} {w : Wire υ} {R : κ → Bytes → Prop}
  {E : κ → Prop} (hreceive : DrawsTo receive R E) (hw : w.Records client) (heap : Heaps) (turns : ℕ)
  {q : Relayed} {up : Upload}

theorem failing_triple {x : Run (κ × υ) EspError Unit} {P Q F : κ × υ → Prop}
    (h : Run.Triple P x (fun _ => Q) F) : Run.Triple P (failing x) (fun _ => Q) F := by
  intro st hst
  have hx := h st hst
  unfold failing
  cases hrun : x st with
  | mk o st' =>
    rw [hrun] at hx
    cases o <;> exact hx

theorem failingDocument_triple {x : Run (κ × υ) RasterError Unit} {P Q F : κ × υ → Prop}
    (h : Run.Triple P x (fun _ => Q) F) : Run.Triple P (failingDocument x) (fun _ => Q) F := by
  intro st hst
  have hx := h st hst
  unfold failingDocument
  cases hrun : x st with
  | mk o st' =>
    rw [hrun] at hx
    cases o with
    | error e => cases e <;> exact hx
    | ok _ => exact hx
    | unfinished => exact hx

/-- The length that is announced. -/
def Relayed.announces (q : Relayed) (rewritten : Bytes) : ℤ :=
  if q.outgoingChunked then -1 else q.outgoingLength rewritten

/-- Nothing but a length has been sent. -/
def Announced (w : Wire υ) (n : ℤ) (u : υ) : Prop := w.Announces n u ∧ w.body u = []

include hw in
theorem openClient_announces (F : κ → Prop) :
    Run.Triple (fun st => F st.1 ∧ w.Fresh st.2) (openClient client q up)
      (fun _ st => F st.1 ∧ Announced w (q.announces up.rewritten) st.2)
      (fun st => F st.1 ∧ Announced w (q.announces up.rewritten) st.2) := by
  rintro ⟨c,u⟩ ⟨hc,hu⟩
  have hinit := hw.init (clientConfig q up.endpoint) u hu
  unfold openClient
  simp only
  cases hrun : client.init (clientConfig q up.endpoint) u with
  | mk ok u' =>
    rw [hrun] at hinit
    cases ok with
    | false =>
      refine ⟨hc,?_,hinit.2⟩
      rw [Wire.Announces, hinit.1]
      intro n hn
      cases hn
    | true =>
      obtain ⟨hbody,hannounced⟩ := hw.openRequest (q.announces up.rewritten) u' hinit
      simp only
      rw [← Relayed.announces]
      cases hopen : client.openRequest (q.announces up.rewritten) u' with
      | mk e u'' =>
        rw [hopen] at hbody hannounced
        cases e <;> exact ⟨hc,hannounced,hbody⟩

include hreceive hw in
/-- A chunked upload: the last chunk is not begun before the end of the body has been found. -/
theorem forward_uploads (hchunked : q.outgoingChunked = true)
    (hdata : (if q.converting then up.rewritten.take up.attributesLength else up.rewritten) ≠ []) :
    Run.Triple (fun st => (∃ b, R st.1 b) ∧ w.Fresh st.2) (forward receive client heap turns q up)
      (fun _ => w.Uploaded E) (w.Uploaded E) := by
  have hannounces : q.announces up.rewritten = -1 := if_pos hchunked
  have hopened : ∀ st : κ × υ, (∃ b, R st.1 b) ∧ Announced w (q.announces up.rewritten) st.2 →
      Relaying R w st := by
    rintro st ⟨hb,hn,hbody⟩
    exact ⟨hb,hannounces ▸ hn,by rw [hbody]; exact Between.nil⟩
  have hopen : Run.Triple (fun st => (∃ b, R st.1 b) ∧ w.Fresh st.2) (openClient client q up)
      (fun _ => Relaying R w) (w.Uploaded E) :=
    (openClient_announces hw fun c => ∃ b, R c b).weaken (fun _ h => h) (fun _ => hopened)
      fun st h => (hopened st h).2.uploaded
  refine hopen.bind fun _ => ?_
  refine Run.Triple.bind (Q := fun _ => Relaying R w) (failing_triple ?_) fun _ => ?_
  · unfold writeEnvelope
    simp only [if_pos hchunked]
    exact writeUpstreamChunk_uploads hw hdata
  · unfold streamDocument
    refine .ite (fun _ => ?_) fun _ => ?_
    · exact failingDocument_triple (streamConvertedDocument_uploads hreceive hw turns _)
    · rw [if_pos hchunked]
      exact failing_triple (streamChunkedRequest_uploads hreceive hw _ turns)

/-- Where the rest of the body is as long as `b` says and the announced octets have been sent, `b`
has been read up to that length. -/
def Counted (w : Wire υ) (R : κ → Bytes → Prop) (b : Bytes) (n : ℤ) (remaining : ℕ) (st : κ × υ) :
    Prop :=
  w.Announces n st.2 ∧ (n ≤ (w.body st.2).length →
    ∃ d rest, b = d ++ rest ∧ d.length = remaining ∧ R st.1 rest)

/-- Before the rest of the body is read, an upload is complete only if there is no rest. -/
theorem Counted.unread {b : Bytes} {n : ℤ} {remaining : ℕ} {st : κ × υ} (hb : R st.1 b)
    (hn : w.Announces n st.2) (hless : (w.body st.2).length + remaining ≤ n) :
    Counted w R b n remaining st :=
  ⟨hn,fun hlength => ⟨[],b,rfl,by rw [List.length_nil]; omega,hb⟩⟩

include hreceive hw in
theorem streamRemainingRequest_counts (mem : Memory) {remaining : ℕ} {b : Bytes} {n : ℤ} {c : κ}
    {u : υ} (hb : R c b) (hn : w.Announces n u) (hlength : n = (w.body u).length + remaining) :
    Counted w R b n remaining (streamRemainingRequest receive client mem remaining (c,u)).2 := by
  have hstay : Counted w R b n remaining (c,u) := .unread hb hn hlength.ge
  have hcopy : Counted w R b n remaining
      (ippStreamCopy receive client.write mem remaining streamChunk (c,u)).2 := by
    rw [ippStreamCopy, if_neg (by decide)]
    by_cases hzero : remaining = 0
    · rw [if_pos hzero]
      exact hstay
    rw [if_neg hzero]
    simp only
    split
    · exact hstay
    · obtain ⟨sent,hsent,hcount⟩ := copyRemaining_counts hreceive hw.write
        (lt_min (by decide) (Nat.pos_of_ne_zero hzero) : 0 < min streamChunk remaining) remaining hb u
      refine ⟨copyRemaining_keeps (hw.keeps_announces n) _ remaining c hn,fun hle => hcount ?_⟩
      rw [hsent, List.length_append, hlength, Nat.cast_add] at hle
      exact_mod_cast (add_le_add_iff_left _).mp hle
  unfold streamRemainingRequest
  split <;> rename_i heq <;> rw [heq] at hcopy <;> exact hcopy

omit hreceive hw in
/-- A length in front is not announced for a conversion. -/
theorem converting_of_fixed (hfixed : q.outgoingChunked = false) : q.converting = false :=
  (Bool.or_eq_false_iff.mp hfixed).1

omit hreceive hw in
theorem writeEnvelope_fixed (hfixed : q.outgoingChunked = false) :
    (writeEnvelope client q up : Run (κ × υ) EspError Unit) =
      writeUpstream client up.rewritten := by
  unfold writeEnvelope
  rw [hfixed, converting_of_fixed hfixed]
  rfl

omit hreceive hw in
theorem streamDocument_fixed (hfixed : q.outgoingChunked = false) :
    streamDocument receive client heap turns q =
      failing (streamRemainingRequest receive client heap.stream q.remaining) := by
  unfold streamDocument
  rw [hfixed, converting_of_fixed hfixed]
  rfl

omit hreceive hw in
theorem streamRemainingRequest_zero (mem : Memory) (st : κ × υ) :
    streamRemainingRequest receive client mem 0 st = (.ok (),st) := by
  rw [streamRemainingRequest, ippStreamCopy, if_neg (by decide), if_pos rfl]

include hreceive hw in
/-- An upload with a length in front: it is complete only if the rest of the body has been read. -/
theorem forward_counts (hfixed : q.outgoingChunked = false)
    (hlength : q.outgoingLength up.rewritten = up.rewritten.length + q.remaining) {b : Bytes} :
    Run.Triple (fun st => R st.1 b ∧ w.Fresh st.2) (forward receive client heap turns q up)
      (fun _ => Counted w R b (q.outgoingLength up.rewritten) q.remaining)
      (Counted w R b (q.outgoingLength up.rewritten) q.remaining) := by
  have hannounces : q.announces up.rewritten = q.outgoingLength up.rewritten :=
    if_neg (by rw [hfixed]; decide)
  have hopen : Run.Triple (fun st => R st.1 b ∧ w.Fresh st.2) (openClient client q up)
      (fun _ st => R st.1 b ∧ Announced w (q.outgoingLength up.rewritten) st.2)
      (Counted w R b (q.outgoingLength up.rewritten) q.remaining) := by
    refine (openClient_announces hw fun c => R c b).weaken (fun _ h => h)
      (fun _ st h => hannounces ▸ h) ?_
    rintro st ⟨hb,hn,hbody⟩
    rw [hannounces] at hn
    refine .unread hb hn ?_
    rw [hbody, hlength, List.length_nil]
    omega
  refine hopen.bind fun _ => ?_
  have hwrite : Run.Triple (fun st => R st.1 b ∧ Announced w (q.outgoingLength up.rewritten) st.2)
      (writeEnvelope client q up) (fun _ st => R st.1 b ∧
        w.Announces (q.outgoingLength up.rewritten) st.2 ∧ w.body st.2 = up.rewritten)
      (Counted w R b (q.outgoingLength up.rewritten) q.remaining) := by
    rw [writeEnvelope_fixed hfixed]
    rintro ⟨c,u⟩ ⟨hb,hn,hbody⟩
    obtain ⟨k,hk,htaken,hall⟩ := writeAll_transmits hw.write u up.rewritten
    have hkept := (hw.keeps_announces (q.outgoingLength up.rewritten)).writeAll hn up.rewritten
    rw [ite_self] at hkept
    rw [hbody, List.nil_append] at htaken
    unfold writeUpstream
    simp only
    cases hrun : writeAll client.write u up.rewritten with
    | mk ok u' =>
      rw [hrun] at htaken hall hkept
      cases ok with
      | true =>
        rw [hall rfl, List.take_length] at htaken
        exact ⟨hb,hkept,htaken⟩
      | false =>
        refine .unread hb hkept ?_
        simp only at htaken
        rw [htaken, hlength, List.length_take]
        omega
  have hwritten := failing_triple hwrite
  refine hwritten.bind fun _ => ?_
  rw [streamDocument_fixed heap turns hfixed]
  refine failing_triple ?_
  rintro ⟨c,u⟩ ⟨hb,hn,hbody⟩
  have hcounts := streamRemainingRequest_counts hreceive hw heap.stream hb hn
    (show q.outgoingLength up.rewritten = (w.body u).length + q.remaining by rw [hlength, hbody])
  cases hrun : streamRemainingRequest receive client heap.stream q.remaining (c,u) with
  | mk o st =>
    rw [hrun] at hcounts
    cases o <;> exact hcounts

omit hreceive hw in
/-- Where nothing remains, the client's connection is left alone. -/
theorem forward_idle (hfixed : q.outgoingChunked = false) (hnone : q.remaining = 0) (c : κ) :
    Run.Triple (fun st => st.1 = c) (forward receive client heap turns q up)
      (fun _ st => st.1 = c) (fun st => st.1 = c) := by
  have hopen : Run.Triple (fun st : κ × υ => st.1 = c) (openClient client q up)
      (fun _ st => st.1 = c) (fun st => st.1 = c) := by
    rintro ⟨c',u⟩ hc
    unfold openClient
    simp only
    cases client.init (clientConfig q up.endpoint) u with
    | mk ok u' =>
      cases ok with
      | false => exact hc
      | true =>
        rw [hfixed]
        cases hrun : client.openRequest (q.outgoingLength up.rewritten) u' with
        | mk e u'' =>
          simp only [Bool.false_eq_true, if_false, hrun]
          cases e <;> exact hc
  have hwrite : Run.Triple (fun st : κ × υ => st.1 = c) (writeEnvelope client q up)
      (fun _ st => st.1 = c) (fun st => st.1 = c) := by
    rw [writeEnvelope_fixed hfixed]
    rintro ⟨c',u⟩ hc
    unfold writeUpstream
    simp only
    cases writeAll client.write u up.rewritten with
    | mk ok u' => cases ok <;> exact hc
  have hwritten := failing_triple hwrite
  refine hopen.bind fun _ => hwritten.bind fun _ => ?_
  rw [streamDocument_fixed heap turns hfixed, hnone]
  refine failing_triple ?_
  intro st hc
  rw [streamRemainingRequest_zero]
  exact hc

end

end

/-- The envelope of a request with a document is not empty. -/
theorem upstreamEnvelope_ne_nil {heap : Heaps} {q : Relayed} {endpoint : TransportEndpoint}
    {rewritten : Bytes} {attributesLength : ℕ} (hquery : q.queriesPrinter = false)
    (h : upstreamEnvelope heap q endpoint = .ok (rewritten,attributesLength)) :
    rewritten ≠ [] ∧ rewritten.take attributesLength ≠ [] := by
  unfold upstreamEnvelope at h
  simp only [hquery, Bool.not_false, if_true] at h
  split at h
  · rename_i rewritten' k hrewrite
    cases h
    obtain ⟨e,e',-,-,hk,-⟩ := rewriteRequest_ok hrewrite
    rw [e'.attributesLength_eq] at hk
    obtain ⟨n,rfl⟩ : ∃ n, attributesLength = n + 1 := ⟨attributesLength - 1,by omega⟩
    exact ⟨List.cons_ne_nil _ _,List.cons_ne_nil _ _⟩
  · split at h <;> cases h

/-! ### The end of an upload -/

section
variable {σ υ : Type} {env : Environment σ υ} {R : σ → Bytes → Prop} {w : Wire υ} {r : Request}
  {stream : Bytes}

/-- The printer takes the upload for complete only if the client's body is, and is sent no part of
the last chunk before. -/
structure Wire.Truthful (w : Wire υ) (R : σ → Bytes → Prop) (tail : Option Bytes)
    (st : (Request × σ) × υ) : Prop where
  complete : w.Complete st.2 → BodyReceived R tail st.1
  last : ∀ n ∈ w.announced st.2, n < 0 →
    Unended (w.body st.2) ∨ BodyReceived R tail st.1 ∧ Ending (w.body st.2)

theorem Wire.Fresh.truthful {tail : Option Bytes} {c : Request × σ} {u : υ} (h : w.Fresh u) :
    w.Truthful R tail (c,u) := by
  refine ⟨?_,?_⟩
  · rintro ⟨n,hn,-⟩
    rw [h.1] at hn
    cases hn
  · intro n hn
    rw [h.1] at hn
    cases hn

theorem Wire.Uploaded.truthful {tail : Option Bytes} {st : (Request × σ) × υ}
    (h : w.Uploaded (BodyReceived R tail) st) : w.Truthful R tail st := by
  refine ⟨?_,fun n hn _ => h.2⟩
  rintro ⟨n,hn,hcomplete⟩
  rw [h.1 n hn, if_pos (by decide)] at hcomplete
  rcases h.2 with hunended | ⟨hbody,-⟩
  · exact absurd hunended.dechunk_eq_none hcomplete
  · exact hbody

/-- What has been taken in of a request, and what is still to come of its body. -/
structure TakenIn (R : σ → Bytes → Prop) (r : Request) (stream : Bytes) (q : Relayed)
    (c : Request × σ) (rest : Bytes) : Prop where
  chunked : q.chunked = r.chunked
  contentLength : q.contentLength = r.contentLength
  body : (decoding r stream).1 = q.received ++ rest
  remaining : Remaining R r (decoding r stream).2 c rest
  attributes : q.info.attributesLength ≤ q.received.length
  whole : q.chunked = true → isDocumentOperation q.info.operationId = false →
    BodyReceived R (decoding r stream).2 c

theorem decoding_fixed (stream : Bytes) (hfixed : r.chunked = false) :
    (decoding r stream).1.length ≤ r.contentLength ∧ (r.contentLength ≤ (decoding r stream).1.length → (decoding r stream).2 ≠ none) := by
  unfold decoding
  rw [if_neg (by rw [hfixed]; decide)]
  simp only [List.length_take]
  refine ⟨min_le_left _ _,fun hle => ?_⟩
  rw [if_pos (by omega)]
  exact nofun

/-- As much as was announced has been read of a body with a length in front: that was all of it. -/
theorem TakenIn.bodyReceived {q : Relayed} {c c' : Request × σ} {rest d rest' : Bytes}
    (h : TakenIn R r stream q c rest) (hfixed : r.chunked = false) (hrest : rest = d ++ rest')
    (hlength : q.contentLength ≤ q.received.length + d.length)
    (hc' : Remaining R r (decoding r stream).2 c' rest') :
    BodyReceived R (decoding r stream).2 c' := by
  obtain ⟨hle,htail⟩ := decoding_fixed stream hfixed
  have hbody := h.body
  rw [hrest] at hbody
  rw [hbody, List.length_append, List.length_append, ← h.contentLength] at hle htail
  obtain rfl : rest' = [] := List.eq_nil_of_length_eq_zero (by omega)
  exact hc'.bodyReceived hfixed (htail (by omega))

theorem Relayed.remaining_eq {q : Relayed} {rewritten : Bytes} (hfixed : q.outgoingChunked = false)
    (hlength : q.lengthRefused rewritten = false) (hle : q.replacedLength ≤ q.bodyLength) :
    q.remaining = q.bodyLength - q.replacedLength ∧
      q.outgoingLength rewritten = rewritten.length + q.remaining := by
  unfold Relayed.lengthRefused at hlength
  rw [hfixed] at hlength
  simp only [Bool.not_false, Bool.true_and, Bool.or_eq_false_iff, decide_eq_false_iff_not,
    not_lt] at hlength
  unfold Relayed.outgoingLength at hlength ⊢
  unfold Relayed.remaining
  have hmax := hlength.2
  change _ ≤ (2147483647 : ℤ) at hmax
  omega

/-- What has been taken in is no more than the body. -/
theorem TakenIn.replaced_le {q : Relayed} {c : Request × σ} {rest : Bytes}
    (h : TakenIn R r stream q c rest) : q.replacedLength ≤ q.bodyLength := by
  unfold Relayed.replacedLength
  split
  · exact le_refl _
  unfold Relayed.bodyLength
  split
  · exact le_refl _
  · rename_i hfixed
    rw [h.chunked, Bool.not_eq_true] at hfixed
    have hle := (decoding_fixed stream hfixed).1
    rw [h.body, List.length_append, ← h.contentLength] at hle
    omega

/-- Where the upload has a length in front and nothing remains to be read, the body has been
received already. -/
theorem TakenIn.received {q : Relayed} {c : Request × σ} {rest : Bytes}
    (h : TakenIn R r stream q c rest) (hrelay : q.plan.action ≠ .localStatus)
    (hfixed : q.outgoingChunked = false) (hnone : q.bodyLength - q.replacedLength = 0) :
    BodyReceived R (decoding r stream).2 c := by
  have hdocument : q.plan.documentOperation = isDocumentOperation q.info.operationId :=
    plan_documentOperation _ _ _
  by_cases hchunked : q.chunked = true
  · refine h.whole hchunked ?_
    have hno := (Bool.or_eq_false_iff.mp hfixed).2
    rw [hchunked, Bool.true_and, hdocument] at hno
    exact hno
  rw [Bool.not_eq_true] at hchunked
  have hbodyLength : q.bodyLength = q.contentLength := if_neg (by rw [hchunked]; decide)
  refine h.bodyReceived (h.chunked ▸ hchunked) (List.nil_append rest).symm ?_ h.remaining
  rw [List.length_nil, Nat.add_zero]
  by_cases hquery : q.queriesPrinter = true
  · obtain ⟨-,-,hfits⟩ := plan_relay_bodyFits hrelay
    have hid : q.info.operationId = Operation.getPrinterAttributes := of_decide_eq_true hquery
    have heq := hfits (by rw [hid]; decide) (by rw [hid]; decide)
    rw [← hbodyLength, heq]
    exact h.attributes
  · have hreplaced : q.replacedLength = q.received.length := if_neg hquery
    omega

theorem forward_truthful (hread : Draws env.read R) (hw : w.Records env.client) {q : Relayed}
    {c : Request × σ} {u : υ} {rest : Bytes} {up : Upload} (h : TakenIn R r stream q c rest)
    (hu : w.Fresh u) (hprepare : prepare env.heap q = .ok up) :
    w.Truthful R (decoding r stream).2
      (forward (receiveRequest env.read) env.client env.heap env.turns q up (c,u)).2 := by
  obtain ⟨hrelay,hlength,henvelope⟩ := prepare_ok hprepare
  have hreceive := receiveRequest_drawsTo hread r (decoding r stream).2
  cases hchunked : q.outgoingChunked with
  | true =>
    have hdocument : isDocumentOperation q.info.operationId = true := by
      rw [← plan_documentOperation q.info q.target q.bodyLength]
      unfold Relayed.outgoingChunked Relayed.converting at hchunked
      rcases Bool.or_eq_true_iff.mp hchunked with hchunked | hchunked
      · exact (Bool.and_eq_true_iff.mp hchunked).2
      · exact (Bool.and_eq_true_iff.mp hchunked).2
    have hquery : q.queriesPrinter = false := by
      refine decide_eq_false fun hid => ?_
      rw [hid] at hdocument
      exact absurd hdocument (by decide)
    obtain ⟨hne,htake⟩ := upstreamEnvelope_ne_nil hquery henvelope
    have hdata : (if q.converting then up.rewritten.take up.attributesLength else up.rewritten) ≠
        [] := by
      split
      · exact htake
      · exact hne
    have hrun := forward_uploads hreceive hw env.heap env.turns hchunked hdata (c,u)
      ⟨⟨rest,h.remaining⟩,hu⟩
    cases hresult : forward (receiveRequest env.read) env.client env.heap env.turns q up (c,u) with
    | mk o st =>
      rw [hresult] at hrun
      cases o <;> exact Wire.Uploaded.truthful hrun
  | false =>
    obtain ⟨hremaining,hsum⟩ := Relayed.remaining_eq hchunked hlength h.replaced_le
    have hrun := forward_counts hreceive hw env.heap env.turns hchunked hsum (b := rest) (c,u)
      ⟨h.remaining,hu⟩
    have hidle : q.remaining = 0 → Run.Triple (fun st => st.1 = c)
        (forward (receiveRequest env.read) env.client env.heap env.turns q up)
        (fun _ st => st.1 = c) (fun st => st.1 = c) :=
      fun hnone => forward_idle env.heap env.turns hchunked hnone c
    cases hresult : forward (receiveRequest env.read) env.client env.heap env.turns q up (c,u) with
    | mk o st =>
      have hcounted : Counted w (Remaining R r (decoding r stream).2) rest
          (q.outgoingLength up.rewritten) q.remaining st := by
        rw [hresult] at hrun
        cases o <;> exact hrun
      have hsame : q.remaining = 0 → st.1 = c := by
        intro hnone
        have hstay := hidle hnone (c,u) rfl
        rw [hresult] at hstay
        cases o <;> exact hstay
      obtain ⟨hannounces,hcount⟩ := hcounted
      refine ⟨?_,fun n hn hneg => ?_⟩
      · rintro ⟨n,hn,hcomplete⟩
        rw [hannounces n hn, if_neg (by omega)] at hcomplete
        by_cases hnone : q.remaining = 0
        · rw [hsame hnone]
          exact h.received hrelay hchunked (by omega)
        obtain ⟨d,rest',hrest,hd,hc'⟩ := hcount hcomplete
        have hquery : ¬ q.queriesPrinter = true := by
          intro hquery
          have hreplaced : q.replacedLength = q.bodyLength := if_pos hquery
          omega
        have hreplaced : q.replacedLength = q.received.length := if_neg hquery
        have hfixed : ¬ q.chunked = true := by
          intro hfixed
          have hbodyLength : q.bodyLength = q.received.length := if_pos hfixed
          omega
        have hbodyLength : q.bodyLength = q.contentLength := if_neg hfixed
        rw [h.chunked, Bool.not_eq_true] at hfixed
        exact h.bodyReceived hfixed hrest (by omega) hc'
      · rw [hannounces n hn] at hneg
        omega

/-! ### The handler -/

theorem readResponse_keeps {client : HttpClient υ} {mem : Memory} {P : υ → Prop}
    (h : ∀ n u, P u → P (client.read n u).2) (data : Bytes) (capacity timeoutRetries : ℕ) {u : υ}
    (hu : P u) : P (readResponse client mem data capacity timeoutRetries u).2 := by
  fun_induction readResponse client mem data capacity timeoutRetries u with
  | case1 => exact hu
  | case2 data capacity retries u next hgrow u' hread hmany =>
    have hstep := h (next - data.length) u hu
    rw [hread] at hstep
    exact hstep
  | case3 data capacity retries u next hgrow u' hread hmany ih =>
    have hstep := h (next - data.length) u hu
    rw [hread] at hstep
    exact ih hstep
  | case4 data capacity retries u next hgrow u' hread =>
    have hstep := h (next - data.length) u hu
    rw [hread] at hstep
    exact hstep
  | case5 data capacity retries u next hgrow u' hfits hread =>
    have hstep := h (next - data.length) u hu
    rw [hread] at hstep
    exact hstep
  | case6 data capacity retries u next hgrow d hd u' hread hnil ih =>
    have hstep := h (next - data.length) u hu
    rw [hread] at hstep
    exact ih hstep

/-- The response is read without anything being sent. -/
theorem readAnswer_keeps {client : HttpClient υ} (hw : w.Records client) (heap : Heaps) (u : υ) :
    w.announced (readAnswer client heap u).2 = w.announced u ∧
      w.body (readAnswer client heap u).2 = w.body u := by
  have hheaders := hw.fetchHeaders u
  have hread : ∀ u', w.announced u' = w.announced u ∧ w.body u' = w.body u →
      w.announced (readUpstreamResponse client heap.response u').2 = w.announced u ∧
        w.body (readUpstreamResponse client heap.response u').2 = w.body u := by
    intro u' hu'
    unfold readUpstreamResponse
    split
    · exact hu'
    · exact readResponse_keeps
        (P := fun u' => w.announced u' = w.announced u ∧ w.body u' = w.body u)
        (fun n u1 h => ⟨(hw.read n u1).1.trans h.1,(hw.read n u1).2.trans h.2⟩) _ _ _ hu'
  unfold readAnswer
  cases hfetch : client.fetchHeaders u with
  | mk headers u' =>
    rw [hfetch] at hheaders
    have hkept := hread u' hheaders
    simp only
    split
    · exact hheaders
    cases hresult : readUpstreamResponse client heap.response u' with
    | mk result u'' =>
      rw [hresult] at hkept
      cases result with
      | error e => exact hkept
      | ok body =>
        simp only
        split <;> exact hkept

/-- The two connections when the upload stops, for whatever reason. -/
def uploadEnd (env : Environment σ υ) (target : Option PrinterTarget) (c : Request × σ) (u : υ) :
    (Request × σ) × υ :=
  match admission target c.1 env.continued with
  | .error _ => (c,u)
  | .ok t =>
    match readAhead (receiveRequest env.read) env.heap.intake c.1.chunked ⟨c,[],0⟩ with
    | (.ok info,s) =>
      let q : Relayed := ⟨info,t,s.buffer,c.1.chunked,c.1.contentLength⟩
      match prepare env.heap q with
      | .error _ => (s.connection,u)
      | .ok up => (forward (receiveRequest env.read) env.client env.heap env.turns q up
          (s.connection,u)).2
    | (_,s) => (s.connection,u)

theorem uploadEnd_truthful (hread : Draws env.read R) (hw : w.Records env.client)
    (hr : Unread r) {s : σ} (hst : Holds R (r,s) stream) {u : υ} (hu : w.Fresh u)
    (target : Option PrinterTarget) :
    w.Truthful R (decoding r stream).2 (uploadEnd env target (r,s) u) := by
  unfold uploadEnd
  split
  · exact hu.truthful
  simp only
  split
  · rename_i t hadmission _ info s' hahead
    obtain ⟨rest,hbody,hrest,⟨p,hbegins,hinspect⟩,hwhole⟩ :=
      readAhead_keeps (receiveRequest_drawsTo hread r _) (Remaining.unread hr hst) hahead
    split
    · exact hu.truthful
    · rename_i up hprepare
      have hattributes : info.attributesLength ≤ s'.buffer.length := by
        obtain ⟨e,he,rfl⟩ := inspect_ok_iff.mp hinspect
        rw [decode_eq_ok_iff] at he
        rw [← he] at hbegins
        have hle : e.attributesLength ≤ e.encode.length :=
          (congrArg List.length e.take_encode).ge.trans (List.length_take_le' _ _)
        exact hle.trans hbegins.length_le
      have htaken : TakenIn R r stream ⟨info,t,s'.buffer,r.chunked,r.contentLength⟩ s'.connection
          rest :=
        ⟨rfl,rfl,hbody,hrest,hattributes,
          fun hchunked hoperation => (hwhole hchunked hoperation).2⟩
      exact forward_truthful hread hw htaken hu hprepare
  · exact hu.truthful

/-- The reply is made when the upload has stopped. -/
theorem proxyHandler_uploadEnd (hw : w.Records env.client) {beside : Beside}
    {target : Option PrinterTarget} {c : Request × σ} {u : υ} {h : JobHistory} {served : Served σ υ}
    (hserved : proxyHandler env beside target c u h = some served) :
    served.connection = (uploadEnd env target c u).1 ∧
      w.announced served.upstream = w.announced (uploadEnd env target c u).2 ∧
      w.body served.upstream = w.body (uploadEnd env target c u).2 := by
  unfold proxyHandler at hserved
  split at hserved
  · rename_i hadmission
    cases hserved
    have hend : uploadEnd env target c u = (c,u) := by simp only [uploadEnd, hadmission]
    rw [hend]
    exact ⟨rfl,rfl,rfl⟩
  rename_i t hadmission
  simp only at hserved
  split at hserved
  · cases hserved
  · rename_i s hahead
    cases hserved
    have hend : uploadEnd env target c u = (s.connection,u) := by
      simp only [uploadEnd, hadmission, hahead]
    rw [hend]
    exact ⟨rfl,rfl,rfl⟩
  rename_i info s hahead
  unfold relay at hserved
  simp only at hserved
  split at hserved
  · rename_i hprepare
    cases hserved
    have hend : uploadEnd env target c u = (s.connection,u) := by
      simp only [uploadEnd, hadmission, hahead, hprepare]
    rw [hend]
    exact ⟨rfl,rfl,rfl⟩
  rename_i up hprepare
  split at hserved
  · cases hserved
  · rename_i c' u' hforward
    cases hserved
    have hend : uploadEnd env target c u = (c',u') := by
      simp only [uploadEnd, hadmission, hahead, hprepare, hforward]
    rw [hend]
    exact ⟨rfl,rfl,rfl⟩
  rename_i c' u' hforward
  have hend : uploadEnd env target c u = (c',u') := by
    simp only [uploadEnd, hadmission, hahead, hprepare, hforward]
  rw [hend]
  have hkept := readAnswer_keeps hw env.heap u'
  split at hserved
  · rename_i hanswer
    cases hserved
    rw [hanswer] at hkept
    exact ⟨rfl,hkept⟩
  · rename_i hanswer
    rw [hanswer] at hkept
    split at hserved
    · cases hserved
      exact ⟨rfl,hkept⟩
    · cases hserved
      exact ⟨rfl,hkept⟩

/-- However the client's octets end, and whatever the printer takes: where the upload stops, and
when the request has been replied to, the printer has a complete body only if the client's body has
been received to its end, and no part of a last chunk before. -/
theorem proxyHandler_truthful (hread : Draws env.read R) (hw : w.Records env.client)
    (hr : Unread r) {s : σ} (hst : Holds R (r,s) stream) {u : υ} (hu : w.Fresh u)
    (target : Option PrinterTarget) :
    w.Truthful R (decoding r stream).2 (uploadEnd env target (r,s) u) ∧
      ∀ beside h served, proxyHandler env beside target (r,s) u h = some served →
        w.Truthful R (decoding r stream).2 (served.connection,served.upstream) := by
  have hend := uploadEnd_truthful hread hw hr hst hu target
  refine ⟨hend,fun beside h served hserved => ?_⟩
  obtain ⟨hconnection,hannounced,hbody⟩ := proxyHandler_uploadEnd hw hserved
  refine ⟨?_,?_⟩
  · unfold Wire.Complete
    rw [hconnection, hannounced, hbody]
    exact hend.complete
  · rw [hconnection, hannounced, hbody]
    exact hend.last

end

/-- A printer that takes everything, and remembers what it has been told. -/
def attentivePrinter : HttpClient (Option ℤ × Bytes) where
  init _ u := (true,u)
  openRequest n u := (none,(some n,u.2))
  write u data := (data.length,(u.1,u.2 ++ data))
  fetchHeaders u := (0,u)
  isChunkedResponse _ := false
  statusCode _ := 200
  read n u := (.data [] (Nat.zero_le n),u)

def attentiveWire : Wire (Option ℤ × Bytes) := ⟨Prod.fst,Prod.snd⟩

theorem attentivePrinter_records : attentiveWire.Records attentivePrinter where
  init _ _ h := h
  openRequest n u h := ⟨h.2,fun m hm => (Option.some.inj hm).symm⟩
  write u data := ⟨data.length,le_refl _,by simp [attentivePrinter, attentiveWire],fun _ _ => rfl⟩
  announced_write _ _ := rfl
  fetchHeaders _ := ⟨rfl,rfl⟩
  read _ _ := ⟨rfl,rfl⟩

theorem attentiveWire_complete {u : Option ℤ × Bytes}
    (h : (u.1.any fun n => decide (0 ≤ n ∧ n ≤ (u.2.length : ℤ))) = true) :
    attentiveWire.Complete u := by
  obtain ⟨n,hn,hcheck⟩ := (Option.any_eq_true _ _).mp h
  obtain ⟨hpos,hlength⟩ := of_decide_eq_true hcheck
  exact ⟨n,hn,by rw [if_neg (not_lt.mpr hpos)]; exact hlength⟩

def attentiveEnvironment : Environment Bytes (Option ℤ × Bytes) :=
  { smoothEnvironment with client := attentivePrinter }

theorem proxyHandler_truthful_attentive :
    let st := uploadEnd attentiveEnvironment (some pdfPrinter)
      (ippRequest pdfRequest.encode.length,pdfRequest.encode) (none,[])
    attentiveWire.Complete st.2 ∧ BodyReceived Eq (some []) st.1 := by
  have hend : attentiveWire.Truthful Eq
      (decoding (ippRequest pdfRequest.encode.length) pdfRequest.encode).2
      (uploadEnd attentiveEnvironment (some pdfPrinter)
        (ippRequest pdfRequest.encode.length,pdfRequest.encode) (none,[])) :=
    (proxyHandler_truthful wholeRead_delivers.draws attentivePrinter_records
      ⟨rfl,rfl,rfl,rfl,rfl⟩ ⟨pdfRequest.encode,rfl,rfl⟩ ⟨rfl,rfl⟩ (some pdfPrinter)).1
  have hcomplete : attentiveWire.Complete (uploadEnd attentiveEnvironment (some pdfPrinter)
      (ippRequest pdfRequest.encode.length,pdfRequest.encode) (none,[])).2 :=
    attentiveWire_complete (by decide +kernel)
  have htail : (decoding (ippRequest pdfRequest.encode.length) pdfRequest.encode).2 = some [] := by
    decide +kernel
  rw [htail] at hend
  exact ⟨hcomplete,hend.complete hcomplete⟩

end Espresso.Proxy
