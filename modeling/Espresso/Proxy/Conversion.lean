import Espresso.Proxy.Delivery
import Espresso.Raster.Alike

/-! What arrives at the printer of a document that is converted on its way. -/
namespace Espresso.Proxy
open Callback Codec Http Raster

open Printer (EspError)

section
variable {κ υ : Type} {receive : ReadFn κ} {client : HttpClient υ} {R : κ → Bytes → Prop}
  {taken : υ → Bytes}

/-! ### The callbacks of the converter -/

/-- What is left of the document, received or not. -/
def Pending (R : κ → Bytes → Prop) (st : Bytes × κ) (b : Bytes) : Prop :=
  ∃ rest, b = st.1 ++ rest ∧ R st.2 rest

theorem rasterDocumentRead_supplies (hreceive : Supplies receive R intMax) :
    Supplies (rasterDocumentRead receive) (Pending R) intMax := by
  rintro ⟨received,c⟩ b n ⟨rest,rfl,hc⟩ hn hmost
  unfold rasterDocumentRead
  simp only
  split
  · rename_i hne
    have hle : (received.take n).length ≤ n := List.length_take_le _ _
    rw [if_pos (hle.trans hmost)]
    refine ⟨received.take n,received.drop n ++ rest,_,rfl,?_,⟨rest,rfl,hc⟩,hle,fun hnil => ?_⟩
    · rw [← List.append_assoc, List.take_append_drop]
    · rcases List.take_eq_nil_iff.mp hnil with h0 | hnil
      · omega
      · exact absurd hnil hne
  · rename_i hempty
    obtain rfl := not_not.mp hempty
    obtain ⟨d,rest',c',hread,rfl,hc',hle,hend⟩ := hreceive c rest n hc hn hmost
    rw [hread]
    exact ⟨d,rest',_,rfl,rfl,⟨rest',rfl,hc'⟩,hle,hend⟩

/-- Since `start` the chunks of `out` have been sent. -/
def ChunksSince (taken : υ → Bytes) (start : Bytes) (u : υ) (out : Bytes) : Prop :=
  ∃ chunks, DataChunks chunks ∧ chunks.flatten = out ∧
    taken u = start ++ chunks.flatMap httpChunk

theorem rasterDocumentWrite_takes (hwrite : Accepts client.write taken) (start : Bytes) :
    TakesPieces (rasterDocumentWrite client) (ChunksSince taken start) := by
  rintro u out data ⟨chunks,hchunks,rfl,hsent⟩ hne hmost
  have hint : ¬ intMax < data.length := not_lt.mpr (hmost.trans (by decide))
  have hsize : data.length ≤ sizeMax := hmost.trans (by decide)
  obtain ⟨u',hrun,htaken⟩ := ippStreamWriteHttpChunk_accepts hwrite u hsize
  refine ⟨u',?_,chunks ++ [data],?_,?_,?_⟩
  · rw [rasterDocumentWrite, if_neg hint, hrun]
  · intro d hd
    rcases List.mem_append.mp hd with hd | hd
    · exact hchunks d hd
    · rw [List.mem_singleton.mp hd]
      exact ⟨hne,hsize⟩
  · simp
  · rw [htaken, hsent]
    simp

/-! ### The document -/

/-- A document that can be converted arrives as the document it is converted to. -/
theorem streamConvertedDocument_delivers (hreceive : Supplies receive R intMax)
    (hwrite : Accepts client.write taken) {c : κ} {received b out : Bytes} (hc : R c b) {turns : ℕ}
    (hturns : (received ++ b).length < turns)
    (hout : convertedDocument (received ++ b) = some out) (u : υ) :
    ∃ chunks c' u', streamConvertedDocument receive client turns received (c,u) =
        (.ok (),(c',u')) ∧ DataChunks chunks ∧ chunks.flatten = out ∧
      taken u' = taken u ++ (chunks ++ [[]]).flatMap httpChunk := by
  have hpending : Pending R (received,c) (received ++ b) := ⟨b,rfl,hc⟩
  have hstart : ChunksSince taken (taken u) u [] := ⟨[],nofun,rfl,(List.append_nil _).symm⟩
  have hconverts := espressoPwgToUrf_converts
    ((rasterDocumentRead_supplies hreceive).mono (show pwgHeaderSize ≤ intMax by decide))
    (rasterDocumentWrite_takes hwrite (taken u)) hpending hstart hturns
  rw [hout] at hconverts
  obtain ⟨⟨received',c'⟩,u1,hrun,chunks,hchunks,hflatten,hsent⟩ := hconverts
  obtain ⟨u2,hlast,htaken⟩ := ippStreamWriteHttpChunk_accepts hwrite u1
    (show ([] : Bytes).length ≤ sizeMax from Nat.zero_le _)
  refine ⟨chunks,c',u2,?_,hchunks,hflatten,?_⟩
  · unfold streamConvertedDocument
    simp only [hrun, hlast]
  · rw [htaken, hsent, List.flatMap_append, List.append_assoc]
    simp

/-- Any other document is given up before its last chunk. -/
theorem streamConvertedDocument_halts {w : Wire υ} {E : κ → Prop}
    (hreceive : Supplies receive R intMax) (hdraws : DrawsTo receive R E) (hw : w.Records client)
    (hwrite : Accepts client.write w.body) {c : κ} {received b : Bytes} (hc : R c b) {turns : ℕ}
    (hturns : (received ++ b).length < turns) (hnone : convertedDocument (received ++ b) = none)
    {u : υ} (hu : w.Chunking u) :
    ∃ e c' u', streamConvertedDocument receive client turns received (c,u) =
      (.error e,(c',u')) ∧ w.Halted u' := by
  have hpending : Pending R (received,c) (received ++ b) := ⟨b,rfl,hc⟩
  have hstart : ChunksSince w.body (w.body u) u [] := ⟨[],nofun,rfl,(List.append_nil _).symm⟩
  have hfails := espressoPwgToUrf_converts
    ((rasterDocumentRead_supplies hreceive).mono (show pwgHeaderSize ≤ intMax by decide))
    (rasterDocumentWrite_takes hwrite (w.body u)) hpending hstart hturns
  rw [hnone] at hfails
  obtain ⟨e,⟨⟨received',c'⟩,u'⟩,hrun⟩ := hfails
  have hending := espressoPwgToUrf_ending (rasterDocumentRead_drawsTo hdraws)
    (rasterDocumentWrite_keeps hw) (fun _ => Wire.Chunking.halted) turns ((received,c),u)
    ⟨⟨_,hpending⟩,hu⟩
  rw [hrun] at hending
  refine ⟨e,c',u',?_,hending⟩
  unfold streamConvertedDocument
  simp only [hrun]

end

/-! ### The upload -/

section
variable {κ υ : Type} {receive : ReadFn κ} {client : HttpClient υ} {R : κ → Bytes → Prop}
  {E : κ → Prop} {w : Wire υ} {q : Relayed} {up : Upload}

theorem outgoingChunked_of_converting (h : q.converting = true) : q.outgoingChunked = true := by
  unfold Relayed.outgoingChunked
  rw [h]
  rfl

theorem writeEnvelope_converting (h : q.converting = true) :
    (writeEnvelope client q up : Run (κ × υ) EspError Unit) =
      writeUpstreamChunk client (up.rewritten.take up.attributesLength) := by
  unfold writeEnvelope
  rw [outgoingChunked_of_converting h, h]
  rfl

/-- The document of a conversion, as far as it has been received. -/
def Relayed.document (q : Relayed) : Bytes := q.received.drop q.info.attributesLength

theorem streamDocument_converting (heap : Heaps) (turns : ℕ) (h : q.converting = true) :
    streamDocument receive client heap turns q =
      failingDocument (streamConvertedDocument receive client turns q.document) := by
  unfold streamDocument
  rw [if_pos h]
  rfl

/-- An upload of a converted document: the attributes and then what the document is converted to,
or an upload that is not completed. -/
theorem forward_converts (hreceive : Supplies receive R intMax) (hdraws : DrawsTo receive R E)
    (hw : w.Reaches client) (heap : Heaps) {turns : ℕ} (hconverting : q.converting = true)
    {c : κ} {b : Bytes} (hc : R c b) {u : υ} (hu : w.Fresh u)
    (hturns : (q.document ++ b).length < turns)
    (hne : up.rewritten.take up.attributesLength ≠ [])
    (hsize : (up.rewritten.take up.attributesLength).length ≤ sizeMax) :
    match convertedDocument (q.document ++ b) with
    | some out => ∃ c' u' chunks, forward receive client heap turns q up (c,u) =
          (.ok (),(c',u')) ∧ DataChunks chunks ∧
        chunks.flatten = up.rewritten.take up.attributesLength ++ out ∧
        w.body u' = (chunks ++ [[]]).flatMap httpChunk
    | none => ∃ e c' u', forward receive client heap turns q up (c,u) = (.error e,(c',u')) ∧
        w.Halted u' := by
  obtain ⟨u1,hopen,hbody,hannounced⟩ := openClient_reaches hw q up c hu
  obtain ⟨u2,hrun,htaken⟩ := ippStreamWriteHttpChunk_accepts hw.write u1 hsize
  have henvelope : failing (writeEnvelope client q up) (c,u1) = (.ok (),(c,u2)) := by
    rw [writeEnvelope_converting hconverting]
    unfold failing writeUpstreamChunk
    simp only [hrun]
  have hforward : forward receive client heap turns q up (c,u) =
      failingDocument (streamConvertedDocument receive client turns q.document) (c,u2) := by
    unfold forward
    rw [Run.bind_of_ok hopen, Run.bind_of_ok henvelope, streamDocument_converting _ _ hconverting]
  rw [hforward]
  unfold failingDocument
  split
  · rename_i out hout
    obtain ⟨chunks,c',u',hstream,hchunks,hflatten,htaken'⟩ :=
      streamConvertedDocument_delivers hreceive hw.write hc hturns hout u2
    refine ⟨c',u',up.rewritten.take up.attributesLength :: chunks,by rw [hstream],?_,?_,?_⟩
    · intro data hdata
      rcases List.mem_cons.mp hdata with rfl | hdata
      · exact ⟨hne,hsize⟩
      · exact hchunks data hdata
    · rw [List.flatten_cons, hflatten]
    · rw [htaken', htaken, hbody, List.nil_append, List.cons_append, List.flatMap_cons]
  · rename_i hnone
    have hannounces : w.Announces (-1) u1 := by
      intro n hn
      rw [hannounced, Relayed.announces, if_pos (outgoingChunked_of_converting hconverting)] at hn
      exact (Option.some_inj.mp hn).symm
    have hchunking : w.Chunking u2 := by
      have hstep := hw.records.chunk ⟨hannounces,by rw [hbody]; exact Between.nil⟩ hne
      rw [hrun] at hstep
      exact hstep
    obtain ⟨e,c',u',hstream,hhalted⟩ := streamConvertedDocument_halts hreceive hdraws hw.records
      hw.write hc hturns hnone hchunking
    rw [hstream]
    cases e <;> exact ⟨_,c',u',rfl,hhalted⟩

end

end Espresso.Proxy
