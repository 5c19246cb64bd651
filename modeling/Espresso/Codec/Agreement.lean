import Espresso.Codec.Inspect
import Espresso.Codec.Filter
import Espresso.Codec.Profile
import Espresso.Codec.Relay

/-! The hand-written walkers of the codec agree: they accept the same messages, give the same
error to the others, and leave the same octets to the document. -/
namespace Espresso.Codec

/-- A walker that produces a message kept the document of `input`, and says where it starts. -/
def KeepsDocument (input : Bytes) (info : RequestInfo) (out : Bytes) (k : ℕ) : Prop :=
  ∃ info', ippCodecInspectRequest out = .ok info' ∧ k = info'.attributesLength ∧
    out.drop k = input.drop info.attributesLength

theorem inspect_ok_iff {input : Bytes} {info : RequestInfo} :
    ippCodecInspectRequest input = .ok info ↔ ∃ e, decode input = .ok e ∧ info = e.inspect := by
  rw [ippCodecInspectRequest_eq]
  cases decode input with
  | error f => simp [Except.map]
  | ok e => simp [Except.map, eq_comm]

theorem inspect_error_iff {input : Bytes} {f : CodecError} :
    ippCodecInspectRequest input = .error f ↔ decode input = .error f := by
  rw [ippCodecInspectRequest_eq]
  cases decode input with
  | error f' => simp [Except.map]
  | ok e => simp [Except.map]

theorem keepsDocument_of_decode {input out : Bytes} {e e' : Envelope} (he : decode input = .ok e)
    (he' : decode out = .ok e') (hd : e'.document = e.document) :
    KeepsDocument input e.inspect out e'.attributesLength := by
  refine ⟨e'.inspect,inspect_ok_iff.mpr ⟨e',he',rfl⟩,rfl,?_⟩
  rw [document_of_decode he', hd]
  exact (document_of_decode he).symm

section
variable {b : Bytes} {mem mem' : Memory} {printerUri authority : Bytes} {kind : ResponseKind}
  {requestedAttributes : Bytes} {t : PrinterTarget}

theorem rewrite_agrees_error {f : CodecError} (hf : decode b = .error f) :
    ippCodecRewrite mem b printerUri authority = .error f ∨
      ippCodecRewrite mem b printerUri authority = .error .noMemory ∧
        (mem.Refuses ∨ LongUri printerUri authority b) := by
  cases h : ippCodecRewrite mem b printerUri authority with
  | ok r =>
    obtain ⟨e,-,he,-⟩ := ippCodecRewrite_ok printerUri authority h
    rw [hf] at he
    cases he
  | error f' =>
    rcases ippCodecRewrite_error printerUri authority h with ⟨rfl,hcause⟩ | hd
    · exact .inr ⟨rfl,hcause⟩
    · rw [hf] at hd; cases hd; exact .inl rfl

theorem rewrite_agrees_ok {e : Envelope} (he : decode b = .ok e) :
    (∃ out k, ippCodecRewrite mem b printerUri authority = .ok (out,e.attributesLength) ∧
        KeepsDocument b e.inspect out k) ∨
      ippCodecRewrite mem b printerUri authority = .error .noMemory ∧
        (mem.Refuses ∨ LongUri printerUri authority b) := by
  cases h : ippCodecRewrite mem b printerUri authority with
  | ok r =>
    obtain ⟨out,k⟩ := r
    obtain ⟨e1,e',he1,he',rfl,-,hd,-⟩ := ippCodecRewrite_ok printerUri authority h
    rw [he] at he1
    cases he1
    exact .inl ⟨_,_,rfl,keepsDocument_of_decode he he' hd⟩
  | error f' =>
    rcases ippCodecRewrite_error printerUri authority h with ⟨rfl,hcause⟩ | hd
    · exact .inr ⟨rfl,hcause⟩
    · rw [he] at hd; cases hd

theorem filter_agrees_error {f : CodecError} (hf : decode b = .error f) :
    ippCodecFilterResponse mem kind requestedAttributes b = .error f ∨
      ippCodecFilterResponse mem kind requestedAttributes b = .error .noMemory ∧ mem.Refuses := by
  cases h : ippCodecFilterResponse mem kind requestedAttributes b with
  | ok r =>
    obtain ⟨e,-,he,-⟩ := ippCodecFilterResponse_ok h
    rw [hf] at he
    cases he
  | error f' =>
    rcases ippCodecFilterResponse_error h with ⟨rfl,hcause⟩ | hd
    · exact .inr ⟨rfl,hcause⟩
    · rw [hf] at hd; cases hd; exact .inl rfl

theorem filter_agrees_ok {e : Envelope} (he : decode b = .ok e) :
    (∃ out k, ippCodecFilterResponse mem kind requestedAttributes b = .ok (out,k) ∧
        KeepsDocument b e.inspect out k) ∨
      ippCodecFilterResponse mem kind requestedAttributes b = .error .noMemory ∧ mem.Refuses := by
  cases h : ippCodecFilterResponse mem kind requestedAttributes b with
  | ok r =>
    obtain ⟨e1,e',he1,he',hk,-,hd,-⟩ := ippCodecFilterResponse_ok h
    rw [he] at he1
    cases he1
    refine .inl ⟨_,_,rfl,?_⟩
    rw [hk]
    exact keepsDocument_of_decode he he' hd
  | error f' =>
    rcases ippCodecFilterResponse_error h with ⟨rfl,hcause⟩ | hd
    · exact .inr ⟨rfl,hcause⟩
    · rw [he] at hd; cases hd

/-- The profile merge reads the attributes only. -/
theorem apply_agrees_ok {e : Envelope} (he : decode b = .ok e) (document : Bytes) :
    ippCodecApplyPrinterAttributes (b.take e.attributesLength ++ document) t =
      .ok (e.applyTo t) := by
  have hdecode : decode (b.take e.attributesLength ++ document) =
      .ok (e.withDocument document) := by
    rw [decode_eq_ok_iff, ← encode_of_decode he, e.take_encode]
    rfl
  exact ippCodecApplyPrinterAttributes_ok hdecode t

theorem rewriteRequest_agrees_error {f : CodecError} (hf : decode b = .error f) :
    ippCodecRewriteRequest mem mem' b printerUri authority t = .error (.plain f) ∨
      ippCodecRewriteRequest mem mem' b printerUri authority t = .error (.plain .noMemory) ∧
        (mem.Refuses ∨ LongUri printerUri authority b) := by
  simp only [ippCodecRewriteRequest, ippCodecRewriteRequestDiagnostic,
    ippCodecRewriteRequestForFormatDiagnostic]
  rcases rewrite_agrees_error hf with h | ⟨h,hcause⟩
  · rw [h]; exact .inl rfl
  · rw [h]; exact .inr ⟨rfl,hcause⟩

theorem rewriteRequest_agrees_ok {e : Envelope} (he : decode b = .ok e) :
    (∃ out k, ippCodecRewriteRequest mem mem' b printerUri authority t = .ok (out,k) ∧
        KeepsDocument b e.inspect out k) ∨
      (∃ r, ippCodecRewriteRequest mem mem' b printerUri authority t = .error r ∧
        r.error = .unsupported) ∨
      ippCodecRewriteRequest mem mem' b printerUri authority t = .error (.plain .noMemory) ∧
        (mem.Refuses ∨ mem'.Refuses ∨ LongUri printerUri authority b) := by
  cases h : ippCodecRewriteRequest mem mem' b printerUri authority t with
  | ok r =>
    obtain ⟨e1,e',he1,he',hk,-,hd,-⟩ := rewriteRequest_ok h
    rw [he] at he1
    cases he1
    refine .inl ⟨_,_,rfl,?_⟩
    rw [hk]
    exact keepsDocument_of_decode he he' hd
  | error r =>
    rcases rewriteRequest_error he h with ⟨rfl,hm | hm | hu | ⟨format,hformat,-⟩⟩ | ⟨q,-,rfl⟩
    · exact .inr (.inr ⟨rfl,.inl hm⟩)
    · exact .inr (.inr ⟨rfl,.inr (.inl hm)⟩)
    · exact .inr (.inr ⟨rfl,.inr (.inr hu)⟩)
    · cases hformat
    · exact .inr (.inl ⟨_,rfl,rfl⟩)

end

/-- Every walker gives a message that inspection rejects the same error, unless it runs out of
memory first. On a message that inspection accepts, the only other outcomes are lack of memory
and, for the request rewriter, an unsupported job attribute; whatever is produced keeps the octets
from `attributes_length` on. -/
theorem codec_walkers_agree (b : Bytes) (mem mem' : Memory) (printerUri authority : Bytes)
    (kind : ResponseKind) (requestedAttributes : Bytes) (t : PrinterTarget) :
    (∀ f, ippCodecInspectRequest b = .error f →
      (f = .incomplete ∨ f = .malformed) ∧
      (ippCodecRewrite mem b printerUri authority = .error f ∨
        ippCodecRewrite mem b printerUri authority = .error .noMemory ∧
          (mem.Refuses ∨ LongUri printerUri authority b)) ∧
      (ippCodecFilterResponse mem kind requestedAttributes b = .error f ∨
        ippCodecFilterResponse mem kind requestedAttributes b = .error .noMemory ∧ mem.Refuses) ∧
      (∃ t', ippCodecApplyPrinterAttributes b t = .error (f,t')) ∧
      (ippCodecRewriteRequest mem mem' b printerUri authority t = .error (.plain f) ∨
        ippCodecRewriteRequest mem mem' b printerUri authority t = .error (.plain .noMemory) ∧
          (mem.Refuses ∨ LongUri printerUri authority b))) ∧
    (∀ info, ippCodecInspectRequest b = .ok info →
      ((∃ out k, ippCodecRewrite mem b printerUri authority = .ok (out,info.attributesLength) ∧
          KeepsDocument b info out k) ∨
        ippCodecRewrite mem b printerUri authority = .error .noMemory ∧
          (mem.Refuses ∨ LongUri printerUri authority b)) ∧
      ((∃ out k, ippCodecFilterResponse mem kind requestedAttributes b = .ok (out,k) ∧
          KeepsDocument b info out k) ∨
        ippCodecFilterResponse mem kind requestedAttributes b = .error .noMemory ∧ mem.Refuses) ∧
      (∃ t', ippCodecApplyPrinterAttributes b t = .ok t' ∧ ∀ document,
        ippCodecApplyPrinterAttributes (b.take info.attributesLength ++ document) t = .ok t') ∧
      ((∃ out k, ippCodecRewriteRequest mem mem' b printerUri authority t = .ok (out,k) ∧
          KeepsDocument b info out k) ∨
        (∃ r, ippCodecRewriteRequest mem mem' b printerUri authority t = .error r ∧
          r.error = .unsupported) ∨
        ippCodecRewriteRequest mem mem' b printerUri authority t = .error (.plain .noMemory) ∧
          (mem.Refuses ∨ mem'.Refuses ∨ LongUri printerUri authority b))) := by
  constructor
  · intro f h
    have hf := inspect_error_iff.mp h
    exact ⟨decode_error hf,rewrite_agrees_error hf,filter_agrees_error hf,
      ippCodecApplyPrinterAttributes_error hf t,rewriteRequest_agrees_error hf⟩
  · intro info h
    obtain ⟨e,he,rfl⟩ := inspect_ok_iff.mp h
    exact ⟨rewrite_agrees_ok he,filter_agrees_ok he,
      ⟨e.applyTo t,ippCodecApplyPrinterAttributes_ok he t,apply_agrees_ok he⟩,
      rewriteRequest_agrees_ok he⟩

end Espresso.Codec
