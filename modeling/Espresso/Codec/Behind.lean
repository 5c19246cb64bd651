import Espresso.Codec.Relay

/-! More of the document behind a request: the passes over it do what they did, and leave that much
more behind what they write. -/
namespace Espresso.Codec

theorem append_granted {mem : Memory} (hmem : ¬ mem.Refuses) (buffer data : Bytes) :
    append mem buffer data = some (buffer ++ data) := by
  cases h : append mem buffer data with
  | none => exact absurd (append_none h) hmem
  | some out => rw [append_some h]

theorem scan_append {current bs document : Bytes} {items : List Item}
    (h : scan current bs = .ok (items,document)) (q : Bytes) :
    scan current (bs ++ q) = .ok (items,document ++ q) := by
  obtain ⟨rfl,hitems⟩ := scan_ok h
  rw [List.append_assoc, List.cons_append]
  exact scan_encodeItems current items (document ++ q) hitems

theorem Walker.walk_append {σ ε : Type} (w : Walker σ ε) {current bs document : Bytes}
    {items : List Item} (h : scan current bs = .ok (items,document)) (s : σ) (q : Bytes) :
    w.walk s current (bs ++ q) = (w.walk s current bs).map fun p => (p.1,p.2 ++ q) := by
  rw [walk_of_scan_ok (scan_append h q), walk_of_scan_ok h]
  cases w.fold s current items <;> rfl

/-- The attributes are all there. -/
theorem scan_of_decode {input : Bytes} {e : Envelope} (h : decode input = .ok e) :
    ¬ input.length < ippHeaderLength ∧
      scan [] (input.drop ippHeaderLength) = .ok (e.items,e.document) := by
  refine ⟨length_of_decode h,?_⟩
  rw [← encode_of_decode h, e.encode_eq, ← e.header_length, List.drop_left]
  exact scan_encodeItems [] e.items e.document e.items_ok

/-- What a pass returns with `q` behind the request. -/
def followedBy (q : Bytes) (p : Bytes × ℕ) : Bytes × ℕ := (p.1 ++ q,p.2)

section
variable {n : ℕ} {mem mem' : Memory} {printerUri authority : Bytes} {t : PrinterTarget}
  {upstreamDocumentFormat : Option Bytes} {input : Bytes} {e : Envelope}

theorem transformMessage_append (hundredths : Bytes → ℕ → Option ℕ) (hmem : ¬ mem.Refuses)
    (printerUri authority : Bytes) (normalize : Option Facade) (he : decode input = .ok e)
    (q : Bytes) : transformMessage hundredths mem printerUri authority normalize (input ++ q) =
      (transformMessage hundredths mem printerUri authority normalize input).map
        (followedBy q) := by
  obtain ⟨hlength,hscan⟩ := scan_of_decode he
  have hlength' : ¬ (input ++ q).length < ippHeaderLength := by
    rw [List.length_append]
    omega
  unfold transformMessage
  rw [if_neg hlength, if_neg hlength', List.take_append_of_le_length (not_lt.mp hlength),
    List.drop_append_of_le_length (not_lt.mp hlength), append_granted hmem]
  simp only [Walker.walk_append _ hscan]
  cases (transformWalker mem printerUri authority normalize).walk
      ⟨[] ++ input.take ippHeaderLength,0,0⟩ [] (input.drop ippHeaderLength) with
  | error f => rfl
  | ok p =>
    obtain ⟨s,rest⟩ := p
    simp only [Except.map]
    cases appendSynthesizedAttributes hundredths mem printerUri normalize s.result s.present
        s.currentGroup with
    | none => rfl
    | some result =>
      simp only [append_granted hmem, followedBy, List.append_assoc, List.length_append]
      rw [Nat.add_sub_add_right]

theorem ippCodecRewrite_append (hmem : ¬ mem.Refuses) (printerUri authority : Bytes)
    (he : decode input = .ok e) (q : Bytes) : ippCodecRewrite mem (input ++ q) printerUri authority =
      (ippCodecRewrite mem input printerUri authority).map (followedBy q) :=
  transformMessage_append _ hmem printerUri authority none he q

theorem normalizeFacadeJobDefaults_append (hmem : ¬ mem.Refuses) (t : PrinterTarget)
    (upstreamDocumentFormat : Option Bytes) (he : decode input = .ok e) (q : Bytes) :
    normalizeFacadeJobDefaults (n := n) mem t upstreamDocumentFormat (input ++ q) =
      (normalizeFacadeJobDefaults mem t upstreamDocumentFormat input).map (followedBy q) := by
  obtain ⟨hlength,hscan⟩ := scan_of_decode he
  have hlength' : ¬ (input ++ q).length < ippHeaderLength := by
    rw [List.length_append]
    omega
  unfold normalizeFacadeJobDefaults
  rw [if_neg hlength, if_neg hlength', List.take_append_of_le_length (not_lt.mp hlength),
    List.drop_append_of_le_length (not_lt.mp hlength), append_granted hmem]
  simp only [Walker.walk_append _ hscan]
  cases (facadeWalker mem t upstreamDocumentFormat).walk
      ⟨[] ++ input.take ippHeaderLength,0,true⟩ [] (input.drop ippHeaderLength) with
  | error f => rfl
  | ok p =>
    obtain ⟨s,rest⟩ := p
    simp only [Except.map, append_granted hmem, followedBy, List.append_assoc]

/-- A request is rewritten no matter how much of its document is there. -/
theorem rewriteRequest_append (hmem : ¬ mem.Refuses) (hmem' : ¬ mem'.Refuses)
    (printerUri authority : Bytes) (t : PrinterTarget) (upstreamDocumentFormat : Option Bytes)
    (he : decode input = .ok e) (q : Bytes) :
    ippCodecRewriteRequestForFormatDiagnostic (n := n) mem mem' (input ++ q) printerUri authority t
        upstreamDocumentFormat =
      (ippCodecRewriteRequestForFormatDiagnostic mem mem' input printerUri authority t
        upstreamDocumentFormat).map (followedBy q) := by
  unfold ippCodecRewriteRequestForFormatDiagnostic
  rw [ippCodecRewrite_append hmem printerUri authority he q]
  cases hrewrite : ippCodecRewrite mem input printerUri authority with
  | error f => rfl
  | ok p =>
    obtain ⟨rewritten,k⟩ := p
    obtain ⟨e1,m,-,hm,-⟩ := ippCodecRewrite_items printerUri authority hrewrite
    simp only [Except.map, followedBy]
    exact normalizeFacadeJobDefaults_append hmem' t upstreamDocumentFormat hm q

end

end Espresso.Codec
