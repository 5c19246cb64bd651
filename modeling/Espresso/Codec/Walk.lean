import Espresso.Codec.Envelope

/-! The cursor loop shared by the codec. Each caller supplies what it does with a group
delimiter, with a value and with a damaged record; reading ahead, name carry-over and the order of
the checks are the same everywhere. On a well-formed envelope the loop is a fold over the items. -/
namespace Espresso.Codec

/-- One user of the loop. A value comes with the name in force, its tag, its own name octets and
its data. -/
structure Walker (σ ε : Type) where
  onGroup : σ → UInt8 → Except ε σ
  onValue : σ → Bytes → UInt8 → Bytes → Bytes → Except ε σ
  onFault : σ → CodecError → ε

namespace Walker
variable {σ ε : Type} (w : Walker σ ε)

/-- Returns the final state and the octets after the end-of-attributes tag. -/
def walk (s : σ) (current bs : Bytes) : Except ε (σ × Bytes) :=
  match _h : readStep current bs with
  | .fault e => .error (w.onFault s e)
  | .ended rest => .ok (s,rest)
  | .group tag rest =>
    match w.onGroup s tag with
    | .error e => .error e
    | .ok s => walk s [] rest
  | .value tag name value rest =>
    match w.onValue s (carryName current name) tag name value with
    | .error e => .error e
    | .ok s => walk s (carryName current name) rest
termination_by bs.length
decreasing_by
  · exact readStep_group_length _h
  · exact readStep_value_length _h

def fold : σ → Bytes → List Item → Except ε σ
  | s, _, [] => .ok s
  | s, _, .group tag :: is =>
    match w.onGroup s tag with
    | .error e => .error e
    | .ok s => fold s [] is
  | s, current, .value tag name value :: is =>
    match w.onValue s (carryName current name) tag name value with
    | .error e => .error e
    | .ok s => fold s (carryName current name) is

/-- An error of the caller's own, raised at a record of `bs`. -/
inductive Raises (bs : Bytes) (e : ε) : Prop
  | group (s : σ) (tag : UInt8) (h : w.onGroup s tag = .error e)
  | value (s : σ) (current : Bytes) (tag : UInt8) (name value : Bytes)
      (hin : (Item.value tag name value).encode <:+: bs) (hname : name.length ≤ ippNameMax)
      (hvalue : value.length < 65536) (h : w.onValue s current tag name value = .error e)

variable {w}

theorem fold_group {s s' : σ} {tag : UInt8} (h : w.onGroup s tag = .ok s') (current : Bytes)
    (is : List Item) : w.fold s current (.group tag :: is) = w.fold s' [] is := by
  simp only [fold, h]

theorem fold_value {s s' : σ} {current name value : Bytes} {tag : UInt8}
    (h : w.onValue s (carryName current name) tag name value = .ok s') (is : List Item) :
    w.fold s current (.value tag name value :: is) = w.fold s' (carryName current name) is := by
  simp only [fold, h]

theorem fold_group_ok {s r : σ} {current : Bytes} {tag : UInt8} {is : List Item}
    (h : w.fold s current (.group tag :: is) = .ok r) :
    ∃ s', w.onGroup s tag = .ok s' ∧ w.fold s' [] is = .ok r := by
  simp only [fold] at h
  split at h
  · cases h
  · rename_i s' hs; exact ⟨s',hs,h⟩

theorem fold_value_ok {s r : σ} {current name value : Bytes} {tag : UInt8} {is : List Item}
    (h : w.fold s current (.value tag name value :: is) = .ok r) :
    ∃ s', w.onValue s (carryName current name) tag name value = .ok s' ∧
      w.fold s' (carryName current name) is = .ok r := by
  simp only [fold] at h
  split at h
  · cases h
  · rename_i s' hs; exact ⟨s',hs,h⟩

theorem Raises.mono {bs bs' : Bytes} {e : ε} (hsub : bs <:+: bs') (h : w.Raises bs e) :
    w.Raises bs' e := by
  rcases h with ⟨s,tag,h⟩ | ⟨s,current,tag,name,value,hin,hname,hvalue,h⟩
  · exact .group s tag h
  · exact .value s current tag name value (hin.trans hsub) hname hvalue h

/-- On a well-formed envelope the loop folds over the items and stops at the document. -/
theorem walk_of_scan_ok {current bs document : Bytes} {items : List Item}
    (h : scan current bs = .ok (items,document)) (s : σ) :
    w.walk s current bs = (w.fold s current items).map fun r => (r,document) := by
  fun_induction scan current bs generalizing items s with
  | case1 current bs rest hs => cases h; rw [walk, hs]; rfl
  | case2 current bs tag rest hs ih =>
    cases hr : scan [] rest with
    | error e => rw [hr] at h; cases h
    | ok r =>
      rw [hr] at h
      cases h
      rw [walk, hs]
      simp only [fold]
      cases hg : w.onGroup s tag with
      | error e => rfl
      | ok s' => exact ih hr s'
  | case3 current bs tag name value rest hs ih =>
    cases hr : scan (carryName current name) rest with
    | error e => rw [hr] at h; cases h
    | ok r =>
      rw [hr] at h
      cases h
      rw [walk, hs]
      simp only [fold]
      cases hv : w.onValue s (carryName current name) tag name value with
      | error e => rfl
      | ok s' => exact ih hr s'
  | case4 => cases h

/-- A failing loop either met the scan's own error or one of the caller. -/
theorem walk_error {s : σ} {current bs : Bytes} {e : ε} (h : w.walk s current bs = .error e) :
    w.Raises bs e ∨ ∃ s' f, scan current bs = .error f ∧ e = w.onFault s' f := by
  fun_induction walk w s current bs with
  | case1 s current bs f hs =>
    cases h
    right
    exact ⟨s,f,by rw [scan, hs],rfl⟩
  | case2 => cases h
  | case3 s current bs tag rest hs e' hg => cases h; exact .inl (.group _ _ hg)
  | case4 s current bs tag rest hs s' hg ih =>
    obtain ⟨rfl,-,-⟩ := readStep_group_inv hs
    refine (ih h).imp (Raises.mono (List.suffix_cons _ _).isInfix) ?_
    rintro ⟨s2,f,hf,rfl⟩
    refine ⟨s2,f,?_,rfl⟩
    rw [scan, hs]
    simp only [hf]
    rfl
  | case5 s current bs tag name value rest hs e' hv =>
    cases h
    obtain ⟨rfl,hok⟩ := readStep_value_inv hs
    exact .inl (.value _ _ _ _ _ (List.prefix_append _ _).isInfix hok.2.1 hok.2.2.1 hv)
  | case6 s current bs tag name value rest hs s' hv ih =>
    obtain ⟨rfl,-⟩ := readStep_value_inv hs
    refine (ih h).imp (Raises.mono (List.suffix_append _ _).isInfix) ?_
    rintro ⟨s2,f,hf,rfl⟩
    refine ⟨s2,f,?_,rfl⟩
    rw [scan, hs]
    simp only [hf]
    rfl

theorem walk_ne_ok {current bs : Bytes} {f : CodecError} (h : scan current bs = .error f) (s : σ)
    (r : σ × Bytes) : w.walk s current bs ≠ .ok r := by
  intro hw
  fun_induction walk w s current bs with
  | case1 => cases hw
  | case2 s current bs rest hs => rw [scan, hs] at h; cases h
  | case3 => cases hw
  | case4 s current bs tag rest hs s' hg ih =>
    rw [scan, hs] at h
    cases hr : scan [] rest with
    | ok r => simp only [hr] at h; cases h
    | error f' => simp only [hr] at h; cases h; exact ih hr hw
  | case5 => cases hw
  | case6 s current bs tag name value rest hs s' hv ih =>
    rw [scan, hs] at h
    cases hr : scan (carryName current name) rest with
    | ok r => simp only [hr] at h; cases h
    | error f' => simp only [hr] at h; cases h; exact ih hr hw

/-! A loop that starts behind the header of a message. -/

theorem scan_message {input : Bytes} {e : Envelope} (he : decode input = .ok e) :
    scan [] (input.drop ippHeaderLength) = .ok (e.items,e.document) := by
  rw [← encode_of_decode he, e.encode_eq, ← e.header_length, List.drop_left]
  exact scan_encodeItems [] e.items e.document e.items_ok

theorem walk_message {input : Bytes} {e : Envelope} (he : decode input = .ok e) (s : σ) :
    w.walk s [] (input.drop ippHeaderLength) =
      (w.fold s [] e.items).map fun r => (r,e.document) :=
  walk_of_scan_ok (scan_message he) s

theorem walk_message_of_fold {s s' : σ} {input : Bytes} {e : Envelope}
    (he : decode input = .ok e) (hf : w.fold s [] e.items = .ok s') :
    w.walk s [] (input.drop ippHeaderLength) = .ok (s',e.document) := by
  rw [walk_message he, hf]
  rfl

theorem fold_of_walk_error {s : σ} {input : Bytes} {e : Envelope} {f : ε}
    (he : decode input = .ok e) (h : w.walk s [] (input.drop ippHeaderLength) = .error f) :
    w.fold s [] e.items = .error f := by
  rw [walk_message he] at h
  cases hf : w.fold s [] e.items with
  | error f' => rw [hf] at h; cases h; rfl
  | ok r => rw [hf] at h; cases h

theorem walk_message_error {s : σ} {input : Bytes} {e : ε}
    (hlen : ¬ input.length < ippHeaderLength)
    (h : w.walk s [] (input.drop ippHeaderLength) = .error e) :
    w.Raises input e ∨ ∃ s' f, decode input = .error f ∧ e = w.onFault s' f := by
  refine (walk_error h).imp (Raises.mono (List.drop_suffix _ _).isInfix) ?_
  rintro ⟨s',f,hf,rfl⟩
  exact ⟨s',f,decode_of_scan_error hlen hf,rfl⟩

/-- Only well-formed messages are walked to the end. -/
theorem walk_message_ok {s s' : σ} {input document : Bytes}
    (hlen : ¬ input.length < ippHeaderLength)
    (h : w.walk s [] (input.drop ippHeaderLength) = .ok (s',document)) :
    ∃ e, decode input = .ok e ∧ w.fold s [] e.items = .ok s' ∧ document = e.document := by
  cases hs : scan [] (input.drop ippHeaderLength) with
  | ok r =>
    obtain ⟨items,rest⟩ := r
    obtain ⟨e,he,-,rfl,rfl⟩ := decode_of_scan_ok hlen hs
    rw [walk_of_scan_ok hs] at h
    cases hf : w.fold s [] e.items with
    | error f => rw [hf] at h; cases h
    | ok r' => rw [hf] at h; cases h; exact ⟨e,he,hf,rfl⟩
  | error f =>
    exfalso
    exact walk_ne_ok hs s _ h

/-! ### Loops that only read -/

section
variable (onGroup : σ → UInt8 → σ) (onValue : σ → Bytes → UInt8 → Bytes → σ)
  (onFault : σ → CodecError → ε)

/-- A loop without errors of its own. -/
def reader : Walker σ ε where
  onGroup s tag := .ok (onGroup s tag)
  onValue s current tag _ value := .ok (onValue s current tag value)
  onFault := onFault

def readItems : σ → Bytes → List Item → σ
  | s, _, [] => s
  | s, _, .group tag :: is => readItems (onGroup s tag) [] is
  | s, current, .value tag name value :: is =>
    readItems (onValue s (carryName current name) tag value) (carryName current name) is

theorem reader_fold (s : σ) (current : Bytes) (items : List Item) :
    (reader onGroup onValue onFault).fold s current items =
      .ok (readItems onGroup onValue s current items) := by
  induction items generalizing s current with
  | nil => rfl
  | cons i is ih =>
    cases i with
    | group tag => exact ih _ _
    | value tag name value => exact ih _ _

/-- Such a loop reads exactly the well-formed messages. -/
theorem reader_ok {input : Bytes} {e : Envelope} (he : decode input = .ok e) (s : σ) :
    (reader onGroup onValue onFault).walk s [] (input.drop ippHeaderLength) =
      .ok (readItems onGroup onValue s [] e.items,e.document) :=
  walk_message_of_fold he (reader_fold onGroup onValue onFault s [] e.items)

theorem reader_error {input : Bytes} {f : CodecError} (hlen : ¬ input.length < ippHeaderLength)
    (hf : decode input = .error f) (s : σ) :
    ∃ s', (reader onGroup onValue onFault).walk s [] (input.drop ippHeaderLength) =
      .error (onFault s' f) := by
  cases hw : (reader onGroup onValue onFault).walk s [] (input.drop ippHeaderLength) with
  | ok r =>
    obtain ⟨e,he,-⟩ := walk_message_ok hlen hw
    rw [hf] at he
    cases he
  | error e =>
    rcases walk_message_error hlen hw with (⟨_,_,h⟩ | ⟨_,_,_,_,_,_,_,_,h⟩) | ⟨s',f',hf',rfl⟩
    · cases h
    · cases h
    · rw [hf] at hf'; cases hf'; exact ⟨s',rfl⟩

/-- What every record keeps holds of the state that an error is reported from. -/
theorem reader_walk_error {P : σ → Prop} (hgroup : ∀ s tag, P s → P (onGroup s tag))
    (hvalue : ∀ s current tag value, P s → P (onValue s current tag value)) {s : σ}
    {current bs : Bytes} {e : ε}
    (h : (reader onGroup onValue onFault).walk s current bs = .error e) (hs : P s) :
    ∃ s' f, P s' ∧ e = onFault s' f := by
  fun_induction walk (reader onGroup onValue onFault) s current bs with
  | case1 s current bs f => cases h; exact ⟨s,f,hs,rfl⟩
  | case2 => cases h
  | case3 s current bs tag rest _ e' hg => cases hg
  | case4 s current bs tag rest _ s' hg ih => cases hg; exact ih h (hgroup s tag hs)
  | case5 s current bs tag name value rest _ e' hv => cases hv
  | case6 s current bs tag name value rest _ s' hv ih =>
    cases hv
    exact ih h (hvalue s _ tag value hs)

end

end Walker

end Espresso.Codec
