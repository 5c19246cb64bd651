import Espresso.Codec.Envelope

/-! Growing output buffers. The heap is a predicate on the length asked for: a message buffer
only grows, so one predicate describes every pattern of failing reallocations in one pass. A
failing `malloc` for a rewritten value has the effect of a failing append of that record. -/
namespace Espresso.Codec

abbrev Memory := ℕ → Bool

/-- A heap that never refuses. -/
def Memory.unlimited : Memory := fun _ => true

/-- Some request for memory is refused. -/
def Memory.Refuses (mem : Memory) : Prop := ∃ n, mem n = false

theorem Memory.unlimited_not_refuses : ¬ Memory.unlimited.Refuses := by
  rintro ⟨n,h⟩
  cases h

def append (mem : Memory) (buffer data : Bytes) : Option Bytes :=
  if data = [] then some buffer
  else if mem (buffer.length + data.length) then some (buffer ++ data)
  else none

def appendU16 (mem : Memory) (buffer : Bytes) (value : ℕ) : Option Bytes :=
  if 65535 < value then none else append mem buffer (u16 value)

/-- The five appends that write one record. -/
def appendAttribute (mem : Memory) (buffer : Bytes) (tag : UInt8) (name value : Bytes) :
    Option Bytes := do
  let buffer ← append mem buffer [tag]
  let buffer ← appendU16 mem buffer name.length
  let buffer ← append mem buffer name
  let buffer ← appendU16 mem buffer value.length
  append mem buffer value

def appendItem (mem : Memory) (buffer : Bytes) : Item → Option Bytes
  | .group tag => append mem buffer [tag]
  | .value tag name data => appendAttribute mem buffer tag name data

def appendItems (mem : Memory) (buffer : Bytes) (items : List Item) : Option Bytes :=
  items.foldlM (appendItem mem) buffer

theorem append_some {mem : Memory} {buffer data out : Bytes}
    (h : append mem buffer data = some out) : out = buffer ++ data := by
  unfold append at h
  split at h
  · rename_i hd; cases h; simp [hd]
  · split at h
    · cases h; rfl
    · cases h

theorem append_none {mem : Memory} {buffer data : Bytes} (h : append mem buffer data = none) :
    mem.Refuses := by
  unfold append at h
  split at h
  · cases h
  · split at h
    · cases h
    · rename_i hm; exact ⟨_,by simpa using hm⟩

theorem appendU16_some {mem : Memory} {buffer out : Bytes} {value : ℕ}
    (h : appendU16 mem buffer value = some out) : out = buffer ++ u16 value ∧ value < 65536 := by
  unfold appendU16 at h
  split at h
  · cases h
  · exact ⟨append_some h,by omega⟩

theorem appendU16_none {mem : Memory} {buffer : Bytes} {value : ℕ}
    (h : appendU16 mem buffer value = none) : mem.Refuses ∨ 65535 < value := by
  unfold appendU16 at h
  split at h
  · rename_i hv; exact .inr hv
  · exact .inl (append_none h)

/-- A record is not written only for lack of memory or because a length does not fit. -/
theorem appendAttribute_none {mem : Memory} {buffer : Bytes} {tag : UInt8} {name value : Bytes}
    (h : appendAttribute mem buffer tag name value = none) :
    mem.Refuses ∨ 65535 < name.length ∨ 65535 < value.length := by
  unfold appendAttribute at h
  cases h1 : append mem buffer [tag] with
  | none => exact .inl (append_none h1)
  | some b1 =>
  cases h2 : appendU16 mem b1 name.length with
  | none => exact (appendU16_none h2).imp_right .inl
  | some b2 =>
  cases h3 : append mem b2 name with
  | none => exact .inl (append_none h3)
  | some b3 =>
  cases h4 : appendU16 mem b3 value.length with
  | none => exact (appendU16_none h4).imp_right .inr
  | some b4 =>
  simp only [h1, h2, h3, h4, Option.bind_eq_bind, Option.bind_some] at h
  exact .inl (append_none h)

theorem appendAttribute_some {mem : Memory} {buffer out : Bytes} {tag : UInt8}
    {name value : Bytes} (h : appendAttribute mem buffer tag name value = some out) :
    out = buffer ++ (Item.value tag name value).encode ∧ value.length < 65536 := by
  simp only [appendAttribute, Option.bind_eq_bind, Option.bind_eq_some_iff] at h
  obtain ⟨b1,h1,b2,h2,b3,h3,b4,h4,h5⟩ := h
  obtain ⟨rfl,-⟩ := appendU16_some h2
  obtain ⟨rfl,hv⟩ := appendU16_some h4
  obtain rfl := append_some h1
  obtain rfl := append_some h3
  obtain rfl := append_some h5
  refine ⟨?_,hv⟩
  simp [Item.encode]

/-- The value fits its two-octet length field. -/
def Item.Short : Item → Prop
  | .group _ => True
  | .value _ _ data => data.length < 65536

instance (i : Item) : Decidable i.Short := by cases i <;> unfold Item.Short <;> infer_instance

theorem appendItem_some {mem : Memory} {buffer out : Bytes} {i : Item}
    (h : appendItem mem buffer i = some out) : out = buffer ++ i.encode ∧ i.Short := by
  cases i with
  | group tag => exact ⟨append_some h,trivial⟩
  | value tag name data => exact appendAttribute_some h

theorem appendItems_some {mem : Memory} {buffer out : Bytes} {items : List Item}
    (h : appendItems mem buffer items = some out) :
    out = buffer ++ encodeItems items ∧ ∀ i ∈ items, i.Short := by
  induction items generalizing buffer with
  | nil => cases h; simp
  | cons i is ih =>
    simp only [appendItems, List.foldlM_cons, Option.bind_eq_bind, Option.bind_eq_some_iff] at h
    obtain ⟨b,hb,h⟩ := h
    obtain ⟨hout,hshort⟩ := ih h
    obtain ⟨hb',hi⟩ := appendItem_some hb
    refine ⟨?_,?_⟩
    · rw [hout, hb', encodeItems_cons, List.append_assoc]
    · intro j hj
      rcases List.mem_cons.mp hj with rfl | hj
      · exact hi
      · exact hshort j hj

/-- The name and the value fit their length fields. -/
def Item.Fits : Item → Prop
  | .group _ => True
  | .value _ name data => name.length < 65536 ∧ data.length < 65536

theorem appendItem_none {mem : Memory} {buffer : Bytes} {i : Item}
    (h : appendItem mem buffer i = none) : mem.Refuses ∨ ¬ i.Fits := by
  cases i with
  | group tag => exact .inl (append_none h)
  | value tag name data =>
    refine (appendAttribute_none h).imp_right ?_
    rintro hlong ⟨hname,hdata⟩
    omega

theorem appendItems_none {mem : Memory} {buffer : Bytes} {items : List Item}
    (h : appendItems mem buffer items = none) : mem.Refuses ∨ ∃ i ∈ items, ¬ i.Fits := by
  induction items generalizing buffer with
  | nil => cases h
  | cons i is ih =>
    cases hb : appendItem mem buffer i with
    | none =>
      exact (appendItem_none hb).imp_right fun hi => ⟨i,List.mem_cons_self,hi⟩
    | some b =>
      simp only [appendItems, List.foldlM_cons, Option.bind_eq_bind, hb, Option.bind_some] at h
      refine (ih h).imp_right ?_
      rintro ⟨j,hj,hfits⟩
      exact ⟨j,List.mem_cons_of_mem _ hj,hfits⟩

end Espresso.Codec
