import Espresso.Codec.Buffer
import Espresso.Codec.Record
import Espresso.Codec.Walk
import Espresso.Codec.Synthesize

/-! `transform_message`: URI rewriting in both directions, and normalisation of a printer's
Get-Printer-Attributes response. -/
namespace Espresso.Codec

/-- Octets after the first `://`. -/
def afterScheme : Bytes → Option Bytes
  | 0x3a :: 0x2f :: 0x2f :: rest => some rest
  | _ :: rest => afterScheme rest
  | [] => none

/-- Path of a URI value: from the first slash after the authority. -/
def uriPath (value : Bytes) : Bytes :=
  match afterScheme value with
  | some rest => rest.dropWhile (· ≠ 0x2f)
  | none => []

theorem afterScheme_cons {c : UInt8} {b : Bytes} (h : c = 0x3a → b.head? ≠ some 0x2f) :
    afterScheme (c :: b) = afterScheme b := by
  rw [afterScheme]
  rintro rest rfl rfl
  exact h rfl rfl

theorem afterScheme_suffix {value rest : Bytes} (h : afterScheme value = some rest) :
    rest <:+ value := by
  fun_induction afterScheme value with
  | case1 tail =>
    cases h
    exact ⟨[0x3a,0x2f,0x2f],rfl⟩
  | case2 c tail _ ih => exact (ih h).trans (List.suffix_cons c tail)
  | case3 => cases h

theorem uriPath_suffix (value : Bytes) : uriPath value <:+ value := by
  unfold uriPath
  split
  · rename_i rest h
    exact (List.dropWhile_suffix _).trans (afterScheme_suffix h)
  · exact List.nil_suffix

/-- The replacement is a C string: it ends at the first NUL it contains. -/
def rewriteUri (name value printerUri authority : Bytes) : Option Bytes :=
  if name = octets "printer-more-info" then some (octets "http://espresso.local/")
  else if name = octets "printer-uri" ∨ name = octets "printer-uri-supported" ∨
      name = octets "job-printer-uri" then some (cstr printerUri)
  else if name = octets "job-uri" then some (cstr (cstr authority ++ uriPath value))
  else none

def rewrittenNames : List String :=
  ["printer-uri","printer-uri-supported","job-printer-uri","printer-more-info","job-uri"]

/-- Attributes of the upstream response that the facade always answers itself. -/
def replacedNames : List String :=
  ["ipp-versions-supported","operations-supported","printer-uuid","uri-authentication-supported",
   "uri-security-supported","document-format-supported","document-format-default"]

def isRewritten (tag : UInt8) (name : Bytes) : Bool :=
  tag = Tag.uri && rewrittenNames.any fun n => octets n = name

def isReplaced (name : Bytes) : Bool := replacedNames.any fun n => octets n = name

/-- `new_value` of a record; no value stands for a failed `rewrite_uri`. -/
def newValue (printerUri authority : Bytes) (tag : UInt8) (name value : Bytes) : Option Bytes :=
  if isRewritten tag name then rewriteUri name value printerUri authority else some value

/-- What `transform_message` needs to normalise. -/
structure Facade where
  localUuid : Bytes
  target : PrinterTarget

section
variable (hundredths : Bytes → ℕ → Option ℕ) (mem : Memory) (printerUri authority : Bytes)
  (normalize : Option Facade)

def appendSynthesizedAttributes (buffer : Bytes) (present : ℕ) (currentGroup : UInt8) :
    Option Bytes :=
  match normalize with
  | none => some buffer
  | some f => appendItems mem buffer (synthesizedAttributes hundredths present currentGroup
      (cstr printerUri) (cstr f.localUuid) f.target)

/-- Locals of the loop: the message so far, the group and the presence mask. -/
structure TransformState where
  result : Bytes
  currentGroup : UInt8
  present : ℕ

/-- The loop of `transform_message`. -/
def transformWalker : Walker TransformState CodecError where
  onGroup s tag :=
    match append mem s.result [tag] with
    | none => .error .noMemory
    | some result => .ok { s with result := result, currentGroup := tag }
  onValue s current tag name value :=
    if normalize.isSome && isReplaced current then .ok s
    else
      match newValue printerUri authority tag current value with
      | none => .error .noMemory
      | some value =>
        match appendAttribute mem s.result tag name value with
        | none => .error .noMemory
        | some result =>
          .ok { s with result := result, present := s.present ||| attributePresence current }
  onFault _ e := e

/-- Returns the output and `*attributes_length`, which is an offset into the input. -/
def transformMessage (input : Bytes) : Except CodecError (Bytes × ℕ) :=
  if input.length < ippHeaderLength then .error .incomplete
  else match append mem [] (input.take ippHeaderLength) with
    | none => .error .noMemory
    | some result =>
      match (transformWalker mem printerUri authority normalize).walk ⟨result,0,0⟩ []
          (input.drop ippHeaderLength) with
      | .error e => .error e
      | .ok (s,rest) =>
        match appendSynthesizedAttributes hundredths mem printerUri normalize s.result s.present
            s.currentGroup with
        | none => .error .noMemory
        | some result =>
          match append mem result [Tag.endAttributes] with
          | none => .error .noMemory
          | some result =>
            match append mem result rest with
            | none => .error .noMemory
            | some output => .ok (output,input.length - rest.length)

end

def ippCodecRewrite (mem : Memory) (input printerUri authority : Bytes) :
    Except CodecError (Bytes × ℕ) :=
  transformMessage (fun _ _ => none) mem printerUri authority none input

def ippCodecMessageCode (input : Bytes) : ℕ :=
  match input with
  | _ :: _ :: hi :: lo :: _ => readU16 hi lo
  | _ => 65535

def ippCodecNormalizePrinterResponse (hundredths : Bytes → ℕ → Option ℕ) (mem : Memory)
    (input printerUri authority localUuid : Bytes) (target : PrinterTarget) :
    Except CodecError (Bytes × ℕ) :=
  if 0x0400 ≤ ippCodecMessageCode input then ippCodecRewrite mem input printerUri authority
  else transformMessage hundredths mem printerUri authority (some ⟨localUuid,target⟩) input

/-! ### What the loop computes

On the item list the loop is a map with deletions; `transformItems` is that map, `seenNames` the
names that reach the presence mask. -/

/-- The value a record leaves with. -/
def rewrittenValue (printerUri authority : Bytes) (tag : UInt8) (name value : Bytes) : Bytes :=
  (newValue printerUri authority tag name value).getD value

/-- `rewrite_uri` knows every name it is called for. -/
theorem newValue_eq (printerUri authority : Bytes) (tag : UInt8) (name value : Bytes) :
    newValue printerUri authority tag name value =
      some (rewrittenValue printerUri authority tag name value) := by
  unfold rewrittenValue
  cases h : newValue printerUri authority tag name value with
  | some v => rfl
  | none =>
    exfalso
    unfold newValue at h
    split at h
    · rename_i hr
      simp only [isRewritten, rewrittenNames, List.any_cons, List.any_nil, Bool.or_false,
        Bool.and_eq_true, Bool.or_eq_true, decide_eq_true_eq] at hr
      simp only [rewriteUri] at h
      obtain ⟨-,hr⟩ := hr
      rcases hr with rfl | rfl | rfl | rfl | rfl <;> simp at h
    · cases h

/-- Normalisation deletes what the facade answers itself. -/
def replaces (normalize : Bool) (_group : UInt8) (name : Bytes) : Bool :=
  normalize && isReplaced name

abbrev transformItems (printerUri authority : Bytes) (normalize : Bool) :
    UInt8 → Bytes → List Item → List Item :=
  editItems (replaces normalize) (rewrittenValue printerUri authority)

def seenNames (normalize : Bool) : Bytes → List Item → List Bytes
  | _, [] => []
  | _, .group _ :: is => seenNames normalize [] is
  | current, .value _ name _ :: is =>
    let current := carryName current name
    if normalize && isReplaced current then seenNames normalize current is
    else current :: seenNames normalize current is

/-- Items inserted at the end of the attributes. -/
def insertedItems (hundredths : Bytes → ℕ → Option ℕ) (printerUri : Bytes)
    (normalize : Option Facade) (present : ℕ) (currentGroup : UInt8) : List Item :=
  match normalize with
  | none => []
  | some f => synthesizedAttributes hundredths present currentGroup (cstr printerUri)
      (cstr f.localUuid) f.target

/-- The image of an envelope's items: transformed, then followed by what is inserted. -/
def imageItems (hundredths : Bytes → ℕ → Option ℕ) (printerUri authority : Bytes)
    (normalize : Option Facade) (items : List Item) : List Item :=
  transformItems printerUri authority normalize.isSome 0 [] items ++
  insertedItems hundredths printerUri normalize
    (presenceOf (seenNames normalize.isSome [] items)) (groupAfter 0 items)

section
variable {hundredths : Bytes → ℕ → Option ℕ} {mem : Memory} {printerUri authority : Bytes}
  {normalize : Option Facade}

theorem appendSynthesizedAttributes_some {buffer out : Bytes} {present : ℕ} {group : UInt8}
    (h : appendSynthesizedAttributes hundredths mem printerUri normalize buffer present group =
      some out) :
    out = buffer ++ encodeItems (insertedItems hundredths printerUri normalize present group) ∧
      ∀ i ∈ insertedItems hundredths printerUri normalize present group, i.Short := by
  cases normalize with
  | none => cases h; simp [insertedItems]
  | some f => exact appendItems_some h

/-- A completed fold has written the image of its items. -/
theorem transformWalker_fold_ok {s s' : TransformState} {current : Bytes} {items : List Item}
    (h : (transformWalker mem printerUri authority normalize).fold s current items = .ok s') :
    s'.result = s.result ++
        encodeItems (transformItems printerUri authority normalize.isSome s.currentGroup current
          items) ∧
      s'.currentGroup = groupAfter s.currentGroup items ∧
      s'.present = (seenNames normalize.isSome current items).foldl
        (fun present name => present ||| attributePresence name) s.present ∧
      ∀ i ∈ transformItems printerUri authority normalize.isSome s.currentGroup current items,
        i.Short := by
  induction items generalizing s current with
  | nil => cases h; simp [transformItems, editItems, groupAfter, seenNames]
  | cons i is ih =>
    cases i with
    | group tag =>
      obtain ⟨s1,hs1,h⟩ := Walker.fold_group_ok h
      simp only [transformWalker] at hs1
      split at hs1
      · cases hs1
      rename_i result hresult
      cases hs1
      obtain ⟨hout,hgroup,hpresent,hshort⟩ := ih h
      refine ⟨?_,hgroup,hpresent,?_⟩
      · rw [hout, append_some hresult]
        simp [transformItems, editItems, Item.encode]
      · simpa [transformItems, editItems, Item.Short] using hshort
    | value tag name value =>
      obtain ⟨s1,hs1,h⟩ := Walker.fold_value_ok h
      simp only [transformWalker, newValue_eq] at hs1
      simp only [transformItems, editItems, replaces, seenNames, groupAfter]
      split at hs1
      · rename_i hskip
        cases hs1
        simp only [hskip, if_true]
        exact ih h
      rename_i hskip
      split at hs1
      · cases hs1
      rename_i result hresult
      cases hs1
      simp only [hskip, Bool.false_eq_true, if_false]
      obtain ⟨hresult,hvalue⟩ := appendAttribute_some hresult
      obtain ⟨hout,hgroup,hpresent,hshort⟩ := ih h
      refine ⟨?_,hgroup,hpresent,?_⟩
      · rw [hout, hresult, encodeItems_cons, List.append_assoc]
      · simpa [Item.Short, hvalue] using hshort

/-- A record of the message gets a URI that does not fit its length field. -/
def LongUri (printerUri authority input : Bytes) : Prop :=
  ∃ tag own name value, (Item.value tag own value).encode <:+: input ∧ value.length < 65536 ∧
    isRewritten tag name = true ∧ 65535 < (rewrittenValue printerUri authority tag name value).length

theorem transformWalker_raises {input : Bytes} {e : CodecError}
    (h : (transformWalker mem printerUri authority normalize).Raises input e) :
    e = .noMemory ∧ (mem.Refuses ∨ LongUri printerUri authority input) := by
  rcases h with ⟨s,tag,h⟩ | ⟨s,current,tag,own,value,hin,hname,hvalue,h⟩
  · simp only [transformWalker] at h
    split at h
    · rename_i ha; cases h; exact ⟨rfl,.inl (append_none ha)⟩
    · cases h
  · simp only [transformWalker, newValue_eq] at h
    split at h
    · cases h
    split at h
    · rename_i ha
      cases h
      simp only [ippNameMax] at hname
      rcases appendAttribute_none ha with hm | hn | hv
      · exact ⟨rfl,.inl hm⟩
      · omega
      · refine ⟨rfl,.inr ⟨tag,own,current,value,hin,hvalue,?_,hv⟩⟩
        -- an unchanged value was short enough to be read
        by_contra hr
        simp only [rewrittenValue, newValue, hr] at hv
        simp at hv
        omega
    · cases h

/-- The message that `transform_message` returns, in terms of the envelope it was given. -/
theorem transformMessage_ok {input out : Bytes} {n : ℕ}
    (h : transformMessage hundredths mem printerUri authority normalize input = .ok (out,n)) :
    ∃ e, decode input = .ok e ∧ n = e.attributesLength ∧
      out = e.header ++ (encodeItems (imageItems hundredths printerUri authority normalize
        e.items) ++ Tag.endAttributes :: e.document) ∧
      ∀ i ∈ imageItems hundredths printerUri authority normalize e.items, i.Short := by
  unfold transformMessage at h
  split at h
  · cases h
  rename_i hlen
  split at h
  · cases h
  rename_i result hresult
  split at h
  · cases h
  rename_i s rest hwalk
  split at h
  · cases h
  rename_i result' hsynth
  split at h
  · cases h
  rename_i result'' hend
  split at h
  · cases h
  rename_i output houtput
  cases h
  obtain ⟨e,he,hf,rfl⟩ := Walker.walk_message_ok hlen hwalk
  obtain ⟨hout,hgroup,hpresent,hshort⟩ := transformWalker_fold_ok hf
  obtain ⟨hins,hshort'⟩ := appendSynthesizedAttributes_some hsynth
  rw [hgroup, hpresent] at hins hshort'
  have hinput := encode_of_decode he
  refine ⟨e,he,?_,?_,?_⟩
  · rw [← hinput]
    simp [Envelope.encode, Envelope.attributesLength]
  · rw [append_some houtput, append_some hend, hins, hout, append_some hresult, header_of_decode he]
    simp [imageItems, presenceOf]
  · intro i hi
    rcases List.mem_append.mp hi with hi | hi
    · exact hshort i hi
    · exact hshort' i hi

/-- Something that is to be inserted does not fit its length fields. -/
def LongInserted (hundredths : Bytes → ℕ → Option ℕ) (printerUri : Bytes)
    (normalize : Option Facade) : Prop :=
  ∃ present group, ∃ i ∈ insertedItems hundredths printerUri normalize present group, ¬ i.Fits

/-- A failed call met the decoder's error, or ran out of memory for one of three reasons. -/
theorem transformMessage_error {input : Bytes} {e : CodecError}
    (h : transformMessage hundredths mem printerUri authority normalize input = .error e) :
    (e = .noMemory ∧ (mem.Refuses ∨ LongUri printerUri authority input ∨
      LongInserted hundredths printerUri normalize)) ∨ decode input = .error e := by
  unfold transformMessage at h
  split at h
  · rename_i hlen
    cases h
    exact .inr (decode_of_short hlen)
  rename_i hlen
  split at h
  · rename_i ha; cases h; exact .inl ⟨rfl,.inl (append_none ha)⟩
  split at h
  · rename_i hwalk
    cases h
    rcases Walker.walk_message_error hlen hwalk with hraise | ⟨-,f,hf,rfl⟩
    · obtain ⟨rfl,hcause⟩ := transformWalker_raises hraise
      exact .inl ⟨rfl,hcause.imp_right .inl⟩
    · exact .inr hf
  split at h
  · rename_i ha
    cases h
    refine .inl ⟨rfl,?_⟩
    cases normalize with
    | none => cases ha
    | some f => exact (appendItems_none ha).imp_right fun hi => .inr ⟨_,_,hi⟩
  split at h
  · rename_i ha; cases h; exact .inl ⟨rfl,.inl (append_none ha)⟩
  split at h
  · rename_i ha; cases h; exact .inl ⟨rfl,.inl (append_none ha)⟩
  · cases h

end

/-! ### The records of the image -/

section
variable (printerUri authority : Bytes)

/-- A record after URI rewriting. -/
def rewriteRecord (r : Record) : Record :=
  { r with value := rewrittenValue printerUri authority r.tag r.attributeName r.value }

/-- URI rewriting alone, on the items of a message. -/
theorem ippCodecRewrite_items {mem : Memory} {input out : Bytes} {n : ℕ}
    (h : ippCodecRewrite mem input printerUri authority = .ok (out,n)) :
    ∃ e e', decode input = .ok e ∧ decode out = .ok e' ∧ n = e.attributesLength ∧
      e'.header = e.header ∧ e'.document = e.document ∧
      e'.items = transformItems printerUri authority false 0 [] e.items := by
  obtain ⟨e,he,hn,hout,hshort⟩ := transformMessage_ok h
  have himage : imageItems (fun _ _ => none) printerUri authority none e.items =
      transformItems printerUri authority false 0 (cstr []) e.items := by
    simp [imageItems, insertedItems]
  rw [himage] at hout hshort
  have hok := editItems_ok (InStep.refl (replaces false) 0 []) e.items_ok hshort
  refine ⟨e,⟨e.header,_,e.document,e.header_length,hok⟩,he,?_,hn,rfl,rfl,rfl⟩
  rw [hout, decode_parts e.header_length hok]

/-- URI rewriting alone keeps the header, the document and every record but for URI values. -/
theorem ippCodecRewrite_ok {mem : Memory} {input out : Bytes} {n : ℕ}
    (h : ippCodecRewrite mem input printerUri authority = .ok (out,n)) :
    ∃ e e', decode input = .ok e ∧ decode out = .ok e' ∧ n = e.attributesLength ∧
      e'.header = e.header ∧ e'.document = e.document ∧
      e'.records = e.records.map (rewriteRecord printerUri authority) := by
  obtain ⟨e,e',he,he',hn,hh,hd,hitems⟩ := ippCodecRewrite_items printerUri authority h
  refine ⟨e,e',he,he',hn,hh,hd,?_⟩
  have hrecords := @recordsFrom_editItems _ (rewrittenValue printerUri authority) _ _ _
    e.items (InStep.refl (replaces false) 0 [])
  simp only [replaces, Bool.false_and, Bool.not_false, List.filter_true] at hrecords
  rw [Envelope.records, hitems]
  exact hrecords

theorem ippCodecRewrite_error {mem : Memory} {input : Bytes} {f : CodecError}
    (h : ippCodecRewrite mem input printerUri authority = .error f) :
    (f = .noMemory ∧ (mem.Refuses ∨ LongUri printerUri authority input)) ∨
      decode input = .error f := by
  simpa [LongInserted, insertedItems] using transformMessage_error h

end

end Espresso.Codec
