import Espresso.Codec.Transform

/-! Rewriting a client request for the selected printer: the URI pass, then
`normalize_facade_job_defaults`, which consumes the Job Template attributes that only the facade
advertises. -/
namespace Espresso.Codec

inductive JobAttributeAction
  | keep
  | drop
  | unsupported
  deriving DecidableEq, Repr

def encodedU32Equals (value : Bytes) (expected : ℕ) : Bool :=
  match value with
  | [a,b,c,d] => readU32 a b c d = expected
  | _ => false

structure NeutralDefault where
  name : String
  capability : ℕ
  tag : UInt8
  integerValue : ℕ
  stringValue : Option String

def neutralDefaults : List NeutralDefault :=
  [⟨"copies",JobCap.copies,Tag.integer,1,none⟩,
   ⟨"finishings",JobCap.finishings,Tag.enum,3,none⟩,
   ⟨"orientation-requested",JobCap.orientation,Tag.enum,3,none⟩,
   ⟨"output-bin",JobCap.outputBin,Tag.keyword,0,some "face-down"⟩,
   ⟨"print-quality",JobCap.printQuality,Tag.enum,4,none⟩,
   ⟨"sides",JobCap.sides,Tag.keyword,0,some "one-sided"⟩]

def NeutralDefault.accepts (d : NeutralDefault) (tag : UInt8) (value : Bytes) : Bool :=
  match d.stringValue with
  | some s => (tag = Tag.keyword || tag = Tag.name) && equalSpan value (octets s)
  | none => tag = d.tag && encodedU32Equals value d.integerValue

/-- The entry whose printer-side attribute is missing, if `name` has one. -/
def NeutralDefault.applies (t : PrinterTarget) (name : Bytes) (d : NeutralDefault) : Bool :=
  octets d.name = name && !t.hasCap d.capability

def isContentHint (name : Bytes) : Bool :=
  name = octets "print-content-optimize" || name = octets "print-rendering-intent"

def isLegacyColorMode (t : PrinterTarget) (name : Bytes) : Bool :=
  name = octets "print-color-mode" && t.legacyOutputMode

/-- The action, and `*replacement_name`. -/
def facadeJobAttributeAction (t : PrinterTarget) (name : Bytes) (tag : UInt8) (value : Bytes) :
    JobAttributeAction × Option String :=
  if isLegacyColorMode t name then (.keep,some "output-mode")
  else if isContentHint name then
    (if tag = Tag.keyword && equalSpan value (octets "auto") then .drop else .unsupported,none)
  else match neutralDefaults.find? (·.applies t name) with
    | some d => (if d.accepts tag value then .drop else .unsupported,none)
    | none => (.keep,none)

/-- Only the job attributes are looked at. -/
def groupAction (t : PrinterTarget) (group : UInt8) (name : Bytes) (tag : UInt8) (value : Bytes) :
    JobAttributeAction × Option String :=
  if group = Tag.jobAttributes then facadeJobAttributeAction t name tag value else (.keep,none)

/-- A failed call, with the `rejected_attribute` array of the caller. -/
structure Rejection (n : ℕ) where
  error : CodecError
  attributeName : Text n
  deriving DecidableEq

def Rejection.plain {n : ℕ} (error : CodecError) : Rejection n := ⟨error,.empty⟩

/-- Name octets that go out: an unnamed value stays unnamed under a new name. -/
def outputName (name : Bytes) (replacementName : Option String) : Bytes :=
  match replacementName with
  | some replacement => if name = [] then name else octets replacement
  | none => name

def outputValue (upstreamDocumentFormat : Option Bytes) (group tag : UInt8) (name value : Bytes) :
    Bytes :=
  match upstreamDocumentFormat with
  | some format =>
    if group = Tag.operationAttributes ∧ tag = Tag.mimeType ∧ name = octets "document-format" then
      cstr format
    else value
  | none => value

section
variable {n : ℕ} (mem : Memory) (t : PrinterTarget) (upstreamDocumentFormat : Option Bytes)

/-- Locals of the loop: the message so far, the group, and whether its tag has been written. -/
structure FacadeState where
  result : Bytes
  currentGroup : UInt8
  emitted : Bool

/-- The loop of `normalize_facade_job_defaults`. A group tag is written before the first record
of the group that is kept. -/
def facadeWalker : Walker FacadeState (Rejection n) where
  onGroup s tag := .ok { s with currentGroup := tag, emitted := false }
  onValue s current tag name value :=
    match groupAction t s.currentGroup current tag value with
    | (.unsupported,_) => .error ⟨.unsupported,Text.copy n current⟩
    | (.drop,_) => .ok s
    | (.keep,replacementName) =>
      match (if s.emitted then some s.result else append mem s.result [s.currentGroup]) with
      | none => .error (.plain .noMemory)
      | some result =>
        match appendAttribute mem result tag (outputName name replacementName)
            (outputValue upstreamDocumentFormat s.currentGroup tag current value) with
        | none => .error (.plain .noMemory)
        | some result => .ok { s with result := result, emitted := true }
  onFault _ e := .plain e

def normalizeFacadeJobDefaults (input : Bytes) : Except (Rejection n) (Bytes × ℕ) :=
  if input.length < ippHeaderLength then .error (.plain .incomplete)
  else match append mem [] (input.take ippHeaderLength) with
    | none => .error (.plain .noMemory)
    | some result =>
      match (facadeWalker mem t upstreamDocumentFormat).walk ⟨result,0,true⟩ []
          (input.drop ippHeaderLength) with
      | .error e => .error e
      | .ok (s,rest) =>
        match append mem s.result [Tag.endAttributes] with
        | none => .error (.plain .noMemory)
        | some result =>
          match append mem result rest with
          | none => .error (.plain .noMemory)
          | some output => .ok (output,result.length)

end

/-- Returns the output and the offset of the document in it. The passes allocate separately. -/
def ippCodecRewriteRequestForFormatDiagnostic {n : ℕ} (mem mem' : Memory)
    (input printerUri authority : Bytes) (t : PrinterTarget)
    (upstreamDocumentFormat : Option Bytes) : Except (Rejection n) (Bytes × ℕ) :=
  match ippCodecRewrite mem input printerUri authority with
  | .error e => .error (.plain e)
  | .ok (rewritten,_) => normalizeFacadeJobDefaults mem' t upstreamDocumentFormat rewritten

def ippCodecRewriteRequestDiagnostic {n : ℕ} (mem mem' : Memory)
    (input printerUri authority : Bytes) (t : PrinterTarget) :
    Except (Rejection n) (Bytes × ℕ) :=
  ippCodecRewriteRequestForFormatDiagnostic mem mem' input printerUri authority t none

def ippCodecRewriteRequest (mem mem' : Memory) (input printerUri authority : Bytes)
    (t : PrinterTarget) : Except (Rejection 0) (Bytes × ℕ) :=
  ippCodecRewriteRequestDiagnostic mem mem' input printerUri authority t

/-! ### What becomes of a record

Whether a job attribute is consumed depends on its name alone; its tag and value only decide
between dropping it and refusing the request. -/

/-- Job Template attributes that never reach this printer. -/
def isConsumed (t : PrinterTarget) (group : UInt8) (name : Bytes) : Bool :=
  group = Tag.jobAttributes && (isContentHint name || neutralDefaults.any (·.applies t name))

/-- The new name of a kept record, if it gets one. -/
def replacementFor (t : PrinterTarget) (group : UInt8) (name : Bytes) : Option String :=
  if group = Tag.jobAttributes ∧ isLegacyColorMode t name then some "output-mode" else none

/-- Name octets of a kept record. -/
def facadeName (t : PrinterTarget) (group : UInt8) (name : Bytes) : Bytes :=
  if group = Tag.jobAttributes ∧ isLegacyColorMode t (cstr name) then octets "output-mode" else name

def facadeRecord (t : PrinterTarget) (upstreamDocumentFormat : Option Bytes) (r : Record) :
    Option Record :=
  if isConsumed t r.group r.attributeName then none
  else some ⟨r.group,facadeName t r.group r.name,r.tag,
    outputValue upstreamDocumentFormat r.group r.tag r.attributeName r.value⟩

/-- The record makes the whole request unsupported. -/
def isRefused (t : PrinterTarget) (r : Record) : Bool :=
  (groupAction t r.group r.attributeName r.tag r.value).1 = .unsupported

theorem isLegacyColorMode_not_consumed {t : PrinterTarget} {name : Bytes}
    (h : isLegacyColorMode t name = true) (group : UInt8) : isConsumed t group name = false := by
  simp only [isLegacyColorMode, Bool.and_eq_true, decide_eq_true_eq] at h
  obtain ⟨rfl,-⟩ := h
  simp [isConsumed, isContentHint, neutralDefaults, NeutralDefault.applies]

/-- The whole decision, read off the name. -/
theorem groupAction_keep {t : PrinterTarget} {group : UInt8} {name : Bytes}
    (h : isConsumed t group name = false) (tag : UInt8) (value : Bytes) :
    groupAction t group name tag value = (.keep,replacementFor t group name) := by
  unfold groupAction replacementFor
  by_cases hg : group = Tag.jobAttributes
  · simp only [isConsumed, hg, decide_true, Bool.true_and, Bool.or_eq_false_iff] at h
    have hfind : neutralDefaults.find? (·.applies t name) = none := by
      apply List.find?_eq_none.mpr
      intro d hd ha
      have := List.any_eq_false.mp h.2 d hd
      exact this ha
    by_cases hl : isLegacyColorMode t name = true
    · simp [facadeJobAttributeAction, hg, hl]
    · simp [facadeJobAttributeAction, hg, hl, h.1, hfind]
  · simp [hg]

theorem groupAction_consumed {t : PrinterTarget} {group : UInt8} {name : Bytes}
    (h : isConsumed t group name = true) (tag : UInt8) (value : Bytes) :
    groupAction t group name tag value = (.drop,none) ∨
      groupAction t group name tag value = (.unsupported,none) := by
  have hl : isLegacyColorMode t name = false := by
    by_contra hl
    rw [isLegacyColorMode_not_consumed (by simpa using hl)] at h
    cases h
  simp only [isConsumed, Bool.and_eq_true, decide_eq_true_eq, Bool.or_eq_true] at h
  obtain ⟨rfl,h⟩ := h
  simp only [groupAction, if_true, facadeJobAttributeAction, hl, Bool.false_eq_true, if_false]
  by_cases hc : isContentHint name = true
  · simp only [hc, if_true]
    split <;> simp
  · have hd := h.resolve_left hc
    obtain ⟨d,hfind⟩ := Option.isSome_iff_exists.mp (List.find?_isSome.mpr (List.any_eq_true.mp hd))
    simp only [hc, hfind]
    split <;> simp

theorem groupAction_eq_keep {t : PrinterTarget} {group : UInt8} {name : Bytes} {tag : UInt8}
    {value : Bytes} {replacementName : Option String}
    (h : groupAction t group name tag value = (.keep,replacementName)) :
    replacementName = replacementFor t group name := by
  cases hc : isConsumed t group name with
  | true => rcases groupAction_consumed hc tag value with h' | h' <;> rw [h] at h' <;> cases h'
  | false =>
    rw [groupAction_keep hc] at h
    cases h
    rfl

theorem outputName_replacementFor {t : PrinterTarget} (own : Bytes) (group : UInt8) (name : Bytes) :
    outputName own (replacementFor t group name) = own ∨
      (own ≠ [] ∧ outputName own (replacementFor t group name) = octets "output-mode") := by
  unfold replacementFor
  split
  · by_cases h : own = []
    · simp [outputName, h]
    · simp [outputName, h]
  · exact .inl rfl

theorem outputName_length {t : PrinterTarget} {own : Bytes} (group : UInt8) (name : Bytes)
    (h : own.length ≤ ippNameMax) :
    (outputName own (replacementFor t group name)).length ≤ ippNameMax := by
  rcases outputName_replacementFor own group name with h' | ⟨-,h'⟩
  · rwa [h']
  · rw [h']; decide

theorem isRefused_consumed {t : PrinterTarget} {r : Record} (h : isRefused t r = true) :
    isConsumed t r.group r.attributeName = true := by
  by_contra hc
  rw [isRefused, groupAction_keep (by simpa using hc)] at h
  simp at h

/-! ### What the loop computes -/

section
variable (t : PrinterTarget) (upstreamDocumentFormat : Option Bytes)

/-- The item list after the pass. -/
def facadeItems : Bytes → UInt8 → Bool → List Item → List Item
  | _, _, _, [] => []
  | _, _, _, .group group :: is => facadeItems [] group false is
  | current, group, emitted, .value tag name value :: is =>
    let current := carryName current name
    match groupAction t group current tag value with
    | (.keep,replacementName) =>
      (if emitted then [] else [.group group]) ++
        .value tag (outputName name replacementName)
          (outputValue upstreamDocumentFormat group tag current value) ::
        facadeItems current group true is
    | _ => facadeItems current group emitted is

theorem facadeItems_value_keep {current name value : Bytes} {group tag : UInt8}
    {replacementName : Option String} (emitted : Bool) (is : List Item)
    (h : groupAction t group (carryName current name) tag value = (.keep,replacementName)) :
    facadeItems t upstreamDocumentFormat current group emitted (.value tag name value :: is) =
      (if emitted then [] else [.group group]) ++
        .value tag (outputName name replacementName)
          (outputValue upstreamDocumentFormat group tag (carryName current name) value) ::
        facadeItems t upstreamDocumentFormat (carryName current name) group true is := by
  simp only [facadeItems, h]

theorem facadeItems_value_drop {current name value : Bytes} {group tag : UInt8} (emitted : Bool)
    (is : List Item)
    (h : (groupAction t group (carryName current name) tag value).1 ≠ .keep) :
    facadeItems t upstreamDocumentFormat current group emitted (.value tag name value :: is) =
      facadeItems t upstreamDocumentFormat (carryName current name) group emitted is := by
  simp only [facadeItems]
  split
  · rename_i hk
    rw [hk] at h
    exact absurd rfl h
  · rfl

end

section
variable {t : PrinterTarget} {upstreamDocumentFormat : Option Bytes} {name own value : Bytes}
  {group tag : UInt8} {emitted : Bool} {is : List Item}

theorem facadeItems_value_consumed (h : isConsumed t group (cstr (inheritName name own)) = true) :
    facadeItems t upstreamDocumentFormat (cstr name) group emitted (.value tag own value :: is) =
      facadeItems t upstreamDocumentFormat (cstr (inheritName name own)) group emitted is := by
  rw [cstr_inheritName] at h ⊢
  apply facadeItems_value_drop
  rcases groupAction_consumed h tag value with h | h <;> simp [h]

theorem facadeItems_value_kept (h : isConsumed t group (cstr (inheritName name own)) = false) :
    facadeItems t upstreamDocumentFormat (cstr name) group emitted (.value tag own value :: is) =
      (if emitted then [] else [.group group]) ++
        .value tag (outputName own (replacementFor t group (cstr (inheritName name own))))
          (outputValue upstreamDocumentFormat group tag (cstr (inheritName name own)) value) ::
        facadeItems t upstreamDocumentFormat (cstr (inheritName name own)) group true is := by
  rw [cstr_inheritName] at h ⊢
  exact facadeItems_value_keep t upstreamDocumentFormat emitted is (groupAction_keep h tag value)

end

/-- The names in force on the two sides of the pass. Nothing of a group whose tag is still to be
written has been kept, so a name in force there belongs to a consumed attribute. -/
structure FacadeStep (t : PrinterTarget) (group : UInt8) (emitted : Bool) (name out : Bytes) :
    Prop where
  kept : emitted = true → isConsumed t group (cstr name) = false → out = facadeName t group name
  waiting : emitted = false → name = [] ∨ isConsumed t group (cstr name) = true

theorem FacadeStep.of_group (t : PrinterTarget) (group : UInt8) (out : Bytes) :
    FacadeStep t group false [] out := ⟨nofun,fun _ => .inl rfl⟩

theorem FacadeStep.of_consumed {t : PrinterTarget} {group : UInt8} {name : Bytes}
    (h : isConsumed t group (cstr name) = true) (emitted : Bool) (out : Bytes) :
    FacadeStep t group emitted name out :=
  ⟨fun _ h' => absurd (h.symm.trans h') (by simp),fun _ => .inr h⟩

theorem FacadeStep.of_kept (t : PrinterTarget) (group : UInt8) (name : Bytes) :
    FacadeStep t group true name (facadeName t group name) :=
  ⟨fun _ _ => rfl,nofun⟩

section
variable {n : ℕ} {mem : Memory} {t : PrinterTarget} {upstreamDocumentFormat : Option Bytes}

/-- A completed fold met no refused record and wrote the kept ones. -/
theorem facadeWalker_fold_ok {s s' : FacadeState} {name : Bytes} {items : List Item}
    (h : (facadeWalker (n := n) mem t upstreamDocumentFormat).fold s (cstr name) items = .ok s') :
    s'.result = s.result ++ encodeItems
        (facadeItems t upstreamDocumentFormat (cstr name) s.currentGroup s.emitted items) ∧
      (∀ i ∈ facadeItems t upstreamDocumentFormat (cstr name) s.currentGroup s.emitted items,
        i.Short) ∧
      ∀ r ∈ recordsFrom s.currentGroup name items, isRefused t r = false := by
  induction items generalizing s name with
  | nil => cases h; simp [facadeItems, recordsFrom]
  | cons i is ih =>
    cases i with
    | group tag =>
      obtain ⟨s1,hs1,h⟩ := Walker.fold_group_ok h
      cases hs1
      rw [← cstr_nil] at h
      exact ih h
    | value tag own value =>
      obtain ⟨s1,hs1,h⟩ := Walker.fold_value_ok h
      rw [← cstr_inheritName] at hs1 h
      simp only [facadeWalker] at hs1
      split at hs1
      · cases hs1
      · rename_i x ha
        cases hs1
        obtain ⟨hout,hshort,hrec⟩ := ih h
        rw [facadeItems_value_drop t upstreamDocumentFormat s.emitted is
          (by rw [← cstr_inheritName, ha]; simp), ← cstr_inheritName]
        refine ⟨hout,hshort,?_⟩
        intro r hr
        rcases List.mem_cons.mp hr with rfl | hr
        · simp [isRefused, Record.attributeName, ha]
        · exact hrec r hr
      · rename_i replacementName ha
        split at hs1
        · cases hs1
        rename_i result hgroup
        split at hs1
        · cases hs1
        rename_i result' hresult
        cases hs1
        obtain ⟨hout,hshort,hrec⟩ := ih h
        obtain ⟨hresult,hvalue⟩ := appendAttribute_some hresult
        have hgroup : result = s.result ++
            encodeItems (if s.emitted then [] else [.group s.currentGroup]) := by
          cases he : s.emitted with
          | true => simpa [he] using hgroup.symm
          | false => simpa [Item.encode] using append_some (by simpa [he] using hgroup)
        rw [facadeItems_value_keep t upstreamDocumentFormat s.emitted is
          (by rw [← cstr_inheritName]; exact ha), ← cstr_inheritName]
        refine ⟨?_,?_,?_⟩
        · rw [hout, hresult, hgroup]
          simp
        · intro i hi
          rcases List.mem_append.mp hi with hi | hi
          · cases he : s.emitted <;> simp [he] at hi
            subst hi
            trivial
          · rcases List.mem_cons.mp hi with rfl | hi
            · exact hvalue
            · exact hshort i hi
        · intro r hr
          rcases List.mem_cons.mp hr with rfl | hr
          · simp [isRefused, Record.attributeName, ha]
          · exact hrec r hr

/-- The upstream format does not fit a value's length field. -/
def LongFormat (upstreamDocumentFormat : Option Bytes) : Prop :=
  ∃ format, upstreamDocumentFormat = some format ∧ 65535 < (cstr format).length

theorem longFormat_of_outputValue {group tag : UInt8} {name value : Bytes}
    (hvalue : value.length < 65536)
    (h : 65535 < (outputValue upstreamDocumentFormat group tag name value).length) :
    LongFormat upstreamDocumentFormat := by
  unfold outputValue at h
  split at h
  · rename_i format
    split at h
    · exact ⟨format,rfl,h⟩
    · omega
  · omega

theorem facadeWalker_onValue_keep {s : FacadeState} {current value own : Bytes} {tag : UInt8}
    {replacementName : Option String} (mem : Memory) (upstreamDocumentFormat : Option Bytes)
    (hown : own.length ≤ ippNameMax) (hvalue : value.length < 65536)
    (h : groupAction t s.currentGroup current tag value = (.keep,replacementName)) :
    ((facadeWalker (n := n) mem t upstreamDocumentFormat).onValue s current tag own value =
        .error (.plain .noMemory) ∧ (mem.Refuses ∨ LongFormat upstreamDocumentFormat)) ∨
      ∃ result, (facadeWalker (n := n) mem t upstreamDocumentFormat).onValue s current tag own
        value = .ok { s with result := result, emitted := true } := by
  have hname := outputName_length (t := t) s.currentGroup current hown
  simp only [ippNameMax] at hname
  simp only [facadeWalker, h, groupAction_eq_keep h]
  split
  · rename_i ha
    refine .inl ⟨rfl,.inl ?_⟩
    split at ha
    · cases ha
    · exact append_none ha
  split
  · rename_i ha
    refine .inl ⟨rfl,?_⟩
    rcases appendAttribute_none ha with hm | hn | hv
    · exact .inl hm
    · omega
    · exact .inr (longFormat_of_outputValue hvalue hv)
  · rename_i result hr
    exact .inr ⟨result,rfl⟩

/-- A fold that stops early ran out of memory or met a refused record: the first one, whose name
it reports. -/
theorem facadeWalker_fold_error {s : FacadeState} {name : Bytes} {items : List Item}
    {e : Rejection n} (hok : ItemsOk (cstr name) items)
    (h : (facadeWalker mem t upstreamDocumentFormat).fold s (cstr name) items = .error e) :
    (e = .plain .noMemory ∧ (mem.Refuses ∨ LongFormat upstreamDocumentFormat)) ∨ ∃ r,
      (recordsFrom s.currentGroup name items).find? (isRefused t) = some r ∧
        e = ⟨.unsupported,Text.copy n r.attributeName⟩ := by
  induction items generalizing s name with
  | nil => cases h
  | cons i is ih =>
    cases i with
    | group tag =>
      obtain ⟨-,-,hrest⟩ := hok
      rw [← cstr_nil] at hrest
      rw [Walker.fold_group rfl, ← cstr_nil] at h
      exact ih hrest h
    | value tag own value =>
      obtain ⟨hvalue,hrest⟩ := hok
      simp only [Walker.fold, ← cstr_inheritName] at h hrest
      simp only [recordsFrom]
      cases ha : groupAction t s.currentGroup (cstr (inheritName name own)) tag value with
      | mk action replacementName =>
        have hrefused : isRefused t ⟨s.currentGroup,inheritName name own,tag,value⟩ =
            decide (action = .unsupported) := by simp [isRefused, Record.attributeName, ha]
        cases action with
        | unsupported =>
          simp only [facadeWalker, ha] at h
          cases h
          exact .inr ⟨_,List.find?_cons_of_pos (by simp [hrefused]),rfl⟩
        | drop =>
          simp only [facadeWalker, ha] at h
          rw [List.find?_cons_of_neg (by simp [hrefused])]
          exact ih hrest h
        | keep =>
          rw [List.find?_cons_of_neg (by simp [hrefused])]
          rcases facadeWalker_onValue_keep mem upstreamDocumentFormat hvalue.2.1 hvalue.2.2.1 ha
            with ⟨hv,hcause⟩ | ⟨result,hv⟩
          · rw [hv] at h
            cases h
            exact .inl ⟨rfl,hcause⟩
          · simp only [hv] at h
            have hnext := ih hrest h
            exact hnext

end

/-! ### The records of the rewritten request -/

section
variable {t : PrinterTarget} {upstreamDocumentFormat : Option Bytes}

theorem outputName_eq_nil {own : Bytes} {group : UInt8} {name : Bytes}
    (h : outputName own (replacementFor t group name) = []) : own = [] := by
  rcases outputName_replacementFor own group name with h' | ⟨-,h'⟩
  · rw [← h', h]
  · rw [h] at h'
    exact absurd h' (by decide)

/-- Name in force in the output after a kept record. -/
theorem FacadeStep.inheritName_eq {group : UInt8} {emitted : Bool} {name out own : Bytes}
    (hstep : FacadeStep t group emitted name out)
    (hkeep : isConsumed t group (cstr (inheritName name own)) = false)
    (hown : ¬ (own = [] ∧ name = [])) :
    inheritName (if emitted then out else [])
        (outputName own (replacementFor t group (cstr (inheritName name own)))) =
      facadeName t group (inheritName name own) := by
  by_cases h : own = []
  · -- an unnamed value that is kept continues a record that was kept, in a group already open
    subst h
    simp only [inheritName, if_true] at hkeep ⊢
    have hname : name ≠ [] := fun h => hown ⟨rfl,h⟩
    have hemitted : emitted = true := by
      by_contra he
      rcases hstep.waiting (by simpa using he) with h | h
      · exact hname h
      · rw [hkeep] at h; cases h
    have hout : outputName [] (replacementFor t group (cstr name)) = [] :=
      (outputName_replacementFor [] group (cstr name)).resolve_right fun h => h.1 rfl
    simp [hout, hemitted, hstep.kept hemitted hkeep]
  · have hmode : octets "output-mode" ≠ [] := by decide
    simp only [inheritName, if_neg h, facadeName, replacementFor]
    split
    · simp [outputName, h, hmode]
    · simp [outputName, h]

/-- The record that stands for a kept one is acceptable where it is written. -/
theorem FacadeStep.valueOk {group tag : UInt8} {emitted : Bool} {name out own value value' : Bytes}
    (hstep : FacadeStep t group emitted name out)
    (hkeep : isConsumed t group (cstr (inheritName name own)) = false)
    (hok : ValueOk (cstr name) tag own value) (hshort : value'.length < 65536) :
    ValueOk (cstr (if emitted then out else [])) tag
      (outputName own (replacementFor t group (cstr (inheritName name own)))) value' := by
  obtain ⟨htag,hlen,-,hnamed⟩ := hok
  refine ⟨htag,?_,hshort,?_⟩
  · exact outputName_length group _ hlen
  · rintro ⟨hnil,hcur⟩
    have hown := outputName_eq_nil hnil
    subst hown
    have hname : ¬ cstr name = [] := fun h => hnamed ⟨rfl,h⟩
    have heq := hstep.inheritName_eq hkeep (fun h => hname (by rw [h.2, cstr_nil]))
    rw [hnil] at heq
    simp only [inheritName, if_true] at heq
    rw [heq, facadeName] at hcur
    split at hcur
    · exact absurd hcur (by decide)
    · exact hname hcur

theorem facadeItems_ok {group : UInt8} {emitted : Bool} {name out : Bytes} {items : List Item}
    (hgroup : emitted = false → group ≤ 0x0f ∧ group ≠ Tag.endAttributes)
    (hstep : FacadeStep t group emitted name out) (hok : ItemsOk (cstr name) items)
    (hshort : ∀ i ∈ facadeItems t upstreamDocumentFormat (cstr name) group emitted items,
      i.Short) :
    ItemsOk (cstr out) (facadeItems t upstreamDocumentFormat (cstr name) group emitted items) := by
  induction items generalizing group emitted name out with
  | nil => trivial
  | cons i is ih =>
    cases i with
    | group tag =>
      obtain ⟨hle,hne,hrest⟩ := hok
      rw [← cstr_nil] at hrest
      exact ih (fun _ => ⟨hle,hne⟩) (FacadeStep.of_group t tag out) hrest hshort
    | value tag own value =>
      obtain ⟨hvalue,hrest⟩ := hok
      rw [← cstr_inheritName] at hrest
      cases hc : isConsumed t group (cstr (inheritName name own)) with
      | true =>
        rw [facadeItems_value_consumed hc] at hshort ⊢
        exact ih hgroup (FacadeStep.of_consumed hc emitted out) hrest hshort
      | false =>
        rw [facadeItems_value_kept hc] at hshort ⊢
        have hown : ¬ (own = [] ∧ name = []) := by
          rintro ⟨rfl,rfl⟩
          exact hvalue.2.2.2 ⟨rfl,rfl⟩
        have hv := hstep.valueOk hc hvalue (hshort _ (List.mem_append_right _ List.mem_cons_self))
        have hr := ih (by simp) (FacadeStep.of_kept t group (inheritName name own)) hrest
          fun i hi => hshort i (List.mem_append_right _ (List.mem_cons_of_mem _ hi))
        rw [← hstep.inheritName_eq hc hown, cstr_inheritName] at hr
        cases emitted with
        | true => exact ⟨hv,hr⟩
        | false =>
          obtain ⟨hle,hne⟩ := hgroup rfl
          exact ⟨hle,hne,hv,hr⟩

/-- Record by record, the pass deletes the consumed attributes, renames the legacy colour mode
and replaces the document format. -/
theorem recordsFrom_facadeItems {group group' : UInt8} {emitted : Bool} {name out : Bytes}
    {items : List Item} (hgroup : emitted = true → group' = group)
    (hstep : FacadeStep t group emitted name out) (hok : ItemsOk (cstr name) items) :
    recordsFrom group' out
        (facadeItems t upstreamDocumentFormat (cstr name) group emitted items) =
      (recordsFrom group name items).filterMap (facadeRecord t upstreamDocumentFormat) := by
  induction items generalizing group group' emitted name out with
  | nil => rfl
  | cons i is ih =>
    cases i with
    | group tag =>
      obtain ⟨-,-,hrest⟩ := hok
      rw [← cstr_nil] at hrest
      exact ih (by simp) (FacadeStep.of_group t tag out) hrest
    | value tag own value =>
      obtain ⟨hvalue,hrest⟩ := hok
      rw [← cstr_inheritName] at hrest
      cases hc : isConsumed t group (cstr (inheritName name own)) with
      | true =>
        rw [facadeItems_value_consumed hc, recordsFrom, List.filterMap_cons_none
          (by simp [facadeRecord, Record.attributeName, hc])]
        exact ih hgroup (FacadeStep.of_consumed hc emitted out) hrest
      | false =>
        rw [facadeItems_value_kept hc, recordsFrom, List.filterMap_cons_some
          (by simp [facadeRecord, Record.attributeName, hc]; rfl)]
        have hown : ¬ (own = [] ∧ name = []) := by
          rintro ⟨rfl,rfl⟩
          exact hvalue.2.2.2 ⟨rfl,rfl⟩
        have hname := hstep.inheritName_eq hc hown
        have hr := ih (show true = true → group = group from fun _ => rfl)
          (FacadeStep.of_kept t group (inheritName name own)) hrest
        cases emitted with
        | true =>
          obtain rfl := hgroup rfl
          simp only [if_true, List.nil_append, recordsFrom] at hname ⊢
          rw [hname, hr]
        | false =>
          simp only [Bool.false_eq_true, if_false, List.cons_append, List.nil_append,
            recordsFrom] at hname ⊢
          rw [hname, hr]

end

section
variable {n : ℕ} {mem mem' : Memory} {t : PrinterTarget} {upstreamDocumentFormat : Option Bytes}

theorem FacadeStep.initial (t : PrinterTarget) : FacadeStep t 0 true [] [] := by
  have hname : facadeName t 0 [] = [] := if_neg (fun h => absurd h.1 (by decide))
  simpa only [hname] using FacadeStep.of_kept t 0 []

/-- The second pass, item by item. -/
theorem normalizeFacadeJobDefaults_items {input out : Bytes} {k : ℕ}
    (h : normalizeFacadeJobDefaults (n := n) mem t upstreamDocumentFormat input = .ok (out,k)) :
    ∃ e e', decode input = .ok e ∧ decode out = .ok e' ∧ k = e'.attributesLength ∧
      e'.header = e.header ∧ e'.document = e.document ∧
      e'.items = facadeItems t upstreamDocumentFormat [] 0 true e.items ∧
      ∀ r ∈ e.records, isRefused t r = false := by
  unfold normalizeFacadeJobDefaults at h
  split at h
  · cases h
  rename_i hlen
  split at h
  · cases h
  rename_i result hresult
  split at h
  · cases h
  rename_i s rest hwalk
  split at h
  · cases h
  rename_i result' hend
  split at h
  · cases h
  rename_i output houtput
  cases h
  obtain ⟨e,he,hf,rfl⟩ := Walker.walk_message_ok hlen hwalk
  rw [← cstr_nil] at hf
  obtain ⟨hout,hshort,hrefused⟩ := facadeWalker_fold_ok hf
  have hok := facadeItems_ok (by simp) (FacadeStep.initial t) e.items_ok hshort
  have hmessage : result' = e.header ++ (encodeItems
      (facadeItems t upstreamDocumentFormat (cstr []) 0 true e.items) ++ [Tag.endAttributes]) := by
    rw [append_some hend, hout, append_some hresult, header_of_decode he]
    simp
  refine ⟨e,⟨e.header,_,e.document,e.header_length,hok⟩,he,?_,?_,rfl,rfl,rfl,hrefused⟩
  · rw [append_some houtput, hmessage, List.append_assoc, List.append_assoc, List.singleton_append,
      decode_parts e.header_length hok]
  · rw [hmessage]
    rfl

/-- The second pass, as a map on decoded messages. -/
theorem normalizeFacadeJobDefaults_ok {input out : Bytes} {k : ℕ}
    (h : normalizeFacadeJobDefaults (n := n) mem t upstreamDocumentFormat input = .ok (out,k)) :
    ∃ e e', decode input = .ok e ∧ decode out = .ok e' ∧ k = e'.attributesLength ∧
      e'.header = e.header ∧ e'.document = e.document ∧
      e'.records = e.records.filterMap (facadeRecord t upstreamDocumentFormat) ∧
      ∀ r ∈ e.records, isRefused t r = false := by
  obtain ⟨e,e',he,he',hk,hheader,hdocument,hitems,hrefused⟩ := normalizeFacadeJobDefaults_items h
  refine ⟨e,e',he,he',hk,hheader,hdocument,?_,hrefused⟩
  rw [Envelope.records, hitems]
  exact recordsFrom_facadeItems (fun _ => rfl) (FacadeStep.initial t) e.items_ok

theorem normalizeFacadeJobDefaults_error {input : Bytes} {r : Rejection n}
    (h : normalizeFacadeJobDefaults mem t upstreamDocumentFormat input = .error r) {e : Envelope}
    (he : decode input = .ok e) :
    (r = .plain .noMemory ∧ (mem.Refuses ∨ LongFormat upstreamDocumentFormat)) ∨
      ∃ q, e.records.find? (isRefused t) = some q ∧
        r = ⟨.unsupported,Text.copy n q.attributeName⟩ := by
  unfold normalizeFacadeJobDefaults at h
  split at h
  · rename_i hlen
    rw [decode_of_short hlen] at he
    cases he
  rename_i hlen
  split at h
  · rename_i ha; cases h; exact .inl ⟨rfl,.inl (append_none ha)⟩
  split at h
  · rename_i hwalk
    cases h
    have hfold := Walker.fold_of_walk_error he hwalk
    rw [← cstr_nil] at hfold
    exact facadeWalker_fold_error (show ItemsOk (cstr []) e.items from e.items_ok) hfold
  split at h
  · rename_i ha; cases h; exact .inl ⟨rfl,.inl (append_none ha)⟩
  split at h
  · rename_i ha; cases h; exact .inl ⟨rfl,.inl (append_none ha)⟩
  · cases h

end

end Espresso.Codec
