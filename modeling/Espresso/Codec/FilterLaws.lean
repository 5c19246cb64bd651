import Espresso.Codec.Attributes
import Espresso.Codec.CommaList
import Espresso.Codec.OperationOrder

/-! The laws of response filtering: whole attributes, idempotence, and what selector lists have in
common. -/
namespace Espresso.Codec

/-- The attribute stays in the response. -/
def keeps (kind : ResponseKind) (requestedAttributes : Bytes) (group : UInt8) (name : Bytes) : Bool :=
  !filtersOut kind requestedAttributes group name

def Attribute.kept (kind : ResponseKind) (requestedAttributes : Bytes) (a : Attribute) : Bool :=
  keeps kind requestedAttributes a.group (cstr a.name)

/-! ### Messages -/

section
variable {kind : ResponseKind} {requestedAttributes : Bytes}

theorem keeps_outside {group : UInt8} (h : group ≠ kind.filteredGroup) (name : Bytes) :
    keeps kind requestedAttributes group name = true := by
  simp [keeps, filtersOut, h]

theorem editAttribute_filter (attributes : List Attribute) :
    attributes.filterMap (editAttribute (filtersOut kind requestedAttributes) fun _ _ value => value) =
      attributes.filter (Attribute.kept kind requestedAttributes) := by
  have hattribute : editAttribute (filtersOut kind requestedAttributes) (fun _ _ value => value) =
      Option.guard (Attribute.kept kind requestedAttributes) := by
    funext a
    cases h : filtersOut kind requestedAttributes a.group (cstr a.name) <;>
      simp [editAttribute, editValues, Option.guard, Attribute.kept, keeps, h]
  rw [hattribute, List.filterMap_eq_filter]

theorem groupTags_editItems (drops : UInt8 → Bytes → Bool)
    (newData : UInt8 → Bytes → Bytes → Bytes) (group : UInt8) (current : Bytes)
    (items : List Item) : groupTags (editItems drops newData group current items) =
      groupTags items := by
  induction items generalizing group current with
  | nil => rfl
  | cons i is ih =>
    cases i with
    | group tag => exact congrArg (tag :: ·) (ih tag [])
    | value tag name value =>
      simp only [editItems]
      split
      · exact ih group _
      · exact ih group _

/-- What has been let through is let through again. -/
theorem filterItems_filterItems {group : UInt8} {current current' : Bytes} {items : List Item}
    (hstep : InStep (filtersOut kind requestedAttributes) group current current') :
    filterItems kind requestedAttributes group (cstr current')
        (filterItems kind requestedAttributes group (cstr current) items) =
      filterItems kind requestedAttributes group (cstr current) items := by
  induction items generalizing group current current' with
  | nil => rfl
  | cons i is ih =>
    cases i with
    | group tag =>
      have hrest := ih (InStep.refl (filtersOut kind requestedAttributes) tag [])
      exact congrArg (Item.group tag :: ·) hrest
    | value tag name value =>
      simp only [filterItems, editItems, ← cstr_inheritName] at ih ⊢
      cases hd : filtersOut kind requestedAttributes group (cstr (inheritName current name)) with
      | true =>
        simp only [if_true]
        exact ih (InStep.of_drops hd current')
      | false =>
        simp only [Bool.false_eq_true, if_false, editItems, ← cstr_inheritName,
          hstep.inheritName_eq hd, hd]
        rw [ih (InStep.refl _ group (inheritName current name))]

theorem filterResponse_idempotent {mem mem' : Memory} {input out : Bytes} {k : ℕ}
    (h : ippCodecFilterResponse mem kind requestedAttributes input = .ok (out,k)) :
    (ippCodecFilterResponse mem' kind requestedAttributes out = .error .noMemory ∧ mem'.Refuses) ∨
      ∃ k', ippCodecFilterResponse mem' kind requestedAttributes out = .ok (out,k') := by
  obtain ⟨e,e',he,he',-,-,-,hitems⟩ := ippCodecFilterResponse_items h
  cases h' : ippCodecFilterResponse mem' kind requestedAttributes out with
  | error f =>
    rcases ippCodecFilterResponse_error h' with ⟨rfl,hmem⟩ | hd
    · exact .inl ⟨rfl,hmem⟩
    · rw [he'] at hd
      cases hd
  | ok r =>
    obtain ⟨out',k'⟩ := r
    obtain ⟨e1,e2,he1,he2,-,hheader,hdocument,hitems'⟩ := ippCodecFilterResponse_items h'
    rw [he'] at he1
    cases he1
    have hsame : e2.items = e'.items := by
      have hagain := @filterItems_filterItems kind requestedAttributes 0 [] [] e.items
        (InStep.refl _ 0 [])
      rw [cstr_nil] at hagain
      rw [hitems', hitems, hagain]
    refine .inr ⟨k',?_⟩
    rw [← encode_of_decode he2, ← encode_of_decode he', Envelope.encode_eq, Envelope.encode_eq,
      hheader, hdocument, hsame]

end

/-! ### Selector lists -/

section
variable {kind : ResponseKind} {group : UInt8} {name : Bytes}

theorem listed_append {r1 r2 value : Bytes} :
    Listed (r1 ++ comma :: r2) value ↔ Listed r1 value ∨ Listed r2 value := by
  simp only [Listed, entries_append, List.mem_append, or_and_right, exists_or]

theorem requestedGroupMask_append (r1 r2 : Bytes) :
    requestedGroupMask (r1 ++ comma :: r2) = requestedGroupMask r1 ||| requestedGroupMask r2 := by
  have happend : ∀ value, csvContains (r1 ++ comma :: r2) value =
      (csvContains r1 value || csvContains r2 value) := by
    intro value
    rw [Bool.eq_iff_iff, Bool.or_eq_true]
    simp only [csvContains_iff, listed_append]
  simp only [requestedGroupMask, requestedGroupSelectors, List.foldl_cons, List.foldl_nil, happend]
  cases csvContains r1 (octets "job-template") <;> cases csvContains r2 (octets "job-template") <;>
  cases csvContains r1 (octets "job-description") <;>
  cases csvContains r2 (octets "job-description") <;>
  cases csvContains r1 (octets "printer-description") <;>
  cases csvContains r2 (octets "printer-description") <;> rfl

/-- The four reasons to keep an attribute. -/
theorem keeps_iff {r : Bytes} (hr : r ≠ []) : keeps kind r group name = true ↔
    group ≠ kind.filteredGroup ∨ Listed r name ∨
      (Listed r (octets "all") ∧ classifyResponseAttribute group name ≠ 0) ∨
      classifyResponseAttribute group name &&& requestedGroupMask r ≠ 0 := by
  simp only [keeps, filtersOut, Bool.not_not, Bool.or_eq_true, Bool.and_eq_true,
    decide_eq_true_eq, csvContains_iff, hr, false_or, or_assoc]

/-- Two lists together keep what either keeps. -/
theorem keeps_append {r1 r2 : Bytes} (h1 : r1 ≠ []) (h2 : r2 ≠ []) :
    keeps kind (r1 ++ comma :: r2) group name = true ↔
      keeps kind r1 group name = true ∨ keeps kind r2 group name = true := by
  have hbits : classifyResponseAttribute group name &&& requestedGroupMask (r1 ++ comma :: r2) ≠ 0 ↔
      classifyResponseAttribute group name &&& requestedGroupMask r1 ≠ 0 ∨
        classifyResponseAttribute group name &&& requestedGroupMask r2 ≠ 0 := by
    rw [requestedGroupMask_append, Nat.and_or_distrib_left, ne_eq, Nat.or_eq_zero_iff, not_and_or]
  rw [keeps_iff (by simp), keeps_iff h1, keeps_iff h2, hbits, listed_append, listed_append]
  tauto

/-- The selectors for all groups of a response. -/
def ResponseKind.groupSelectors : ResponseKind → Bytes
  | .printer => octets "job-template,printer-description"
  | .job => octets "job-template,job-description"

theorem length_of_listed {value : Bytes} {r : String} {lengths : List ℕ}
    (hentries : (entries (octets r)).map List.length = lengths) (h : Listed (octets r) value) :
    value.length ∈ lengths := by
  obtain ⟨entry,hentry,heq⟩ := h
  have hlength : entry.length = value.length := by
    have := congrArg List.length ((equalSpan_iff entry value).mp heq)
    simpa using this
  rw [← hentries, ← hlength]
  exact List.mem_map_of_mem hentry

/-- The class of what describes the object itself. -/
def ResponseKind.description : ResponseKind → ℕ
  | .printer => RequestedGroup.printerDescription
  | .job => RequestedGroup.jobDescription

theorem classify_cases (kind : ResponseKind) (name : Bytes) :
    (classifyResponseAttribute kind.filteredGroup name = 0 ∧
        isExplicitOnlyPrinterAttribute name = true) ∨
      classifyResponseAttribute kind.filteredGroup name = RequestedGroup.jobTemplate ∨
      classifyResponseAttribute kind.filteredGroup name = kind.description := by
  have hne : Tag.jobAttributes ≠ Tag.printerAttributes := by decide
  unfold classifyResponseAttribute
  cases kind with
  | printer =>
    rw [if_pos (show ResponseKind.printer.filteredGroup = Tag.printerAttributes from rfl)]
    split
    · rename_i h
      exact .inl ⟨rfl,h⟩
    · right
      split
      · exact .inl rfl
      · exact .inr rfl
  | job =>
    right
    rw [if_neg (show ResponseKind.job.filteredGroup ≠ Tag.printerAttributes from hne),
      if_pos (show ResponseKind.job.filteredGroup = Tag.jobAttributes from rfl)]
    split
    · exact .inl rfl
    · exact .inr rfl

/-- Only the media database has no class. -/
theorem classify_ne_zero (hgroup : group = kind.filteredGroup) (hlength : name.length ≠ 18) :
    classifyResponseAttribute group name ≠ 0 := by
  subst hgroup
  rcases classify_cases kind name with ⟨-,h⟩ | h | h
  · simp only [isExplicitOnlyPrinterAttribute, explicitOnlyPrinterAttributes, List.any_cons,
      List.any_nil, Bool.or_false, attributeNameEquals] at h
    have hlen := congrArg List.length ((equalSpan_iff _ _).mp h)
    simp only [List.length_map] at hlen
    exact absurd (hlen.trans (by decide +kernel)) hlength
  · rw [h]
    decide
  · rw [h]
    cases kind <;> decide

/-- Within the filtered group both lists keep what has a class. -/
theorem keeps_all_iff (hgroup : group = kind.filteredGroup) :
    keeps kind (octets "all") group name = true ↔ classifyResponseAttribute group name ≠ 0 := by
  have hmask : requestedGroupMask (octets "all") = 0 := by decide +kernel
  have hall : Listed (octets "all") (octets "all") := by decide +kernel
  rw [keeps_iff (by decide), hmask, Nat.and_zero]
  constructor
  · rintro (h | h | h | h)
    · exact absurd hgroup h
    · have hlen := @length_of_listed _ "all" [3] (by decide +kernel) h
      exact classify_ne_zero hgroup (by simp only [List.mem_singleton] at hlen; omega)
    · exact h.2
    · exact absurd rfl h
  · intro h
    exact .inr (.inr (.inl ⟨hall,h⟩))

theorem and_groupMask (hgroup : group = kind.filteredGroup)
    (h : classifyResponseAttribute group name ≠ 0) :
    classifyResponseAttribute group name &&& requestedGroupMask kind.groupSelectors ≠ 0 := by
  have hprinter : requestedGroupMask ResponseKind.printer.groupSelectors =
      RequestedGroup.jobTemplate ||| RequestedGroup.printerDescription := by decide +kernel
  have hjob : requestedGroupMask ResponseKind.job.groupSelectors =
      RequestedGroup.jobTemplate ||| RequestedGroup.jobDescription := by decide +kernel
  have hmask : requestedGroupMask kind.groupSelectors =
      RequestedGroup.jobTemplate ||| kind.description := by
    cases kind with
    | printer => exact hprinter
    | job => exact hjob
  subst hgroup
  rw [hmask]
  rcases classify_cases kind name with ⟨h0,-⟩ | h1 | h1
  · exact absurd h0 h
  · rw [h1]
    cases kind <;> decide
  · rw [h1]
    cases kind <;> decide

theorem keeps_groupSelectors_iff (hgroup : group = kind.filteredGroup) :
    keeps kind kind.groupSelectors group name = true ↔ classifyResponseAttribute group name ≠ 0 := by
  rw [keeps_iff (by cases kind <;> decide)]
  constructor
  · rintro (h | h | h | h)
    · exact absurd hgroup h
    · -- the selectors have the lengths 12, 19 and 15
      apply classify_ne_zero hgroup
      cases kind with
      | printer =>
        have hlen := @length_of_listed _ "job-template,printer-description" [12,19]
          (by decide +kernel) h
        simp only [List.mem_cons, List.not_mem_nil, or_false] at hlen
        omega
      | job =>
        have hlen := @length_of_listed _ "job-template,job-description" [12,15]
          (by decide +kernel) h
        simp only [List.mem_cons, List.not_mem_nil, or_false] at hlen
        omega
    · exact h.2
    · intro h0
      rw [h0, Nat.zero_and] at h
      exact h rfl
  · intro h
    exact .inr (.inr (.inr (and_groupMask hgroup h)))

theorem keeps_all : keeps kind (octets "all") group name = keeps kind kind.groupSelectors group name := by
  by_cases hgroup : group = kind.filteredGroup
  · rw [Bool.eq_iff_iff, keeps_all_iff hgroup, keeps_groupSelectors_iff hgroup]
  · rw [keeps_outside hgroup, keeps_outside hgroup]

/-- The media database has to be asked for by name. -/
theorem listed_of_keeps_database {r : Bytes}
    (hname : attributeNameEquals name "media-col-database" = true)
    (h : keeps .printer r Tag.printerAttributes name = true) :
    Listed r (octets "media-col-database") := by
  have hclass : classifyResponseAttribute Tag.printerAttributes name = 0 := by
    simp [classifyResponseAttribute, isExplicitOnlyPrinterAttribute, explicitOnlyPrinterAttributes,
      hname]
  simp only [keeps, filtersOut, ResponseKind.filteredGroup, hclass, ne_eq, not_true_eq_false,
    decide_false, Bool.false_or, Bool.and_false, Bool.or_false, Nat.zero_and, Bool.not_not,
    csvContains_iff] at h
  exact (listed_congr hname).mp h

end

/-- A filtered response is the response with some whole attributes of one group left out. Filtering
again changes nothing, lists of selectors add up, `all` is both groups, and the media database has
to be asked for by name. -/
theorem filterResponse_laws (kind : ResponseKind) :
    (∀ (mem : Memory) (r input : Bytes) (e : Envelope), decode input = .ok e →
      (ippCodecFilterResponse mem kind r input = .error .noMemory ∧ mem.Refuses) ∨
      ∃ out k e', ippCodecFilterResponse mem kind r input = .ok (out,k) ∧ decode out = .ok e' ∧
        e'.header = e.header ∧ e'.document = e.document ∧ groupTags e'.items = groupTags e.items ∧
        e'.attributeBlocks = e.attributeBlocks.filter (Attribute.kept kind r) ∧
        (∀ a : Attribute, a.group ≠ kind.filteredGroup → a.kept kind r = true) ∧
        ∀ mem' : Memory,
          (ippCodecFilterResponse mem' kind r out = .error .noMemory ∧ mem'.Refuses) ∨
            ∃ k', ippCodecFilterResponse mem' kind r out = .ok (out,k')) ∧
    (∀ r1 r2 : Bytes, r1 ≠ [] → r2 ≠ [] → ∀ a : Attribute,
      a.kept kind (r1 ++ comma :: r2) = true ↔ a.kept kind r1 = true ∨ a.kept kind r2 = true) ∧
    (∀ a : Attribute, a.kept kind (octets "all") = a.kept kind kind.groupSelectors) ∧
    ∀ (r : Bytes) (a : Attribute), a.group = Tag.printerAttributes →
      attributeNameEquals (cstr a.name) "media-col-database" = true → a.kept .printer r = true →
      Listed r (octets "media-col-database") := by
  refine ⟨?_,fun r1 r2 h1 h2 a => keeps_append h1 h2,fun a => keeps_all,?_⟩
  · intro mem r input e he
    cases h : ippCodecFilterResponse mem kind r input with
    | error f =>
      rcases ippCodecFilterResponse_error h with ⟨rfl,hmem⟩ | hd
      · exact .inl ⟨rfl,hmem⟩
      · rw [he] at hd
        cases hd
    | ok result =>
      obtain ⟨out,k⟩ := result
      obtain ⟨e1,e',he1,he',-,hheader,hdocument,hitems⟩ := ippCodecFilterResponse_items h
      rw [he] at he1
      cases he1
      refine .inr ⟨out,k,e',rfl,he',hheader,hdocument,?_,?_,fun a ha => keeps_outside ha _,
        fun mem' => filterResponse_idempotent h⟩
      · rw [hitems]
        exact groupTags_editItems _ _ _ _ _
      · rw [attributes_editItems _ _ hitems, editAttribute_filter]
  · intro r a hgroup hname hkept
    rw [Attribute.kept, hgroup] at hkept
    exact listed_of_keeps_database hname hkept

end Espresso.Codec
