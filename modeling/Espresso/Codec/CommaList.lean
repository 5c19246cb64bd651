import Espresso.Codec.Text
import Espresso.Codec.Target

/-! What a comma list says: its parts between commas, trimmed, without the blank ones. The codec
never builds this list; each of its walks visits the same parts. -/
namespace Espresso.Codec

def entries (csv : Bytes) : List Bytes := ((csv.splitOn comma).map trim).filter (· ≠ [])

/-- The list names this value, up to case. -/
def Listed (csv value : Bytes) : Prop := ∃ entry ∈ entries csv, equalSpan entry value = true

instance (csv value : Bytes) : Decidable (Listed csv value) := by unfold Listed; infer_instance

/-- What a part without comma contributes. -/
def entryOf (part : Bytes) : List Bytes := if trim part = [] then [] else [trim part]

@[simp] theorem entries_nil : entries [] = [] := by decide

theorem entries_single {part : Bytes} (h : comma ∉ part) : entries part = entryOf part := by
  rw [entries, List.splitOn_eq_singleton h, entryOf]
  by_cases ht : trim part = [] <;> simp [ht]

theorem entries_append (csv rest : Bytes) :
    entries (csv ++ comma :: rest) = entries csv ++ entries rest := by
  rw [entries, List.splitOn_append_cons_self, List.map_append, List.filter_append, entries, entries]

theorem comma_notMem_takeWhile (csv : Bytes) : comma ∉ csv.takeWhile (· ≠ comma) := by
  intro h
  simpa using List.mem_takeWhile_imp h

/-- What is left of a list behind its first part is empty or starts with a comma. -/
theorem dropWhile_comma_cases (csv : Bytes) :
    csv.dropWhile (· ≠ comma) = [] ∨ ∃ rest, csv.dropWhile (· ≠ comma) = comma :: rest := by
  cases hd : csv.dropWhile (· ≠ comma) with
  | nil => exact .inl rfl
  | cons c rest =>
    have hne : csv.dropWhile (· ≠ comma) ≠ [] := by rw [hd]; simp
    have hc := List.head_dropWhile_not (fun c => decide (c ≠ comma)) hne
    simp only [hd, List.head_cons, decide_eq_false_iff_not, not_not] at hc
    exact .inr ⟨rest,by rw [hc]⟩

/-- The first part, then the others. -/
theorem entries_eq (csv : Bytes) :
    entries csv = entryOf (csv.takeWhile (· ≠ comma)) ++ entries (csv.dropWhile (· ≠ comma)) := by
  have hfirst := comma_notMem_takeWhile csv
  have hwhole := List.takeWhile_append_dropWhile (p := fun c => decide (c ≠ comma)) (l := csv)
  rcases dropWhile_comma_cases csv with h | ⟨rest,h⟩
  · rw [h, List.append_nil] at hwhole
    rw [h, entries_nil, List.append_nil, ← entries_single hfirst, hwhole]
  · rw [h] at hwhole ⊢
    have hrest : entries (comma :: rest) = entries rest := entries_append [] rest
    rw [hrest, ← entries_single hfirst, ← entries_append, hwhole]

theorem trim_cons_of_isspace {c : UInt8} (h : isspace c = true) (part : Bytes) :
    trim (c :: part) = trim part := by rw [trim, List.dropWhile_cons_of_pos h, trim]

theorem trim_eq_trimEnd {c : UInt8} (h : isspace c = false) (part : Bytes) :
    trim (c :: part) = trimEnd (c :: part) := by
  rw [trim, List.dropWhile_cons_of_neg (by simp [h])]

/-- Separators in front of a list do not count. -/
theorem entries_cons_of_isSeparator {c : UInt8} (h : isSeparator c = true) (csv : Bytes) :
    entries (c :: csv) = entries csv := by
  by_cases hc : c = comma
  · subst hc
    exact entries_append [] csv
  · have hspace : isspace c = true := by simpa [isSeparator, hc] using h
    rw [entries_eq (c :: csv), entries_eq csv, List.takeWhile_cons_of_pos (by simpa using hc),
      List.dropWhile_cons_of_pos (by simpa using hc)]
    simp only [entryOf, trim_cons_of_isspace hspace]

theorem entries_dropWhile (csv : Bytes) : entries (csv.dropWhile isSeparator) = entries csv := by
  induction csv with
  | nil => rfl
  | cons c csv ih =>
    by_cases hc : isSeparator c = true
    · rw [List.dropWhile_cons_of_pos hc, ih, entries_cons_of_isSeparator hc]
    · rw [List.dropWhile_cons_of_neg hc]

theorem trimEnd_ne_nil {c : UInt8} (h : isspace c = false) (part : Bytes) :
    trimEnd (c :: part) ≠ [] := by
  rw [trimEnd, ne_eq, List.reverse_eq_nil_iff, List.dropWhile_eq_nil_iff]
  intro hall
  have := hall c (by simp)
  rw [h] at this
  cases this

/-- Every walk over a comma list visits its entries in order, and blank spans besides. -/
theorem csvTokens_entries (csv : Bytes) : (csvTokens csv).filter (· ≠ []) = entries csv := by
  fun_induction csvTokens csv with
  | case1 => simp
  | case2 c cs start ih =>
    rw [List.filter_cons, ih, ← entries_dropWhile (c :: cs)]
    change _ = entries start
    match hstart : start with
    | [] => simp [trimEnd]
    | d :: ds =>
      have hd : isSeparator d = false := by
        have hne : (c :: cs).dropWhile isSeparator ≠ [] := by
          rw [show (c :: cs).dropWhile isSeparator = d :: ds from hstart]; simp
        have hhead := List.head_dropWhile_not isSeparator hne
        simpa only [show (c :: cs).dropWhile isSeparator = d :: ds from hstart,
          List.head_cons] using hhead
      obtain ⟨hcomma,hspace⟩ : d ≠ comma ∧ isspace d = false := by
        simpa [isSeparator] using hd
      have hpart : (d :: ds).takeWhile (· ≠ comma) = d :: ds.takeWhile (· ≠ comma) :=
        List.takeWhile_cons_of_pos (by simpa using hcomma)
      have hne := trimEnd_ne_nil hspace (ds.takeWhile (· ≠ comma))
      rw [entries_eq (d :: ds), hpart, entryOf, trim_eq_trimEnd hspace, if_neg hne,
        if_pos (by simpa using hne), List.singleton_append]

theorem csvContains_iff (csv value : Bytes) : csvContains csv value = true ↔ Listed csv value := by
  rw [Listed, ← csvTokens_entries]
  simp only [csvContains, Bool.and_eq_true, decide_eq_true_eq, List.any_eq_true, List.mem_filter]
  constructor
  · rintro ⟨hne,token,hmem,heq⟩
    refine ⟨token,⟨hmem,?_⟩,heq⟩
    rintro rfl
    cases value with
    | nil => exact hne rfl
    | cons _ _ => simp [equalSpan] at heq
  · rintro ⟨token,⟨hmem,hne⟩,heq⟩
    refine ⟨?_,token,hmem,heq⟩
    rintro rfl
    cases token with
    | nil => exact hne rfl
    | cons _ _ => simp [equalSpan] at heq

/-- Lists are searched up to case. -/
theorem listed_congr {csv value value' : Bytes} (h : equalSpan value value' = true) :
    Listed csv value ↔ Listed csv value' := by
  have hlower := (equalSpan_iff value value').mp h
  simp only [Listed, equalSpan_iff, hlower]

theorem listed_ne_nil {csv value : Bytes} (h : Listed csv value) : value ≠ [] := by
  have := (csvContains_iff csv value).mpr h
  simp only [csvContains, Bool.and_eq_true, decide_eq_true_eq] at this
  exact this.1

/-! ### Bounded lists

What an array of `n` octets holds after values have been added to it. -/

/-- The parts of a list have no comma and nothing that the list has not. -/
theorem part_of_splitOn {csv part : Bytes} (h : part ∈ csv.splitOn comma) :
    comma ∉ part ∧ part ⊆ csv := by
  induction csv generalizing part with
  | nil =>
    rw [List.splitOn_nil, List.mem_singleton] at h
    simp [h]
  | cons c cs ih =>
    rw [List.splitOn_cons_eq_if_modifyHead] at h
    split at h
    · rcases List.mem_cons.mp h with rfl | h
      · simp
      · exact ⟨(ih h).1,List.subset_cons_of_subset c (ih h).2⟩
    · rename_i hc
      cases hs : cs.splitOn comma with
      | nil => exact absurd hs (List.splitOn_ne_nil _ _)
      | cons p ps =>
        rw [hs] at h ih
        rcases List.mem_cons.mp h with rfl | h
        · obtain ⟨hcomma,hsub⟩ := ih List.mem_cons_self
          rw [List.mem_cons, not_or]
          exact ⟨⟨fun e => hc (by simp [e]),hcomma⟩,List.cons_subset_cons c hsub⟩
        · obtain ⟨hcomma,hsub⟩ := ih (List.mem_cons_of_mem _ h)
          exact ⟨hcomma,List.subset_cons_of_subset c hsub⟩

theorem trimEnd_isPrefix (b : Bytes) : trimEnd b <+: b := by
  have h := List.dropWhile_suffix isspace (l := b.reverse)
  rw [← List.reverse_prefix, List.reverse_reverse] at h
  exact h

theorem trim_sublist (b : Bytes) : (trim b).Sublist b :=
  (trimEnd_isPrefix _).sublist.trans (List.dropWhile_sublist isspace)

/-- A trimmed text does not start with a space. -/
theorem isspace_of_trim_cons {b rest : Bytes} {c : UInt8} (h : trim b = c :: rest) :
    isspace c = false := by
  obtain ⟨tail,htail⟩ := trimEnd_isPrefix (b.dropWhile isspace)
  rw [show trimEnd (b.dropWhile isspace) = c :: rest from h, List.cons_append] at htail
  have hne : b.dropWhile isspace ≠ [] := by rw [← htail]; simp
  have hhead := List.head_dropWhile_not isspace hne
  simpa only [← htail, List.head_cons] using hhead

theorem trim_trim (b : Bytes) : trim (trim b) = trim b := by
  cases ht : trim b with
  | nil => rfl
  | cons c rest =>
    rw [trim_eq_trimEnd (isspace_of_trim_cons ht), ← ht, trim, trimEnd, trimEnd,
      List.reverse_reverse, List.dropWhile_idempotent]

/-- One more piece: what the list says and how many octets it takes. A piece that is blank, listed
already or too long for the room that is left is dropped; a NUL in it ends the text. -/
def keepPiece (n : ℕ) (kept : List Bytes × ℕ) (piece : Bytes) : List Bytes × ℕ :=
  let separator := if kept.2 = 0 then 0 else 1
  if trim piece = [] ∨ (∃ entry ∈ kept.1, equalSpan entry (trim piece) = true) ∨
      n ≤ kept.2 + separator + (trim piece).length then kept
  else (kept.1 ++ entryOf (cstr (trim piece)),kept.2 + separator + (cstr (trim piece)).length)

/-- Why a value is not added. -/
def Refuses {n : ℕ} (csv : Text n) (value : Bytes) : Prop :=
  n = 0 ∨ trim value = [] ∨ csvContains csv.val (trim value) = true ∨
    csv.val.length + (if csv.val = [] then [] else [comma]).length + (trim value).length ≥ n

theorem csvAdd_of_refuses {n : ℕ} {csv : Text n} {value : Bytes} (h : Refuses csv value) :
    csvAdd csv value = csv := dif_pos h

theorem csvAdd_of_not_refuses {n : ℕ} {csv : Text n} {value : Bytes} (h : ¬ Refuses csv value) :
    (csvAdd csv value).val =
      cstr (csv.val ++ (if csv.val = [] then [] else [comma]) ++ trim value) :=
  congrArg Subtype.val (dif_neg h)

/-- A list grows at its end only. -/
theorem csvAdd_isPrefix {n : ℕ} (csv : Text n) (piece : Bytes) :
    csv.val <+: (csvAdd csv piece).val := by
  by_cases h : Refuses csv piece
  · rw [csvAdd_of_refuses h]
  · rw [csvAdd_of_not_refuses h, List.append_assoc, cstr,
      List.takeWhile_append_of_pos fun c hc => by
        simpa using fun h0 : c = 0 => csv.property.1 (h0 ▸ hc)]
    exact List.prefix_append _ _

theorem foldl_csvAdd_isPrefix {n : ℕ} (ps : List Bytes) (csv : Text n) :
    csv.val <+: (ps.foldl csvAdd csv).val := by
  induction ps generalizing csv with
  | nil => exact List.prefix_refl _
  | cons p ps ih => exact (csvAdd_isPrefix csv p).trans (ih _)

theorem refuses_iff {n : ℕ} {csv : Text n} {value : Bytes} : Refuses csv value ↔
    trim value = [] ∨ (∃ entry ∈ entries csv.val, equalSpan entry (trim value) = true) ∨
      n ≤ csv.val.length + (if csv.val.length = 0 then 0 else 1) + (trim value).length := by
  rw [Refuses, csvContains_iff, Listed]
  by_cases hnil : csv.val = []
  · simp [hnil]
    omega
  · simp [hnil]
    omega

theorem csvAdd_keeps {n : ℕ} (csv : Text n) {piece : Bytes} (hcomma : comma ∉ piece) :
    (entries (csvAdd csv piece).val,(csvAdd csv piece).val.length) =
      keepPiece n (entries csv.val,csv.val.length) piece := by
  have hpiece : comma ∉ cstr (trim piece) :=
    fun h => hcomma ((trim_sublist piece).subset ((List.takeWhile_sublist _).subset h))
  simp only [keepPiece]
  by_cases h : Refuses csv piece
  · rw [csvAdd_of_refuses h, if_pos (refuses_iff.mp h)]
  · rw [csvAdd_of_not_refuses h, if_neg (fun h' => h (refuses_iff.mpr h'))]
    by_cases hnil : csv.val = []
    · simp [hnil, entries_single hpiece]
    · have h0 : 0 ∉ csv.val ++ [comma] := by
        rw [List.mem_append, not_or]
        exact ⟨csv.property.1,by decide⟩
      simp only [hnil, if_false, cstr_append_of_notMem h0, List.length_eq_zero_iff]
      rw [List.append_assoc, List.singleton_append, entries_append, entries_single hpiece]
      simp [Nat.add_assoc, Nat.add_comm]

/-- What the array holds after the pieces of some values have been added. -/
theorem csvAddSplit_keeps {n : ℕ} (csv : Text n) (values : List Bytes) :
    (entries (values.foldl csvAddSplit csv).val,(values.foldl csvAddSplit csv).val.length) =
      (values.flatMap (·.splitOn comma)).foldl (keepPiece n)
        (entries csv.val,csv.val.length) := by
  have hpieces : ∀ (pieces : List Bytes) (csv : Text n), (∀ p ∈ pieces, comma ∉ p) →
      (entries (pieces.foldl csvAdd csv).val,(pieces.foldl csvAdd csv).val.length) =
        pieces.foldl (keepPiece n) (entries csv.val,csv.val.length) := by
    intro pieces
    induction pieces with
    | nil => intro csv _; rfl
    | cons p pieces ih =>
      intro csv h
      rw [List.foldl_cons, List.foldl_cons, ih _ (fun q hq => h q (List.mem_cons_of_mem _ hq)),
        csvAdd_keeps csv (h p List.mem_cons_self)]
  induction values generalizing csv with
  | nil => rfl
  | cons value values ih =>
    rw [List.foldl_cons, ih, csvAddSplit, hpieces _ csv (fun p hp => (part_of_splitOn hp).1),
      List.flatMap_cons, List.foldl_append]

/-- The printer takes documents of this format. -/
def ippCodecFormatSupported (t : PrinterTarget) (documentFormat : Bytes) : Bool :=
  documentFormat ≠ [] && csvContains t.pdl.val documentFormat

theorem ippCodecFormatSupported_iff (t : PrinterTarget) (documentFormat : Bytes) :
    ippCodecFormatSupported t documentFormat = true ↔ Listed t.pdl.val documentFormat := by
  rw [ippCodecFormatSupported, Bool.and_eq_true, decide_eq_true_iff, csvContains_iff]
  exact ⟨And.right,fun h => ⟨listed_ne_nil h,h⟩⟩

end Espresso.Codec
