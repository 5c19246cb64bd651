import Espresso.Codec.CommaList

/-! What a bounded comma list is after any values have been added to an empty buffer. The buffer is
read back as a string, so that an octet string with a NUL in it is not what is stored. -/
namespace Espresso.Codec

/-- The entries as they stand between the commas. -/
def listEntries (csv : Bytes) : List Bytes := if csv = [] then [] else csv.splitOn comma

/-- A list that every walk over it reads in the same way. -/
structure WellKept (csv : Bytes) : Prop where
  nonempty : ∀ e ∈ listEntries csv, e ≠ []
  trimmed : ∀ e ∈ listEntries csv, trim e = e
  distinct : (listEntries csv).Pairwise fun e e' => equalSpan e e' = false
  contains : ∀ value, csvContains csv value = true ↔
    ∃ e ∈ listEntries csv, equalSpan e value = true

/-- There is no room for the piece, or for its separator. -/
def Unfit {n : ℕ} (csv : Text n) (piece : Bytes) : Prop :=
  n ≤ csv.val.length + (if csv.val.length = 0 then 0 else 1) + (trim piece).length

/-- The list that some values make of an empty buffer of `n` octets. -/
def addedValues (n : ℕ) (values : List Bytes) : Text n := values.foldl csvAddSplit .empty

/-- The same for pieces without comma. -/
def addedPieces (n : ℕ) (ps : List Bytes) : Text n := ps.foldl csvAdd .empty

theorem addedValues_eq (n : ℕ) (values : List Bytes) :
    addedValues n values = addedPieces n (values.flatMap (·.splitOn comma)) := by
  rw [addedPieces, List.foldl_flatMap]
  rfl

/-- What is asked of the list, in every state on the way to it. -/
structure Kept (n : ℕ) (values : List Bytes) : Prop where
  short : n = 0 ∨ (addedValues n values).val.length < n
  grows : ∀ earlier later, values = earlier ++ later →
    (addedValues n earlier).val <+: (addedValues n values).val
  wellKept : WellKept (addedValues n values).val
  found : ∀ before piece after, values.flatMap (·.splitOn comma) = before ++ piece :: after →
    trim piece = [] ∨ Unfit (addedPieces n before) piece ∨
      ∃ e ∈ listEntries (addedValues n values).val, equalSpan e (trim piece) = true

/-- Every piece with a NUL finds no room. -/
def NulRefused (n : ℕ) (values : List Bytes) : Prop :=
  ∀ before piece after, values.flatMap (·.splitOn comma) = before ++ piece :: after →
    0 ∈ piece → Unfit (addedPieces n before) piece

/-! ### Entries as they stand -/

theorem listEntries_subset {csv e : Bytes} (h : e ∈ listEntries csv) : comma ∉ e ∧ e ⊆ csv := by
  rw [listEntries] at h
  split at h
  · cases h
  · exact part_of_splitOn h

theorem listEntries_single {piece : Bytes} (hcomma : comma ∉ piece) (hne : piece ≠ []) :
    listEntries piece = [piece] := by
  rw [listEntries, if_neg hne, List.splitOn_eq_singleton hcomma]

theorem listEntries_append {csv piece : Bytes} (hne : csv ≠ []) (hcomma : comma ∉ piece) :
    listEntries (csv ++ comma :: piece) = listEntries csv ++ [piece] := by
  rw [listEntries, if_neg (by simp), listEntries, if_neg hne, List.splitOn_append_cons_self,
    List.splitOn_eq_singleton hcomma]

/-- Clean entries are what the walks see. -/
theorem entries_eq_listEntries {csv : Bytes} (hnonempty : ∀ e ∈ listEntries csv, e ≠ [])
    (htrimmed : ∀ e ∈ listEntries csv, trim e = e) : entries csv = listEntries csv := by
  rw [entries]
  by_cases hnil : csv = []
  · subst hnil
    decide
  · rw [listEntries, if_neg hnil] at *
    rw [List.map_congr_left htrimmed, List.map_id', List.filter_eq_self]
    simpa using hnonempty

theorem WellKept.of_clean {csv : Bytes} (hnonempty : ∀ e ∈ listEntries csv, e ≠ [])
    (htrimmed : ∀ e ∈ listEntries csv, trim e = e)
    (hdistinct : (listEntries csv).Pairwise fun e e' => equalSpan e e' = false) : WellKept csv where
  nonempty := hnonempty
  trimmed := htrimmed
  distinct := hdistinct
  contains := fun value => by
    rw [csvContains_iff, Listed, entries_eq_listEntries hnonempty htrimmed]

theorem WellKept.empty : WellKept [] := by
  refine .of_clean ?_ ?_ List.Pairwise.nil
  · exact fun e h => absurd h List.not_mem_nil
  · exact fun e h => absurd h List.not_mem_nil

/-! ### One piece -/

theorem isspace_zero : isspace 0 = false := by decide

/-- A NUL is no space. -/
theorem zero_mem_trim {piece : Bytes} (h : 0 ∈ piece) : 0 ∈ trim piece := by
  have hfront : ∀ b : Bytes, 0 ∈ b → 0 ∈ b.dropWhile isspace := by
    intro b hb
    rw [← List.takeWhile_append_dropWhile (p := isspace) (l := b), List.mem_append] at hb
    rcases hb with hb | hb
    · have := List.mem_takeWhile_imp hb
      rw [isspace_zero] at this
      cases this
    · exact hb
  rw [trim, trimEnd, List.mem_reverse]
  exact hfront _ (List.mem_reverse.mpr (hfront piece h))

/-- A stored string has no NUL, so that it has no entry like a text with one. -/
theorem zero_notMem_of_equalSpan {csv e value : Bytes} (h0 : 0 ∉ csv) (he : e ∈ listEntries csv)
    (h : equalSpan e value = true) : 0 ∉ value := by
  have hlower : ∀ c : UInt8, tolower c = 0 → c = 0 := by decide +kernel
  intro hmem
  have hmap : (0 : UInt8) ∈ e.map tolower := by
    rw [(equalSpan_iff e value).mp h]
    exact List.mem_map.mpr ⟨0,hmem,by decide⟩
  obtain ⟨c,hc,hzero⟩ := List.mem_map.mp hmap
  exact h0 ((listEntries_subset he).2 (hlower c hzero ▸ hc))

/-- What one piece makes of a well-kept list: it stays so, grows by whole entries, and has the piece
unless that is blank or finds no room. -/
theorem WellKept.add {n : ℕ} {csv : Text n} (h : WellKept csv.val) {piece : Bytes}
    (hcomma : comma ∉ piece) (hnul : 0 ∈ piece → Unfit csv piece) :
    WellKept (csvAdd csv piece).val ∧
      listEntries csv.val <+: listEntries (csvAdd csv piece).val ∧
      (trim piece = [] ∨ Unfit csv piece ∨
        ∃ e ∈ listEntries (csvAdd csv piece).val, equalSpan e (trim piece) = true) := by
  by_cases hrefuses : Refuses csv piece
  · rw [csvAdd_of_refuses hrefuses]
    refine ⟨h,List.prefix_refl _,?_⟩
    rw [refuses_iff, ← entries_eq_listEntries h.nonempty h.trimmed] at *
    rcases hrefuses with hblank | hlisted | hunfit
    · exact .inl hblank
    · exact .inr (.inr hlisted)
    · exact .inr (.inl hunfit)
  · have hnew := mt refuses_iff.mpr hrefuses
    rw [entries_eq_listEntries h.nonempty h.trimmed] at hnew
    push Not at hnew
    obtain ⟨hblank,hunlisted,hroom⟩ := hnew
    have hpiece : 0 ∉ trim piece := by
      intro h0
      have hunfit := hnul ((trim_sublist piece).subset h0)
      exact absurd hunfit (not_le.mpr hroom)
    have hplain : comma ∉ trim piece := fun hc => hcomma ((trim_sublist piece).subset hc)
    have hentries : listEntries (csvAdd csv piece).val = listEntries csv.val ++ [trim piece] := by
      rw [csvAdd_of_not_refuses hrefuses]
      by_cases hnil : csv.val = []
      · rw [hnil, if_pos rfl, List.nil_append, List.nil_append, cstr_eq_self hpiece,
          listEntries_single hplain hblank]
        rfl
      · have h0 : 0 ∉ csv.val ++ [comma] := by
          rw [List.mem_append, not_or]
          exact ⟨csv.property.1,by decide⟩
        rw [if_neg hnil, cstr_append_of_notMem h0, cstr_eq_self hpiece, List.append_assoc,
          List.singleton_append, listEntries_append hnil hplain]
    refine ⟨.of_clean ?_ ?_ ?_,?_,.inr (.inr ⟨trim piece,?_,equalSpan_self _⟩)⟩
    · rw [hentries]
      intro e he
      rcases List.mem_append.mp he with he | he
      · exact h.nonempty e he
      · rw [List.mem_singleton.mp he]
        exact hblank
    · rw [hentries]
      intro e he
      rcases List.mem_append.mp he with he | he
      · exact h.trimmed e he
      · rw [List.mem_singleton.mp he, trim_trim]
    · rw [hentries, List.pairwise_append]
      refine ⟨h.distinct,List.pairwise_singleton _ _,fun e he e' he' => ?_⟩
      rw [List.mem_singleton.mp he']
      simpa using hunlisted e he
    · rw [hentries]
      exact List.prefix_append _ _
    · rw [hentries]
      exact List.mem_append_right _ (List.mem_singleton_self _)

/-! ### Any number of pieces -/

theorem addedPieces_concat (n : ℕ) (ps : List Bytes) (piece : Bytes) :
    addedPieces n (ps ++ [piece]) = csvAdd (addedPieces n ps) piece := by
  rw [addedPieces, List.foldl_append]
  rfl

/-- After pieces of which those with a NUL find no room, the list is well kept and has every piece
that is not blank and has found room. -/
theorem wellKept_addedPieces {n : ℕ} {ps : List Bytes} (hcomma : ∀ piece ∈ ps, comma ∉ piece)
    (hnul : ∀ before piece after, ps = before ++ piece :: after → 0 ∈ piece →
      Unfit (addedPieces n before) piece) :
    WellKept (addedPieces n ps).val ∧
    ∀ before piece after, ps = before ++ piece :: after →
      trim piece = [] ∨ Unfit (addedPieces n before) piece ∨
        ∃ e ∈ listEntries (addedPieces n ps).val, equalSpan e (trim piece) = true := by
  induction ps using List.reverseRecOn with
  | nil =>
    refine ⟨.empty,fun before piece after h => ?_⟩
    cases before <;> cases h
  | append_singleton ps last ih =>
    obtain ⟨hkept,hfound⟩ := ih (fun piece h => hcomma piece (List.mem_append_left _ h))
      fun before piece after h => hnul before piece (after ++ [last]) (by rw [h]; simp)
    obtain ⟨hlast,hgrows,hpiece⟩ := hkept.add
      (hcomma last (List.mem_append_right _ (List.mem_singleton_self _))) (hnul ps last [] rfl)
    rw [addedPieces_concat]
    refine ⟨hlast,fun before piece after h => ?_⟩
    -- the piece is the last one, or an earlier one whose entry has stayed
    rcases List.eq_nil_or_concat after with rfl | ⟨after,b,rfl⟩
    · obtain ⟨rfl,hsame⟩ := List.append_inj' h rfl
      cases hsame
      exact hpiece
    · have hsplit : ps ++ [last] = (before ++ piece :: after) ++ [b] := by
        rw [h]
        simp
      obtain ⟨hps,-⟩ := List.append_inj' hsplit rfl
      rcases hfound before piece after hps with hblank | hunfit | ⟨e,he,hequal⟩
      · exact .inl hblank
      · exact .inr (.inl hunfit)
      · exact .inr (.inr ⟨e,hgrows.subset he,hequal⟩)

/-- Values are kept as they should be exactly if none of them has a piece with a NUL that finds
room. -/
theorem kept_iff (n : ℕ) (values : List Bytes) : Kept n values ↔ NulRefused n values := by
  constructor
  · intro h before piece after hsplit h0
    rcases h.found before piece after hsplit with hblank | hunfit | ⟨e,he,hequal⟩
    · have := zero_mem_trim h0
      rw [hblank] at this
      cases this
    · exact hunfit
    · exact absurd (zero_mem_trim h0)
        (zero_notMem_of_equalSpan (addedValues n values).property.1 he hequal)
  · intro h
    have hcomma : ∀ piece ∈ values.flatMap (·.splitOn comma), comma ∉ piece := by
      intro piece hpiece
      obtain ⟨value,-,hpart⟩ := List.mem_flatMap.mp hpiece
      exact (part_of_splitOn hpart).1
    obtain ⟨hkept,hfound⟩ := wellKept_addedPieces hcomma h
    rw [← addedValues_eq] at hkept hfound
    refine ⟨?_,fun earlier later hsplit => ?_,hkept,hfound⟩
    · have := (addedValues n values).property.2
      omega
    · rw [addedValues_eq, addedValues_eq, hsplit, List.flatMap_append, addedPieces, addedPieces,
        List.foldl_append]
      exact foldl_csvAdd_isPrefix _ _

/-- A value with a NUL is stored up to it, and not found when it comes again. -/
theorem not_kept_nul : ¬ Kept 16 [[0x61,0,0x62],[0x61,0,0x62]] := by
  intro h
  have hdistinct := h.wellKept.distinct
  revert hdistinct
  decide +kernel

/-- Values without a NUL are kept in any buffer. -/
theorem nulRefused_of_nulFree (n : ℕ) {values : List Bytes} (h : ∀ value ∈ values, 0 ∉ value) :
    NulRefused n values := by
  intro before piece after hsplit h0
  have hpiece : piece ∈ values.flatMap (·.splitOn comma) := by
    rw [hsplit]
    simp
  obtain ⟨value,hvalue,hpart⟩ := List.mem_flatMap.mp hpiece
  exact absurd ((part_of_splitOn hpart).2 h0) (h value hvalue)

end Espresso.Codec
