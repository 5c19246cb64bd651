import Espresso.Raster.Urf

/-! The conversion with another reader and another writer: where these answer as the first ones do,
so does the conversion. Only pieces that fit a page header are read or written. -/
namespace Espresso.Raster
open Callback

section
variable {σ σ' τ τ' : Type}

/-- Asked for no more than `most` octets, the two readers answer alike. -/
def ReadsAlike (most : ℕ) (RelS : σ → σ' → Prop) (read : ReadFn σ) (read' : ReadFn σ') : Prop :=
  ∀ s s' n, RelS s s' → 0 < n → n ≤ most →
    (read s n).1 = (read' s' n).1 ∧ RelS (read s n).2 (read' s' n).2

/-- Offered no more than `most` octets, the two writers answer alike. -/
def WritesAlike (most : ℕ) (RelT : τ → τ' → Prop) (write : WriteFn τ) (write' : WriteFn τ') : Prop :=
  ∀ t t' data, RelT t t' → data ≠ [] → data.length ≤ most →
    (write t data).1 = (write' t' data).1 ∧ RelT (write t data).2 (write' t' data).2

/-- Both contexts. -/
def Alike (RelS : σ → σ' → Prop) (RelT : τ → τ' → Prop) (st : Context σ τ)
    (st' : Context σ' τ') : Prop :=
  RelS st.1 st'.1 ∧ RelT st.2 st'.2

variable {RelS : σ → σ' → Prop} {RelT : τ → τ' → Prop} {read : ReadFn σ} {read' : ReadFn σ'}
  {write : WriteFn τ} {write' : WriteFn τ'}

theorem readExact_alike (hread : ReadsAlike pwgHeaderSize RelS read read') (eofAllowed : Bool)
    {s : σ} {s' : σ'} (hs : RelS s s') (received : Bytes) (missing : ℕ)
    (hmost : missing ≤ pwgHeaderSize) :
    (readExact read eofAllowed s received missing).1 =
        (readExact read' eofAllowed s' received missing).1 ∧
      RelS (readExact read eofAllowed s received missing).2
        (readExact read' eofAllowed s' received missing).2 := by
  induction missing using Nat.strong_induction_on generalizing s s' received with
  | _ missing ih =>
    rw [readExact, readExact]
    by_cases hzero : missing = 0
    · rw [if_pos hzero, if_pos hzero]
      exact ⟨rfl,hs⟩
    rw [if_neg hzero, if_neg hzero]
    have hstep := hread s s' missing hs (Nat.pos_of_ne_zero hzero) hmost
    cases hrun : read s missing with
    | mk answer s1 =>
      cases hrun' : read' s' missing with
      | mk answer' s1' =>
        rw [hrun, hrun'] at hstep
        obtain ⟨rfl,hs1⟩ := hstep
        cases answer with
        | none => exact ⟨rfl,hs1⟩
        | some d =>
          simp only
          split_ifs with hlong hd
          · exact ⟨rfl,hs1⟩
          · exact ⟨rfl,hs1⟩
          · exact ⟨rfl,hs1⟩
          · have hpos := List.length_pos_of_ne_nil hd
            exact ih _ (by omega) hs1 _ (by omega)

/-- Two conversions come to the same end. -/
abbrev GoesAlike {α : Type} (RelS : σ → σ' → Prop) (RelT : τ → τ' → Prop)
    (x : Run (Context σ τ) RasterError α) (y : Run (Context σ' τ') RasterError α) : Prop :=
  Run.Agrees (Alike RelS RelT) x y

theorem inputExact_alike (hread : ReadsAlike pwgHeaderSize RelS read read') {n : ℕ}
    (hn : n ≤ pwgHeaderSize) :
    GoesAlike RelS RelT (inputExact (τ := τ) read n) (inputExact (τ := τ') read' n) := by
  rintro ⟨s,t⟩ ⟨s',t'⟩ ⟨hs,ht⟩
  have h := readExact_alike hread false hs [] n hn
  unfold inputExact
  simp only
  cases hrun : readExact read false s [] n with
  | mk result s1 =>
    cases hrun' : readExact read' false s' [] n with
    | mk result' s1' =>
      rw [hrun, hrun'] at h
      obtain ⟨rfl,hs1⟩ := h
      cases result <;> exact ⟨rfl,hs1,ht⟩

theorem nextHeader_alike (hread : ReadsAlike pwgHeaderSize RelS read read') :
    GoesAlike RelS RelT (nextHeader (τ := τ) read) (nextHeader (τ := τ') read') := by
  rintro ⟨s,t⟩ ⟨s',t'⟩ ⟨hs,ht⟩
  have h := readExact_alike hread true hs [] pwgHeaderSize le_rfl
  unfold nextHeader
  simp only
  cases hrun : readExact read true s [] pwgHeaderSize with
  | mk result s1 =>
    cases hrun' : readExact read' true s' [] pwgHeaderSize with
    | mk result' s1' =>
      rw [hrun, hrun'] at h
      obtain ⟨rfl,hs1⟩ := h
      cases result <;> exact ⟨rfl,hs1,ht⟩

theorem writeAll_alike (hwrite : WritesAlike pwgHeaderSize RelT write write') {t : τ} {t' : τ'}
    (ht : RelT t t') {data : Bytes} (hmost : data.length ≤ pwgHeaderSize) :
    (writeAll write t data).1 = (writeAll write' t' data).1 ∧
      RelT (writeAll write t data).2 (writeAll write' t' data).2 := by
  induction hk : data.length using Nat.strong_induction_on generalizing t t' data with
  | _ k ih =>
    rw [writeAll, writeAll]
    split_ifs with hnil
    · exact ⟨rfl,ht⟩
    have hpos := List.length_pos_of_ne_nil hnil
    have hstep := hwrite t t' data ht hnil hmost
    cases hrun : write t data with
    | mk result t1 =>
      cases hrun' : write' t' data with
      | mk result' t1' =>
        rw [hrun, hrun'] at hstep
        obtain ⟨rfl,ht1⟩ := hstep
        simp only
        split_ifs with hbad
        · exact ⟨rfl,ht1⟩
        · exact ih _ (by rw [List.length_drop]; omega) ht1 (by rw [List.length_drop]; omega) rfl

theorem outputAll_alike (hwrite : WritesAlike pwgHeaderSize RelT write write') {data : Bytes}
    (hmost : data.length ≤ pwgHeaderSize) :
    GoesAlike RelS RelT (outputAll (σ := σ) write data) (outputAll (σ := σ') write' data) := by
  rintro ⟨s,t⟩ ⟨s',t'⟩ ⟨hs,ht⟩
  have h := writeAll_alike hwrite ht hmost
  unfold outputAll
  simp only
  cases hrun : writeAll write t data with
  | mk ok t1 =>
    cases hrun' : writeAll write' t' data with
    | mk ok' t1' =>
      rw [hrun, hrun'] at h
      obtain ⟨rfl,ht1⟩ := h
      cases ok <;> exact ⟨rfl,hs,ht1⟩

/-! ### The conversion -/

theorem readExact_length {eofAllowed : Bool} {s s1 : σ} {received data : Bytes} {missing : ℕ}
    (h : readExact read eofAllowed s received missing = (.ok data,s1)) :
    data.length = received.length + missing := by
  fun_induction readExact read eofAllowed s received missing with
  | case1 => cases h; rfl
  | case2 => cases h
  | case3 => cases h
  | case4 =>
    split_ifs at h
    · cases h
    · cases h
  | case5 s received missing hne d s' hr hlong hd ih =>
    rw [ih h, List.length_append]
    omega

theorem inputExact_length {n : ℕ} {st st1 : Context σ τ} {data : Bytes}
    (h : inputExact read n st = (.ok data,st1)) : data.length = n := by
  obtain ⟨s,t⟩ := st
  unfold inputExact at h
  simp only at h
  split at h <;> cases h
  rename_i heq
  rw [readExact_length heq, List.length_nil, Nat.zero_add]

theorem buildPageHeader_length {pwg apple : Bytes} {page : PageInfo}
    (h : buildPageHeader pwg = .ok (apple,page)) : apple.length = 32 := by
  unfold buildPageHeader at h
  simp only at h
  split at h
  · cases h
  split at h
  · cases h
  split_ifs at h
  cases h
  simp [appleHeader, u32]

section
variable (hread : ReadsAlike pwgHeaderSize RelS read read')
  (hwrite : WritesAlike pwgHeaderSize RelT write write')
include hread hwrite

/-- What has been read goes out in one piece. -/
theorem copyPiece_alike {α : Type} {n : ℕ} (hn : n ≤ pwgHeaderSize)
    {f : Bytes → Run (Context σ τ) RasterError α} {g : Bytes → Run (Context σ' τ') RasterError α}
    (hf : ∀ data, GoesAlike RelS RelT (f data) (g data)) :
    GoesAlike RelS RelT (inputExact read n >>= fun data => outputAll write data >>= fun _ => f data)
      (inputExact read' n >>= fun data => outputAll write' data >>= fun _ => g data) := by
  refine (inputExact_alike hread hn).bind ?_
  rintro data ⟨st,st1,hinput⟩
  have hpiece : data.length ≤ pwgHeaderSize := (inputExact_length hinput).le.trans hn
  exact (outputAll_alike hwrite hpiece).bind fun _ _ => hf data

theorem copyByte_alike : GoesAlike RelS RelT (copyByte read write) (copyByte read' write') :=
  copyPiece_alike hread hwrite (by decide) fun _ => .pure _

theorem copyPayload_alike (length : ℕ) :
    GoesAlike RelS RelT (copyPayload read write length) (copyPayload read' write' length) := by
  induction length using Nat.strong_induction_on with
  | _ length ih =>
    rw [copyPayload, copyPayload]
    refine .ite (fun _ => .pure _) fun hlength => ?_
    have hpiece : min length 64 ≤ pwgHeaderSize := (Nat.min_le_right _ _).trans (by decide)
    exact copyPiece_alike hread hwrite hpiece fun _ => ih _ (by omega)

theorem copyRuns_alike (page : PageInfo) (decoded : ℕ) :
    GoesAlike RelS RelT (copyRuns read write page decoded) (copyRuns read' write' page decoded) := by
  induction hk : page.bytesPerLine - decoded using Nat.strong_induction_on
    generalizing decoded with
  | _ k ih =>
    rw [copyRuns, copyRuns]
    refine .ite (fun hmore => ?_) fun _ => .pure _
    refine (copyByte_alike hread hwrite).bind fun control _ => ?_
    refine .ite (fun _ => .fail _) fun _ => .ite (fun _ => .fail _) fun _ => ?_
    refine (copyPayload_alike hread hwrite _).bind fun _ _ => ih _ ?_ _ rfl
    have := Nat.mul_pos (units_pos control) page.bytesPerPixel_pos
    omega

theorem copyPage_alike (page : PageInfo) (rows : ℕ) :
    GoesAlike RelS RelT (copyPage read write page rows) (copyPage read' write' page rows) := by
  induction hk : page.height - rows using Nat.strong_induction_on generalizing rows with
  | _ k ih =>
    rw [copyPage, copyPage]
    refine .ite (fun hmore => ?_) fun _ => .pure _
    refine (copyByte_alike hread hwrite).bind fun rep _ => .ite (fun _ => .fail _) fun _ => ?_
    exact (copyRuns_alike hread hwrite page 0).bind fun _ _ => ih _ (by omega) _ rfl

theorem copyPages_alike (expectedPages turns pages : ℕ) (pwg : Bytes) :
    GoesAlike RelS RelT (copyPages read write expectedPages turns pages pwg)
      (copyPages read' write' expectedPages turns pages pwg) := by
  induction turns generalizing pages pwg with
  | zero => exact .unfinished
  | succ turns ih =>
    rw [copyPages, copyPages]
    split
    · exact .fail _
    · rename_i apple page hheader
      have happle : apple.length ≤ pwgHeaderSize :=
        (buildPageHeader_length hheader).le.trans (by decide)
      refine (outputAll_alike hwrite happle).bind fun _ _ => ?_
      refine (copyPage_alike hread hwrite page 0).bind fun _ _ => ?_
      refine (nextHeader_alike hread).bind fun header _ => ?_
      cases header with
      | some pwg => exact ih _ _
      | none => exact .ite (fun _ => .fail _) fun _ => .pure _

/-- The conversions of two documents that are read alike. -/
theorem espressoPwgToUrf_alike (turns : ℕ) : GoesAlike RelS RelT
    (espressoPwgToUrf read write turns) (espressoPwgToUrf read' write' turns) := by
  refine (inputExact_alike hread (by decide)).bind fun sync _ => ?_
  refine .ite (fun _ => .fail _) fun _ => ?_
  refine (inputExact_alike hread le_rfl).bind fun pwg _ => ?_
  have hlength : (fileHeader (u32At pwg Offset.totalPageCount)).length ≤ pwgHeaderSize := by
    have hoctets : (octets "UNIRAST").length = 7 := by decide +kernel
    rw [fileHeader, List.length_append, List.length_append, hoctets]
    change 7 + 1 + 4 ≤ 1796
    omega
  refine (outputAll_alike hwrite hlength).bind fun _ _ => ?_
  exact copyPages_alike hread hwrite _ _ _ _

end

end

/-! ### What a document is converted to -/

/-- The document as it comes out of a conversion that nothing disturbs. -/
def convertedDocument (document : Bytes) : Option Bytes :=
  match espressoPwgToUrf wholeRead wholeWrite (document.length + 1) (document,[]) with
  | (.ok (),(_,out)) => some out
  | _ => none

theorem convertedDocument_eq_some {document out : Bytes} :
    convertedDocument document = some out ↔ ∃ p ps, document = pwgDocument p ps ∧
      CountMatches p.totalPageCount (ps.length + 1) ∧ out = urfDocument p ps := by
  have hturns : document.length < document.length + 1 := Nat.lt_succ_self _
  unfold convertedDocument
  constructor
  · intro h
    split at h
    · rename_i hrun
      cases h
      rcases espressoPwgToUrf_sound wholeRead_delivers wholeWrite_accepts (t := []) (Eq.refl document)
        hturns with ⟨p,ps,rfl,hcount⟩ | ⟨e,st',hfails⟩
      · obtain ⟨st',hrun',htaken⟩ := espressoPwgToUrf_complete (t := [])
          wholeRead_delivers wholeWrite_accepts (Eq.refl (pwgDocument p ps))
          ((pwgDocument_length p ps).trans hturns) hcount
        rw [hrun] at hrun'
        cases hrun'
        exact ⟨p,ps,rfl,hcount,htaken⟩
      · rw [hrun] at hfails
        cases hfails
    · cases h
  · rintro ⟨p,ps,rfl,hcount,rfl⟩
    obtain ⟨⟨s',t'⟩,hrun,htaken⟩ := espressoPwgToUrf_complete (t := [])
      wholeRead_delivers wholeWrite_accepts (Eq.refl (pwgDocument p ps))
      ((pwgDocument_length p ps).trans hturns) hcount
    obtain rfl : t' = urfDocument p ps := htaken
    rw [hrun]

section
variable {σ τ : Type} {read : ReadFn σ} {write : WriteFn τ} {R : σ → Bytes → Prop}
  {T : τ → Bytes → Prop}

/-- The writer takes a piece as a whole; `T t out` says that it has taken `out` in state `t`. -/
def TakesPieces (write : WriteFn τ) (T : τ → Bytes → Prop) : Prop :=
  ∀ t out data, T t out → data ≠ [] → data.length ≤ pwgHeaderSize →
    ∃ t', write t data = ((data.length : ℤ),t') ∧ T t' (out ++ data)

/-- The writer, and a record of what it was offered. -/
def recorded (write : WriteFn τ) : WriteFn (τ × Bytes) := fun (t,out) data =>
  (data.length,((write t data).2,out ++ data))

theorem recorded_accepts (write : WriteFn τ) : Accepts (recorded write) Prod.snd := fun t data hne =>
  ⟨data.length,_,rfl,List.length_pos_of_ne_nil hne,le_rfl,by rw [List.take_length]⟩

/-- A reader that supplies its stream is not patched. -/
theorem patched_alike (hread : Supplies read R pwgHeaderSize) :
    ReadsAlike pwgHeaderSize (fun s s' => s'.1 = s ∧ R s s'.2) read (patched read) := by
  rintro s ⟨_,b⟩ n ⟨rfl,hs⟩ hn hmost
  obtain ⟨d,b1,s1,hrun,rfl,hs1,hle,hend⟩ := hread _ b n hs hn hmost
  simp only at hrun
  simp only [patched, hrun]
  split_ifs with hkeeps
  · rw [List.drop_left]
    exact ⟨rfl,rfl,hs1⟩
  · have hd : d = [] := by
      by_contra hne
      exact hkeeps ⟨hne,hle,List.isPrefixOf_iff_prefix.mpr (List.prefix_append d b1)⟩
    obtain ⟨-,rfl⟩ := List.append_eq_nil_iff.mp (hend hd)
    rw [hd, List.append_nil, List.take_nil, List.drop_nil]
    exact ⟨rfl,rfl,hs1⟩

theorem recorded_alike (hwrite : TakesPieces write T) :
    WritesAlike pwgHeaderSize (fun t t' => t'.1 = t ∧ T t t'.2) write (recorded write) := by
  rintro t ⟨_,out⟩ data ⟨rfl,ht⟩ hne hmost
  obtain ⟨t1,hrun,ht1⟩ := hwrite _ out data ht hne hmost
  refine ⟨congrArg Prod.fst hrun,rfl,?_⟩
  change T (write _ data).2 (out ++ data)
  rw [hrun]
  exact ht1

/-- Whoever supplies the document and takes what it becomes, the conversion is the same. -/
theorem espressoPwgToUrf_converts (hread : Supplies read R pwgHeaderSize)
    (hwrite : TakesPieces write T) {s : σ} {t : τ} {document start : Bytes} (hs : R s document)
    (ht : T t start) {turns : ℕ} (hturns : document.length < turns) :
    match convertedDocument document with
    | some out => ∃ s' t', espressoPwgToUrf read write turns (s,t) = (.ok (),(s',t')) ∧
        T t' (start ++ out)
    | none => ∃ e st', espressoPwgToUrf read write turns (s,t) = (.error e,st') := by
  obtain ⟨hsame,hstates⟩ := espressoPwgToUrf_alike (patched_alike hread) (recorded_alike hwrite)
    turns (s,t) ((s,document),(t,start)) ⟨⟨rfl,hs⟩,rfl,ht⟩
  cases hrun : espressoPwgToUrf read write turns (s,t) with
  | mk o st =>
    obtain ⟨s',t'⟩ := st
    rw [hrun] at hsame hstates
    simp only at hsame hstates
    split
    · rename_i out hsome
      obtain ⟨p,ps,rfl,hcount,rfl⟩ := convertedDocument_eq_some.mp hsome
      obtain ⟨st1,hrun',htaken⟩ := espressoPwgToUrf_complete (t := (t,start))
        (s := (s,pwgDocument p ps)) (patched_delivers read) (recorded_accepts write) rfl
        ((pwgDocument_length p ps).trans hturns) hcount
      rw [hrun'] at hsame hstates
      obtain ⟨-,-,hT⟩ := hstates
      rw [htaken] at hT
      exact ⟨s',t',by rw [hsame],hT⟩
    · rename_i hnone
      rcases espressoPwgToUrf_sound (t := (t,start)) (s := (s,document)) (patched_delivers read)
        (recorded_accepts write) rfl hturns with ⟨p,ps,hdocument,hcount⟩ | ⟨e,st2,hfails⟩
      · rw [convertedDocument_eq_some.mpr ⟨p,ps,hdocument,hcount,rfl⟩] at hnone
        cases hnone
      · rw [hfails] at hsame
        exact ⟨e,(s',t'),by rw [hsame]⟩

end

end Espresso.Raster
