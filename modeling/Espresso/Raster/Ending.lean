import Espresso.Raster.Convert

/-! Where a conversion ends, under a reader that may fail at any point and a writer that may refuse
anything: it succeeds only at the end of the document, and writes nothing but pieces with data. -/
namespace Espresso.Raster
open Callback

section
variable {σ τ : Type} {read : ReadFn σ} {write : WriteFn τ} {R : σ → Bytes → Prop} {E : σ → Prop}
  {P Q : τ → Prop}

/-- The reader is on its stream, and the writer in `P`. -/
def Streaming (R : σ → Bytes → Prop) (P : τ → Prop) (st : Context σ τ) : Prop :=
  (∃ b, R st.1 b) ∧ P st.2

/-- The program goes on with the stream. Where it fails, the writer is left in `Q`. -/
abbrev Streams {α : Type} (R : σ → Bytes → Prop) (P Q : τ → Prop)
    (x : Run (Context σ τ) RasterError α) : Prop :=
  Run.Triple (Streaming R P) x (fun _ => Streaming R P) fun st => Q st.2

theorem readExact_drawsTo (hread : DrawsTo read R E) (eofAllowed : Bool) {s : σ}
    (hs : ∃ b, R s b) (received : Bytes) (missing : ℕ) :
    match readExact read eofAllowed s received missing with
    | (.ok _,s') => ∃ b, R s' b
    | (.eof,s') => E s'
    | (.failed,_) => True := by
  fun_induction readExact read eofAllowed s received missing with
  | case1 s received => exact hs
  | case2 => trivial
  | case3 => trivial
  | case4 s received missing hne s' hr =>
    obtain ⟨b,hb⟩ := hs
    obtain ⟨-,b',-,-,hend⟩ := hread s b missing [] s' hb (Nat.pos_of_ne_zero hne) hr
    split_ifs
    · exact (hend rfl).2
    · trivial
  | case5 s received missing hne d s' hr hlong hd ih =>
    obtain ⟨b,hb⟩ := hs
    obtain ⟨-,b',-,hs',-⟩ := hread s b missing d s' hb (Nat.pos_of_ne_zero hne) hr
    exact ih ⟨b',hs'⟩

theorem inputExact_streams (hread : DrawsTo read R E) (hPQ : ∀ t, P t → Q t) (n : ℕ) :
    Streams R P Q (inputExact read n) := by
  rintro ⟨s,t⟩ ⟨hs,ht⟩
  have h := readExact_drawsTo hread false hs [] n
  unfold inputExact
  simp only
  cases hrun : readExact read false s [] n with
  | mk result s' =>
    rw [hrun] at h
    cases result with
    | ok data => exact ⟨h,ht⟩
    | eof => exact hPQ t ht
    | failed => exact hPQ t ht

theorem outputAll_streams (hwrite : Keeps write P Q) (data : Bytes) :
    Streams R P Q (outputAll write data) := by
  rintro ⟨s,t⟩ ⟨hs,ht⟩
  have h := hwrite.writeAll ht data
  unfold outputAll
  simp only
  cases hrun : writeAll write t data with
  | mk ok t' =>
    rw [hrun] at h
    cases ok with
    | true => exact ⟨hs,h⟩
    | false => exact h

/-- Either there is a header, or the document is at its end. -/
theorem nextHeader_streams (hread : DrawsTo read R E) (hPQ : ∀ t, P t → Q t) : Run.Triple (Streaming R P)
    (nextHeader read : Run (Context σ τ) RasterError (Option Bytes))
    (fun header st => if header.isSome then Streaming R P st else E st.1 ∧ P st.2)
    (fun st => Q st.2) := by
  rintro ⟨s,t⟩ ⟨hs,ht⟩
  have h := readExact_drawsTo hread true hs [] pwgHeaderSize
  unfold nextHeader
  simp only
  cases hrun : readExact read true s [] pwgHeaderSize with
  | mk result s' =>
    rw [hrun] at h
    cases result with
    | ok data => exact ⟨h,ht⟩
    | eof => exact ⟨h,ht⟩
    | failed => exact hPQ t ht

section
variable (hread : DrawsTo read R E) (hwrite : Keeps write P Q) (hPQ : ∀ t, P t → Q t)
include hread hwrite hPQ

theorem copyByte_streams : Streams R P Q (copyByte read write) :=
  (inputExact_streams hread hPQ 1).bind fun data =>
    (outputAll_streams hwrite data).bind fun _ => .pure fun _ h => h

theorem copyPayload_streams (length : ℕ) : Streams R P Q (copyPayload read write length) := by
  induction length using Nat.strong_induction_on with
  | _ length ih =>
    rw [copyPayload]
    refine .ite (fun _ => .pure fun _ h => h) fun hlength => ?_
    refine (inputExact_streams hread hPQ _).bind fun data => ?_
    exact (outputAll_streams hwrite data).bind fun _ => ih _ (by omega)

theorem copyRuns_streams (page : PageInfo) (decoded : ℕ) :
    Streams R P Q (copyRuns read write page decoded) := by
  have hfail : Streams R P Q (Run.fail .invalid : Run (Context σ τ) RasterError Unit) :=
    .fail fun st h => hPQ st.2 h.2
  induction hk : page.bytesPerLine - decoded using Nat.strong_induction_on
    generalizing decoded with
  | _ k ih =>
    rw [copyRuns]
    refine .ite (fun hmore => ?_) fun _ => .pure fun _ h => h
    refine (copyByte_streams hread hwrite hPQ).bind fun control => ?_
    refine .ite (fun _ => hfail) fun _ => .ite (fun _ => hfail) fun _ => ?_
    refine (copyPayload_streams hread hwrite hPQ _).bind fun _ => ih _ ?_ _ rfl
    have := Nat.mul_pos (units_pos control) page.bytesPerPixel_pos
    omega

theorem copyPage_streams (page : PageInfo) (rows : ℕ) :
    Streams R P Q (copyPage read write page rows) := by
  induction hk : page.height - rows using Nat.strong_induction_on generalizing rows with
  | _ k ih =>
    rw [copyPage]
    refine .ite (fun hmore => ?_) fun _ => .pure fun _ h => h
    refine (copyByte_streams hread hwrite hPQ).bind fun rep => ?_
    refine .ite (fun _ => .fail fun st h => hPQ st.2 h.2) fun _ => ?_
    exact (copyRuns_streams hread hwrite hPQ page 0).bind fun _ => ih _ (by omega) _ rfl

theorem copyPages_ending (expectedPages turns pages : ℕ) (pwg : Bytes) :
    Run.Triple (Streaming R P) (copyPages read write expectedPages turns pages pwg)
      (fun _ st => E st.1 ∧ P st.2) (fun st => Q st.2) := by
  induction turns generalizing pages pwg with
  | zero => exact .unfinished fun st h => hPQ st.2 h.2
  | succ turns ih =>
    rw [copyPages]
    split
    · exact .fail fun st h => hPQ st.2 h.2
    · rename_i apple page _
      refine (outputAll_streams hwrite apple).bind fun _ => ?_
      refine (copyPage_streams hread hwrite hPQ page 0).bind fun _ => ?_
      refine (nextHeader_streams hread hPQ).bind fun header => ?_
      cases header with
      | some pwg => exact ih _ _
      | none => exact .ite (fun _ => .fail fun st h => hPQ st.2 h.2) fun _ => .pure fun _ h => h

/-- A conversion that succeeds has read the document to its end. -/
theorem espressoPwgToUrf_ending (turns : ℕ) : Run.Triple (Streaming R P)
    (espressoPwgToUrf read write turns) (fun _ st => E st.1 ∧ P st.2) (fun st => Q st.2) := by
  refine (inputExact_streams hread hPQ 4).bind fun sync => ?_
  refine .ite (fun _ => .fail fun st h => hPQ st.2 h.2) fun _ => ?_
  refine (inputExact_streams hread hPQ _).bind fun pwg => ?_
  refine (outputAll_streams hwrite _).bind fun _ => ?_
  exact copyPages_ending hread hwrite hPQ _ _ _ _

end

end

end Espresso.Raster
