import Espresso.Raster.Convert

/-! PWG Raster documents as a grammar, and what the converter makes of them. -/
namespace Espresso.Raster
open Callback

/-! ### Run-length encoded rows -/

/-- Pixels of one run. -/
def expand (control : UInt8) (payload : Bytes) : Bytes :=
  if 128 ≤ control then payload else (List.replicate (control.toNat + 1) payload).flatten

/-- Runs of pixels and the octets they expand to. The control octet 128 is not used. -/
inductive Runs (bytesPerPixel : ℕ) : Bytes → Bytes → Prop
  | nil : Runs bytesPerPixel [] []
  | run {control : UInt8} {payload raw row : Bytes} (hcontrol : control ≠ 128)
    (hlength : payload.length = encodedLength bytesPerPixel control)
    (h : Runs bytesPerPixel raw row) :
    Runs bytesPerPixel (control :: (payload ++ raw)) (expand control payload ++ row)

/-- Groups of equal lines: a repeat octet, then the runs of the line. -/
inductive Lines (bytesPerPixel bytesPerLine : ℕ) : ℕ → Bytes → List Bytes → Prop
  | nil : Lines bytesPerPixel bytesPerLine 0 [] []
  | group {rep : UInt8} {line row raw : Bytes} {height : ℕ} {rows : List Bytes}
    (hline : Runs bytesPerPixel line row) (hrow : row.length = bytesPerLine)
    (h : Lines bytesPerPixel bytesPerLine height raw rows) :
    Lines bytesPerPixel bytesPerLine (rep.toNat + 1 + height) (rep :: (line ++ raw))
      (List.replicate (rep.toNat + 1) row ++ rows)

section
variable {bytesPerPixel bytesPerLine : ℕ}

theorem expand_length {control : UInt8} {payload : Bytes}
    (h : payload.length = encodedLength bytesPerPixel control) :
    (expand control payload).length = units control * bytesPerPixel := by
  unfold expand encodedLength at *
  by_cases hc : 128 ≤ control
  · rw [if_pos hc] at h ⊢
    exact h
  · rw [if_neg hc] at h ⊢
    simp [units, hc, h]

theorem encodedLength_le (control : UInt8) :
    encodedLength bytesPerPixel control ≤ units control * bytesPerPixel := by
  unfold encodedLength
  split
  · exact le_refl _
  · exact Nat.le_mul_of_pos_left _ (units_pos control)

/-- Encoding at most doubles a row. -/
theorem Runs.length_le (hpos : 0 < bytesPerPixel) {line row : Bytes}
    (h : Runs bytesPerPixel line row) : line.length ≤ 2 * row.length := by
  induction h with
  | nil => simp
  | @run control payload raw row _ hpayload _ ih =>
    have hle := @encodedLength_le bytesPerPixel control
    have hunits := Nat.mul_pos (units_pos control) hpos
    simp only [List.length_cons, List.length_append, expand_length hpayload]
    omega

theorem Lines.length_le (hpos : 0 < bytesPerPixel) {height : ℕ} {raw : Bytes} {rows : List Bytes}
    (h : Lines bytesPerPixel bytesPerLine height raw rows) :
    raw.length ≤ height * (1 + 2 * bytesPerLine) := by
  induction h with
  | nil => simp
  | @group rep line row raw height rows hline hrow _ ih =>
    have hle := hline.length_le hpos
    have hmul : rep.toNat * (1 + 2 * bytesPerLine) + (1 + 2 * bytesPerLine) +
        height * (1 + 2 * bytesPerLine) = (rep.toNat + 1 + height) * (1 + 2 * bytesPerLine) := by ring
    simp only [List.length_cons, List.length_append]
    omega

/-- The first line of an encoding is determined by its length. -/
theorem Runs.unique (hpos : 0 < bytesPerPixel) {line line' row row' rest rest' : Bytes}
    (h : Runs bytesPerPixel line row) (h' : Runs bytesPerPixel line' row')
    (hlength : row.length = row'.length) (heq : line ++ rest = line' ++ rest') :
    line = line' ∧ row = row' := by
  have hrun : ∀ {control : UInt8} {payload : Bytes},
      payload.length = encodedLength bytesPerPixel control →
      0 < (expand control payload).length := by
    intro control payload hp
    rw [expand_length hp]
    exact Nat.mul_pos (units_pos control) hpos
  induction h generalizing line' row' with
  | nil =>
    cases h' with
    | nil => exact ⟨rfl,rfl⟩
    | run _ hp _ =>
      have := hrun hp
      simp only [List.length_nil, List.length_append] at hlength
      omega
  | run hcontrol hp h ih =>
    cases h' with
    | nil =>
      have := hrun hp
      simp only [List.length_nil, List.length_append] at hlength
      omega
    | run hcontrol' hp' h' =>
      simp only [List.cons_append, List.append_assoc, List.cons.injEq] at heq
      obtain ⟨rfl,heq⟩ := heq
      obtain ⟨rfl,htail⟩ := List.append_inj heq (hp.trans hp'.symm)
      simp only [List.length_append, Nat.add_left_cancel_iff] at hlength
      obtain ⟨rfl,rfl⟩ := ih h' hlength htail
      exact ⟨rfl,rfl⟩

/-- Decoding is a function of the octets. -/
theorem Lines.unique (hpos : 0 < bytesPerPixel) {height : ℕ} {raw : Bytes} {rows rows' : List Bytes}
    (h : Lines bytesPerPixel bytesPerLine height raw rows)
    (h' : Lines bytesPerPixel bytesPerLine height raw rows') : rows = rows' := by
  induction h generalizing rows' with
  | nil =>
    generalize hh : (0 : ℕ) = total at h'
    generalize hr : ([] : Bytes) = all at h'
    cases h' with
    | nil => rfl
    | group => cases hr
  | @group rep line row raw height rows hline hrow h ih =>
    generalize hh : rep.toNat + 1 + height = total at h'
    generalize hr : rep :: (line ++ raw) = all at h'
    cases h' with
    | nil => cases hr
    | group hline' hrow' h' =>
      obtain ⟨rfl,heq⟩ := List.cons.inj hr
      obtain ⟨rfl,rfl⟩ := Runs.unique hpos hline hline' (hrow.trans hrow'.symm) heq
      obtain rfl := Nat.add_left_cancel hh
      obtain rfl := List.append_cancel_left heq
      rw [ih h']

end

/-! ### One step at a time

Under a reader that delivers and a writer that accepts, the contexts matter only through what is
still to come and what has been taken. -/

section
variable {σ τ : Type} {read : ReadFn σ} {write : WriteFn τ} {R : σ → Bytes → Prop}
  {taken : τ → Bytes}

theorem readExact_spec (hread : Delivers read R) (eofAllowed : Bool) {s : σ} {b : Bytes}
    (hs : R s b) (received : Bytes) (missing : ℕ) :
    if missing ≤ b.length then
      ∃ s', readExact read eofAllowed s received missing = (.ok (received ++ b.take missing),s') ∧
        R s' (b.drop missing)
    else ∃ s', readExact read eofAllowed s received missing =
      (if received ++ b = [] ∧ eofAllowed then .eof else .failed,s') := by
  fun_induction readExact read eofAllowed s received missing generalizing b with
  | case1 s received => simpa using hs
  | case2 s received missing hne s' hr =>
    obtain ⟨d,b',s2,heq,-⟩ := hread s b missing hs (by omega)
    rw [hr] at heq
    cases heq
  | case3 s received missing hne d s' hr hlong =>
    obtain ⟨d',b',s2,heq,-,-,hle,-⟩ := hread s b missing hs (by omega)
    rw [hr] at heq
    cases heq
    omega
  | case4 s received missing hne s' hr =>
    obtain ⟨d',b',s2,heq,hb,-,-,hend⟩ := hread s b missing hs (by omega)
    rw [hr] at heq
    cases heq
    obtain rfl := hend rfl
    rw [if_neg (by simp; omega)]
    exact ⟨s',by simp⟩
  | case5 s received missing hne d s' hr hlong hd ih =>
    obtain ⟨d',b',s2,heq,rfl,hs',-,-⟩ := hread s b missing hs (by omega)
    rw [hr] at heq
    cases heq
    have h := ih hs'
    have hpos : 0 < d.length := List.length_pos_of_ne_nil hd
    by_cases hle : missing ≤ (d ++ b').length
    · rw [List.length_append] at hle
      rw [if_pos (by omega)] at h
      rw [if_pos (by rw [List.length_append]; omega)]
      obtain ⟨s3,hrun,hR⟩ := h
      refine ⟨s3,?_,?_⟩
      · rw [hrun, List.append_assoc, List.take_append,
          List.take_of_length_le (by omega : d.length ≤ missing)]
      · rwa [List.drop_append, List.drop_of_length_le (by omega : d.length ≤ missing)]
    · rw [List.length_append] at hle
      rw [if_neg (by omega)] at h
      rw [if_neg (by rw [List.length_append]; omega)]
      simpa only [List.append_assoc] using h

/-- `b` is still to come and `out` has been taken. -/
def At (R : σ → Bytes → Prop) (taken : τ → Bytes) (b out : Bytes) (st : Context σ τ) : Prop :=
  R st.1 b ∧ taken st.2 = out

variable {b out : Bytes} {st : Context σ τ}

theorem inputExact_spec (hread : Delivers read R) (h : At R taken b out st) (n : ℕ) :
    if n ≤ b.length then
      ∃ st', inputExact read n st = (.ok (b.take n),st') ∧ At R taken (b.drop n) out st'
    else ∃ st', inputExact read n st = (.error .invalid,st') := by
  obtain ⟨s,t⟩ := st
  have hspec := readExact_spec hread false h.1 [] n
  split
  · rename_i hle
    rw [if_pos hle] at hspec
    obtain ⟨s',hrun,hs'⟩ := hspec
    refine ⟨(s',t),?_,hs',h.2⟩
    simp only at hrun
    simp only [inputExact, hrun, List.nil_append]
  · rename_i hle
    rw [if_neg hle] at hspec
    obtain ⟨s',hrun⟩ := hspec
    refine ⟨(s',t),?_⟩
    simp only [Bool.false_eq_true, and_false, if_false] at hrun
    simp only [inputExact, hrun]

theorem outputAll_spec (hwrite : Accepts write taken) (h : At R taken b out st) (data : Bytes) :
    ∃ st', outputAll write data st = (.ok (),st') ∧ At R taken b (out ++ data) st' := by
  obtain ⟨s,t⟩ := st
  obtain ⟨t',hrun,htaken⟩ := writeAll_accepts hwrite t data
  refine ⟨(s,t'),?_,h.1,?_⟩
  · simp only [outputAll, hrun]
  · rw [htaken, ← h.2]

/-- Copying takes octets over from one side to the other. -/
theorem copyByte_cons (hread : Delivers read R) (hwrite : Accepts write taken) {c : UInt8}
    (h : At R taken (c :: b) out st) :
    ∃ st', copyByte read write st = (.ok c,st') ∧ At R taken b (out ++ [c]) st' := by
  have hin := inputExact_spec hread h 1
  rw [if_pos (by simp)] at hin
  obtain ⟨st1,hrun1,h1⟩ := hin
  obtain ⟨st2,hrun2,h2⟩ := outputAll_spec hwrite h1 [c]
  exact ⟨st2,by rw [copyByte, Run.bind_of_ok hrun1]; exact Run.bind_of_ok hrun2 _,h2⟩

theorem copyByte_nil (hread : Delivers read R) (h : At R taken [] out st) :
    ∃ st', copyByte read write st = (.error .invalid,st') := by
  have hin := inputExact_spec hread h 1
  rw [if_neg (by simp)] at hin
  obtain ⟨st1,hrun1⟩ := hin
  exact ⟨st1,by rw [copyByte]; exact Run.bind_of_error hrun1 _⟩

theorem copyPayload_spec (hread : Delivers read R) (hwrite : Accepts write taken) (n : ℕ)
    (h : At R taken b out st) :
    if n ≤ b.length then ∃ st', copyPayload read write n st = (.ok (),st') ∧
      At R taken (b.drop n) (out ++ b.take n) st'
    else ∃ st', copyPayload read write n st = (.error .invalid,st') := by
  induction n using Nat.strong_induction_on generalizing b out st with
  | _ n ih =>
    rw [copyPayload]
    by_cases hn : n = 0
    · rw [if_pos hn]
      subst hn
      rw [if_pos (by omega)]
      exact ⟨st,rfl,by simpa using h⟩
    · rw [if_neg hn]
      have hin := inputExact_spec hread h (min n 64)
      by_cases hle : min n 64 ≤ b.length
      · rw [if_pos hle] at hin
        obtain ⟨st1,hrun1,h1⟩ := hin
        obtain ⟨st2,hrun2,h2⟩ := outputAll_spec hwrite h1 (b.take (min n 64))
        have hrest := ih (n - min n 64) (by omega) h2
        simp only [List.length_drop] at hrest
        by_cases hall : n ≤ b.length
        · rw [if_pos (by omega)] at hrest
          rw [if_pos hall]
          obtain ⟨st3,hrun3,h3⟩ := hrest
          refine ⟨st3,?_,?_⟩
          · rw [Run.bind_of_ok hrun1, Run.bind_of_ok hrun2]
            exact hrun3
          · have hsum : min n 64 + (n - min n 64) = n := by omega
            rw [List.drop_drop, hsum, List.append_assoc, ← List.take_add, hsum] at h3
            exact h3
        · rw [if_neg (by omega)] at hrest
          rw [if_neg hall]
          obtain ⟨st3,hrun3⟩ := hrest
          exact ⟨st3,by rw [Run.bind_of_ok hrun1, Run.bind_of_ok hrun2]; exact hrun3⟩
      · rw [if_neg hle] at hin
        rw [if_neg (by omega)]
        obtain ⟨st1,hrun1⟩ := hin
        exact ⟨st1,Run.bind_of_error hrun1 _⟩

/-! ### Lines and pages -/

variable {page : PageInfo} {decoded : ℕ}

/-- The loop turn that meets the control octet `c`. -/
theorem copyRuns_cons (hread : Delivers read R) (hwrite : Accepts write taken) {c : UInt8}
    (hmore : decoded < page.bytesPerLine) (h : At R taken (c :: b) out st) :
    ∃ st1, At R taken b (out ++ [c]) st1 ∧ copyRuns read write page decoded st =
      (if c = 128 then Run.fail .invalid
      else if page.bytesPerLine - decoded < units c * page.bytesPerPixel then Run.fail .invalid
      else do
        copyPayload read write (encodedLength page.bytesPerPixel c)
        copyRuns read write page (decoded + units c * page.bytesPerPixel)) st1 := by
  obtain ⟨st1,hrun,h1⟩ := copyByte_cons hread hwrite h
  refine ⟨st1,h1,?_⟩
  rw [copyRuns, if_pos hmore, Run.bind_of_ok hrun]

theorem copyRuns_done (hdone : ¬ decoded < page.bytesPerLine) :
    copyRuns read write page decoded st = (.ok (),st) := by
  rw [copyRuns, if_neg hdone]
  rfl

/-- The runs of a whole line are copied. -/
theorem copyRuns_complete (hread : Delivers read R) (hwrite : Accepts write taken)
    {line row rest : Bytes} (hline : Runs page.bytesPerPixel line row)
    (hlength : decoded + row.length = page.bytesPerLine) (h : At R taken (line ++ rest) out st) :
    ∃ st', copyRuns read write page decoded st = (.ok (),st') ∧
      At R taken rest (out ++ line) st' := by
  induction hline generalizing decoded out st with
  | nil =>
    simp only [List.length_nil] at hlength
    exact ⟨st,copyRuns_done (by omega),by simpa using h⟩
  | @run control payload raw row hcontrol hpayload hline ih =>
    have hpos := Nat.mul_pos (units_pos control) page.bytesPerPixel_pos
    rw [List.length_append, expand_length hpayload] at hlength
    have hmore : decoded < page.bytesPerLine := by omega
    rw [List.cons_append, List.append_assoc] at h
    obtain ⟨st1,h1,hrun1⟩ := copyRuns_cons hread hwrite hmore h
    rw [if_neg hcontrol, if_neg (by omega)] at hrun1
    have hcopy := copyPayload_spec hread hwrite (encodedLength page.bytesPerPixel control) h1
    rw [if_pos (by rw [List.length_append, hpayload]; omega)] at hcopy
    obtain ⟨st2,hrun2,h2⟩ := hcopy
    rw [← hpayload, List.drop_left, List.take_left] at h2
    have hnext : decoded + units control * page.bytesPerPixel + row.length =
        page.bytesPerLine := by omega
    obtain ⟨st3,hrun3,h3⟩ := ih hnext h2
    refine ⟨st3,?_,by simpa using h3⟩
    rw [hrun1, Run.bind_of_ok hrun2]
    exact hrun3

/-- What the inner loop accepts is the runs of a line. -/
theorem copyRuns_sound (hread : Delivers read R) (hwrite : Accepts write taken)
    {st' : Context σ τ} (hle : decoded ≤ page.bytesPerLine) (h : At R taken b out st)
    (hrun : copyRuns read write page decoded st = (.ok (),st')) :
    ∃ line row rest, b = line ++ rest ∧ Runs page.bytesPerPixel line row ∧
      decoded + row.length = page.bytesPerLine ∧ At R taken rest (out ++ line) st' := by
  induction hk : page.bytesPerLine - decoded using Nat.strong_induction_on
    generalizing decoded b out st with
  | _ k ih =>
    by_cases hmore : decoded < page.bytesPerLine
    · cases b with
      | nil =>
        obtain ⟨st1,herr⟩ := @copyByte_nil _ _ _ write _ _ _ _ hread h
        rw [copyRuns, if_pos hmore, Run.bind_of_error herr] at hrun
        cases hrun
      | cons c b =>
        obtain ⟨st1,h1,hstep⟩ := copyRuns_cons hread hwrite hmore h
        rw [hstep] at hrun
        split at hrun
        · cases hrun
        rename_i hc
        split at hrun
        · cases hrun
        rename_i hfit
        have hpos := Nat.mul_pos (units_pos c) page.bytesPerPixel_pos
        have hcopy := copyPayload_spec hread hwrite (encodedLength page.bytesPerPixel c) h1
        split at hcopy
        · rename_i henough
          obtain ⟨st2,hrun2,h2⟩ := hcopy
          rw [Run.bind_of_ok hrun2] at hrun
          obtain ⟨line,row,rest,hb,hline,hlength,h3⟩ := ih _ (by omega) (by omega) h2 hrun rfl
          have hpayload : (b.take (encodedLength page.bytesPerPixel c)).length =
              encodedLength page.bytesPerPixel c := List.length_take_of_le henough
          refine ⟨_,_,rest,?_,Runs.run hc hpayload hline,?_,?_⟩
          · rw [List.cons_append, List.append_assoc, ← hb, List.take_append_drop]
          · rw [List.length_append, expand_length hpayload]
            omega
          · simpa using h3
        · obtain ⟨st2,herr⟩ := hcopy
          rw [Run.bind_of_error herr] at hrun
          cases hrun
    · rw [copyRuns_done hmore] at hrun
      cases hrun
      exact ⟨[],[],b,rfl,.nil,by simp only [List.length_nil]; omega,by simpa using h⟩

variable {rows : ℕ}

theorem copyPage_cons (hread : Delivers read R) (hwrite : Accepts write taken) {c : UInt8}
    (hmore : rows < page.height) (h : At R taken (c :: b) out st) :
    ∃ st1, At R taken b (out ++ [c]) st1 ∧ copyPage read write page rows st =
      (if page.height - rows < c.toNat + 1 then Run.fail .invalid
      else do
        copyRuns read write page 0
        copyPage read write page (rows + (c.toNat + 1))) st1 := by
  obtain ⟨st1,hrun,h1⟩ := copyByte_cons hread hwrite h
  refine ⟨st1,h1,?_⟩
  rw [copyPage, if_pos hmore, Run.bind_of_ok hrun]

theorem copyPage_done (hdone : ¬ rows < page.height) :
    copyPage read write page rows st = (.ok (),st) := by
  rw [copyPage, if_neg hdone]
  rfl

theorem copyPage_complete (hread : Delivers read R) (hwrite : Accepts write taken)
    {height : ℕ} {raw rest : Bytes} {lines : List Bytes}
    (hlines : Lines page.bytesPerPixel page.bytesPerLine height raw lines)
    (hheight : rows + height = page.height) (h : At R taken (raw ++ rest) out st) :
    ∃ st', copyPage read write page rows st = (.ok (),st') ∧
      At R taken rest (out ++ raw) st' := by
  induction hlines generalizing rows out st with
  | nil => exact ⟨st,copyPage_done (by omega),by simpa using h⟩
  | @group rep line row raw height lines hline hrow hlines ih =>
    have hmore : rows < page.height := by omega
    rw [List.cons_append, List.append_assoc] at h
    obtain ⟨st1,h1,hrun1⟩ := copyPage_cons hread hwrite hmore h
    rw [if_neg (by omega)] at hrun1
    have hstart : 0 + row.length = page.bytesPerLine := by omega
    have hnext : rows + (rep.toNat + 1) + height = page.height := by omega
    obtain ⟨st2,hrun2,h2⟩ := copyRuns_complete hread hwrite hline hstart h1
    obtain ⟨st3,hrun3,h3⟩ := ih hnext h2
    refine ⟨st3,?_,by simpa using h3⟩
    rw [hrun1, Run.bind_of_ok hrun2]
    exact hrun3

theorem copyPage_sound (hread : Delivers read R) (hwrite : Accepts write taken)
    {st' : Context σ τ} (hle : rows ≤ page.height) (h : At R taken b out st)
    (hrun : copyPage read write page rows st = (.ok (),st')) :
    ∃ height raw lines rest, b = raw ++ rest ∧ rows + height = page.height ∧
      Lines page.bytesPerPixel page.bytesPerLine height raw lines ∧
      At R taken rest (out ++ raw) st' := by
  induction hk : page.height - rows using Nat.strong_induction_on
    generalizing rows b out st with
  | _ k ih =>
    by_cases hmore : rows < page.height
    · cases b with
      | nil =>
        obtain ⟨st1,herr⟩ := @copyByte_nil _ _ _ write _ _ _ _ hread h
        rw [copyPage, if_pos hmore, Run.bind_of_error herr] at hrun
        cases hrun
      | cons c b =>
        obtain ⟨st1,h1,hstep⟩ := copyPage_cons hread hwrite hmore h
        rw [hstep] at hrun
        split at hrun
        · cases hrun
        rename_i hfit
        obtain ⟨_,st2,hrun2,hrun3⟩ := Run.bind_eq_ok hrun
        obtain ⟨line,row,rest,rfl,hline,hlength,h2⟩ :=
          copyRuns_sound hread hwrite (Nat.zero_le _) h1 hrun2
        obtain ⟨height,raw,lines,rest,rfl,hheight,hlines,h3⟩ :=
          ih _ (by omega) (by omega) h2 hrun3 rfl
        refine ⟨c.toNat + 1 + height,c :: (line ++ raw),_,rest,?_,?_,
          Lines.group hline (by omega) hlines,?_⟩
        · rw [List.cons_append, List.append_assoc]
        · omega
        · simpa using h3
    · rw [copyPage_done hmore] at hrun
      cases hrun
      exact ⟨0,[],[],b,rfl,by omega,.nil,by simpa using h⟩

theorem inputExact_finishes (n : ℕ) :
    Run.Finishes (inputExact read n : Run (Context σ τ) RasterError Bytes) := by
  rintro ⟨s,t⟩
  simp only [inputExact]
  split <;> simp

theorem outputAll_finishes (data : Bytes) :
    Run.Finishes (outputAll write data : Run (Context σ τ) RasterError Unit) := by
  rintro ⟨s,t⟩
  simp only [outputAll]
  split <;> simp

theorem copyByte_finishes : Run.Finishes (copyByte read write) :=
  .bind (inputExact_finishes 1) fun data => .bind (outputAll_finishes data) fun _ => .pure _

theorem copyPayload_finishes (n : ℕ) : Run.Finishes (copyPayload read write n) := by
  induction n using Nat.strong_induction_on with
  | _ n ih =>
    rw [copyPayload]
    split
    · exact .pure _
    · refine .bind (inputExact_finishes _) fun data => .bind (outputAll_finishes data) fun _ => ?_
      exact ih _ (by omega)

theorem copyRuns_finishes (page : PageInfo) (decoded : ℕ) :
    Run.Finishes (copyRuns read write page decoded) := by
  induction hk : page.bytesPerLine - decoded using Nat.strong_induction_on
    generalizing decoded with
  | _ k ih =>
    rw [copyRuns]
    split
    · refine .bind copyByte_finishes fun c => .ite (.fail _) ?_
      split
      · exact .fail _
      · refine .bind (copyPayload_finishes _) fun _ => ih _ ?_ _ rfl
        have := Nat.mul_pos (units_pos c) page.bytesPerPixel_pos
        omega
    · exact .pure _

theorem copyPage_finishes (page : PageInfo) (rows : ℕ) :
    Run.Finishes (copyPage read write page rows) := by
  induction hk : page.height - rows using Nat.strong_induction_on generalizing rows with
  | _ k ih =>
    rw [copyPage]
    split
    · refine .bind copyByte_finishes fun c => ?_
      split
      · exact .fail _
      · exact .bind (copyRuns_finishes page 0) fun _ => ih _ (by omega) _ rfl
    · exact .pure _

theorem nextHeader_spec (hread : Delivers read R) (h : At R taken b out st) :
    if pwgHeaderSize ≤ b.length then ∃ st', nextHeader read st =
      (.ok (some (b.take pwgHeaderSize)),st') ∧ At R taken (b.drop pwgHeaderSize) out st'
    else ∃ st', nextHeader read st = (if b = [] then .ok none else .error .invalid,st') ∧
      taken st'.2 = out := by
  obtain ⟨s,t⟩ := st
  have hspec := readExact_spec hread true h.1 [] pwgHeaderSize
  split
  · rename_i hle
    rw [if_pos hle] at hspec
    obtain ⟨s',hrun,hs'⟩ := hspec
    refine ⟨(s',t),?_,hs',h.2⟩
    simp only at hrun
    simp only [nextHeader, hrun, List.nil_append]
  · rename_i hle
    rw [if_neg hle] at hspec
    obtain ⟨s',hrun⟩ := hspec
    refine ⟨(s',t),?_,h.2⟩
    simp only [List.nil_append, and_true] at hrun
    simp only [nextHeader, hrun]
    by_cases hb : b = []
    · simp [hb]
    · simp [hb]

end

/-! ### Documents -/

/-- A page of a PWG document that can be converted: an acceptable header and the lines it
announces. -/
structure Page where
  header : Bytes
  apple : Bytes
  info : PageInfo
  raw : Bytes
  rows : List Bytes
  header_length : header.length = pwgHeaderSize
  accepted : buildPageHeader header = .ok (apple,info)
  lines : Lines info.bytesPerPixel info.bytesPerLine info.height raw rows

def Page.pwg (p : Page) : Bytes := p.header ++ p.raw

def Page.urf (p : Page) : Bytes := p.apple ++ p.raw

/-- The page count that the document announces in its first header. -/
def Page.totalPageCount (p : Page) : ℕ := u32At p.header Offset.totalPageCount

def pwgDocument (p : Page) (ps : List Page) : Bytes :=
  octets "RaS2" ++ (p :: ps).flatMap Page.pwg

def urfDocument (p : Page) (ps : List Page) : Bytes :=
  fileHeader p.totalPageCount ++ (p :: ps).flatMap Page.urf

/-- The announced count is not used, or it is the 32-bit count of the pages. -/
def CountMatches (expectedPages pages : ℕ) : Prop :=
  expectedPages = 0 ∨ expectedPages = 0xffffffff ∨ pages % 4294967296 = expectedPages

section
variable {σ τ : Type} {read : ReadFn σ} {write : WriteFn τ} {R : σ → Bytes → Prop}
  {taken : τ → Bytes} {b out : Bytes} {st : Context σ τ} {expectedPages turns pages : ℕ}

/-- The turn that copies page `p`. -/
theorem copyPages_page (hread : Delivers read R) (hwrite : Accepts write taken) (p : Page)
    {rest : Bytes} (h : At R taken (p.raw ++ rest) out st) :
    ∃ st1, At R taken rest (out ++ p.urf) st1 ∧
      copyPages read write expectedPages (turns + 1) pages p.header st =
        (nextHeader read >>= fun next => match next with
          | some pwg => copyPages read write expectedPages turns ((pages + 1) % 4294967296) pwg
          | none => if expectedPages ≠ 0 ∧ expectedPages ≠ 0xffffffff ∧
              (pages + 1) % 4294967296 ≠ expectedPages then Run.fail .invalid else pure ()) st1 := by
  obtain ⟨st1,hrun1,h1⟩ := outputAll_spec hwrite h p.apple
  obtain ⟨st2,hrun2,h2⟩ := copyPage_complete hread hwrite p.lines (Nat.zero_add _) h1
  refine ⟨st2,?_,?_⟩
  · rwa [List.append_assoc] at h2
  · rw [copyPages, p.accepted]
    exact (Run.bind_of_ok hrun1 _).trans (Run.bind_of_ok hrun2 _)

theorem copyPages_complete (hread : Delivers read R) (hwrite : Accepts write taken) (p : Page)
    (ps : List Page) (hcount : CountMatches expectedPages (pages + 1 + ps.length))
    (hturns : ps.length < turns) (h : At R taken (p.raw ++ ps.flatMap Page.pwg) out st) :
    ∃ st', copyPages read write expectedPages turns pages p.header st = (.ok (),st') ∧
      taken st'.2 = out ++ (p :: ps).flatMap Page.urf := by
  induction ps generalizing p turns pages out st with
  | nil =>
    obtain ⟨n,rfl⟩ : ∃ n, turns = n + 1 := ⟨turns - 1,by omega⟩
    obtain ⟨st1,h1,hrun1⟩ := @copyPages_page _ _ _ _ _ _ _ _ expectedPages n pages hread hwrite p
      _ h
    have hnext := nextHeader_spec hread h1
    rw [List.flatMap_nil, if_neg (by simp)] at hnext
    obtain ⟨st2,hrun2,htaken⟩ := hnext
    rw [if_pos rfl] at hrun2
    refine ⟨st2,?_,by simpa using htaken⟩
    rw [hrun1, Run.bind_of_ok hrun2]
    simp only
    rw [if_neg]
    · rfl
    · rintro ⟨h0,hmax,hne⟩
      rcases hcount with hc | hc | hc
      · exact h0 hc
      · exact hmax hc
      · exact hne hc
  | cons q qs ih =>
    obtain ⟨n,rfl⟩ : ∃ n, turns = n + 1 := ⟨turns - 1,by omega⟩
    obtain ⟨st1,h1,hrun1⟩ := @copyPages_page _ _ _ _ _ _ _ _ expectedPages n pages hread hwrite p
      _ h
    have hnext := nextHeader_spec hread h1
    rw [List.flatMap_cons, Page.pwg, List.append_assoc, List.length_append, q.header_length,
      if_pos (by omega), ← q.header_length, List.take_left, List.drop_left] at hnext
    obtain ⟨st2,hrun2,h2⟩ := hnext
    have hcount' : CountMatches expectedPages ((pages + 1) % 4294967296 + 1 + qs.length) := by
      refine hcount.imp_right (Or.imp_right fun hc => ?_)
      simp only [List.length_cons] at hc
      omega
    have hturns' : qs.length < n := by
      simp only [List.length_cons] at hturns
      omega
    obtain ⟨st3,hrun3,htaken⟩ := ih q hcount' hturns' h2
    refine ⟨st3,?_,?_⟩
    · rw [hrun1, Run.bind_of_ok hrun2]
      exact hrun3
    · rw [htaken, List.append_assoc]
      rfl

theorem countMatches_step {n : ℕ}
    (h : CountMatches expectedPages ((pages + 1) % 4294967296 + 1 + n)) :
    CountMatches expectedPages (pages + 1 + (n + 1)) := by
  refine h.imp_right (Or.imp_right fun hc => ?_)
  omega

/-- The loop rejects whatever is not a sequence of pages of the right number. -/
theorem copyPages_sound (hread : Delivers read R) (hwrite : Accepts write taken) {pwg : Bytes}
    (hlength : pwg.length = pwgHeaderSize) (hturns : b.length < turns) (h : At R taken b out st) :
    (∃ (p : Page) (ps : List Page), p.header = pwg ∧ b = p.raw ++ ps.flatMap Page.pwg ∧
      CountMatches expectedPages (pages + 1 + ps.length)) ∨
    ∃ e st', copyPages read write expectedPages turns pages pwg st = (.error e,st') := by
  induction turns generalizing pages pwg b out st with
  | zero => omega
  | succ n ih =>
    cases hbuild : buildPageHeader pwg with
    | error e => exact .inr ⟨e,st,by rw [copyPages, hbuild]; rfl⟩
    | ok r =>
      obtain ⟨apple,info⟩ := r
      obtain ⟨st1,hrun1,h1⟩ := outputAll_spec hwrite h apple
      cases hpage : copyPage read write info 0 st1 with
      | mk o st2 =>
        cases o with
        | unfinished => exact absurd (congrArg Prod.fst hpage) (copyPage_finishes _ _ st1)
        | error e =>
          refine .inr ⟨e,st2,?_⟩
          rw [copyPages, hbuild]
          simp only
          rw [Run.bind_of_ok hrun1, Run.bind_of_error hpage]
        | ok u =>
          obtain ⟨height,raw,lines,rest,rfl,hheight,hlines,-⟩ :=
            copyPage_sound hread hwrite (Nat.zero_le _) h1 hpage
          rw [Nat.zero_add] at hheight
          subst hheight
          let p : Page := ⟨pwg,apple,info,raw,lines,hlength,hbuild,hlines⟩
          obtain ⟨st3,h3,hrun3⟩ := @copyPages_page _ _ _ _ _ _ _ _ expectedPages n pages hread
            hwrite p _ h
          have hnext := nextHeader_spec hread h3
          rw [List.length_append] at hturns
          split at hnext
          · rename_i hmore
            obtain ⟨st4,hrun4,h4⟩ := hnext
            have htake := List.length_take_of_le hmore
            have hshort : (rest.drop pwgHeaderSize).length < n := by
              simp only [List.length_drop, pwgHeaderSize] at hmore ⊢
              omega
            have hrest := @ih _ _ _ ((pages + 1) % 4294967296) _ htake hshort h4
            rcases hrest with ⟨q,qs,hheader,hdrop,hcount⟩ | ⟨e,st5,hrun5⟩
            · refine .inl ⟨p,q :: qs,rfl,?_,countMatches_step hcount⟩
              rw [List.flatMap_cons, Page.pwg, hheader, List.append_assoc, ← hdrop,
                List.take_append_drop]
            · exact .inr ⟨e,st5,by rw [hrun3, Run.bind_of_ok hrun4]; exact hrun5⟩
          · obtain ⟨st4,hrun4,-⟩ := hnext
            by_cases hrest : rest = []
            · rw [if_pos hrest] at hrun4
              by_cases hcount : CountMatches expectedPages (pages + 1)
              · exact .inl ⟨p,[],rfl,by simp [hrest, p],hcount⟩
              · refine .inr ⟨.invalid,st4,?_⟩
                rw [hrun3, Run.bind_of_ok hrun4]
                simp only
                rw [if_pos]
                · rfl
                · simpa only [CountMatches, not_or] using hcount
            · rw [if_neg hrest] at hrun4
              exact .inr ⟨_,st4,by rw [hrun3]; exact Run.bind_of_error hrun4 _⟩

end

end Espresso.Raster
