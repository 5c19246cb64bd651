import Espresso.Http.Sizes
import Espresso.Http.Opening

/-! Reading a body piece by piece gives what its stream decodes to as a whole. -/
namespace Espresso.Http
open Callback

/-! ### Taking octets off the stream -/

section
variable {σ : Type} {read : ReadFn σ} {R : σ → Bytes → Prop}

/-- What is still to be read: the rest of the buffer, then the rest of the reader's stream. -/
def Holds (R : σ → Bytes → Prop) (st : Request × σ) (stream : Bytes) : Prop :=
  ∃ rest, R st.2 rest ∧ stream = st.1.buffered ++ rest

/-- At most the position in the buffer has changed. -/
def Moved (st st' : Request × σ) : Prop := ∃ k, st'.1 = { st.1 with bufferOffset := k }

theorem Moved.refl (st : Request × σ) : Moved st st := ⟨st.1.bufferOffset,rfl⟩

theorem Moved.trans {st st' st'' : Request × σ} (h : Moved st st') (h' : Moved st' st'') :
    Moved st st'' := by
  obtain ⟨k,hk⟩ := h
  obtain ⟨k',hk'⟩ := h'
  exact ⟨k',by rw [hk', hk]⟩

/-- A positive number of octets comes off a stream that is not at its end. -/
theorem rawRead_holds (h : Delivers read R) {n : ℕ} (hn : 0 < n) {st : Request × σ} {stream : Bytes}
    (hst : Holds R st stream) :
    (stream = [] ∧ ∃ st', rawRead read n st = (.error .ioError,st')) ∨
    ∃ d stream' st', rawRead read n st = (.ok d,st') ∧ d ≠ [] ∧ d.length ≤ n ∧
      stream = d ++ stream' ∧ Holds R st' stream' ∧ Moved st st' := by
  obtain ⟨r,s⟩ := st
  obtain ⟨rest,hrest,rfl⟩ := hst
  simp only [rawRead, if_neg (by omega : ¬ n = 0)]
  by_cases hbuf : r.bufferOffset < r.buffer.length
  · rw [if_pos hbuf]
    refine .inr ⟨r.buffered.take n,r.buffered.drop n ++ rest,
      ({ r with bufferOffset := r.bufferOffset + (r.buffered.take n).length },s),rfl,?_,
      List.length_take_le _ _,?_,⟨rest,hrest,?_⟩,⟨_,rfl⟩⟩
    · apply List.ne_nil_of_length_pos
      rw [List.length_take, Request.buffered, List.length_drop]
      omega
    · rw [← List.append_assoc, List.take_append_drop]
    · congr 1
      change r.buffered.drop n = r.buffer.drop (r.bufferOffset + (r.buffered.take n).length)
      rw [← List.drop_drop, List.length_take]
      change r.buffered.drop n = r.buffered.drop (min n r.buffered.length)
      by_cases hle : n ≤ r.buffered.length
      · rw [Nat.min_eq_left hle]
      · rw [Nat.min_eq_right (by omega), List.drop_of_length_le (by omega), List.drop_length]
  · rw [if_neg hbuf]
    have hnil : r.buffered = [] := List.drop_of_length_le (by omega)
    obtain ⟨d,b,s',hread,rfl,hs',hle,hend⟩ := h s rest n hrest hn
    rw [hread]
    simp only [hnil, List.nil_append]
    by_cases hd : d = []
    · exact .inl ⟨hend hd,by rw [if_pos (.inl hd)]; exact ⟨_,rfl⟩⟩
    · rw [if_neg (by rintro (hd' | hlong); exacts [hd hd',by omega])]
      refine .inr ⟨d,b,(r,s'),rfl,hd,hle,rfl,⟨b,hs',?_⟩,.refl _⟩
      simp only [hnil, List.nil_append]

theorem rawByte_follows (h : Delivers read R) : Run.Follows (Holds R) Moved (rawByte read)
    fun stream => match stream with
      | [] => none
      | c :: cs => some (c,cs) := by
  intro st stream hst
  rw [rawByte, Run.bind_apply]
  rcases rawRead_holds h one_pos hst with ⟨rfl,st',hread⟩ | ⟨d,stream',st',hread,hne,hle,rfl,hst',hmoved⟩
  · rw [hread]
  · rw [hread]
    obtain ⟨c,rfl⟩ : ∃ c, d = [c] := List.length_eq_one_iff.mp
      (le_antisymm hle (List.length_pos_of_ne_nil hne))
    exact ⟨stream',rfl,hst',hmoved⟩

theorem rawExact_follows (h : Delivers read R) (n : ℕ) :
    Run.Follows (Holds R) Moved (rawExact read n)
      fun stream => if n ≤ stream.length then some (stream.take n,stream.drop n) else none := by
  induction n using Nat.strong_induction_on with
  | _ n ih =>
    intro st stream hst
    rw [rawExact]
    by_cases hn : n = 0
    · subst hn
      exact ⟨stream,by simp,hst,.refl st⟩
    · rw [if_neg hn, Run.bind_apply]
      rcases rawRead_holds h (Nat.pos_of_ne_zero hn) hst with
        ⟨rfl,st',hread⟩ | ⟨d,stream',st',hread,hne,hle,rfl,hst',hmoved⟩
      · rw [hread]
        change (if n ≤ 0 then _ else _) = none
        rw [if_neg (by omega)]
      · rw [hread]
        have hpos : 0 < d.length := List.length_pos_of_ne_nil hne
        have hrec := ih (n - d.length) (by omega) st' stream' hst'
        simp only [if_neg hne, Run.bind_apply]
        cases hres : rawExact read (n - d.length) st' with
        | mk o st'' =>
          rw [hres] at hrec
          cases o with
          | unfinished => exact hrec
          | error e =>
            change (if n ≤ (d ++ stream').length then _ else _) = none
            rw [if_neg]
            intro hlen
            rw [List.length_append] at hlen
            change (if n - d.length ≤ stream'.length then _ else _) = none at hrec
            rw [if_pos (by omega)] at hrec
            cases hrec
          | ok more =>
            obtain ⟨rest,hsome,hst'',hmoved'⟩ := hrec
            simp only at hsome
            by_cases hlen : n - d.length ≤ stream'.length
            · rw [if_pos hlen] at hsome
              cases hsome
              refine ⟨_,?_,hst'',hmoved.trans hmoved'⟩
              simp only [List.length_append]
              rw [if_pos (by omega), List.take_append, List.drop_append, List.take_of_length_le hle,
                List.drop_of_length_le hle, List.nil_append]
            · rw [if_neg hlen] at hsome
              cases hsome

/-- A line of which `line` has been read already. -/
def lineFrom (line stream : Bytes) : Option (Bytes × Bytes) :=
  let more := stream.takeWhile fun c => c ≠ cr ∧ c ≠ lf
  if line.length + more.length < httpLineSize ∧ crlf <+: stream.drop more.length then
    some (line ++ more,stream.drop (more.length + 2))
  else none

theorem lineFrom_nil (stream : Bytes) : lineFrom [] stream = splitLine stream := by
  simp only [lineFrom, splitLine, List.length_nil, Nat.zero_add, List.nil_append]

theorem lineFrom_cons {c : UInt8} (hcr : c ≠ cr) (hlf : c ≠ lf) (line stream : Bytes) :
    lineFrom line (c :: stream) = lineFrom (line ++ [c]) stream := by
  have htake : (c :: stream).takeWhile (fun c => c ≠ cr ∧ c ≠ lf) =
      c :: stream.takeWhile fun c => c ≠ cr ∧ c ≠ lf := by
    rw [List.takeWhile_cons_of_pos (by simp [hcr, hlf])]
  simp only [lineFrom]
  rw [htake]
  simp only [List.length_cons, List.drop_succ_cons, List.length_append, List.length_nil,
    List.append_assoc, List.cons_append, List.nil_append]
  rw [show line.length + ((stream.takeWhile fun c => c ≠ cr ∧ c ≠ lf).length + 1) =
    line.length + (0 + 1) + (stream.takeWhile fun c => c ≠ cr ∧ c ≠ lf).length by omega]

theorem lineFrom_full {line stream : Bytes} (h : httpLineSize ≤ line.length) :
    lineFrom line stream = none := by
  simp only [lineFrom]
  rw [if_neg (by omega)]

theorem lineFrom_lf (line stream : Bytes) : lineFrom line (lf :: stream) = none := by
  simp only [lineFrom]
  rw [if_neg]
  rintro ⟨-,hpre⟩
  obtain ⟨t,ht⟩ := hpre
  cases ht

theorem readLine_follows (h : Delivers read R) {line : Bytes} (hline : line.length < httpLineSize) :
    Run.Follows (Holds R) Moved (readLine read line) (lineFrom line) := by
  induction hk : httpLineSize - line.length using Nat.strong_induction_on generalizing line with
  | _ k ih =>
    have hbyte := rawByte_follows h
    have hstep : ∀ st c cs, Holds R st (c :: cs) → ∃ st', rawByte read st = (.ok c,st') ∧
        Holds R st' cs ∧ Moved st st' := fun st c cs hst => hbyte.of_some hst rfl
    apply Run.Follows.intro
    · intro st stream full rest hst hf
      cases stream with
      | nil =>
        simp only [lineFrom] at hf
        rw [if_neg (by rintro ⟨-,t,ht⟩; cases ht)] at hf
        cases hf
      | cons c cs =>
        obtain ⟨st1,hread,hst1,hm1⟩ := hstep st c cs hst
        rw [readLine, Run.bind_of_ok hread]
        by_cases hcr : c = cr
        · subst hcr
          simp only [lineFrom] at hf
          split at hf
          · rename_i hok
            obtain ⟨-,t,ht⟩ := hok
            cases ht
            cases hf
            obtain ⟨st2,hread2,hst2,hm2⟩ := hstep st1 lf t hst1
            refine ⟨st2,?_,?_,hm1.trans hm2⟩
            · rw [if_pos rfl, Run.bind_of_ok hread2, if_neg (by simp)]
              simp
            · simpa using hst2
          · cases hf
        · by_cases hlf : c = lf
          · rw [hlf, lineFrom_lf] at hf
            cases hf
          · rw [lineFrom_cons hcr hlf] at hf
            by_cases hfull : httpLineSize ≤ line.length + 1
            · rw [lineFrom_full (by simpa using hfull)] at hf
              cases hf
            · have hrec := ih (httpLineSize - (line ++ [c]).length)
                (by rw [List.length_append, List.length_singleton]; omega)
                (by rw [List.length_append, List.length_singleton]; omega) rfl
              obtain ⟨st2,hread2,hst2,hm2⟩ := hrec.of_some hst1 hf
              refine ⟨st2,?_,hst2,hm1.trans hm2⟩
              rw [if_neg hcr, if_neg (by rintro (h | h); exacts [hlf h,hfull h])]
              exact hread2
    · intro st stream hst hf
      cases stream with
      | nil =>
        obtain ⟨e,st1,hread⟩ := hbyte.of_none hst rfl
        exact ⟨e,st1,by rw [readLine, Run.bind_of_error hread]⟩
      | cons c cs =>
        obtain ⟨st1,hread,hst1,hm1⟩ := hstep st c cs hst
        rw [readLine, Run.bind_of_ok hread]
        by_cases hcr : c = cr
        · subst hcr
          rw [if_pos rfl]
          cases cs with
          | nil =>
            obtain ⟨e,st2,hread2⟩ := hbyte.of_none hst1 rfl
            exact ⟨e,st2,by rw [Run.bind_of_error hread2]⟩
          | cons c2 cs =>
            obtain ⟨st2,hread2,-⟩ := hstep st1 c2 cs hst1
            rw [Run.bind_of_ok hread2]
            have hne : c2 ≠ lf := by
              rintro rfl
              simp only [lineFrom] at hf
              rw [if_pos ⟨by simpa using hline,⟨cs,by simp [crlf]⟩⟩] at hf
              cases hf
            rw [if_pos hne]
            exact ⟨_,_,rfl⟩
        · rw [if_neg hcr]
          by_cases hstop : c = lf ∨ httpLineSize ≤ line.length + 1
          · rw [if_pos hstop]
            exact ⟨_,_,rfl⟩
          · rw [if_neg hstop]
            rw [not_or] at hstop
            rw [lineFrom_cons hcr hstop.1] at hf
            have hrec := ih (httpLineSize - (line ++ [c]).length)
              (by rw [List.length_append, List.length_singleton]; omega)
              (by rw [List.length_append, List.length_singleton]; omega) rfl
            exact hrec.of_none hst1 hf

theorem skipTrailers_follows (h : Delivers read R) (trailerBytes : ℕ) :
    Run.Follows (Holds R) Moved (skipTrailers read trailerBytes)
      fun stream => (trailerEnd (httpTrailersMax - trailerBytes) stream).map fun rest => ((),rest) := by
  have hread := readLine_follows h (show ([] : Bytes).length < httpLineSize by decide)
  induction hk : httpTrailersMax - trailerBytes using Nat.strong_induction_on
    generalizing trailerBytes with
  | _ k ih =>
    apply Run.Follows.intro
    · intro st stream u rest hst hf
      rw [Option.map_eq_some_iff] at hf
      obtain ⟨rest',hf,heq⟩ := hf
      cases heq
      rw [trailerEnd_eq] at hf
      split at hf
      · cases hf
      · rename_i line more hline
        obtain ⟨st1,hrun,hst1,hm1⟩ := hread.of_some hst ((lineFrom_nil stream).trans hline)
        rw [skipTrailers, Run.bind_of_ok hrun]
        split at hf
        · rename_i hnil
          cases hf
          exact ⟨st1,by rw [if_pos hnil]; rfl,hst1,hm1⟩
        · rename_i hne
          split at hf
          · rename_i hok
            have hpos : 0 < line.length := List.length_pos_of_ne_nil hne
            have hrec := ih (k - line.length) (by omega) (trailerBytes + line.length) (by omega)
            obtain ⟨st2,hrun2,hst2,hm2⟩ := hrec.of_some hst1 (by rw [hf]; rfl)
            refine ⟨st2,?_,hst2,hm1.trans hm2⟩
            rw [if_neg hne, if_neg (by omega), if_neg (by simpa using hok.2)]
            exact hrun2
          · cases hf
    · intro st stream hst hf
      rw [Option.map_eq_none_iff, trailerEnd_eq] at hf
      split at hf
      · rename_i hline
        obtain ⟨e,st1,hrun⟩ := hread.of_none hst ((lineFrom_nil stream).trans hline)
        exact ⟨e,st1,by rw [skipTrailers, Run.bind_of_error hrun]⟩
      · rename_i line more hline
        obtain ⟨st1,hrun,hst1,hm1⟩ := hread.of_some hst ((lineFrom_nil stream).trans hline)
        rw [skipTrailers, Run.bind_of_ok hrun]
        split at hf
        · cases hf
        · rename_i hne
          rw [if_neg hne]
          by_cases hlong : httpTrailersMax - trailerBytes < line.length
          · rw [if_pos hlong]
            exact ⟨_,_,rfl⟩
          · rw [if_neg hlong]
            by_cases hcolon : 0x3a ∈ cstr line
            · rw [if_neg (by simpa using hcolon)]
              rw [if_pos ⟨by omega,hcolon⟩] at hf
              have hpos : 0 < line.length := List.length_pos_of_ne_nil hne
              have hrec := ih (k - line.length) (by omega) (trailerBytes + line.length) (by omega)
              exact hrec.of_none hst1 (by rw [hf]; rfl)
            · rw [if_pos hcolon]
              exact ⟨_,_,rfl⟩

end

/-! ### Chunk sizes -/

theorem parseChunkSize_eq (line : Bytes) : (parseChunkSize line).toOption = announcedSize line := by
  simp only [parseChunkSize, announcedSize]
  rw [chunkDigits_eq (by omega)]
  by_cases hhead : (cstr line).head?.any isxdigit = true
  · rw [if_neg (by simpa using hhead)]
    have hne := (takeWhile_ne_nil_iff (cstr line)).mpr hhead
    by_cases hfits : hexValue ((cstr line).takeWhile isxdigit) ≤ sizeMax
    · rw [if_pos (by exact hfits)]
      simp only
      by_cases hext : ((cstr line).dropWhile isxdigit).dropWhile isBlank = [] ∨
          (((cstr line).dropWhile isxdigit).dropWhile isBlank).head? = some 0x3b
      · rw [if_neg (by tauto), if_pos ⟨hne,hfits,hext⟩]
        rfl
      · rw [if_pos (by tauto), if_neg (by tauto)]
        rfl
    · rw [if_neg (by exact hfits), if_neg (by tauto)]
      rfl
  · rw [if_pos (by simpa using hhead), if_neg]
    · rfl
    · rintro ⟨hne,-⟩
      exact hhead ((takeWhile_ne_nil_iff _).mp hne)

/-! ### One read -/

section
variable {σ : Type} {read : ReadFn σ} {R : σ → Bytes → Prop}

/-- What the rest of the stream decodes to, in the state the decoder is in. -/
def expected (r : Request) (stream : Bytes) : Bytes × Option Bytes :=
  if r.done then ([],some stream)
  else if ¬ r.chunked then (stream.take r.fixedRemaining,
    if r.fixedRemaining ≤ stream.length then some (stream.drop r.fixedRemaining) else none)
  else if r.chunkRemaining ≠ 0 ∨ r.chunkCrlfPending then insideChunk r.chunkRemaining stream
  else dechunk stream

/-- The size in front of a chunk. -/
def headOf (pending : Bool) (stream : Bytes) : Option (ℕ × Bytes) :=
  if pending ∧ ¬ crlf <+: stream then none
  else match splitLine (if pending then stream.drop 2 else stream) with
    | none => none
    | some (line,rest) => (announcedSize line).map fun size => (size,rest)

theorem expected_of_headOf {r : Request} (stream : Bytes) (hdone : r.done = false)
    (hchunked : r.chunked = true) (hzero : r.chunkRemaining = 0) : expected r stream =
      match headOf r.chunkCrlfPending stream with
      | none => ([],none)
      | some (0,rest) => ([],trailerEnd httpTrailersMax rest)
      | some (n + 1,rest) => insideChunk (n + 1) rest := by
  have hline (stream : Bytes) : dechunk stream =
      match (match splitLine stream with
        | none => none
        | some (line,rest) => (announcedSize line).map fun size => (size,rest)) with
      | none => ([],none)
      | some (0,rest) => ([],trailerEnd httpTrailersMax rest)
      | some (n + 1,rest) => insideChunk (n + 1) rest := by
    cases hsplit : splitLine stream with
    | none => rw [dechunk_eq, hsplit]
    | some p =>
      obtain ⟨line,rest⟩ := p
      simp only
      cases hsize : announcedSize line with
      | none =>
        rw [dechunk_eq, hsplit]
        simp only [hsize, Option.map_none]
      | some size =>
        cases size with
        | zero =>
          rw [dechunk_eq, hsplit]
          simp only [hsize, Option.map_some]
        | succ n => exact dechunk_chunk hsplit hsize
  unfold expected headOf
  rw [hdone, hchunked, hzero]
  cases hpending : r.chunkCrlfPending with
  | false => simpa using hline stream
  | true =>
    simp only [Bool.false_eq_true, if_false, not_true_eq_false, ne_eq, or_true, if_true,
      true_and, insideChunk_zero, afterChunk]
    by_cases hcrlf : crlf <+: stream
    · rw [if_pos hcrlf, if_neg (by simpa using hcrlf)]
      exact hline (stream.drop 2)
    · rw [if_neg hcrlf, if_pos hcrlf]

theorem modify_apply (f : Request → Request) (st : Request × σ) :
    (modify f : Reading σ Unit) st = (.ok (),(f st.1,st.2)) := rfl

theorem get_apply (st : Request × σ) : (get : Reading σ Request) st = (.ok st.1,st) := rfl

theorem chunkEnd_run (h : Delivers read R) {st : Request × σ} {stream : Bytes}
    (hst : Holds R st stream) :
    if st.1.chunkCrlfPending ∧ ¬ crlf <+: stream then ∃ e st', chunkEnd read st = (.error e,st')
    else ∃ st' k, chunkEnd read st = (.ok (),st') ∧
      Holds R st' (if st.1.chunkCrlfPending then stream.drop 2 else stream) ∧
      st'.1 = { st.1 with bufferOffset := k, chunkCrlfPending := false } := by
  rw [chunkEnd, Run.bind_of_ok (get_apply st)]
  cases hpending : st.1.chunkCrlfPending with
  | false =>
    simp only [Bool.false_eq_true, false_and, if_false]
    refine ⟨st,st.1.bufferOffset,?_,hst,?_⟩
    · rfl
    · rw [← hpending]
  | true =>
    have hexact := rawExact_follows h 2
    simp only [true_and, if_true]
    by_cases hlen : 2 ≤ stream.length
    · obtain ⟨st1,hrun,hst1,k,hk⟩ := hexact.of_some hst (if_pos hlen)
      rw [Run.bind_of_ok hrun]
      by_cases hcrlf : crlf <+: stream
      · have htake : stream.take 2 = crlf := (List.prefix_iff_eq_take.mp hcrlf).symm
        rw [if_neg (by simpa using hcrlf), if_neg (by simpa using htake)]
        refine ⟨_,k,modify_apply _ _,hst1,?_⟩
        simp only [hk]
      · rw [if_pos hcrlf, if_pos]
        · exact ⟨_,_,rfl⟩
        · intro htake
          exact hcrlf (htake ▸ List.take_prefix 2 stream)
    · obtain ⟨e,st1,hrun⟩ := hexact.of_none hst (if_neg hlen)
      rw [if_pos]
      · exact ⟨e,st1,by rw [Run.bind_of_error hrun]⟩
      · intro hcrlf
        exact hlen hcrlf.length_le

theorem chunkHeader_some (h : Delivers read R) {st : Request × σ} {stream rest : Bytes} {size : ℕ}
    (hst : Holds R st stream) (hhead : headOf st.1.chunkCrlfPending stream = some (size,rest)) :
    ∃ st' k, chunkHeader read st = (.ok size,st') ∧ Holds R st' rest ∧
      st'.1 = { st.1 with bufferOffset := k, chunkCrlfPending := false, chunkRemaining := size } := by
  have hend := chunkEnd_run h hst
  unfold headOf at hhead
  split at hhead
  · cases hhead
  · rename_i hok
    rw [if_neg hok] at hend
    obtain ⟨st1,k1,hrun1,hst1,hk1⟩ := hend
    split at hhead
    · cases hhead
    · rename_i line rest' hline
      obtain ⟨size',hsize,heq⟩ := Option.map_eq_some_iff.mp hhead
      cases heq
      obtain ⟨st2,hrun2,hst2,k2,hk2⟩ := (readLine_follows h (show ([] : Bytes).length < httpLineSize by decide)).of_some hst1
        ((lineFrom_nil _).trans hline)
      have hparse : parseChunkSize line = .ok size := by
        rw [← parseChunkSize_eq] at hsize
        cases hp : parseChunkSize line with
        | error e => rw [hp] at hsize; cases hsize
        | ok n => rw [hp] at hsize; cases hsize; rfl
      refine ⟨({ st2.1 with chunkRemaining := size },st2.2),k2,?_,hst2,?_⟩
      · rw [chunkHeader, Run.bind_of_ok hrun1, Run.bind_of_ok hrun2, hparse]
        rfl
      · simp only [hk2, hk1]

theorem chunkHeader_none (h : Delivers read R) {st : Request × σ} {stream : Bytes}
    (hst : Holds R st stream) (hhead : headOf st.1.chunkCrlfPending stream = none) :
    ∃ e st', chunkHeader read st = (.error e,st') := by
  have hend := chunkEnd_run h hst
  unfold headOf at hhead
  rw [chunkHeader]
  split at hhead
  · rename_i hbad
    rw [if_pos hbad] at hend
    obtain ⟨e,st1,hrun1⟩ := hend
    exact ⟨e,st1,by rw [Run.bind_of_error hrun1]⟩
  · rename_i hok
    rw [if_neg hok] at hend
    obtain ⟨st1,k1,hrun1,hst1,hk1⟩ := hend
    have hread := readLine_follows h (show ([] : Bytes).length < httpLineSize by decide)
    rw [Run.bind_of_ok hrun1]
    split at hhead
    · rename_i hline
      obtain ⟨e,st2,hrun2⟩ := hread.of_none hst1 ((lineFrom_nil _).trans hline)
      exact ⟨e,st2,by rw [Run.bind_of_error hrun2]⟩
    · rename_i line rest' hline
      obtain ⟨st2,hrun2,-⟩ := hread.of_some hst1 ((lineFrom_nil _).trans hline)
      rw [Run.bind_of_ok hrun2]
      rw [Option.map_eq_none_iff, ← parseChunkSize_eq] at hhead
      cases hp : parseChunkSize line with
      | error e => exact ⟨_,_,rfl⟩
      | ok n => rw [hp] at hhead; cases hhead

theorem headOf_suffix {pending : Bool} {stream rest : Bytes} {size : ℕ}
    (h : headOf pending stream = some (size,rest)) : rest <:+ stream := by
  unfold headOf at h
  split at h
  · cases h
  · split at h
    · cases h
    · rename_i line rest' hline
      obtain ⟨_,-,heq⟩ := Option.map_eq_some_iff.mp h
      cases heq
      have hrest : rest <:+ (if pending then stream.drop 2 else stream) := by
        rw [(splitLine_iff.mp hline).1]
        exact List.suffix_append _ _
      refine hrest.trans ?_
      split
      · exact List.drop_suffix 2 stream
      · exact List.suffix_rfl

theorem expected_suffix {r : Request} {stream after : Bytes}
    (h : (expected r stream).2 = some after) : after <:+ stream := by
  unfold expected at h
  split at h
  · cases h
    exact List.suffix_rfl
  · split at h
    · simp only at h
      split at h
      · cases h
        exact List.drop_suffix _ _
      · cases h
    · split at h
      · unfold insideChunk at h
        split at h
        · cases h
        · simp only [afterChunk] at h
          split at h
          · exact (dechunk_suffix h).trans ((List.drop_suffix _ _).trans (List.drop_suffix _ _))
          · cases h
      · exact dechunk_suffix h

/-- What one read does: it returns octets that the stream decodes to, or it has found the end of
the body, or there is none, or no room to count what is there. -/
def Progress (R : σ → Bytes → Prop) (st : Request × σ) (stream : Bytes) :
    Outcome HttpError (Option Bytes) × (Request × σ) → Prop
  | (.ok (some d),st') => d ≠ [] ∧ st'.1.decodedLength = st.1.decodedLength + d.length ∧
      st'.1.decodedLength ≤ sizeMax ∧ ∃ stream', Holds R st' stream' ∧ stream' <:+ stream ∧
        expected st.1 stream = (d ++ (expected st'.1 stream').1,(expected st'.1 stream').2)
  | (.ok none,st') => st'.1.done = true ∧ st'.1.decodedLength = st.1.decodedLength ∧
      ∃ stream', Holds R st' stream' ∧ stream' <:+ stream ∧
        expected st.1 stream = ([],some stream')
  | (.error _,_) => (expected st.1 stream).2 = none ∨
      sizeMax < st.1.decodedLength + (expected st.1 stream).1.length
  | (.unfinished,_) => False

/-- A read may begin with a part that only looks for what to read. -/
theorem Progress.of_earlier {st st1 : Request × σ} {stream stream1 : Bytes}
    {result : Outcome HttpError (Option Bytes) × (Request × σ)}
    (hsuffix : stream1 <:+ stream) (hexp : expected st.1 stream = expected st1.1 stream1)
    (hdecoded : st1.1.decodedLength = st.1.decodedLength) (h : Progress R st1 stream1 result) :
    Progress R st stream result := by
  obtain ⟨o,st'⟩ := result
  cases o with
  | unfinished => exact h
  | error e =>
    change (expected st.1 stream).2 = none ∨ _
    rw [hexp, ← hdecoded]
    exact h
  | ok x =>
    cases x with
    | none =>
      obtain ⟨hdone,hlen,stream',hst',hsuf,heq⟩ := h
      exact ⟨hdone,hlen.trans hdecoded,stream',hst',hsuf.trans hsuffix,hexp.trans heq⟩
    | some d =>
      obtain ⟨hne,hlen,hmax,stream',hst',hsuf,heq⟩ := h
      exact ⟨hne,hdecoded ▸ hlen,hmax,stream',hst',hsuf.trans hsuffix,hexp.trans heq⟩

/-- The common end of a read that got `d`. -/
theorem countDecoded_progress {st st1 : Request × σ} {d stream stream' : Bytes} (hd : d ≠ [])
    (hst1 : Holds R st1 stream') (hsuffix : stream' <:+ stream)
    (hdecoded : st1.1.decodedLength = st.1.decodedLength)
    (hexp : expected st.1 stream = (d ++ (expected st1.1 stream').1,(expected st1.1 stream').2)) :
    Progress R st stream (countDecoded d st1) := by
  rw [countDecoded, Run.bind_of_ok (get_apply st1)]
  by_cases hbig : sizeMax - st1.1.decodedLength < d.length
  · rw [if_pos hbig]
    refine .inr ?_
    rw [hexp, List.length_append]
    omega
  · rw [if_neg hbig]
    have hpos : 0 < d.length := List.length_pos_of_ne_nil hd
    refine ⟨hd,?_,?_,stream',hst1,hsuffix,hexp⟩
    · change st1.1.decodedLength + d.length = _
      rw [hdecoded]
    · change st1.1.decodedLength + d.length ≤ sizeMax
      omega

theorem readFixed_progress (h : Delivers read R) {st : Request × σ} {stream : Bytes} {capacity : ℕ}
    (hst : Holds R st stream) (hcapacity : 0 < capacity) (hdone : st.1.done = false)
    (hfixed : st.1.chunked = false) : Progress R st stream (readFixed read capacity st) := by
  have hexp : expected st.1 stream = (stream.take st.1.fixedRemaining,
      if st.1.fixedRemaining ≤ stream.length then some (stream.drop st.1.fixedRemaining)
      else none) := by
    simp [expected, hdone, hfixed]
  rw [readFixed, Run.bind_of_ok (get_apply st)]
  by_cases hzero : st.1.fixedRemaining = 0
  · rw [if_pos hzero]
    refine ⟨rfl,rfl,stream,hst,List.suffix_rfl,?_⟩
    rw [hexp, hzero]
    simp
  · rw [if_neg hzero]
    have hmin : 0 < min st.1.fixedRemaining capacity := by omega
    rcases rawRead_holds h hmin hst with ⟨rfl,st',hread⟩ | ⟨d,stream',st',hread,hne,hle,rfl,hst',k,hk⟩
    · rw [Run.bind_of_error hread]
      refine .inl ?_
      rw [hexp]
      simp [hzero]
    · rw [Run.bind_of_ok hread, Run.bind_of_ok (modify_apply _ _)]
      have hd : d.length ≤ st.1.fixedRemaining := by omega
      refine countDecoded_progress hne hst' (List.suffix_append _ _) (by simp only [hk]) ?_
      rw [hexp]
      simp only [expected, hk, hdone, hfixed, Bool.false_eq_true, if_false, not_false_eq_true,
        if_true, List.length_append]
      rw [List.take_append, List.drop_append, List.take_of_length_le hd,
        List.drop_of_length_le hd, List.nil_append]
      have hiff : st.1.fixedRemaining ≤ d.length + stream'.length ↔
          st.1.fixedRemaining - d.length ≤ stream'.length := by omega
      simp only [hiff]

theorem readChunkData_progress (h : Delivers read R) {st : Request × σ} {stream : Bytes}
    {capacity : ℕ} (hst : Holds R st stream) (hcapacity : 0 < capacity) (hdone : st.1.done = false)
    (hchunked : st.1.chunked = true) (hremaining : st.1.chunkRemaining ≠ 0) :
    Progress R st stream (readChunkData read capacity st) := by
  have hexp : expected st.1 stream = insideChunk st.1.chunkRemaining stream := by
    simp [expected, hdone, hchunked, hremaining]
  have hmin : 0 < min st.1.chunkRemaining capacity := by omega
  rw [readChunkData, Run.bind_of_ok (get_apply st)]
  rcases rawRead_holds h hmin hst with ⟨rfl,st',hread⟩ | ⟨d,stream',st',hread,hne,hle,rfl,hst',k,hk⟩
  · rw [Run.bind_of_error hread]
    refine .inl ?_
    rw [hexp, insideChunk, if_pos (by simpa using Nat.pos_of_ne_zero hremaining)]
  · rw [Run.bind_of_ok hread, Run.bind_of_ok (modify_apply _ _)]
    have hd : d.length ≤ st.1.chunkRemaining := by omega
    refine countDecoded_progress hne hst' (List.suffix_append _ _) (by simp only [hk]) ?_
    rw [hexp, insideChunk_append hd]
    have hrest : expected { st'.1 with
        chunkRemaining := st'.1.chunkRemaining - d.length
        chunkCrlfPending := if st'.1.chunkRemaining - d.length = 0 then true
          else st'.1.chunkCrlfPending } stream' =
        insideChunk (st.1.chunkRemaining - d.length) stream' := by
      simp only [expected, hk, hdone, hchunked, Bool.false_eq_true, if_false, not_true_eq_false]
      by_cases hall : st.1.chunkRemaining - d.length = 0
      · rw [if_pos (by simp [hall])]
      · rw [if_pos (by simp [hall])]
    rw [hrest]

theorem readChunked_progress (h : Delivers read R) {st : Request × σ} {stream : Bytes}
    {capacity : ℕ} (hst : Holds R st stream) (hcapacity : 0 < capacity) (hdone : st.1.done = false)
    (hchunked : st.1.chunked = true) : Progress R st stream (readChunked read capacity st) := by
  rw [readChunked, Run.bind_of_ok (get_apply st)]
  by_cases hzero : st.1.chunkRemaining = 0
  · rw [if_pos hzero]
    have hexp := expected_of_headOf stream hdone hchunked hzero
    cases hhead : headOf st.1.chunkCrlfPending stream with
    | none =>
      obtain ⟨e,st',hrun⟩ := chunkHeader_none h hst hhead
      rw [Run.bind_of_error hrun]
      refine .inl ?_
      rw [hexp, hhead]
    | some p =>
      obtain ⟨size,rest⟩ := p
      obtain ⟨st1,k,hrun,hst1,hk⟩ := chunkHeader_some h hst hhead
      have hsuffix := headOf_suffix hhead
      rw [Run.bind_of_ok hrun]
      rw [hhead] at hexp
      cases size with
      | zero =>
        simp only at hexp
        rw [if_pos rfl, finishChunkedBody]
        have hskip := skipTrailers_follows h 0
        cases htrailer : trailerEnd httpTrailersMax rest with
        | none =>
          obtain ⟨e,st2,hrun2⟩ := hskip.of_none hst1 (by simp [htrailer])
          rw [Run.bind_of_error hrun2]
          refine .inl ?_
          rw [hexp, htrailer]
        | some after =>
          obtain ⟨st2,hrun2,hst2,k2,hk2⟩ := hskip.of_some hst1
            (show _ = some ((),after) by simp [htrailer])
          rw [Run.bind_of_ok hrun2]
          refine ⟨rfl,?_,after,hst2,(trailerEnd_suffix htrailer).trans hsuffix,?_⟩
          · change st2.1.decodedLength = _
            rw [hk2, hk]
          · rw [hexp, htrailer]
      | succ n =>
        rw [if_neg n.succ_ne_zero]
        have hdata := readChunkData_progress h hst1 hcapacity
          (by rw [hk]; exact hdone) (by rw [hk]; exact hchunked) (by rw [hk]; exact n.succ_ne_zero)
        refine hdata.of_earlier hsuffix ?_ (by rw [hk])
        rw [hexp]
        simp [expected, hk, hdone, hchunked]
  · rw [if_neg hzero]
    exact readChunkData_progress h hst hcapacity hdone hchunked hzero

theorem ippHttpRequestRead_progress (h : Delivers read R) {st : Request × σ} {stream : Bytes}
    {capacity : ℕ} (hst : Holds R st stream) (hcapacity : 0 < capacity) :
    Progress R st stream (ippHttpRequestRead read capacity st) := by
  rw [ippHttpRequestRead, Run.bind_of_ok (get_apply st)]
  cases hdone : st.1.done with
  | true => exact ⟨hdone,rfl,stream,hst,List.suffix_rfl,by simp [expected, hdone]⟩
  | false =>
    simp only [Bool.false_eq_true, if_false, if_neg (by omega : ¬ capacity = 0)]
    cases hchunked : st.1.chunked with
    | false => exact readFixed_progress h hst hcapacity hdone hchunked
    | true => exact readChunked_progress h hst hcapacity hdone hchunked

/-! ### Many reads -/

/-- One read after another, up to the first that fails. -/
def reads (read : ReadFn σ) : List ℕ → Reading σ (List (Option Bytes))
  | [] => pure []
  | capacity :: capacities => do
    let result ← ippHttpRequestRead read capacity
    let results ← reads read capacities
    pure (result :: results)

/-- The octets that were returned. -/
def payload (results : List (Option Bytes)) : Bytes := results.flatMap fun result => result.getD []

theorem payload_cons (result : Option Bytes) (results : List (Option Bytes)) :
    payload (result :: results) = result.getD [] ++ payload results := rfl

/-- Behind the end of the body nothing happens any more. -/
theorem reads_done {capacities : List ℕ} {st st' : Request × σ} {results : List (Option Bytes)}
    (hdone : st.1.done = true) (hrun : reads read capacities st = (.ok results,st')) : st' = st := by
  induction capacities generalizing results with
  | nil =>
    cases hrun
    rfl
  | cons capacity capacities ih =>
    have hread : ippHttpRequestRead read capacity st = (.ok none,st) := by
      rw [ippHttpRequestRead, Run.bind_of_ok (get_apply st), if_pos hdone]
      rfl
    rw [reads, Run.bind_of_ok hread] at hrun
    obtain ⟨results',st2,hrun',hend⟩ := Run.bind_eq_ok hrun
    cases hend
    exact ih hrun'

theorem expected_done {r : Request} (h : r.done = true) (stream : Bytes) :
    expected r stream = ([],some stream) := by
  rw [expected, if_pos h]

/-- Reads that succeed, one after the other: what is left decodes to what is left of the payload. -/
theorem reads_ok (h : Delivers read R) {capacities : List ℕ} (hpos : ∀ c ∈ capacities, 0 < c)
    {st st' : Request × σ} {stream : Bytes} {results : List (Option Bytes)} (hst : Holds R st stream)
    (hrun : reads read capacities st = (.ok results,st')) :
    st'.1.decodedLength = st.1.decodedLength + (payload results).length ∧
    (st.1.decodedLength ≤ sizeMax → st'.1.decodedLength ≤ sizeMax) ∧
    ∃ rest, Holds R st' rest ∧ rest <:+ stream ∧
      expected st.1 stream =
        (payload results ++ (expected st'.1 rest).1,(expected st'.1 rest).2) ∧
      (none ∈ results → st'.1.done = true) := by
  induction capacities generalizing st stream results with
  | nil =>
    cases hrun
    exact ⟨rfl,id,stream,hst,List.suffix_rfl,rfl,nofun⟩
  | cons capacity capacities ih =>
    obtain ⟨result,st1,hread,hmore⟩ := Run.bind_eq_ok hrun
    obtain ⟨results',st2,hrun',hend⟩ := Run.bind_eq_ok hmore
    cases hend
    have hstep := ippHttpRequestRead_progress h hst (hpos capacity (.head _))
    rw [hread] at hstep
    have hrest : ∀ c ∈ capacities, 0 < c := fun c hc => hpos c (.tail _ hc)
    cases result with
    | none =>
      obtain ⟨hdone,hlen,stream1,hst1,hsuf,hexp⟩ := hstep
      obtain ⟨hlen',hmax',rest,hst',hsuf',hexp',-⟩ := ih hrest hst1 hrun'
      have hsame := reads_done hdone hrun'
      rw [expected_done hdone] at hexp'
      refine ⟨?_,fun hle => hmax' (by omega),rest,hst',hsuf'.trans hsuf,?_,fun _ => ?_⟩
      · rw [hlen', hlen]
        rfl
      · rw [hexp, hexp']
        rfl
      · rw [hsame]
        exact hdone
    | some d =>
      obtain ⟨hne,hlen,hmax,stream1,hst1,hsuf,hexp⟩ := hstep
      obtain ⟨hlen',hmax',rest,hst',hsuf',hexp',hnone⟩ := ih hrest hst1 hrun'
      refine ⟨?_,fun _ => hmax' hmax,rest,hst',hsuf'.trans hsuf,?_,fun hmem => ?_⟩
      · rw [hlen', hlen, payload_cons, List.length_append, Nat.add_assoc]
        rfl
      · rw [hexp, hexp', payload_cons, List.append_assoc]
        rfl
      · exact hnone (by simpa using hmem)

/-- A request whose body has not been touched. -/
structure Unread (r : Request) : Prop where
  chunkRemaining : r.chunkRemaining = 0
  decodedLength : r.decodedLength = 0
  chunkCrlfPending : r.chunkCrlfPending = false
  done : r.done = false
  fixedRemaining : r.fixedRemaining = r.contentLength

theorem Unread.expected {r : Request} (h : Unread r) (stream : Bytes) :
    expected r stream = decoding r stream := by
  unfold Http.expected decoding
  rw [h.done, h.chunkRemaining, h.chunkCrlfPending, h.fixedRemaining]
  cases r.chunked <;> simp

/-- An opened request has its whole body before it. -/
theorem opened_unread (h : Delivers read R) {s₀ s : σ} {stream₀ : Bytes} (hs : R s₀ stream₀)
    {memory : Bool} {r : Request} (hopen : ippHttpRequestOpen read memory s₀ = (.ok r,s)) :
    Unread r ∧ ∃ stream, Holds R (r,s) stream ∧ stream <:+ stream₀ := by
  cases memory with
  | false => cases hopen
  | true =>
    have hspec := ippHttpRequestOpen_opened h hs
    rw [hopen] at hspec
    obtain ⟨headerEnd,r0,body,rest,hhead,rfl,hrest,hsplit⟩ := hspec
    obtain ⟨-,-,-,h1,h2,h3,h4,h5⟩ := head_ok hhead
    refine ⟨⟨h1,h2,h3,h4,h5⟩,body ++ rest,⟨rest,hrest,?_⟩,?_⟩
    · rw [buffered_extend hhead]
    · rw [hsplit]
      exact List.suffix_append _ _

/-- The octets that reads of an untouched body return are the beginning of what the stream decodes
to. A further read finds the end of the body just when that is all and the body is complete; it
fails only where the body is incomplete or too long to be counted. -/
theorem reads_decode (h : Delivers read R) {r : Request} (hr : Unread r) {s : σ} {stream : Bytes}
    (hst : Holds R (r,s) stream) {capacities : List ℕ} (hpos : ∀ c ∈ capacities, 0 < c)
    {results : List (Option Bytes)} {st : Request × σ}
    (hrun : reads read capacities (r,s) = (.ok results,st)) :
    payload results <+: (decoding r stream).1 ∧
    st.1.decodedLength = (payload results).length ∧
    (∃ rest, Holds R st rest ∧ rest <:+ stream ∧
      (∀ after, (decoding r stream).2 = some after → after <:+ rest) ∧
      (none ∈ results → decoding r stream = (payload results,some rest))) ∧
    ∀ capacity, 0 < capacity →
      ((∃ st', ippHttpRequestRead read capacity st = (.ok none,st')) ↔
        ∃ after, decoding r stream = (payload results,some after)) ∧
      ((decoding r stream).2.isSome → (decoding r stream).1.length ≤ sizeMax →
        ∃ result st', ippHttpRequestRead read capacity st = (.ok result,st')) := by
  obtain ⟨hlen,hmax,rest,hrest,hsuf,hexp,hnone⟩ := reads_ok h hpos hst hrun
  have hmax := hmax (by rw [hr.decodedLength]; exact Nat.zero_le _)
  rw [hr.expected stream] at hexp
  rw [hr.decodedLength, Nat.zero_add] at hlen
  refine ⟨?_,hlen,⟨rest,hrest,hsuf,fun after hafter => ?_,fun hmem => ?_⟩,fun capacity hc => ?_⟩
  · rw [hexp]
    exact List.prefix_append _ _
  · rw [hexp] at hafter
    exact expected_suffix hafter
  · rw [hexp, expected_done (hnone hmem), List.append_nil]
  · have hstep := ippHttpRequestRead_progress h hrest hc
    cases hread : ippHttpRequestRead read capacity st with
    | mk o st' =>
      rw [hread] at hstep
      cases o with
      | unfinished => exact hstep.elim
      | error e =>
        refine ⟨⟨fun ⟨_,heq⟩ => ?_,fun ⟨after,hall⟩ => ?_⟩,fun hcomplete hsize => ?_⟩
        · cases heq
        · exfalso
          rw [hall, Prod.mk.injEq] at hexp
          rcases hstep with hinc | hlong
          · rw [hinc] at hexp
            cases hexp.2
          · rw [List.self_eq_append_right.mp hexp.1, List.length_nil] at hlong
            omega
        · exfalso
          rw [hexp] at hcomplete hsize
          rcases hstep with hinc | hlong
          · rw [hinc] at hcomplete
            cases hcomplete
          · rw [List.length_append] at hsize
            omega
      | ok result =>
        cases result with
        | none =>
          obtain ⟨-,-,stream',-,-,hend⟩ := hstep
          refine ⟨⟨fun _ => ⟨stream',?_⟩,fun _ => ⟨st',rfl⟩⟩,fun _ _ => ⟨none,st',rfl⟩⟩
          rw [hexp, hend, List.append_nil]
        | some d =>
          obtain ⟨hne,-,-,stream',-,-,hmore⟩ := hstep
          refine ⟨⟨fun ⟨_,heq⟩ => ?_,fun ⟨after,hall⟩ => ?_⟩,fun _ _ => ⟨some d,st',rfl⟩⟩
          · cases heq
          · exfalso
            rw [hall, hmore, Prod.mk.injEq] at hexp
            exact hne (List.append_eq_nil_iff.mp (List.self_eq_append_right.mp hexp.1)).1

end

/-- A request with a chunked body. -/
def chunkedRequest (body : Bytes) : Bytes :=
  octets "POST /ipp/print HTTP/1.1\r\nTransfer-Encoding: chunked\r\n\r\n" ++ body

/-- A trailer of 256 octets. -/
def longTrailer : Bytes := octets "a:" ++ List.replicate 254 0x78

end Espresso.Http
