import Espresso.Http.Head

/-! Opening a request does not depend on how the stream is cut into pieces: the blank line is found
wherever the pieces meet, and the tokens are cut out of the head alone. -/
namespace Espresso.Http
open Callback

/-! ### The head is read and written, what lies behind it is not -/

/-- The buffer holds a terminator at `last`. -/
def Ends (buffer : Bytes) (last : ℕ) : Prop := buffer[last]? = some 0

section
variable {buffer : Bytes} {last pos : ℕ}

theorem Ends.lt (h : Ends buffer last) : last < buffer.length :=
  (List.getElem?_eq_some_iff.mp h).1

theorem Ends.set (h : Ends buffer last) (i : ℕ) : Ends (buffer.set i 0) last := by
  have hlt := h.lt
  unfold Ends at h ⊢
  rw [List.getElem?_set]
  split
  · split
    · rfl
    · omega
  · exact h

theorem Ends.drop (h : Ends buffer last) (hpos : pos ≤ last) :
    (buffer.drop pos)[last - pos]? = some 0 := by
  rw [List.getElem?_drop, Nat.add_sub_cancel' hpos]
  exact h

/-- Strings in front of the terminator end there at the latest. -/
theorem Ends.length (h : Ends buffer last) (hpos : pos ≤ last) :
    pos + (stringAt buffer pos).length ≤ last := by
  have hle := cstr_length_le_of_zero (h.drop hpos)
  rw [stringAt]
  omega

theorem Ends.stringAt (h : Ends buffer last) (hpos : pos ≤ last) (body : Bytes) :
    stringAt (buffer ++ body) pos = stringAt buffer pos := by
  have hlt := h.lt
  rw [Http.stringAt, List.drop_append_of_le_length (by omega)]
  exact cstr_append_of_mem (List.mem_of_getElem? (h.drop hpos)) body

theorem Ends.strstr (h : Ends buffer last) (hpos : pos ≤ last) (needle body : Bytes) :
    strstr (buffer ++ body) pos needle = strstr buffer pos needle := by
  rw [Http.strstr, h.stringAt hpos, Http.strstr]

/-- What is found lies in front of the terminator. -/
theorem Ends.strstr_le (h : Ends buffer last) (hpos : pos ≤ last) {needle : Bytes} {i : ℕ}
    (hfind : Http.strstr buffer pos needle = some i) : pos ≤ i ∧ i + needle.length ≤ last := by
  obtain ⟨hge,hle⟩ := Http.strstr_le hfind
  have hlen := h.length hpos
  exact ⟨hge,by omega⟩

theorem set_append {i : ℕ} (hi : i < buffer.length) (body : Bytes) :
    (buffer ++ body).set i 0 = buffer.set i 0 ++ body := List.set_append_left i 0 hi

theorem trimBack_append {value stop : ℕ} (hstop : stop ≤ buffer.length) (body : Bytes) :
    trimBack (buffer ++ body) value stop = trimBack buffer value stop ++ body := by
  induction stop generalizing buffer with
  | zero => rfl
  | succ stop ih =>
    have hget : (buffer ++ body).getD stop 0 = buffer.getD stop 0 := by
      rw [List.getD_append _ _ _ _ (by omega)]
    rw [trimBack, trimBack, hget]
    split
    · rw [set_append (by omega), ih (by rw [List.length_set]; omega)]
    · rfl

theorem Ends.trimBack (h : Ends buffer last) (value stop : ℕ) :
    Ends (trimBack buffer value stop) last := by
  induction stop generalizing buffer with
  | zero => exact h
  | succ stop ih =>
    rw [Http.trimBack]
    split
    · exact ih (h.set stop)
    · exact h

theorem Ends.trim (h : Ends buffer last) (pos : ℕ) : Ends (trim buffer pos).2 last := by
  rw [Http.trim]
  exact h.trimBack _ _

theorem Ends.trim_fst_le (h : Ends buffer last) (hpos : pos ≤ last) : (Http.trim buffer pos).1 ≤ last := by
  have hlen := h.length hpos
  have hblank := (List.takeWhile_sublist isspace (l := Http.stringAt buffer pos)).length_le
  change pos + _ ≤ last
  omega

theorem Ends.trim_append (h : Ends buffer last) (hpos : pos ≤ last) (body : Bytes) :
    Http.trim (buffer ++ body) pos = ((Http.trim buffer pos).1,(Http.trim buffer pos).2 ++ body) := by
  have hvalue := h.trim_fst_le hpos
  have hlt := h.lt
  simp only [Http.trim] at hvalue ⊢
  rw [h.stringAt hpos, h.stringAt hvalue, trimBack_append]
  have hlen := h.length hvalue
  omega

end

theorem splitHeader_append {buffer : Bytes} {last line : ℕ} (h : Ends buffer last)
    (hline : line ≤ last) (body : Bytes) : splitHeader (buffer ++ body) line =
      (splitHeader buffer line).map fun x => (x.1,x.2.1,x.2.2 ++ body) := by
  have hlt := h.lt
  rw [splitHeader, splitHeader, strchr, strchr, h.strstr hline, Option.map_map]
  apply Option.map_congr
  intro colon hcolon
  obtain ⟨-,hle⟩ := h.strstr_le hline hcolon
  simp only [List.length_singleton] at hle
  simp only [Function.comp]
  have hset := h.set colon
  have htrim := hset.trim line
  rw [set_append (by omega), hset.trim_append hline, htrim.trim_append hle]

theorem splitHeader_ends {buffer buffer' : Bytes} {last line name value : ℕ} (h : Ends buffer last)
    (hline : line ≤ last) (hsplit : splitHeader buffer line = some (name,value,buffer')) :
    name ≤ last ∧ value ≤ last ∧ Ends buffer' last := by
  obtain ⟨colon,hcolon,heq⟩ := Option.map_eq_some_iff.mp hsplit
  simp only [Prod.mk.injEq] at heq
  obtain ⟨rfl,rfl,rfl⟩ := heq
  obtain ⟨-,hle⟩ := h.strstr_le hline hcolon
  simp only [List.length_singleton] at hle
  have hset := h.set colon
  have htrim := hset.trim line
  exact ⟨hset.trim_fst_le hline,htrim.trim_fst_le hle,htrim.trim (colon + 1)⟩

theorem cutAt_append {buffer : Bytes} {stop : Option ℕ} (hstop : ∀ i ∈ stop, i < buffer.length)
    (body : Bytes) : cutAt (buffer ++ body) stop = cutAt buffer stop ++ body := by
  cases stop with
  | none => rfl
  | some i => exact set_append (hstop i rfl) body

theorem Ends.cutAt {buffer : Bytes} {last : ℕ} (h : Ends buffer last) (stop : Option ℕ) :
    Ends (cutAt buffer stop) last := by
  cases stop with
  | none => exact h
  | some i => exact h.set i

/-! ### Requests with more in the buffer -/

def Request.extend (r : Request) (body : Bytes) : Request := { r with buffer := r.buffer ++ body }

theorem applyHeader_extend (r : Request) (seen : Seen) (name value body : Bytes) :
    applyHeader (r.extend body) seen name value =
      (applyHeader r seen name value).map fun x => (x.1.extend body,x.2) := by
  unfold applyHeader
  repeat' first
    | rfl
    | split

theorem headerLine_extend {r : Request} {last line : ℕ} (h : Ends r.buffer last)
    (hline : line ≤ last) (seen : Seen) (body : Bytes) : headerLine (r.extend body) seen line =
      (headerLine r seen line).map fun x => (x.1.extend body,x.2) := by
  have hlt := h.lt
  have hcut : cutAt (r.buffer ++ body) (strstr r.buffer line crlf) =
      cutAt r.buffer (strstr r.buffer line crlf) ++ body := by
    apply cutAt_append
    intro i hi
    have := h.strstr_le hline hi
    omega
  simp only [headerLine, Request.extend]
  rw [h.strstr hline, hcut, splitHeader_append (h.cutAt _) hline]
  cases hsplit : splitHeader (cutAt r.buffer (strstr r.buffer line crlf)) line with
  | none => rfl
  | some x =>
    obtain ⟨name,value,buffer⟩ := x
    obtain ⟨hname,hvalue,hends⟩ := splitHeader_ends (h.cutAt _) hline hsplit
    simp only [Option.map_some]
    rw [hends.stringAt hname, hends.stringAt hvalue]
    have happly := applyHeader_extend { r with buffer := buffer } seen (stringAt buffer name)
      (stringAt buffer value) body
    simp only [Request.extend] at happly
    rw [happly]
    cases applyHeader { r with buffer := buffer } seen (stringAt buffer name)
      (stringAt buffer value) with
    | error e => rfl
    | ok x => rfl

theorem headerLine_ends {r r' : Request} {last line : ℕ} {seen seen' : Seen} {next : Option ℕ}
    (h : Ends r.buffer last) (hline : line ≤ last)
    (hok : headerLine r seen line = .ok (r',seen',next)) :
    Ends r'.buffer last ∧ ∀ i ∈ next, i ≤ last := by
  obtain ⟨name,value,buffer,hsplit,happly,rfl⟩ := headerLine_ok hok
  obtain ⟨-,-,hends⟩ := splitHeader_ends (h.cutAt _) hline hsplit
  refine ⟨?_,fun i hi => ?_⟩
  · rw [applyHeader_buffer happly]
    exact hends
  · obtain ⟨stop,hstop,rfl⟩ := Option.map_eq_some_iff.mp hi
    exact (h.strstr_le hline hstop).2

theorem headerLines_extend {r : Request} {last line : ℕ} (h : Ends r.buffer last)
    (hline : line ≤ last) (seen : Seen) (body : Bytes) : headerLines (r.extend body) seen line =
      (headerLines r seen line).map fun x => (x.1.extend body,x.2) := by
  have hstring {r : Request} {line : ℕ} (h : Ends r.buffer last) (hline : line ≤ last) :
      stringAt (r.extend body).buffer line = stringAt r.buffer line := h.stringAt hline body
  fun_induction headerLines r seen line with
  | case1 r seen line hnil =>
    rw [headerLines_eq, hstring h hline, if_pos hnil]
    rfl
  | case2 r seen line hnil e he =>
    rw [headerLines_eq, hstring h hline, if_neg hnil, headerLine_extend h hline, he]
    rfl
  | case3 r seen line hnil r' seen' he =>
    rw [headerLines_eq, hstring h hline, if_neg hnil, headerLine_extend h hline, he]
    rfl
  | case4 r seen line hnil r' seen' next he ih =>
    obtain ⟨hends,hnext⟩ := headerLine_ends h hline he
    rw [headerLines_eq, hstring h hline, if_neg hnil, headerLine_extend h hline, he]
    exact ih hends (hnext next rfl)

theorem requestLine_extend {r : Request} {last : ℕ} (h : Ends r.buffer last) (body : Bytes) :
    requestLine (r.extend body) = (requestLine r).map (·.extend body) := by
  have hlt := h.lt
  have hfind {pos : ℕ} (hpos : pos ≤ last) (c : UInt8) :
      strchr (r.buffer ++ body) pos c = strchr r.buffer pos c := h.strstr hpos _ body
  simp only [requestLine, Request.extend]
  rw [hfind (Nat.zero_le _)]
  cases hfirst : strchr r.buffer 0 0x20 with
  | none => rfl
  | some first =>
    obtain ⟨-,hle1⟩ := h.strstr_le (Nat.zero_le _) hfirst
    simp only [List.length_singleton] at hle1 ⊢
    rw [hfind hle1]
    cases hsecond : strchr r.buffer (first + 1) 0x20 with
    | none => rfl
    | some second =>
      obtain ⟨-,hle2⟩ := h.strstr_le hle1 hsecond
      simp only [List.length_singleton] at hle2 ⊢
      simp only [hfind hle2, h.stringAt hle2]
      have hset : ((r.buffer ++ body).set first 0).set second 0 =
          (r.buffer.set first 0).set second 0 ++ body := by
        rw [set_append (by omega), set_append (by rw [List.length_set]; omega)]
      have hends := (h.set first).set second
      simp only [hset, hends.stringAt (Nat.zero_le _), hends.stringAt hle1]
      split
      · rfl
      · split <;> rfl

/-! ### What parsing leaves alone -/

/-- The buffer is as long as before, and the state of the body decoder is the same. -/
structure Untouched (r r' : Request) : Prop where
  length : r'.buffer.length = r.buffer.length
  bufferOffset : r'.bufferOffset = r.bufferOffset
  chunkRemaining : r'.chunkRemaining = r.chunkRemaining
  decodedLength : r'.decodedLength = r.decodedLength
  chunkCrlfPending : r'.chunkCrlfPending = r.chunkCrlfPending
  done : r'.done = r.done

theorem Untouched.trans {r r' r'' : Request} (h : Untouched r r') (h' : Untouched r' r'') :
    Untouched r r'' :=
  ⟨h'.length.trans h.length,h'.bufferOffset.trans h.bufferOffset,
    h'.chunkRemaining.trans h.chunkRemaining,h'.decodedLength.trans h.decodedLength,
    h'.chunkCrlfPending.trans h.chunkCrlfPending,h'.done.trans h.done⟩

theorem Untouched.buffer {r : Request} {buffer : Bytes} (h : buffer.length = r.buffer.length) :
    Untouched r { r with buffer := buffer } := ⟨h,rfl,rfl,rfl,rfl,rfl⟩

theorem applyHeader_untouched {r r' : Request} {seen seen' : Seen} {name value : Bytes}
    (h : applyHeader r seen name value = .ok (r',seen')) : Untouched r r' := by
  unfold applyHeader at h
  repeat' split at h
  all_goals
    cases h
    try exact ⟨rfl,rfl,rfl,rfl,rfl,rfl⟩

theorem headerLine_untouched {r r' : Request} {seen seen' : Seen} {line : ℕ} {next : Option ℕ}
    (h : headerLine r seen line = .ok (r',seen',next)) : Untouched r r' := by
  obtain ⟨name,value,buffer,hsplit,happly,-⟩ := headerLine_ok h
  have hlen : buffer.length = r.buffer.length := by
    rw [splitHeader_length hsplit, cutAt_length]
  exact (Untouched.buffer hlen).trans (applyHeader_untouched happly)

theorem headerLines_untouched {r r' : Request} {seen seen' : Seen} {line : ℕ}
    (h : headerLines r seen line = .ok (r',seen')) : Untouched r r' := by
  fun_induction headerLines r seen line with
  | case1 r seen line =>
    cases h
    exact ⟨rfl,rfl,rfl,rfl,rfl,rfl⟩
  | case2 => cases h
  | case3 r seen line _ r1 seen1 he =>
    cases h
    exact headerLine_untouched he
  | case4 r seen line _ r1 seen1 next he ih => exact (headerLine_untouched he).trans (ih h)

/-- A request line that is accepted has been cut at its blanks. -/
theorem requestLine_cuts {r r' : Request} (h : requestLine r = .ok r') :
    ∃ first second, strchr r.buffer 0 0x20 = some first ∧
      strchr r.buffer (first + 1) 0x20 = some second ∧
      ∃ method path, r' = { r with
        buffer := (r.buffer.set first 0).set second 0, method := method, path := path } := by
  unfold requestLine at h
  split at h
  · cases h
  · rename_i first hfirst
    split at h
    · cases h
    · rename_i second hsecond
      split at h
      · cases h
      · simp only at h
        split at h
        · rename_i method path _ _
          cases h
          exact ⟨first,second,hfirst,hsecond,method,path,rfl⟩
        · cases h

theorem requestLine_ok {r r' : Request} (h : requestLine r = .ok r') :
    ∃ first second method path,
      r' = { r with
        buffer := (r.buffer.set first 0).set second 0, method := method, path := path } := by
  obtain ⟨first,second,-,-,method,path,hr⟩ := requestLine_cuts h
  exact ⟨first,second,method,path,hr⟩

/-- The head is parsed as if nothing followed it. -/
theorem parseHeaders_extend {r : Request} {headerEnd : ℕ} (hlen : r.buffer.length = headerEnd)
    (hend : 2 ≤ headerEnd) (body : Bytes) :
    parseHeaders (r.extend body) headerEnd = (parseHeaders r headerEnd).map (·.extend body) := by
  have hends : Ends (r.buffer.set (headerEnd - 2) 0) (headerEnd - 2) := by
    unfold Ends
    rw [List.getElem?_set_self (by omega)]
  have hlt := hends.lt
  simp only [parseHeaders, Request.extend]
  rw [set_append (by omega), hends.strstr (Nat.zero_le _)]
  cases hline : strstr (r.buffer.set (headerEnd - 2) 0) 0 crlf with
  | none => rfl
  | some lineEnd =>
    obtain ⟨-,hle⟩ := hends.strstr_le (Nat.zero_le _) hline
    have hle : lineEnd + 2 ≤ headerEnd - 2 := hle
    have hfirst := requestLine_extend
      (r := { r with buffer := (r.buffer.set (headerEnd - 2) 0).set lineEnd 0 })
      (hends.set lineEnd) body
    simp only [Request.extend] at hfirst
    simp only
    rw [set_append (by omega), hfirst]
    cases hreq : requestLine
        { r with buffer := (r.buffer.set (headerEnd - 2) 0).set lineEnd 0 } with
    | error e => rfl
    | ok r1 =>
      obtain ⟨first,second,method,path,hr1⟩ := requestLine_ok hreq
      have hends1 : Ends r1.buffer (headerEnd - 2) := by
        rw [hr1]
        exact ((hends.set lineEnd).set first).set second
      have hlines := headerLines_extend hends1 hle ⟨false,false,false⟩ body
      simp only [Request.extend] at hlines
      simp only [Except.map]
      rw [hlines]
      cases headerLines r1 ⟨false,false,false⟩ (lineEnd + 2) with
      | error e => rfl
      | ok x =>
        simp only [Except.map]
        split <;> rfl

theorem parseHeaders_ok {r r' : Request} {headerEnd : ℕ} (h : parseHeaders r headerEnd = .ok r') :
    Untouched r r' ∧ r'.fixedRemaining = r'.contentLength := by
  unfold parseHeaders at h
  extract_lets r1 at h
  split at h
  · cases h
  · rename_i lineEnd _
    split at h
    · cases h
    · rename_i r2 hreq
      obtain ⟨first,second,method,path,hr2⟩ := requestLine_ok hreq
      have h2 : Untouched r r2 := by
        rw [hr2]
        exact ⟨by simp [r1],rfl,rfl,rfl,rfl,rfl⟩
      split at h
      · cases h
      · rename_i r3 seen hlines
        split at h
        · cases h
        · cases h
          have h3 := h2.trans (headerLines_untouched hlines)
          exact ⟨⟨h3.length,h3.bufferOffset,h3.chunkRemaining,h3.decodedLength,
            h3.chunkCrlfPending,h3.done⟩,rfl⟩

/-! ### The blank line -/

/-- Where the head of a stream ends, or why it does not. -/
def scan (stream : Bytes) : Except HttpError ℕ :=
  match occurrence (crlf ++ crlf) stream with
  | some i => if i + 4 ≤ httpBufferSize then .ok (i + 4) else .error .tooLarge
  | none => .error (if stream.length < httpBufferSize then .ioError else .tooLarge)

theorem scan_ok {stream : Bytes} {headerEnd : ℕ} (h : scan stream = .ok headerEnd) :
    ∃ i, occurrence (crlf ++ crlf) stream = some i ∧ headerEnd = i + 4 ∧
      i + 4 ≤ httpBufferSize ∧ i + 4 ≤ stream.length := by
  unfold scan at h
  split at h
  · rename_i i hi
    split at h
    · rename_i hle
      cases h
      exact ⟨i,hi,rfl,hle,occurrence_add_le hi⟩
    · cases h
  · cases h

section
variable {σ : Type} {read : ReadFn σ} {R : σ → Bytes → Prop}

/-- What the filling loop has done to a stream. -/
def Filled (R : σ → Bytes → Prop) (stream : Bytes) : Outcome HttpError (Bytes × ℕ) × σ → Prop
  | (.ok (buffer,headerEnd),s) => scan stream = .ok headerEnd ∧ headerEnd ≤ buffer.length ∧
      ∃ rest, R s rest ∧ stream = buffer ++ rest
  | (.error e,_) => scan stream = .error e
  | (.unfinished,_) => False

/-- A full buffer without a blank line. -/
theorem scan_full {buffer : Bytes} (hno : occurrence (crlf ++ crlf) buffer = none)
    (hfull : httpBufferSize ≤ buffer.length) (rest : Bytes) :
    scan (buffer ++ rest) = .error .tooLarge := by
  unfold scan
  split
  · rename_i i hi
    apply if_neg
    intro hle
    obtain ⟨-,hpre,-⟩ := occurrence_eq_some_iff.mp hi
    have hfit : i + (crlf ++ crlf).length ≤ buffer.length := by
      change i + 4 ≤ _
      omega
    rw [prefix_drop_append hfit] at hpre
    exact occurrence_eq_none_iff.mp hno i (by omega) hpre
  · rw [if_neg (by rw [List.length_append]; omega)]

/-- The search goes on three octets before the end of what has been searched. -/
theorem occurrence_next {buffer : Bytes} {searchStart : ℕ}
    (hno : occurrence (crlf ++ crlf) buffer = none)
    (hstart : buffer.length < 3 → searchStart = 0) (d : Bytes) :
    occurrence (crlf ++ crlf) (buffer ++ d) =
      (occurrence (crlf ++ crlf)
        ((buffer ++ d).drop (if 3 ≤ buffer.length then buffer.length - 3 else searchStart))).map
          (· + if 3 ≤ buffer.length then buffer.length - 3 else searchStart) := by
  apply occurrence_resume hno
  · split <;> omega
  · simp only [crlf, List.length_append, List.length_cons, List.length_nil]
    split <;> omega

theorem fill_filled (h : Delivers read R) (buffer : Bytes) (searchStart : ℕ) (s : σ) {b : Bytes}
    (hs : R s b) (hno : occurrence (crlf ++ crlf) buffer = none)
    (hstart : buffer.length < 3 → searchStart = 0) :
    Filled R (buffer ++ b) (fill read buffer searchStart s) := by
  fun_induction fill read buffer searchStart s generalizing b with
  | case1 buffer _ s hfull => exact scan_full hno hfull b
  | case2 buffer _ s hfull s' hread =>
    obtain ⟨d,b',s2,heq,-⟩ := h s b (httpBufferSize - buffer.length) hs (by omega)
    cases hread.symm.trans heq
  | case3 buffer _ s hfull d s' hread hbad =>
    obtain ⟨d2,b',s2,heq,hb,hs2,hle,hnil⟩ := h s b (httpBufferSize - buffer.length) hs (by omega)
    cases hread.symm.trans heq
    rcases hbad with rfl | hlong
    · have hb := hnil rfl
      subst hb
      rw [List.append_nil]
      change scan buffer = _
      rw [scan, hno, if_pos (by omega)]
    · omega
  | case4 buffer start s hfull d s' hread hgood searchStart next i =>
    rename_i hfind
    obtain ⟨d2,b',s2,heq,rfl,hs2,hle,-⟩ := h s b (httpBufferSize - buffer.length) hs (by omega)
    cases hread.symm.trans heq
    have hocc : occurrence (crlf ++ crlf) next = some (i + searchStart) :=
      (occurrence_next hno hstart d).trans (congrArg (Option.map _) hfind)
    have hfit : i + searchStart + 4 ≤ next.length := occurrence_add_le hocc
    refine ⟨?_,hfit,b',hs2,(List.append_assoc _ _ _).symm⟩
    rw [← List.append_assoc, scan, occurrence_append hocc b']
    have hlen : next.length = buffer.length + d.length := List.length_append
    simp only
    rw [if_pos (by omega)]
  | case5 buffer start s hfull d s' hread hgood searchStart next hfind =>
    rename_i ih
    obtain ⟨d2,b',s2,heq,rfl,hs2,hle,-⟩ := h s b (httpBufferSize - buffer.length) hs (by omega)
    cases hread.symm.trans heq
    have hocc : occurrence (crlf ++ crlf) next = none :=
      (occurrence_next hno hstart d).trans (congrArg (Option.map _) hfind)
    rw [← List.append_assoc]
    refine ih hs2 hocc fun hshort => ?_
    rw [dif_neg (by omega)]

/-- The head of a stream on its own: where it ends, and the request it makes. -/
def head (stream : Bytes) : Except HttpError (ℕ × Request) :=
  match scan stream with
  | .error e => .error e
  | .ok headerEnd =>
    if 0 ∈ stream.take headerEnd then .error .malformed
    else match parseHeaders
        { Request.zero with buffer := stream.take headerEnd, bufferOffset := headerEnd }
        headerEnd with
      | .error e => .error e
      | .ok r => .ok (headerEnd,r)

/-- What opening a request does to a stream: the request is that of the head on its own, with a part
of the body in its buffer. -/
def Opened (R : σ → Bytes → Prop) (stream : Bytes) : Outcome HttpError Request × σ → Prop
  | (.ok r,s) => ∃ headerEnd r0 body rest, head stream = .ok (headerEnd,r0) ∧
      r = r0.extend body ∧ R s rest ∧ stream = stream.take headerEnd ++ (body ++ rest)
  | (.error e,_) => head stream = .error e
  | (.unfinished,_) => False

theorem ippHttpRequestOpen_opened (h : Delivers read R) {s : σ} {stream : Bytes}
    (hs : R s stream) : Opened R stream (ippHttpRequestOpen read true s) := by
  have hfill := fill_filled h [] 0 s hs rfl fun _ => rfl
  rw [List.nil_append] at hfill
  simp only [ippHttpRequestOpen, Bool.true_eq_false, if_false]
  rw [Run.bind_apply]
  cases hres : fill read [] 0 s with
  | mk o s' =>
    rw [hres] at hfill
    cases o with
    | unfinished => exact hfill
    | error e =>
      change head stream = .error e
      rw [head, show scan stream = .error e from hfill]
    | ok x =>
      obtain ⟨buffer,headerEnd⟩ := x
      obtain ⟨hscan,hle,rest,hrest,hstream⟩ := hfill
      obtain ⟨i,-,hend,-,-⟩ := scan_ok hscan
      have htake : buffer.take headerEnd = stream.take headerEnd := by
        rw [hstream, List.take_append_of_le_length hle]
      have hsplit : stream = stream.take headerEnd ++ (buffer.drop headerEnd ++ rest) := by
        rw [← htake, ← List.append_assoc, List.take_append_drop, hstream]
      have hparse := parseHeaders_extend (r := { Request.zero with
          buffer := stream.take headerEnd, bufferOffset := headerEnd })
        (show _ = headerEnd by rw [← htake, List.length_take]; omega) (by omega) (buffer.drop headerEnd)
      simp only [Request.extend] at hparse
      rw [← htake, List.take_append_drop] at hparse
      simp only
      by_cases hzero : 0 ∈ buffer.take headerEnd
      · rw [if_pos hzero]
        change head stream = .error .malformed
        rw [head, hscan]
        simp only
        rw [← htake, if_pos hzero]
      · rw [if_neg hzero, hparse]
        have hhead : head stream = match parseHeaders
            { Request.zero with buffer := buffer.take headerEnd, bufferOffset := headerEnd }
            headerEnd with
          | .error e => .error e
          | .ok r => .ok (headerEnd,r) := by
          rw [head, hscan]
          simp only
          rw [← htake, if_neg hzero]
        cases hr : parseHeaders { Request.zero with
            buffer := buffer.take headerEnd, bufferOffset := headerEnd } headerEnd with
        | error e =>
          rw [hr] at hhead
          exact hhead
        | ok r =>
          rw [hr] at hhead
          exact ⟨headerEnd,r,buffer.drop headerEnd,rest,hhead,rfl,hrest,hsplit⟩

/-- A request as it comes out of the parser. -/
theorem head_ok {stream : Bytes} {headerEnd : ℕ} {r : Request}
    (h : head stream = .ok (headerEnd,r)) : scan stream = .ok headerEnd ∧
      r.buffer.length = headerEnd ∧ r.bufferOffset = headerEnd ∧ r.chunkRemaining = 0 ∧
      r.decodedLength = 0 ∧ r.chunkCrlfPending = false ∧ r.done = false ∧
      r.fixedRemaining = r.contentLength := by
  unfold head at h
  split at h
  · cases h
  · rename_i stop hscan
    obtain ⟨i,-,hi,-,hfit⟩ := scan_ok hscan
    split at h
    · cases h
    · split at h
      · cases h
      · rename_i r' hparse
        cases h
        obtain ⟨hun,hfixed⟩ := parseHeaders_ok hparse
        refine ⟨hscan,hun.length.trans ?_,hun.bufferOffset,hun.chunkRemaining,hun.decodedLength,
          hun.chunkCrlfPending,hun.done,hfixed⟩
        rw [List.length_take]
        omega

theorem buffered_extend {stream : Bytes} {headerEnd : ℕ} {r : Request}
    (h : head stream = .ok (headerEnd,r)) (body : Bytes) : (r.extend body).buffered = body := by
  obtain ⟨-,hlen,hoff,-⟩ := head_ok h
  rw [Request.buffered]
  change (r.buffer ++ body).drop r.bufferOffset = body
  rw [hoff, ← hlen, List.drop_left]

end

/-! ### Two ways to cut a stream -/

/-- The same method, path, content type, framing and length. -/
structure SameHead (r₁ r₂ : Request) : Prop where
  method : r₁.method = r₂.method
  path : r₁.path = r₂.path
  contentType : r₁.contentType = r₂.contentType
  chunked : r₁.chunked = r₂.chunked
  expectsContinue : r₁.expectsContinue = r₂.expectsContinue
  contentLength : r₁.contentLength = r₂.contentLength

/-- Two openings of one stream came to the same end: the same error, or the same head and the same
body still to be read. -/
inductive SameOpening {σ₁ σ₂ : Type} (R₁ : σ₁ → Bytes → Prop) (R₂ : σ₂ → Bytes → Prop)
    (stream : Bytes) : Outcome HttpError Request × σ₁ → Outcome HttpError Request × σ₂ → Prop
  | failed (e : HttpError) (s₁ : σ₁) (s₂ : σ₂) :
    SameOpening R₁ R₂ stream (.error e,s₁) (.error e,s₂)
  | opened {r₁ r₂ : Request} {s₁ : σ₁} {s₂ : σ₂} {i : ℕ} {rest₁ rest₂ : Bytes}
    (hend : occurrence (crlf ++ crlf) stream = some i) (hfits : i + 4 ≤ httpBufferSize)
    (hhead : SameHead r₁ r₂) (hs₁ : R₁ s₁ rest₁) (hs₂ : R₂ s₂ rest₂)
    (hbody₁ : r₁.buffered ++ rest₁ = stream.drop (i + 4))
    (hbody₂ : r₂.buffered ++ rest₂ = stream.drop (i + 4)) :
    SameOpening R₁ R₂ stream (.ok r₁,s₁) (.ok r₂,s₂)

/-- However two readers cut a stream into pieces, a request is opened with the same result, and only
if the first blank line ends within the buffer. -/
theorem ippHttpRequestOpen_same {σ₁ σ₂ : Type} {read₁ : ReadFn σ₁} {read₂ : ReadFn σ₂}
    {R₁ : σ₁ → Bytes → Prop} {R₂ : σ₂ → Bytes → Prop} (h₁ : Delivers read₁ R₁)
    (h₂ : Delivers read₂ R₂) {s₁ : σ₁} {s₂ : σ₂} {stream : Bytes} (hs₁ : R₁ s₁ stream)
    (hs₂ : R₂ s₂ stream) (memory : Bool) :
    SameOpening R₁ R₂ stream (ippHttpRequestOpen read₁ memory s₁)
      (ippHttpRequestOpen read₂ memory s₂) := by
  cases memory with
  | false => exact .failed .noMemory s₁ s₂
  | true =>
    have ho₁ := ippHttpRequestOpen_opened h₁ hs₁
    have ho₂ := ippHttpRequestOpen_opened h₂ hs₂
    generalize ippHttpRequestOpen read₁ true s₁ = x₁ at ho₁ ⊢
    generalize ippHttpRequestOpen read₂ true s₂ = x₂ at ho₂ ⊢
    obtain ⟨o₁,s₁'⟩ := x₁
    obtain ⟨o₂,s₂'⟩ := x₂
    cases o₁ with
    | unfinished => exact False.elim ho₁
    | error e₁ =>
      cases o₂ with
      | unfinished => exact False.elim ho₂
      | error e₂ =>
        cases (Eq.symm ho₁).trans ho₂
        exact .failed e₁ s₁' s₂'
      | ok r₂ =>
        obtain ⟨_,_,_,_,hhead,-⟩ := ho₂
        cases hhead.symm.trans ho₁
    | ok r₁ =>
      obtain ⟨headerEnd,r0,body₁,rest₁,hhead₁,rfl,hr₁,hsplit₁⟩ := ho₁
      cases o₂ with
      | unfinished => exact False.elim ho₂
      | error e₂ => cases hhead₁.symm.trans ho₂
      | ok r₂ =>
        obtain ⟨_,_,body₂,rest₂,hhead₂,rfl,hr₂,hsplit₂⟩ := ho₂
        cases hhead₁.symm.trans hhead₂
        obtain ⟨i,hocc,rfl,hfits,-⟩ := scan_ok (head_ok hhead₁).1
        have hrest {body rest : Bytes} (hsplit : stream = stream.take (i + 4) ++ (body ++ rest)) :
            (r0.extend body).buffered ++ rest = stream.drop (i + 4) := by
          rw [buffered_extend hhead₁]
          have hboth := (List.take_append_drop (i + 4) stream).trans hsplit
          exact (List.append_cancel_left hboth).symm
        exact .opened hocc hfits ⟨rfl,rfl,rfl,rfl,rfl,rfl⟩ hr₁ hr₂ (hrest hsplit₁) (hrest hsplit₂)

/-- A small request, at once and octet by octet. -/
theorem ippHttpRequestOpen_same_octets :
    SameOpening Eq Eq (octets "POST /ipp/print HTTP/1.1\r\nContent-Length: 3\r\n\r\nabc")
      (ippHttpRequestOpen wholeRead true
        (octets "POST /ipp/print HTTP/1.1\r\nContent-Length: 3\r\n\r\nabc"))
      (ippHttpRequestOpen octetRead true
        (octets "POST /ipp/print HTTP/1.1\r\nContent-Length: 3\r\n\r\nabc")) :=
  ippHttpRequestOpen_same wholeRead_delivers octetRead_delivers rfl rfl true

end Espresso.Http
