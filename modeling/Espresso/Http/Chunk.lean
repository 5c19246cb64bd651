import Espresso.Http.Decoding

/-! `ipp_stream.c`: writing chunks. What the chunk writer sends is what the body decoder reads. -/
namespace Espresso.Http
open Callback

/-! ### The writer -/

def hexChar (digit : ℕ) : UInt8 := UInt8.ofNat (if digit < 10 then 0x30 + digit else 0x57 + digit)

/-- `%zx`. -/
def hexText (n : ℕ) : Bytes :=
  if n < 16 then [hexChar n] else hexText (n / 16) ++ [hexChar (n % 16)]
termination_by n

/-- `2 * sizeof(size_t) + 3`. -/
abbrev chunkHeaderSize : ℕ := 11

section
variable {τ : Type} (write : WriteFn τ)

def ippStreamWriteHttpChunk (t : τ) (data : Bytes) : Bool × τ :=
  let header := hexText data.length ++ crlf
  if chunkHeaderSize ≤ header.length then (false,t)
  else match writeAll write t header with
    | (false,t) => (false,t)
    | (true,t) =>
      match (if data = [] then (true,t) else writeAll write t data) with
      | (false,t) => (false,t)
      | (true,t) => writeAll write t crlf

/-- One chunk after the other. -/
def writeChunks (t : τ) : List Bytes → Bool × τ
  | [] => (true,t)
  | data :: chunks =>
    match ippStreamWriteHttpChunk write t data with
    | (false,t) => (false,t)
    | (true,t) => writeChunks t chunks

end

/-! ### Hexadecimal sizes -/

theorem hexDigit_hexChar {digit : ℕ} (h : digit < 16) :
    hexDigit (hexChar digit) = digit ∧ isxdigit (hexChar digit) = true := by
  interval_cases digit <;> decide

theorem hexText_xdigit (n : ℕ) : ∀ c ∈ hexText n, isxdigit c = true := by
  fun_induction hexText n with
  | case1 n h =>
    intro c hc
    rw [List.mem_singleton.mp hc]
    exact (hexDigit_hexChar h).2
  | case2 n h ih =>
    intro c hc
    rcases List.mem_append.mp hc with hc | hc
    · exact ih c hc
    · rw [List.mem_singleton.mp hc]
      exact (hexDigit_hexChar (by omega)).2

theorem hexText_ne_nil (n : ℕ) : hexText n ≠ [] := by
  rw [hexText]
  split
  · exact List.cons_ne_nil _ _
  · simp

theorem hexValue_hexText (n : ℕ) : hexValue (hexText n) = n := by
  fun_induction hexText n with
  | case1 n h => simp [hexValue, (hexDigit_hexChar h).1]
  | case2 n h ih =>
    rw [hexValue, List.foldl_append]
    change hexValue (hexText (n / 16)) * 16 + hexDigit (hexChar (n % 16)) = n
    rw [ih, (hexDigit_hexChar (by omega)).1]
    omega

theorem hexText_length {n k : ℕ} (h : n < 16 ^ (k + 1)) : (hexText n).length ≤ k + 1 := by
  induction k generalizing n with
  | zero =>
    rw [hexText, if_pos (by simpa using h)]
    exact le_refl 1
  | succ k ih =>
    rw [hexText]
    split
    · simp
    · have hdiv : n / 16 < 16 ^ (k + 1) := by
        rw [pow_succ] at h
        omega
      have hle := ih hdiv
      rw [List.length_append, List.length_singleton]
      omega

/-- Every size that fits a `size_t` fits the header buffer. -/
theorem hexText_short {n : ℕ} (h : n ≤ sizeMax) : (hexText n).length ≤ 8 := by
  apply hexText_length
  have : sizeMax < 16 ^ (7 + 1) := by decide
  omega

/-! ### Chunks -/

/-- A chunk on the wire. -/
def httpChunk (data : Bytes) : Bytes := hexText data.length ++ crlf ++ data ++ crlf

theorem ippStreamWriteHttpChunk_accepts {τ : Type} {write : WriteFn τ} {taken : τ → Bytes}
    (h : Accepts write taken) (t : τ) {data : Bytes} (hsize : data.length ≤ sizeMax) :
    ∃ t', ippStreamWriteHttpChunk write t data = (true,t') ∧
      taken t' = taken t ++ httpChunk data := by
  have hshort := hexText_short hsize
  obtain ⟨t1,hw1,htaken1⟩ := writeAll_accepts h t (hexText data.length ++ crlf)
  have hdata : ∃ t2, (if data = [] then (true,t1) else writeAll write t1 data) = (true,t2) ∧
      taken t2 = taken t1 ++ data := by
    by_cases hnil : data = []
    · exact ⟨t1,if_pos hnil,by rw [hnil, List.append_nil]⟩
    · rw [if_neg hnil]
      exact writeAll_accepts h t1 data
  obtain ⟨t2,hw2,htaken2⟩ := hdata
  obtain ⟨t3,hw3,htaken3⟩ := writeAll_accepts h t2 crlf
  refine ⟨t3,?_,?_⟩
  · simp only [ippStreamWriteHttpChunk]
    rw [if_neg, hw1]
    · simp only [hw2, hw3]
    · simp only [List.length_append, crlf, List.length_cons, List.length_nil, chunkHeaderSize]
      omega
  · rw [htaken3, htaken2, htaken1, httpChunk]
    simp only [List.append_assoc]

theorem writeChunks_accepts {τ : Type} {write : WriteFn τ} {taken : τ → Bytes}
    (h : Accepts write taken) (t : τ) {chunks : List Bytes}
    (hsize : ∀ data ∈ chunks, data.length ≤ sizeMax) :
    ∃ t', writeChunks write t chunks = (true,t') ∧
      taken t' = taken t ++ chunks.flatMap httpChunk := by
  induction chunks generalizing t with
  | nil => exact ⟨t,rfl,by simp⟩
  | cons data chunks ih =>
    obtain ⟨t1,hw1,htaken1⟩ := ippStreamWriteHttpChunk_accepts h t (hsize data (.head _))
    obtain ⟨t2,hw2,htaken2⟩ := ih t1 fun d hd => hsize d (.tail _ hd)
    refine ⟨t2,by simp only [writeChunks, hw1, hw2],?_⟩
    rw [htaken2, htaken1, List.flatMap_cons, List.append_assoc]

theorem hexText_long {n k : ℕ} (h : 16 ^ k ≤ n) : k + 1 ≤ (hexText n).length := by
  induction k generalizing n with
  | zero => exact List.length_pos_of_ne_nil (hexText_ne_nil n)
  | succ k ih =>
    have hn : ¬ n < 16 := by
      have := Nat.one_le_two_pow (n := 4 * k)
      rw [pow_succ] at h
      have hpos : 0 < 16 ^ k := Nat.pow_pos (by omega)
      omega
    have hdiv : 16 ^ k ≤ n / 16 := by
      rw [pow_succ] at h
      omega
    have hle := ih hdiv
    rw [hexText, if_neg hn, List.length_append, List.length_singleton]
    omega

/-- Any writer has taken a beginning of the chunk, and all of it if it succeeds. A chunk whose size
cannot be written is not begun. -/
theorem ippStreamWriteHttpChunk_transmits {τ : Type} {write : WriteFn τ} {taken : τ → Bytes}
    (h : Transmits write taken) (t : τ) (data : Bytes) :
    ∃ sent, sent <+: httpChunk data ∧
      taken (ippStreamWriteHttpChunk write t data).2 = taken t ++ sent ∧
      ((ippStreamWriteHttpChunk write t data).1 = true → sent = httpChunk data) ∧
      (sizeMax < data.length → sent = []) := by
  unfold ippStreamWriteHttpChunk
  simp only
  split
  · exact ⟨[],List.nil_prefix,by simp,nofun,fun _ => rfl⟩
  rename_i hshort
  have hsize : ¬ sizeMax < data.length := by
    intro hbig
    have hlong := hexText_long (n := data.length) (k := 8) (by
      have : (16 : ℕ) ^ 8 = sizeMax + 1 := by decide
      omega)
    apply hshort
    rw [List.length_append]
    change 11 ≤ _ + 2
    omega
  have hpart : ∀ part : Bytes, ∀ t : τ, ∃ sent, sent <+: part ∧
      taken (writeAll write t part).2 = taken t ++ sent ∧
      ((writeAll write t part).1 = true → sent = part) := by
    intro part t
    obtain ⟨n,hn,htaken,hall⟩ := writeAll_transmits h t part
    exact ⟨part.take n, List.take_prefix _ _,htaken,fun hok => List.take_of_length_le (hall hok).ge⟩
  obtain ⟨sent1,hprefix1,htaken1,hall1⟩ := hpart (hexText data.length ++ crlf) t
  split
  · rename_i t1 hw1
    rw [hw1] at htaken1
    refine ⟨sent1,hprefix1.trans ?_,htaken1,nofun,fun hbig => absurd hbig hsize⟩
    exact ⟨data ++ crlf,by simp only [httpChunk, List.append_assoc]⟩
  rename_i t1 hw1
  rw [hw1] at htaken1 hall1
  obtain rfl := hall1 rfl
  have hdata : ∃ sent, sent <+: data ∧
      taken (if data = [] then (true,t1) else writeAll write t1 data).2 = taken t1 ++ sent ∧
      ((if data = [] then (true,t1) else writeAll write t1 data).1 = true → sent = data) := by
    by_cases hnil : data = []
    · rw [if_pos hnil]
      exact ⟨[],List.nil_prefix,by simp,fun _ => hnil.symm⟩
    · rw [if_neg hnil]
      exact hpart data t1
  obtain ⟨sent2,hprefix2,htaken2,hall2⟩ := hdata
  split
  · rename_i t2 hw2
    rw [hw2] at htaken2
    obtain ⟨more,hmore⟩ := hprefix2
    refine ⟨hexText data.length ++ crlf ++ sent2,⟨more ++ crlf,?_⟩,?_,nofun,
      fun hbig => absurd hbig hsize⟩
    · rw [httpChunk]
      nth_rewrite 3 [← hmore]
      simp only [List.append_assoc]
    · rw [htaken2, htaken1, List.append_assoc]
  rename_i t2 hw2
  rw [hw2] at htaken2 hall2
  obtain rfl := hall2 rfl
  obtain ⟨sent3,hprefix3,htaken3,hall3⟩ := hpart crlf t2
  obtain ⟨more,hmore⟩ := hprefix3
  refine ⟨hexText sent2.length ++ crlf ++ sent2 ++ sent3,⟨more,?_⟩,?_,fun hok => ?_,
    fun hbig => absurd hbig hsize⟩
  · rw [httpChunk, List.append_assoc, hmore]
  · rw [htaken3, htaken2, htaken1]
    simp only [List.append_assoc]
  · rw [hall3 hok, httpChunk]

/-! ### Chunks decoded -/

theorem splitLine_hexText {n : ℕ} (h : n ≤ sizeMax) (rest : Bytes) :
    splitLine (hexText n ++ crlf ++ rest) = some (hexText n,rest) := by
  refine splitLine_iff.mpr ⟨rfl,?_,fun c hc => ?_⟩
  · exact (hexText_short h).trans_lt (by decide)
  · have hx := hexText_xdigit n c hc
    constructor
    · rintro rfl
      exact absurd hx (by decide)
    · rintro rfl
      exact absurd hx (by decide)

theorem announcedSize_hexText {n : ℕ} (h : n ≤ sizeMax) : announcedSize (hexText n) = some n := by
  have hplain : cstr (hexText n) = hexText n := by
    apply cstr_eq_self
    intro hzero
    exact absurd (hexText_xdigit n 0 hzero) (by decide)
  have htake : (hexText n).takeWhile isxdigit = hexText n :=
    List.takeWhile_eq_self_iff.mpr (hexText_xdigit n)
  have hdrop : (hexText n).dropWhile isxdigit = [] :=
    List.dropWhile_eq_nil_iff.mpr (hexText_xdigit n)
  simp only [announcedSize]
  rw [hplain, htake, hdrop, hexValue_hexText, if_pos ⟨hexText_ne_nil n,h,.inl rfl⟩]

theorem dechunk_httpChunk {data rest : Bytes} (hne : data ≠ []) (hsize : data.length ≤ sizeMax) :
    dechunk (httpChunk data ++ rest) = (data ++ (dechunk rest).1,(dechunk rest).2) := by
  obtain ⟨n,hn⟩ : ∃ n, data.length = n + 1 := ⟨data.length - 1,by
    have := List.length_pos_of_ne_nil hne
    omega⟩
  have hstream : httpChunk data ++ rest =
      hexText data.length ++ crlf ++ (data ++ (crlf ++ rest)) := by
    simp only [httpChunk, List.append_assoc]
  rw [hstream, dechunk_chunk (splitLine_hexText hsize _)
    ((announcedSize_hexText hsize).trans (congrArg some hn)), ← hn, insideChunk_append le_rfl,
    Nat.sub_self, insideChunk_zero, afterChunk, if_pos (List.prefix_append _ _)]
  rfl

/-- The last chunk ends the body where it ends. -/
theorem dechunk_last (rest : Bytes) : dechunk (httpChunk [] ++ rest) = ([],some rest) := by
  have hstream : httpChunk [] ++ rest = hexText 0 ++ crlf ++ (crlf ++ rest) := by
    simp only [httpChunk, List.length_nil, List.append_nil, List.append_assoc]
  have hempty : splitLine (crlf ++ rest) = some ([],rest) :=
    splitLine_iff.mpr ⟨rfl,by decide,nofun⟩
  rw [hstream, dechunk_eq, splitLine_hexText (Nat.zero_le _)]
  simp only [announcedSize_hexText (Nat.zero_le _)]
  rw [trailerEnd_eq, hempty]
  simp only [if_true]

theorem dechunk_chunks {chunks : List Bytes} (hne : ∀ data ∈ chunks, data ≠ [])
    (hsize : ∀ data ∈ chunks, data.length ≤ sizeMax) (rest : Bytes) :
    dechunk ((chunks ++ [[]]).flatMap httpChunk ++ rest) = (chunks.flatten,some rest) := by
  induction chunks with
  | nil => simpa using dechunk_last rest
  | cons data chunks ih =>
    rw [List.cons_append, List.flatMap_cons, List.append_assoc,
      dechunk_httpChunk (hne data (.head _)) (hsize data (.head _)),
      ih (fun d hd => hne d (.tail _ hd)) fun d hd => hsize d (.tail _ hd)]
    rfl

/-! ### Bodies that are broken off -/

theorem splitLine_append {stream line rest : Bytes} (h : splitLine stream = some (line,rest))
    (more : Bytes) : splitLine (stream ++ more) = some (line,rest ++ more) := by
  obtain ⟨rfl,hlength,hline⟩ := splitLine_iff.mp h
  exact splitLine_iff.mpr ⟨by simp only [List.append_assoc],hlength,hline⟩

theorem trailerEnd_append {budget : ℕ} {stream rest : Bytes}
    (h : trailerEnd budget stream = some rest) (more : Bytes) :
    trailerEnd budget (stream ++ more) = some (rest ++ more) := by
  fun_induction trailerEnd budget stream with
  | case1 => cases h
  | case2 budget stream rest' hline =>
    cases h
    rw [trailerEnd_eq, splitLine_append hline more]
    simp only [if_true]
  | case3 budget stream line rest' hline hne hok ih =>
    rw [trailerEnd_eq, splitLine_append hline more]
    simp only [if_neg hne, if_pos hok]
    exact ih h
  | case4 => cases h

/-- A body that is complete stays complete, whatever follows it. -/
theorem dechunk_append {stream body rest : Bytes} (h : dechunk stream = (body,some rest))
    (more : Bytes) : dechunk (stream ++ more) = (body,some (rest ++ more)) := by
  fun_induction dechunk stream generalizing body with
  | case1 => cases h
  | case2 => cases h
  | case3 stream line rest' hline hsize =>
    rw [Prod.mk.injEq] at h
    obtain ⟨rfl,h⟩ := h
    rw [dechunk_eq, splitLine_append hline more]
    simp only [hsize, trailerEnd_append h more]
  | case4 stream line rest' hline n hsize hdata next =>
    rename_i ih
    obtain ⟨hlen,hcrlf⟩ := hdata
    rw [Prod.mk.injEq] at h
    obtain ⟨hbody,hrest⟩ := h
    have hlen2 : 2 ≤ (rest'.drop (n + 1)).length := hcrlf.length_le
    rw [List.length_drop] at hlen2
    have hrec := ih (Prod.ext rfl hrest)
    rw [dechunk_eq, splitLine_append hline more]
    simp only [hsize, List.drop_append_of_le_length hlen,
      List.drop_append_of_le_length (by omega : n + 3 ≤ rest'.length),
      List.take_append_of_le_length hlen, hrec]
    rw [if_pos ⟨by rw [List.length_append]; omega,hcrlf.trans (List.prefix_append _ _)⟩]
    exact congrArg (·,some (rest ++ more)) hbody
  | case5 => cases h

/-- Chunks with data that can be counted, and perhaps not all of the last one: the body has not been
ended. -/
def Unended (encoded : Bytes) : Prop :=
  ∃ chunks : List Bytes, (∀ data ∈ chunks, data ≠ [] ∧ data.length ≤ sizeMax) ∧
    encoded <+: chunks.flatMap httpChunk

theorem dechunk_whole {chunks : List Bytes}
    (h : ∀ data ∈ chunks, data ≠ [] ∧ data.length ≤ sizeMax) :
    dechunk (chunks.flatMap httpChunk) = (chunks.flatten,none) := by
  induction chunks with
  | nil => decide +kernel
  | cons data chunks ih =>
    obtain ⟨hne,hsize⟩ := h data (.head _)
    rw [List.flatMap_cons, dechunk_httpChunk hne hsize, ih fun d hd => h d (.tail _ hd)]
    rfl

theorem Unended.dechunk_eq_none {encoded : Bytes} (h : Unended encoded) :
    (dechunk encoded).2 = none := by
  obtain ⟨chunks,hchunks,more,hmore⟩ := h
  by_contra hne
  obtain ⟨rest,hrest⟩ := Option.ne_none_iff_exists'.mp hne
  have hall := dechunk_append (Prod.ext rfl hrest : dechunk encoded = ((dechunk encoded).1,some rest))
    more
  rw [hmore, dechunk_whole hchunks] at hall
  cases congrArg Prod.snd hall

/-! ### Where a chunked body may be broken off -/

/-- Chunks with data that can be counted. -/
def DataChunks (chunks : List Bytes) : Prop := ∀ data ∈ chunks, data ≠ [] ∧ data.length ≤ sizeMax

/-- Whole chunks with data: the next chunk may begin. -/
def Between (encoded : Bytes) : Prop :=
  ∃ chunks, DataChunks chunks ∧ encoded = chunks.flatMap httpChunk

/-- Whole chunks with data, and perhaps not all of the last chunk. -/
def Ending (encoded : Bytes) : Prop :=
  ∃ chunks, DataChunks chunks ∧ encoded <+: (chunks ++ [[]]).flatMap httpChunk

theorem Between.nil : Between [] := ⟨[],nofun,rfl⟩

theorem Between.unended {encoded : Bytes} (h : Between encoded) : Unended encoded := by
  obtain ⟨chunks,hchunks,rfl⟩ := h
  exact ⟨chunks,hchunks,List.prefix_rfl⟩

theorem httpChunk_ne_nil (data : Bytes) : httpChunk data ≠ [] := by
  simp [httpChunk, hexText_ne_nil]

section
variable {τ : Type} {write : WriteFn τ} {taken : τ → Bytes} {t : τ}

theorem ippStreamWriteHttpChunk_between (h : Transmits write taken) (ht : Between (taken t))
    {data : Bytes} (hne : data ≠ []) : if (ippStreamWriteHttpChunk write t data).1 then
      Between (taken (ippStreamWriteHttpChunk write t data).2)
    else Unended (taken (ippStreamWriteHttpChunk write t data).2) := by
  obtain ⟨sent,hsent,htaken,hall,hlong⟩ := ippStreamWriteHttpChunk_transmits h t data
  obtain ⟨chunks,hchunks,hbody⟩ := ht
  have hmore : data.length ≤ sizeMax → DataChunks (chunks ++ [data]) := by
    intro hsize d hd
    rcases List.mem_append.mp hd with hd | hd
    · exact hchunks d hd
    · rw [List.mem_singleton.mp hd]
      exact ⟨hne,hsize⟩
  rw [htaken, hbody]
  split
  · rename_i hok
    obtain rfl := hall hok
    have hsize : data.length ≤ sizeMax := by
      by_contra hbig
      exact httpChunk_ne_nil data (hlong (not_le.mp hbig))
    exact ⟨chunks ++ [data],hmore hsize,by simp⟩
  · by_cases hsize : data.length ≤ sizeMax
    · refine ⟨chunks ++ [data],hmore hsize,?_⟩
      rw [List.flatMap_append, List.flatMap_singleton]
      exact (List.prefix_append_right_inj _).mpr hsent
    · rw [hlong (not_le.mp hsize), List.append_nil]
      exact ⟨chunks,hchunks,List.prefix_rfl⟩

theorem ippStreamWriteHttpChunk_last (h : Transmits write taken) (ht : Between (taken t)) :
    Ending (taken (ippStreamWriteHttpChunk write t []).2) := by
  obtain ⟨sent,hsent,htaken,-⟩ := ippStreamWriteHttpChunk_transmits h t []
  obtain ⟨chunks,hchunks,hbody⟩ := ht
  refine ⟨chunks,hchunks,?_⟩
  rw [htaken, hbody, List.flatMap_append, List.flatMap_singleton]
  exact (List.prefix_append_right_inj _).mpr hsent

theorem ippStreamWriteHttpChunk_keeps {P : τ → Prop} (h : Keeps write P P) (ht : P t)
    (data : Bytes) : P (ippStreamWriteHttpChunk write t data).2 := by
  have hall : ∀ (part : Bytes) (t : τ), P t → P (writeAll write t part).2 := by
    intro part t ht
    have hkept := h.writeAll ht part
    split at hkept <;> exact hkept
  unfold ippStreamWriteHttpChunk
  simp only
  split
  · exact ht
  have h1 := hall (hexText data.length ++ crlf) t ht
  split
  · rename_i t1 heq
    rw [heq] at h1
    exact h1
  rename_i t1 heq
  rw [heq] at h1
  have h2 : P (if data = [] then (true,t1) else writeAll write t1 data).2 := by
    split
    · exact h1
    · exact hall data t1 h1
  split
  · rename_i t2 heq2
    rw [heq2] at h2
    exact h2
  · rename_i t2 heq2
    rw [heq2] at h2
    exact hall crlf t2 h2

end

/-! ### Reading to the end -/

section
variable {σ : Type} {read : ReadFn σ} {R : σ → Bytes → Prop}

theorem reads_concat {capacities : List ℕ} {capacity : ℕ} {st st1 st2 : Request × σ}
    {results : List (Option Bytes)} {result : Option Bytes}
    (hrun : reads read capacities st = (.ok results,st1))
    (hread : ippHttpRequestRead read capacity st1 = (.ok result,st2)) :
    reads read (capacities ++ [capacity]) st = (.ok (results ++ [result]),st2) := by
  induction capacities generalizing st results with
  | nil =>
    cases hrun
    rw [List.nil_append, reads, Run.bind_of_ok hread]
    rfl
  | cons c capacities ih =>
    obtain ⟨x,st',hfirst,hmore⟩ := Run.bind_eq_ok hrun
    obtain ⟨results',st'',hrun',hend⟩ := Run.bind_eq_ok hmore
    cases hend
    rw [List.cons_append, reads, Run.bind_of_ok hfirst, Run.bind_of_ok (ih hrun')]
    rfl

/-- As long as the end has not been found, every read returns something. -/
theorem reads_length (h : Delivers read R) {capacities : List ℕ} (hpos : ∀ c ∈ capacities, 0 < c)
    {st st' : Request × σ} {stream : Bytes} {results : List (Option Bytes)}
    (hst : Holds R st stream) (hrun : reads read capacities st = (.ok results,st'))
    (hnone : none ∉ results) : capacities.length ≤ (payload results).length := by
  induction capacities generalizing st stream results with
  | nil => exact Nat.zero_le _
  | cons c capacities ih =>
    obtain ⟨x,st1,hread,hmore⟩ := Run.bind_eq_ok hrun
    obtain ⟨results',st'',hrun',hend⟩ := Run.bind_eq_ok hmore
    cases hend
    have hstep := ippHttpRequestRead_progress h hst (hpos c (.head _))
    rw [hread] at hstep
    cases x with
    | none => exact absurd (List.mem_cons_self) hnone
    | some d =>
      obtain ⟨hne,-,-,stream1,hst1,-⟩ := hstep
      have hrec := ih (fun c hc => hpos c (.tail _ hc)) hst1 hrun' fun hmem =>
        hnone (List.mem_cons_of_mem _ hmem)
      have hd := List.length_pos_of_ne_nil hne
      rw [payload_cons, List.length_append, List.length_cons]
      change _ ≤ d.length + _
      omega

/-- A complete body that can be counted is read to its end by any reads that are enough. -/
theorem reads_complete (h : Delivers read R) {r : Request} (hr : Unread r) {s : σ}
    {stream body after : Bytes} (hst : Holds R (r,s) stream)
    (hdecoding : decoding r stream = (body,some after)) (hsize : body.length ≤ sizeMax)
    {capacities : List ℕ} (hpos : ∀ c ∈ capacities, 0 < c) :
    ∃ results st, reads read capacities (r,s) = (.ok results,st) ∧ payload results <+: body ∧
      (body.length < capacities.length →
        payload results = body ∧ none ∈ results ∧ Holds R st after) := by
  have hrun : ∃ results st, reads read capacities (r,s) = (.ok results,st) := by
    induction capacities using List.reverseRecOn with
    | nil => exact ⟨[],(r,s),rfl⟩
    | append_singleton capacities c ih =>
      have hinit : ∀ c ∈ capacities, 0 < c := fun c hc => hpos c (by simp [hc])
      obtain ⟨results,st,hrun⟩ := ih hinit
      obtain ⟨-,-,-,hnext⟩ := reads_decode h hr hst hinit hrun
      obtain ⟨result,st',hread⟩ := (hnext c (hpos c (by simp))).2 (by simp [hdecoding])
        (by rw [hdecoding]; exact hsize)
      exact ⟨_,_,reads_concat hrun hread⟩
  obtain ⟨results,st,hrun⟩ := hrun
  obtain ⟨hpre,-,⟨rest,hrest,-,-,hend⟩,-⟩ := reads_decode h hr hst hpos hrun
  rw [hdecoding] at hpre hend
  refine ⟨results,st,hrun,hpre,fun hlong => ?_⟩
  have hmem : none ∈ results := by
    by_contra hnone
    have hge := reads_length h hpos hst hrun hnone
    have hle : (payload results).length ≤ body.length := hpre.length_le
    omega
  have heq := hend hmem
  rw [Prod.mk.injEq, Option.some_inj] at heq
  obtain ⟨rfl,rfl⟩ := heq
  exact ⟨rfl,hmem,hrest⟩

end

theorem length_le_flatten {chunks : List Bytes} {data : Bytes} (h : data ∈ chunks) :
    data.length ≤ chunks.flatten.length := by
  obtain ⟨before,after,rfl⟩ := List.append_of_mem h
  simp only [List.flatten_append, List.flatten_cons, List.length_append]
  omega

/-- Chunks that were written through any writer and read through any reader are the octets that went
in, and the end of the body is the end of what was written. -/
theorem chunks_round_trip {τ : Type} {write : WriteFn τ} {taken : τ → Bytes}
    (hw : Accepts write taken) (t : τ) {chunks : List Bytes} (hne : ∀ data ∈ chunks, data ≠ [])
    (hsize : chunks.flatten.length ≤ sizeMax) :
    ∃ t' encoded, writeChunks write t (chunks ++ [[]]) = (true,t') ∧
      taken t' = taken t ++ encoded ∧
      ∀ (σ : Type) (read : ReadFn σ) (R : σ → Bytes → Prop), Delivers read R →
        ∀ r s, Unread r → r.chunked = true → ∀ after, Holds R (r,s) (encoded ++ after) →
          ∀ capacities : List ℕ, (∀ c ∈ capacities, 0 < c) →
            ∃ results st, reads read capacities (r,s) = (.ok results,st) ∧
              payload results <+: chunks.flatten ∧
              (chunks.flatten.length < capacities.length →
                payload results = chunks.flatten ∧ none ∈ results ∧ Holds R st after) := by
  have hfits : ∀ data ∈ chunks, data.length ≤ sizeMax := fun data hdata =>
    (length_le_flatten hdata).trans hsize
  have hall : ∀ data ∈ chunks ++ [[]], data.length ≤ sizeMax := by
    intro data hdata
    rcases List.mem_append.mp hdata with hdata | hdata
    · exact hfits data hdata
    · rw [List.mem_singleton.mp hdata]
      exact Nat.zero_le _
  obtain ⟨t',hwrite,htaken⟩ := writeChunks_accepts hw t hall
  refine ⟨t',_,hwrite,htaken,fun σ read R h r s hr hchunked after hst capacities hpos => ?_⟩
  have hdecoding : decoding r ((chunks ++ [[]]).flatMap httpChunk ++ after) =
      (chunks.flatten,some after) := by
    rw [decoding, if_pos hchunked]
    exact dechunk_chunks hne hfits after
  exact reads_complete h hr hst hdecoding hsize hpos

/-- A request in chunked mode with nothing read yet. -/
def chunkedBody : Request := { Request.zero with chunked := true }

theorem chunkedBody_unread : Unread chunkedBody := ⟨rfl,rfl,rfl,rfl,rfl⟩

theorem chunks_round_trip_whole :
    ∃ t' encoded, writeChunks wholeWrite [] ([octets "abc",octets "d"] ++ [[]]) = (true,t') ∧
      id t' = id [] ++ encoded ∧
      ∀ (σ : Type) (read : ReadFn σ) (R : σ → Bytes → Prop), Delivers read R →
        ∀ r s, Unread r → r.chunked = true → ∀ after, Holds R (r,s) (encoded ++ after) →
          ∀ capacities : List ℕ, (∀ c ∈ capacities, 0 < c) →
            ∃ results st, reads read capacities (r,s) = (.ok results,st) ∧
              payload results <+: [octets "abc",octets "d"].flatten ∧
              ([octets "abc",octets "d"].flatten.length < capacities.length →
                payload results = [octets "abc",octets "d"].flatten ∧ none ∈ results ∧
                  Holds R st after) :=
  chunks_round_trip wholeWrite_accepts [] (by decide +kernel) (by decide +kernel)

/-- Two chunks that a `size_t` cannot count together. -/
def bigChunks : List Bytes := [List.replicate (2 ^ 31) 0,List.replicate (2 ^ 31) 0]

/-- The decoder counts what it returns, and gives up where the counter would overflow. -/
theorem chunks_round_trip_overflow :
    (∀ data ∈ bigChunks, data ≠ []) ∧
    ∃ encoded, writeChunks wholeWrite [] (bigChunks ++ [[]]) = (true,encoded) ∧
      ∀ capacities : List ℕ, (∀ c ∈ capacities, 0 < c) → ∀ results st,
        reads wholeRead capacities (chunkedBody,encoded) = (.ok results,st) →
        payload results ≠ bigChunks.flatten := by
  have hlen : ∀ data ∈ bigChunks ++ [[]], data.length ≤ sizeMax := by
    intro data hdata
    simp only [bigChunks, List.cons_append, List.nil_append, List.mem_cons, List.not_mem_nil,
      or_false] at hdata
    rcases hdata with rfl | rfl | rfl
    · rw [List.length_replicate]
      norm_num
    · rw [List.length_replicate]
      norm_num
    · exact Nat.zero_le _
  have htotal : bigChunks.flatten.length = 2 ^ 31 + 2 ^ 31 := by
    simp only [bigChunks, List.flatten_cons, List.flatten_nil, List.append_nil,
      List.length_append, List.length_replicate]
  obtain ⟨t',hwrite,-⟩ := writeChunks_accepts wholeWrite_accepts [] hlen
  refine ⟨?_,t',hwrite,fun capacities hpos results st hrun hall => ?_⟩
  · intro data hdata
    simp only [bigChunks, List.mem_cons, List.not_mem_nil, or_false, or_self] at hdata
    rw [hdata]
    apply List.ne_nil_of_length_pos
    rw [List.length_replicate]
    norm_num
  · have hst : Holds Eq (chunkedBody,t') t' := ⟨t',rfl,rfl⟩
    obtain ⟨hcount,hmax,-⟩ := reads_ok wholeRead_delivers hpos hst hrun
    have hle := hmax (Nat.zero_le _)
    rw [hcount, hall, htotal] at hle
    norm_num [chunkedBody, Request.zero] at hle

end Espresso.Http
