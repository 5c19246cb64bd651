import Espresso.Http.Decoding

/-! Reading the body of a request from a client that may break off at any point: whatever has been
read without an error is what the client's octets decode to. -/
namespace Espresso.Http
open Callback

section
variable {σ : Type} {read : ReadFn σ} {R : σ → Bytes → Prop}

/-- The same request, on a reader that is patched with what is left of the stream. -/
def SameStream (R : σ → Bytes → Prop) (st : Request × σ) (st' : Request × (σ × Bytes)) : Prop :=
  st.1 = st'.1 ∧ st.2 = st'.2.1 ∧ R st'.2.1 st'.2.2

theorem rawRead_simulates (h : Draws read R) (capacity : ℕ) :
    Run.Simulates (SameStream R) (rawRead read capacity) (rawRead (patched read) capacity) := by
  rintro ⟨r,s⟩ ⟨_,_,b⟩ d st ⟨rfl,rfl,hs⟩ hread
  unfold rawRead at hread ⊢
  simp only at hread hs ⊢
  split at hread
  · rename_i hzero
    cases hread
    exact ⟨_,by rw [if_pos hzero],rfl,rfl,hs⟩
  rename_i hzero
  rw [if_neg hzero]
  split at hread
  · rename_i hbuffered
    cases hread
    exact ⟨_,by rw [if_pos hbuffered],rfl,rfl,hs⟩
  rename_i hbuffered
  rw [if_neg hbuffered]
  split at hread
  · cases hread
  rename_i d' s' hs'
  split at hread
  · cases hread
  rename_i hd
  cases hread
  obtain ⟨hne,hle⟩ := not_or.mp hd
  obtain ⟨b',hpatched,hR⟩ := patched_of_draws h hs (Nat.pos_of_ne_zero hzero) hs' hne
    (Nat.not_lt.mp hle)
  refine ⟨(r,(s',b')),?_,rfl,rfl,hR⟩
  simp only [hpatched, if_neg hd]

theorem modify_simulates (f : Request → Request) :
    Run.Simulates (SameStream R) (modify f) (modify f) := by
  rintro ⟨r,s⟩ ⟨_,_,b⟩ d st ⟨rfl,rfl,hs⟩ hrun
  cases hrun
  exact ⟨_,rfl,rfl,rfl,hs⟩

theorem get_simulates : Run.Simulates (SameStream R) get get := by
  rintro ⟨r,s⟩ ⟨_,_,b⟩ d st ⟨rfl,rfl,hs⟩ hrun
  cases hrun
  exact ⟨_,rfl,rfl,rfl,hs⟩

theorem rawByte_simulates (h : Draws read R) :
    Run.Simulates (SameStream R) (rawByte read) (rawByte (patched read)) := by
  refine (rawRead_simulates h 1).bind fun d => ?_
  split
  · exact .pure _
  · exact .of_fail _ _

theorem rawExact_simulates (h : Draws read R) (length : ℕ) :
    Run.Simulates (SameStream R) (rawExact read length) (rawExact (patched read) length) := by
  induction length using Nat.strong_induction_on with
  | _ length ih =>
    rw [rawExact, rawExact]
    refine .ite (fun _ => .pure _) fun hlength => ?_
    refine (rawRead_simulates h length).bind fun d => ?_
    refine .ite (fun _ => .of_fail _ _) fun hd => ?_
    have hpos := List.length_pos_of_ne_nil hd
    exact (ih (length - d.length) (by omega)).bind fun more => .pure _

theorem readLine_simulates (h : Draws read R) (line : Bytes) :
    Run.Simulates (SameStream R) (readLine read line) (readLine (patched read) line) := by
  induction hn : httpLineSize - line.length using Nat.strong_induction_on generalizing line with
  | _ n ih =>
    rw [readLine, readLine]
    refine (rawByte_simulates h).bind fun value => ?_
    refine .ite (fun _ => ?_) fun _ => ?_
    · exact (rawByte_simulates h).bind fun value => .ite (fun _ => .of_fail _ _) fun _ => .pure _
    · refine .ite (fun _ => .of_fail _ _) fun hmore => ?_
      refine ih _ ?_ _ rfl
      have hlen := (not_or.mp hmore).2
      rw [List.length_append, List.length_singleton]
      omega

theorem skipTrailers_simulates (h : Draws read R) (trailerBytes : ℕ) :
    Run.Simulates (SameStream R) (skipTrailers read trailerBytes)
      (skipTrailers (patched read) trailerBytes) := by
  induction hn : httpTrailersMax - trailerBytes using Nat.strong_induction_on
    generalizing trailerBytes with
  | _ n ih =>
    rw [skipTrailers, skipTrailers]
    refine (readLine_simulates h []).bind fun line => ?_
    refine .ite (fun _ => .pure _) fun hline => ?_
    refine .ite (fun _ => .of_fail _ _) fun hfits => ?_
    refine .ite (fun _ => .of_fail _ _) fun _ => ?_
    refine ih _ ?_ _ rfl
    have hpos := List.length_pos_of_ne_nil hline
    omega

theorem countDecoded_simulates (d : Bytes) :
    Run.Simulates (SameStream R) (countDecoded d) (countDecoded d) :=
  get_simulates.bind fun _ => .ite (fun _ => .of_fail _ _) fun _ =>
    (modify_simulates _).bind fun _ => .pure _

theorem readFixed_simulates (h : Draws read R) (capacity : ℕ) :
    Run.Simulates (SameStream R) (readFixed read capacity) (readFixed (patched read) capacity) := by
  refine get_simulates.bind fun r => .ite (fun _ => ?_) fun _ => ?_
  · exact (modify_simulates _).bind fun _ => .pure _
  · exact (rawRead_simulates h _).bind fun d =>
      (modify_simulates _).bind fun _ => countDecoded_simulates d

theorem readChunkData_simulates (h : Draws read R) (capacity : ℕ) :
    Run.Simulates (SameStream R) (readChunkData read capacity)
      (readChunkData (patched read) capacity) :=
  get_simulates.bind fun _ => (rawRead_simulates h _).bind fun d =>
    (modify_simulates _).bind fun _ => countDecoded_simulates d

theorem chunkEnd_simulates (h : Draws read R) :
    Run.Simulates (SameStream R) (chunkEnd read) (chunkEnd (patched read)) := by
  refine get_simulates.bind fun r => .ite (fun _ => ?_) fun _ => .pure _
  exact (rawExact_simulates h 2).bind fun d => .ite (fun _ => .of_fail _ _) fun _ =>
    modify_simulates _

theorem chunkHeader_simulates (h : Draws read R) :
    Run.Simulates (SameStream R) (chunkHeader read) (chunkHeader (patched read)) := by
  refine (chunkEnd_simulates h).bind fun _ => (readLine_simulates h []).bind fun line => ?_
  split
  · exact .of_fail _ _
  · exact (modify_simulates _).bind fun _ => .pure _

theorem finishChunkedBody_simulates (h : Draws read R) :
    Run.Simulates (SameStream R) (finishChunkedBody read) (finishChunkedBody (patched read)) :=
  (skipTrailers_simulates h 0).bind fun _ => (modify_simulates _).bind fun _ => .pure _

theorem ippHttpRequestRead_simulates (h : Draws read R) (capacity : ℕ) :
    Run.Simulates (SameStream R) (ippHttpRequestRead read capacity)
      (ippHttpRequestRead (patched read) capacity) := by
  refine get_simulates.bind fun r => .ite (fun _ => .pure _) fun _ => ?_
  refine .ite (fun _ => .pure _) fun _ => .ite (fun _ => readFixed_simulates h capacity) fun _ => ?_
  refine get_simulates.bind fun r => .ite (fun _ => ?_) fun _ => readChunkData_simulates h capacity
  exact (chunkHeader_simulates h).bind fun size => .ite (fun _ => finishChunkedBody_simulates h)
    fun _ => readChunkData_simulates h capacity

/-- A read that succeeds has made progress, whatever reads before and after it do. -/
theorem ippHttpRequestRead_ok (h : Draws read R) {st st' : Request × σ} {stream : Bytes}
    {capacity : ℕ} (hst : Holds R st stream) (hcapacity : 0 < capacity) {result : Option Bytes}
    (hread : ippHttpRequestRead read capacity st = (.ok result,st')) :
    Progress R st stream (.ok result,st') := by
  obtain ⟨rest,hR,rfl⟩ := hst
  obtain ⟨⟨r',s1,b'⟩,hpatched,hr,hs,hR'⟩ := ippHttpRequestRead_simulates h capacity st
    (st.1,(st.2,rest)) result st' ⟨rfl,rfl,hR⟩ hread
  have hprogress := ippHttpRequestRead_progress (patched_delivers read)
    (show Holds _ (st.1,(st.2,rest)) (st.1.buffered ++ rest) from ⟨rest,rfl,rfl⟩) hcapacity
  rw [hpatched] at hprogress
  simp only at hr hs
  subst hr
  have hholds : ∀ {stream' : Bytes},
      Holds (fun s b => s.2 = b) (st'.1,(s1,b')) stream' → Holds R st' stream' := by
    rintro stream' ⟨rest',hrest',rfl⟩
    obtain rfl : b' = rest' := hrest'
    rw [← hs] at hR'
    exact ⟨b',hR',rfl⟩
  cases result with
  | none =>
    obtain ⟨hdone,hlen,stream',hst',hsuffix,hexp⟩ := hprogress
    exact ⟨hdone,hlen,stream',hholds hst',hsuffix,hexp⟩
  | some d =>
    obtain ⟨hne,hlen,hmax,stream',hst',hsuffix,hexp⟩ := hprogress
    exact ⟨hne,hlen,hmax,stream',hholds hst',hsuffix,hexp⟩

/-! ### What any reader keeps to -/

theorem rawRead_ok {capacity : ℕ} {st st' : Request × σ} {d : Bytes}
    (h : rawRead read capacity st = (.ok d,st')) :
    d.length ≤ capacity ∧ st'.1.chunked = st.1.chunked := by
  obtain ⟨r,s⟩ := st
  unfold rawRead at h
  simp only at h
  split at h
  · cases h
    exact ⟨Nat.zero_le _,rfl⟩
  split at h
  · cases h
    exact ⟨List.length_take_le _ _,rfl⟩
  split at h
  · cases h
  split at h
  · cases h
  · rename_i hd
    cases h
    exact ⟨Nat.not_lt.mp (not_or.mp hd).2,rfl⟩

theorem countDecoded_ok {d : Bytes} {st st' : Request × σ} {result : Option Bytes}
    (h : countDecoded d st = (.ok result,st')) :
    result = some d ∧ st'.1.chunked = st.1.chunked := by
  obtain ⟨r,st1,hget,h⟩ := Run.bind_eq_ok h
  cases hget
  split at h
  · cases h
  · cases h
    exact ⟨rfl,rfl⟩

/-- A body with a `Content-Length` stays one, and what is read of it fits the buffer. -/
theorem readFixed_ok {capacity : ℕ} {st st' : Request × σ} {result : Option Bytes}
    (h : readFixed read capacity st = (.ok result,st')) :
    st'.1.chunked = st.1.chunked ∧ (result.getD []).length ≤ capacity := by
  obtain ⟨r,st1,hget,h⟩ := Run.bind_eq_ok h
  cases hget
  split at h
  · cases h
    exact ⟨rfl,Nat.zero_le _⟩
  · obtain ⟨d,st2,hraw,h⟩ := Run.bind_eq_ok h
    obtain ⟨_,st3,hmodify,h⟩ := Run.bind_eq_ok h
    cases hmodify
    obtain ⟨rfl,hchunked⟩ := countDecoded_ok h
    obtain ⟨hlength,hkeep⟩ := rawRead_ok hraw
    exact ⟨hchunked.trans hkeep,hlength.trans (min_le_right _ _)⟩

theorem readChunkData_length {capacity : ℕ} {st st' : Request × σ} {result : Option Bytes}
    (h : readChunkData read capacity st = (.ok result,st')) :
    (result.getD []).length ≤ capacity := by
  obtain ⟨r,st1,hget,h⟩ := Run.bind_eq_ok h
  obtain ⟨d,st2,hraw,h⟩ := Run.bind_eq_ok h
  obtain ⟨_,st3,-,h⟩ := Run.bind_eq_ok h
  obtain ⟨rfl,-⟩ := countDecoded_ok h
  exact (rawRead_ok hraw).1.trans (min_le_right _ _)

theorem ippHttpRequestRead_length {capacity : ℕ} {st st' : Request × σ} {result : Option Bytes}
    (h : ippHttpRequestRead read capacity st = (.ok result,st')) :
    (result.getD []).length ≤ capacity := by
  obtain ⟨r,st1,hget,h⟩ := Run.bind_eq_ok h
  cases hget
  split at h
  · cases h
    exact Nat.zero_le _
  split at h
  · cases h
    exact Nat.zero_le _
  split at h
  · exact (readFixed_ok h).2
  obtain ⟨r,st1,hget,h⟩ := Run.bind_eq_ok h
  split at h
  · obtain ⟨size,st2,-,h⟩ := Run.bind_eq_ok h
    split at h
    · obtain ⟨_,st3,-,h⟩ := Run.bind_eq_ok h
      obtain ⟨_,st4,-,h⟩ := Run.bind_eq_ok h
      cases h
      exact Nat.zero_le _
    · exact readChunkData_length h
  · exact readChunkData_length h

theorem ippHttpRequestRead_fixed {capacity : ℕ} {st st' : Request × σ} {result : Option Bytes}
    (hfixed : st.1.chunked = false) (h : ippHttpRequestRead read capacity st = (.ok result,st')) :
    st'.1.chunked = false := by
  obtain ⟨r,st1,hget,h⟩ := Run.bind_eq_ok h
  cases hget
  split at h
  · cases h
    exact hfixed
  split at h
  · cases h
    exact hfixed
  rw [if_pos (by simp [hfixed])] at h
  exact (readFixed_ok h).1.trans hfixed

end

end Espresso.Http
