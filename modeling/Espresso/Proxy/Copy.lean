import Espresso.Lib.Recorded
import Espresso.Proxy.Upstream

/-! What `ipp_stream_copy` does to a reader and a writer that may answer anything. -/
namespace Espresso.Proxy
open Callback Codec

/-- What a copy leaves in the records of its callbacks. -/
structure Copied (length : ℕ) (outcome : Outcome StreamError Unit) (reads : List ReadCall)
    (writes : List WriteCall) : Prop where
  ended : outcome ≠ .unfinished
  whole : outcome = .ok () → (taken reads).length = length ∧ accepted writes = taken reads
  beginning : accepted writes <+: taken reads
  missing : ∀ before call after, reads = before ++ call :: after →
    call.1 + (taken before).length ≤ length
  reads_le : reads.length ≤ length
  writes_le : writes.length ≤ length

section
variable {σ τ : Type} (read : ReadFn σ) (write : WriteFn τ)

/-- No call at all. -/
theorem Copied.nothing {length : ℕ} {outcome : Outcome StreamError Unit}
    (hended : outcome ≠ .unfinished) (hwhole : outcome = .ok () → length = 0) :
    Copied length outcome [] [] where
  ended := hended
  whole := fun h => ⟨(hwhole h).symm,rfl⟩
  beginning := List.prefix_refl _
  missing := fun before call after h => by
    cases before <;> cases h
  reads_le := Nat.zero_le _
  writes_le := Nat.zero_le _

/-- A read that yields nothing that can be written. -/
theorem Copied.refused {length wanted : ℕ} {answer : Option Bytes} (hlength : 0 < length)
    (hwanted : wanted ≤ length) :
    Copied length (.error .readError) [(wanted,answer)] [] where
  ended := nofun
  whole := nofun
  beginning := List.nil_prefix
  missing := fun before call after h => by
    rcases before with _ | ⟨first,before⟩
    · cases h
      exact hwanted
    · rw [List.cons_append, List.cons.injEq] at h
      cases before <;> cases h.2
  reads_le := hlength
  writes_le := Nat.zero_le _

/-- A read whose octets are written, and the calls after it. -/
theorem Copied.step {length wanted : ℕ} {d : Bytes} {outcome : Outcome StreamError Unit}
    {reads : List ReadCall} {first writes : List WriteCall} (hne : d ≠ []) (hfits : d.length ≤ wanted)
    (hwanted : wanted ≤ length) (hfirst : Written d true first)
    (hrest : Copied (length - d.length) outcome reads writes) :
    Copied length outcome ((wanted,some d) :: reads) (first ++ writes) := by
  have htaken : ReadCall.taken (wanted,some d) = d := if_pos hfits
  have hpos := List.length_pos_of_ne_nil hne
  refine ⟨hrest.ended,fun hok => ?_,?_,fun before call after h => ?_,?_,?_⟩
  · obtain ⟨hlength,hsame⟩ := hrest.whole hok
    rw [taken_cons, htaken, accepted_append, hfirst.whole rfl, hsame, List.length_append]
    exact ⟨by omega,rfl⟩
  · rw [taken_cons, htaken, accepted_append, hfirst.whole rfl]
    exact (List.prefix_append_right_inj d).mpr hrest.beginning
  · rcases before with _ | ⟨b,before⟩
    · cases h
      exact hwanted
    · obtain ⟨rfl,htail⟩ := List.cons.inj h
      have hmissing := hrest.missing before call after htail
      rw [taken_cons, htaken, List.length_append]
      omega
  · have := hrest.reads_le
    rw [List.length_cons]
    omega
  · have := hrest.writes_le
    have := hfirst.bounded
    rw [List.length_append]
    omega

/-- A read whose octets are not all written. -/
theorem Copied.stopped {length wanted : ℕ} {d : Bytes} {writes : List WriteCall} (hne : d ≠ [])
    (hfits : d.length ≤ wanted) (hwanted : wanted ≤ length) (hwrites : Written d false writes) :
    Copied length (.error .writeError) [(wanted,some d)] writes := by
  have htaken : ReadCall.taken (wanted,some d) = d := if_pos hfits
  have hpos := List.length_pos_of_ne_nil hne
  refine ⟨nofun,nofun,?_,fun before call after h => ?_,?_,?_⟩
  · rw [taken_cons, htaken, taken_nil, List.append_nil]
    exact hwrites.beginning
  · rcases before with _ | ⟨b,before⟩
    · cases h
      exact hwanted
    · obtain ⟨-,htail⟩ := List.cons.inj h
      cases before <;> cases htail
  · rw [List.length_singleton]
    omega
  · have := hwrites.bounded
    omega

theorem copyRemaining_recorded (chunkSize remaining : ℕ) (s : σ) (t : τ) (pastReads : List ReadCall)
    (pastWrites : List WriteCall) :
    ∃ outcome s' t' reads writes,
      copyRemaining read write chunkSize remaining (s,t) = (outcome,(s',t')) ∧
      copyRemaining (recordedRead read) (recordedWrite write) chunkSize remaining
          ((s,pastReads),(t,pastWrites)) =
        (outcome,((s',pastReads ++ reads),(t',pastWrites ++ writes))) ∧
      Copied remaining outcome reads writes := by
  induction remaining using Nat.strong_induction_on generalizing s t pastReads pastWrites with
  | _ remaining ih =>
    rw [copyRemaining, copyRemaining]
    by_cases hdone : remaining = 0
    · rw [if_pos hdone, if_pos hdone]
      exact ⟨_,s,t,[],[],rfl,by simp,.nothing (fun h => by cases h) fun _ => hdone⟩
    rw [if_neg hdone, if_neg hdone]
    have hpos : 0 < remaining := Nat.pos_of_ne_zero hdone
    generalize hwanted : min remaining chunkSize = wanted
    have hle : wanted ≤ remaining := hwanted ▸ min_le_left _ _
    simp only [recordedRead]
    cases hread : read s wanted with
    | mk answer s' =>
      cases answer with
      | none => exact ⟨_,s',t,[(wanted,none)],[],rfl,by simp,.refused hpos hle⟩
      | some d =>
        simp only
        by_cases hbad : d = [] ∨ wanted < d.length
        · rw [if_pos hbad, if_pos hbad]
          exact ⟨_,s',t,[(wanted,some d)],[],rfl,by simp,.refused hpos hle⟩
        rw [if_neg hbad, if_neg hbad]
        obtain ⟨hne,hfits⟩ := not_or.mp hbad
        have hd := List.length_pos_of_ne_nil hne
        obtain ⟨first,hrun,hwritten⟩ := writeAll_recorded write t pastWrites d
        rw [hrun]
        cases hwrite : writeAll write t d with
        | mk ok t' =>
          rw [hwrite] at hwritten
          cases ok with
          | false =>
            exact ⟨_,s',t',[(wanted,some d)],first,rfl,rfl,
              .stopped hne (not_lt.mp hfits) hle hwritten⟩
          | true =>
            obtain ⟨outcome,s'',t'',reads,writes,hplain,hrecorded,hcopied⟩ :=
              ih (remaining - d.length) (by omega) s' t' (pastReads ++ [(wanted,some d)])
                (pastWrites ++ first)
            rw [List.append_assoc, List.append_assoc, List.singleton_append] at hrecorded
            exact ⟨outcome,s'',t'',(wanted,some d) :: reads,first ++ writes,hplain,hrecorded,
              .step hne (not_lt.mp hfits) hle hwritten hcopied⟩

/-- Whatever the callbacks answer, the copy ends after as many reads and writes as there are octets
at most, has not asked for more than was missing, and has written a beginning of what it has read:
all of it, and as much as was asked for, if it succeeds. -/
theorem ippStreamCopy_copied (mem : Memory) (length chunkSize : ℕ) (s : σ) (t : τ) :
    ∃ outcome s' t' reads writes,
      ippStreamCopy read write mem length chunkSize (s,t) = (outcome,(s',t')) ∧
      ippStreamCopy (recordedRead read) (recordedWrite write) mem length chunkSize
          ((s,[]),(t,[])) = (outcome,((s',reads),(t',writes))) ∧
      Copied length outcome reads writes := by
  rw [ippStreamCopy, ippStreamCopy]
  by_cases hchunk : chunkSize = 0
  · rw [if_pos hchunk, if_pos hchunk]
    exact ⟨_,s,t,[],[],rfl,rfl,.nothing nofun nofun⟩
  rw [if_neg hchunk, if_neg hchunk]
  by_cases hlength : length = 0
  · rw [if_pos hlength, if_pos hlength]
    exact ⟨_,s,t,[],[],rfl,rfl,.nothing nofun fun _ => hlength⟩
  rw [if_neg hlength, if_neg hlength]
  simp only
  by_cases hmemory : (!mem (min chunkSize length)) = true
  · rw [if_pos hmemory, if_pos hmemory]
    exact ⟨_,s,t,[],[],rfl,rfl,.nothing nofun nofun⟩
  · rw [if_neg hmemory, if_neg hmemory]
    exact copyRemaining_recorded read write _ length s t [] []

end

end Espresso.Proxy
