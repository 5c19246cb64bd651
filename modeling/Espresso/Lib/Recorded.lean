import Espresso.Lib.Callback

/-! Callbacks that keep a record of their calls, whatever they answer. -/
namespace Espresso.Callback

section
variable {σ τ : Type}

/-- A read: the capacity that was offered and the answer. -/
abbrev ReadCall := ℕ × Option Bytes

/-- A write: the octets that were offered and the answer. -/
abbrev WriteCall := Bytes × ℤ

def recordedRead (read : ReadFn σ) : ReadFn (σ × List ReadCall) := fun (s,calls) n =>
  ((read s n).1,((read s n).2,calls ++ [(n,(read s n).1)]))

def recordedWrite (write : WriteFn τ) : WriteFn (τ × List WriteCall) := fun (t,calls) data =>
  ((write t data).1,((write t data).2,calls ++ [(data,(write t data).1)]))

/-- The octets of a read that kept to its capacity. -/
def ReadCall.taken : ReadCall → Bytes
  | (_,none) => []
  | (n,some d) => if d.length ≤ n then d else []

/-- The octets that a write counts as accepted, if it claims no more than it was offered. -/
def WriteCall.accepted (call : WriteCall) : Bytes :=
  if 0 < call.2 ∧ call.2 ≤ call.1.length then call.1.take call.2.toNat else []

/-- What has been taken from a reader. -/
def taken (calls : List ReadCall) : Bytes := calls.flatMap ReadCall.taken

/-- What a writer has accepted. -/
def accepted (calls : List WriteCall) : Bytes := calls.flatMap WriteCall.accepted

@[simp] theorem taken_nil : taken [] = [] := rfl
@[simp] theorem accepted_nil : accepted [] = [] := rfl

@[simp] theorem taken_cons (call : ReadCall) (calls : List ReadCall) :
    taken (call :: calls) = call.taken ++ taken calls := List.flatMap_cons

@[simp] theorem accepted_cons (call : WriteCall) (calls : List WriteCall) :
    accepted (call :: calls) = call.accepted ++ accepted calls := List.flatMap_cons

@[simp] theorem accepted_append (calls calls' : List WriteCall) :
    accepted (calls ++ calls') = accepted calls ++ accepted calls' := List.flatMap_append

/-- What the loop around a writer leaves in the record. -/
structure Written (data : Bytes) (ok : Bool) (calls : List WriteCall) : Prop where
  beginning : accepted calls <+: data
  whole : ok = true → accepted calls = data
  bounded : calls.length ≤ data.length

/-- Recording changes nothing; the writer is never offered an octet twice or out of turn. -/
theorem writeAll_recorded (write : WriteFn τ) (t : τ) (before : List WriteCall) (data : Bytes) :
    ∃ calls, writeAll (recordedWrite write) (t,before) data =
        ((writeAll write t data).1,((writeAll write t data).2,before ++ calls)) ∧
      Written data (writeAll write t data).1 calls := by
  fun_induction writeAll write t data generalizing before with
  | case1 t =>
    refine ⟨[],?_,List.nil_prefix,fun _ => rfl,Nat.le_refl _⟩
    rw [writeAll_nil, List.append_nil]
  | case2 t data hne result t' hw hbad =>
    have hnothing : WriteCall.accepted (data,result) = [] := if_neg fun h => by
      rcases hbad with hbad | hbad
      · exact absurd h.1 (not_lt.mpr hbad)
      · exact absurd h.2 (not_le.mpr hbad)
    refine ⟨[(data,result)],?_,?_,(fun h => by cases h),List.length_pos_of_ne_nil hne⟩
    · rw [writeAll, if_neg hne]
      simp only [recordedWrite, hw, if_pos hbad]
    · rw [accepted_cons, hnothing]
      exact List.nil_prefix
  | case3 t data hne result t' hw hgood ih =>
    obtain ⟨calls,hrun,hwritten⟩ := ih (before ++ [(data,result)])
    obtain ⟨hpos,hle⟩ : 0 < result ∧ result ≤ data.length := by omega
    have hpart : WriteCall.accepted (data,result) = data.take result.toNat := if_pos ⟨hpos,hle⟩
    refine ⟨(data,result) :: calls,?_,?_,?_,?_⟩
    · rw [writeAll, if_neg hne]
      simp only [recordedWrite, hw, if_neg hgood]
      rw [hrun, List.append_assoc, List.singleton_append]
    · rw [accepted_cons, hpart]
      have h := List.prefix_append_right_inj (data.take result.toNat) |>.mpr hwritten.beginning
      rwa [List.take_append_drop] at h
    · intro hok
      rw [accepted_cons, hpart, hwritten.whole hok, List.take_append_drop]
    · have hbounded := hwritten.bounded
      rw [List.length_drop] at hbounded
      rw [List.length_cons]
      omega

end

end Espresso.Callback
