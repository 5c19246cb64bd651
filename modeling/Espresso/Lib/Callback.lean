import Espresso.Lib.Octets

/-! Callbacks that read and write octets in pieces, as C code passes them around, and what a lawful
callback does. -/
namespace Espresso.Callback

/-- A read callback, given its context and the capacity of the buffer: nothing for a negative
result, else the octets that were stored. No octets stand for the end of the stream. -/
abbrev ReadFn (σ : Type) := σ → ℕ → Option Bytes × σ

/-- A write callback, given its context and the octets that are left to write. -/
abbrev WriteFn (τ : Type) := τ → Bytes → ℤ × τ

section
variable {σ τ : Type}

/-- The reader hands out a finite stream in positive pieces of any size. `R s b` says that `b` is
still to come in state `s`. -/
def Delivers (read : ReadFn σ) (R : σ → Bytes → Prop) : Prop :=
  ∀ s b n, R s b → 0 < n → ∃ d b' s', read s n = (some d,s') ∧ b = d ++ b' ∧ R s' b' ∧
    d.length ≤ n ∧ (d = [] → b = [])

/-- What the reader returns comes off the stream, however far it gets. -/
def Draws (read : ReadFn σ) (R : σ → Bytes → Prop) : Prop :=
  ∀ s b n d s', R s b → 0 < n → read s n = (some d,s') → ∃ b', b = d ++ b' ∧ R s' b'

theorem Delivers.draws {read : ReadFn σ} {R : σ → Bytes → Prop} (h : Delivers read R) :
    Draws read R := by
  intro s b n d s' hs hn hread
  obtain ⟨d1,b1,s1,hread1,hb,hs1,-,-⟩ := h s b n hs hn
  rw [hread] at hread1
  cases hread1
  exact ⟨b1,hb,hs1⟩

/-- What the reader returns comes off the stream and fits, and a read of no octets is the end of
it; in such a state `E` holds. Other reads may fail at any point. -/
def DrawsTo (read : ReadFn σ) (R : σ → Bytes → Prop) (E : σ → Prop) : Prop :=
  ∀ s b n d s', R s b → 0 < n → read s n = (some d,s') →
    d.length ≤ n ∧ ∃ b', b = d ++ b' ∧ R s' b' ∧ (d = [] → b' = [] ∧ E s')

/-- The reader hands out what is to come in positive pieces, if it is not asked for more than
`most` octets. -/
def Supplies (read : ReadFn σ) (R : σ → Bytes → Prop) (most : ℕ) : Prop :=
  ∀ s b n, R s b → 0 < n → n ≤ most → ∃ d b' s', read s n = (some d,s') ∧ b = d ++ b' ∧ R s' b' ∧
    d.length ≤ n ∧ (d = [] → b = [])

theorem Supplies.mono {read : ReadFn σ} {R : σ → Bytes → Prop} {most fewer : ℕ}
    (h : Supplies read R most) (hle : fewer ≤ most) : Supplies read R fewer :=
  fun s b n hs hn hmost => h s b n hs hn (hmost.trans hle)

/-- The writer takes a positive number of the octets it is offered; `taken` is what it has taken. -/
def Accepts (write : WriteFn τ) (taken : τ → Bytes) : Prop :=
  ∀ t data, data ≠ [] → ∃ (n : ℕ) (t' : τ), write t data = ((n : ℤ),t') ∧ 0 < n ∧ n ≤ data.length ∧
    taken t' = taken t ++ data.take n

/-- Whatever a writer answers, it has taken a beginning of the octets it was offered, and a positive
answer counts them. -/
def Transmits (write : WriteFn τ) (taken : τ → Bytes) : Prop :=
  ∀ t data, ∃ n ≤ data.length, taken (write t data).2 = taken t ++ data.take n ∧
    (0 < (write t data).1 → (write t data).1 ≤ data.length → (write t data).1 = n)

/-! The callbacks that cut nothing up. -/

def wholeRead : ReadFn Bytes := fun s n => (some (s.take n),s.drop n)

def wholeWrite : WriteFn Bytes := fun t data => (data.length,t ++ data)

theorem wholeRead_delivers : Delivers wholeRead Eq := by
  rintro s _ n rfl hn
  refine ⟨s.take n,s.drop n,s.drop n,rfl,(List.take_append_drop n s).symm,rfl,
    List.length_take_le n s,fun h => ?_⟩
  cases s with
  | nil => rfl
  | cons c s => obtain ⟨m,rfl⟩ : ∃ m, n = m + 1 := ⟨n - 1,by omega⟩; cases h

/-- One octet at a time. -/
def octetRead : ReadFn Bytes := fun s _ => (some (s.take 1),s.drop 1)

theorem octetRead_delivers : Delivers octetRead Eq := by
  rintro s _ n rfl hn
  refine ⟨s.take 1,s.drop 1,s.drop 1,rfl,(List.take_append_drop 1 s).symm,rfl,?_,fun h => ?_⟩
  · exact (List.length_take_le 1 s).trans hn
  · cases s with
    | nil => rfl
    | cons c s => cases h

/-- A reader that goes on with the stream where another one has given up, or has not kept to it. -/
def patched (read : ReadFn σ) : ReadFn (σ × Bytes) := fun (s,b) n =>
  match read s n with
  | (some d,s') =>
    if d ≠ [] ∧ d.length ≤ n ∧ d.isPrefixOf b then (some d,(s',b.drop d.length))
    else (some (b.take n),(s',b.drop n))
  | (none,s') => (some (b.take n),(s',b.drop n))

theorem patched_delivers (read : ReadFn σ) : Delivers (patched read) fun s b => s.2 = b := by
  rintro ⟨s,b⟩ b' n hb hn
  obtain rfl : b = b' := hb
  have hgoOn : ∀ s' : σ, ∃ d b' st, ((some (b.take n),(s',b.drop n)) : Option Bytes × (σ × Bytes)) =
      (some d,st) ∧ b = d ++ b' ∧ st.2 = b' ∧ d.length ≤ n ∧ (d = [] → b = []) := by
    intro s'
    refine ⟨b.take n,b.drop n,(s',b.drop n),rfl,(List.take_append_drop n b).symm,rfl,
      List.length_take_le n b,fun h => ?_⟩
    rcases List.take_eq_nil_iff.mp h with h0 | hb
    · omega
    · exact hb
  unfold patched
  simp only
  split
  · rename_i d s' hread
    split
    · rename_i hd
      obtain ⟨hne,hle,hpre⟩ := hd
      obtain ⟨more,rfl⟩ := List.isPrefixOf_iff_prefix.mp hpre
      exact ⟨d,more,(s',(d ++ more).drop d.length),rfl,rfl,List.drop_left,hle,
        fun h => absurd h hne⟩
    · exact hgoOn s'
  · exact hgoOn _

/-- Where the other reader keeps to the stream, its reads are returned as they are. -/
theorem patched_of_draws {read : ReadFn σ} {R : σ → Bytes → Prop} (h : Draws read R) {s s' : σ}
    {b d : Bytes} {n : ℕ} (hs : R s b) (hn : 0 < n) (hread : read s n = (some d,s')) (hne : d ≠ [])
    (hle : d.length ≤ n) : ∃ b', patched read (s,b) n = (some d,(s',b')) ∧ R s' b' := by
  obtain ⟨b',rfl,hs'⟩ := h s b n d s' hs hn hread
  refine ⟨b',?_,hs'⟩
  simp only [patched, hread]
  rw [if_pos ⟨hne,hle,List.isPrefixOf_iff_prefix.mpr (List.prefix_append d b')⟩, List.drop_left]

theorem wholeWrite_accepts : Accepts wholeWrite id := by
  intro t data hdata
  exact ⟨data.length,t ++ data,rfl,List.length_pos_of_ne_nil hdata,le_refl _,by simp⟩

/-- The loop around every write callback. -/
def writeAll (write : WriteFn τ) (t : τ) (data : Bytes) : Bool × τ :=
  if data = [] then (true,t)
  else match write t data with
    | (result,t') =>
      if result ≤ 0 ∨ (data.length : ℤ) < result then (false,t')
      else writeAll write t' (data.drop result.toNat)
termination_by data.length
decreasing_by
  rename_i hne hres
  have : 0 < data.length := List.length_pos_of_ne_nil hne
  simp only [List.length_drop]
  omega

theorem writeAll_nil (write : WriteFn τ) (t : τ) : writeAll write t [] = (true,t) := by
  rw [writeAll, if_pos rfl]

/-- From `P` a write that counts what it has taken stays in `P`; any other ends in `Q`. -/
def Keeps (write : WriteFn τ) (P Q : τ → Prop) : Prop :=
  ∀ t data, data ≠ [] → P t →
    if (write t data).1 ≤ 0 ∨ (data.length : ℤ) < (write t data).1 then Q (write t data).2
    else P (write t data).2

theorem Keeps.writeAll {write : WriteFn τ} {P Q : τ → Prop} (h : Keeps write P Q) {t : τ}
    (ht : P t) (data : Bytes) : if (Callback.writeAll write t data).1 then
      P (Callback.writeAll write t data).2 else Q (Callback.writeAll write t data).2 := by
  fun_induction Callback.writeAll write t data with
  | case1 t => exact ht
  | case2 t data hne result t' hw hbad =>
    have hstep := h t data hne ht
    rw [hw, if_pos hbad] at hstep
    exact hstep
  | case3 t data hne result t' hw hgood ih =>
    have hstep := h t data hne ht
    rw [hw, if_neg hgood] at hstep
    exact ih hstep

/-- A willing writer gets everything, however it cuts it up. -/
theorem writeAll_accepts {write : WriteFn τ} {taken : τ → Bytes} (h : Accepts write taken) (t : τ)
    (data : Bytes) : ∃ t', writeAll write t data = (true,t') ∧ taken t' = taken t ++ data := by
  fun_induction writeAll write t data with
  | case1 t => exact ⟨t,rfl,by simp⟩
  | case2 t data hne result t' hw hbad =>
    exfalso
    obtain ⟨n,t2,heq,hpos,hle,-⟩ := h t data hne
    cases hw.symm.trans heq
    omega
  | case3 t data hne result t' hw hgood ih =>
    obtain ⟨n,t2,heq,hpos,hle,htaken⟩ := h t data hne
    cases hw.symm.trans heq
    obtain ⟨t3,hrun,hlog⟩ := ih
    refine ⟨t3,hrun,?_⟩
    rw [hlog, htaken, List.append_assoc, Int.toNat_natCast, List.take_append_drop]

/-- Any writer has taken a beginning of the octets, and all of them if the loop succeeds. -/
theorem writeAll_transmits {write : WriteFn τ} {taken : τ → Bytes} (h : Transmits write taken)
    (t : τ) (data : Bytes) : ∃ n ≤ data.length,
      taken (writeAll write t data).2 = taken t ++ data.take n ∧
      ((writeAll write t data).1 = true → n = data.length) := by
  fun_induction writeAll write t data with
  | case1 t => exact ⟨0,by simp,by simp,by simp⟩
  | case2 t data hne result t' hw hbad =>
    obtain ⟨n,hn,hlog,-⟩ := h t data
    rw [hw] at hlog
    exact ⟨n,hn,hlog,by simp⟩
  | case3 t data hne result t' hw hgood ih =>
    obtain ⟨n,hn,hlog,hcount⟩ := h t data
    rw [hw] at hlog hcount
    obtain ⟨m,hm,hlog',hall⟩ := ih
    have hres : result.toNat = n := by
      have := hcount (by omega) (by omega)
      omega
    rw [hres] at hlog' hm hall ⊢
    simp only [List.length_drop] at hm hall
    refine ⟨n + m,by omega,?_,fun hok => by have := hall hok; omega⟩
    rw [hlog', hlog, List.append_assoc, ← List.take_add]

end

end Espresso.Callback
