import Mathlib

/-! Structures as a C compiler lays them out, in memory that is a list of cells. -/
namespace Espresso

/-! ### Reading and writing a range of cells -/

section
variable {α : Type} {cells cells' written : List α} {offset n start : ℕ}

def readAt (offset n : ℕ) (cells : List α) : List α := (cells.drop offset).take n

def writeAt (offset : ℕ) (written cells : List α) : List α :=
  cells.take offset ++ (written ++ cells.drop (offset + written.length))

theorem getElem?_readAt (i : ℕ) :
    (readAt offset n cells)[i]? = if i < n then cells[offset + i]? else none := by
  rw [readAt, List.getElem?_take, List.getElem?_drop]

theorem readAt_congr (h : ∀ i < n, cells[offset + i]? = cells'[offset + i]?) :
    readAt offset n cells = readAt offset n cells' := by
  apply List.ext_getElem?
  intro i
  rw [getElem?_readAt, getElem?_readAt]
  split
  · rename_i hi
    exact h i hi
  · rfl

theorem readAt_succ (h : start < cells.length) :
    readAt start (n + 1) cells = cells[start] :: readAt (start + 1) n cells := by
  rw [readAt, List.drop_eq_getElem_cons h, List.take_succ_cons, readAt]

theorem readAt_add (m : ℕ) :
    readAt start (m + n) cells = readAt start m cells ++ readAt (start + m) n cells := by
  rw [readAt, List.take_add, List.drop_drop, readAt, readAt]

theorem readAt_take {m : ℕ} (h : start + m ≤ n) :
    readAt start m (cells.take n) = readAt start m cells := by
  apply readAt_congr
  intro i hi
  rw [List.getElem?_take, if_pos (by omega)]

/-- What was read in full lies inside. -/
theorem le_length_of_readAt (h : (readAt start n cells).length = n) (hn : 0 < n) :
    start + n ≤ cells.length := by
  rw [readAt, List.length_take, List.length_drop] at h
  omega

/-- Reading inside what was read. -/
theorem readAt_readAt {m : ℕ} (h : start + m ≤ n) :
    readAt start m (readAt offset n cells) = readAt (offset + start) m cells := by
  apply List.ext_getElem?
  intro i
  simp only [getElem?_readAt]
  split
  · rw [if_pos (by omega), Nat.add_assoc]
  · rfl

theorem length_writeAt (h : start + written.length ≤ cells.length) :
    (writeAt start written cells).length = cells.length := by
  simp only [writeAt, List.length_append, List.length_take, List.length_drop]
  omega

theorem getElem?_writeAt (h : start + written.length ≤ cells.length) (i : ℕ) :
    (writeAt start written cells)[i]? =
      if start ≤ i ∧ i < start + written.length then written[i - start]? else cells[i]? := by
  have hlen : (cells.take start).length = start := by
    rw [List.length_take]
    omega
  rw [writeAt, List.getElem?_append, List.getElem?_append, hlen, List.getElem?_take,
    List.getElem?_drop]
  by_cases hbefore : i < start
  · rw [if_pos hbefore, if_pos hbefore, if_neg (by omega)]
  by_cases hinside : i - start < written.length
  · rw [if_neg hbefore, if_pos hinside, if_pos (by omega)]
  · rw [if_neg hbefore, if_neg hinside, if_neg (by omega)]
    congr 1
    omega

theorem readAt_writeAt_self (h : start + written.length ≤ cells.length) :
    readAt start written.length (writeAt start written cells) = written := by
  apply List.ext_getElem?
  intro i
  rw [getElem?_readAt, getElem?_writeAt h]
  split
  · rw [if_pos (by omega)]
    congr 1
    omega
  · rw [List.getElem?_eq_none (by omega)]

/-- A write elsewhere is not seen. -/
theorem readAt_writeAt_of_disjoint (h : start + written.length ≤ cells.length)
    (hdisjoint : offset + n ≤ start ∨ start + written.length ≤ offset) :
    readAt offset n (writeAt start written cells) = readAt offset n cells := by
  apply readAt_congr
  intro i hi
  rw [getElem?_writeAt h, if_neg (by omega)]

end

/-! ### Members and their offsets -/

structure Member where
  name : String
  size : ℕ
  align : ℕ

structure Field where
  name : String
  offset : ℕ
  size : ℕ
  deriving DecidableEq, Repr

/-- The next multiple of the alignment. -/
def alignUp (align n : ℕ) : ℕ := (n + align - 1) / align * align

/-- The members one after the other, each at the next offset that its alignment allows. -/
def layoutFrom : ℕ → List Member → List Field
  | _, [] => []
  | position, m :: ms =>
    let offset := alignUp m.align position
    ⟨m.name,offset,m.size⟩ :: layoutFrom (offset + m.size) ms

def layout (members : List Member) : List Field := layoutFrom 0 members

def alignof (members : List Member) : ℕ := (members.map Member.align).foldl max 1

def offsetof (members : List Member) (name : String) : ℕ :=
  (((layout members).find? fun f => f.name = name).map Field.offset).getD 0

/-- The end of the last member, rounded up to the alignment of the structure. -/
def structSize (members : List Member) : ℕ :=
  alignUp (alignof members) (((layout members).getLast?.map fun f => f.offset + f.size).getD 0)

/-- The cells of a field. -/
def fieldOf (members : List Member) (name : String) {α : Type} (cells : List α) : List α :=
  match (layout members).find? fun f => f.name = name with
  | some f => readAt f.offset f.size cells
  | none => []

end Espresso
