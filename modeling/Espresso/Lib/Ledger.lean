import Mathlib.Data.List.Nodup
import Mathlib.Data.List.Range
import Mathlib.Data.List.Perm.Basic
import Mathlib.Data.Nat.Notation

/-! Things that are handed out and given back, and who holds which of them. -/
namespace Espresso

/-- Things are numbered in the order in which they are handed out. -/
structure Ledger where
  issued : ℕ
  returned : List ℕ
  deriving DecidableEq

namespace Ledger

def start : Ledger := ⟨0,[]⟩

def issue (l : Ledger) : Ledger := { l with issued := l.issued + 1 }

def giveBack (n : ℕ) (l : Ledger) : Ledger := { l with returned := n :: l.returned }

/-- Whatever has been handed out is either held, once, or has been given back, once. -/
def Balanced (held : List ℕ) (l : Ledger) : Prop := (held ++ l.returned).Perm (List.range l.issued)

variable {held held' : List ℕ} {l : Ledger} {n : ℕ}

theorem balanced_start : start.Balanced [] := List.Perm.refl _

theorem Balanced.perm (h : l.Balanced held) (hheld : held'.Perm held) : l.Balanced held' :=
  (hheld.append_right _).trans h

theorem Balanced.issue (h : l.Balanced held) : l.issue.Balanced (l.issued :: held) := by
  unfold Balanced Ledger.issue
  rw [List.range_succ, List.cons_append]
  exact (h.cons _).trans (List.perm_append_singleton _ _).symm

theorem Balanced.giveBack (h : l.Balanced (n :: held)) : (l.giveBack n).Balanced held :=
  List.perm_middle.trans h

theorem Balanced.nodup (h : l.Balanced held) : (held ++ l.returned).Nodup :=
  h.nodup_iff.mpr List.nodup_range

/-- Nothing is given back twice. -/
theorem Balanced.returned_nodup (h : l.Balanced held) : l.returned.Nodup :=
  (List.nodup_append.mp h.nodup).2.1

/-- Nothing is in two hands. -/
theorem Balanced.held_nodup (h : l.Balanced held) : held.Nodup :=
  (List.nodup_append.mp h.nodup).1

/-- What somebody holds has not been given back. -/
theorem Balanced.not_returned (h : l.Balanced held) (hn : n ∈ held) : n ∉ l.returned :=
  fun hr => (List.nodup_append.mp h.nodup).2.2 n hn n hr rfl

/-- Nothing is lost. -/
theorem Balanced.held_or_returned (h : l.Balanced held) (hn : n < l.issued) :
    n ∈ held ∨ n ∈ l.returned :=
  List.mem_append.mp (h.mem_iff.mpr (List.mem_range.mpr hn))

/-- Once nobody holds anything, everything has been given back. -/
theorem Balanced.all_returned (h : l.Balanced []) : l.returned.Perm (List.range l.issued) := h

end Ledger
end Espresso
