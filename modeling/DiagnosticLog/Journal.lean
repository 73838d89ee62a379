/-! Sequences that only grow at their end. The newest item is held first, so that adding items
costs no more than their own number, however many there are already; `toList` has them in the
order in which they came. -/

namespace DiagnosticLog

structure Journal (α : Type) where
  newestFirst : List α
  size : Nat
  size_eq : size = newestFirst.length
  deriving DecidableEq

namespace Journal

variable {α : Type}

def empty : Journal α := ⟨[], 0, rfl⟩

/-- The items, oldest first. -/
def toList (j : Journal α) : List α := j.newestFirst.reverse

/-- Add items, the first of them first. -/
def append (j : Journal α) (items : List α) : Journal α where
  newestFirst := items.reverseAux j.newestFirst
  size := j.size + items.length
  size_eq := by rw [j.size_eq, List.reverseAux_eq]; simp; omega

/-- Add one item. -/
def push (j : Journal α) (item : α) : Journal α where
  newestFirst := item :: j.newestFirst
  size := j.size + 1
  size_eq := by simp [j.size_eq]

/-- The items that came after so many others. -/
def since (j : Journal α) (count : Nat) : List α :=
  (j.newestFirst.take (j.size - count)).reverse

@[simp] theorem length_toList (j : Journal α) : j.toList.length = j.size := by
  simp [toList, j.size_eq]

@[simp] theorem toList_empty : (empty : Journal α).toList = [] := rfl

@[simp] theorem toList_append (j : Journal α) (items : List α) :
    (j.append items).toList = j.toList ++ items := by
  simp [toList, append, List.reverseAux_eq]

@[simp] theorem toList_push (j : Journal α) (item : α) :
    (j.push item).toList = j.toList ++ [item] := by
  simp [toList, push]

@[ext] theorem ext_toList {j k : Journal α} (h : j.toList = k.toList) : j = k := by
  obtain ⟨js, _, rfl⟩ := j
  obtain ⟨ks, _, rfl⟩ := k
  obtain rfl : js = ks := List.reverse_inj.mp h
  rfl

theorem since_eq_drop (j : Journal α) (count : Nat) : j.since count = j.toList.drop count := by
  rw [since, toList, List.drop_reverse, j.size_eq]

end Journal

end DiagnosticLog
