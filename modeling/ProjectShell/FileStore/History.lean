import ProjectShell.FileStore.File
/-!
The file maps before the last changes, the latest first, no more of them than the depth.
-/

namespace ProjectShell

structure History where
  snapshots : List FileMap
  depth : Nat
  bounded : snapshots.length ≤ depth
deriving DecidableEq

namespace History

def new (depth : Nat) : History := ⟨[], depth, Nat.zero_le _⟩

def push (h : History) (files : FileMap) : History :=
  ⟨(files :: h.snapshots).take h.depth, h.depth, List.length_take_le ..⟩

def pop? : History → Option (FileMap × History)
  | ⟨[], _, _⟩ => none
  | ⟨files :: rest, depth, bounded⟩ => some (files, ⟨rest, depth, Nat.le_of_succ_le bounded⟩)

def size (h : History) : Nat := h.snapshots.length

def clear (h : History) : History := new h.depth

theorem size_le (h : History) : h.size ≤ h.depth := h.bounded

theorem size_push (h : History) (files : FileMap) :
    (h.push files).size = min h.depth (h.size + 1) := by
  simp [push, size, List.length_take]

theorem pop?_eq_none_iff {h : History} : h.pop? = none ↔ h.size = 0 := by
  obtain ⟨snapshots, depth, bounded⟩ := h
  cases snapshots <;> simp [pop?, size]

theorem pop?_eq_some {h h' : History} {files : FileMap} (hp : h.pop? = some (files, h')) :
    h.snapshots = files :: h'.snapshots ∧ h.depth = h'.depth := by
  obtain ⟨snapshots, depth, bounded⟩ := h
  cases snapshots with
  | nil => simp [pop?] at hp
  | cons files rest =>
    cases hp
    exact ⟨rfl, rfl⟩

theorem pop?_push {h : History} {files : FileMap} (hd : h.size < h.depth) :
    (h.push files).pop? = some (files, h) := by
  obtain ⟨snapshots, depth, bounded⟩ := h
  cases depth with
  | zero => simp at hd
  | succ n =>
    have ht : snapshots.take n = snapshots := List.take_of_length_le (Nat.le_of_lt_succ hd)
    simp [push, pop?, ht]

end History

end ProjectShell
