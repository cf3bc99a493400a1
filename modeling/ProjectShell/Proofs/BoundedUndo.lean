import ProjectShell.Proofs.StoreCalls

namespace ProjectShell

structure Beside where
  store : FileStore
  stack : List FileMap

namespace Beside

def recorded (stack : List FileMap) (files : FileMap) : Mark → List FileMap
  | .idle => stack
  | .change => files :: stack
  | .undo => stack.tail

def step (b : Beside) (c : Call) : Beside :=
  ⟨(b.store.call c).2, recorded b.stack b.store.files (b.store.call c).1⟩

def run (b : Beside) (calls : List Call) : Beside := calls.foldl step b

def start (s : FileStore) (older : List FileMap) : Beside := ⟨s, s.history.snapshots ++ older⟩

def Agrees (b : Beside) : Prop := b.store.history.snapshots <+: b.stack

theorem agrees_start (s : FileStore) (older : List FileMap) : (start s older).Agrees :=
  List.prefix_append ..

theorem agrees_step {b : Beside} (h : b.Agrees) (c : Call) : (b.step c).Agrees := by
  have hm := b.store.marked_call c
  rw [Agrees, step]
  generalize b.store.call c = r at hm
  obtain ⟨mark, t⟩ := r
  cases hm with
  | idle hf hh =>
    rw [hh]
    exact h
  | change files =>
    have hp : b.store.files :: b.store.history.snapshots <+: b.store.files :: b.stack :=
      List.cons_prefix_cons.2 ⟨rfl, h⟩
    exact (List.take_prefix ..).trans hp
  | undo hp =>
    have hs := (History.pop?_eq_some hp).1
    rw [Agrees, hs] at h
    obtain ⟨rest, hr⟩ := h
    exact ⟨rest, by rw [← hr]; rfl⟩

theorem depth_step (b : Beside) (c : Call) :
    (b.step c).store.history.depth = b.store.history.depth := by
  have hm := b.store.marked_call c
  rw [step]
  generalize b.store.call c = r at hm
  obtain ⟨mark, t⟩ := r
  cases hm with
  | idle hf hh => rw [hh]
  | change files => rfl
  | undo hp => exact (History.pop?_eq_some hp).2.symm

theorem run_invariant {b : Beside} (h : b.Agrees) (calls : List Call) :
    (b.run calls).Agrees ∧ (b.run calls).store.history.depth = b.store.history.depth := by
  induction calls generalizing b with
  | nil => exact ⟨h, rfl⟩
  | cons c calls ih =>
    obtain ⟨ha, hd⟩ := ih (agrees_step h c)
    exact ⟨ha, hd.trans (depth_step b c)⟩

theorem step_cases {b : Beside} (h : b.Agrees) (c : Call) :
    match (b.store.call c).1 with
    | .idle =>
      (b.step c).store.files = b.store.files ∧ (b.step c).store.history = b.store.history
    | .change =>
      (b.step c).store.history.size = min b.store.history.depth (b.store.history.size + 1)
    | .undo =>
      b.stack.head? = some (b.step c).store.files ∧
        (b.step c).store.history.size + 1 = b.store.history.size := by
  have hm := b.store.marked_call c
  rw [step]
  generalize b.store.call c = r at hm
  obtain ⟨mark, t⟩ := r
  cases hm with
  | idle hf hh => exact ⟨hf, hh⟩
  | change files => exact History.size_push ..
  | undo hp =>
    have hs := (History.pop?_eq_some hp).1
    rw [Agrees, hs] at h
    obtain ⟨rest, hr⟩ := h
    refine ⟨by rw [← hr]; rfl, ?_⟩
    rw [History.size, History.size, hs, List.length_cons]

end Beside

namespace FileStore

theorem rollback_eq_false_iff (s : FileStore) : s.rollback.1 = false ↔ s.history.size = 0 := by
  rw [← History.pop?_eq_none_iff, rollback]
  split <;> simp_all

theorem rollback_idle_iff (s : FileStore) :
    s.rollback = (false, s) ↔ s.history.size = 0 := by
  rw [← rollback_eq_false_iff]
  constructor
  · intro h
    rw [h]
  · intro h
    rw [rollback] at h ⊢
    split at h
    · cases h
    · rfl

end FileStore

theorem bounded_undo_refines_stack (s : FileStore) (older : List FileMap) (calls : List Call)
    (c : Call) :
    let b := (Beside.start s older).run calls
    let d := s.history.depth
    let k := b.store.history.size
    k ≤ d ∧ b.store.history.snapshots = b.stack.take k ∧
      (match (b.store.call c).1 with
        | .idle =>
          (b.step c).store.files = b.store.files ∧ (b.step c).store.history = b.store.history
        | .change => (b.step c).store.history.size = min d (k + 1)
        | .undo =>
          b.stack.head? = some (b.step c).store.files ∧ (b.step c).store.history.size + 1 = k) ∧
      (b.store.rollback.1 = false ↔ k = 0) ∧ (b.store.rollback = (false, b.store) ↔ k = 0) := by
  intro b d k
  obtain ⟨ha, hd⟩ := Beside.run_invariant (Beside.agrees_start s older) calls
  have hk : k ≤ d := Nat.le_trans b.store.history.size_le (Nat.le_of_eq hd)
  have hs : b.store.history.snapshots = b.stack.take k := List.prefix_iff_eq_take.1 ha
  have hc := Beside.step_cases ha c
  rw [hd] at hc
  exact ⟨hk, hs, hc, b.store.rollback_eq_false_iff, b.store.rollback_idle_iff⟩

end ProjectShell
