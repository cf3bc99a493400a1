import Mathlib.Logic.Relation
import Mathlib.Logic.Function.Iterate
import ProjectShell.Proofs.CommandRequests
import ProjectShell.Proofs.StoreCalls
import ProjectShell.Shell.Line

namespace ProjectShell

namespace Script

variable {α : Type}

def edits (s : FileStore) : Script α → List Edit
  | done _ => []
  | look k => edits s (k s.view)
  | edit e k => e :: edits (s.apply e).2 (k (s.apply e).1)

theorem edits_bind {β : Type} (s : FileStore) (x : Script α) (f : α → Script β) :
    (x >>= f).edits s = x.edits s ++ (f (x.run s).1).edits (x.run s).2 := by
  induction x generalizing s with
  | done a => rfl
  | look k ih => exact ih s.view s
  | edit e k ih => exact congrArg (e :: ·) (ih (s.apply e).1 (s.apply e).2)

theorem Asks.of_mem_edits {Asked : Edit → Prop} {Q : α → Prop} {x : Script α}
    (h : x.Asks (fun _ => True) Asked Q) {s : FileStore} {e : Edit} (he : e ∈ x.edits s) :
    Asked e := by
  induction x generalizing s with
  | done a => exact absurd he List.not_mem_nil
  | look k ih => exact ih s.view (h s.view trivial) he
  | edit e' k ih =>
    rcases List.mem_cons.1 he with rfl | he
    · exact h.1
    · exact ih (s.apply e').1 (h.2 (s.apply e').1) he

end Script

theorem rollback_mem_edits_dispatch_iff (s : FileStore) {b : Builtin} (hx : b ≠ .xargs)
    (args : List String) (stdin : Option String) :
    Edit.rollback ∈ (dispatch b.name args stdin).edits s ↔ b = .undo := by
  rw [dispatch_name]
  constructor
  · intro h
    by_contra hu
    have hrun : Attempt.Asks (fun _ => True) (· ≠ .rollback) (fun _ => True)
        (b.run dispatchInner args stdin) :=
      Builtin.asks_run_of_ne_undo hu (fun hb => absurd hb hx) args stdin
    exact (asks_guarded b.name hrun).of_mem_edits h rfl
  · rintro rfl
    exact List.mem_cons_self

theorem rollback_mem_edits_dispatchInner_iff (s : FileStore) (b : Builtin) (args : List String) :
    Edit.rollback ∈ (dispatchInner b.name args).edits s ↔ b = .undo := by
  rw [dispatchInner_name]
  constructor
  · intro h
    by_contra hu
    have hrun : Attempt.Asks (fun _ => True) (· ≠ .rollback) (fun _ => True)
        (b.run (fun _ _ => pure {}) args none) :=
      Builtin.asks_run_of_ne_undo hu (fun _ _ _ => (Script.asks_pure _).2 trivial) args none
    exact (asks_guarded b.name hrun).of_mem_edits h rfl
  · rintro rfl
    exact List.mem_cons_self

namespace FileStore

def applyAll (s : FileStore) (es : List Edit) : FileStore := es.foldl (fun t e => (t.apply e).2) s

theorem run_eq_applyAll {α : Type} (s : FileStore) (x : Script α) :
    (x.run s).2 = s.applyAll (x.edits s) := by
  induction x generalizing s with
  | done a => rfl
  | look k ih => exact ih s.view s
  | edit e k ih => exact ih (s.apply e).1 (s.apply e).2

theorem execute_eq_applyAll (s : FileStore) (line : String) :
    (s.execute line).2 = s.applyAll ((runLine line).edits s) :=
  run_eq_applyAll s (runLine line)

end FileStore

inductive UndoStep : FileMap × History → FileMap × History → Prop
  | change (files files' : FileMap) (h : History) : UndoStep (files, h) (files', h.push files)
  | back {files files' : FileMap} {h h' : History} (hp : h.pop? = some (files', h')) :
      UndoStep (files, h) (files', h')

namespace FileStore

theorem undoSteps_apply (s : FileStore) (e : Edit) :
    Relation.ReflTransGen UndoStep (s.files, s.history)
      ((s.apply e).2.files, (s.apply e).2.history) := by
  have hm := marked_apply s e
  generalize e.mark (s.apply e).1 = mark at hm
  generalize (s.apply e).2 = t at hm ⊢
  cases hm with
  | idle hf hh => rw [hf, hh]
  | change files => exact .single (.change ..)
  | undo hp => exact .single (.back hp)

theorem undoSteps_applyAll (s : FileStore) (es : List Edit) :
    Relation.ReflTransGen UndoStep (s.files, s.history)
      ((s.applyAll es).files, (s.applyAll es).history) := by
  induction es generalizing s with
  | nil => exact .refl
  | cons e es ih => exact (undoSteps_apply s e).trans (ih (s.apply e).2)

/-- How many snapshots the bound keeps from being held until the end: each change that meets a
full history costs one. -/
def dropped (s : FileStore) : List Edit → Nat
  | [] => 0
  | e :: es =>
      (if e.mark (s.apply e).1 = .change ∧ s.history.depth ≤ s.history.size then 1 else 0) +
        dropped (s.apply e).2 es

def rolledBack (n : Nat) (s : FileStore) : FileStore := (fun t => t.rollback.2)^[n] s

theorem rolledBack_succ (n : Nat) (s : FileStore) :
    s.rolledBack (n + 1) = (s.rolledBack n).rollback.2 :=
  Function.iterate_succ_apply' ..

def SamePast (s t : FileStore) : Prop := s.files = t.files ∧ s.history = t.history

theorem SamePast.rollback {s t : FileStore} (h : SamePast s t) :
    SamePast s.rollback.2 t.rollback.2 := by
  obtain ⟨hf, hh⟩ := h
  simp only [FileStore.rollback, hh]
  cases t.history.pop? with
  | none => exact ⟨hf, hh⟩
  | some p => exact ⟨rfl, rfl⟩

theorem rollback_change {s : FileStore} (files : FileMap) (hd : s.history.size < s.history.depth) :
    (s.change files).rollback = (true, s) := by
  have hp : (s.change files).history.pop? = some (s.files, s.history) := History.pop?_push hd
  rw [rollback, hp]
  rfl

end FileStore

theorem Edit.eq_rollback_of_mark {e : Edit} {r : e.Reply} (h : e.mark r = .undo) :
    e = .rollback := by
  cases e with
  | write | append | delete | setTaskStatus => cases r <;> cases h
  | rename | addDependency | removeDependency =>
    cases r with
    | error => cases h
    | ok =>
      rw [mark] at h
      split at h <;> cases h
  | clearErrors => cases h
  | rollback => rfl

namespace FileStore

theorem exists_rolledBack_applyAll (s : FileStore) (es : List Edit) (hu : Edit.rollback ∉ es)
    (hd : s.dropped es = 0) :
    ∃ n, (s.applyAll es).history.size = s.history.size + n ∧
      SamePast ((s.applyAll es).rolledBack n) s := by
  -- The steps back that undo the later edits come first; a change costs one more behind them.
  induction es generalizing s with
  | nil => exact ⟨0, rfl, rfl, rfl⟩
  | cons e es ih =>
    rw [List.mem_cons, not_or] at hu
    rw [dropped, Nat.add_eq_zero_iff] at hd
    obtain ⟨n, hn, hb⟩ := ih (s.apply e).2 hu.2 hd.2
    have hroom := hd.1
    have hne : e.mark (s.apply e).1 ≠ .undo := fun h => hu.1 (Edit.eq_rollback_of_mark h).symm
    have hm := marked_apply s e
    change ∃ n, ((s.apply e).2.applyAll es).history.size = s.history.size + n ∧
      SamePast (((s.apply e).2.applyAll es).rolledBack n) s
    generalize e.mark (s.apply e).1 = mark at hm hne hroom
    generalize (s.apply e).2 = t at hm hn hb ⊢
    cases hm with
    | idle hf hh =>
      exact ⟨n, by rw [hn, hh], hb.1.trans hf, hb.2.trans hh⟩
    | change files =>
      have hlt : s.history.size < s.history.depth := by
        by_contra hfull
        simp [Nat.le_of_not_lt hfull] at hroom
      have hsize : (s.change files).history.size = s.history.size + 1 := by
        have := History.size_push s.history s.files
        change (s.history.push s.files).size = _
        omega
      refine ⟨n + 1, by omega, ?_⟩
      have hback := hb.rollback
      rw [rollback_change files hlt] at hback
      rwa [rolledBack_succ]
    | undo hp => exact absurd rfl hne

theorem execute_undoable (s : FileStore) (line : String) :
    let t := (s.execute line).2
    let es := (runLine line).edits s
    Relation.ReflTransGen UndoStep (s.files, s.history) (t.files, t.history) ∧
      (Edit.rollback ∉ es → s.dropped es = 0 →
        (t.rolledBack (t.history.size - s.history.size)).files = s.files) := by
  intro t es
  have ht : t = s.applyAll es := execute_eq_applyAll s line
  refine ⟨ht ▸ undoSteps_applyAll s es, ?_⟩
  intro hu hd
  obtain ⟨n, hn, hb⟩ := exists_rolledBack_applyAll s es hu hd
  rw [ht, hn, Nat.add_sub_cancel_left]
  exact hb.1

theorem execute_undoable_chain :
    let s := ((new ⟨0⟩).write "a" "1").2
    let line := "echo a | xargs rm && echo x > b; touch c"
    let t := (s.execute line).2
    let es := (runLine line).edits s
    (Edit.rollback ∉ es ∧ s.dropped es = 0) ∧ t.history.size - s.history.size = 3 ∧
      (t.rolledBack (t.history.size - s.history.size)).files = s.files :=
  ⟨by decide +kernel, by decide +kernel,
    (execute_undoable _ _).2 (by decide +kernel) (by decide +kernel)⟩

end FileStore

end ProjectShell
