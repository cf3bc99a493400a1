import ProjectShell.Proofs.CommandRequests
import ProjectShell.Proofs.Reload

namespace ProjectShell

theorem Path.normalize_eq_self_iff {key : String} :
    normalize key = .ok key ↔ IsKey key.toList ∧ Text.trimmed key = key := by
  constructor
  · intro hn
    refine ⟨isKey_of_key? (normalize_eq_ok_iff.1 hn), ?_⟩
    by_contra hne
    have hlt := length_keyOf_lt hne
    rw [keyOf_eq hn] at hlt
    exact hlt.ne rfl
  · exact fun h => normalize_of_isKey h.1 h.2

namespace FileMap

def WellAddressed (m : FileMap) : Prop := ∀ key ∈ m.keys, Path.normalize key = .ok key

instance (m : FileMap) : Decidable m.WellAddressed :=
  inferInstanceAs (Decidable (∀ key ∈ m.keys, Path.normalize key = .ok key))

variable {m : FileMap}

theorem WellKept.wellAddressed_iff (h : m.WellKept) :
    m.WellAddressed ↔ ∀ key ∈ m.keys, Text.trimmed key = key := by
  refine forall₂_congr (fun key hk => ?_)
  obtain ⟨file, hfile⟩ := Option.isSome_iff_exists.1 (SortedMap.mem_keys_iff.1 hk)
  rw [Path.normalize_eq_self_iff]
  exact and_iff_right (h key file hfile).1

theorem WellAddressed.erase (h : m.WellAddressed) (key : String) :
    WellAddressed (SortedMap.erase m key) :=
  fun key' hk => h key' (SortedMap.mem_keys_erase.1 hk).2

theorem exists_key_of_read? {path : String} {file : File} (h : m.read? path = some file) :
    ∃ key ∈ m.keys, Path.normalize path = .ok key := by
  rw [read?] at h
  split at h
  · rename_i key hn
    exact ⟨key, SortedMap.mem_keys_iff.2 (h ▸ rfl), hn⟩
  · cases h

end FileMap

theorem FileStore.write_of_normalize {path key : String} (hn : Path.normalize path = .ok key)
    (s : FileStore) (content : String) :
    s.write path content = (.ok (!s.files.contains key),
      s.change (s.files.insert key (File.new key content s.now))) := by
  rw [write, hn]

theorem FileStore.read?_write_of_normalize {path key : String} (hn : Path.normalize path = .ok key)
    (s : FileStore) (content : String) :
    (s.write path content).2.read? path = some (File.new key content s.now) := by
  rw [write_of_normalize hn, read?, FileMap.read?, hn]
  exact (SortedMap.get?_insert ..).trans (if_pos rfl)

theorem FileStore.delete_of_mem {s : FileStore} {path key : String}
    (hn : Path.normalize path = .ok key) (hk : key ∈ s.files.keys) :
    s.delete path = (.ok (), s.change (s.files.erase key)) := by
  have hc : s.files.contains key = true := SortedMap.mem_keys_iff.1 hk
  rw [delete, hn]
  exact if_pos hc

namespace Attempt

theorem run_bind_of_ok {α β : Type} {s t : FileStore} {x : Attempt α} {a : α}
    (h : Script.run s x.run = (.ok a, t)) (f : α → Attempt β) :
    Script.run s (x >>= f).run = Script.run t (f a).run := by
  rw [ExceptT.run_bind, Script.run_bind, h]

variable {α β : Type} {P : FileStore → Prop} {Q : α → FileStore → Prop}
  {R : β → FileStore → Prop}

def Completes (P : FileStore → Prop) (x : Attempt α) (Q : α → FileStore → Prop) : Prop :=
  ∀ s, P s → ∃ a t, Script.run s x.run = (.ok a, t) ∧ Q a t

theorem completes_pure {a : α} (h : ∀ s, P s → Q a s) : Completes P (pure a) Q :=
  fun s hs => ⟨a, s, rfl, h s hs⟩

theorem completes_done (a : α) : Completes P (pure a) (fun _ => P) :=
  completes_pure (fun _ hs => hs)

theorem completes_safely {x : Script α} (h : ∀ s, P s → Q (x.run s).1 (x.run s).2) :
    Completes P (safely x) Q :=
  fun s hs => ⟨(x.run s).1, (x.run s).2, run_safely x s, h s hs⟩

theorem completes_read {f : View → α} (h : ∀ s, P s → Q (f s.view) s) : Completes P (read f) Q :=
  completes_safely h

theorem Completes.bind {x : Attempt α} {f : α → Attempt β} (hx : Completes P x Q)
    (hf : ∀ a, Completes (Q a) (f a) R) : Completes P (x >>= f) R := by
  intro s hs
  obtain ⟨a, t, hrun, ht⟩ := hx s hs
  obtain ⟨b, u, hrun', hu⟩ := hf a t ht
  exact ⟨b, u, (run_bind_of_ok hrun f).trans hrun', hu⟩

theorem Completes.discard {x : Attempt α} (h : Completes P x (fun _ => P)) :
    Completes P (discard x) (fun _ => P) := by
  rw [discard_eq]
  exact h.bind (fun _ => completes_done _)

theorem completes_forEach {γ : Type} {f : γ → Attempt Report} {xs : List γ}
    (h : ∀ x ∈ xs, Completes P (f x) (fun _ => P)) :
    Completes P (Report.forEach f xs) (fun _ => P) := by
  induction xs with
  | nil => exact completes_done _
  | cons x xs ih =>
    obtain ⟨hx, hxs⟩ := List.forall_mem_cons.1 h
    rw [Report.forEach]
    exact hx.bind (fun _ => (ih hxs).bind (fun _ => completes_done _))

end Attempt

open Attempt

namespace Command

theorem completes_deleteAll {paths : List String} (hnodup : paths.Nodup) :
    Completes (fun s => s.files.WellAddressed ∧ ∀ path ∈ paths, path ∈ s.files.keys)
      (deleteAll paths) (fun _ s => s.files.WellAddressed) := by
  induction paths with
  | nil => exact completes_pure (fun _ hs => hs.1)
  | cons path paths ih =>
    obtain ⟨hpath, hpaths⟩ := List.nodup_cons.1 hnodup
    rw [deleteAll]
    refine Completes.bind ?_ (fun _ => ih hpaths)
    rintro s ⟨hs, hmem⟩
    obtain ⟨hp, hps⟩ := List.forall_mem_cons.1 hmem
    refine ⟨(), _, FileStore.delete_of_mem (hs path hp) hp, hs.erase path, ?_⟩
    intro path' hp'
    have hne : path' ≠ path := by
      rintro rfl
      exact hpath hp'
    exact SortedMap.mem_keys_erase.2 ⟨hne, hps path' hp'⟩

theorem completes_rmOperand (o : Options) (operand : String) :
    Completes (fun s => s.files.WellAddressed) (rmOperand o operand)
      (fun _ s => s.files.WellAddressed) := by
  have hdone (r : Report) (m : FileMap) :
      Completes (fun s => s.files = m ∧ m.WellAddressed) (pure r)
        (fun _ s => s.files.WellAddressed) :=
    completes_pure (fun s hs => hs.1 ▸ hs.2)
  rw [rmOperand]
  refine (completes_read (f := View.files) (Q := fun m s => s.files = m ∧ m.WellAddressed)
    (fun s hs => ⟨rfl, hs⟩)).bind (fun m => ?_)
  split
  · rename_i hfile
    obtain ⟨file, hread⟩ := Option.isSome_iff_exists.1 hfile
    obtain ⟨key, hk, hn⟩ := FileMap.exists_key_of_read? hread
    refine Completes.bind (Q := fun _ s => s.files.WellAddressed) ?_
      (fun _ => completes_done _)
    rintro s ⟨rfl, hs⟩
    exact ⟨(), _, FileStore.delete_of_mem hn hk, hs.erase key⟩
  · dsimp only
    split
    · exact hdone _ m
    · rename_i dir hn
      split
      · exact hdone _ m
      · split
        · split
          · refine Completes.bind ?_ (fun _ => completes_done _)
            rintro s ⟨rfl, hs⟩
            refine completes_deleteAll (s.files.nodup_keys.filter _) s ⟨hs, ?_⟩
            exact fun path hp => (List.mem_filter.1 hp).1
          · exact hdone _ m
        · exact hdone _ m

theorem completes_rm (args : List String) :
    Completes (fun s => s.files.WellAddressed) (rm args) (fun _ s => s.files.WellAddressed) := by
  rw [rm]
  split
  · exact completes_done _
  · exact (completes_forEach (fun operand _ => completes_rmOperand _ operand)).bind
      (fun _ => completes_done _)

namespace Sed

theorem completes_editSource (p : Program) (inPlace : Bool) {source : Source}
    (h : ∀ path, source.name = some path → ∃ key, Path.normalize path = .ok key) :
    Completes (fun _ => True) (editSource p inPlace source) (fun _ _ => True) := by
  rw [editSource]
  split
  · exact completes_done _
  · rename_i path hname
    obtain ⟨key, hn⟩ := h path hname
    split
    · exact completes_done _
    · split
      · exact completes_done _
      · refine Completes.bind (Completes.discard ?_) (fun _ => completes_done _)
        exact fun s _ => ⟨_, _, FileStore.write_of_normalize hn s _, trivial⟩

theorem completes_run (args : List String) (stdin : Option String) :
    Completes (fun _ => True) (run args stdin) (fun _ _ => True) := by
  rw [run]
  dsimp only
  split
  · exact completes_done _
  · split
    · exact completes_done _
    · split
      · exact completes_done _
      · refine (completes_read (f := id) (Q := fun _ _ => True) (fun _ _ => trivial)).bind
          (fun v => (completes_forEach (fun source hs => ?_)).bind (fun _ => completes_done _))
        refine completes_editSource _ _ (fun path hname => ?_)
        -- A named source was read, so its name has a key, in this store and in any other.
        have hread := (View.mem_sources hs hname).2
        rw [View.readOperand] at hread
        split at hread
        · rename_i file hfile
          obtain ⟨key, -, hn⟩ := FileMap.exists_key_of_read? hfile
          exact ⟨key, hn⟩
        · split at hread <;> cases hread

end Sed

end Command

namespace Builtin

theorem completes_run (inner : String → List String → Script Outcome) (b : Builtin)
    (args : List String) (stdin : Option String) :
    Completes (fun s => s.files.WellAddressed) (b.run inner args stdin) (fun _ _ => True) := by
  cases b
  case rm =>
    intro s hs
    obtain ⟨o, t, hrun, -⟩ := Command.completes_rm args s hs
    exact ⟨o, t, hrun, trivial⟩
  case sed => exact fun s _ => Command.Sed.completes_run args stdin s trivial
  case echo | mkdir | cd | true | false | help => exact completes_pure (fun _ _ => trivial)
  case mv | cp | touch | tee | xargs | npm | errors | plan | undo =>
    exact completes_safely (fun _ _ => trivial)
  all_goals exact completes_read (fun _ _ => trivial)

theorem run_never_faults {s : FileStore} (hs : s.files.WellAddressed) (b : Builtin)
    (args : List String) (stdin : Option String) :
    (∀ inner, ∃ o t, Script.run s (b.run inner args stdin).run = (.ok o, t)) ∧
      ∃ o t, Script.run s (b.run dispatchInner args stdin).run = (.ok o, t) ∧
        (dispatch b.name args stdin).run s = (o, t) := by
  have hrun (inner : String → List String → Script Outcome) :
      ∃ o t, Script.run s (b.run inner args stdin).run = (.ok o, t) := by
    obtain ⟨o, t, h, -⟩ := completes_run inner b args stdin s hs
    exact ⟨o, t, h⟩
  refine ⟨hrun, ?_⟩
  obtain ⟨o, t, h⟩ := hrun dispatchInner
  refine ⟨o, t, h, ?_⟩
  rw [dispatch_name, guarded, Script.run_bind, h]
  rfl

theorem run_never_faults_nested :
    let files := [("a/b/c", "x"), ("a/x", "y"), ("c", "z")]
    let s := ((FileStore.new ⟨0⟩).seed files).2
    let args := ["-r", "a/b", "a", "a", "./c", "c"]
    s.files.WellAddressed ∧ ((dispatch "rm" args none).run s).2.files.keys = [] ∧
      ∃ o t, Script.run s (rm.run dispatchInner args none).run = (.ok o, t) ∧
        (dispatch "rm" args none).run s = (o, t) := by
  intro files s args
  have hs : s.files.WellAddressed := by decide +kernel
  exact ⟨hs, by decide +kernel, (run_never_faults hs .rm args none).2⟩

-- A blank at the end of a key is lost when the key is taken for a path.
example :
    let s := ((FileStore.new ⟨0⟩).write "a/b /." "").2
    (s.files.keys, ((dispatch "rm" ["-r", "a"] none).run s).1.stderr) =
      (["a/b "], "rm: internal error: No such file or directory: a/b ") := by
  decide +kernel

end Builtin

end ProjectShell
