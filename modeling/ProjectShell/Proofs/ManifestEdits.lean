import ProjectShell.Proofs.Dependencies
import ProjectShell.Proofs.WrittenValues

namespace ProjectShell

namespace Manifest

open Json (Formed Members)

def Sound (members : Members) : Prop :=
  Formed Json.Number.ReadsBack Json.maxDepth (.obj members)

variable {members deps : Members} {P : Json.Number → Prop} {depth : Nat}

theorem Sound.readsBack (h : Sound members) : ReadsBack members := Json.parse_pretty h

theorem formed_dependenciesIn (h : Formed P (depth + 2) (.obj members)) :
    Formed P (depth + 1) (.obj (dependenciesIn members)) := by
  rw [dependenciesIn]
  split
  · rename_i deps hd
    exact (Formed.obj_iff.1 h).2 _ (Members.mem_of_get? hd)
  · exact .empty

theorem formed_setDependencies (h : Formed P (depth + 2) (.obj members))
    (hdeps : Formed P (depth + 1) (.obj deps)) :
    Formed P (depth + 2) (.obj (setDependencies members deps)) :=
  h.insert "dependencies" hdeps.sort

theorem Sound.withDependency (h : Sound members) (name version : String) :
    Sound (withDependency members name version) :=
  formed_setDependencies h ((formed_dependenciesIn h).insert name (.str version))

theorem Sound.withoutDependency (h : Sound members) (name : String) :
    Sound (withoutDependency members name) :=
  formed_setDependencies h ((formed_dependenciesIn h).erase name)

end Manifest

namespace FileStore

open Json (Members)

variable {s : FileStore} {members : Members}

def FloatsReadBack (s : FileStore) : Prop :=
  ∀ members, s.manifest = .ok members →
    ∀ bits, Json.Has (.float bits) (.obj members) → (Json.Number.float bits).ReadsBack

def Editable (s : FileStore) : Prop :=
  ∃ members, s.manifest = .ok members ∧ Manifest.Sound members

theorem editable_of_manifest (hfloats : s.FloatsReadBack) (h : s.manifest = .ok members) :
    s.Editable :=
  ⟨members, h, (formed_manifest h).readsBack (hfloats members h)⟩

theorem editable_new (now : Timestamp) : (new now).Editable :=
  ⟨Manifest.initial, rfl, Manifest.formed_initial ..⟩

theorem floatsReadBack_new (now : Timestamp) : (new now).FloatsReadBack := by
  intro members h bits hhas
  cases h
  rcases hhas with _ | _ | ⟨he, hvalue⟩
  simp only [Manifest.initial, List.mem_cons, List.not_mem_nil, or_false] at he
  rcases he with rfl | rfl | rfl
  · cases hvalue
  · cases hvalue
  · rcases hvalue with _ | _ | ⟨he, -⟩
    cases he

theorem eq_invalidManifest {e : StoreError} (h : s.manifest = .error e) :
    ∃ detail, e = .invalidManifest detail := by
  rw [manifest] at h
  split at h
  · rw [Manifest.ofText] at h
    split at h
    · cases h
    · cases h
      exact ⟨_, rfl⟩
    · cases h
      exact ⟨_, rfl⟩
  · cases h

theorem editable_saveManifest {α : Type} (h : Manifest.Sound members) (answer : α) :
    (s.saveManifest members answer).2.Editable :=
  ⟨members, (manifest_write s _).trans (Manifest.ofText_of_readsBack h.readsBack), h⟩

theorem addDependency_of_error {e : StoreError} (h : s.manifest = .error e)
    (name version : String) : s.addDependency name version = (.error e, s) := by
  rw [addDependency, h]

theorem addDependency_of_editable (h : s.Editable) (name version : String) :
    ∃ change t, s.addDependency name version = (.ok change, t) ∧ t.Editable ∧
      t.dependencies = s.dependencies.insert name version := by
  obtain ⟨members, hm, hsound⟩ := h
  have hok : ∃ change, (s.addDependency name version).1 = .ok change := by
    rw [addDependency, hm]
    dsimp only
    split
    · exact ⟨_, rfl⟩
    · split
      · exact ⟨_, rfl⟩
      · exact ⟨_, rfl⟩
  obtain ⟨change, hchange⟩ := hok
  have hadd : s.addDependency name version = (.ok change, (s.addDependency name version).2) :=
    Prod.ext hchange rfl
  refine ⟨change, _, hadd, ?_, ?_⟩
  · obtain ⟨_, hm', ⟨-, hsame, -⟩ | ⟨-, hsaved⟩⟩ := addDependency_cases hadd
    · rw [hsame]
      exact ⟨members, hm, hsound⟩
    · cases hm.symm.trans hm'
      rw [hsaved]
      exact editable_saveManifest (hsound.withDependency name version) change
  · refine (addDependency_inserts hadd ?_).1
    intro _ hm'
    cases hm.symm.trans hm'
    exact (hsound.withDependency name version).readsBack

theorem removeDependency_of_error {e : StoreError} (h : s.manifest = .error e) (name : String) :
    s.removeDependency name = (.error e, s) := by
  have hfile : s.hasFile Manifest.path = true := by
    cases hread : s.read? Manifest.path with
    | none =>
      rw [manifest, hread] at h
      cases h
    | some file => exact congrArg Option.isSome hread
  rw [removeDependency, if_pos hfile, h]

theorem removeDependency_of_editable (h : s.Editable) (name : String) :
    ∃ listed t, s.removeDependency name = (.ok listed, t) ∧ t.Editable := by
  obtain ⟨members, hm, hsound⟩ := h
  rw [removeDependency, hm]
  split
  · dsimp only
    split
    · exact ⟨_, _, rfl, members, hm, hsound⟩
    · exact ⟨true, _, rfl, editable_saveManifest (hsound.withoutDependency name) true⟩
  · exact ⟨_, _, rfl, members, hm, hsound⟩

end FileStore

end ProjectShell
