import ProjectShell.FileStore.Document
import ProjectShell.Proofs.Keys
import ProjectShell.Proofs.LineUndo

namespace ProjectShell

namespace FileMap

def WellKept (m : FileMap) : Prop :=
  ∀ key file, m.get? key = some file →
    Path.IsKey key.toList ∧ file.path = key ∧ file.language = Language.ofPath key

variable {m : FileMap}

theorem wellKept_empty : WellKept ∅ := nofun

theorem WellKept.insert (h : m.WellKept) {path key : String} (hn : Path.normalize path = .ok key)
    (content : String) (modified : Timestamp) :
    WellKept (SortedMap.insert m key (File.new key content modified)) := by
  intro k file hk
  rw [SortedMap.get?_insert] at hk
  split at hk
  · rename_i heq
    subst heq
    cases hk
    exact ⟨Path.isKey_of_key? (Path.normalize_eq_ok_iff.1 hn), rfl, by rw [File.new]⟩
  · exact h k file hk

theorem WellKept.erase (h : m.WellKept) (key : String) : WellKept (SortedMap.erase m key) := by
  intro k file hk
  rw [SortedMap.get?_erase] at hk
  split at hk
  · cases hk
  · exact h k file hk

end FileMap

namespace FileStore

theorem wellKept_seededMap {now : Timestamp} {m m' : FileMap} (hm : m.WellKept)
    {files : List (String × String)} (h : seededMap now m files = .ok m') : m'.WellKept := by
  induction files generalizing m with
  | nil =>
    cases h
    exact hm
  | cons file files ih =>
    rw [seededMap] at h
    split at h
    · rename_i key hn
      exact ih (hm.insert hn file.2 now) h
    · cases h

structure Sound (limits : Limits) (s : FileStore) : Prop where
  files : s.files.WellKept
  snapshots : ∀ m ∈ s.history.snapshots, m.WellKept
  depth : s.history.depth = limits.historyDepth
  limits : s.limits = limits

namespace Sound

variable {limits : Limits} {s : FileStore}

theorem withLimits (limits : Limits) (now : Timestamp) : Sound limits (withLimits limits now) :=
  ⟨FileMap.wellKept_empty, nofun, rfl, rfl⟩

theorem change (h : Sound limits s) {m : FileMap} (hm : m.WellKept) :
    Sound limits (s.change m) := by
  refine { h with files := hm, snapshots := ?_ }
  intro m' hm'
  rcases List.mem_cons.1 (List.mem_of_mem_take hm') with rfl | hm'
  · exact h.files
  · exact h.snapshots m' hm'

theorem write (h : Sound limits s) (path content : String) :
    Sound limits (s.write path content).2 := by
  rw [FileStore.write]
  split
  · rename_i key hn
    exact h.change (h.files.insert hn content s.now)
  · exact h

theorem delete (h : Sound limits s) (path : String) : Sound limits (s.delete path).2 := by
  rw [FileStore.delete]
  split
  · split
    · exact h.change (h.files.erase _)
    · exact h
  · exact h

theorem rename (h : Sound limits s) (source target : String) :
    Sound limits (s.rename source target).2 := by
  rw [FileStore.rename]
  split
  · rename_i sourceKey targetKey hs ht
    split
    · exact h
    · rename_i file hf
      split
      · exact h
      · exact h.change ((h.files.erase sourceKey).insert ht file.content file.modified)
  · exact h
  · exact h

theorem patch (h : Sound limits s) (path old new : String) :
    Sound limits (s.patch path old new).2 := by
  rw [FileStore.patch]
  split
  · exact h
  · rename_i file _
    have hw := h.write path (Text.replaceFirst old new file.content)
    split
    · exact h
    · split
      · rename_i s' he
        rwa [he] at hw
      · rename_i s' he
        rwa [he] at hw

theorem saveManifest {α : Type} (h : Sound limits s) (members : Json.Members) (answer : α) :
    Sound limits (s.saveManifest members answer).2 := by
  have hn : Path.normalize Manifest.path = .ok Manifest.path := rfl
  rw [saveManifest_eq]
  exact h.change (h.files.insert hn (Manifest.text members) s.now)

theorem addDependency (h : Sound limits s) (name version : String) :
    Sound limits (s.addDependency name version).2 := by
  rw [FileStore.addDependency]
  split
  · exact h
  · dsimp only
    split
    · exact h.saveManifest _ _
    · split
      · exact h
      · exact h.saveManifest _ _

theorem removeDependency (h : Sound limits s) (name : String) :
    Sound limits (s.removeDependency name).2 := by
  rw [FileStore.removeDependency]
  split
  · split
    · exact h
    · dsimp only
      split
      · exact h
      · exact h.saveManifest _ _
  · exact h

theorem setTaskStatus (h : Sound limits s) (id : String) (status : TaskStatus) :
    Sound limits (s.setTaskStatus id status).2 := by
  rw [FileStore.setTaskStatus]
  split
  · exact h
  · split
    · exact h
    · exact { h with }

theorem rollback (h : Sound limits s) : Sound limits s.rollback.2 := by
  rw [FileStore.rollback]
  split
  · rename_i files history hp
    obtain ⟨hsnapshots, hdepth⟩ := History.pop?_eq_some hp
    have hpast := h.snapshots
    rw [hsnapshots] at hpast
    obtain ⟨hfiles, hrest⟩ := List.forall_mem_cons.1 hpast
    exact ⟨hfiles, hrest, hdepth ▸ h.depth, h.limits⟩
  · exact h

theorem apply (h : Sound limits s) (e : Edit) : Sound limits (s.apply e).2 := by
  cases e with
  | write path content => exact h.write path content
  | append path content => exact h.write path _
  | delete path => exact h.delete path
  | rename source target => exact h.rename source target
  | addDependency name version => exact h.addDependency name version
  | removeDependency name => exact h.removeDependency name
  | setTaskStatus id status => exact h.setTaskStatus id status
  | clearErrors => exact { h with }
  | rollback => exact h.rollback

theorem applyAll (h : Sound limits s) (es : List Edit) : Sound limits (s.applyAll es) := by
  induction es generalizing s with
  | nil => exact h
  | cons e es ih => exact ih (h.apply e)

theorem seed (h : Sound limits s) (files : List (String × String)) :
    Sound limits (s.seed files).2 := by
  rw [FileStore.seed]
  split
  · rename_i m hm
    exact { h with files := wellKept_seededMap FileMap.wellKept_empty hm, snapshots := nofun }
  · exact h

theorem ofFiles {files : List (String × String)} {now : Timestamp}
    (h : FileStore.ofFiles files limits now = .ok s) : Sound limits s := by
  have hs := (Sound.withLimits limits now).seed files
  rw [FileStore.ofFiles] at h
  split at h
  · rename_i t ht
    cases h
    rwa [ht] at hs
  · cases h

theorem ofJson {document : Json} {now : Timestamp}
    (h : FileStore.ofJson document limits now = .ok s) : Sound limits s := by
  cases document with
  | obj members =>
    rw [FileStore.ofJson] at h
    split at h
    · exact Sound.ofFiles h
    · cases h
  | null | bool | num | str | arr => cases h

end Sound

end FileStore

/-- What may be done to a store. Time passes between the calls and the lines. -/
inductive Operation
  | call (c : Call)
  | seed (files : List (String × String))
  | setErrors (errors : List String)
  | addError (error : String)
  | setPlan (tasks : List Task)
  | execute (line : String)
  | wait (now : Timestamp)

namespace FileStore

def perform (s : FileStore) : Operation → FileStore
  | .call c => (s.call c).2
  | .seed files => (s.seed files).2
  | .setErrors errors => s.setErrors errors
  | .addError error => s.addError error
  | .setPlan tasks => s.setPlan tasks
  | .execute line => (s.execute line).2
  | .wait now => { s with now }

inductive Reachable (limits : Limits) : FileStore → Prop
  | withLimits (now : Timestamp) : Reachable limits (withLimits limits now)
  | ofFiles {files : List (String × String)} {now : Timestamp} {s : FileStore}
      (h : ofFiles files limits now = .ok s) : Reachable limits s
  | ofJson {document : Json} {now : Timestamp} {s : FileStore}
      (h : ofJson document limits now = .ok s) : Reachable limits s
  | perform {s : FileStore} (h : Reachable limits s) (o : Operation) : Reachable limits (s.perform o)

variable {limits : Limits} {s : FileStore}

theorem Sound.perform (h : Sound limits s) (o : Operation) : Sound limits (s.perform o) := by
  cases o with
  | call c =>
    cases c with
    | edit e => exact h.apply e
    | patch path old new => exact h.patch path old new
  | seed files => exact h.seed files
  | setErrors errors => exact { h with }
  | addError error => exact { h with }
  | setPlan tasks => exact { h with }
  | execute line =>
    have hrun := h.applyAll ((runLine line).edits s)
    rwa [← execute_eq_applyAll] at hrun
  | wait now => exact { h with }

theorem Reachable.sound (h : Reachable limits s) : Sound limits s := by
  induction h with
  | withLimits now => exact Sound.withLimits limits now
  | ofFiles h => exact Sound.ofFiles h
  | ofJson h => exact Sound.ofJson h
  | perform h o ih => exact ih.perform o

theorem reachable_invariant (h : Reachable limits s) :
    (∀ m ∈ s.files :: s.history.snapshots, ∀ key file, m.get? key = some file →
      (key ≠ "" ∧ '\x00' ∉ key.toList ∧
        ∀ seg ∈ Text.pieces '/' key.toList, seg ≠ [] ∧ seg ≠ ['.'] ∧ seg ≠ ['.', '.']) ∧
      file.path = key ∧ file.language = Language.ofPath key) ∧
    s.history.size ≤ limits.historyDepth ∧ s.limits = limits := by
  have hs := h.sound
  refine ⟨?_, hs.depth ▸ s.history.size_le, hs.limits⟩
  intro m hm key file hk
  have hkept : m.WellKept := by
    rcases List.mem_cons.1 hm with rfl | hm
    · exact hs.files
    · exact hs.snapshots m hm
  obtain ⟨hkey, hpath, hlanguage⟩ := hkept key file hk
  refine ⟨⟨?_, hkey.nul, hkey.pieces⟩, hpath, hlanguage⟩
  rintro rfl
  exact hkey.ne_nil rfl

theorem reachable_invariant_moved :
    let limits : Limits := { historyDepth := 2 }
    let line := "mv './ a/b.ts' ./lib//c.TSX && cp -r lib './/d/./' && echo y > 'd/ e.json'"
    let s := (((withLimits limits ⟨0⟩).perform (.call (.edit (.write " ./ a//b.ts " "x")))).perform
      (.execute line)).perform (.call (.edit .rollback))
    Reachable limits s ∧
      (s.files :: s.history.snapshots).map SortedMap.keys =
        [["d/lib/c.TSX", "lib/c.TSX"], ["lib/c.TSX"]] ∧
      (∀ m ∈ s.files :: s.history.snapshots, ∀ key file, m.get? key = some file →
        file.path = key ∧ file.language = Language.ofPath key) ∧
      s.history.size ≤ 2 := by
  intro limits line s
  have hs : Reachable limits s := .perform (.perform (.perform (.withLimits ⟨0⟩) _) _) _
  obtain ⟨hfiles, hsize, -⟩ := reachable_invariant hs
  exact ⟨hs, by decide +kernel, fun m hm key file hk => (hfiles m hm key file hk).2, hsize⟩

end FileStore

end ProjectShell
