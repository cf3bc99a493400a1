import ProjectShell.Proofs.CommandRequests
import ProjectShell.Proofs.LineUndo
import ProjectShell.Proofs.Places

namespace ProjectShell

def Edit.targets : Edit → List String
  | write path _ => [path]
  | append path _ => [path]
  | delete path => [path]
  | rename source target => [source, target]
  | addDependency .. => [Manifest.path]
  | removeDependency _ => [Manifest.path]
  | setTaskStatus .. => []
  | clearErrors => []
  | rollback => []

def Edit.Within (P : String → Prop) (e : Edit) : Prop := e ≠ .rollback ∧ ∀ p ∈ e.targets, P p

namespace FileStore

variable {s : FileStore} {k : String}

theorem get?_write {path : String} (content : String) (hk : Path.normalize path ≠ .ok k) :
    (s.write path content).2.files.get? k = s.files.get? k := by
  rw [write]
  split
  · rename_i key hn
    have hne : key ≠ k := fun h => hk (h ▸ hn)
    simp [change, hne]
  · rfl

theorem get?_delete {path : String} (hk : Path.normalize path ≠ .ok k) :
    (s.delete path).2.files.get? k = s.files.get? k := by
  rw [delete]
  split
  · rename_i key hn
    have hne : key ≠ k := fun h => hk (h ▸ hn)
    split
    · simp [change, hne]
    · rfl
  · rfl

theorem get?_rename {source target : String} (hs : Path.normalize source ≠ .ok k)
    (ht : Path.normalize target ≠ .ok k) :
    (s.rename source target).2.files.get? k = s.files.get? k := by
  rw [rename]
  split
  · rename_i sourceKey targetKey hsource htarget
    have hsne : sourceKey ≠ k := fun h => hs (h ▸ hsource)
    have htne : targetKey ≠ k := fun h => ht (h ▸ htarget)
    split
    · rfl
    · split
      · rfl
      · simp [change, hsne, htne]
  · rfl
  · rfl

theorem get?_saveManifest {α : Type} (members : Json.Members) (answer : α)
    (hk : Path.normalize Manifest.path ≠ .ok k) :
    (s.saveManifest members answer).2.files.get? k = s.files.get? k := by
  have hne : Manifest.path ≠ k := fun h => hk (h ▸ rfl)
  rw [saveManifest_eq]
  simp [change, hne]

theorem get?_addDependency (name version : String)
    (hk : Path.normalize Manifest.path ≠ .ok k) :
    (s.addDependency name version).2.files.get? k = s.files.get? k := by
  rw [addDependency]
  split
  · rfl
  · dsimp only
    split
    · exact get?_saveManifest _ _ hk
    · split
      · rfl
      · exact get?_saveManifest _ _ hk

theorem get?_removeDependency (name : String) (hk : Path.normalize Manifest.path ≠ .ok k) :
    (s.removeDependency name).2.files.get? k = s.files.get? k := by
  rw [removeDependency]
  split
  · split
    · rfl
    · dsimp only
      split
      · rfl
      · exact get?_saveManifest _ _ hk
  · rfl

theorem samePast_setTaskStatus (s : FileStore) (id : String) (status : TaskStatus) :
    SamePast (s.setTaskStatus id status).2 s := by
  rw [setTaskStatus]
  split
  · exact ⟨rfl, rfl⟩
  · split <;> exact ⟨rfl, rfl⟩

theorem get?_apply {e : Edit} (hr : e ≠ .rollback)
    (hk : ∀ p ∈ e.targets, Path.normalize p ≠ .ok k) :
    (s.apply e).2.files.get? k = s.files.get? k := by
  cases e with
  | write path content => exact get?_write content (hk path List.mem_cons_self)
  | append path content => exact get?_write _ (hk path List.mem_cons_self)
  | delete path => exact get?_delete (hk path List.mem_cons_self)
  | rename source target =>
    exact get?_rename (hk source List.mem_cons_self)
      (hk target (List.mem_cons_of_mem _ List.mem_cons_self))
  | addDependency name version => exact get?_addDependency name version (hk _ List.mem_cons_self)
  | removeDependency name => exact get?_removeDependency name (hk _ List.mem_cons_self)
  | setTaskStatus id status =>
    exact congrArg (SortedMap.get? · k) (samePast_setTaskStatus s id status).1
  | clearErrors => rfl
  | rollback => exact absurd rfl hr

end FileStore

def FileMap.Trimmed (m : FileMap) : Prop := ∀ key ∈ m.keys, Path.Trimmed key.toList

instance (m : FileMap) : Decidable m.Trimmed :=
  inferInstanceAs (Decidable (∀ key ∈ m.keys, Path.Trimmed key.toList))

theorem FileStore.trimmed_apply {s : FileStore} {e : Edit} {P : String → Prop}
    (hP : ∀ p, P p → Path.Trimmed p.toList) (hs : s.files.Trimmed) (he : e.Within P) :
    (s.apply e).2.files.Trimmed := by
  intro key hkey
  -- A key that is new is the key of a path that the edit names.
  by_cases h : ∃ p ∈ e.targets, Path.normalize p = .ok key
  · obtain ⟨p, hp, hn⟩ := h
    exact Path.trimmed_key (hP p (he.2 p hp)) (Path.normalize_eq_ok_iff.1 hn)
  · have hk : ∀ p ∈ e.targets, Path.normalize p ≠ .ok key := fun p hp hn => h ⟨p, hp, hn⟩
    rw [SortedMap.mem_keys_iff, get?_apply he.1 hk, ← SortedMap.mem_keys_iff] at hkey
    exact hs key hkey

theorem Script.Asks.get?_run {α : Type} {Q : α → Prop} {P : String → Prop} {x : Script α}
    (h : x.Asks (fun v => v.files.Trimmed) (Edit.Within P) Q)
    (hP : ∀ p, P p → Path.Trimmed p.toList) {s : FileStore} (hs : s.files.Trimmed) {k : String}
    (hk : ∀ p, P p → Path.normalize p ≠ .ok k) :
    (x.run s).2.files.get? k = s.files.get? k := by
  have hrun := h.run (fun t => t.files.Trimmed ∧ t.files.get? k = s.files.get? k)
    (fun t ht => ht.1) ?_ ⟨hs, rfl⟩
  · exact hrun.2
  · intro t e ht he
    have hframe := FileStore.get?_apply (s := t) he.1 (fun p hp => hk p (he.2 p hp))
    exact ⟨FileStore.trimmed_apply hP ht.1 he, hframe.trans ht.2⟩

namespace Path

def Named (args : List String) (path : String) : Prop :=
  Trimmed path.toList ∧ ∃ a ∈ args, segments a.toList <+: segments path.toList

variable {args : List String} {a path : String}

theorem named_self (ha : a ∈ args) (ht : Trimmed a.toList) : Named args a :=
  ⟨ht, a, ha, List.prefix_rfl⟩

theorem named_append {before rest : List Char} (ht : Trimmed before) (hr : Trimmed rest)
    (ha : a ∈ args) (hp : segments a.toList <+: segments before) :
    Named args (String.ofList (before ++ '/' :: rest)) := by
  rw [Named, String.toList_ofList]
  refine ⟨trimmed_append_iff.2 ⟨ht, hr⟩, a, ha, ?_⟩
  rw [segments_append]
  exact hp.trans (List.prefix_append _ _)

theorem named_inside {source : String} (ha : a ∈ args) (ht : Trimmed a.toList)
    (hs : Trimmed source.toList) : Named args (Command.Transfer.inside a source) := by
  have hsegs : segments a.toList <+: segments (trimSlashes a.toList) :=
    segments_trimSlashes a.toList ▸ List.prefix_rfl
  have hn := named_append (trimmed_trimSlashes ht) (trimmed_lastSegment hs) ha hsegs
  have hi : Command.Transfer.inside a source =
      String.ofList (trimSlashes a.toList ++ '/' :: (lastSegment source).toList) := by
    rw [← String.toList_inj, Command.Transfer.inside]
    simp
  rwa [hi]

theorem named_under {dir : String} (ha : a ∈ args) (ht : Trimmed a.toList)
    (hn : normalizeDir a = .ok dir) (hne : dir ≠ "") (hu : under dir path = true)
    (hp : Trimmed path.toList) : Named args path := by
  obtain ⟨rest, hr⟩ := exists_of_under hu hne
  refine ⟨hp, a, ha, ?_⟩
  rw [hr, segments_append, segments_normalizeDir ht hn hne]
  exact List.prefix_append _ _

theorem named_rebased {dir target : String} (hne : dir ≠ "") (hu : under dir path = true)
    (hp : Trimmed path.toList) (h : Named args target) :
    Named args (String.ofList (trimSlashes target.toList ++ path.toList.drop dir.length)) := by
  obtain ⟨rest, hr⟩ := exists_of_under hu hne
  have hd : path.toList.drop dir.length = '/' :: rest := by
    rw [hr, ← String.length_toList, List.drop_left]
  obtain ⟨ht, a, ha, hsegs⟩ := h
  rw [hd]
  rw [hr] at hp
  refine named_append (trimmed_trimSlashes ht) (trimmed_append_iff.1 hp).2 ha ?_
  rwa [segments_trimSlashes]

theorem Named.holds {key : String} (h : Named args path) (hk : normalize path = .ok key) :
    ∃ a ∈ args, Holds (place a) key := by
  obtain ⟨ht, a, ha, hsegs⟩ := h
  rw [normalize_eq_place ht hk]
  exact ⟨a, ha, holds_place hsegs⟩

end Path

namespace Command

variable {args : List String}

theorem named_of_mem_pathsUnder {v : View} {a dir path : String} (hv : v.files.Trimmed)
    (ht : ∀ a ∈ args, Path.Trimmed a.toList) (ha : a ∈ args)
    (hn : Path.normalizeDir a = .ok dir) (hne : dir ≠ "") (hp : path ∈ v.files.pathsUnder dir) :
    Path.Named args path := by
  obtain ⟨hkey, hu⟩ := List.mem_filter.1 hp
  exact Path.named_under ha (ht a ha) hn hne hu (hv path hkey)

namespace Transfer

theorem named_target {source target : String} (ht : ∀ a ∈ args, Path.Trimmed a.toList)
    (hs : source ∈ args) (h : Target args source target) : Path.Named args target := by
  rcases h with h | ⟨destination, hd, rfl⟩
  · exact Path.named_self h (ht target h)
  · exact Path.named_inside hd (ht destination hd) (ht source hs)

theorem named_pair {source target : String} (ht : ∀ a ∈ args, Path.Trimmed a.toList)
    (h : Pair (fun v => v.files.Trimmed) args source target) :
    Path.Named args source ∧ Path.Named args target := by
  cases h with
  | file hs htarget => exact ⟨Path.named_self hs (ht source hs), named_target ht hs htarget⟩
  | below hv hs hn hne hp htarget =>
    obtain ⟨hkey, hu⟩ := List.mem_filter.1 hp
    exact ⟨named_of_mem_pathsUnder hv ht hs hn hne hp,
      Path.named_rebased hne hu (hv source hkey) (named_target ht hs htarget)⟩

end Transfer

end Command

namespace Edit

variable {P : String → Prop} {path : String}

theorem within_write (h : P path) (content : String) : Within P (.write path content) :=
  ⟨nofun, List.forall_mem_singleton.2 h⟩

theorem within_append (h : P path) (content : String) : Within P (.append path content) :=
  ⟨nofun, List.forall_mem_singleton.2 h⟩

theorem within_delete (h : P path) : Within P (.delete path) :=
  ⟨nofun, List.forall_mem_singleton.2 h⟩

theorem within_rename {source target : String} (hs : P source) (ht : P target) :
    Within P (.rename source target) :=
  ⟨nofun, List.forall_mem_cons.2 ⟨hs, List.forall_mem_singleton.2 ht⟩⟩

end Edit

namespace Builtin

theorem asks_run_named {b : Builtin} (hb : b ∈ [rm, mv, cp, touch, tee, sed])
    (inner : String → List String → Script Outcome) {args : List String} (stdin : Option String)
    (ht : ∀ a ∈ args, Path.Trimmed a.toList) :
    Attempt.Asks (fun v => v.files.Trimmed) (Edit.Within (Path.Named args)) (fun _ => True)
      (b.run inner args stdin) := by
  have hself (a : String) (ha : a ∈ args) : Path.Named args a := Path.named_self ha (ht a ha)
  have hpair (source target : String)
      (h : Command.Transfer.Pair (fun v => v.files.Trimmed) args source target) :
      Edit.Within (Path.Named args) (.rename source target) ∧
        ∀ content, Edit.Within (Path.Named args) (.write target content) := by
    obtain ⟨hs, htarget⟩ := Command.Transfer.named_pair ht h
    exact ⟨Edit.within_rename hs htarget, fun content => Edit.within_write htarget content⟩
  cases b
  case rm =>
    refine Command.asks_rm (fun a ha => Edit.within_delete (hself a ha)) ?_
    intro v hv a ha dir hn hne path hp
    exact Edit.within_delete (Command.named_of_mem_pathsUnder hv ht ha hn hne hp)
  case mv => exact Attempt.asks_lift (Command.Transfer.asks_run .move hpair)
  case cp => exact Attempt.asks_lift (Command.Transfer.asks_run .copy hpair)
  case touch =>
    exact Attempt.asks_lift (Command.asks_touch (fun a ha => Edit.within_write (hself a ha) ""))
  case tee =>
    exact Attempt.asks_lift (Command.asks_tee stdin
      (fun a ha text => Edit.within_write (hself a ha) text)
      (fun a ha text => Edit.within_append (hself a ha) text))
  case sed =>
    exact Command.Sed.asks_run stdin (fun a ha text => Edit.within_write (hself a ha) text)
  all_goals exact absurd hb (by decide)

theorem asks_run_npm (inner : String → List String → Script Outcome) (args : List String)
    (stdin : Option String) {Seen : View → Prop} :
    Attempt.Asks Seen (Edit.Within (· = Manifest.path)) (fun _ => True)
      (npm.run inner args stdin) :=
  Attempt.asks_lift (Command.Npm.asks_run args
    (fun _ _ => ⟨nofun, List.forall_mem_singleton.2 rfl⟩)
    (fun _ => ⟨nofun, List.forall_mem_singleton.2 rfl⟩))

end Builtin

section Dispatch

variable {s : FileStore} {b : Builtin} {args : List String} {stdin : Option String}

theorem dispatch_samePast (hb : b ∉ Builtin.writers) (hu : b ≠ .undo) (hx : b ≠ .xargs) :
    FileStore.SamePast ((dispatch b.name args stdin).run s).2 s := by
  have h : Attempt.Asks (fun _ => True) (fun e => ∀ t, FileStore.SamePast (t.apply e).2 t)
      (fun _ => True) (b.run dispatchInner args stdin) :=
    Builtin.asks_run_of_not_mem_writers hb hu hx _ _ _ (fun _ => ⟨rfl, rfl⟩)
      (fun id status t => FileStore.samePast_setTaskStatus t id status)
  have hrun := asks_guarded b.name h
  rw [← dispatch_name] at hrun
  refine hrun.run (fun t => t.SamePast s) (fun _ _ => trivial) ?_ ⟨rfl, rfl⟩
  intro t e ht he
  exact ⟨(he t).1.trans ht.1, (he t).2.trans ht.2⟩

theorem exists_path_of_changed {P : String → Prop} {k : String}
    (h : Attempt.Asks (fun v => v.files.Trimmed) (Edit.Within P) (fun _ => True)
      (b.run dispatchInner args stdin))
    (hP : ∀ p, P p → Path.Trimmed p.toList) (hs : s.files.Trimmed)
    (hne : ((dispatch b.name args stdin).run s).2.files.get? k ≠ s.files.get? k) :
    ∃ p, P p ∧ Path.normalize p = .ok k := by
  by_contra hno
  have hrun := asks_guarded b.name h
  rw [← dispatch_name] at hrun
  exact hne (hrun.get?_run hP hs (fun p hp hk => hno ⟨p, hp, hk⟩))

end Dispatch

theorem dispatch_footprint (s : FileStore) (b : Builtin) (args : List String)
    (stdin : Option String) (hu : b ≠ .undo) (hx : b ≠ .xargs) :
    let t := ((dispatch b.name args stdin).run s).2
    (s.files.Trimmed → (∀ a ∈ args, Path.Trimmed a.toList) →
      ∀ k, (t.files.get? k).map File.content ≠ (s.files.get? k).map File.content →
        (b = .npm ∧ k = "package.json") ∨
          (b ∈ [.rm, .mv, .cp, .touch, .tee, .sed] ∧ ∃ a ∈ args, Path.Holds (Path.place a) k)) ∧
      (b ∉ [.npm, .rm, .mv, .cp, .touch, .tee, .sed] →
        t.files = s.files ∧ t.history = s.history) := by
  intro t
  refine ⟨?_, fun hb => dispatch_samePast hb hu hx⟩
  intro hs ht k hcontent
  have hne : t.files.get? k ≠ s.files.get? k := fun h => hcontent (congrArg _ h)
  have hb : b ∈ Builtin.writers := by
    by_contra hb
    exact hne (congrArg (SortedMap.get? · k) (dispatch_samePast hb hu hx).1)
  rcases List.mem_cons.1 hb with rfl | hb
  · have hpath : ∀ p, p = Manifest.path → Path.Trimmed p.toList := by
      rintro p rfl
      decide
    obtain ⟨p, rfl, hk⟩ :=
      exists_path_of_changed (Builtin.asks_run_npm dispatchInner args stdin) hpath hs hne
    exact .inl ⟨rfl, (Except.ok.inj hk).symm⟩
  · have hnamed := Builtin.asks_run_named hb dispatchInner stdin ht
    obtain ⟨p, hp, hk⟩ := exists_path_of_changed hnamed (fun p hp => hp.1) hs hne
    exact .inr ⟨hb, hp.holds hk⟩

theorem dispatch_footprint_move :
    let s := ((FileStore.new ⟨0⟩).write "src/a.txt" "1").2
    let s := (s.write "srcfoo/a.txt" "2").2
    let s := (s.write "lib/b.txt" "3").2
    let args := ["./src/", "lib"]
    let t := ((dispatch Builtin.mv.name args none).run s).2
    let k := "lib/src/a.txt"
    (s.files.Trimmed ∧ (∀ a ∈ args, Path.Trimmed a.toList) ∧
      (t.files.get? k).map File.content ≠ (s.files.get? k).map File.content) ∧
      ∃ a ∈ args, Path.Holds (Path.place a) k := by
  intro s₁ s₂ s args t k
  have hs : s.files.Trimmed := by decide +kernel
  have ht : ∀ a ∈ args, Path.Trimmed a.toList := by decide +kernel
  have hk : (t.files.get? k).map File.content ≠ (s.files.get? k).map File.content := by
    decide +kernel
  refine ⟨⟨hs, ht, hk⟩, ?_⟩
  rcases (dispatch_footprint s .mv args none nofun nofun).1 hs ht k hk with h | h
  · exact absurd h.1 (by decide)
  · exact h.2

end ProjectShell
