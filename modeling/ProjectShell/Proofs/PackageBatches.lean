import ProjectShell.Proofs.PackageEdits

namespace ProjectShell

open Attempt Command

namespace Command.Npm

variable {m : SortedMap String} {vs : List (Option String)}

def asked (name : String) (specs : List String) : List (Option String) :=
  ((packages specs).filter (fun p => specName p = name ∧ name ≠ "")).map specVersion

def settledVersion (installed listed requested : Option String) : Option String :=
  match requested, installed with
  | none, some _ => listed
  | requested, _ => some (requested.getD "latest")

theorem get?_settled (installed listed : SortedMap String) (p name : String) :
    (settled installed listed p).get? name =
      if specName p = name ∧ name ≠ "" then
        settledVersion (installed.get? name) (listed.get? name) (specVersion p)
      else listed.get? name := by
  have hother (hp : specName p ≠ name) (version : String) :
      (listed.insert (specName p) version).get? name = listed.get? name :=
    (SortedMap.get?_insert ..).trans (if_neg hp)
  rw [settled]
  by_cases hempty : (specName p).isEmpty
  · rw [if_pos hempty, if_neg]
    rintro ⟨rfl, hname⟩
    exact hname (by simpa using hempty)
  · rw [if_neg hempty]
    by_cases hp : specName p = name
    · subst hp
      rw [if_pos ⟨rfl, by simpa using hempty⟩]
      cases specVersion p with
      | some version => exact (SortedMap.get?_insert ..).trans (if_pos rfl)
      | none =>
        cases installed.get? (specName p) with
        | some pinned => rfl
        | none => exact (SortedMap.get?_insert ..).trans (if_pos rfl)
    · rw [if_neg (fun h => hp h.1)]
      cases specVersion p with
      | some version => exact hother hp version
      | none =>
        cases installed.get? (specName p) with
        | some pinned => rfl
        | none => exact hother hp "latest"

theorem get?_foldl_settled {installed : SortedMap String → SortedMap String}
    {installed? : Option String → Option String} {name : String}
    (h : ∀ m, (installed m).get? name = installed? (m.get? name)) (ps : List String) :
    (ps.foldl (fun m p => settled (installed m) m p) m).get? name =
      ((ps.filter (fun p => specName p = name ∧ name ≠ "")).map specVersion).foldl
        (fun listed requested => settledVersion (installed? listed) listed requested)
        (m.get? name) := by
  -- The packages settle each name apart from the others; `installed` stays open, so that a batch,
  -- which asks for the versions once, and single commands, which ask anew, are two cases of it.
  induction ps generalizing m with
  | nil => rfl
  | cons p ps ih =>
    rw [List.foldl_cons, ih, get?_settled, h, List.filter_cons]
    by_cases hp : specName p = name ∧ name ≠ ""
    · rw [if_pos hp, if_pos (decide_eq_true hp), List.map_cons, List.foldl_cons]
    · rw [if_neg hp, if_neg (by simpa using hp)]

theorem foldl_settledVersion_listed {installed? : Option String → Option String}
    (h : ∀ listed, ∃ pinned, installed? (some listed) = some pinned) (listed : String) :
    vs.foldl (fun listed requested => settledVersion (installed? listed) listed requested)
      (some listed) = some (vs.reduceOption.getLast?.getD listed) := by
  induction vs generalizing listed with
  | nil => rfl
  | cons v vs ih =>
    obtain ⟨pinned, hpinned⟩ := h listed
    rw [List.foldl_cons, hpinned]
    cases v with
    | none => exact ih listed
    | some version =>
      rw [List.reduceOption_cons_of_some, List.getLast?_cons]
      exact ih version

theorem foldl_settledVersion_batch (listed : Option String) :
    vs.foldl (settledVersion none) listed =
      (vs.getLast?.map (fun v => v.getD "latest")).or listed := by
  induction vs generalizing listed with
  | nil => rfl
  | cons v vs ih =>
    rw [List.foldl_cons, ih, List.getLast?_cons]
    cases vs.getLast? <;> cases v <;> rfl

theorem foldl_settledVersion_each :
    vs.foldl (fun listed requested => settledVersion listed listed requested) none =
      if vs = [] then none else some (vs.reduceOption.getLast?.getD "latest") := by
  cases vs with
  | nil => rfl
  | cons v vs =>
    have hrest := @foldl_settledVersion_listed vs id (fun listed => ⟨listed, rfl⟩)
    rw [if_neg (List.cons_ne_nil _ _)]
    cases v with
    | none => exact hrest "latest"
    | some version =>
      rw [List.reduceOption_cons_of_some, List.getLast?_cons]
      exact hrest version

theorem getLast?_reduceOption {version : String} (h : vs.getLast? = some (some version)) :
    vs.reduceOption.getLast? = some version := by
  obtain ⟨ws, rfl⟩ := List.getLast?_eq_some_iff.1 h
  rw [List.reduceOption_append, List.reduceOption_singleton, List.getLast?_append]
  rfl

theorem settledVersion_agrees_iff :
    (vs.getLast?.map (fun v => v.getD "latest") =
      if vs = [] then none else some (vs.reduceOption.getLast?.getD "latest")) ↔
    (vs.getLast? = some none → vs.reduceOption.getLast?.getD "latest" = "latest") := by
  -- Both end at the last version asked for, unless the package comes without one at last.
  cases hlast : vs.getLast? with
  | none =>
    rw [if_pos (List.getLast?_eq_none_iff.1 hlast)]
    exact ⟨nofun, fun _ => rfl⟩
  | some requested =>
    have hne : vs ≠ [] := by
      rintro rfl
      cases hlast
    rw [if_neg hne]
    cases requested with
    | none => exact ⟨fun h _ => (Option.some.inj h).symm, fun h => congrArg some (h rfl).symm⟩
    | some version =>
      rw [getLast?_reduceOption hlast]
      exact ⟨nofun, fun _ => rfl⟩

end Command.Npm

namespace FileStore

open Npm

variable {s : FileStore}

def installBatch (s : FileStore) (specs : List String) : FileStore :=
  ((dispatch "npm" ("install" :: specs) none).run s).2

def installEach (s : FileStore) (specs : List String) : FileStore :=
  specs.foldl (fun s p => s.installBatch [p]) s

theorem installBatch_editable (hs : s.Editable) (specs : List String) :
    (s.installBatch specs).Editable ∧ (s.installBatch specs).dependencies =
      (packages specs).foldl (settled s.dependencies) s.dependencies := by
  have heach : each? "install" = some installOne := rfl
  rw [installBatch, dispatch_npm]
  by_cases hargs : packages specs = []
  · rw [run_of_no_packages heach s hargs, hargs]
    exact ⟨hs, rfl⟩
  · obtain ⟨r, t, hrun, ht⟩ := completes_foldl (completes_installOne s.dependencies)
      (packages specs) s.dependencies s ⟨hs, rfl⟩
    rw [run_of_each? heach s hargs, reported_of_ok hrun]
    exact ht

theorem installEach_editable (hs : s.Editable) (specs : List String) :
    (s.installEach specs).Editable ∧ (s.installEach specs).dependencies =
      (packages specs).foldl (fun m p => settled m m p) s.dependencies := by
  induction specs generalizing s with
  | nil => exact ⟨hs, rfl⟩
  | cons p specs ih =>
    obtain ⟨hp, hdeps⟩ := installBatch_editable hs [p]
    obtain ⟨heach, hrest⟩ := ih hp
    refine ⟨heach, hrest.trans ?_⟩
    rw [hdeps, packages, packages, List.filter_cons, packages, List.filter_cons]
    by_cases hflag : Text.startsWith "-" p
    · simp [hflag]
    · simp [hflag]

theorem get?_installBatch (hs : s.Editable) (specs : List String) (name : String) :
    (s.installBatch specs).dependencies.get? name =
      (asked name specs).foldl (settledVersion (s.dependencies.get? name))
        (s.dependencies.get? name) := by
  rw [(installBatch_editable hs specs).2]
  exact get?_foldl_settled (fun _ => rfl) (packages specs)

theorem get?_installEach (hs : s.Editable) (specs : List String) (name : String) :
    (s.installEach specs).dependencies.get? name =
      (asked name specs).foldl (fun listed requested => settledVersion listed listed requested)
        (s.dependencies.get? name) := by
  rw [(installEach_editable hs specs).2]
  exact get?_foldl_settled (fun _ => rfl) (packages specs)

theorem get?_installs_listed (hs : s.Editable) (specs : List String) {name pinned : String}
    (h : s.dependencies.get? name = some pinned) :
    (s.installBatch specs).dependencies.get? name =
      some ((asked name specs).reduceOption.getLast?.getD pinned) ∧
    (s.installEach specs).dependencies.get? name =
      some ((asked name specs).reduceOption.getLast?.getD pinned) := by
  rw [get?_installBatch hs, get?_installEach hs, h]
  exact ⟨foldl_settledVersion_listed (fun _ => ⟨pinned, rfl⟩) pinned,
    foldl_settledVersion_listed (fun listed => ⟨listed, rfl⟩) pinned⟩

theorem get?_installs_new (hs : s.Editable) (specs : List String) {name : String}
    (h : s.dependencies.get? name = none) :
    (s.installBatch specs).dependencies.get? name =
      (asked name specs).getLast?.map (fun v => v.getD "latest") ∧
    (s.installEach specs).dependencies.get? name =
      if asked name specs = [] then none
      else some ((asked name specs).reduceOption.getLast?.getD "latest") := by
  rw [get?_installBatch hs, get?_installEach hs, h]
  exact ⟨(foldl_settledVersion_batch none).trans (Option.or_none ..), foldl_settledVersion_each⟩

theorem installBatch_eq_installEach_iff {members : Json.Members} (hm : s.manifest = .ok members)
    (hfloats : s.FloatsReadBack) (specs : List String) :
    let batch := (s.installBatch specs).dependencies
    let each := (s.installEach specs).dependencies
    let version? := fun name => (asked name specs).reduceOption.getLast?
    (∀ name pinned, s.dependencies.get? name = some pinned →
      batch.get? name = some ((version? name).getD pinned) ∧
      each.get? name = some ((version? name).getD pinned)) ∧
    (∀ name, s.dependencies.get? name = none →
      batch.get? name = (asked name specs).getLast?.map (fun v => v.getD "latest") ∧
      each.get? name =
        if asked name specs = [] then none else some ((version? name).getD "latest")) ∧
    (batch = each ↔ ∀ name, s.dependencies.get? name = none →
      (asked name specs).getLast? = some none → (version? name).getD "latest" = "latest") := by
  intro batch each version?
  have hs := editable_of_manifest hfloats hm
  refine ⟨fun _ _ => get?_installs_listed hs specs, fun _ => get?_installs_new hs specs, ?_, ?_⟩
  · intro heq name hnone
    obtain ⟨hbatch, heach⟩ := get?_installs_new hs specs hnone
    refine settledVersion_agrees_iff.1 ?_
    rw [← hbatch, ← heach]
    exact congrArg (fun m => m.get? name) heq
  · intro h
    refine SortedMap.ext (fun name => ?_)
    cases hget : s.dependencies.get? name with
    | some pinned =>
      obtain ⟨hbatch, heach⟩ := get?_installs_listed hs specs hget
      exact hbatch.trans heach.symm
    | none =>
      obtain ⟨hbatch, heach⟩ := get?_installs_new hs specs hget
      exact hbatch.trans ((settledVersion_agrees_iff.2 (h name hget)).trans heach.symm)

theorem installBatch_eq_installEach_iff_listed :
    let s := ((new ⟨0⟩).write "package.json" "\x7b\"dependencies\":\x7b\"z\":\"1\"\x7d\x7d").2
    let specs := ["z", "a@1", "z@2", "z", "a"]
    (∃ members, s.manifest = .ok members) ∧ s.FloatsReadBack ∧
      (s.installBatch specs).dependencies.get? "z" = some "2" ∧
      (s.installEach specs).dependencies.get? "z" = some "2" ∧
      (s.installBatch specs).dependencies ≠ (s.installEach specs).dependencies := by
  intro s specs
  have htext : Manifest.ofText "\x7b\"dependencies\":\x7b\"z\":\"1\"\x7d\x7d" =
      .ok [("dependencies", .obj [("z", .str "1")])] := by cbv
  have hm : s.manifest = _ := (manifest_write (new ⟨0⟩) _).trans htext
  clear_value s
  have hfloats : s.FloatsReadBack := by
    intro members hmembers bits hhas
    cases hm.symm.trans hmembers
    rcases hhas with _ | _ | ⟨he, hdeps⟩
    cases List.mem_singleton.1 he
    rcases hdeps with _ | _ | ⟨he, hversion⟩
    cases List.mem_singleton.1 he
    cases hversion
  have hget (name : String) : s.dependencies.get? name = _ := get?_dependencies hm name
  obtain ⟨hlisted, -, hiff⟩ := installBatch_eq_installEach_iff hm hfloats specs
  obtain ⟨hbatch, heach⟩ := hlisted "z" "1" ((hget "z").trans (by decide))
  refine ⟨⟨_, hm⟩, hfloats, hbatch.trans (by decide), heach.trans (by decide), ?_⟩
  intro heq
  exact absurd (hiff.1 heq "a" ((hget "a").trans (by decide)) (by decide)) (by decide)

theorem installBatch_loses_version :
    let s := new ⟨0⟩
    let batch := (s.installBatch ["a@1", "a"]).dependencies
    let each := (s.installEach ["a@1", "a"]).dependencies
    s.manifest = .ok Manifest.initial ∧ batch.get? "a" = some "latest" ∧
      each.get? "a" = some "1" ∧ batch ≠ each := by
  intro s batch each
  have hs : s.Editable := editable_new ⟨0⟩
  have hbatch : batch.get? "a" = some "latest" := by
    rw [show batch = _ from (installBatch_editable hs _).2]
    decide
  have heach : each.get? "a" = some "1" := by
    rw [show each = _ from (installEach_editable hs _).2]
    decide
  refine ⟨rfl, hbatch, heach, ?_⟩
  intro heq
  rw [heq, heach] at hbatch
  exact absurd hbatch (by decide)

end FileStore

end ProjectShell
