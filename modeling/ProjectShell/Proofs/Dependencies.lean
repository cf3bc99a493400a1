import Mathlib
import ProjectShell.Proofs.ReadValues

namespace ProjectShell

theorem Json.eq_str_of_str? {v : Json} {s : String} (h : v.str? = some s) : v = .str s := by
  cases v with
  | str t => exact congrArg Json.str (Option.some.inj h)
  | null | bool | num | arr | obj => cases h

namespace Manifest

open Json (Members)

variable {members deps : Members}

theorem get?_versions (hk : deps.keys.Nodup) (name : String) :
    (versions deps).get? name = (deps.get? name).map versionText := by
  have hnodup : ((deps.map (fun e => (e.1, versionText e.2))).map Prod.fst).Nodup := by
    rw [List.map_map]
    exact hk
  rw [versions, SortedMap.get?_ofList hnodup, Members.get?_eq_lookup]
  exact SortedMap.lookup_map (fun _ => versionText) name deps

theorem versions_sort (hk : deps.keys.Nodup) : versions deps.sort = versions deps := by
  refine SortedMap.ext (fun name => ?_)
  rw [get?_versions (Members.nodup_keys_sort hk), get?_versions hk, Members.get?_sort hk]

theorem versions_insert (hk : deps.keys.Nodup) (name version : String) :
    versions (deps.insert name (.str version)) = (versions deps).insert name version := by
  refine SortedMap.ext (fun key => ?_)
  rw [get?_versions (Members.nodup_keys_insert name _ hk), Members.get?_insert,
    SortedMap.get?_insert, get?_versions hk]
  split <;> rfl

theorem versions_erase (hk : deps.keys.Nodup) (name : String) :
    versions (deps.erase name) = (versions deps).erase name := by
  refine SortedMap.ext (fun key => ?_)
  rw [get?_versions (Members.nodup_keys_erase name hk), Members.get?_erase,
    SortedMap.get?_erase, get?_versions hk]
  split <;> rfl

theorem get?_setDependencies (members deps : Members) :
    Members.get? "dependencies" (setDependencies members deps) = some (.obj deps.sort) := by
  rw [setDependencies, Members.get?_insert, if_pos rfl]

theorem dependenciesIn_setDependencies (members deps : Members) :
    dependenciesIn (setDependencies members deps) = deps.sort := by
  rw [dependenciesIn, get?_setDependencies]

theorem erase_setDependencies (members deps : Members) :
    Members.erase "dependencies" (setDependencies members deps) =
      Members.erase "dependencies" members :=
  Members.erase_insert ..

theorem nodup_keys_dependenciesIn {P : Json.Number → Prop} {depth : Nat}
    (h : Json.Formed P (depth + 1) (.obj members)) : (dependenciesIn members).keys.Nodup := by
  rw [dependenciesIn]
  split
  · rename_i deps hd
    have hdeps := (Json.Formed.obj_iff.1 h).2 _ (Members.mem_of_get? hd)
    exact hdeps.nodup_keys
  · exact .nil

theorem formed_initial (P : Json.Number → Prop) (depth : Nat) :
    Json.Formed P (depth + 2) (.obj initial) := by
  refine .obj (by decide) ?_
  intro e he
  simp only [initial, List.mem_cons, List.not_mem_nil, or_false] at he
  rcases he with rfl | rfl | rfl
  · exact .str _
  · exact .str _
  · exact .empty

theorem parse_of_ofText {text : String} (h : ofText text = .ok members) :
    Json.parse text = .ok (.obj members) := by
  rw [ofText] at h
  split at h
  · rename_i hp
    cases h
    exact hp
  · cases h
  · cases h

def ReadsBack (members : Members) : Prop := Json.parse (text members) = .ok (.obj members)

theorem ofText_of_readsBack (h : ReadsBack members) : ofText (text members) = .ok members := by
  rw [ReadsBack] at h
  rw [ofText, h]

def withDependency (members : Members) (name version : String) : Members :=
  setDependencies members ((dependenciesIn members).insert name (.str version))

def withoutDependency (members : Members) (name : String) : Members :=
  setDependencies members ((dependenciesIn members).erase name)

end Manifest

namespace FileStore

open Json (Members)

variable {s : FileStore} {members deps : Members}

theorem formed_manifest (h : s.manifest = .ok members) :
    Json.Formed Json.Number.InRange Json.maxDepth (.obj members) := by
  rw [manifest] at h
  split at h
  · exact Json.formed_of_parse (Manifest.parse_of_ofText h)
  · cases h
    exact Manifest.formed_initial ..

theorem dependencies_eq_versions (h : s.manifest = .ok members) :
    s.dependencies = Manifest.versions (Manifest.dependenciesIn members) := by
  rw [manifest, read?] at h
  rw [dependencies, FileMap.dependencies]
  cases hf : s.files.read? Manifest.path with
  | none =>
    rw [hf] at h
    cases h
    rfl
  | some file =>
    rw [hf] at h
    have hp := Manifest.parse_of_ofText h
    simp only [Manifest.dependenciesOf, hp]

theorem get?_dependencies (h : s.manifest = .ok members) (name : String) :
    s.dependencies.get? name =
      ((Manifest.dependenciesIn members).get? name).map Manifest.versionText := by
  rw [dependencies_eq_versions h,
    Manifest.get?_versions (Manifest.nodup_keys_dependenciesIn (formed_manifest h))]

def Rewritten (s t : FileStore) : Prop :=
  ∃ before file after deps, s.manifest = .ok before ∧
    t.read? Manifest.path = some file ∧ Json.parse file.content = .ok (.obj after) ∧
    Members.get? "dependencies" after = some (.obj deps) ∧
    (Members.keys deps).Pairwise (· < ·) ∧
    Members.erase "dependencies" after = Members.erase "dependencies" before

theorem read?_write_manifest (s : FileStore) (text : String) :
    (s.write Manifest.path text).2.read? Manifest.path =
      some (File.new Manifest.path text s.now) :=
  (SortedMap.get?_insert ..).trans (if_pos rfl)

theorem manifest_write (s : FileStore) (text : String) :
    (s.write Manifest.path text).2.manifest = Manifest.ofText text := by
  rw [manifest, read?_write_manifest]
  rfl

theorem saved_dependencies {α : Type} (answer : α) (h : s.manifest = .ok members)
    (hk : deps.keys.Nodup) (hread : Manifest.ReadsBack (Manifest.setDependencies members deps)) :
    let t := (s.saveManifest (Manifest.setDependencies members deps) answer).2
    t.dependencies = Manifest.versions deps ∧ Rewritten s t := by
  intro t
  have hfile : t.read? Manifest.path = some _ := read?_write_manifest s _
  have hmanifest : t.manifest = .ok (Manifest.setDependencies members deps) :=
    (manifest_write s _).trans (Manifest.ofText_of_readsBack hread)
  refine ⟨?_, members, _, _, deps.sort, h, hfile, hread, Manifest.get?_setDependencies members deps,
    Members.pairwise_keys_sort hk, Manifest.erase_setDependencies members deps⟩
  rw [dependencies_eq_versions hmanifest, Manifest.dependenciesIn_setDependencies,
    Manifest.versions_sort hk]

theorem addDependency_cases {t : FileStore} {name version : String} {change : DependencyChange}
    (h : s.addDependency name version = (.ok change, t)) :
    ∃ members, s.manifest = .ok members ∧
      ((change = .unchanged ∧ t = s ∧
          (Manifest.dependenciesIn members).get? name = some (.str version)) ∨
        (change = (((Manifest.dependenciesIn members).get? name).map
            (fun v => .updated (Manifest.versionText v))).getD .added ∧
          t = (s.saveManifest (Manifest.withDependency members name version) change).2)) := by
  rw [addDependency] at h
  split at h
  · cases h
  · rename_i members hm
    refine ⟨members, hm, ?_⟩
    dsimp only at h
    split at h
    · rename_i hget
      cases h
      rw [hget]
      exact .inr ⟨rfl, rfl⟩
    · rename_i v hget
      split at h
      · rename_i hstr
        cases h
        rw [hget]
        exact .inl ⟨rfl, rfl, congrArg some (Json.eq_str_of_str? hstr)⟩
      · cases h
        rw [hget]
        exact .inr ⟨rfl, rfl⟩

theorem removeDependency_cases {t : FileStore} {name : String} {listed : Bool}
    (h : s.removeDependency name = (.ok listed, t)) :
    ∃ members, s.manifest = .ok members ∧
      ((listed = false ∧ t = s ∧ (Manifest.dependenciesIn members).get? name = none) ∨
        (listed = true ∧ ((Manifest.dependenciesIn members).get? name).isSome ∧
          t = (s.saveManifest (Manifest.withoutDependency members name) true).2)) := by
  rw [removeDependency] at h
  split at h
  · split at h
    · cases h
    · rename_i members hm
      refine ⟨members, hm, ?_⟩
      dsimp only at h
      split at h
      · rename_i hget
        cases h
        exact .inl ⟨rfl, rfl, hget⟩
      · rename_i v hget
        cases h
        rw [hget]
        exact .inr ⟨rfl, rfl, rfl⟩
  · rename_i hf
    have hnone : s.read? Manifest.path = none := Option.not_isSome_iff_eq_none.1 hf
    cases h
    refine ⟨Manifest.initial, ?_, .inl ⟨rfl, rfl, rfl⟩⟩
    rw [manifest, hnone]

theorem addDependency_inserts {t : FileStore} {name version : String} {change : DependencyChange}
    (h : s.addDependency name version = (.ok change, t))
    (hread : ∀ members, s.manifest = .ok members →
      Manifest.ReadsBack (Manifest.withDependency members name version)) :
    t.dependencies = s.dependencies.insert name version ∧
      (change = .added → s.dependencies.get? name = none) ∧
      (∀ previous, change = .updated previous → s.dependencies.get? name = some previous) ∧
      (change = .unchanged → t = s) ∧ (change ≠ .unchanged → Rewritten s t) := by
  obtain ⟨members, hm, hcases⟩ := addDependency_cases h
  have hk := Manifest.nodup_keys_dependenciesIn (formed_manifest hm)
  have hget := get?_dependencies hm name
  rcases hcases with ⟨rfl, rfl, hv⟩ | ⟨hchange, rfl⟩
  · rw [hv] at hget
    have hsame := SortedMap.insert_of_get? t.dependencies hget
    exact ⟨hsame.symm, nofun, nofun, fun _ => rfl, fun hne => absurd rfl hne⟩
  · obtain ⟨hdeps, hrewritten⟩ :=
      saved_dependencies change hm (Members.nodup_keys_insert name _ hk) (hread members hm)
    rw [Manifest.versions_insert hk, ← dependencies_eq_versions hm] at hdeps
    cases hv : (Manifest.dependenciesIn members).get? name with
    | none =>
      rw [hv] at hget hchange
      cases hchange
      exact ⟨hdeps, fun _ => hget, nofun, nofun, fun _ => hrewritten⟩
    | some v =>
      rw [hv] at hget hchange
      cases hchange
      refine ⟨hdeps, nofun, ?_, nofun, fun _ => hrewritten⟩
      intro previous he
      cases he
      exact hget

theorem removeDependency_erases {t : FileStore} {name : String} {listed : Bool}
    (h : s.removeDependency name = (.ok listed, t))
    (hread : ∀ members, s.manifest = .ok members →
      Manifest.ReadsBack (Manifest.withoutDependency members name)) :
    (listed = true → (s.dependencies.get? name).isSome ∧
        t.dependencies = s.dependencies.erase name ∧ Rewritten s t) ∧
      (listed = false → s.dependencies.get? name = none ∧ t = s) := by
  obtain ⟨members, hm, hcases⟩ := removeDependency_cases h
  have hk := Manifest.nodup_keys_dependenciesIn (formed_manifest hm)
  have hget := get?_dependencies hm name
  rcases hcases with ⟨rfl, rfl, hv⟩ | ⟨rfl, hv, rfl⟩
  · rw [hv] at hget
    exact ⟨nofun, fun _ => ⟨hget, rfl⟩⟩
  · obtain ⟨hdeps, hrewritten⟩ :=
      saved_dependencies true hm (Members.nodup_keys_erase name hk) (hread members hm)
    rw [Manifest.versions_erase hk, ← dependencies_eq_versions hm] at hdeps
    refine ⟨fun _ => ⟨?_, hdeps, hrewritten⟩, nofun⟩
    rw [hget, Option.isSome_map]
    exact hv

theorem dependencies_implement_map (s : FileStore) (name version : String)
    (hread : ∀ members, s.manifest = .ok members →
      Manifest.ReadsBack (Manifest.withDependency members name version) ∧
        Manifest.ReadsBack (Manifest.withoutDependency members name)) :
    (∀ change t, s.addDependency name version = (.ok change, t) →
      t.dependencies = s.dependencies.insert name version ∧
      (change = .added → s.dependencies.get? name = none) ∧
      (∀ previous, change = .updated previous → s.dependencies.get? name = some previous) ∧
      (change = .unchanged → t = s) ∧ (change ≠ .unchanged → Rewritten s t)) ∧
    (∀ listed t, s.removeDependency name = (.ok listed, t) →
      (listed = true → (s.dependencies.get? name).isSome ∧
        t.dependencies = s.dependencies.erase name ∧ Rewritten s t) ∧
      (listed = false → s.dependencies.get? name = none ∧ t = s)) :=
  ⟨fun _ _ h => addDependency_inserts h (fun members hm => (hread members hm).1),
    fun _ _ h => removeDependency_erases h (fun members hm => (hread members hm).2)⟩

theorem dependencies_implement_map_number :
    let s := ((new ⟨0⟩).write "package.json" "\x7b\"dependencies\":\x7b\"z\":1\x7d\x7d").2
    (∀ members, s.manifest = .ok members →
      Manifest.ReadsBack (Manifest.withDependency members "z" "1") ∧
        Manifest.ReadsBack (Manifest.withoutDependency members "z")) ∧
      (∃ t, s.addDependency "z" "1" = (.ok (.updated "1"), t) ∧
        t.dependencies = s.dependencies.insert "z" "1" ∧ Rewritten s t) ∧
      ∃ t, s.removeDependency "z" = (.ok true, t) ∧
        t.dependencies = s.dependencies.erase "z" ∧ Rewritten s t := by
  intro s
  have htext : Manifest.ofText "\x7b\"dependencies\":\x7b\"z\":1\x7d\x7d" =
      .ok [("dependencies", .obj [("z", .num (.whole 1))])] := by cbv
  have hmanifest : s.manifest = _ := (manifest_write (new ⟨0⟩) _).trans htext
  have hkept : s.read? Manifest.path = some _ := read?_write_manifest (new ⟨0⟩) _
  have hfile : s.hasFile Manifest.path = true := congrArg Option.isSome hkept
  clear_value s
  have hread : ∀ members, s.manifest = .ok members →
      Manifest.ReadsBack (Manifest.withDependency members "z" "1") ∧
        Manifest.ReadsBack (Manifest.withoutDependency members "z") := by
    intro members h
    obtain rfl := Except.ok.inj (hmanifest.symm.trans h)
    constructor <;> cbv
  have hadded : (s.addDependency "z" "1").1 = .ok (.updated "1") := by
    rw [addDependency, hmanifest]
    rfl
  have hremoved : (s.removeDependency "z").1 = .ok true := by
    rw [removeDependency, if_pos hfile, hmanifest]
    rfl
  obtain ⟨hadd, hremove⟩ := dependencies_implement_map s "z" "1" hread
  obtain ⟨hdeps, -, -, -, hrewritten⟩ := hadd _ _ (Prod.ext hadded rfl)
  obtain ⟨-, hdeps', hrewritten'⟩ := (hremove _ _ (Prod.ext hremoved rfl)).1 rfl
  exact ⟨hread, ⟨_, Prod.ext hadded rfl, hdeps, hrewritten (by simp)⟩,
    _, Prod.ext hremoved rfl, hdeps', hrewritten'⟩

end FileStore

end ProjectShell
