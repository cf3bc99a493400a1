import Mathlib.Algebra.Order.BigOperators.Group.List
import Mathlib.Algebra.Order.Group.Nat
import Mathlib.Data.List.Perm.Subperm
import ProjectShell.Proofs.Reachable

namespace ProjectShell

namespace Path

theorem normalize_of_isKey {key : String} (h : IsKey key.toList) (ht : Text.trimmed key = key) :
    normalize key = .ok key :=
  normalize_eq_ok_iff.2 (key?_of_isKey h (Text.trimmed_eq_self_iff.1 ht))

def keyOf (path : String) : String := (normalize path).toOption.getD ""

theorem keyOf_eq {path key : String} (h : normalize path = .ok key) : keyOf path = key := by
  rw [keyOf, h]
  rfl

theorem length_keyOf_le_trim (path : String) :
    (keyOf path).length ≤ (Text.trim path.toList).length := by
  cases hn : normalize path with
  | ok key =>
    rw [keyOf_eq hn, ← String.length_toList]
    exact length_key?_le (normalize_eq_ok_iff.1 hn)
  | error e =>
    rw [keyOf, hn]
    exact Nat.zero_le _

theorem length_keyOf_le (path : String) : (keyOf path).length ≤ path.length :=
  (length_keyOf_le_trim path).trans
    (String.length_toList ▸ (Text.trim_sublist path.toList).length_le)

theorem length_keyOf_lt {path : String} (h : Text.trimmed path ≠ path) :
    (keyOf path).length < path.length := by
  refine (length_keyOf_le_trim path).trans_lt ?_
  rw [← String.length_toList]
  exact Text.length_trim_lt (fun he => h (Text.trimmed_eq_self_iff.2 he))

theorem trimmed_of_covered {paths : List String} (hnodup : paths.Nodup)
    (hcover : ∀ key ∈ paths, ∃ path ∈ paths, normalize path = .ok key) :
    ∀ path ∈ paths, Text.trimmed path = path := by
  have hsub : paths ⊆ paths.map keyOf := by
    intro key hk
    obtain ⟨path, hp, hn⟩ := hcover key hk
    exact List.mem_map.2 ⟨path, hp, keyOf_eq hn⟩
  -- As many keys as paths, so the keys are the paths in another order, of the same total length.
  have hperm : paths.Perm (paths.map keyOf) :=
    (hnodup.subperm hsub).perm_of_length_le (List.length_map keyOf).le
  have hsum : (paths.map String.length).sum = (paths.map (fun p => (keyOf p).length)).sum := by
    have h := (hperm.map String.length).sum_eq
    rwa [List.map_map] at h
  intro path hp
  by_contra hne
  have hlt := List.sum_lt_sum (fun p => (keyOf p).length) String.length
    (fun p _ => length_keyOf_le p) ⟨path, hp, length_keyOf_lt hne⟩
  exact absurd hsum hlt.ne'

end Path

namespace FileStore

theorem documentFiles_contents (entries : List (String × String)) :
    documentFiles (entries.map (fun e => (e.1, .str e.2))) = .ok entries := by
  induction entries with
  | nil => rfl
  | cons e entries ih => simp [documentFiles, ih]

theorem ofJson_toJson (s : FileStore) (limits : Limits) (now : Timestamp) :
    ofJson s.toJson limits now = ofFiles s.files.contents.entries limits now := by
  have h := documentFiles_contents s.files.contents.entries
  have he : s.files.entries.map (fun e => (e.1, Json.str e.2.content)) =
      s.files.contents.entries.map (fun e => (e.1, .str e.2)) := by
    simp [FileMap.contents, SortedMap.mapValues, Function.comp_def]
  rw [toJson, he, ofJson, h]

theorem ofFiles_eq_ok_iff {files : List (String × String)} {limits : Limits} {now : Timestamp}
    {t : FileStore} :
    ofFiles files limits now = .ok t ↔
      ∃ m, seededMap now ∅ files = .ok m ∧ t = { withLimits limits now with files := m } := by
  rw [ofFiles, seed, withLimits]
  cases h : seededMap now ∅ files with
  | ok m => simp [eq_comm, History.clear, History.new]
  | error e => simp

theorem mem_keys_seededMap {now : Timestamp} {m m' : FileMap} {files : List (String × String)}
    (h : seededMap now m files = .ok m') {key : String} (hk : key ∈ m'.keys) :
    key ∈ m.keys ∨ ∃ e ∈ files, Path.normalize e.1 = .ok key := by
  induction files generalizing m with
  | nil =>
    cases h
    exact .inl hk
  | cons e files ih =>
    rw [seededMap] at h
    split at h
    · rename_i key' hn
      rcases ih h with hm | ⟨e', he', hn'⟩
      · rw [SortedMap.mem_keys_iff, SortedMap.get?_insert] at hm
        split at hm
        · rename_i heq
          exact .inr ⟨e, List.mem_cons_self, heq ▸ hn⟩
        · exact .inl (SortedMap.mem_keys_iff.2 hm)
      · exact .inr ⟨e', List.mem_cons_of_mem _ he', hn'⟩
    · cases h

theorem seededMap_eq_foldl (now : Timestamp) (m : FileMap) {files : List (String × String)}
    (hn : ∀ e ∈ files, Path.normalize e.1 = .ok e.1) :
    seededMap now m files = .ok ((files.map (fun e => (e.1, File.new e.1 e.2 now))).foldl
      (fun m e => m.insert e.1 e.2) m) := by
  induction files generalizing m with
  | nil => rfl
  | cons e files ih =>
    obtain ⟨hpath, hn⟩ := List.forall_mem_cons.1 hn
    rw [seededMap, hpath]
    exact ih _ hn

variable {s : FileStore} {limits : Limits} {now : Timestamp}

theorem mem_keys_of_mem_contents {e : String × String} (he : e ∈ s.files.contents.entries) :
    e.1 ∈ s.files.keys := by
  rw [← SortedMap.keys_mapValues File.content]
  exact List.mem_map_of_mem he

theorem exists_reload (hkeys : ∀ key ∈ s.files.keys, Path.IsKey key.toList)
    (ht : ∀ key ∈ s.files.keys, Text.trimmed key = key) :
    ∃ t, ofJson s.toJson limits now = .ok t ∧ t.files.contents = s.files.contents ∧
      t.history.size = 0 := by
  have hn : ∀ e ∈ s.files.contents.entries, Path.normalize e.1 = .ok e.1 := by
    intro e he
    have hk := mem_keys_of_mem_contents he
    exact Path.normalize_of_isKey (hkeys _ hk) (ht _ hk)
  have hm := seededMap_eq_foldl now ∅ hn
  refine ⟨_, (ofJson_toJson ..).trans (ofFiles_eq_ok_iff.2 ⟨_, hm, rfl⟩), ?_, rfl⟩
  have hnodup : ((s.files.contents.entries.map
      (fun e => (e.1, File.new e.1 e.2 now))).map Prod.fst).Nodup := by
    rw [List.map_map]
    exact s.files.contents.nodup_keys
  refine SortedMap.ext (fun key => ?_)
  rw [FileMap.contents, SortedMap.get?_mapValues, SortedMap.get?_foldl_insert hnodup,
    SortedMap.lookup_map (fun k c => File.new k c now), SortedMap.get?_empty, Option.or_none,
    Option.map_map]
  exact congrFun Option.map_id_fun _

theorem trimmed_of_keys_reload {t : FileStore} (h : ofJson s.toJson limits now = .ok t)
    (hkeys : t.files.keys = s.files.keys) : ∀ key ∈ s.files.keys, Text.trimmed key = key := by
  rw [ofJson_toJson, ofFiles_eq_ok_iff] at h
  obtain ⟨m, hm, rfl⟩ := h
  refine Path.trimmed_of_covered s.files.nodup_keys (fun key hk => ?_)
  rw [← hkeys] at hk
  rcases mem_keys_seededMap hm hk with hempty | ⟨e, he, hn⟩
  · exact absurd hempty List.not_mem_nil
  · exact ⟨e.1, mem_keys_of_mem_contents he, hn⟩

theorem reload_iff_trimmed {made : Limits} (h : Reachable made s) (limits : Limits)
    (now : Timestamp) :
    ((∃ t, ofJson s.toJson limits now = .ok t ∧ t.files.contents = s.files.contents ∧
        t.history.size = 0) ↔
      ∀ key ∈ s.files.keys, Text.trimmed key = key) ∧
    ((∃ key ∈ s.files.keys, Text.trimmed key ≠ key) →
      ∀ t, ofJson s.toJson limits now = .ok t → t.files.keys ≠ s.files.keys) := by
  have hisKey : ∀ key ∈ s.files.keys, Path.IsKey key.toList := by
    intro key hk
    obtain ⟨file, hf⟩ := Option.isSome_iff_exists.1 (SortedMap.mem_keys_iff.1 hk)
    exact (h.sound.files key file hf).1
  refine ⟨⟨?_, exists_reload hisKey⟩, ?_⟩
  · rintro ⟨t, ht, hcontents, -⟩
    refine trimmed_of_keys_reload ht ?_
    have hk := congrArg SortedMap.keys hcontents
    rwa [FileMap.contents, FileMap.contents, SortedMap.keys_mapValues,
      SortedMap.keys_mapValues] at hk
  · rintro ⟨key, hk, hne⟩ t ht hsame
    exact hne (trimmed_of_keys_reload ht hsame key hk)

theorem reload_iff_trimmed_padded :
    let s := (withLimits {} ⟨0⟩).perform (.execute "echo 1 > './ a'; echo 2 > a")
    (Reachable {} s ∧ ∃ key ∈ s.files.keys, Text.trimmed key ≠ key) ∧
      (ofJson s.toJson {} ⟨1⟩).toOption.map (fun t => t.files.keys) = some ["a"] ∧
      ∀ t, ofJson s.toJson {} ⟨1⟩ = .ok t → t.files.keys ≠ s.files.keys := by
  intro s
  have hs : Reachable {} s := .perform (.withLimits ⟨0⟩) _
  have hkey : ∃ key ∈ s.files.keys, Text.trimmed key ≠ key := by decide +kernel
  exact ⟨⟨hs, hkey⟩, by decide +kernel, (reload_iff_trimmed hs {} ⟨1⟩).2 hkey⟩

end FileStore

end ProjectShell
