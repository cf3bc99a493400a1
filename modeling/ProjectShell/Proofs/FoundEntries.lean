import ProjectShell.Proofs.ByteOrder
import ProjectShell.Proofs.Removal

namespace ProjectShell

namespace SortedMap

variable {α : Type} {m : SortedMap α} {key key' : String}

theorem mem_keys_insert {value : α} :
    key' ∈ (m.insert key value).keys ↔ key' = key ∨ key' ∈ m.keys := by
  rw [mem_keys_iff, mem_keys_iff, get?_insert]
  by_cases h : key = key'
  · simp [h]
  · simp [h, Ne.symm h]

theorem mem_keys_foldl_insert {l : List (String × α)} :
    key ∈ (l.foldl (fun m e => m.insert e.1 e.2) m).keys ↔
      key ∈ l.map Prod.fst ∨ key ∈ m.keys := by
  induction l generalizing m with
  | nil => simp
  | cons e l ih =>
    rw [List.foldl_cons, ih, mem_keys_insert, List.map_cons, List.mem_cons]
    tauto

theorem mem_keys_ofList {l : List (String × α)} :
    key ∈ (ofList l).keys ↔ key ∈ l.map Prod.fst :=
  mem_keys_foldl_insert.trans (or_iff_left List.not_mem_nil)

theorem pairwise_keys (m : SortedMap α) : m.keys.Pairwise (· < ·) :=
  List.pairwise_map.2 m.sorted

end SortedMap

theorem Report.out_concat (rs : List Report) : (concat rs).out = rs.flatMap Report.out := by
  induction rs with
  | nil => rfl
  | cons r rs ih => exact congrArg (r.out ++ ·) ih

namespace Path

open Text

theorem IsKey.of_append_left {cs ds : List Char} (h : IsKey (cs ++ '/' :: ds)) : IsKey cs := by
  refine ⟨fun hm => h.nul (List.mem_append_left _ hm), ?_⟩
  intro seg hs
  refine h.pieces seg ?_
  rw [pieces_append]
  exact List.mem_append_left _ hs

def front (dir : String) : List Char := if dir.isEmpty then [] else dir.toList ++ ['/']

theorem length_front (dir : String) :
    (front dir).length = if dir.isEmpty then 0 else dir.length + 1 := by
  rw [front]
  split
  · rfl
  · rw [List.length_append, String.length_toList, List.length_singleton]

theorem front_of_ne {dir : String} (h : dir ≠ "") : front dir = dir.toList ++ ['/'] := by
  simp [front, h]

theorem under_iff_front {dir key : String} :
    under dir key = true ↔ ∃ rest, key.toList = front dir ++ rest := by
  by_cases hdir : dir = ""
  · subst hdir
    exact iff_of_true rfl ⟨key.toList, rfl⟩
  · rw [front_of_ne hdir]
    constructor
    · intro h
      obtain ⟨rest, hrest⟩ := exists_of_under h hdir
      exact ⟨rest, by simpa using hrest⟩
    · rintro ⟨rest, hrest⟩
      have hkey : key = dir ++ "/" ++ String.ofList rest := by
        rw [← String.toList_inj, hrest]
        simp
      rw [hkey]
      exact under_append dir _

theorem under_trans {root dir key : String} (hroot : under root dir = true)
    (hdir : under dir key = true) (hne : dir ≠ "") : under root key = true := by
  obtain ⟨mid, hmid⟩ := under_iff_front.1 hroot
  obtain ⟨rest, hrest⟩ := under_iff_front.1 hdir
  refine under_iff_front.2 ⟨mid ++ '/' :: rest, ?_⟩
  rw [hrest, front_of_ne hne, hmid]
  simp

theorem segments_front (dir : String) (rest : List Char) :
    segments (front dir ++ rest) = segments dir.toList ++ segments rest := by
  by_cases hdir : dir = ""
  · subst hdir
    rfl
  · rw [front_of_ne hdir, List.append_assoc]
    exact segments_append _ _

theorem IsKey.of_front {dir : String} {rest : List Char} (h : IsKey (front dir ++ rest)) :
    IsKey rest := by
  by_cases hdir : dir = ""
  · subst hdir
    exact h
  · rw [front_of_ne hdir, List.append_assoc] at h
    exact h.of_append

def level (path : String) : Nat := (segments path.toList).length

theorem level_below {dir key : String} {rest : List Char} (hk : key.toList = front dir ++ rest)
    (hrest : IsKey rest) : level key = level dir + (pieces '/' rest).length := by
  rw [level, hk, segments_front, List.length_append, hrest.segments_eq]
  rfl

end Path

namespace Command.Find

open ProjectShell.Path Text

variable {m : FileMap} {v : View} {root key operand : String} {e : Entry}

theorem mem_dirsBetween_iff {before : List Char} {depth : Nat} {segs : List (List Char)} :
    e ∈ dirsBetween before depth segs ↔
      ∃ seg more back, back ≠ [] ∧ segs = seg :: more ++ back ∧
        e = ⟨String.ofList (before ++ joined (seg :: more)), .dir, depth + more.length⟩ := by
  fun_induction dirsBetween before depth segs with
  | case1 => simp
  | case2 before depth seg => simp
  | case3 before depth seg rest hrest ih =>
    rw [List.mem_cons, ih]
    have hstep (next : List Char) (more : List (List Char)) :
        before ++ seg ++ ['/'] ++ joined (next :: more) =
          before ++ joined (seg :: next :: more) := by
      rw [joined_cons seg (by simp)]
      simp
    constructor
    · rintro (rfl | ⟨next, more, back, hback, rfl, rfl⟩)
      · exact ⟨seg, [], rest, fun h => hrest h, rfl, by simp [joined]⟩
      · refine ⟨seg, next :: more, back, hback, rfl, ?_⟩
        rw [hstep, List.length_cons, Nat.add_assoc, Nat.add_comm 1]
    · rintro ⟨first, more, back, hback, hsegs, rfl⟩
      obtain ⟨rfl, rfl⟩ := List.cons.inj hsegs
      cases more with
      | nil => exact .inl (by simp [joined])
      | cons next more =>
        refine .inr ⟨next, more, back, hback, rfl, ?_⟩
        rw [hstep, List.length_cons, Nat.add_assoc, Nat.add_comm 1]

theorem mem_dirsBetween_pieces {before rest : List Char} :
    e ∈ dirsBetween before 1 (pieces '/' rest) ↔
      ∃ mid tail, rest = mid ++ '/' :: tail ∧
        e = ⟨String.ofList (before ++ mid), .dir, (pieces '/' mid).length⟩ := by
  rw [mem_dirsBetween_iff]
  constructor
  · rintro ⟨seg, more, back, hback, hsegs, rfl⟩
    have hslash : ∀ s ∈ seg :: more, '/' ∉ s := by
      intro s hs
      have hpiece : s ∈ pieces '/' rest := hsegs ▸ List.mem_append_left _ hs
      exact not_mem_of_mem_pieces hpiece
    refine ⟨joined (seg :: more), joined back, ?_, ?_⟩
    · rw [← joined_append _ _ (by simp) hback, ← hsegs]
      exact (intercalate_pieces '/' rest).symm
    · rw [joined, pieces_intercalate (by simp) hslash, List.length_cons, Nat.add_comm]
  · rintro ⟨mid, tail, rfl, rfl⟩
    obtain ⟨seg, more, hmid⟩ := List.exists_cons_of_ne_nil (pieces_ne_nil '/' mid)
    refine ⟨seg, more, pieces '/' tail, pieces_ne_nil _ _, ?_, ?_⟩
    · rw [pieces_append, hmid]
    · rw [← hmid, joined, intercalate_pieces, hmid, List.length_cons, Nat.add_comm]

theorem entriesOf_below {rest : List Char} (h : key.toList = front root ++ rest) :
    entriesOf root key =
      ⟨key, .file, (pieces '/' rest).length⟩ :: dirsBetween (front root) 1 (pieces '/' rest) := by
  rw [entriesOf, ← length_front, h, List.drop_left, List.take_left]

theorem mem_entriesOf_iff (hkey : IsKey key.toList) (hu : under root key = true) :
    e ∈ entriesOf root key ↔
      e = ⟨key, .file, level key - level root⟩ ∨
        ∃ dir, dir ≠ "" ∧ under root dir = true ∧ under dir key = true ∧
          e = ⟨dir, .dir, level dir - level root⟩ := by
  obtain ⟨rest, hrest⟩ := under_iff_front.1 hu
  have hisKey : IsKey rest := (hrest ▸ hkey).of_front
  rw [entriesOf_below hrest, List.mem_cons, mem_dirsBetween_pieces, level_below hrest hisKey,
    Nat.add_sub_cancel_left]
  refine or_congr_right ⟨?_, ?_⟩
  · rintro ⟨mid, tail, rfl, rfl⟩
    have hmid : IsKey mid := hisKey.of_append_left
    have hdir : (String.ofList (front root ++ mid)).toList = front root ++ mid :=
      String.toList_ofList
    have hne : String.ofList (front root ++ mid) ≠ "" := by
      rw [Ne, ← String.toList_inj, hdir]
      exact List.append_ne_nil_of_right_ne_nil _ hmid.ne_nil
    refine ⟨_, hne, under_iff_front.2 ⟨mid, hdir⟩, under_iff_front.2 ⟨tail, ?_⟩, ?_⟩
    · rw [front_of_ne hne, hdir, hrest]
      simp
    · rw [level_below hdir hmid, Nat.add_sub_cancel_left]
  · rintro ⟨dir, hne, hroot, hdir, rfl⟩
    obtain ⟨mid, hmid⟩ := under_iff_front.1 hroot
    obtain ⟨tail, htail⟩ := under_iff_front.1 hdir
    rw [front_of_ne hne, hmid, List.append_assoc, List.append_assoc] at htail
    have heq : rest = mid ++ '/' :: tail := List.append_cancel_left (hrest.symm.trans htail)
    refine ⟨mid, tail, heq, ?_⟩
    rw [level_below hmid (heq ▸ hisKey).of_append_left, Nat.add_sub_cancel_left, ← hmid,
      String.ofList_toList]

inductive Meets (m : FileMap) (root : String) : Entry → Prop
  | itself (h : m.hasFile root = true) : Meets m root ⟨root, .file, 0⟩
  | top (h : m.hasFile root = false) (hne : root ≠ "") : Meets m root ⟨root, .dir, 0⟩
  | file {key : String} (h : m.hasFile root = false) (hk : key ∈ m.keys)
      (hu : under root key = true) : Meets m root ⟨key, .file, level key - level root⟩
  | dir {dir key : String} (h : m.hasFile root = false) (hne : dir ≠ "")
      (hu : under root dir = true) (hk : key ∈ m.keys) (hd : under dir key = true) :
      Meets m root ⟨dir, .dir, level dir - level root⟩

theorem mem_entriesAt_iff (hs : v.files.WellAddressed) :
    e ∈ entriesAt v root ↔ Meets v.files root e := by
  have hkeys (key : String) (hk : key ∈ v.files.keys) : IsKey key.toList :=
    (normalize_eq_self_iff.1 (hs key hk)).1
  cases hfile : v.files.hasFile root with
  | true =>
    rw [entriesAt, if_pos hfile, List.mem_singleton]
    constructor
    · rintro rfl
      exact .itself hfile
    · intro h
      cases h with
      | itself _ => rfl
      | top h _ | file h _ _ | dir h _ _ _ _ => cases hfile.symm.trans h
  | false =>
    rw [entriesAt, if_neg (by simp [hfile]), List.mem_append, List.mem_flatMap]
    constructor
    · rintro (he | ⟨key, hp, he⟩)
      · split at he
        · exact absurd he List.not_mem_nil
        · rename_i hempty
          rw [List.mem_singleton.1 he]
          exact .top hfile (by simpa using hempty)
      · obtain ⟨hk, hu⟩ := FileMap.mem_pathsUnder.1 hp
        rcases (mem_entriesOf_iff (hkeys key hk) hu).1 he with rfl | ⟨dir, hne, hr, hd, rfl⟩
        · exact .file hfile hk hu
        · exact .dir hfile hne hr hk hd
    · intro h
      cases h with
      | itself h => cases hfile.symm.trans h
      | top h hne => exact .inl (by simp [hne])
      | @file key h hk hu =>
        exact .inr ⟨key, FileMap.mem_pathsUnder.2 ⟨hk, hu⟩,
          (mem_entriesOf_iff (hkeys key hk) hu).2 (.inl rfl)⟩
      | @dir dir key h hne hu hk hd =>
        have hroot : under root key = true := under_trans hu hd hne
        exact .inr ⟨key, FileMap.mem_pathsUnder.2 ⟨hk, hroot⟩,
          (mem_entriesOf_iff (hkeys key hk) hroot).2 (.inr ⟨dir, hne, hu, hd, rfl⟩)⟩

theorem root?_eq_some_iff (hs : v.files.WellAddressed) (hn : normalizeDir operand = .ok root)
    (ht : trimmed root = root) :
    (v.files.hasFile root = true ↔ root ∈ v.files.keys) ∧
      (root? v operand = some root ↔
        root = "" ∨ root ∈ v.files.keys ∨ ∃ key ∈ v.files.keys, under root key = true) := by
  by_cases hroot : root = ""
  · subst hroot
    have hfile : v.files.hasFile "" = false := rfl
    have hkey : "" ∉ v.files.keys := fun hk => by cases hs "" hk
    have hdir : v.files.isDir "" = true := rfl
    simp [hfile, hkey, root?, hn, hdir]
  · have hself : normalize root = .ok root := by
      refine normalize_of_isKey ?_ ht
      rw [normalizeDir] at hn
      split at hn
      · exact absurd (Except.ok.inj hn).symm hroot
      · exact isKey_of_key? (normalize_eq_ok_iff.1 hn)
    have hfile : v.files.hasFile root = true ↔ root ∈ v.files.keys := by
      constructor
      · intro h
        obtain ⟨key, hk, hkey⟩ := FileMap.exists_of_hasFile h
        exact Except.ok.inj (hself.symm.trans hkey) ▸ hk
      · exact FileMap.hasFile_of_mem hself
    have hdir : v.files.isDir root = true ↔ ∃ key ∈ v.files.keys, under root key = true := by
      rw [FileMap.isDir_eq (normalizeDir_of_normalize hself) hroot]
      simp [FileMap.pathsUnder]
    refine ⟨hfile, ?_⟩
    have hthere : root? v operand = some root ↔
        v.files.isDir root = true ∨ v.files.hasFile root = true := by
      simp only [root?, hn, Option.ite_none_right_eq_some, and_true, Bool.or_eq_true]
    rw [hthere, hdir, hfile, or_comm, or_iff_right hroot]

theorem out_rootEntries (v : View) (operand : String) : (rootEntries v operand).2.out = [] := by
  rw [rootEntries]
  split <;> rfl

theorem stdout_run {args : List String} {q : Query} (hq : parse args = .ok q) (v : View) :
    (run args v).stdout = "\n".intercalate (SortedMap.ofList
      (((q.roots.flatMap (fun operand => (rootEntries v operand).1)).filter
        (fun e => q.accepts e.path e.kind e.depth)).map (fun e => (e.path, ())))).keys := by
  have hout (roots : List String) :
      (Report.concat ((roots.map (rootEntries v)).map Prod.snd)).out = [] := by
    rw [Report.out_concat]
    simp [out_rootEntries]
  simp only [run, hq, List.flatMap_map]
  change "\n".intercalate ((Report.concat _).out ++ _) = _
  rw [hout]
  rfl

theorem find_meets {s : FileStore} (hs : s.files.WellAddressed) {args : List String} {q : Query}
    (hq : parse args = .ok q) (stdin : Option String) :
    ∃ paths : List String,
      ((dispatch "find" args stdin).run s).1.stdout = "\n".intercalate paths ∧
      paths.Pairwise (fun a b => bytes a < bytes b) ∧
      (∀ path, path ∈ paths ↔
        ∃ operand ∈ q.roots, ∃ root, root? s.view operand = some root ∧
          ∃ kind depth, Meets s.files root ⟨path, kind, depth⟩ ∧
            q.accepts path kind depth = true) ∧
      ∀ operand root, normalizeDir operand = .ok root → trimmed root = root →
        (s.files.hasFile root = true ↔ root ∈ s.files.keys) ∧
        (root? s.view operand = some root ↔
          root = "" ∨ root ∈ s.files.keys ∨ ∃ key ∈ s.files.keys, under root key = true) := by
  have hrun : (dispatch "find" args stdin).run s = (run args s.view, s) :=
    run_dispatch_read (b := .find) s rfl
  rw [hrun, stdout_run hq]
  refine ⟨_, rfl, ?_, ?_, fun _ _ hn ht => root?_eq_some_iff (v := s.view) hs hn ht⟩
  · simp only [bytes_lt_iff]
    exact SortedMap.pairwise_keys _
  · intro path
    simp only [SortedMap.mem_keys_ofList, List.map_map, List.mem_map, List.mem_filter,
      List.mem_flatMap, Function.comp_apply]
    constructor
    · rintro ⟨⟨path, kind, depth⟩, ⟨⟨operand, hoperand, he⟩, haccepts⟩, rfl⟩
      rw [rootEntries] at he
      split at he
      · rename_i root hroot
        exact ⟨operand, hoperand, root, hroot, kind, depth, (mem_entriesAt_iff hs).1 he, haccepts⟩
      · exact absurd he List.not_mem_nil
    · rintro ⟨operand, hoperand, root, hroot, kind, depth, he, haccepts⟩
      refine ⟨⟨path, kind, depth⟩, ⟨⟨operand, hoperand, ?_⟩, haccepts⟩, rfl⟩
      rw [rootEntries, hroot]
      exact (mem_entriesAt_iff hs).2 he

theorem find_meets_overlapping :
    let s := ((FileStore.new ⟨0⟩).seed [("src/a.ts", "1"), ("src/lib/b.ts", "2"), ("srcs/c", "3")]).2
    let args := ["./src", "src/lib/", "-type", "d"]
    let q : Query := { roots := ["./src", "src/lib/"], kind := some .dir }
    (s.files.WellAddressed ∧ parse args = .ok q) ∧
      ∃ paths : List String,
        ((dispatch "find" args none).run s).1.stdout = "\n".intercalate paths ∧
        "src" ∈ paths ∧ "src/lib" ∈ paths := by
  intro s args q
  have hs : s.files.WellAddressed := by decide +kernel
  have hq : parse args = .ok q := rfl
  have hn : normalizeDir "./src" = .ok "src" := by decide +kernel
  have hfile : s.files.hasFile "src" = false := by decide +kernel
  have hk : "src/lib/b.ts" ∈ s.files.keys := by decide +kernel
  obtain ⟨paths, hout, -, hpaths, hroots⟩ := find_meets hs hq none
  have hroot : root? s.view "./src" = some "src" :=
    (hroots _ _ hn (by decide)).2.2 (.inr (.inr ⟨_, hk, by decide⟩))
  refine ⟨⟨hs, hq⟩, paths, hout, (hpaths _).2 ?_, (hpaths _).2 ?_⟩
  · exact ⟨_, List.mem_cons_self, _, hroot, .dir, 0, .top hfile (by decide), by decide⟩
  · have hlib : Meets s.files "src" ⟨"src/lib", .dir, level "src/lib" - level "src"⟩ :=
      .dir hfile (by decide) (by decide) hk (by decide)
    exact ⟨_, List.mem_cons_self, _, hroot, .dir, _, hlib, by decide⟩

theorem find_padded_root :
    let s := ((FileStore.new ⟨0⟩).seed [("a/c", "1")]).2
    let t := ((FileStore.new ⟨0⟩).seed [("a /b", "1")]).2
    Path.normalizeDir "a /." = .ok "a " ∧
      (s.files.WellAddressed ∧ (∀ key ∈ s.files.keys, under "a " key = false) ∧
        ((dispatch "find" ["a /."] none).run s).1 = .ok "a ") ∧
      t.files.WellAddressed ∧ (∃ key ∈ t.files.keys, under "a " key = true) ∧
        ((dispatch "find" ["a /."] none).run t).1 =
          .failure "find: 'a /.': No such file or directory" := by
  decide +kernel

end Command.Find

end ProjectShell
