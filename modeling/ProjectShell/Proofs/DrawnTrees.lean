import Mathlib.Data.List.Nodup
import ProjectShell.Proofs.FoundEntries

namespace ProjectShell

namespace Command.Tree

variable {t c : Tree} {name : String} {cs : List (String × Tree)} {p : List String}
  {paths : List (List String)}

def at? : Tree → List String → Option Tree
  | t, [] => some t
  | t, name :: names => (SortedMap.lookup name t.children).bind (at? · names)

theorem at?_append (t : Tree) (p q : List String) : t.at? (p ++ q) = (t.at? p).bind (at? · q) := by
  induction p generalizing t with
  | nil => rfl
  | cons name p ih => simp [at?, Option.bind_assoc, ih]

theorem isSome_at?_leaf : (leaf.at? p).isSome = true ↔ p = [] := by
  cases p with
  | nil => exact iff_of_true rfl rfl
  | cons name p => exact iff_of_false (fun h => by cases h) (by simp)

theorem children_eq_nil_iff (h : t.at? p = some c) :
    c.children = [] ↔ ∀ name, t.at? (p ++ [name]) = none := by
  have hchild (name : String) : t.at? (p ++ [name]) = SortedMap.lookup name c.children := by
    rw [at?_append, h]
    simp [at?]
  simp only [hchild]
  constructor
  · intro hc name
    rw [hc]
    rfl
  · intro hnone
    cases hc : c.children with
    | nil => rfl
    | cons a rest => simpa [hc, SortedMap.lookup] using hnone a.1

inductive Ordered : Tree → Prop
  | node {cs : List (String × Tree)} (sorted : cs.Pairwise (fun a b => a.1 < b.1))
      (below : ∀ c ∈ cs, Ordered c.2) : Ordered (.node cs)

theorem ordered_leaf : leaf.Ordered := .node .nil nofun

theorem Ordered.sorted (h : t.Ordered) : t.children.Pairwise (fun a b => a.1 < b.1) := by
  cases h with
  | node sorted _ => exact sorted

theorem Ordered.of_mem (h : t.Ordered) : ∀ c ∈ t.children, c.2.Ordered := by
  cases h with
  | node _ below => exact below

theorem Ordered.lookup_getD (h : t.Ordered) (name : String) :
    ((SortedMap.lookup name t.children).getD leaf).Ordered := by
  cases hc : SortedMap.lookup name t.children with
  | none => exact ordered_leaf
  | some c => exact h.of_mem _ (SortedMap.mem_of_lookup hc)

theorem updateChild_eq (h : cs.Pairwise (fun a b => a.1 < b.1)) (name : String) (f : Tree → Tree) :
    updateChild name f cs =
      SortedMap.insertEntry name (f ((SortedMap.lookup name cs).getD leaf)) cs := by
  induction cs with
  | nil => rfl
  | cons a rest ih =>
    obtain ⟨n, t⟩ := a
    obtain ⟨hn, hrest⟩ := List.pairwise_cons.1 h
    rw [updateChild, SortedMap.insertEntry, ih hrest, SortedMap.lookup]
    split
    · rename_i hlt
      -- The names behind are higher still.
      have hnone : SortedMap.lookup name rest = none := by
        refine SortedMap.lookup_eq_none_of_not_mem (fun hm => ?_)
        obtain ⟨e, he, rfl⟩ := List.mem_map.1 hm
        exact String.lt_irrefl _ (String.lt_trans hlt (hn e he))
      rw [if_neg (fun he => String.lt_irrefl _ (he ▸ hlt)), hnone]
      rfl
    · split
      · rename_i hname
        rw [hname]
        rfl
      · rfl

theorem Ordered.insert (h : t.Ordered) (segments : List String) : (t.insert segments).Ordered := by
  induction segments generalizing t with
  | nil => exact h
  | cons segment segments ih =>
    rw [Tree.insert, updateChild_eq h.sorted]
    refine .node (SortedMap.pairwise_insertEntry h.sorted) (fun c hc => ?_)
    rcases SortedMap.mem_insertEntry hc with rfl | hc
    · exact ih (h.lookup_getD segment)
    · exact h.of_mem c hc

theorem isSome_at?_insert (h : t.Ordered) (segments p : List String) :
    ((t.insert segments).at? p).isSome = true ↔ (t.at? p).isSome = true ∨ p <+: segments := by
  induction segments generalizing t p with
  | nil =>
    rw [Tree.insert, List.prefix_nil]
    refine (or_iff_left_of_imp ?_).symm
    rintro rfl
    rfl
  | cons segment segments ih =>
    cases p with
    | nil => exact iff_of_true rfl (.inl rfl)
    | cons name names =>
      have hinsert : (t.insert (segment :: segments)).at? (name :: names) =
          (if segment = name then
            some (((SortedMap.lookup segment t.children).getD leaf).insert segments)
          else SortedMap.lookup name t.children).bind (at? · names) := by
        rw [Tree.insert, updateChild_eq h.sorted, at?, children, SortedMap.lookup_insertEntry]
      rw [hinsert, at?, List.cons_prefix_cons]
      by_cases hname : segment = name
      · subst hname
        rw [if_pos rfl, Option.bind_some, ih (h.lookup_getD segment)]
        cases SortedMap.lookup segment t.children with
        | some c => simp
        | none =>
          rw [Option.getD_none, isSome_at?_leaf]
          simp only [Option.bind_none, Option.isSome_none, Bool.false_eq_true, false_or, true_and]
          refine or_iff_right_of_imp ?_
          rintro rfl
          exact List.nil_prefix
      · rw [if_neg hname]
        simp [Ne.symm hname]

theorem ordered_foldl_insert (h : t.Ordered) (paths : List (List String)) :
    (paths.foldl (fun t p => t.insert p) t).Ordered := by
  induction paths generalizing t with
  | nil => exact h
  | cons q paths ih => exact ih (h.insert q)

theorem isSome_at?_foldl_insert (h : t.Ordered) (paths : List (List String)) :
    ((paths.foldl (fun t p => t.insert p) t).at? p).isSome = true ↔
      (t.at? p).isSome = true ∨ ∃ q ∈ paths, p <+: q := by
  induction paths generalizing t with
  | nil => simp
  | cons q paths ih =>
    rw [List.foldl_cons, ih (h.insert q), isSome_at?_insert h]
    simp [or_assoc]

def ofPaths (paths : List (List String)) : Tree := paths.foldl (fun t p => t.insert p) leaf

theorem ordered_ofPaths (paths : List (List String)) : (ofPaths paths).Ordered :=
  ordered_foldl_insert ordered_leaf paths

theorem isSome_at?_ofPaths :
    ((ofPaths paths).at? p).isSome = true ↔ p = [] ∨ ∃ q ∈ paths, p <+: q := by
  rw [ofPaths, isSome_at?_foldl_insert ordered_leaf, isSome_at?_leaf]

mutual

def leaves : Tree → List (List String)
  | node cs => leavesOf cs

def leavesOf : List (String × Tree) → List (List String)
  | [] => []
  | (name, child) :: rest =>
      (if child.children.isEmpty then [[name]] else child.leaves.map (name :: ·)) ++ leavesOf rest

end

theorem leavesOf_eq (cs : List (String × Tree)) :
    leavesOf cs = cs.flatMap (fun c =>
      if c.2.children.isEmpty then [[c.1]] else c.2.leaves.map (c.1 :: ·)) := by
  induction cs with
  | nil => rfl
  | cons c rest ih => rw [leavesOf, ih, List.flatMap_cons]

theorem leaves_of_children (h : c.children = []) : c.leaves = [] := by
  cases c with
  | node cs =>
    rw [show cs = [] from h]
    rfl

mutual

theorem files_draw (indent : String) : ∀ t : Tree, (t.draw indent).files = t.leaves.length
  | node cs => by rw [draw, leaves, files_drawChildren]

theorem files_drawChildren (indent : String) :
    ∀ cs : List (String × Tree), (drawChildren indent cs).files = (leavesOf cs).length
  | [] => rfl
  | (name, child) :: rest => by
    rw [drawChildren, leavesOf, List.length_append, ← files_drawChildren indent rest,
      files_draw _ child]
    cases hchild : child.children.isEmpty with
    | true =>
      rw [leaves_of_children (List.isEmpty_iff.1 hchild)]
      simp [Nat.add_comm]
    | false => simp

end

theorem mem_leaves_iff (h : t.Ordered) :
    p ∈ t.leaves ↔ p ≠ [] ∧ ∃ c, t.at? p = some c ∧ c.children = [] := by
  induction h generalizing p with
  | @node cs sorted below ih =>
    rw [leaves, leavesOf_eq, List.mem_flatMap]
    constructor
    · rintro ⟨⟨name, child⟩, hc, hp⟩
      have hat (names : List String) : (node cs).at? (name :: names) = child.at? names := by
        rw [at?, children, SortedMap.lookup_of_mem sorted hc, Option.bind_some]
      split at hp
      · rename_i hempty
        rw [List.mem_singleton.1 hp]
        exact ⟨by simp, child, hat [], List.isEmpty_iff.1 hempty⟩
      · obtain ⟨names, hnames, rfl⟩ := List.mem_map.1 hp
        obtain ⟨-, c, hc', hleaf⟩ := (ih _ hc).1 hnames
        exact ⟨by simp, c, (hat names).trans hc', hleaf⟩
    · rintro ⟨hne, c, hat, hleaf⟩
      obtain ⟨name, names, rfl⟩ := List.exists_cons_of_ne_nil hne
      obtain ⟨child, hlookup, hat⟩ := Option.bind_eq_some_iff.1 hat
      have hc := SortedMap.mem_of_lookup hlookup
      refine ⟨(name, child), hc, ?_⟩
      cases names with
      | nil =>
        obtain rfl : child = c := Option.some.inj hat
        simp [hleaf]
      | cons next names =>
        have hempty : child.children.isEmpty = false := by
          cases hcs : child.children with
          | nil => simp [at?, hcs, SortedMap.lookup] at hat
          | cons _ _ => rfl
        have hmem := (ih _ hc).2 ⟨List.cons_ne_nil next names, c, hat, hleaf⟩
        simpa [hempty] using hmem

theorem nodup_leaves (h : t.Ordered) : t.leaves.Nodup := by
  induction h with
  | @node cs sorted below ih =>
    rw [leaves, leavesOf_eq, List.nodup_flatMap]
    have hhead (c : String × Tree) : ∀ p ∈
        (if c.2.children.isEmpty then [[c.1]] else c.2.leaves.map (c.1 :: ·)),
        p.head? = some c.1 := by
      intro p hp
      split at hp
      · rw [List.mem_singleton.1 hp]
        rfl
      · obtain ⟨names, -, rfl⟩ := List.mem_map.1 hp
        rfl
    constructor
    · intro c hc
      split
      · exact List.nodup_singleton _
      · exact (ih c hc).map (List.cons_injective)
    · refine sorted.imp (fun {a b} hab p hp hq => ?_)
      have hname : a.1 = b.1 := Option.some.inj ((hhead a p hp).symm.trans (hhead b p hq))
      exact String.lt_irrefl _ (hname ▸ hab)

theorem mem_leaves_ofPaths :
    p ∈ (ofPaths paths).leaves ↔ p ≠ [] ∧ p ∈ paths ∧ ∀ q ∈ paths, p <+: q → q = p := by
  rw [mem_leaves_iff (ordered_ofPaths paths)]
  refine and_congr_right (fun hne => ⟨?_, ?_⟩)
  · rintro ⟨c, hat, hleaf⟩
    have hnone := (children_eq_nil_iff hat).1 hleaf
    have hlast : ∀ q ∈ paths, p <+: q → q = p := by
      rintro q hq ⟨more, rfl⟩
      cases more with
      | nil => exact List.append_nil p
      | cons name more =>
        have hsome : ((ofPaths paths).at? (p ++ [name])).isSome = true :=
          isSome_at?_ofPaths.2 (.inr ⟨_, hq, more, by simp⟩)
        rw [hnone name] at hsome
        cases hsome
    rcases isSome_at?_ofPaths.1 (Option.isSome_iff_exists.2 ⟨c, hat⟩) with hnil | ⟨q, hq, hp⟩
    · exact absurd hnil hne
    · exact ⟨hlast q hq hp ▸ hq, hlast⟩
  · rintro ⟨hp, hlast⟩
    obtain ⟨c, hat⟩ := Option.isSome_iff_exists.1
      (isSome_at?_ofPaths.2 (.inr ⟨p, hp, List.prefix_rfl⟩))
    refine ⟨c, hat, (children_eq_nil_iff hat).2 (fun name => ?_)⟩
    by_contra hsome
    rcases isSome_at?_ofPaths.1 (Option.isSome_iff_ne_none.2 hsome) with hnil | ⟨q, hq, hpq⟩
    · simp at hnil
    · have hlength := hpq.length_le
      rw [hlast q hq ((List.prefix_append p _).trans hpq)] at hlength
      simp at hlength

end Command.Tree

namespace Path

open Text

variable {dir key key' : String}

theorem under_self (hne : key ≠ "") : under key key = false := by
  rw [Bool.eq_false_iff]
  intro h
  obtain ⟨rest, hrest⟩ := exists_of_under h hne
  have hlength := congrArg List.length hrest
  simp at hlength

theorem pieces_prefix_pieces_iff {cs ds : List Char} :
    pieces '/' cs <+: pieces '/' ds ↔ ds = cs ∨ ∃ rest, ds = cs ++ '/' :: rest := by
  constructor
  · rintro ⟨more, hmore⟩
    have hcs : joined (pieces '/' cs) = cs := intercalate_pieces '/' cs
    have hds : joined (pieces '/' ds) = ds := intercalate_pieces '/' ds
    by_cases hnil : more = []
    · rw [hnil, List.append_nil] at hmore
      exact .inl (hds.symm.trans (hmore ▸ hcs))
    · refine .inr ⟨joined more, ?_⟩
      rw [← hds, ← hmore, joined_append _ _ (pieces_ne_nil _ _) hnil, hcs]
  · rintro (rfl | ⟨rest, rfl⟩)
    · exact List.prefix_rfl
    · rw [pieces_append]
      exact List.prefix_append _ _

end Path

namespace FileMap

def bareUnder (m : FileMap) (dir : String) : List String :=
  (m.pathsUnder dir).filter (fun key => (m.pathsUnder key).isEmpty)

theorem length_bareUnder_iff (m : FileMap) (dir : String) :
    (m.bareUnder dir).length = (m.pathsUnder dir).length ↔
      ∀ key ∈ m.pathsUnder dir, m.pathsUnder key = [] := by
  simp [bareUnder, List.length_filter_eq_length_iff]

end FileMap

namespace Command

open ProjectShell.Path Text

variable {m : FileMap} {dir key key' : String}

theorem segmentsBelow_of_front {rest : List Char} (h : key.toList = front dir ++ rest) :
    segmentsBelow dir key = (pieces '/' rest).map String.ofList := by
  rw [segmentsBelow, ← length_front, h, List.drop_left, piecesOf, String.toList_ofList]

theorem segmentsBelow_inj (hu : under dir key = true) (hu' : under dir key' = true) :
    segmentsBelow dir key = segmentsBelow dir key' ↔ key = key' := by
  refine ⟨fun h => ?_, fun h => h ▸ rfl⟩
  obtain ⟨rest, hrest⟩ := under_iff_front.1 hu
  obtain ⟨rest', hrest'⟩ := under_iff_front.1 hu'
  rw [segmentsBelow_of_front hrest, segmentsBelow_of_front hrest'] at h
  have hpieces : pieces '/' rest = pieces '/' rest' :=
    Function.Injective.list_map (fun _ _ => String.ofList_injective) h
  rw [← String.toList_inj, hrest, hrest', ← intercalate_pieces '/' rest, hpieces,
    intercalate_pieces]

theorem segmentsBelow_prefix_iff (hne : key ≠ "") (hu : under dir key = true)
    (hu' : under dir key' = true) :
    segmentsBelow dir key <+: segmentsBelow dir key' ↔ key' = key ∨ under key key' = true := by
  obtain ⟨rest, hrest⟩ := under_iff_front.1 hu
  obtain ⟨rest', hrest'⟩ := under_iff_front.1 hu'
  rw [segmentsBelow_of_front hrest, segmentsBelow_of_front hrest',
    List.prefix_map_iff_of_injective (f := String.ofList) (fun _ _ => String.ofList_injective),
    pieces_prefix_pieces_iff, under_iff_front, front_of_ne hne, ← String.toList_inj, hrest, hrest']
  simp

theorem mem_bareUnder_iff (hkeys : ∀ key ∈ m.keys, key ≠ "") (hk : key ∈ m.pathsUnder dir) :
    key ∈ m.bareUnder dir ↔
      ∀ below ∈ m.pathsUnder dir, segmentsBelow dir key <+: segmentsBelow dir below →
        segmentsBelow dir below = segmentsBelow dir key := by
  obtain ⟨hkey, hu⟩ := FileMap.mem_pathsUnder.1 hk
  have hne := hkeys key hkey
  rw [FileMap.bareUnder, List.mem_filter, and_iff_right hk, List.isEmpty_iff,
    List.eq_nil_iff_forall_not_mem]
  constructor
  · intro hbare below hb hprefix
    obtain ⟨hbelow, hdir⟩ := FileMap.mem_pathsUnder.1 hb
    rcases (segmentsBelow_prefix_iff hne hu hdir).1 hprefix with rfl | hlower
    · rfl
    · exact absurd (FileMap.mem_pathsUnder.2 ⟨hbelow, hlower⟩) (hbare below)
  · intro hlast below hb
    obtain ⟨hbelow, hlower⟩ := FileMap.mem_pathsUnder.1 hb
    have hdir : under dir below = true := under_trans hu hlower hne
    have hsame := hlast below (FileMap.mem_pathsUnder.2 ⟨hbelow, hdir⟩)
      ((segmentsBelow_prefix_iff hne hu hdir).2 (.inr hlower))
    rw [(segmentsBelow_inj hdir hu).1 hsame, under_self hne] at hlower
    cases hlower

def treeOf (m : FileMap) (dir : String) : Tree :=
  Tree.ofPaths ((m.pathsUnder dir).map (segmentsBelow dir))

theorem mem_leaves_treeOf_iff (hkeys : ∀ key ∈ m.keys, key ≠ "") {p : List String} :
    p ∈ (treeOf m dir).leaves ↔ p ∈ (m.bareUnder dir).map (segmentsBelow dir) := by
  rw [treeOf, Tree.mem_leaves_ofPaths, List.forall_mem_map]
  constructor
  · rintro ⟨-, hp, hlast⟩
    obtain ⟨key, hk, rfl⟩ := List.mem_map.1 hp
    exact List.mem_map_of_mem ((mem_bareUnder_iff hkeys hk).2 hlast)
  · intro hp
    obtain ⟨key, hbare, rfl⟩ := List.mem_map.1 hp
    have hk : key ∈ m.pathsUnder dir := (List.mem_filter.1 hbare).1
    refine ⟨?_, List.mem_map_of_mem hk, (mem_bareUnder_iff hkeys hk).1 hbare⟩
    simp [segmentsBelow, piecesOf, pieces_ne_nil]

theorem files_draw_treeOf (hkeys : ∀ key ∈ m.keys, key ≠ "") (dir : String) :
    ((treeOf m dir).draw "").files = (m.bareUnder dir).length := by
  have hunder (key : String) (hk : key ∈ m.bareUnder dir) : under dir key = true :=
    (FileMap.mem_pathsUnder.1 (List.mem_filter.1 hk).1).2
  have hnodup : ((m.bareUnder dir).map (segmentsBelow dir)).Nodup := by
    refine List.Nodup.map_on (fun key hk key' hk' => ?_) ((m.nodup_pathsUnder dir).filter _)
    exact (segmentsBelow_inj (hunder key hk) (hunder key' hk')).1
  have hleaves : (treeOf m dir).leaves.Nodup := Tree.nodup_leaves (Tree.ordered_ofPaths _)
  have hperm : (treeOf m dir).leaves.Perm ((m.bareUnder dir).map (segmentsBelow dir)) :=
    (List.perm_ext_iff_of_nodup hleaves hnodup).2 (fun _ => mem_leaves_treeOf_iff hkeys)
  rw [Tree.files_draw, hperm.length_eq, List.length_map]

theorem tree_eq {operand : String} (hdash : startsWith "-" operand = false) {v : View}
    (hdir : v.existingDir? operand = some dir) {d : Tree.Drawing}
    (hd : (treeOf v.files dir).draw "" = d) :
    tree [operand] v = .ok ("\n".intercalate ((if dir.isEmpty then "." else dir) :: d.lines ++
      ["", plural d.dirs "directory" "directories" ++ ", " ++ plural d.files "file" "files"])) := by
  subst hd
  simp only [tree, List.find?_cons, hdash, Bool.not_false, Option.getD_some, hdir, treeOf,
    Tree.ofPaths, List.foldl_map]

theorem stat_eq {operand : String} {v : View} (hread : v.files.read? operand = none)
    (hdir : v.existingDir? operand = some dir) {n : Nat}
    (hn : (v.files.pathsUnder dir).length = n) :
    stat [operand] v = .ok ("  File: " ++ (if dir.isEmpty then "." else dir) ++
      "/\n  Type: directory\n Files: " ++ toString n) := by
  have hone : statOperand v operand = .line ("  File: " ++ (if dir.isEmpty then "." else dir) ++
      "/\n  Type: directory\n Files: " ++ toString n) := by
    rw [statOperand, hread, hdir, ← hn]
  change (Report.concat [statOperand v operand]).outcome = _
  rw [hone, Report.concat, Report.concat, Report.append_empty]
  rfl

theorem tree_counts_as_stat_iff {limits : Limits} {s : FileStore} (hs : s.Reachable limits)
    {operand : String} (hdash : startsWith "-" operand = false)
    (hdir : s.view.existingDir? operand = some dir) (hread : s.read? operand = none)
    (stdin : Option String) :
    ∃ (lines : List String) (dirs files : Nat),
      ((dispatch "tree" [operand] stdin).run s).1 =
        .ok ("\n".intercalate (lines ++ ["", plural dirs "directory" "directories" ++ ", " ++
          plural files "file" "files"])) ∧
      ((dispatch "stat" [operand] stdin).run s).1 =
        .ok ("  File: " ++ (if dir.isEmpty then "." else dir) ++ "/\n  Type: directory\n Files: " ++
          toString (s.files.pathsUnder dir).length) ∧
      files = (s.files.bareUnder dir).length ∧
      (files = (s.files.pathsUnder dir).length ↔
        ∀ key ∈ s.files.pathsUnder dir, s.files.pathsUnder key = []) := by
  have hkeys : ∀ key ∈ s.files.keys, key ≠ "" := by
    intro key hk he
    exact (hs.sound.files.isKey hk).ne_nil (he ▸ rfl)
  have htree : (dispatch "tree" [operand] stdin).run s = (tree [operand] s.view, s) :=
    run_dispatch_read (b := .tree) s rfl
  have hstat : (dispatch "stat" [operand] stdin).run s = (stat [operand] s.view, s) :=
    run_dispatch_read (b := .stat) s rfl
  obtain ⟨d, hd⟩ : ∃ d, (treeOf s.files dir).draw "" = d := ⟨_, rfl⟩
  have hfiles : d.files = (s.files.bareUnder dir).length := hd ▸ files_draw_treeOf hkeys dir
  have hshown := tree_eq hdash hdir hd
  have hstated := stat_eq (v := s.view) (n := (s.files.pathsUnder dir).length) hread hdir rfl
  rw [htree, hstat, hshown, hstated]
  refine ⟨_, d.dirs, d.files, rfl, rfl, hfiles, ?_⟩
  rw [hfiles]
  exact s.files.length_bareUnder_iff dir

theorem tree_counts_as_stat_iff_nested :
    let s := (FileStore.withLimits {} ⟨0⟩).perform
      (.execute "echo 1 > lib/a; echo 2 > lib/a/b; echo 3 > lib/c")
    (s.Reachable {} ∧ startsWith "-" "./lib" = false ∧
        s.view.existingDir? "./lib" = some "lib" ∧ s.read? "./lib" = none) ∧
      ∃ (lines : List String) (dirs : Nat),
        ((dispatch "tree" ["./lib"] none).run s).1 =
          .ok ("\n".intercalate (lines ++ ["", plural dirs "directory" "directories" ++ ", " ++
            plural 2 "file" "files"])) ∧
        ((dispatch "stat" ["./lib"] none).run s).1 =
          .ok "  File: lib/\n  Type: directory\n Files: 3" := by
  intro s
  have hs : s.Reachable {} := .perform (.withLimits ⟨0⟩) _
  have hdash : startsWith "-" "./lib" = false := by decide
  have hdir : s.view.existingDir? "./lib" = some "lib" := by decide +kernel
  have hread : s.read? "./lib" = none := by decide +kernel
  have hbare : (s.files.bareUnder "lib").length = 2 := by decide +kernel
  have hall : (s.files.pathsUnder "lib").length = 3 := by decide +kernel
  obtain ⟨lines, dirs, files, htree, hstat, hfiles, -⟩ :=
    tree_counts_as_stat_iff hs hdash hdir hread none
  rw [hfiles, hbare] at htree
  rw [hall] at hstat
  exact ⟨⟨hs, hdash, hdir, hread⟩, lines, dirs, htree, hstat.trans (by decide)⟩

theorem tree_counts_fewer :
    let s := (FileStore.withLimits {} ⟨0⟩).perform (.execute "echo 1 > a; echo 2 > a/b")
    s.Reachable {} ∧ s.files.pathsUnder "" = ["a", "a/b"] ∧
      ((dispatch "tree" ["."] none).run s).1 =
        .ok ".\n└── a\n    └── b\n\n1 directory, 1 file" ∧
      ((dispatch "stat" ["."] none).run s).1 =
        .ok "  File: ./\n  Type: directory\n Files: 2" := by
  intro s
  exact ⟨.perform (.withLimits ⟨0⟩) _, by decide +kernel⟩

end Command

end ProjectShell
