import ProjectShell.Glob.PathPattern
import ProjectShell.Proofs.Literals
import ProjectShell.Proofs.RegexTrees

namespace ProjectShell

namespace Regex

namespace Place

def Reads : List Char → Place → Place → Prop
  | [], p, q => q = p
  | c :: t, p, q => p.rest.head? = some c ∧ Reads t p.step q

variable {p q : Place} {s t cs : List Char}

theorem reads_append : Reads (s ++ t) p q ↔ ∃ r, Reads s p r ∧ Reads t r q := by
  induction s generalizing p with
  | nil => simp [Reads]
  | cons c s ih => simp only [List.cons_append, Reads, ih, and_assoc, exists_and_left]

theorem Reads.rest_eq (h : Reads t p q) : p.rest = t ++ q.rest := by
  induction t generalizing p with
  | nil => exact congrArg rest (Eq.symm h)
  | cons c t ih =>
    obtain ⟨hc, h⟩ := h
    rw [List.cons_append, ← ih h, rest_step]
    exact (List.cons_head?_tail hc).symm

theorem exists_reads (h : p.rest = t ++ cs) : ∃ q, Reads t p q ∧ q.rest = cs := by
  induction t generalizing p with
  | nil => exact ⟨p, rfl, h⟩
  | cons c t ih =>
    have hstep : p.step.rest = t ++ cs := by rw [rest_step, h, List.cons_append, List.tail_cons]
    obtain ⟨q, hq, hrest⟩ := ih hstep
    exact ⟨q, ⟨by rw [h, List.cons_append, List.head?_cons], hq⟩, hrest⟩

theorem eq_of_mem_onward (h : q ∈ p.onward) (hq : q.before = none) : q = p := by
  induction p using onward_induction with
  | hnil p hp => rwa [onward_of_nil hp, List.mem_singleton] at h
  | hcons p c cs hp ih =>
    rw [onward_of_cons hp, List.mem_cons] at h
    rcases h with h | h
    · exact h
    · have hbefore := congrArg before (ih h)
      rw [hq, step, hp] at hbefore
      cases hbefore

end Place

open Place

namespace Node

variable {p q : Place} {s : CharSet}

theorem takes_char {c : Char} : (char c).Takes p q ↔ Reads [c] p q := Iff.rfl

theorem takes_start : (look .start).Takes p q ↔ p.before = none ∧ q = p := by
  simp only [Takes, Look.holds, Option.isNone_iff_eq_none]

theorem takes_stop : (look .stop).Takes p q ↔ p.rest = [] ∧ q = p := by
  simp only [Takes, Look.holds, Option.isNone_iff_eq_none, List.head?_eq_none_iff]

theorem takes_set : (set s).Takes p q ↔ ∃ c, s.contains c = true ∧ Reads [c] p q := by
  simp only [Takes, Reads]
  constructor
  · rintro ⟨⟨c, hc, hs⟩, hq⟩
    exact ⟨c, hs, hc, hq⟩
  · rintro ⟨c, hs, hc, hq⟩
    exact ⟨⟨c, hc, hs⟩, hq⟩

theorem takes_loop_set {greedy : Bool} :
    (loop 0 none greedy (set s)).Takes p q ↔
      ∃ t, (∀ c ∈ t, s.contains c = true) ∧ Reads t p q := by
  simp only [Takes, Nat.zero_le, Option.mem_def, reduceCtorEq, false_implies, implies_true,
    true_and]
  constructor
  · rintro ⟨n, hn⟩
    induction n generalizing p with
    | zero => exact ⟨[], nofun, hn⟩
    | succ n ih =>
      obtain ⟨r, hr, hq⟩ := hn
      obtain ⟨c, hc, hr⟩ := takes_set.1 hr
      obtain ⟨t, ht, hq⟩ := ih hq
      exact ⟨c :: t, List.forall_mem_cons.2 ⟨hc, ht⟩, reads_append.2 ⟨r, hr, hq⟩⟩
  · rintro ⟨t, ht, hq⟩
    induction t generalizing p with
    | nil => exact ⟨0, hq⟩
    | cons c t ih =>
      obtain ⟨hc, ht⟩ := List.forall_mem_cons.1 ht
      obtain ⟨n, hn⟩ := ih ht hq.2
      exact ⟨n + 1, p.step, takes_set.2 ⟨c, hc, hq.1, rfl⟩, hn⟩

theorem takes_option {greedy : Bool} {sub : Node} :
    (loop 0 (some 1) greedy sub).Takes p q ↔ q = p ∨ sub.Takes p q := by
  have h : (∃ n ≤ 0 + 1, Repeats sub.Takes n p q) ↔ _ := exists_repeats_le_succ
  simpa [Takes, Repeats] using h

end Node

namespace Parse

variable {cs : List Char} {fuel group : Nat} {names : List String} {read : List Node} {sub : Node}

theorem run_lazyMark {s : Scan} (h : s.rest.head? ≠ some '?') :
    lazyMark.run s = some (false, s) := by
  change (if s.rest.head? = some '?' then _ else pure false : Parse Bool).run s = _
  rw [if_neg h]
  rfl

theorem run_repeat {min : Nat} {max : Option Nat} (hlazy : cs.head? ≠ some '?') :
    (do let read ← repeatLast min max (← lazyMark) (sub :: read)
        branchesFrom 0 read [] fuel : Parse Node).run ⟨cs, {}, group, names⟩ =
      (branchesFrom 0 (.ofLoop min max true sub :: read) [] fuel).run ⟨cs, {}, group, names⟩ := by
  rw [StateT.run_bind, run_lazyMark hlazy]
  rfl

theorem run_branchesFrom_any :
    (branchesFrom 0 read [] (fuel + 1)).run ⟨'.' :: cs, {}, group, names⟩ =
      (branchesFrom 0 (.set (CharSet.single '\n').complement :: read) [] fuel).run
        ⟨cs, {}, group, names⟩ := rfl

theorem run_branchesFrom_class :
    (branchesFrom 0 read [] (fuel + 3)).run ⟨'[' :: '^' :: '/' :: ']' :: cs, {}, group, names⟩ =
      (branchesFrom 0 (.set (CharSet.single '/').complement :: read) [] (fuel + 2)).run
        ⟨cs, {}, group, names⟩ := rfl

theorem run_branchesFrom_star (hlazy : cs.head? ≠ some '?') :
    (branchesFrom 0 (sub :: read) [] (fuel + 1)).run ⟨'*' :: cs, {}, group, names⟩ =
      (branchesFrom 0 (.loop 0 none true sub :: read) [] fuel).run ⟨cs, {}, group, names⟩ :=
  run_repeat hlazy

theorem run_branchesFrom_group (hlazy : cs.head? ≠ some '?') :
    (branchesFrom 0 read [] (fuel + 8)).run
      ⟨'(' :: '?' :: ':' :: '.' :: '*' :: '/' :: ')' :: '?' :: cs, {}, group, names⟩ =
      (branchesFrom 0 (.loop 0 (some 1) true (.concat [.loop 0 none true
        (.set (CharSet.single '\n').complement), .char '/']) :: read) [] (fuel + 6)).run
        ⟨cs, {}, group, names⟩ :=
  run_repeat hlazy

end Parse

end Regex

namespace PathPattern

inductive Item
  | anyDirs
  | anyText
  | inSegment
  | one
  | char (c : Char)
deriving DecidableEq, Repr

def items : List Char → List Item
  | [] => []
  | '*' :: '*' :: '/' :: cs => .anyDirs :: items cs
  | '*' :: '*' :: cs => .anyText :: items cs
  | '*' :: cs => .inSegment :: items cs
  | '?' :: cs => .one :: items cs
  | c :: cs => .char c :: items cs

example : items ['*', '*', '*', '/'] = [.anyText, .inSegment, .char '/'] := rfl

namespace Item

def Matches : Item → List Char → Prop
  | anyDirs, t => t = [] ∨ ('\n' ∉ t ∧ t.getLast? = some '/')
  | anyText, t => '\n' ∉ t
  | inSegment, t => '/' ∉ t
  | one, t => ∃ c, c ≠ '/' ∧ t = [c]
  | char c, t => t = [c]

def source : Item → List Char
  | anyDirs => segmentsSource
  | anyText => textSource
  | inSegment => inSegmentSource
  | one => oneSource
  | char c => Regex.escape [c]

open Regex (Node CharSet)

def allBut (c : Char) : Node := .set (CharSet.single c).complement

def node : Item → Node
  | anyDirs => .loop 0 (some 1) true (.concat [.loop 0 none true (allBut '\n'), .char '/'])
  | anyText => .loop 0 none true (allBut '\n')
  | inSegment => .loop 0 none true (allBut '/')
  | one => allBut '/'
  | char c => .char c

end Item

def Matches (is : List Item) (t : List Char) : Prop :=
  ∃ texts, List.Forall₂ Item.Matches is texts ∧ t = texts.flatten

theorem matches_nil {t : List Char} : Matches [] t ↔ t = [] := by
  simp [Matches]

theorem matches_cons {i : Item} {is : List Item} {t : List Char} :
    Matches (i :: is) t ↔ ∃ a b, i.Matches a ∧ Matches is b ∧ t = a ++ b := by
  constructor
  · rintro ⟨texts, h, rfl⟩
    cases h with
    | @cons i a is texts ha htexts => exact ⟨a, texts.flatten, ha, ⟨texts, htexts, rfl⟩, rfl⟩
  · rintro ⟨a, b, ha, ⟨texts, htexts, rfl⟩, rfl⟩
    exact ⟨a :: texts, .cons ha htexts, rfl⟩

theorem regexBody_eq (cs : List Char) : regexBody cs = (items cs).flatMap Item.source := by
  fun_induction items cs with
  | case1 => rfl
  | case2 cs ih => rw [regexBody, ih, List.flatMap_cons, Item.source]
  | case3 cs hslash ih => rw [regexBody, ih, List.flatMap_cons, Item.source]; exact hslash
  | case4 cs hslash hstar ih =>
    rw [regexBody, ih, List.flatMap_cons, Item.source]
    · exact hslash
    · exact hstar
  | case5 cs ih => rw [regexBody, ih, List.flatMap_cons, Item.source]
  | case6 c cs hslash hstar hone hchar ih =>
    rw [regexBody, ih, List.flatMap_cons, Item.source]
    · exact hslash
    · exact hstar
    · exact hone
    · exact hchar

theorem segmentsSource_eq : segmentsSource = ['(', '?', ':', '.', '*', '/', ')', '?'] := by
  decide +kernel

theorem textSource_eq : textSource = ['.', '*'] := by decide +kernel

theorem inSegmentSource_eq : inSegmentSource = ['[', '^', '/', ']', '*'] := by decide +kernel

theorem oneSource_eq : oneSource = ['[', '^', '/', ']'] := by decide +kernel

theorem Item.source_char (c : Char) :
    (Item.char c).source = if Regex.isSpecial c then ['\\', c] else [c] := rfl

theorem head?_sources_ne (is : List Item) :
    (is.flatMap Item.source ++ ['$']).head? ≠ some '?' := by
  cases is with
  | nil => decide
  | cons i is =>
    cases i with
    | anyDirs => simp [Item.source, segmentsSource_eq]
    | anyText => simp [Item.source, textSource_eq]
    | inSegment => simp [Item.source, inSegmentSource_eq]
    | one => simp [Item.source, oneSource_eq]
    | char c =>
      rw [List.flatMap_cons, Item.source_char]
      split
      · simp
      · rename_i hc
        have hne : c ≠ '?' := fun h => hc (h ▸ rfl)
        simpa using hne

section Reading

open Regex Regex.Parse

variable {cs : List Char} {fuel group : Nat} {names : List String} {read : List Node}

theorem run_source (i : Item) (hlazy : cs.head? ≠ some '?')
    (hfuel : i.source.length + 2 ≤ fuel) :
    ∃ fuel', fuel ≤ fuel' + i.source.length ∧
      (branchesFrom 0 read [] fuel).run ⟨i.source ++ cs, {}, group, names⟩ =
        (branchesFrom 0 (i.node :: read) [] fuel').run ⟨cs, {}, group, names⟩ := by
  -- The fuel that is left has a bound from below only: a group takes less of it than its length.
  cases i with
  | anyDirs =>
    simp only [Item.source, segmentsSource_eq, List.length_cons, List.length_nil] at hfuel ⊢
    obtain ⟨k, rfl⟩ := Nat.exists_eq_add_of_le' (show 8 ≤ fuel by omega)
    exact ⟨k + 6, by omega, run_branchesFrom_group hlazy⟩
  | anyText =>
    simp only [Item.source, textSource_eq, List.length_cons, List.length_nil] at hfuel ⊢
    obtain ⟨k, rfl⟩ := Nat.exists_eq_add_of_le' (show 2 ≤ fuel by omega)
    exact ⟨k, by omega, run_branchesFrom_any.trans (run_branchesFrom_star hlazy)⟩
  | inSegment =>
    simp only [Item.source, inSegmentSource_eq, List.length_cons, List.length_nil] at hfuel ⊢
    obtain ⟨k, rfl⟩ := Nat.exists_eq_add_of_le' (show 3 ≤ fuel by omega)
    exact ⟨k + 1, by omega, run_branchesFrom_class.trans (run_branchesFrom_star hlazy)⟩
  | one =>
    simp only [Item.source, oneSource_eq, List.length_cons, List.length_nil] at hfuel ⊢
    obtain ⟨k, rfl⟩ := Nat.exists_eq_add_of_le' (show 3 ≤ fuel by omega)
    exact ⟨k + 2, by omega, run_branchesFrom_class⟩
  | char c =>
    obtain ⟨k, rfl⟩ := Nat.exists_eq_add_of_le' (show 1 ≤ fuel by omega)
    rw [Item.source_char]
    by_cases hc : Regex.isSpecial c = true
    · rw [if_pos hc]
      exact ⟨k, by simp, run_branchesFrom_escaped hc rfl rfl⟩
    · rw [if_neg hc]
      exact ⟨k, by simp, run_branchesFrom_plain (Bool.eq_false_iff.2 hc) rfl rfl⟩

theorem run_sources (is : List Item)
    (hfuel : (is.flatMap Item.source).length + 2 ≤ fuel) :
    (branchesFrom 0 read [] fuel).run ⟨is.flatMap Item.source ++ ['$'], {}, group, names⟩ =
      some (close (.look .stop :: (is.map Item.node).reverse ++ read) [],
        ⟨[], {}, group, names⟩) := by
  induction is generalizing read fuel with
  | nil =>
    obtain ⟨k, rfl⟩ := Nat.exists_eq_add_of_le' hfuel
    rfl
  | cons i is ih =>
    rw [List.flatMap_cons, List.length_append] at hfuel
    have hi : i.source.length + 2 ≤ fuel := by omega
    obtain ⟨fuel', hle, hrun⟩ := run_source i (head?_sources_ne is) hi
    rw [List.flatMap_cons, List.append_assoc, hrun, ih (by omega)]
    simp

def tree (is : List Item) : Node :=
  .concat (.look .start :: is.map Item.node ++ [.look .stop])

theorem depth_node_le (i : Item) : i.node.depth ≤ 3 := by
  cases i with
  | char c => exact Nat.zero_le 3
  | _ => decide

theorem depth_tree_le (is : List Item) : (tree is).depth ≤ 4 := by
  have hall : ∀ ns : List Node, (∀ n ∈ ns, n.depth ≤ 3) → Node.depths ns ≤ 4 := by
    intro ns
    induction ns with
    | nil => exact fun _ => Nat.zero_le 4
    | cons n ns ih =>
      intro h
      obtain ⟨hn, hns⟩ := List.forall_mem_cons.1 h
      exact Nat.max_le.2 ⟨Nat.succ_le_succ hn, ih hns⟩
  refine hall _ (List.forall_mem_append.2 ⟨List.forall_mem_cons.2 ⟨by decide, ?_⟩, ?_⟩)
  · intro n hn
    obtain ⟨i, -, rfl⟩ := List.mem_map.1 hn
    exact depth_node_le i
  · exact List.forall_mem_singleton.2 (by decide)

theorem wellFormed_node (i : Item) : i.node.WellFormed := by
  cases i <;> simp [Item.node, Item.allBut, Node.WellFormed, Node.AllWellFormed]

theorem wellFormed_tree (is : List Item) : (tree is).WellFormed := by
  have hall : ∀ is : List Item,
      Node.AllWellFormed (is.map Item.node ++ [.look .stop]) := by
    intro is
    induction is with
    | nil => exact ⟨trivial, trivial⟩
    | cons i is ih => exact ⟨wellFormed_node i, ih⟩
  exact ⟨by simp, trivial, hall is⟩

theorem parse_regexSource (pattern : List Char) :
    Node.parse (regexSource pattern) false = some (tree (items pattern)) := by
  have hlength : (regexSource pattern).length =
      ((items pattern).flatMap Item.source).length + 2 := by
    simp [regexSource, regexBody_eq]
  have hbody : (branchesFrom 0 [.look .start] []
      (2 * ((items pattern).flatMap Item.source).length + 5)).run
      ⟨(items pattern).flatMap Item.source ++ ['$'], {}, 1, []⟩ =
      some (close (.look .stop :: ((items pattern).map Item.node).reverse ++ [.look .start]) [],
        ⟨[], {}, 1, []⟩) := run_sources _ (by omega)
  have hrun : (branchesFrom 0 [] [] (2 * (regexSource pattern).length + 2)).run
      { rest := regexSource pattern, flags := { ignoreCase := false } } =
      some (tree (items pattern), ⟨[], {}, 1, []⟩) := by
    rw [hlength, regexSource, regexBody_eq]
    refine Eq.trans rfl (hbody.trans ?_)
    simp [tree, close, Node.ofBranches, Node.ofSequence]
  have hdepth : (tree (items pattern)).depth ≤ maxNesting :=
    (depth_tree_le _).trans (by decide)
  simp only [Node.parse, hrun, hdepth, if_true]

end Reading

section Meaning

open Regex
open Regex.Node
open Regex.Place

variable {p q : Place}

theorem takes_allBut {c : Char} :
    (Item.allBut c).Takes p q ↔ ∃ d, d ≠ c ∧ Reads [d] p q := by
  simp only [Item.allBut, takes_set, CharSet.contains_complement_single, bne_iff_ne]

theorem takes_loop_allBut {c : Char} :
    (Node.loop 0 none true (Item.allBut c)).Takes p q ↔ ∃ t, c ∉ t ∧ Reads t p q := by
  simp only [Item.allBut, takes_loop_set, CharSet.contains_complement_single, bne_iff_ne,
    ne_eq, List.forall_mem_ne']

theorem takes_segments :
    (Node.concat [.loop 0 none true (Item.allBut '\n'), .char '/']).Takes p q ↔
      ∃ t, '\n' ∉ t ∧ Reads (t ++ ['/']) p q := by
  constructor
  · rintro ⟨r, hr, _, hslash, rfl⟩
    obtain ⟨t, ht, hr⟩ := takes_loop_allBut.1 hr
    exact ⟨t, ht, reads_append.2 ⟨r, hr, takes_char.1 hslash⟩⟩
  · rintro ⟨t, ht, hq⟩
    obtain ⟨r, hr, hslash⟩ := reads_append.1 hq
    exact ⟨r, takes_loop_allBut.2 ⟨t, ht, hr⟩, q, takes_char.2 hslash, rfl⟩

theorem takes_node (i : Item) : i.node.Takes p q ↔ ∃ t, i.Matches t ∧ Reads t p q := by
  cases i with
  | anyDirs =>
    rw [Item.node, takes_option, takes_segments]
    constructor
    · rintro (hq | ⟨t, ht, hq⟩)
      · exact ⟨[], .inl rfl, hq⟩
      · exact ⟨t ++ ['/'], .inr ⟨by simpa using ht, by simp⟩, hq⟩
    · rintro ⟨t, rfl | ⟨hline, hlast⟩, hq⟩
      · exact .inl hq
      · obtain ⟨t, rfl⟩ := List.getLast?_eq_some_iff.1 hlast
        exact .inr ⟨t, fun h => hline (List.mem_append_left _ h), hq⟩
  | anyText => exact takes_loop_allBut
  | inSegment => exact takes_loop_allBut
  | one =>
    refine takes_allBut.trans ⟨?_, ?_⟩
    · rintro ⟨c, hc, hq⟩
      exact ⟨[c], ⟨c, hc, rfl⟩, hq⟩
    · rintro ⟨_, ⟨c, hc, rfl⟩, hq⟩
      exact ⟨c, hc, hq⟩
  | char c =>
    refine takes_char.trans ⟨fun hq => ⟨[c], rfl, hq⟩, ?_⟩
    rintro ⟨_, rfl, hq⟩
    exact hq

theorem takeAll_nodes (is : List Item) :
    TakeAll (is.map Item.node ++ [.look .stop]) p q ↔
      ∃ t, Matches is t ∧ Reads t p q ∧ q.rest = [] := by
  induction is generalizing p with
  | nil =>
    simp only [List.map_nil, List.nil_append, TakeAll, takes_stop, matches_nil]
    constructor
    · rintro ⟨_, ⟨hend, rfl⟩, rfl⟩
      exact ⟨[], rfl, rfl, hend⟩
    · rintro ⟨_, rfl, rfl, hend⟩
      exact ⟨q, ⟨hend, rfl⟩, rfl⟩
  | cons i is ih =>
    simp only [List.map_cons, List.cons_append, TakeAll, ih, takes_node, matches_cons]
    constructor
    · rintro ⟨r, ⟨a, ha, hr⟩, b, hb, hq, hend⟩
      exact ⟨a ++ b, ⟨a, b, ha, hb, rfl⟩, reads_append.2 ⟨r, hr, hq⟩, hend⟩
    · rintro ⟨_, ⟨a, b, ha, hb, rfl⟩, hq, hend⟩
      obtain ⟨r, hr, hq⟩ := reads_append.1 hq
      exact ⟨r, ⟨a, ha, hr⟩, b, hb, hq, hend⟩

theorem exists_takes_tree (is : List Item) (cs : List Char) :
    (∃ p ∈ (Place.start cs).onward, ∃ q, (tree is).Takes p q) ↔ Matches is cs := by
  constructor
  · rintro ⟨p, hp, q, r, hstart, hq⟩
    obtain ⟨hbefore, rfl⟩ := takes_start.1 hstart
    obtain rfl := eq_of_mem_onward hp hbefore
    obtain ⟨t, ht, hreads, hend⟩ := (takeAll_nodes is).1 hq
    have hrest : cs = t ++ q.rest := hreads.rest_eq
    rwa [hrest, hend, List.append_nil]
  · intro h
    obtain ⟨q, hq, hend⟩ := exists_reads (p := Place.start cs) (List.append_nil cs).symm
    exact ⟨_, mem_onward_self _, q, _, takes_start.2 ⟨rfl, rfl⟩,
      (takeAll_nodes is).2 ⟨cs, h, hq, hend⟩⟩

end Meaning

def IsRoot (r : List Char) : Prop := r = ['.', '/'] ∨ r = ['/']

theorem stripRoot_of_not_prefix {cs : List Char} (h : ∀ r, IsRoot r → ¬ r <+: cs) :
    stripRoot cs = cs := by
  rw [stripRoot.eq_def]
  split
  · rename_i cs
    exact absurd (List.prefix_append ['.', '/'] cs) (h _ (.inl rfl))
  · rename_i cs
    exact absurd (List.prefix_append ['/'] cs) (h _ (.inr rfl))
  · rfl

theorem not_prefix_stripRoot (cs : List Char) : ∀ r, IsRoot r → ¬ r <+: stripRoot cs := by
  fun_induction stripRoot cs with
  | case1 cs ih => exact ih
  | case2 cs ih => exact ih
  | case3 cs hdot hslash =>
    rintro _ (rfl | rfl) ⟨t, rfl⟩
    · exact hdot t rfl
    · exact hslash t rfl

theorem exists_roots (cs : List Char) :
    ∃ roots : List (List Char), (∀ r ∈ roots, IsRoot r) ∧ cs = roots.flatten ++ stripRoot cs := by
  fun_induction stripRoot cs with
  | case1 cs ih =>
    obtain ⟨roots, hroots, hcs⟩ := ih
    exact ⟨['.', '/'] :: roots, List.forall_mem_cons.2 ⟨.inl rfl, hroots⟩,
      congrArg (['.', '/'] ++ ·) hcs⟩
  | case2 cs ih =>
    obtain ⟨roots, hroots, hcs⟩ := ih
    exact ⟨['/'] :: roots, List.forall_mem_cons.2 ⟨.inr rfl, hroots⟩, congrArg ('/' :: ·) hcs⟩
  | case3 cs => exact ⟨[], nofun, rfl⟩

theorem stripRoot_eq_iff {cs rest : List Char} :
    stripRoot cs = rest ↔
      (∃ roots : List (List Char), (∀ r ∈ roots, IsRoot r) ∧ cs = roots.flatten ++ rest) ∧
        ∀ r, IsRoot r → ¬ r <+: rest := by
  constructor
  · rintro rfl
    exact ⟨exists_roots cs, not_prefix_stripRoot cs⟩
  · rintro ⟨⟨roots, hroots, rfl⟩, hrest⟩
    induction roots with
    | nil => exact stripRoot_of_not_prefix hrest
    | cons r roots ih =>
      obtain ⟨rfl | rfl, hmore⟩ := List.forall_mem_cons.1 hroots
      · exact ih hmore
      · exact ih hmore

def WithinLimit (pattern : List Char) : Prop :=
  ∀ n, Regex.Node.parse (regexSource pattern) false = some n →
    n.programCost ≤ Regex.Node.maxProgramCost

theorem isMatch_iff_matches (pattern path : String)
    (h : WithinLimit (stripRoot pattern.toList)) :
    (new pattern).isMatch path = true ↔
      Matches (items (stripRoot pattern.toList)) (stripRoot path.toList) := by
  have hparse := parse_regexSource (stripRoot pattern.toList)
  obtain ⟨r, hr⟩ : ∃ r, Regex.compile? (regexSource (stripRoot pattern.toList)) false = some r :=
    Option.isSome_iff_exists.1 (by simp [Regex.compile?, hparse, h _ hparse])
  rw [← exists_takes_tree, ← Regex.isMatch_iff_takes hparse (wellFormed_tree _) hr, isMatch, new,
    hr]

theorem isMatch_bracketed :
    WithinLimit (stripRoot "./[a]/**/*.r?".toList) ∧
      (new "./[a]/**/*.r?").isMatch "/[a]/b/c.rs" = true := by
  have hpattern : stripRoot "./[a]/**/*.r?".toList =
      ['[', 'a', ']', '/', '*', '*', '/', '*', '.', 'r', '?'] := by decide +kernel
  have hpath : stripRoot "/[a]/b/c.rs".toList =
      ['[', 'a', ']', '/', 'b', '/', 'c', '.', 'r', 's'] := by decide +kernel
  have hlimit : WithinLimit (stripRoot "./[a]/**/*.r?".toList) := by
    intro n hn
    rw [parse_regexSource, Option.some.injEq] at hn
    rw [← hn, hpattern]
    decide
  refine ⟨hlimit, (isMatch_iff_matches _ _ hlimit).2 ?_⟩
  rw [hpattern, hpath]
  refine ⟨[['['], ['a'], [']'], ['/'], ['b', '/'], ['c'], ['.'], ['r'], ['s']], ?_, rfl⟩
  simp [items, Item.Matches]

end PathPattern

end ProjectShell
