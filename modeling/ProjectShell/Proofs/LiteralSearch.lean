import ProjectShell.Proofs.GlobMatching
import ProjectShell.Proofs.Reachable
import ProjectShell.Proofs.SearchCaps

namespace ProjectShell

namespace Regex

namespace Place

variable {p q : Place} {t cs : List Char}

theorem rest_suffix_of_mem_onward (h : q ∈ p.onward) : q.rest <:+ p.rest := by
  induction p using onward_induction with
  | hnil p hp =>
    rw [onward_of_nil hp, List.mem_singleton] at h
    rw [h]
  | hcons p c cs hp ih =>
    rw [onward_of_cons hp, List.mem_cons] at h
    rcases h with rfl | h
    · exact List.suffix_rfl
    · have htail := ih h
      rw [rest_step] at htail
      exact htail.trans (List.tail_suffix _)

theorem exists_mem_onward (h : cs <:+ p.rest) : ∃ q ∈ p.onward, q.rest = cs := by
  induction p using onward_induction with
  | hnil p hp =>
    rw [hp, List.suffix_nil] at h
    exact ⟨p, mem_onward_self p, hp.trans h.symm⟩
  | hcons p c ds hp ih =>
    rw [hp, List.suffix_cons_iff] at h
    rcases h with rfl | h
    · exact ⟨p, mem_onward_self p, hp⟩
    · obtain ⟨q, hq, hrest⟩ := ih (by rwa [rest_step, hp, List.tail_cons])
      exact ⟨q, onward_of_cons hp ▸ List.mem_cons_of_mem _ hq, hrest⟩

theorem exists_reads_iff_infix :
    (∃ q ∈ p.onward, ∃ q', Reads t q q') ↔ t <:+: p.rest := by
  constructor
  · rintro ⟨q, hq, q', hreads⟩
    have hprefix : t <+: q.rest := ⟨q'.rest, hreads.rest_eq.symm⟩
    exact hprefix.isInfix.trans (rest_suffix_of_mem_onward hq).isInfix
  · rintro ⟨before, after, h⟩
    have hsuffix : t ++ after <:+ p.rest := ⟨before, by rw [← h, List.append_assoc]⟩
    obtain ⟨q, hq, hrest⟩ := exists_mem_onward hsuffix
    obtain ⟨q', hreads, -⟩ := exists_reads hrest
    exact ⟨q, hq, q', hreads⟩

end Place

namespace Node

variable {p q : Place}

theorem takeAll_chars (cs : List Char) : TakeAll (cs.map char) p q ↔ Place.Reads cs p q := by
  induction cs generalizing p with
  | nil => exact Iff.rfl
  | cons c cs ih =>
    simp only [List.map_cons, TakeAll, Takes, ih, Place.Reads]
    constructor
    · rintro ⟨_, ⟨hc, rfl⟩, hq⟩
      exact ⟨hc, hq⟩
    · rintro ⟨hc, hq⟩
      exact ⟨_, ⟨hc, rfl⟩, hq⟩

theorem literal_false (cs : List Char) : literal false cs = .ofSequence (cs.map char) := rfl

theorem takes_literal (cs : List Char) : (literal false cs).Takes p q ↔ Place.Reads cs p q := by
  rw [literal_false]
  match cs with
  | [] => exact Iff.rfl
  | [c] => exact Iff.rfl
  | c :: d :: cs => exact takeAll_chars (c :: d :: cs)

theorem allWellFormed_chars (cs : List Char) : AllWellFormed (cs.map char) := by
  induction cs with
  | nil => trivial
  | cons c cs ih => exact ⟨trivial, ih⟩

theorem wellFormed_literal (cs : List Char) : (literal false cs).WellFormed := by
  rw [literal_false]
  match cs with
  | [] => trivial
  | [c] => trivial
  | c :: d :: cs => exact ⟨List.cons_ne_nil _ _, allWellFormed_chars (c :: d :: cs)⟩

theorem costs_chars (cs : List Char) : costs (cs.map char) = 32 * cs.length := by
  induction cs with
  | nil => rfl
  | cons c cs ih =>
    rw [List.map_cons, costs, ih, cost, List.length_cons]
    omega

theorem cost_literal_false {cs : List Char} (h : cs ≠ []) :
    (literal false cs).cost = 32 * cs.length := by
  obtain ⟨c, cs, rfl⟩ := List.exists_cons_of_ne_nil h
  exact (cost_literal_cons false c cs).trans (costs_chars (c :: cs))

end Node

theorem isMatch_escape {t : List Char} {r : Regex} (h : compile? (escape t) false = some r)
    (cs : List Char) : r.isMatch cs = true ↔ t <:+: cs := by
  rw [isMatch_iff_takes (Node.parse_escape t false) (Node.wellFormed_literal t) h]
  simp only [Node.takes_literal]
  exact Place.exists_reads_iff_infix

theorem exists_compile?_escape_iff {t : List Char} (hne : t ≠ []) :
    (∃ r, compile? (escape t) false = some r) ↔ 32 * t.length + 112 ≤ Node.maxProgramCost := by
  rw [← Option.ne_none_iff_exists', ne_eq, compile?_escape_eq_none_iff,
    Node.cost_literal_false hne, Nat.not_lt]

end Regex

namespace SearchOptions

variable {o : SearchOptions} {query : String}

theorem regex?_eq_compile?_escape (hcase : o.caseSensitive = true)
    (hliteral : o.regex = false ∨ Regex.compile? query.toList false = none) :
    o.regex? query = Regex.compile? (Regex.escape query.toList) false := by
  rw [regex?, hcase]
  cases hregex : o.regex with
  | false => exact Regex.compileLenient_escape query.toList false
  | true =>
    have hnone : Regex.compile? query.toList false = none :=
      hliteral.resolve_left (by simp [hregex])
    change Regex.compileLenient query.toList false = _
    rw [Regex.compileLenient, hnone, Option.none_or]

theorem hits_literal (hquery : query ≠ "") (hcase : o.caseSensitive = true)
    (hglob : o.pathGlob = none)
    (hliteral : o.regex = false ∨ Regex.compile? query.toList false = none)
    (hsize : 32 * query.length + 112 ≤ Regex.Node.maxProgramCost) (m : SearchMatch) :
    o.hits query m = decide (query.toList <:+: m.line.toList) := by
  have hne : query.toList ≠ [] := by simpa using hquery
  have hempty : query.isEmpty = false := by simpa using hquery
  obtain ⟨r, hr⟩ := (Regex.exists_compile?_escape_iff hne).2 (by rwa [String.length_toList])
  have hmatch := Regex.isMatch_escape hr m.line.toList
  rw [hits, admits, hglob, regex?_eq_compile?_escape hcase hliteral, hr, hempty,
    Bool.eq_iff_iff, decide_eq_true_iff, ← hmatch]
  simp

end SearchOptions

def SearchMatch.Before (a b : SearchMatch) : Prop :=
  a.path < b.path ∨ a.path = b.path ∧ a.lineNumber < b.lineNumber

theorem File.pairwise_located (f : File) : f.located.Pairwise SearchMatch.Before := by
  have hnumbers : (f.lines.zipIdx 1).Pairwise (fun a b => a.2 < b.2) := by
    rw [← List.pairwise_map (f := Prod.snd) (R := (· < ·)), List.zipIdx_map_snd]
    exact List.pairwise_lt_range'
  exact List.pairwise_map.2 (hnumbers.imp (fun h => .inr ⟨rfl, h⟩))

namespace FileStore

theorem pairwise_located {s : FileStore} (h : s.files.WellKept) :
    s.located.Pairwise SearchMatch.Before := by
  have hpath : ∀ e ∈ s.files.entries, ∀ m ∈ e.2.located, m.path = e.1 := by
    intro e he m hm
    obtain ⟨l, -, rfl⟩ := List.mem_map.1 hm
    exact (h e.1 e.2 (SortedMap.get?_eq_some_iff.2 he)).2.1
  rw [located, SortedMap.values, List.flatMap_map, List.pairwise_flatMap]
  refine ⟨fun e _ => e.2.pairwise_located, ?_⟩
  refine s.files.sorted.imp_of_mem (fun {e e'} he he' hlt m hm m' hm' => .inl ?_)
  rwa [hpath e he m hm, hpath e' he' m' hm']

theorem search_literal {s : FileStore} {query : String} {o : SearchOptions} (hquery : query ≠ "")
    (hcase : o.caseSensitive = true) (hglob : o.pathGlob = none) (hcap : 1 ≤ o.cap s)
    (hliteral : o.regex = false ∨ Regex.compile? query.toList false = none)
    (hsize : 32 * query.length + 112 ≤ Regex.Node.maxProgramCost) :
    s.search query o =
        (s.located.filter (fun m => query.toList <:+: m.line.toList)).take (o.cap s) ∧
      (s.files.WellKept → (s.search query o).Pairwise SearchMatch.Before) := by
  have hsearch : s.search query o =
      (s.located.filter (fun m => query.toList <:+: m.line.toList)).take (o.cap s) := by
    rw [search_eq_take, funext (SearchOptions.hits_literal hquery hcase hglob hliteral hsize),
      Nat.max_eq_right hcap]
  refine ⟨hsearch, fun hkept => ?_⟩
  rw [hsearch]
  exact ((pairwise_located hkept).filter _).sublist (List.take_sublist _ _)

theorem search_literal_unclosed :
    let s := ((new ⟨0⟩).seed [("src/b.ts", "x\r\nfoo(é\nFoo(\nfoo("), ("a.ts", "call foo( now")]).2
    let o : SearchOptions := { regex := true, caseSensitive := true, maxResults := some 2 }
    ("foo(" ≠ "" ∧ o.caseSensitive = true ∧ o.pathGlob = none ∧ 1 ≤ o.cap s ∧
      Regex.compile? "foo(".toList false = none ∧
      32 * "foo(".length + 112 ≤ Regex.Node.maxProgramCost ∧ s.files.WellKept) ∧
      s.search "foo(" o = [⟨"a.ts", 1, "call foo( now"⟩, ⟨"src/b.ts", 2, "foo(é"⟩] ∧
      (s.search "foo(" o).Pairwise SearchMatch.Before := by
  intro s o
  have hcap : 1 ≤ o.cap s := by decide
  have hnone : Regex.compile? "foo(".toList false = none := by decide +kernel
  have hsize : 32 * "foo(".length + 112 ≤ Regex.Node.maxProgramCost := by decide
  have hkept : s.files.WellKept := ((Sound.withLimits {} ⟨0⟩).seed _).files
  obtain ⟨hsearch, horder⟩ :=
    search_literal (s := s) (by decide) rfl rfl hcap (.inr hnone) hsize
  exact ⟨⟨by decide, rfl, rfl, hcap, hnone, hsize, hkept⟩, hsearch.trans (by decide +kernel),
    horder hkept⟩

end FileStore

end ProjectShell
