import Mathlib.Algebra.BigOperators.Intervals
import Mathlib.Algebra.Order.BigOperators.Group.Finset
import ProjectShell.Regex.Search

namespace ProjectShell.Regex

namespace Place

def onwardFrom : List Char → Option Char → Nat → List Place
  | [], before, pos => [⟨before, [], pos⟩]
  | c :: cs, before, pos => ⟨before, c :: cs, pos⟩ :: onwardFrom cs (some c) (pos + 1)

def onward (p : Place) : List Place := onwardFrom p.rest p.before p.pos

variable {p q r : Place}

theorem onward_of_nil (h : p.rest = []) : p.onward = [p] := by
  obtain ⟨before, rest, pos⟩ := p
  cases h
  rfl

theorem onward_of_cons {c : Char} {cs : List Char} (h : p.rest = c :: cs) :
    p.onward = p :: p.step.onward := by
  obtain ⟨before, rest, pos⟩ := p
  cases h
  rfl

theorem rest_step (p : Place) : p.step.rest = p.rest.tail := by
  unfold step
  split <;> simp [*]

theorem pos_step {c : Char} {cs : List Char} (h : p.rest = c :: cs) : p.step.pos = p.pos + 1 := by
  unfold step
  split <;> simp_all

theorem step_of_nil (h : p.rest = []) : p.step = p := by
  unfold step
  split <;> simp_all

theorem onward_induction {motive : Place → Prop} (hnil : ∀ p : Place, p.rest = [] → motive p)
    (hcons : ∀ (p : Place) (c : Char) (cs : List Char), p.rest = c :: cs → motive p.step → motive p)
    (p : Place) : motive p := by
  obtain ⟨before, rest, pos⟩ := p
  induction rest generalizing before pos with
  | nil => exact hnil _ rfl
  | cons c cs ih => exact hcons _ c cs rfl (ih (some c) (pos + 1))

theorem mem_onward_self (p : Place) : p ∈ p.onward := by
  cases h : p.rest with
  | nil => rw [onward_of_nil h, List.mem_singleton]
  | cons c cs => rw [onward_of_cons h]; exact List.mem_cons_self

theorem mem_onward_step (h : q ∈ p.onward) : q.step ∈ p.onward := by
  induction p using onward_induction with
  | hnil p hp =>
    rw [onward_of_nil hp, List.mem_singleton] at h ⊢
    rw [h, step_of_nil hp]
  | hcons p c cs hp ih =>
    rw [onward_of_cons hp, List.mem_cons] at h
    rw [onward_of_cons hp]
    rcases h with rfl | h
    · exact List.mem_cons_of_mem _ (mem_onward_self _)
    · exact List.mem_cons_of_mem _ (ih h)

theorem pos_of_mem_onward (h : q ∈ p.onward) :
    p.pos ≤ q.pos ∧ q.pos + q.rest.length = p.pos + p.rest.length := by
  induction p using onward_induction with
  | hnil p hp =>
    rw [onward_of_nil hp, List.mem_singleton] at h
    rw [h]
    exact ⟨Nat.le_refl _, rfl⟩
  | hcons p c cs hp ih =>
    rw [onward_of_cons hp, List.mem_cons] at h
    rcases h with rfl | h
    · exact ⟨Nat.le_refl _, rfl⟩
    · have hq := ih h
      rw [pos_step hp, rest_step, hp, List.tail_cons] at hq
      rw [hp, List.length_cons]
      omega

theorem eq_of_pos_eq (hq : q ∈ p.onward) (hr : r ∈ p.onward) (h : q.pos = r.pos) : q = r := by
  induction p using onward_induction with
  | hnil p hp =>
    rw [onward_of_nil hp, List.mem_singleton] at hq hr
    rw [hq, hr]
  | hcons p c cs hp ih =>
    rw [onward_of_cons hp, List.mem_cons] at hq hr
    have hlater {q : Place} (h : q ∈ p.step.onward) : p.pos < q.pos := by
      have hle := (pos_of_mem_onward h).1
      rwa [pos_step hp] at hle
    rcases hq with rfl | hq <;> rcases hr with rfl | hr
    · rfl
    · exact absurd h (hlater hr).ne
    · exact absurd h (hlater hq).ne'
    · exact ih hq hr

end Place

variable {program : Array Inst} {width : Nat} {seen : Seen} {t u v : Thread}

def Thread.Steps (program : Array Inst) (t u : Thread) : Prop :=
  ∃ i, program[t.pc]? = some i ∧ u ∈ i.successors t

inductive Thread.Runs (program : Array Inst) : Nat → Thread → Thread → Prop
  | stay (t : Thread) : Runs program 0 t t
  | go {n : Nat} {t u v : Thread} (h : t.Steps program u) (hr : Runs program n u v) :
      Runs program (n + 1) t v

def Thread.Accepts (program : Array Inst) (t : Thread) : Prop := program[t.pc]? = some .accept

namespace Inst

theorem mem_successors_jump {next : Nat} :
    u ∈ (jump next).successors t ↔ u = { t with pc := next } :=
  List.mem_singleton

theorem mem_successors_char {c : Char} {next : Nat} :
    u ∈ (char c next).successors t ↔
      t.place.rest.head? = some c ∧ u = ⟨next, t.place.step, t.slots⟩ := by
  cases h : t.place.rest with
  | nil => simp [successors, h]
  | cons d cs => by_cases hc : c = d <;> simp [successors, h, hc, eq_comm]

theorem mem_successors_set {s : CharSet} {next : Nat} :
    u ∈ (set s next).successors t ↔
      (∃ c, t.place.rest.head? = some c ∧ s.contains c = true) ∧
        u = ⟨next, t.place.step, t.slots⟩ := by
  cases h : t.place.rest with
  | nil => simp [successors, h]
  | cons d cs => by_cases hd : s.contains d = true <;> simp [successors, h, hd]

theorem mem_successors_look {l : Look} {next : Nat} :
    u ∈ (look l next).successors t ↔
      l.holds t.place.before t.place.rest.head? = true ∧ u = { t with pc := next } := by
  by_cases h : l.holds t.place.before t.place.rest.head? = true <;> simp [successors, h]

theorem mem_successors_save {slot next : Nat} :
    u ∈ (save slot next).successors t ↔
      u = ⟨next, t.place, t.slots.set slot (some t.place.pos)⟩ :=
  List.mem_singleton

theorem mem_successors_split {targets : List Nat} :
    u ∈ (split targets).successors t ↔ ∃ pc ∈ targets, u = { t with pc } := by
  simp [successors, eq_comm]

theorem mem_successors_choice {greedy : Bool} {body out : Nat} :
    u ∈ (choice greedy body out).successors t ↔ u = { t with pc := body } ∨ u = { t with pc := out }
    := by
  cases greedy <;> simp [choice, mem_successors_split, or_comm]

theorem not_mem_successors_accept : u ∉ accept.successors t := List.not_mem_nil

variable {i : Inst}

theorem place_of_mem_successors (h : u ∈ i.successors t) :
    u.place = t.place ∨ u.place = t.place.step := by
  cases i with
  | jump next => simp_all [mem_successors_jump]
  | char c next => simp_all [mem_successors_char]
  | set s next => simp_all [mem_successors_set]
  | look l next => simp_all [mem_successors_look]
  | save slot next => simp_all [mem_successors_save]
  | split targets =>
    obtain ⟨pc, -, rfl⟩ := mem_successors_split.1 h
    exact .inl rfl
  | accept => exact absurd h not_mem_successors_accept

theorem length_successors_le (i : Inst) (t : Thread) : (i.successors t).length ≤ i.arity := by
  cases i with
  | char c next =>
    cases h : t.place.rest with
    | nil => simp [successors, h]
    | cons d cs => by_cases hc : c = d <;> simp [successors, h, hc, arity]
  | set s next =>
    cases h : t.place.rest with
    | nil => simp [successors, h]
    | cons d cs => by_cases hd : s.contains d = true <;> simp [successors, h, hd, arity]
  | look l next =>
    by_cases h : l.holds t.place.before t.place.rest.head? = true <;> simp [successors, h, arity]
  | _ => simp [successors, arity]

theorem exists_successor_of_same (h : u ∈ i.successors t) {t' : Thread} (hp : t'.place = t.place) :
    ∃ u' ∈ i.successors t', u'.pc = u.pc ∧ u'.place = u.place := by
  cases i with
  | split targets =>
    obtain ⟨pc, hpc, rfl⟩ := mem_successors_split.1 h
    exact ⟨_, mem_successors_split.2 ⟨pc, hpc, rfl⟩, rfl, hp⟩
  | jump next => simp_all [mem_successors_jump]
  | char c next => simp_all [mem_successors_char]
  | set s next => simp_all [mem_successors_set]
  | look l next => simp_all [mem_successors_look]
  | save slot next => simp_all [mem_successors_save]
  | accept => exact absurd h not_mem_successors_accept

theorem slots_of_mem_successors (h : u ∈ i.successors t) :
    u.slots = t.slots ∨ ∃ slot, u.slots = t.slots.set slot (some t.place.pos) := by
  cases i with
  | split targets =>
    obtain ⟨pc, -, rfl⟩ := mem_successors_split.1 h
    exact .inl rfl
  | jump next => simp_all [mem_successors_jump]
  | char c next => simp_all [mem_successors_char]
  | set s next => simp_all [mem_successors_set]
  | look l next => simp_all [mem_successors_look]
  | save slot next => exact .inr ⟨slot, by rw [mem_successors_save.1 h]⟩
  | accept => exact absurd h not_mem_successors_accept

end Inst

namespace Thread

theorem Runs.trans {m n : Nat} (h : Runs program m t u) (h' : Runs program n u v) :
    ∃ k, Runs program k t v := by
  induction h with
  | stay t => exact ⟨n, h'⟩
  | go h _ ih =>
    obtain ⟨k, hk⟩ := ih h'
    exact ⟨k + 1, .go h hk⟩

theorem Steps.runs (h : t.Steps program u) : Runs program 1 t u := .go h (.stay u)

theorem Runs.place {n : Nat} {root : Place} (h : Runs program n t u)
    (ht : t.place ∈ root.onward) : u.place ∈ root.onward := by
  induction h with
  | stay t => exact ht
  | go h _ ih =>
    obtain ⟨i, -, hi⟩ := h
    rcases Inst.place_of_mem_successors hi with hp | hp
    · exact ih (hp ▸ ht)
    · exact ih (hp ▸ Place.mem_onward_step ht)

theorem Runs.length_slots {n : Nat} (h : Runs program n t u) :
    u.slots.length = t.slots.length := by
  induction h with
  | stay t => rfl
  | go h _ ih =>
    obtain ⟨i, -, hi⟩ := h
    rcases Inst.slots_of_mem_successors hi with hs | ⟨slot, hs⟩
    · rw [ih, hs]
    · rw [ih, hs, List.length_set]

def Noted (t : Thread) (slot : Nat) : Prop := ∃ pos, t.slots[slot]? = some (some pos)

theorem noted_set (pc : Nat) (p : Place) {slots : Slots} {slot : Nat} (h : slot < slots.length)
    (pos : Nat) : Noted ⟨pc, p, slots.set slot (some pos)⟩ slot :=
  ⟨pos, by simp [h]⟩

theorem Runs.noted {n slot : Nat} (h : Runs program n t u) (ht : t.Noted slot) : u.Noted slot := by
  induction h with
  | stay t => exact ht
  | @go n t u v h _ ih =>
    refine ih ?_
    obtain ⟨pos, hpos⟩ := ht
    obtain ⟨i, -, hi⟩ := h
    rcases Inst.slots_of_mem_successors hi with hs | ⟨other, hs⟩
    · exact ⟨pos, by rw [hs, hpos]⟩
    · by_cases ho : other = slot
      · have hlt := (List.getElem?_eq_some_iff.1 hpos).1
        exact ⟨t.place.pos, by simp [hs, ho, hlt]⟩
      · exact ⟨pos, by simp [hs, List.getElem?_set_ne ho, hpos]⟩

end Thread

theorem run_of_explore {fuel : Nat} {stack : List Thread} {slots : Slots}
    (h : (explore program width fuel stack seen).1 = some slots) :
    ∃ s ∈ stack, ∃ n t, s.Runs program n t ∧ t.Accepts program ∧ t.slots = slots := by
  fun_induction explore program width fuel stack seen with
  | case1 => cases h
  | case2 => cases h
  | case3 fuel t rest seen hs ih =>
    obtain ⟨s, hm, n, u, hr⟩ := ih h
    exact ⟨s, List.mem_cons_of_mem _ hm, n, u, hr⟩
  | case4 fuel t rest seen hs seen' hnone ih =>
    obtain ⟨s, hm, n, u, hr⟩ := ih h
    exact ⟨s, List.mem_cons_of_mem _ hm, n, u, hr⟩
  | case5 fuel t rest seen hs seen' haccept =>
    exact ⟨t, List.mem_cons_self, 0, t, .stay t, haccept, Option.some.inj h⟩
  | case6 fuel t rest seen hs seen' i hne hi ih =>
    obtain ⟨s, hm, n, u, hr, hu⟩ := ih h
    rcases List.mem_append.1 hm with hm | hm
    · exact ⟨t, List.mem_cons_self, n + 1, u, .go ⟨i, hi, hm⟩ hr, hu⟩
    · exact ⟨s, List.mem_cons_of_mem _ hm, n, u, hr, hu⟩

def Seen.Has (seen : Seen) (width : Nat) (t : Thread) : Prop :=
  seen.contains (t.key width) = true

/-- No thread that was met accepts, and what follows from it was met as well or is yet to try. The
threads are those in a text from a place on. -/
structure Closed (program : Array Inst) (width : Nat) (root : Place) (seen : Seen)
    (stack : List Thread) : Prop where
  follows : ∀ t u, t.place ∈ root.onward → seen.Has width t → t.Steps program u →
    seen.Has width u ∨ ∃ s ∈ stack, s.key width = u.key width
  unaccepting : ∀ t, t.place ∈ root.onward → seen.Has width t → ¬ t.Accepts program

section Explore

variable {root : Place} {stack : List Thread}

theorem eq_of_key_eq (hwidth : root.pos + root.rest.length < width) (ht : t.place ∈ root.onward)
    (hu : u.place ∈ root.onward) (h : t.key width = u.key width) :
    t.pc = u.pc ∧ t.place = u.place := by
  have htpos := Place.pos_of_mem_onward ht
  have hupos := Place.pos_of_mem_onward hu
  have hwpos : 0 < width := by omega
  have hpos : t.place.pos = u.place.pos := by
    have hmod := congrArg (· % width) h
    simpa only [Thread.key, Nat.mul_add_mod_self_right,
      Nat.mod_eq_of_lt (show t.place.pos < width by omega),
      Nat.mod_eq_of_lt (show u.place.pos < width by omega)] using hmod
  refine ⟨?_, Place.eq_of_pos_eq ht hu hpos⟩
  rw [Thread.key, Thread.key, hpos] at h
  exact Nat.eq_of_mul_eq_mul_right hwpos (Nat.add_right_cancel h)

theorem Closed.skip (h : Closed program width root seen (t :: stack)) (ht : seen.Has width t) :
    Closed program width root seen stack := by
  refine ⟨fun u v hu hseen hstep => ?_, h.unaccepting⟩
  rcases h.follows u v hu hseen hstep with hv | ⟨s, hs, hkey⟩
  · exact .inl hv
  · rcases List.mem_cons.1 hs with rfl | hs
    · exact .inl (by rwa [Seen.Has, ← hkey])
    · exact .inr ⟨s, hs, hkey⟩

theorem has_insert : Seen.Has (seen.insert (t.key width)) width u ↔
    t.key width = u.key width ∨ seen.Has width u := by
  simp [Seen.Has]

theorem Closed.enter (hwidth : root.pos + root.rest.length < width)
    (h : Closed program width root seen (t :: stack)) (ht : t.place ∈ root.onward)
    (haccept : ¬ t.Accepts program) {more : List Thread}
    (hmore : ∀ u, t.Steps program u → u ∈ more) :
    Closed program width root (seen.insert (t.key width)) (more ++ stack) := by
  constructor
  · intro u v hu hseen hstep
    rcases has_insert.1 hseen with hkey | hseen
    · obtain ⟨hpc, hplace⟩ := eq_of_key_eq hwidth ht hu hkey
      obtain ⟨i, hi, hv⟩ := hstep
      obtain ⟨v', hv', hpc', hplace'⟩ := Inst.exists_successor_of_same hv hplace
      refine .inr ⟨v', List.mem_append_left _ (hmore v' ⟨i, hpc ▸ hi, hv'⟩), ?_⟩
      rw [Thread.key, Thread.key, hpc', hplace']
    · rcases h.follows u v hu hseen hstep with hv | ⟨s, hs, hkey⟩
      · exact .inl (has_insert.2 (.inr hv))
      · rcases List.mem_cons.1 hs with rfl | hs
        · exact .inl (has_insert.2 (.inl hkey))
        · exact .inr ⟨s, List.mem_append_right _ hs, hkey⟩
  · intro u hu hseen hacc
    rcases has_insert.1 hseen with hkey | hseen
    · obtain ⟨hpc, -⟩ := eq_of_key_eq hwidth ht hu hkey
      exact haccept (by rwa [Thread.Accepts, hpc])
    · exact h.unaccepting u hu hseen hacc

def arityAt (program : Array Inst) (pc : Nat) : Nat := (program[pc]?.map Inst.arity).getD 0

def pending (program : Array Inst) (width : Nat) (seen : Seen) : Nat :=
  ∑ k ∈ Finset.range (program.size * width) with seen.contains k = false,
    arityAt program (k / width)

theorem pending_insert (hpos : t.place.pos < width) (ht : ¬ seen.Has width t) :
    pending program width (seen.insert (t.key width)) + arityAt program t.pc =
      pending program width seen := by
  have hdiv : t.key width / width = t.pc := by
    rw [Thread.key, Nat.mul_comm, Nat.mul_add_div (by omega), Nat.div_eq_of_lt hpos, Nat.add_zero]
  have herase : (Finset.range (program.size * width)).filter
      (fun k => (seen.insert (t.key width)).contains k = false) =
      ((Finset.range (program.size * width)).filter (fun k => seen.contains k = false)).erase
        (t.key width) := by
    ext k
    simp only [Finset.mem_filter, Finset.mem_erase, Std.TreeSet.contains_insert,
      Bool.or_eq_false_iff, beq_eq_false_iff_ne, Std.compare_eq_iff_eq, ne_eq, eq_comm (a := k)]
    tauto
  rw [pending, pending, herase]
  by_cases hpc : t.pc < program.size
  · have hlt : t.key width < program.size * width := by
      have hle : (t.pc + 1) * width ≤ program.size * width := Nat.mul_le_mul_right width hpc
      rw [Nat.succ_mul] at hle
      rw [Thread.key]
      omega
    have hmem : t.key width ∈
        (Finset.range (program.size * width)).filter (fun k => seen.contains k = false) :=
      Finset.mem_filter.2 ⟨Finset.mem_range.2 hlt, Bool.eq_false_iff.2 ht⟩
    have hsum := Finset.sum_erase_add _ (fun k => arityAt program (k / width)) hmem
    rwa [hdiv] at hsum
  · have hge : program.size * width ≤ t.key width := by
      have hle : program.size * width ≤ t.pc * width :=
        Nat.mul_le_mul_right width (Nat.le_of_not_lt hpc)
      rw [Thread.key]
      omega
    have hout : t.key width ∉
        (Finset.range (program.size * width)).filter (fun k => seen.contains k = false) :=
      fun hm => absurd (Finset.mem_range.1 (Finset.mem_filter.1 hm).1) (Nat.not_lt.2 hge)
    rw [Finset.erase_eq_of_notMem hout, arityAt, Array.getElem?_eq_none (Nat.le_of_not_lt hpc)]
    rfl

theorem sum_range_div (f : Nat → Nat) (n : Nat) :
    ∑ k ∈ Finset.range (n * width), f (k / width) = width * ∑ pc ∈ Finset.range n, f pc := by
  induction n with
  | zero => simp
  | succ n ih =>
    have hblock : ∑ x ∈ Finset.range width, f ((n * width + x) / width) = width * f n := by
      have hconst : ∀ x ∈ Finset.range width, f ((n * width + x) / width) = f n := by
        intro x hx
        have hlt := Finset.mem_range.1 hx
        rw [Nat.mul_comm, Nat.mul_add_div (by omega), Nat.div_eq_of_lt hlt, Nat.add_zero]
      rw [Finset.sum_const_nat hconst, Finset.card_range]
    rw [Nat.succ_mul, Finset.sum_range_add, ih, hblock, Finset.sum_range_succ, Nat.mul_add]

theorem sum_arityAt (program : Array Inst) :
    ∑ pc ∈ Finset.range program.size, arityAt program pc =
      program.foldl (fun n i => n + i.arity) 0 := by
  obtain ⟨is⟩ := program
  rw [← Array.foldl_toList]
  induction is using List.reverseRecOn with
  | nil => rfl
  | append_singleton is i ih =>
    have hlast : arityAt ⟨is ++ [i]⟩ is.length = i.arity := by simp [arityAt]
    have hrest : ∑ pc ∈ Finset.range is.length, arityAt ⟨is ++ [i]⟩ pc =
        ∑ pc ∈ Finset.range is.length, arityAt ⟨is⟩ pc := by
      refine Finset.sum_congr rfl (fun pc hpc => ?_)
      have hlt := Finset.mem_range.1 hpc
      simp [arityAt, List.getElem?_append_left hlt]
    simp only [List.size_toArray] at ih
    rw [List.size_toArray, List.length_append, List.length_singleton, Finset.sum_range_succ, hlast,
      hrest, ih, List.foldl_append]
    rfl

theorem pending_lt_stepBound (r : Regex) (seen : Seen) :
    pending r.program width seen + 1 < r.stepBound width := by
  have hle : pending r.program width seen ≤
      ∑ k ∈ Finset.range (r.program.size * width), arityAt r.program (k / width) :=
    Finset.sum_le_sum_of_subset (Finset.filter_subset _ _)
  rw [sum_range_div, sum_arityAt] at hle
  rw [Regex.stepBound]
  omega

theorem explore_eq_none {fuel : Nat} {seen' : Seen}
    (hwidth : root.pos + root.rest.length < width)
    (hstack : ∀ s ∈ stack, s.place ∈ root.onward)
    (hfuel : stack.length + pending program width seen < fuel)
    (hclosed : Closed program width root seen stack)
    (h : explore program width fuel stack seen = (none, seen')) :
    Closed program width root seen' [] ∧ (∀ t, seen.Has width t → seen'.Has width t) ∧
      ∀ s ∈ stack, seen'.Has width s := by
  fun_induction explore program width fuel stack seen with
  | case1 => omega
  | case2 fuel seen =>
    cases h
    exact ⟨hclosed, fun _ ht => ht, nofun⟩
  | case3 fuel t rest seen hs ih =>
    rw [List.length_cons] at hfuel
    obtain ⟨hend, hkept, hmet⟩ :=
      ih (List.forall_mem_cons.1 hstack).2 (by omega) (hclosed.skip hs) h
    exact ⟨hend, hkept, List.forall_mem_cons.2 ⟨hkept t hs, hmet⟩⟩
  | case4 fuel t rest seen hs seen₁ hnone ih =>
    obtain ⟨ht, hrest⟩ := List.forall_mem_cons.1 hstack
    have htpos := Place.pos_of_mem_onward ht
    have hpending : pending program width seen₁ + arityAt program t.pc =
      pending program width seen := pending_insert (by omega) hs
    have hnew : Closed program width root seen₁ ([] ++ rest) :=
      hclosed.enter hwidth ht (by simp [Thread.Accepts, hnone])
        (fun u ⟨i, hi, _⟩ => by simp [hnone] at hi)
    rw [List.length_cons] at hfuel
    obtain ⟨hend, hkept, hmet⟩ := ih hrest (by omega) hnew h
    refine ⟨hend, fun u hu => hkept u (has_insert.2 (.inr hu)), ?_⟩
    exact List.forall_mem_cons.2 ⟨hkept t (has_insert.2 (.inl rfl)), hmet⟩
  | case5 fuel t rest seen hs seen₁ haccept => cases h
  | case6 fuel t rest seen hs seen₁ i hne hi ih =>
    obtain ⟨ht, hrest⟩ := List.forall_mem_cons.1 hstack
    have htpos := Place.pos_of_mem_onward ht
    have hpending : pending program width seen₁ + arityAt program t.pc =
      pending program width seen := pending_insert (by omega) hs
    have harity : arityAt program t.pc = i.arity := by simp [arityAt, hi]
    have hlength := Inst.length_successors_le i t
    have hplaces : ∀ s ∈ i.successors t ++ rest, s.place ∈ root.onward := by
      refine List.forall_mem_append.2 ⟨fun u hu => ?_, hrest⟩
      rcases Inst.place_of_mem_successors hu with hp | hp
      · exact hp ▸ ht
      · exact hp ▸ Place.mem_onward_step ht
    have hnew : Closed program width root seen₁ (i.successors t ++ rest) := by
      refine hclosed.enter hwidth ht (fun ha => hne ?_) (fun u ⟨j, hj, hu⟩ => ?_)
      · exact Option.some.inj (hi.symm.trans ha)
      · rwa [Option.some.inj (hi.symm.trans hj)]
    rw [List.length_cons] at hfuel
    obtain ⟨hend, hkept, hmet⟩ := ih hplaces (by rw [List.length_append]; omega) hnew h
    refine ⟨hend, fun u hu => hkept u (has_insert.2 (.inr hu)), ?_⟩
    refine List.forall_mem_cons.2 ⟨hkept t (has_insert.2 (.inl rfl)), fun s hs => ?_⟩
    exact hmet s (List.mem_append_right _ hs)

theorem Closed.not_accepts (h : Closed program width root seen []) (ht : t.place ∈ root.onward)
    (hseen : seen.Has width t) {n : Nat} (hr : t.Runs program n u) : ¬ u.Accepts program := by
  induction hr with
  | stay t => exact h.unaccepting t ht hseen
  | @go n t u v hstep _ ih =>
    have hu : u.place ∈ root.onward := hstep.runs.place ht
    refine ih hu ?_
    rcases h.follows t u ht hseen hstep with hu | ⟨s, hs, -⟩
    · exact hu
    · exact absurd hs List.not_mem_nil

end Explore

section Seek

variable {r : Regex} {p root : Place} {bound : Nat} {slots : Slots}

def threadAt (r : Regex) (p : Place) : Thread := ⟨0, p, List.replicate (2 * r.groupCount) none⟩

theorem seek_of_nil (h : p.rest = []) :
    r.seek width bound p.rest p.before p.pos seen =
      (explore r.program width bound [r.threadAt p] seen).1 := by
  obtain ⟨before, rest, pos⟩ := p
  cases h
  rfl

theorem seek_of_cons {c : Char} {cs : List Char} (h : p.rest = c :: cs) :
    r.seek width bound p.rest p.before p.pos seen =
      match explore r.program width bound [r.threadAt p] seen with
      | (some slots, _) => some slots
      | (none, seen) => r.seek width bound p.step.rest p.step.before p.step.pos seen := by
  obtain ⟨before, rest, pos⟩ := p
  cases h
  rfl

theorem run_of_seek (h : r.seek width bound p.rest p.before p.pos seen = some slots) :
    ∃ q ∈ p.onward, ∃ n t, (r.threadAt q).Runs r.program n t ∧ t.Accepts r.program ∧
      t.slots = slots := by
  have hhere {q : Place} {seen : Seen}
      (h : (explore r.program width bound [r.threadAt q] seen).1 = some slots) :
      ∃ n t, (r.threadAt q).Runs r.program n t ∧ t.Accepts r.program ∧ t.slots = slots := by
    obtain ⟨s, hs, hrun⟩ := run_of_explore h
    rwa [List.mem_singleton.1 hs] at hrun
  induction p using Place.onward_induction generalizing seen with
  | hnil p hp =>
    rw [seek_of_nil hp] at h
    exact ⟨p, Place.mem_onward_self p, hhere h⟩
  | hcons p c cs hp ih =>
    rw [seek_of_cons hp] at h
    rw [Place.onward_of_cons hp]
    split at h
    · rename_i slots' seen' he
      cases h
      exact ⟨p, List.mem_cons_self, hhere (by rw [he])⟩
    · obtain ⟨q, hq, hrun⟩ := ih h
      exact ⟨q, List.mem_cons_of_mem _ hq, hrun⟩

theorem closed_of_explore_threadAt {q : Place} {seen' : Seen}
    (hwidth : root.pos + root.rest.length < width) (hq : q ∈ root.onward)
    (hclosed : Closed r.program width root seen [])
    (h : explore r.program width (r.stepBound width) [r.threadAt q] seen = (none, seen')) :
    Closed r.program width root seen' [] ∧
      ∀ n t, (r.threadAt q).Runs r.program n t → ¬ t.Accepts r.program := by
  have hfuel : pending r.program width seen + 1 < r.stepBound width := pending_lt_stepBound r seen
  have hstart : Closed r.program width root seen [r.threadAt q] :=
    ⟨fun t u ht hs hstep => .inl (by simpa using hclosed.follows t u ht hs hstep),
      hclosed.unaccepting⟩
  obtain ⟨hend, -, hmet⟩ := explore_eq_none hwidth (List.forall_mem_singleton.2 hq)
    (by rw [List.length_singleton]; omega) hstart h
  exact ⟨hend, fun n t hrun => hend.not_accepts hq (hmet _ List.mem_cons_self) hrun⟩

theorem seek_eq_none (hwidth : root.pos + root.rest.length < width)
    (hp : ∀ q ∈ p.onward, q ∈ root.onward) (hclosed : Closed r.program width root seen [])
    (h : r.seek width (r.stepBound width) p.rest p.before p.pos seen = none) :
    ∀ q ∈ p.onward, ∀ n t, (r.threadAt q).Runs r.program n t → ¬ t.Accepts r.program := by
  induction p using Place.onward_induction generalizing seen with
  | hnil p hnil =>
    rw [seek_of_nil hnil] at h
    rw [Place.onward_of_nil hnil]
    refine List.forall_mem_singleton.2 ?_
    have hroot := hp p (Place.mem_onward_self p)
    exact (closed_of_explore_threadAt hwidth hroot hclosed (Prod.ext h rfl)).2
  | hcons p c cs hcons ih =>
    rw [seek_of_cons hcons] at h
    rw [Place.onward_of_cons hcons] at hp ⊢
    split at h
    · cases h
    · rename_i seen' he
      obtain ⟨hclosed', hnone⟩ :=
        closed_of_explore_threadAt hwidth (hp p List.mem_cons_self) hclosed he
      exact List.forall_mem_cons.2 ⟨hnone, ih (List.forall_mem_cons.1 hp).2 hclosed' h⟩

theorem leftmost_of_seek (hwidth : root.pos + root.rest.length < width)
    (hp : ∀ q ∈ p.onward, q ∈ root.onward) (hclosed : Closed r.program width root seen [])
    (h : r.seek width (r.stepBound width) p.rest p.before p.pos seen = some slots) :
    ∃ q ∈ p.onward, (∃ n t, (r.threadAt q).Runs r.program n t ∧ t.Accepts r.program ∧
        t.slots = slots) ∧
      ∀ q' ∈ p.onward, q'.pos < q.pos →
        ∀ n t, (r.threadAt q').Runs r.program n t → ¬ t.Accepts r.program := by
  induction p using Place.onward_induction generalizing seen with
  | hnil p hnil =>
    obtain ⟨q, hq, hrun⟩ := run_of_seek h
    refine ⟨q, hq, hrun, ?_⟩
    rw [Place.onward_of_nil hnil, List.mem_singleton] at hq
    rw [Place.onward_of_nil hnil, hq]
    exact List.forall_mem_singleton.2 (fun hlt => absurd hlt (Nat.lt_irrefl _))
  | hcons p c cs hcons ih =>
    have hhere := hp p (Place.mem_onward_self p)
    rw [seek_of_cons hcons] at h
    rw [Place.onward_of_cons hcons] at hp ⊢
    split at h
    · rename_i slots' seen' he
      cases h
      obtain ⟨s, hs, hrun⟩ := run_of_explore (congrArg Prod.fst he)
      rw [List.mem_singleton.1 hs] at hrun
      refine ⟨p, List.mem_cons_self, hrun, ?_⟩
      intro q' hq' hlt
      rw [← Place.onward_of_cons hcons] at hq'
      exact absurd hlt (Nat.not_lt.2 (Place.pos_of_mem_onward hq').1)
    · rename_i seen' he
      obtain ⟨hclosed', hnone⟩ := closed_of_explore_threadAt hwidth hhere hclosed he
      obtain ⟨q, hq, hrun, hleft⟩ := ih (List.forall_mem_cons.1 hp).2 hclosed' h
      refine ⟨q, List.mem_cons_of_mem _ hq, hrun, ?_⟩
      exact List.forall_mem_cons.2 ⟨fun _ => hnone, hleft⟩

theorem ofSlots_isSome (h0 : t.Noted 0) (h1 : t.Noted 1) :
    (Match.ofSlots t.slots).isSome = true := by
  obtain ⟨first, h0⟩ := h0
  obtain ⟨last, h1⟩ := h1
  match hs : t.slots with
  | [] => simp [hs] at h0
  | [a] => simp [hs] at h1
  | a :: b :: rest =>
    rw [hs] at h0 h1
    cases h0
    cases h1
    rfl

theorem isSome_findFrom_iff (hwidth : p.pos + p.rest.length < width)
    (hnoted : ∀ q n t, (r.threadAt q).Runs r.program n t → t.Accepts r.program →
      t.Noted 0 ∧ t.Noted 1) :
    (r.findFrom width p).isSome = true ↔
      ∃ q ∈ p.onward, ∃ n t, (r.threadAt q).Runs r.program n t ∧ t.Accepts r.program := by
  rw [findFrom]
  cases h : r.seek width (r.stepBound width) p.rest p.before p.pos ∅ with
  | none =>
    have hempty : Closed r.program width p ∅ [] :=
      ⟨fun t u _ hs => absurd hs (by simp [Seen.Has]), fun t _ hs => absurd hs (by simp [Seen.Has])⟩
    have hnone := seek_eq_none hwidth (fun _ hq => hq) hempty h
    simp only [Option.bind_none, Option.isSome_none, Bool.false_eq_true, false_iff, not_exists]
    rintro q ⟨hq, n, t, hrun, haccept⟩
    exact hnone q hq n t hrun haccept
  | some slots =>
    obtain ⟨q, hq, n, t, hrun, haccept, rfl⟩ := run_of_seek h
    obtain ⟨h0, h1⟩ := hnoted q n t hrun haccept
    rw [Option.bind_some, ofSlots_isSome h0 h1]
    exact iff_of_true rfl ⟨q, hq, n, t, hrun, haccept⟩

end Seek

end ProjectShell.Regex
