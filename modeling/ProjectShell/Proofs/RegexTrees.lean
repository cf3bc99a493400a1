import ProjectShell.Proofs.RegexRuns

namespace ProjectShell.Regex

def Repeats (R : Place → Place → Prop) : Nat → Place → Place → Prop
  | 0, p, q => q = p
  | n + 1, p, q => ∃ r, R p r ∧ Repeats R n r q

theorem repeats_add {R : Place → Place → Prop} {m n : Nat} {p q : Place} :
    Repeats R (m + n) p q ↔ ∃ r, Repeats R m p r ∧ Repeats R n r q := by
  induction m generalizing p with
  | zero => simp [Repeats]
  | succ m ih =>
    rw [Nat.succ_add]
    simp only [Repeats, ih]
    constructor
    · rintro ⟨r, hr, s, hs, hq⟩
      exact ⟨s, ⟨r, hr, hs⟩, hq⟩
    · rintro ⟨s, ⟨r, hr, hs⟩, hq⟩
      exact ⟨r, hr, s, hs, hq⟩

theorem repeats_one {R : Place → Place → Prop} {p q : Place} : Repeats R 1 p q ↔ R p q := by
  simp [Repeats]

theorem exists_repeats_le_succ {R : Place → Place → Prop} {count : Nat} {p q : Place} :
    (∃ n ≤ count + 1, Repeats R n p q) ↔
      q = p ∨ ∃ r, R p r ∧ ∃ n ≤ count, Repeats R n r q := by
  constructor
  · rintro ⟨_ | n, hn, h⟩
    · exact .inl h
    · obtain ⟨r, hr, hq⟩ := h
      exact .inr ⟨r, hr, n, Nat.le_of_succ_le_succ hn, hq⟩
  · rintro (h | ⟨r, hr, n, hn, hq⟩)
    · exact ⟨0, Nat.zero_le _, h⟩
    · exact ⟨n + 1, Nat.succ_le_succ hn, r, hr, hq⟩

theorem exists_repeats {R : Place → Place → Prop} {p q : Place} :
    (∃ n, Repeats R n p q) ↔ q = p ∨ ∃ n, Repeats R (n + 1) p q := by
  constructor
  · rintro ⟨_ | n, h⟩
    · exact .inl h
    · exact .inr ⟨n, h⟩
  · rintro (h | ⟨n, h⟩)
    · exact ⟨0, h⟩
    · exact ⟨n + 1, h⟩

namespace Node

mutual

def Takes : Node → Place → Place → Prop
  | empty, p, q => q = p
  | char c, p, q => p.rest.head? = some c ∧ q = p.step
  | set s, p, q => (∃ c, p.rest.head? = some c ∧ s.contains c = true) ∧ q = p.step
  | look l, p, q => l.holds p.before p.rest.head? = true ∧ q = p
  | loop min max _ sub, p, q => ∃ n, min ≤ n ∧ (∀ m ∈ max, n ≤ m) ∧ Repeats (Takes sub) n p q
  | group _ _ sub, p, q => Takes sub p q
  | concat subs, p, q => TakeAll subs p q
  | alternate subs, p, q => TakeAny subs p q

def TakeAll : List Node → Place → Place → Prop
  | [], p, q => q = p
  | n :: ns, p, q => ∃ r, Takes n p r ∧ TakeAll ns r q

def TakeAny : List Node → Place → Place → Prop
  | [], _, _ => False
  | n :: ns, p, q => Takes n p q ∨ TakeAny ns p q

end

mutual

def WellFormed : Node → Prop
  | loop min max _ sub => (∀ m ∈ max, min ≤ m ∧ 0 < m) ∧ WellFormed sub
  | group _ _ sub => WellFormed sub
  | concat subs => subs ≠ [] ∧ AllWellFormed subs
  | alternate subs => AllWellFormed subs
  | _ => True

def AllWellFormed : List Node → Prop
  | [] => True
  | n :: ns => WellFormed n ∧ AllWellFormed ns

end

end Node

def Carries (program : Array Inst) : Nat → List Inst → Prop
  | _, [] => True
  | base, i :: is => program[base]? = some i ∧ Carries program (base + 1) is

variable {program : Array Inst} {base mid next size : Nat} {R S : Place → Place → Prop}

theorem carries_append {is js : List Inst} :
    Carries program base (is ++ js) ↔
      Carries program base is ∧ Carries program (base + is.length) js := by
  induction is generalizing base with
  | nil => simp [Carries]
  | cons i is ih =>
    simp only [List.cons_append, Carries, ih, List.length_cons, and_assoc]
    rw [Nat.add_assoc, Nat.add_comm 1]

theorem carries_toArray (before is : List Inst) :
    Carries (before ++ is).toArray before.length is := by
  induction is generalizing before with
  | nil => trivial
  | cons i is ih =>
    refine ⟨by simp, ?_⟩
    have h := ih (before ++ [i])
    rwa [List.append_assoc, List.length_append] at h

/-- A piece of code goes from its first instruction to `next` along the relation: it can go wherever
the relation leads, and a run that leaves the piece has gone along the relation first. -/
structure Realizes (program : Array Inst) (base next size : Nat) (R : Place → Place → Prop) :
    Prop where
  complete : ∀ (t : Thread) (q : Place), t.pc = base → R t.place q →
    ∃ n u, t.Runs program n u ∧ u.pc = next ∧ u.place = q
  sound : ∀ (n : Nat) (t u : Thread), t.Runs program n u → t.pc = base →
    (u.pc < base ∨ base + size ≤ u.pc) →
    ∃ m ≤ n, ∃ v : Thread, v.Runs program m u ∧ v.pc = next ∧ R t.place v.place

namespace Realizes

theorem congr (h : Realizes program base next size R) (hrs : ∀ p q, R p q ↔ S p q) :
    Realizes program base next size S := by
  have heq : R = S := funext fun p => funext fun q => propext (hrs p q)
  exact heq ▸ h

theorem nothing (program : Array Inst) (base : Nat) :
    Realizes program base base 0 (fun p q => q = p) :=
  ⟨fun t _ ht hq => ⟨0, t, .stay t, ht, hq.symm⟩,
    fun n t _ hr ht _ => ⟨n, Nat.le_refl n, t, hr, ht, rfl⟩⟩

theorem of_inst {i : Inst} (hi : program[base]? = some i)
    (hsound : ∀ t u, u ∈ i.successors t → u.pc = next ∧ R t.place u.place)
    (hcomplete : ∀ (t : Thread) q, R t.place q → ∃ u ∈ i.successors t, u.pc = next ∧ u.place = q) :
    Realizes program base next 1 R := by
  constructor
  · intro t q ht hq
    obtain ⟨u, hu, hpc, hplace⟩ := hcomplete t q hq
    exact ⟨1, u, Thread.Steps.runs ⟨i, ht ▸ hi, hu⟩, hpc, hplace⟩
  · intro n t u hr ht hout
    cases hr with
    | stay => omega
    | @go n _ v _ hstep hr =>
      obtain ⟨j, hj, hv⟩ := hstep
      rw [ht, hi] at hj
      cases hj
      obtain ⟨hpc, hplace⟩ := hsound t v hv
      exact ⟨n, Nat.le_succ n, v, hr, hpc, hplace⟩

theorem sequence {first last : Nat} (h : Realizes program base mid first R)
    (h' : Realizes program mid next last S) (hmid : mid = base + first) :
    Realizes program base next (first + last) (fun p q => ∃ r, R p r ∧ S r q) := by
  constructor
  · rintro t q ht ⟨r, hr, hq⟩
    obtain ⟨m, u, hu, hupc, hup⟩ := h.complete t r ht hr
    obtain ⟨n, v, hv, hvpc, hvp⟩ := h'.complete u q hupc (hup ▸ hq)
    obtain ⟨k, hk⟩ := hu.trans hv
    exact ⟨k, v, hk, hvpc, hvp⟩
  · intro n t u hr ht hout
    obtain ⟨m, hm, v, hv, hvpc, hvp⟩ := h.sound n t u hr ht (by omega)
    obtain ⟨k, hk, w, hw, hwpc, hwp⟩ := h'.sound m v u hv hvpc (by omega)
    exact ⟨k, hk.trans hm, w, hw, hwpc, v.place, hvp, hwp⟩

theorem choice_cases {greedy : Bool} {body out n : Nat} {t u : Thread}
    (hi : program[base]? = some (.choice greedy body out)) (ht : t.pc = base)
    (hr : t.Runs program n u) :
    (n = 0 ∧ u = t) ∨ ∃ (m : Nat) (v : Thread), n = m + 1 ∧ v.Runs program m u ∧
      v.place = t.place ∧ (v.pc = body ∨ v.pc = out) := by
  cases hr with
  | stay => exact .inl ⟨rfl, rfl⟩
  | @go m _ v _ hstep hr =>
    obtain ⟨j, hj, hv⟩ := hstep
    rw [ht, hi] at hj
    cases hj
    rcases Inst.mem_successors_choice.1 hv with rfl | rfl
    · exact .inr ⟨m, _, rfl, hr, rfl, .inl rfl⟩
    · exact .inr ⟨m, _, rfl, hr, rfl, .inr rfl⟩

theorem choice_steps {greedy : Bool} {body out : Nat} {t : Thread}
    (hi : program[base]? = some (.choice greedy body out)) (ht : t.pc = base) :
    t.Steps program { t with pc := body } ∧ t.Steps program { t with pc := out } :=
  ⟨⟨_, ht ▸ hi, Inst.mem_successors_choice.2 (.inl rfl)⟩,
    ⟨_, ht ▸ hi, Inst.mem_successors_choice.2 (.inr rfl)⟩⟩

theorem choice {greedy : Bool} (hi : program[base]? = some (.choice greedy (base + 1) next))
    (h : Realizes program (base + 1) next size R) :
    Realizes program base next (size + 1) (fun p q => q = p ∨ R p q) := by
  constructor
  · rintro t q ht (hq | hq)
    · exact ⟨1, { t with pc := next }, (choice_steps hi ht).2.runs, rfl, hq.symm⟩
    · obtain ⟨n, u, hu, hpc, hp⟩ := h.complete { t with pc := base + 1 } q rfl hq
      exact ⟨n + 1, u, .go (choice_steps hi ht).1 hu, hpc, hp⟩
  · intro n t u hr ht hout
    rcases choice_cases hi ht hr with ⟨-, rfl⟩ | ⟨m, v, rfl, hv, hvp, hpc | hpc⟩
    · omega
    · obtain ⟨k, hk, w, hw, hwpc, hwp⟩ := h.sound m v u hv hpc (by omega)
      exact ⟨k, by omega, w, hw, hwpc, .inr (hvp ▸ hwp)⟩
    · exact ⟨m, by omega, v, hv, hpc, .inl hvp⟩

theorem star {greedy : Bool} (hi : program[base]? = some (.choice greedy (base + 1) next))
    (h : Realizes program (base + 1) base size R) :
    Realizes program base next (size + 1) (fun p q => ∃ n, Repeats R n p q) := by
  constructor
  · rintro t q ht ⟨n, hn⟩
    induction n generalizing t with
    | zero => exact ⟨1, { t with pc := next }, (choice_steps hi ht).2.runs, rfl, hn.symm⟩
    | succ n ih =>
      obtain ⟨r, hr, hq⟩ := hn
      obtain ⟨k, u, hu, hpc, hp⟩ := h.complete { t with pc := base + 1 } r rfl hr
      obtain ⟨l, v, hv, hvpc, hvp⟩ := ih u hpc (hp ▸ hq)
      obtain ⟨m, hm⟩ := hu.trans hv
      exact ⟨m + 1, v, .go (choice_steps hi ht).1 hm, hvpc, hvp⟩
  · intro n
    induction n using Nat.strong_induction_on with
    | _ n ih =>
      intro t u hr ht hout
      rcases choice_cases hi ht hr with ⟨-, rfl⟩ | ⟨m, v, rfl, hv, hvp, hpc | hpc⟩
      · omega
      · obtain ⟨k, hk, w, hw, hwpc, hwp⟩ := h.sound m v u hv hpc (by omega)
        obtain ⟨l, hl, x, hx, hxpc, c, hc⟩ := ih k (by omega) w u hw hwpc hout
        exact ⟨l, by omega, x, hx, hxpc, c + 1, w.place, hvp ▸ hwp, hc⟩
      · exact ⟨m, by omega, v, hv, hpc, 0, hvp⟩

theorem plus {greedy : Bool} (h : Realizes program base (base + size) size R)
    (hi : program[base + size]? = some (.choice greedy base next)) :
    Realizes program base next (size + 1) (fun p q => ∃ n, Repeats R (n + 1) p q) := by
  constructor
  · rintro t q ht ⟨n, hn⟩
    induction n generalizing t with
    | zero =>
      obtain ⟨k, u, hu, hpc, hp⟩ := h.complete t q ht (repeats_one.1 hn)
      obtain ⟨m, hm⟩ := hu.trans (choice_steps hi hpc).2.runs
      exact ⟨m, { u with pc := next }, hm, rfl, hp⟩
    | succ n ih =>
      obtain ⟨r, hr, hq⟩ := hn
      obtain ⟨k, u, hu, hpc, hp⟩ := h.complete t r ht hr
      obtain ⟨l, v, hv, hvpc, hvp⟩ := ih { u with pc := base } rfl (hp ▸ hq)
      obtain ⟨m, hm⟩ := hu.trans (.go (choice_steps hi hpc).1 hv)
      exact ⟨m, v, hm, hvpc, hvp⟩
  · intro n
    induction n using Nat.strong_induction_on with
    | _ n ih =>
      intro t u hr ht hout
      obtain ⟨k, hk, v, hv, hvpc, hvp⟩ := h.sound n t u hr ht (by omega)
      rcases choice_cases hi hvpc hv with ⟨-, rfl⟩ | ⟨m, w, rfl, hw, hwp, hpc | hpc⟩
      · omega
      · obtain ⟨l, hl, x, hx, hxpc, c, hc⟩ := ih m (by omega) w u hw hpc hout
        exact ⟨l, by omega, x, hx, hxpc, c + 1, v.place, hvp, hwp ▸ hc⟩
      · exact ⟨m, by omega, w, hw, hpc, 0, repeats_one.2 (hwp ▸ hvp)⟩

section Pieces

variable {piece : Nat → Nat → List Inst} {length : Nat}

theorem copies (hlength : ∀ base next, (piece base next).length = length)
    (hpiece : ∀ base next, Carries program base (piece base next) →
      Realizes program base next length R) {count : Nat} (hnext : count = 0 → next = base)
    (h : Carries program base (Node.copies piece length count base next)) :
    Realizes program base next (count * length) (Repeats R count) := by
  induction count generalizing base with
  | zero =>
    rw [hnext rfl, Nat.zero_mul]
    exact nothing program base
  | succ count ih =>
    cases count with
    | zero =>
      rw [Nat.one_mul]
      exact (hpiece base next h).congr (fun _ _ => repeats_one.symm)
    | succ count =>
      rw [Node.copies, carries_append, hlength] at h
      have hsome : count + 1 = 0 → next = base + length := fun h0 =>
        absurd h0 (Nat.succ_ne_zero count)
      have hseq := (hpiece base _ h.1).sequence (ih hsome h.2) rfl
      rwa [Nat.add_comm length, ← Nat.succ_mul] at hseq

theorem options {greedy : Bool} (hlength : ∀ base next, (piece base next).length = length)
    (hpiece : ∀ base next, Carries program base (piece base next) →
      Realizes program base next length R) {count : Nat} (hnext : count ≠ 0)
    (h : Carries program base (Node.options piece length greedy count base next)) :
    Realizes program base next (count * (length + 1))
      (fun p q => ∃ n ≤ count, Repeats R n p q) := by
  induction count generalizing base with
  | zero => exact absurd rfl hnext
  | succ count ih =>
    cases count with
    | zero =>
      rw [Nat.one_mul]
      refine (choice h.1 (hpiece _ _ h.2)).congr (fun p q => ?_)
      rw [exists_repeats_le_succ]
      simp [Repeats]
    | succ count =>
      rw [Node.options, List.cons_append] at h
      obtain ⟨hchoice, h⟩ := h
      rw [carries_append, hlength] at h
      have hseq := (hpiece _ _ h.1).sequence (ih (Nat.succ_ne_zero _) h.2) rfl
      have hsize : (count + 1 + 1) * (length + 1) = length + (count + 1) * (length + 1) + 1 := by
        rw [Nat.succ_mul (count + 1)]
        omega
      rw [hsize]
      exact (choice hchoice hseq).congr (fun _ _ => exists_repeats_le_succ.symm)

end Pieces

end Realizes

theorem Node.copies_succ {piece : Nat → Nat → List Inst} {length : Nat} (count base next : Nat) :
    copies piece length (count + 1) base next =
      copies piece length count base (base + count * length) ++
        piece (base + count * length) next := by
  induction count generalizing base with
  | zero => simp [copies]
  | succ count ih =>
    have hbase : base + length + count * length = base + (count + 1) * length := by
      rw [Nat.succ_mul]
      omega
    rw [copies, ih, hbase, ← List.append_assoc]
    cases count with
    | zero => simp [copies]
    | succ count => rw [copies]

section Loop

variable {sub : Node} {greedy : Bool} (hsub : ∀ base next,
  Carries program base (sub.code base next) →
    Realizes program base next sub.codeLength sub.Takes)
include hsub

theorem realizes_loop_zero
    (h : Carries program base ((Node.loop 0 none greedy sub).code base next)) :
    Realizes program base next (Node.loop 0 none greedy sub).codeLength
      (Node.loop 0 none greedy sub).Takes := by
  have htakes (p q : Place) :
      (∃ n, Repeats sub.Takes n p q) ↔ (Node.loop 0 none greedy sub).Takes p q := by
    simp [Node.Takes]
  simp only [Node.code, Node.codeLength] at h ⊢
  split at h
  · rename_i hempty
    rw [if_pos hempty]
    rw [List.cons_append] at h
    obtain ⟨hfirst, h⟩ := h
    rw [carries_append, Node.length_code] at h
    obtain ⟨hbody, hlast, -⟩ := h
    have hplus := (hsub _ _ hbody).plus hlast
    exact (hplus.choice hfirst).congr (fun p q => exists_repeats.symm.trans (htakes p q))
  · rename_i hempty
    rw [if_neg hempty]
    exact ((hsub _ _ h.2).star h.1).congr htakes

theorem realizes_loop_succ {min : Nat}
    (h : Carries program base ((Node.loop (min + 1) none greedy sub).code base next)) :
    Realizes program base next (Node.loop (min + 1) none greedy sub).codeLength
      (Node.loop (min + 1) none greedy sub).Takes := by
  simp only [Node.code, Node.codeLength] at h ⊢
  rw [Node.copies_succ, carries_append, carries_append, List.length_append,
    Node.length_copies (Node.length_code sub), Node.length_code] at h
  obtain ⟨⟨hcopies, hbody⟩, hchoice, -⟩ := h
  rw [Nat.succ_mul, ← Nat.add_assoc] at hbody
  rw [← Nat.add_assoc] at hchoice
  have hbefore := Realizes.copies (Node.length_code sub) hsub (fun h0 => by simp [h0]) hcopies
  have hseq := hbefore.sequence ((hsub _ _ hbody).plus hchoice) rfl
  rw [Nat.succ_mul, Nat.add_assoc]
  refine hseq.congr (fun p q => ?_)
  constructor
  · rintro ⟨r, hr, n, hq⟩
    exact ⟨min + (n + 1), by omega, nofun, repeats_add.2 ⟨r, hr, hq⟩⟩
  · rintro ⟨n, hn, -, hq⟩
    obtain ⟨k, rfl⟩ := Nat.exists_eq_add_of_le hn
    rw [Nat.add_assoc, Nat.add_comm 1] at hq
    obtain ⟨r, hr, hq⟩ := repeats_add.1 hq
    exact ⟨r, hr, k, hq⟩

theorem realizes_loop_some {min max : Nat} (hmin : min ≤ max) (hmax : 0 < max)
    (h : Carries program base ((Node.loop min (some max) greedy sub).code base next)) :
    Realizes program base next (Node.loop min (some max) greedy sub).codeLength
      (Node.loop min (some max) greedy sub).Takes := by
  have hcode : (Node.loop min (some max) greedy sub).code base next =
      Node.copies sub.code sub.codeLength min base
        (if max ≤ min then next else base + min * sub.codeLength) ++
      Node.options sub.code sub.codeLength greedy (max - min) (base + min * sub.codeLength)
        next := by
    cases min <;> simp only [Node.code]
  have hlength : (Node.loop min (some max) greedy sub).codeLength =
      min * sub.codeLength + (max - min) * (sub.codeLength + 1) := by
    cases min <;> simp only [Node.codeLength]
  rw [hcode, carries_append, Node.length_copies (Node.length_code sub)] at h
  rw [hlength]
  obtain ⟨hcopies, hoptions⟩ := h
  by_cases hle : max ≤ min
  · obtain rfl : max = min := Nat.le_antisymm hle hmin
    rw [if_pos hle] at hcopies
    rw [Nat.sub_self, Nat.zero_mul, Nat.add_zero]
    refine (Realizes.copies (Node.length_code sub) hsub (by omega) hcopies).congr (fun p q => ?_)
    constructor
    · intro hq
      exact ⟨max, Nat.le_refl _, by simp, hq⟩
    · rintro ⟨n, hn, hn', hq⟩
      rwa [Nat.le_antisymm hn (hn' max rfl)]
  · rw [if_neg hle] at hcopies
    have hbefore := Realizes.copies (Node.length_code sub) hsub (fun h0 => by simp [h0]) hcopies
    have hafter := Realizes.options (Node.length_code sub) hsub (by omega) hoptions
    refine (hbefore.sequence hafter rfl).congr (fun p q => ?_)
    constructor
    · rintro ⟨r, hr, n, hn, hq⟩
      exact ⟨min + n, by omega, by simp; omega, repeats_add.2 ⟨r, hr, hq⟩⟩
    · rintro ⟨n, hn, hn', hq⟩
      obtain ⟨k, rfl⟩ := Nat.exists_eq_add_of_le hn
      have hk := hn' max rfl
      obtain ⟨r, hr, hq⟩ := repeats_add.1 hq
      exact ⟨r, hr, k, by omega, hq⟩

end Loop

structure Branches (program : Array Inst) (base next : Nat) (ns : List Node) : Prop where
  starts : ∀ n ∈ ns, ∃ start ∈ Node.branchStarts ns base,
    Realizes program start next n.codeLength n.Takes
  branches : ∀ start ∈ Node.branchStarts ns base, ∃ n ∈ ns,
    Realizes program start next n.codeLength n.Takes ∧ base ≤ start ∧
      start + n.codeLength ≤ base + Node.codeLengths ns

theorem Branches.cons {n : Node} {ns : List Node}
    (h : Realizes program base next n.codeLength n.Takes)
    (hns : Branches program (base + n.codeLength) next ns) :
    Branches program base next (n :: ns) := by
  constructor
  · intro m hm
    rcases List.mem_cons.1 hm with rfl | hm
    · exact ⟨base, List.mem_cons_self, h⟩
    · obtain ⟨start, hstart, hr⟩ := hns.starts m hm
      exact ⟨start, List.mem_cons_of_mem _ hstart, hr⟩
  · intro start hstart
    rw [Node.codeLengths]
    rcases List.mem_cons.1 hstart with rfl | hstart
    · exact ⟨n, List.mem_cons_self, h, Nat.le_refl _, by omega⟩
    · obtain ⟨m, hm, hr, hle, hlast⟩ := hns.branches start hstart
      exact ⟨m, List.mem_cons_of_mem _ hm, hr, by omega, by omega⟩

theorem Node.takeAny_iff {ns : List Node} {p q : Place} :
    TakeAny ns p q ↔ ∃ n ∈ ns, n.Takes p q := by
  induction ns with
  | nil => simp [TakeAny]
  | cons n ns ih => simp [TakeAny, ih]

theorem realizes_split {ns : List Node}
    (hi : program[base]? = some (.split (Node.branchStarts ns (base + 1))))
    (h : Branches program (base + 1) next ns) :
    Realizes program base next (Node.codeLengths ns + 1) (Node.TakeAny ns) := by
  constructor
  · intro t q ht hq
    obtain ⟨n, hn, hq⟩ := Node.takeAny_iff.1 hq
    obtain ⟨start, hstart, hr⟩ := h.starts n hn
    obtain ⟨k, u, hu, hpc, hp⟩ := hr.complete { t with pc := start } q rfl hq
    exact ⟨k + 1, u, .go ⟨_, ht ▸ hi, Inst.mem_successors_split.2 ⟨start, hstart, rfl⟩⟩ hu, hpc, hp⟩
  · intro n t u hr ht hout
    cases hr with
    | stay => omega
    | @go n _ v _ hstep hr =>
      obtain ⟨i, hi', hv⟩ := hstep
      rw [ht, hi] at hi'
      cases hi'
      obtain ⟨start, hstart, rfl⟩ := Inst.mem_successors_split.1 hv
      obtain ⟨m, hm, hbranch, hle, hlast⟩ := h.branches start hstart
      obtain ⟨k, hk, w, hw, hwpc, hwp⟩ := hbranch.sound n _ u hr rfl (by omega)
      exact ⟨k, by omega, w, hw, hwpc, Node.takeAny_iff.2 ⟨m, hm, hwp⟩⟩

theorem realizes_save {slot : Nat} (hi : program[base]? = some (.save slot next)) :
    Realizes program base next 1 (fun p q => q = p) := by
  refine .of_inst hi (fun t u hu => ?_) (fun t q hq => ?_)
  · rw [Inst.mem_successors_save.1 hu]
    exact ⟨rfl, rfl⟩
  · exact ⟨_, Inst.mem_successors_save.2 rfl, rfl, hq.symm⟩

mutual

theorem realizes_code (n : Node) (hn : n.WellFormed) (base next : Nat)
    (h : Carries program base (n.code base next)) :
    Realizes program base next n.codeLength n.Takes := by
  match n, hn with
  | .empty, _ =>
    refine .of_inst h.1 (fun t u hu => ?_) (fun t q hq => ?_)
    · rw [Inst.mem_successors_jump.1 hu]
      exact ⟨rfl, rfl⟩
    · exact ⟨_, Inst.mem_successors_jump.2 rfl, rfl, hq.symm⟩
  | .char c, _ =>
    refine .of_inst h.1 (fun t u hu => ?_) (fun t q hq => ?_)
    · obtain ⟨hc, rfl⟩ := Inst.mem_successors_char.1 hu
      exact ⟨rfl, hc, rfl⟩
    · exact ⟨_, Inst.mem_successors_char.2 ⟨hq.1, rfl⟩, rfl, hq.2.symm⟩
  | .set s, _ =>
    refine .of_inst h.1 (fun t u hu => ?_) (fun t q hq => ?_)
    · obtain ⟨hc, rfl⟩ := Inst.mem_successors_set.1 hu
      exact ⟨rfl, hc, rfl⟩
    · exact ⟨_, Inst.mem_successors_set.2 ⟨hq.1, rfl⟩, rfl, hq.2.symm⟩
  | .look l, _ =>
    refine .of_inst h.1 (fun t u hu => ?_) (fun t q hq => ?_)
    · obtain ⟨hl, rfl⟩ := Inst.mem_successors_look.1 hu
      exact ⟨rfl, hl, rfl⟩
    · exact ⟨_, Inst.mem_successors_look.2 ⟨hq.1, rfl⟩, rfl, hq.2.symm⟩
  | .loop min max greedy sub, hn =>
    have hsub (base next : Nat) := realizes_code sub hn.2 base next
    match min, max with
    | 0, none => exact realizes_loop_zero hsub h
    | min + 1, none => exact realizes_loop_succ hsub h
    | min, some max => exact realizes_loop_some hsub (hn.1 max rfl).1 (hn.1 max rfl).2 h
  | .group index name sub, hn =>
    rw [Node.code, List.cons_append] at h
    obtain ⟨hfirst, h⟩ := h
    rw [carries_append, Node.length_code] at h
    obtain ⟨hbody, hlast, -⟩ := h
    have hseq := (realizes_save hfirst).sequence
      ((realizes_code sub hn _ _ hbody).sequence (realizes_save hlast) rfl) rfl
    rw [Nat.add_comm 1] at hseq
    refine hseq.congr (fun p q => ?_)
    simp [Node.Takes]
  | .concat subs, hn => exact realizes_codeInSequence subs hn.1 hn.2 base next h
  | .alternate subs, hn =>
    obtain ⟨hsplit, h⟩ := h
    exact realizes_split hsplit (realizes_codeOfBranches subs hn _ _ h)

theorem realizes_codeInSequence (ns : List Node) (hne : ns ≠ []) (hns : Node.AllWellFormed ns)
    (base next : Nat) (h : Carries program base (Node.codeInSequence ns base next)) :
    Realizes program base next (Node.codeLengths ns) (Node.TakeAll ns) := by
  match ns, hns with
  | [], _ => exact absurd rfl hne
  | [n], hns =>
    refine (realizes_code n hns.1 base next h).congr (fun p q => ?_)
    simp [Node.TakeAll]
  | n :: m :: ns, hns =>
    rw [Node.codeInSequence, carries_append, Node.length_code] at h
    exact (realizes_code n hns.1 _ _ h.1).sequence
      (realizes_codeInSequence (m :: ns) (by simp) hns.2 _ _ h.2) rfl

theorem realizes_codeOfBranches (ns : List Node) (hns : Node.AllWellFormed ns) (base next : Nat)
    (h : Carries program base (Node.codeOfBranches ns base next)) :
    Branches program base next ns := by
  match ns, hns with
  | [], _ => exact ⟨nofun, nofun⟩
  | n :: ns, hns =>
    rw [Node.codeOfBranches, carries_append, Node.length_code] at h
    exact .cons (realizes_code n hns.1 _ _ h.1) (realizes_codeOfBranches ns hns.2 _ _ h.2)

end

namespace Node

section Pieces

variable {piece : Nat → Nat → List Inst} {length count base next : Nat} {i : Inst}

theorem not_mem_copies (h : ∀ base next, i ∉ piece base next) :
    i ∉ copies piece length count base next := by
  induction count generalizing next with
  | zero => exact List.not_mem_nil
  | succ count ih =>
    rw [copies_succ, List.mem_append, not_or]
    exact ⟨ih, h _ _⟩

theorem not_mem_options {greedy : Bool} (h : ∀ base next, i ∉ piece base next)
    (hchoice : ∀ body out, i ≠ .choice greedy body out) :
    i ∉ options piece length greedy count base next := by
  induction count generalizing base with
  | zero => exact List.not_mem_nil
  | succ count ih =>
    cases count with
    | zero =>
      rw [options, List.mem_cons, not_or]
      exact ⟨hchoice _ _, h _ _⟩
    | succ count =>
      rw [options, List.cons_append, List.mem_cons, List.mem_append, not_or, not_or]
      exact ⟨hchoice _ _, h _ _, ih⟩

end Pieces

mutual

theorem accept_not_mem_code (n : Node) (base next : Nat) : .accept ∉ code n base next := by
  match n with
  | empty => simp [code]
  | char c => simp [code]
  | set s => simp [code]
  | look l => simp [code]
  | loop min max greedy sub =>
    have ih := accept_not_mem_code sub
    have hchoice (body out : Nat) : .accept ≠ Inst.choice greedy body out := nofun
    match min, max with
    | 0, none =>
      simp only [code]
      split <;> simp [ih, hchoice]
    | min + 1, none =>
      simp only [code, List.mem_append, List.mem_singleton, not_or]
      exact ⟨not_mem_copies ih, hchoice _ _⟩
    | 0, some max =>
      simp only [code, List.mem_append, not_or]
      exact ⟨not_mem_copies ih, not_mem_options ih hchoice⟩
    | min + 1, some max =>
      simp only [code, List.mem_append, not_or]
      exact ⟨not_mem_copies ih, not_mem_options ih hchoice⟩
  | group index name sub => simp [code, accept_not_mem_code sub]
  | concat subs => exact accept_not_mem_codeInSequence subs base next
  | alternate subs => simp [code, accept_not_mem_codeOfBranches subs]

theorem accept_not_mem_codeInSequence (ns : List Node) (base next : Nat) :
    .accept ∉ codeInSequence ns base next := by
  match ns with
  | [] => simp [codeInSequence]
  | [n] => exact accept_not_mem_code n base next
  | n :: m :: ns =>
    rw [codeInSequence, List.mem_append, not_or]
    exact ⟨accept_not_mem_code n _ _, accept_not_mem_codeInSequence (m :: ns) _ _⟩

theorem accept_not_mem_codeOfBranches (ns : List Node) (base next : Nat) :
    .accept ∉ codeOfBranches ns base next := by
  match ns with
  | [] => simp [codeOfBranches]
  | n :: ns =>
    rw [codeOfBranches, List.mem_append, not_or]
    exact ⟨accept_not_mem_code n _ _, accept_not_mem_codeOfBranches ns _ _⟩

end

end Node

section Program

variable {n : Node} {r : Regex} {p : Place}

theorem carries_program (n : Node) :
    Carries n.program.toArray 0 [.save 0 1] ∧
      Carries n.program.toArray 1 (n.code 1 (1 + n.codeLength)) ∧
        Carries n.program.toArray (1 + n.codeLength) [.save 1 (n.codeLength + 2), .accept] := by
  have h := carries_toArray [] n.program
  rw [List.nil_append, Node.program, List.cons_append] at h
  have hcode := carries_append.1 h.2
  rw [Node.length_code] at hcode
  exact ⟨⟨h.1, trivial⟩, hcode⟩

theorem out_of_accepts {t : Thread} (h : t.Accepts n.program.toArray) :
    t.pc < 1 ∨ 1 + n.codeLength ≤ t.pc := by
  by_contra hin
  obtain ⟨k, hk⟩ : ∃ k, t.pc = k + 1 := ⟨t.pc - 1, by omega⟩
  rw [Thread.Accepts, hk, List.getElem?_toArray, Node.program, List.cons_append,
    List.getElem?_cons_succ, List.getElem?_append_left (by rw [Node.length_code]; omega)] at h
  exact Node.accept_not_mem_code n _ _ (List.mem_of_getElem? h)

theorem runs_of_takes (hn : n.WellFormed) {t : Thread} (ht : t.pc = 0) {q : Place}
    (h : n.Takes t.place q) :
    ∃ k u, t.Runs n.program.toArray k u ∧ u.Accepts n.program.toArray := by
  obtain ⟨⟨hfirst, -⟩, hcode, hlast, haccept, -⟩ := carries_program n
  obtain ⟨k, u, hu, hupc, hup⟩ := (realizes_save hfirst).complete t t.place ht rfl
  obtain ⟨l, v, hv, hvpc, -⟩ := (realizes_code n hn _ _ hcode).complete u q hupc (hup ▸ h)
  obtain ⟨m, w, hw, hwpc, -⟩ := (realizes_save hlast).complete v v.place hvpc rfl
  obtain ⟨a, ha⟩ := hu.trans hv
  obtain ⟨b, hb⟩ := ha.trans hw
  refine ⟨b, w, hb, ?_⟩
  rw [Thread.Accepts, hwpc, ← haccept]
  congr 1
  omega

theorem takes_and_noted_of_runs (hn : n.WellFormed) {t u : Thread} (ht : t.pc = 0)
    (hslots : 2 ≤ t.slots.length) {k : Nat} (hr : t.Runs n.program.toArray k u)
    (hu : u.Accepts n.program.toArray) :
    (∃ q, n.Takes t.place q) ∧ u.Noted 0 ∧ u.Noted 1 := by
  obtain ⟨⟨hfirst, -⟩, hcode, hlast, -⟩ := carries_program n
  cases hr with
  | stay =>
    rw [Thread.Accepts, ht, hfirst] at hu
    cases hu
  | @go k _ v _ hstep hr =>
    obtain ⟨i, hi, hv⟩ := hstep
    rw [ht, hfirst] at hi
    cases hi
    obtain rfl := Inst.mem_successors_save.1 hv
    obtain ⟨m, -, w, hw, hwpc, hwp⟩ :=
      (realizes_code n hn _ _ hcode).sound k _ u hr rfl (out_of_accepts hu)
    refine ⟨⟨w.place, hwp⟩, hr.noted (Thread.noted_set _ _ (by omega) _), ?_⟩
    have hlength : u.slots.length = t.slots.length := by
      rw [hr.length_slots, List.length_set]
    rw [← hlength, hw.length_slots] at hslots
    cases hw with
    | stay =>
      rw [Thread.Accepts, hwpc, hlast] at hu
      cases hu
    | @go m _ x _ hstep hx =>
      obtain ⟨i, hi, hmem⟩ := hstep
      rw [hwpc, hlast] at hi
      cases hi
      obtain rfl := Inst.mem_successors_save.1 hmem
      exact hx.noted (Thread.noted_set _ _ (by omega) _)

theorem isSome_findFrom_iff_takes {width : Nat} (hprogram : r.program = n.program.toArray)
    (hgroups : 0 < r.groupCount) (hn : n.WellFormed)
    (hwidth : p.pos + p.rest.length < width) :
    (r.findFrom width p).isSome = true ↔ ∃ q ∈ p.onward, ∃ q', n.Takes q q' := by
  have hslots (q : Place) : 2 ≤ (r.threadAt q).slots.length := by
    rw [threadAt, List.length_replicate]
    omega
  rw [isSome_findFrom_iff hwidth, hprogram]
  · constructor
    · rintro ⟨q, hq, k, t, hr, ht⟩
      exact ⟨q, hq, (takes_and_noted_of_runs hn rfl (hslots q) hr ht).1⟩
    · rintro ⟨q, hq, q', htakes⟩
      exact ⟨q, hq, runs_of_takes hn rfl htakes⟩
  · intro q k t hr ht
    rw [hprogram] at hr ht
    exact (takes_and_noted_of_runs hn rfl (hslots q) hr ht).2

theorem isMatch_iff_takes {source : List Char} {ignoreCase : Bool}
    (hparse : Node.parse source ignoreCase = some n) (hn : n.WellFormed)
    (h : compile? source ignoreCase = some r) (cs : List Char) :
    r.isMatch cs = true ↔ ∃ p ∈ (Place.start cs).onward, ∃ q, n.Takes p q := by
  rw [compile?, hparse] at h
  simp only [Option.ite_none_right_eq_some, Option.some.injEq] at h
  obtain ⟨-, rfl⟩ := h
  exact isSome_findFrom_iff_takes rfl (Nat.succ_pos _) hn (by simp [Place.start])

end Program

end ProjectShell.Regex
