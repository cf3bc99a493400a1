import Mathlib.Data.List.Nodup
import ProjectShell.Proofs.ByteOrder
import ProjectShell.Proofs.CommandRequests

namespace ProjectShell

theorem View.out_sources (v : View) (cmd : String) (operands : List String)
    (stdin : Option String) : (v.sources cmd operands stdin).2.out = [] := by
  have hoperands : (v.operandSources cmd stdin operands).2.out = [] := by
    induction operands with
    | nil => rfl
    | cons operand rest ih =>
      rw [operandSources]
      dsimp only
      split
      · exact ih
      · split
        · exact ih
        · exact ih
  unfold sources
  split
  · cases stdin <;> rfl
  · exact hoperands

namespace Command

open Text

structure Orders (r : String → String → Prop) : Prop where
  trans {a b c : String} (hab : r a b) (hbc : r b c) : r a c
  total (a b : String) : r a b ∨ r b a
  antisymm {a b : String} (hab : r a b) (hba : r b a) : a = b

section Keys

variable {α : Type} [LE α] [LT α]

def ByKey (key : String → α) (a b : String) : Prop :=
  key a < key b ∨ key a = key b ∧ bytes a ≤ bytes b

instance (key : String → α) [DecidableEq α] [DecidableLT α] : DecidableRel (ByKey key) :=
  fun _ _ => inferInstanceAs (Decidable (_ ∨ _))

variable [Std.LawfulOrderLT α] [Std.IsLinearOrder α]

theorem orders_byKey (key : String → α) : Orders (ByKey key) where
  trans hab hbc := by grind [ByKey]
  total a b := by grind [ByKey]
  antisymm hab hba := by grind [ByKey, bytes_inj]

theorem ByKey.between {key : String → α} {a b c : String} (hab : ByKey key a b)
    (hbc : ByKey key b c) (h : key a = key c) : key b = key a := by
  grind [ByKey]

end Keys

def Precedes (o : Options) (a b : String) : Prop :=
  if o.has "numeric-sort" then ByKey numericKey a b
  else if o.has "ignore-case" then ByKey (fun l => bytes (lowercase l)) a b
  else bytes a ≤ bytes b

instance (o : Options) : DecidableRel (Precedes o) := fun a b =>
  inferInstanceAs (Decidable (if o.has "numeric-sort" then ByKey numericKey a b
    else if o.has "ignore-case" then ByKey (fun l => bytes (lowercase l)) a b
    else bytes a ≤ bytes b))

theorem precedes_numeric {o : Options} (h : o.has "numeric-sort" = true) :
    Precedes o = ByKey numericKey := by
  funext a b
  simp [Precedes, h]

theorem precedes_folded {o : Options} (h : o.has "numeric-sort" = false)
    (hcase : o.has "ignore-case" = true) : Precedes o = ByKey (fun l => bytes (lowercase l)) := by
  funext a b
  simp [Precedes, h, hcase]

theorem precedes_plain {o : Options} (h : o.has "numeric-sort" = false)
    (hcase : o.has "ignore-case" = false) : Precedes o = fun a b => bytes a ≤ bytes b := by
  funext a b
  simp [Precedes, h, hcase]

theorem orders_bytes : Orders (fun a b => bytes a ≤ bytes b) where
  trans hab hbc := List.le_trans hab hbc
  total a b := List.le_total (bytes a) (bytes b)
  antisymm hab hba := bytes_inj.1 (List.le_antisymm hab hba)

theorem orders_precedes (o : Options) : Orders (Precedes o) := by
  cases h : o.has "numeric-sort" with
  | true => exact precedes_numeric h ▸ orders_byKey numericKey
  | false =>
    cases hcase : o.has "ignore-case" with
    | true => exact precedes_folded h hcase ▸ orders_byKey _
    | false => exact precedes_plain h hcase ▸ orders_bytes

theorem byNumber_eq (a b : String) :
    byNumber (numericKey a, a) (numericKey b, b) = decide (ByKey numericKey a b) := by
  simp [byNumber, ByKey, bytes_le_iff]

theorem byText_eq (a b : String) : byText (lowercase a, a) (lowercase b, b) =
    decide (ByKey (fun l => bytes (lowercase l)) a b) := by
  simp [byText, ByKey, bytes_le_iff, bytes_lt_iff, bytes_inj]

theorem map_snd_mergeSort {κ : Type} (key : String → κ) (le : κ × String → κ × String → Bool)
    (ls : List String) : ((ls.map (fun l => (key l, l))).mergeSort le).map Prod.snd =
      ls.mergeSort (fun a b => le (key a, a) (key b, b)) := by
  rw [← List.map_mergeSort (f := fun l => (key l, l)) (r := fun a b => le (key a, a) (key b, b))]
  · simp [Function.comp_def]
  · exact fun _ _ _ _ => rfl

def ordered (o : Options) (ls : List String) : List String :=
  ls.mergeSort (fun a b => decide (Precedes o a b))

theorem perm_ordered (o : Options) (ls : List String) : (ordered o ls).Perm ls :=
  List.mergeSort_perm ls _

theorem pairwise_ordered (o : Options) (ls : List String) :
    (ordered o ls).Pairwise (Precedes o) := by
  have horders := orders_precedes o
  have hsorted : (ordered o ls).Pairwise (fun a b => decide (Precedes o a b) = true) := by
    refine List.pairwise_mergeSort (fun a b c hab hbc => ?_) (fun a b => ?_) ls
    · exact decide_eq_true (horders.trans (of_decide_eq_true hab) (of_decide_eq_true hbc))
    · simpa using horders.total a b
  exact hsorted.imp of_decide_eq_true

theorem ordered_eq {o : Options} {ls sorted : List String} (hperm : sorted.Perm ls)
    (hsorted : sorted.Pairwise (Precedes o)) : ordered o ls = sorted :=
  List.Perm.eq_of_pairwise (fun _ _ _ _ => (orders_precedes o).antisymm) (pairwise_ordered o ls)
    hsorted ((perm_ordered o ls).trans hperm.symm)

section Repeats

variable {κ : Type} {key : String → κ} {r : String → String → Prop} {ls : List String}

def Grouped (r : String → String → Prop) (key : String → κ) (ls : List String) : Prop :=
  ∀ a ∈ ls, ∀ b ∈ ls, ∀ c ∈ ls, r a b → r b c → key a = key c → key b = key a

instance [DecidableRel r] [DecidableEq κ] : Decidable (Grouped r key ls) :=
  inferInstanceAs (Decidable (∀ a ∈ ls, ∀ b ∈ ls, ∀ c ∈ ls, _))

theorem grouped_cons_iff (hr : Orders r) {a : String} {rest : List String}
    (hs : (a :: rest).Pairwise r) :
    Grouped r key (a :: rest) ↔
      (∀ b ∈ rest, ∀ c ∈ rest, r b c → key a = key c → key b = key a) ∧ Grouped r key rest := by
  have ha := (List.pairwise_cons.1 hs).1
  constructor
  · intro hg
    refine ⟨fun b hb c hc => ?_, fun b hb c hc d hd => ?_⟩
    · exact hg a List.mem_cons_self b (List.mem_cons_of_mem _ hb) c (List.mem_cons_of_mem _ hc)
        (ha b hb)
    · exact hg b (List.mem_cons_of_mem _ hb) c (List.mem_cons_of_mem _ hc) d
        (List.mem_cons_of_mem _ hd)
  · rintro ⟨hfirst, hg⟩ b hb c hc d hd hbc hcd hkey
    rcases List.mem_cons.1 hc with rfl | hcrest
    · rcases List.mem_cons.1 hb with rfl | hbrest
      · rfl
      · rw [hr.antisymm hbc (ha b hbrest)]
    · rcases List.mem_cons.1 hd with rfl | hdrest
      · rw [hr.antisymm hcd (ha c hcrest), hkey]
      · rcases List.mem_cons.1 hb with rfl | hbrest
        · exact hfirst c hcrest d hdrest hcd hkey
        · exact hg b hbrest c hcrest d hdrest hbc hcd hkey

variable [DecidableEq κ]

theorem exists_dropRepeats (key : String → κ) (a : String) (rest : List String) :
    ∃ kept, dropRepeats key (a :: rest) = a :: kept := by
  rw [dropRepeats]
  split
  · exact ⟨_, rfl⟩
  · split <;> exact ⟨_, rfl⟩

theorem dropRepeats_cons_cons (key : String → κ) (a b : String) (rest : List String) :
    dropRepeats key (a :: b :: rest) =
      if key a = key b then a :: (dropRepeats key (b :: rest)).tail
      else a :: dropRepeats key (b :: rest) := by
  obtain ⟨kept, hkept⟩ := exists_dropRepeats key b rest
  rw [dropRepeats, hkept, List.tail_cons]

theorem dropRepeats_sublist (key : String → κ) (ls : List String) :
    (dropRepeats key ls).Sublist ls := by
  induction ls with
  | nil => exact .refl _
  | cons a rest ih =>
    cases rest with
    | nil => exact .refl _
    | cons b rest =>
      rw [dropRepeats_cons_cons]
      split
      · exact ((List.tail_sublist _).trans ih).cons_cons a
      · exact ih.cons_cons a

theorem exists_mem_dropRepeats (key : String → κ) (hr : Orders r) (hs : ls.Pairwise r)
    {l : String} (hl : l ∈ ls) :
    ∃ m ∈ dropRepeats key ls, key m = key l ∧ r m l := by
  have hrefl (l : String) : r l l := (hr.total l l).elim id id
  induction ls with
  | nil => exact absurd hl List.not_mem_nil
  | cons a rest ih =>
    obtain ⟨ha, hrest⟩ := List.pairwise_cons.1 hs
    cases rest with
    | nil =>
      rw [List.mem_singleton.1 hl]
      exact ⟨a, List.mem_cons_self, rfl, hrefl a⟩
    | cons b rest =>
      obtain ⟨kept, hkept⟩ := exists_dropRepeats key b rest
      rw [dropRepeats_cons_cons, hkept, List.tail_cons]
      rcases List.mem_cons.1 hl with rfl | hl
      · refine ⟨l, ?_, rfl, hrefl l⟩
        split <;> exact List.mem_cons_self
      · obtain ⟨m, hm, hkey, hle⟩ := ih hrest hl
        rw [hkept] at hm
        split
        · rename_i hab
          rcases List.mem_cons.1 hm with rfl | hm
          · exact ⟨a, List.mem_cons_self, hab.trans hkey, ha l hl⟩
          · exact ⟨m, List.mem_cons_of_mem _ hm, hkey, hle⟩
        · exact ⟨m, List.mem_cons_of_mem _ hm, hkey, hle⟩

theorem mem_map_dropRepeats (key : String → κ) (hr : Orders r) (hs : ls.Pairwise r) {k : κ} :
    k ∈ (dropRepeats key ls).map key ↔ k ∈ ls.map key := by
  constructor
  · exact fun h => ((dropRepeats_sublist key ls).map key).subset h
  · intro h
    obtain ⟨l, hl, rfl⟩ := List.mem_map.1 h
    obtain ⟨m, hm, hkey, -⟩ := exists_mem_dropRepeats key hr hs hl
    exact hkey ▸ List.mem_map_of_mem hm

theorem nodup_map_dropRepeats_iff (hr : Orders r) (hs : ls.Pairwise r) :
    ((dropRepeats key ls).map key).Nodup ↔ Grouped r key ls := by
  induction ls with
  | nil => simp [dropRepeats, Grouped]
  | cons a rest ih =>
    have hrest := (List.pairwise_cons.1 hs).2
    cases rest with
    | nil => simp [dropRepeats, Grouped]
    | cons b rest =>
      obtain ⟨kept, hkept⟩ := exists_dropRepeats key b rest
      have hkeys := mem_map_dropRepeats key hr hrest (k := key a)
      have hnodup := ih hrest
      rw [dropRepeats_cons_cons, hkept, List.tail_cons]
      rw [hkept] at hkeys hnodup
      have hb : ∀ c ∈ b :: rest, r b c := by
        intro c hc
        rcases List.mem_cons.1 hc with rfl | hc
        · exact (hr.total c c).elim id id
        · exact (List.pairwise_cons.1 hrest).1 c hc
      rw [grouped_cons_iff hr hs, ← hnodup]
      split
      · rename_i hab
        rw [List.map_cons, hab, ← List.map_cons]
        refine (and_iff_right_of_imp (fun hkept => ?_)).symm
        exact fun c hc d hd => hnodup.1 hkept b List.mem_cons_self c hc d hd (hb c hc)
      · rename_i hab
        rw [List.map_cons, List.nodup_cons, hkeys]
        refine and_congr_left' ⟨fun hnot c hc d hd hcd hkey => ?_, fun hfirst hmem => ?_⟩
        · exact absurd (hkey ▸ List.mem_map_of_mem hd) hnot
        · obtain ⟨d, hd, hkey⟩ := List.mem_map.1 hmem
          exact hab (hfirst b List.mem_cons_self d hd (hb d hd) hkey.symm).symm

theorem mem_dropRepeats_iff (hr : Orders r) (hs : ls.Pairwise r) (hg : Grouped r key ls)
    {l : String} :
    l ∈ dropRepeats key ls ↔ l ∈ ls ∧ ∀ m ∈ ls, key m = key l → r l m := by
  have hnodup := (nodup_map_dropRepeats_iff hr hs).2 hg
  constructor
  · intro hl
    refine ⟨(dropRepeats_sublist key ls).subset hl, fun m hm hkey => ?_⟩
    obtain ⟨first, hfirst, hfirstKey, hle⟩ := exists_mem_dropRepeats key hr hs hm
    rwa [List.inj_on_of_nodup_map hnodup hfirst hl (hfirstKey.trans hkey)] at hle
  · rintro ⟨hl, hleast⟩
    obtain ⟨first, hfirst, hkey, hle⟩ := exists_mem_dropRepeats key hr hs hl
    have hsub := (dropRepeats_sublist key ls).subset hfirst
    rwa [hr.antisymm (hleast first hsub hkey) hle]

end Repeats

def kept (o : Options) (ls : List String) : List String :=
  if !o.has "unique" then ordered o ls
  else if o.has "ignore-case" then dropRepeats lowercase (ordered o ls)
  else dropRepeats id (ordered o ls)

theorem sortLines_eq (o : Options) (ls : List String) :
    sortLines o ls = if o.has "reverse" then (kept o ls).reverse else kept o ls := by
  have hordered : (if o.has "numeric-sort" then
        ((ls.map (fun l => (numericKey l, l))).mergeSort byNumber).map Prod.snd
      else if o.has "ignore-case" then
        ((ls.map (fun l => (lowercase l, l))).mergeSort byText).map Prod.snd
      else ls.mergeSort (fun a b => decide (a ≤ b))) = ordered o ls := by
    simp only [map_snd_mergeSort, byNumber_eq, byText_eq, ← bytes_le_iff, ordered]
    cases h : o.has "numeric-sort" with
    | true => simp [precedes_numeric h]
    | false =>
      cases hcase : o.has "ignore-case" with
      | true => simp [precedes_folded h hcase]
      | false => simp [precedes_plain h hcase]
  rw [sortLines, hordered]
  rfl

theorem perm_sortLines (o : Options) (ls : List String) : (sortLines o ls).Perm (kept o ls) := by
  rw [sortLines_eq]
  split
  · exact List.reverse_perm _
  · exact .refl _

theorem kept_sublist (o : Options) (ls : List String) : (kept o ls).Sublist (ordered o ls) := by
  unfold kept
  split
  · exact .refl _
  · split <;> exact dropRepeats_sublist _ _

theorem pairwise_sortLines (o : Options) (ls : List String) :
    (sortLines o ls).Pairwise
      (fun a b => if o.has "reverse" then Precedes o b a else Precedes o a b) := by
  have hkept := (pairwise_ordered o ls).sublist (kept_sublist o ls)
  rw [sortLines_eq]
  split
  · exact List.pairwise_reverse.2 hkept
  · exact hkept

theorem stdout_sort (args : List String) (stdin : Option String) (v : View) :
    (sort args stdin v).stdout = "\n".intercalate (sortLines (sortTable.parse args)
      ((v.sources "sort" (sortTable.parse args).operands stdin).1.flatMap Source.lines)) := by
  have hout := v.out_sources "sort" (sortTable.parse args).operands stdin
  have hstdout (r : Report) (ls : List String) :
      (r ++ .lines ls).outcome.stdout = "\n".intercalate (r.out ++ ls) := rfl
  simp only [sort, hstdout, hout]
  split
  · rename_i hempty
    rw [List.isEmpty_iff.1 hempty]
    rfl
  · simp

theorem grouped_folded (ls : List String) :
    Grouped (ByKey (fun l => bytes (lowercase l))) lowercase ls := by
  intro a _ b _ c _ hab hbc hkey
  exact bytes_inj.1 (hab.between hbc (congrArg bytes hkey))

theorem grouped_id {r : String → String → Prop} (hr : Orders r) (ls : List String) :
    Grouped r id ls := by
  rintro a - b - c - hab hbc rfl
  exact hr.antisymm hbc hab

theorem sortLines_sorts (o : Options) (ls : List String) :
    (sortLines o ls).Pairwise
        (fun a b => if o.has "reverse" then Precedes o b a else Precedes o a b) ∧
      (o.has "unique" = false → (sortLines o ls).Perm ls) ∧
      (o.has "unique" = true → o.has "ignore-case" = false →
        (sortLines o ls).Nodup ∧ ∀ l, l ∈ sortLines o ls ↔ l ∈ ls) ∧
      (o.has "unique" = true → o.has "ignore-case" = true → o.has "numeric-sort" = false →
        ((sortLines o ls).map lowercase).Nodup ∧
          ∀ l, l ∈ sortLines o ls ↔
            l ∈ ls ∧ ∀ m ∈ ls, lowercase m = lowercase l → bytes l ≤ bytes m) := by
  have hperm := perm_sortLines o ls
  have hsorted := pairwise_ordered o ls
  have hmem (l : String) : l ∈ ordered o ls ↔ l ∈ ls := (perm_ordered o ls).mem_iff
  refine ⟨pairwise_sortLines o ls, fun hunique => ?_, fun hunique hcase => ?_,
    fun hunique hcase hnumeric => ?_⟩
  · rw [kept, hunique] at hperm
    exact hperm.trans (perm_ordered o ls)
  · rw [kept, hunique, hcase] at hperm
    have hgrouped := grouped_id (orders_precedes o) (ordered o ls)
    have hnodup := (nodup_map_dropRepeats_iff (orders_precedes o) hsorted).2 hgrouped
    rw [List.map_id] at hnodup
    refine ⟨hperm.nodup_iff.2 hnodup, fun l => hperm.mem_iff.trans ?_⟩
    have hkeys := mem_map_dropRepeats id (orders_precedes o) hsorted (k := l)
    rw [List.map_id, List.map_id] at hkeys
    exact hkeys.trans (hmem l)
  · rw [kept, hunique, hcase] at hperm
    rw [precedes_folded hnumeric hcase] at hsorted
    have horders := orders_byKey (fun l => bytes (lowercase l))
    have hgrouped := grouped_folded (ordered o ls)
    have hnodup := (nodup_map_dropRepeats_iff horders hsorted).2 hgrouped
    refine ⟨(hperm.map lowercase).nodup_iff.2 hnodup, fun l => hperm.mem_iff.trans ?_⟩
    rw [← hmem l]
    refine (mem_dropRepeats_iff horders hsorted hgrouped).trans (and_congr_right' ?_)
    simp only [hmem]
    refine forall₂_congr (fun m hm => imp_congr_right (fun hkey => ?_))
    simp [ByKey, hkey, List.lt_irrefl]

theorem sortLines_sorts_folded :
    let o := sortTable.parse ["-r", "-uf"]
    let ls := ["b", "a", "A", "B", "a"]
    (o.has "unique" = true ∧ o.has "ignore-case" = true ∧ o.has "numeric-sort" = false) ∧
      ((sortLines o ls).map lowercase).Nodup ∧ "A" ∈ sortLines o ls ∧ "a" ∉ sortLines o ls := by
  intro o ls
  have hflags : o.has "unique" = true ∧ o.has "ignore-case" = true ∧
      o.has "numeric-sort" = false := by decide
  have hleast : "A" ∈ ls ∧ ∀ m ∈ ls, lowercase m = lowercase "A" → bytes "A" ≤ bytes m := by
    decide +kernel
  have hother : ¬ ("a" ∈ ls ∧ ∀ m ∈ ls, lowercase m = lowercase "a" → bytes "a" ≤ bytes m) := by
    decide +kernel
  obtain ⟨hnodup, hmem⟩ := (sortLines_sorts o ls).2.2.2 hflags.1 hflags.2.1 hflags.2.2
  exact ⟨hflags, hnodup, (hmem "A").2 hleast, fun h => hother ((hmem "a").1 h)⟩

theorem nodup_lowercase_sortLines_iff {o : Options} (hunique : o.has "unique" = true)
    (hcase : o.has "ignore-case" = true) (ls : List String) :
    ((sortLines o ls).map lowercase).Nodup ↔
      (o.has "numeric-sort" = true → Grouped (ByKey numericKey) lowercase ls) := by
  have hperm := perm_sortLines o ls
  rw [kept, hunique, hcase] at hperm
  have hgrouped : Grouped (Precedes o) lowercase (ordered o ls) ↔
      Grouped (Precedes o) lowercase ls := by
    simp only [Grouped, (perm_ordered o ls).mem_iff]
  calc ((sortLines o ls).map lowercase).Nodup
      ↔ ((dropRepeats lowercase (ordered o ls)).map lowercase).Nodup :=
        (hperm.map lowercase).nodup_iff
    _ ↔ Grouped (Precedes o) lowercase (ordered o ls) :=
        nodup_map_dropRepeats_iff (orders_precedes o) (pairwise_ordered o ls)
    _ ↔ Grouped (Precedes o) lowercase ls := hgrouped
    _ ↔ (o.has "numeric-sort" = true → Grouped (ByKey numericKey) lowercase ls) := by
        cases h : o.has "numeric-sort" with
        | true => simp [precedes_numeric h]
        | false => simp [precedes_folded h hcase, grouped_folded]

theorem nodup_lowercase_sortLines_numbered :
    let o := sortTable.parse ["-n", "-fu"]
    let ls := ["10 b", "9 b", "10 B", "9 b", "x", "9 B"]
    (o.has "unique" = true ∧ o.has "ignore-case" = true) ∧
      ((sortLines o ls).map lowercase).Nodup := by
  intro o ls
  have hunique : o.has "unique" = true := by decide
  have hcase : o.has "ignore-case" = true := by decide
  have hgrouped : Grouped (ByKey numericKey) lowercase ls := by decide +kernel
  exact ⟨⟨hunique, hcase⟩, (nodup_lowercase_sortLines_iff hunique hcase ls).2 (fun _ => hgrouped)⟩

theorem sort_keeps_repeats :
    let s := ((FileStore.new ⟨0⟩).seed [("f", "a\nB\nA")]).2
    ((dispatch "sort" ["-n", "-f", "-u", "f"] none).run s).1.stdout = "A\nB\na" ∧
      lowercase "A" = lowercase "a" := by
  intro s
  obtain ⟨o, ho⟩ : ∃ o, o = sortTable.parse ["-n", "-f", "-u", "f"] := ⟨_, rfl⟩
  have hread : (s.view.sources "sort" o.operands none).1.flatMap Source.lines = ["a", "B", "A"] := by
    rw [ho]
    decide +kernel
  have hordered : ordered o ["a", "B", "A"] = ["A", "B", "a"] := by
    rw [ho]
    exact ordered_eq (by decide) (by decide +kernel)
  have hsorted : sortLines o ["a", "B", "A"] = ["A", "B", "a"] := by
    rw [sortLines_eq, kept, hordered, ho]
    decide +kernel
  have hrun : (dispatch "sort" ["-n", "-f", "-u", "f"] none).run s =
      (sort ["-n", "-f", "-u", "f"] none s.view, s) := run_dispatch_read (b := .sort) s rfl
  refine ⟨?_, by decide +kernel⟩
  rw [hrun, stdout_sort, ← ho, hread, hsorted]
  rfl

end Command

end ProjectShell
