import ProjectShell.Command.Builtin

namespace ProjectShell

namespace Text

variable {c : Char} {cs : List Char}

theorem cutAt_of_not_mem (h : c ∉ cs) : cutAt c cs = none := by
  induction cs with
  | nil => rfl
  | cons d cs ih =>
    simp only [List.mem_cons, not_or] at h
    rw [cutAt, if_neg (Ne.symm h.1), ih h.2]
    rfl

theorem cutAt_append (h : c ∉ cs) (rest : List Char) :
    cutAt c (cs ++ c :: rest) = some (cs, rest) := by
  induction cs with
  | nil => rw [List.nil_append, cutAt, if_pos rfl]
  | cons d cs ih =>
    simp only [List.mem_cons, not_or] at h
    rw [List.cons_append, cutAt, if_neg (Ne.symm h.1), ih h.2]
    rfl

end Text

namespace OptionTable

variable {t : OptionTable} {o : Options} {c : Char} {name v : String}

/-- A short and a long name for one value. Where options share a name the first of them counts; a
long name goes as far as the first equals sign, and two dashes without a name are none. -/
structure NamesValue (t : OptionTable) (c : Char) (name : String) : Prop where
  short : ∃ f, t.byShort c = some f ∧ f.takesValue = true ∧ f.name = name
  long : ∃ f, t.byLong name = some f ∧ f.takesValue = true
  ne_empty : name ≠ ""
  no_equals : '=' ∉ name.toList

structure WellNamed (t : OptionTable) : Prop where
  short_inj : ∀ f ∈ t.flags, ∀ g ∈ t.flags, f.short = g.short → f.short ≠ none →
    f.name = g.name ∧ f.takesValue = g.takesValue
  name_inj : ∀ f ∈ t.flags, ∀ g ∈ t.flags, f.name = g.name → f.takesValue = g.takesValue
  no_dash : ∀ f ∈ t.flags, f.short ≠ some '-'
  no_digit : t.numeric.isSome = true → ∀ f ∈ t.flags, f.short.any Char.isDigit = false
  named : ∀ f ∈ t.flags, f.name ≠ "" ∧ '=' ∉ f.name.toList

instance (t : OptionTable) : Decidable t.WellNamed :=
  decidable_of_iff
    ((∀ f ∈ t.flags, ∀ g ∈ t.flags, f.short = g.short → f.short ≠ none →
        f.name = g.name ∧ f.takesValue = g.takesValue) ∧
      (∀ f ∈ t.flags, ∀ g ∈ t.flags, f.name = g.name → f.takesValue = g.takesValue) ∧
      (∀ f ∈ t.flags, f.short ≠ some '-') ∧
      (t.numeric.isSome = true → ∀ f ∈ t.flags, f.short.any Char.isDigit = false) ∧
      ∀ f ∈ t.flags, f.name ≠ "" ∧ '=' ∉ f.name.toList)
    ⟨fun ⟨hshort, hname, hdash, hdigit, hnamed⟩ => ⟨hshort, hname, hdash, hdigit, hnamed⟩,
      fun h => ⟨h.short_inj, h.name_inj, h.no_dash, h.no_digit, h.named⟩⟩

theorem WellNamed.namesValue (h : t.WellNamed) {f : Flag} (hf : f ∈ t.flags)
    (hvalue : f.takesValue = true) (hc : f.short = some c) : t.NamesValue c f.name where
  short := by
    obtain ⟨g, hg⟩ : ∃ g, t.byShort c = some g :=
      Option.isSome_iff_exists.1 (List.find?_isSome.2 ⟨f, hf, by simpa using hc⟩)
    have hshort : g.short = some c := by simpa using List.find?_some hg
    obtain ⟨hname, htakes⟩ := h.short_inj g (List.mem_of_find?_eq_some hg) f hf
      (hshort.trans hc.symm) (by simp [hshort])
    exact ⟨g, hg, htakes.trans hvalue, hname⟩
  long := by
    obtain ⟨g, hg⟩ : ∃ g, t.byLong f.name = some g :=
      Option.isSome_iff_exists.1 (List.find?_isSome.2 ⟨f, hf, by simp⟩)
    have hname : g.name = f.name := by simpa using List.find?_some hg
    exact ⟨g, hg, (h.name_inj g (List.mem_of_find?_eq_some hg) f hf hname).trans hvalue⟩
  ne_empty := (h.named f hf).1
  no_equals := (h.named f hf).2

def dash (cs : List Char) : String := String.ofList ('-' :: cs)

def spellings (c : Char) (name v : String) : List (List String) :=
  [[dash (c :: v.toList)], [dash [c], v], ["--" ++ name ++ "=" ++ v], ["--" ++ name, v]]

theorem dash_ne (hc : c ≠ '-') (cs : List Char) : dash (c :: cs) ≠ "--" := by
  intro h
  have hlists := congrArg String.toList h
  simp [dash, hc] at hlists

theorem argument_dash (hc : c ≠ '-') (hdigit : t.numeric.isSome = true → c.isDigit = false)
    (o : Options) (cs : List Char) : t.argument o (dash (c :: cs)) = t.cluster o (c :: cs) := by
  have hlist : (dash (c :: cs)).toList = '-' :: c :: cs := String.toList_ofList
  unfold argument
  rw [hlist]
  split
  · rename_i heq
    cases heq
    exact absurd rfl hc
  · rename_i heq
    cases heq
    cases hnumeric : t.numeric with
    | none => rfl
    | some numeric => simp [hdigit (by simp [hnumeric])]
  · rename_i hshape
    exact absurd rfl (hshape c cs)

theorem parseFrom_dash (hc : c ≠ '-') (hdigit : t.numeric.isSome = true → c.isDigit = false)
    (o : Options) (cs : List Char) (rest : List String) :
    t.parseFrom o (dash (c :: cs) :: rest) =
      match t.cluster o (c :: cs), rest with
      | (o, none), rest => t.parseFrom o rest
      | (o, some _), [] => o
      | (o, some name), v :: rest => t.parseFrom (o.setValue name v) rest := by
  rw [parseFrom.eq_def]
  simp only [dash_ne hc, if_false, argument_dash hc hdigit]
  cases t.cluster o (c :: cs) with
  | mk o waiting =>
    cases waiting with
    | none => rfl
    | some name => cases rest <;> rfl

theorem name_of_byLong {f : Flag} (h : t.byLong name = some f) : f.name = name := by
  simpa using List.find?_some h

namespace NamesValue

theorem argument_inline (h : t.NamesValue c name) (v : String) (o : Options) :
    t.argument o ("--" ++ name ++ "=" ++ v) = (o.setValue name v, none) := by
  obtain ⟨f, hf, hvalue⟩ := h.long
  have hlist : ("--" ++ name ++ "=" ++ v).toList =
      '-' :: '-' :: (name.toList ++ '=' :: v.toList) := by simp
  have hform : longForm (name.toList ++ '=' :: v.toList) = (name, some v) := by
    simp [longForm, Text.cutAt_append h.no_equals]
  simp only [argument, hlist, hform, hf, hvalue, if_true, name_of_byLong hf]

theorem argument_bare (h : t.NamesValue c name) (o : Options) :
    t.argument o ("--" ++ name) = (o, some name) := by
  obtain ⟨f, hf, hvalue⟩ := h.long
  have hlist : ("--" ++ name).toList = '-' :: '-' :: name.toList := by simp
  have hform : longForm name.toList = (name, none) := by
    simp [longForm, Text.cutAt_of_not_mem h.no_equals]
  simp only [argument, hlist, hform, hf, hvalue, if_true, name_of_byLong hf]

theorem cluster_attached (h : t.NamesValue c name) (hv : v ≠ "") (o : Options) :
    t.cluster o (c :: v.toList) = (o.setValue name v, none) := by
  obtain ⟨f, hf, hvalue, rfl⟩ := h.short
  have hattached : v.toList.isEmpty = false := by simpa using hv
  simp [cluster, hf, hvalue, hattached]

theorem cluster_single (h : t.NamesValue c name) (o : Options) :
    t.cluster o [c] = (o, some name) := by
  obtain ⟨f, hf, hvalue, rfl⟩ := h.short
  simp [cluster, hf, hvalue]

theorem parseFrom_spelling (h : t.NamesValue c name) (hc : c ≠ '-')
    (hdigit : t.numeric.isSome = true → c.isDigit = false) (hv : v ≠ "") {args : List String}
    (hargs : args ∈ spellings c name v) (o : Options) (rest : List String) :
    t.parseFrom o (args ++ rest) = t.parseFrom (o.setValue name v) rest := by
  have hlong (s : String) : "--" ++ name ++ s ≠ "--" := by
    intro heq
    have hname : name ++ s = "" := by simpa [String.append_assoc] using heq
    exact h.ne_empty (String.append_eq_empty_iff.1 hname).1
  simp only [spellings, List.mem_cons, List.not_mem_nil, or_false] at hargs
  rcases hargs with rfl | rfl | rfl | rfl
  · rw [List.singleton_append, parseFrom_dash hc hdigit, h.cluster_attached hv]
  · rw [List.cons_append, List.singleton_append, parseFrom_dash hc hdigit, h.cluster_single]
  · have hne : "--" ++ name ++ "=" ++ v ≠ "--" := by
      rw [String.append_assoc]
      exact hlong ("=" ++ v)
    rw [List.singleton_append, parseFrom, if_neg hne, h.argument_inline]
  · have hne : "--" ++ name ≠ "--" := by simpa using hlong ""
    rw [List.cons_append, List.singleton_append, parseFrom, if_neg hne, h.argument_bare]

theorem parse_eq (h : t.NamesValue c name) (hdash : ∀ f ∈ t.flags, f.short ≠ some '-')
    (hdigit : t.numeric.isSome = true → ∀ f ∈ t.flags, f.short.any Char.isDigit = false)
    (hv : v ≠ "") {a b : List String} (ha : a ∈ spellings c name v) (hb : b ∈ spellings c name v)
    (rest : List String) : t.parse (a ++ rest) = t.parse (b ++ rest) := by
  obtain ⟨f, hf, -, -⟩ := h.short
  have hmem : f ∈ t.flags := List.mem_of_find?_eq_some hf
  have hshort : f.short = some c := by simpa using List.find?_some hf
  have hc : c ≠ '-' := by
    rintro rfl
    exact hdash f hmem hshort
  have hplain (hnumeric : t.numeric.isSome = true) : c.isDigit = false := by
    simpa [hshort] using hdigit hnumeric f hmem
  exact (h.parseFrom_spelling hc hplain hv ha {} rest).trans
    (h.parseFrom_spelling hc hplain hv hb {} rest).symm

end NamesValue

theorem WellNamed.parse_eq (h : t.WellNamed) {f : Flag} (hf : f ∈ t.flags)
    (hvalue : f.takesValue = true) (hc : f.short = some c) (hv : v ≠ "") {a b : List String}
    (ha : a ∈ spellings c f.name v) (hb : b ∈ spellings c f.name v) (rest : List String) :
    t.parse (a ++ rest) = t.parse (b ++ rest) :=
  (h.namesValue hf hvalue hc).parse_eq h.no_dash h.no_digit hv ha hb rest

section Cluster

variable {cs : List Char}

def Shares (t : OptionTable) (c : Char) : Prop :=
  c ≠ '-' ∧ ∀ f ∈ t.byShort c, f.takesValue = false

instance (t : OptionTable) (c : Char) : Decidable (t.Shares c) :=
  inferInstanceAs (Decidable (_ ∧ _))

theorem exists_cluster_cons (h : t.Shares c) (o : Options) (cs : List Char) :
    ∃ o', t.cluster o [c] = (o', none) ∧ t.cluster o (c :: cs) = t.cluster o' cs := by
  cases hf : t.byShort c with
  | none => simp [cluster, hf]
  | some f => simp [cluster, hf, h.2 f hf]

theorem exists_cluster_eq (hnumeric : t.numeric = none) (h : ∀ c ∈ cs, t.Shares c) (o : Options)
    (rest : List String) :
    ∃ o', t.cluster o cs = (o', none) ∧
      t.parseFrom o (cs.map (fun c => dash [c]) ++ rest) = t.parseFrom o' rest := by
  induction cs generalizing o with
  | nil => exact ⟨o, rfl, rfl⟩
  | cons c cs ih =>
    have hc := h c List.mem_cons_self
    have hdigit : t.numeric.isSome = true → c.isDigit = false := by simp [hnumeric]
    obtain ⟨first, hfirst, hcons⟩ := exists_cluster_cons hc o cs
    obtain ⟨o', ho', hparse⟩ := ih (fun d hd => h d (List.mem_cons_of_mem c hd)) first
    refine ⟨o', hcons.trans ho', ?_⟩
    rw [List.map_cons, List.cons_append, parseFrom_dash hc.1 hdigit, hfirst]
    exact hparse

theorem parseFrom_cluster (hnumeric : t.numeric = none) (hne : cs ≠ [])
    (h : ∀ c ∈ cs, t.Shares c) (o : Options) (rest : List String) :
    t.parseFrom o (dash cs :: rest) =
      t.parseFrom o (cs.map (fun c => dash [c]) ++ rest) := by
  obtain ⟨o', ho', hparse⟩ := exists_cluster_eq hnumeric h o rest
  obtain ⟨c, cs, rfl⟩ := List.exists_cons_of_ne_nil hne
  have hdigit : t.numeric.isSome = true → c.isDigit = false := by simp [hnumeric]
  rw [hparse, parseFrom_dash (h c List.mem_cons_self).1 hdigit, ho']

end Cluster

theorem parse_spellings (t : OptionTable) (hdash : ∀ f ∈ t.flags, f.short ≠ some '-')
    (hdigit : t.numeric.isSome = true → ∀ f ∈ t.flags, f.short.any Char.isDigit = false)
    (rest : List String) :
    (∀ c name, t.NamesValue c name → ∀ v, v ≠ "" →
      ∀ a ∈ spellings c name v, ∀ b ∈ spellings c name v,
        t.parse (a ++ rest) = t.parse (b ++ rest)) ∧
    (t.numeric = none → ∀ cs, cs ≠ [] → (∀ c ∈ cs, t.Shares c) →
      t.parse (dash cs :: rest) = t.parse (cs.map (fun c => dash [c]) ++ rest)) := by
  refine ⟨fun c name h v hv a ha b hb => ?_, fun hnumeric cs hne h => ?_⟩
  · exact h.parse_eq hdash hdigit hv ha hb rest
  · exact parseFrom_cluster hnumeric hne h {} rest

end OptionTable

def Command.tables : List OptionTable :=
  [lsTable, catTable, rmTable, Transfer.move.table, Transfer.copy.table, headTable, wcTable,
    sortTable, uniqTable, teeTable, Grep.table, Sed.table]

theorem Command.wellNamed_of_mem_tables : ∀ t ∈ tables, t.WellNamed := by decide +kernel

theorem Command.namesValue_of_mem_tables {t : OptionTable} (ht : t ∈ tables) {f : Flag}
    (hf : f ∈ t.flags) (hvalue : f.takesValue = true) {c : Char} (hc : f.short = some c) :
    t.NamesValue c f.name := (wellNamed_of_mem_tables t ht).namesValue hf hvalue hc

namespace OptionTable

theorem parse_spellings_grep :
    let t := Command.Grep.table
    ((∀ f ∈ t.flags, f.short ≠ some '-') ∧
        (t.numeric.isSome = true → ∀ f ∈ t.flags, f.short.any Char.isDigit = false)) ∧
      (t.NamesValue 'm' "max-count" ∧ "-3" ≠ "" ∧
        t.parse ["-m-3", "-v", "x"] = t.parse ["--max-count", "-3", "-v", "x"]) ∧
      (t.numeric = none ∧ ['i', 'z', 'n'] ≠ [] ∧ ∀ c ∈ ['i', 'z', 'n'], t.Shares c) ∧
      t.parse ["-izn", "-v", "x"] = t.parse ["-i", "-z", "-n", "-v", "x"] := by
  intro t
  have hmem : t ∈ Command.tables := by simp [Command.tables, t]
  have ht : t.WellNamed := Command.wellNamed_of_mem_tables t hmem
  have hnames : t.NamesValue 'm' "max-count" :=
    Command.namesValue_of_mem_tables hmem (f := .value 'm' "max-count") (by decide) rfl rfl
  have hshares : ∀ c ∈ ['i', 'z', 'n'], t.Shares c := by
    rw [List.forall_mem_cons, List.forall_mem_cons, List.forall_mem_singleton]
    decide
  obtain ⟨hspellings, hcluster⟩ := parse_spellings t ht.no_dash ht.no_digit ["-v", "x"]
  refine ⟨⟨ht.no_dash, ht.no_digit⟩, ⟨hnames, by decide, ?_⟩, ⟨rfl, by decide, hshares⟩, ?_⟩
  · exact hspellings 'm' "max-count" hnames "-3" (by decide) ["-m-3"] (by decide +kernel)
      ["--max-count", "-3"] (by decide +kernel)
  · exact hcluster rfl ['i', 'z', 'n'] (by decide) hshares

end OptionTable

end ProjectShell
