import ProjectShell.Command.Grep
import ProjectShell.Proofs.CommandRequests

namespace ProjectShell

namespace Command.Grep

def numbered (first : Nat) (ls : List String) : List (Nat × String) :=
  (ls.zipIdx first).map Prod.swap

def capped {α : Type} (max : Option Nat) (xs : List α) : List α :=
  match max with
  | some n => xs.take n
  | none => xs

def selected (r : Regex) (invert : Bool) (max : Option Nat) (text : String) :
    List (Nat × String) :=
  capped max
    ((numbered 1 (Text.linesOf text)).filter (fun l => r.isMatch l.2.toList != invert))

theorem numbered_cons (first : Nat) (l : String) (ls : List String) :
    numbered first (l :: ls) = (first, l) :: numbered (first + 1) ls := rfl

section Scan

variable {α : Type} {max : Option Nat} {count : Nat}

theorem capped_of_full (h : max.any (· ≤ count) = true) (xs : List α) :
    capped (max.map (· - count)) xs = [] := by
  cases max with
  | none => cases h
  | some n =>
    have hle : n ≤ count := by simpa using h
    simp [capped, Nat.sub_eq_zero_of_le hle]

theorem capped_cons_of_room (h : max.any (· ≤ count) = false) (x : α) (xs : List α) :
    capped (max.map (· - count)) (x :: xs) = x :: capped (max.map (· - (count + 1))) xs := by
  cases max with
  | none => rfl
  | some n =>
    have hlt : count < n := by simpa using h
    obtain ⟨room, hroom⟩ : ∃ room, n - count = room + 1 := ⟨n - count - 1, by omega⟩
    have hnext : n - (count + 1) = room := by omega
    simp only [capped, Option.map_some, hroom, hnext, List.take_succ_cons]

variable (r : Regex) (o : Options) (showNames : Bool) (i : Input)

theorem scan_eq (number : Nat) (ls : List String) :
    scan r o max showNames i number count ls =
      let found := capped (max.map (· - count)) ((numbered number ls).filter
        (fun l => r.isMatch l.2.toList != o.has "invert-match"))
      (if o.has "count" || o.has "files-with-matches" then []
        else found.flatMap (lineReport r o showNames i), count + found.length) := by
  induction ls generalizing number count with
  | nil =>
    have hnil : capped (max.map (· - count)) ([] : List (Nat × String)) = [] := by
      cases max <;> simp [capped]
    simp [scan, numbered, hnil]
  | cons l ls ih =>
    rw [scan, numbered_cons, List.filter_cons]
    cases hfull : max.any (· ≤ count) with
    | true => simp [capped_of_full hfull]
    | false =>
      by_cases hmatch : r.isMatch l.toList = o.has "invert-match"
      · simp [hmatch, ih]
      · have hselected : (r.isMatch l.toList != o.has "invert-match") = true := by simpa using hmatch
        have htotal (n : Nat) : count + 1 + n = count + (n + 1) := by omega
        simp only [hmatch, hselected, Bool.false_eq_true, if_false, if_true, ih,
          capped_cons_of_room hfull, List.flatMap_cons, List.length_cons, htotal]
        split <;> rfl

theorem inputReport_eq (max : Option Nat) :
    inputReport r o max showNames i =
      let found := selected r (o.has "invert-match") max i.text
      if o.has "files-with-matches" then (if found.isEmpty then [] else [shownName i])
      else if o.has "count" then
        [(if showNames then shownName i ++ ":" else "") ++ toString found.length]
      else found.flatMap (lineReport r o showNames i) := by
  obtain ⟨found, hfound⟩ : ∃ found, selected r (o.has "invert-match") max i.text = found :=
    ⟨_, rfl⟩
  have hscan : scan r o max showNames i 1 0 (Text.linesOf i.text) =
      (if o.has "count" || o.has "files-with-matches" then []
        else found.flatMap (lineReport r o showNames i), found.length) := by
    rw [scan_eq, ← hfound]
    simp [selected]
  rw [inputReport, hscan, hfound]
  cases hfiles : o.has "files-with-matches" with
  | true => cases found <;> simp
  | false => cases hcount : o.has "count" <;> simp

end Scan

def lead (o : Options) (showNames : Bool) (i : Input) (number : Nat) : String :=
  (if showNames then shownName i ++ ":" else "") ++
    if o.has "line-number" then toString number ++ ":" else ""

section LineReport

variable (r : Regex) {o : Options} (showNames : Bool) (i : Input)

theorem lineReport_whole (h : o.has "only-matching" = false ∨ o.has "invert-match" = true) :
    lineReport r o showNames i = fun l => [lead o showNames i l.1 ++ l.2] := by
  have honly : (o.has "only-matching" && !o.has "invert-match") = false := by
    rcases h with h | h <;> simp [h]
  funext l
  simp [lineReport, honly, lead]

theorem lineReport_matches (honly : o.has "only-matching" = true)
    (hinvert : o.has "invert-match" = false) :
    lineReport r o showNames i = fun l =>
      (r.matchTexts l.2.toList).map (fun m => lead o showNames i l.1 ++ String.ofList m) := by
  funext l
  simp [lineReport, honly, hinvert, lead]

end LineReport

theorem mem_selected_iff (r : Regex) (text : String) {l : Nat × String}
    (hl : l ∈ numbered 1 (Text.linesOf text)) :
    l ∈ selected r true none text ↔ l ∉ selected r false none text := by
  simp [selected, capped, hl]

def sought (o : Options) : Option (String × List String) :=
  match o.value? "regexp", o.operands with
  | some pattern, targets => some (pattern, targets)
  | none, pattern :: targets => some (pattern, targets)
  | none, [] => none

theorem run_of_sought {args : List String} {pattern : String} {targets : List String}
    (h : sought (table.parse args) = some (pattern, targets)) (stdin : Option String) (v : View) :
    run args stdin v = search (table.parse args) pattern targets stdin v := by
  unfold sought at h
  unfold run
  dsimp only
  split at h <;> simp_all

def namesShown (o : Options) (i : Inputs) : Bool :=
  (i.showNames || o.has "with-filename") && !o.has "no-filename"

theorem out_missing_inputs (v : View) (keep : String → Bool) (targets : List String)
    (stdin : Option String) : (inputs v keep targets stdin).missing.out = [] := by
  have htarget (target : String) : (targetInputs v keep target).missing.out = [] := by
    unfold targetInputs
    split
    · rfl
    · split <;> rfl
  have hjoined (show? : Bool) : (targets.foldr (fun t rest => (targetInputs v keep t).join rest)
      { showNames := show? }).missing.out = [] := by
    induction targets with
    | nil => rfl
    | cons target targets ih => exact List.append_eq_nil_iff.2 ⟨htarget target, ih⟩
  unfold inputs
  split
  · rfl
  · rfl
  · exact hjoined _

theorem stdout_search {o : Options} {pattern : String} {r : Regex} {max : Option Nat}
    (hregex : regex? o pattern = some r)
    (hmax : (o.value? "max-count").map Text.parseSize? = max.map some)
    (targets : List String) (stdin : Option String) (v : View) :
    let found := inputs v (wanted o) targets stdin
    (search o pattern targets stdin v).stdout =
      "\n".intercalate (found.inputs.flatMap (inputReport r o max (namesShown o found))) := by
  intro found
  have hvalid : max.map some ≠ some none := by cases max <;> simp
  have hjoin : (max.map some).join = max := by cases max <;> rfl
  have hsearch : (search o pattern targets stdin v).stdout =
      "\n".intercalate (found.missing.out ++
        found.inputs.flatMap (inputReport r o max (namesShown o found))) := by
    simp only [search, hregex, hmax, if_neg hvalid, hjoin]
    rfl
  rw [hsearch, out_missing_inputs, List.nil_append]

end Command.Grep

open Command.Grep

theorem grep_shows_selected (s : FileStore) (stdin : Option String) {args : List String}
    {pattern : String} {targets : List String} {r : Regex} {max : Option Nat}
    (hsought : sought (table.parse args) = some (pattern, targets))
    (hregex : regex? (table.parse args) pattern = some r)
    (hmax : ((table.parse args).value? "max-count").map Text.parseSize? = max.map some) :
    let o := table.parse args
    let found := inputs s.view (wanted o) targets stdin
    ∃ shown : Input → List String,
      ((dispatch "grep" args stdin).run s).1.stdout =
        "\n".intercalate (found.inputs.flatMap shown) ∧
      ∀ i : Input,
        let lines := selected r (o.has "invert-match") max i.text
        let names := namesShown o found
        (o.has "files-with-matches" = true →
          shown i = if lines.isEmpty then [] else [shownName i]) ∧
        (o.has "files-with-matches" = false → o.has "count" = true →
          shown i = [(if names then shownName i ++ ":" else "") ++ toString lines.length]) ∧
        (o.has "files-with-matches" = false → o.has "count" = false →
          o.has "only-matching" = false ∨ o.has "invert-match" = true →
          shown i = lines.map (fun l => lead o names i l.1 ++ l.2)) ∧
        (o.has "files-with-matches" = false → o.has "count" = false →
          o.has "only-matching" = true → o.has "invert-match" = false →
          shown i = lines.flatMap (fun l =>
            (r.matchTexts l.2.toList).map (fun m => lead o names i l.1 ++ String.ofList m))) ∧
        ∀ l ∈ numbered 1 (Text.linesOf i.text),
          l ∈ selected r true none i.text ↔ l ∉ selected r false none i.text := by
  intro o found
  have hrun : (dispatch "grep" args stdin).run s = (run args stdin s.view, s) :=
    run_dispatch_read (b := .grep) s rfl
  refine ⟨inputReport r o max (namesShown o found), ?_, fun i => ?_⟩
  · rw [hrun, run_of_sought hsought]
    exact stdout_search hregex hmax targets stdin s.view
  · intro lines names
    rw [inputReport_eq]
    refine ⟨fun hfiles => ?_, fun hfiles hcount => ?_, fun hfiles hcount hwhole => ?_,
      fun hfiles hcount honly hinvert => ?_, fun l hl => mem_selected_iff r i.text hl⟩
    · simp only [hfiles, if_true, lines]
    · simp only [hfiles, hcount, Bool.false_eq_true, if_false, if_true, lines, names]
    · simp only [hfiles, hcount, Bool.false_eq_true, if_false]
      rw [lineReport_whole r names i hwhole, List.map_eq_flatMap]
    · simp only [hfiles, hcount, Bool.false_eq_true, if_false]
      rw [lineReport_matches r names i honly hinvert]

theorem grep_shows_selected_bounded :
    let s := ((FileStore.new ⟨0⟩).seed [("f", "x\nab ac\nad\nae")]).2
    let args := ["-no", "-m2", "a.", "f"]
    let o := table.parse args
    ∃ r, (sought o = some ("a.", ["f"]) ∧ regex? o "a." = some r ∧
        (o.value? "max-count").map Text.parseSize? = (some 2).map some) ∧
      selected r false (some 2) "x\nab ac\nad\nae" = [(2, "ab ac"), (3, "ad")] ∧
      ∃ shown : Input → List String,
        shown ⟨some "f", "x\nab ac\nad\nae"⟩ = ["2:ab", "2:ac", "3:ad"] ∧
        ((dispatch "grep" args none).run s).1.stdout =
          "\n".intercalate (shown ⟨some "f", "x\nab ac\nad\nae"⟩) := by
  intro s args o
  have hregex : regex? o "a." = some ((regex? o "a.").get (by decide +kernel)) :=
    (Option.some_get _).symm
  have hsought : sought o = some ("a.", ["f"]) := by decide +kernel
  have hmax : (o.value? "max-count").map Text.parseSize? = (some 2).map some := by decide +kernel
  obtain ⟨shown, hstdout, hshown⟩ := grep_shows_selected s none hsought hregex hmax
  refine ⟨_, ⟨hsought, hregex, hmax⟩, by decide +kernel, shown, ?_, ?_⟩
  · obtain ⟨-, -, -, hmatches, -⟩ := hshown ⟨some "f", "x\nab ac\nad\nae"⟩
    rw [hmatches (by decide +kernel) (by decide +kernel) (by decide +kernel) (by decide +kernel)]
    decide +kernel
  · have hinputs : (inputs s.view (wanted o) ["f"] none).inputs =
        [⟨some "f", "x\nab ac\nad\nae"⟩] := by decide +kernel
    rw [hstdout, hinputs, List.flatMap_cons, List.flatMap_nil, List.append_nil]

end ProjectShell
