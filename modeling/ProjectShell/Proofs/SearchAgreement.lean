import ProjectShell.FileStore.Search
import ProjectShell.Proofs.CommandRequests
import ProjectShell.Proofs.Literals
import ProjectShell.Proofs.SelectedLines

namespace ProjectShell

def Regex.CaseBlind (pattern : List Char) : Prop :=
  (compile? pattern true).isSome = (compile? pattern false).isSome

theorem Regex.CaseBlind.eq_none {pattern : List Char} (h : CaseBlind pattern)
    (hnone : compile? pattern false = none) : compile? pattern true = none := by
  rw [CaseBlind, hnone] at h
  exact Option.isNone_iff_eq_none.1 (Option.isSome_eq_false_iff.1 h)

def SearchMatch.shown (m : SearchMatch) : String :=
  m.path ++ ":" ++ toString m.lineNumber ++ ":" ++ m.line

namespace SearchOptions

def regex? (o : SearchOptions) (query : String) : Option Regex :=
  Regex.compileLenient (if o.regex then query.toList else Regex.escape query.toList)
    (!o.caseSensitive)

def grepArgs (o : SearchOptions) (query : String) : List String :=
  ["-n", "-e", query] ++ (if o.regex then [] else ["-F"]) ++
    if o.caseSensitive then [] else ["-i"]

def grepOptions (o : SearchOptions) (query : String) : Options where
  switches := ["line-number"] ++ (if o.regex then [] else ["fixed-strings"]) ++
    if o.caseSensitive then [] else ["ignore-case"]
  values := (∅ : SortedMap String).insert "regexp" query

end SearchOptions

namespace FileStore

def matchCount (s : FileStore) (query : String) (o : SearchOptions) : Nat :=
  match o.regex? query with
  | none => 0
  | some r => (s.files.values.flatMap File.lines).countP (fun l => r.isMatch l.toList)

theorem length_matchingLines (r : Regex) (path : String) (number : Nat) (ls : List String) :
    (matchingLines r path number ls).length = ls.countP (fun l => r.isMatch l.toList) := by
  induction ls generalizing number with
  | nil => rfl
  | cons l ls ih =>
    rw [matchingLines, List.countP_cons]
    split
    · rw [List.length_cons, ih]
    · exact ih (number + 1)

theorem length_allMatches (r : Regex) (files : List File) :
    (allMatches r (fun _ => true) files).length =
      (files.flatMap File.lines).countP (fun l => r.isMatch l.toList) := by
  have hall : files.filter (fun _ => true) = files := List.filter_eq_self.2 (fun _ _ => rfl)
  rw [allMatches, hall, List.length_flatMap, List.countP_flatMap]
  congr 1
  exact List.map_congr_left (fun f _ => length_matchingLines r f.path 1 f.lines)

variable {s : FileStore} {query : String} {o : SearchOptions}

theorem search_of_none (h : o.regex? query = none) : s.search query o = [] := by
  unfold search
  split
  · rfl
  · dsimp only
    split
    · rfl
    · rename_i r hr
      cases h.symm.trans hr

theorem search_of_matchCount_le {r : Regex} (hquery : query ≠ "") (hglob : o.pathGlob = none)
    (h : o.regex? query = some r)
    (hcap : s.matchCount query o ≤ o.maxResults.getD s.limits.maxSearchResults) :
    s.search query o = allMatches r (fun _ => true) s.files.values := by
  have hempty : query.isEmpty = false := by simpa using hquery
  rw [matchCount, h] at hcap
  have hcompile : Regex.compileLenient (if o.regex then query.toList
      else Regex.escape query.toList) (!o.caseSensitive) = some r := h
  simp only [search, hempty, hcompile, hglob, Option.map_none, Bool.false_eq_true, if_false]
  refine List.take_of_length_le ?_
  rw [length_allMatches]
  exact Nat.le_trans hcap (Nat.le_max_right 1 _)

end FileStore

namespace Command.Grep

theorem parse_grepArgs (o : SearchOptions) (query : String) :
    table.parse (o.grepArgs query) = o.grepOptions query := by
  obtain ⟨regex, caseSensitive, pathGlob, maxResults⟩ := o
  cases regex <;> cases caseSensitive <;> rfl

variable (o : SearchOptions) (query : String)

theorem has_fixedStrings : (o.grepOptions query).has "fixed-strings" = !o.regex := by
  obtain ⟨regex, caseSensitive, pathGlob, maxResults⟩ := o
  cases regex <;> cases caseSensitive <;> rfl

theorem has_ignoreCase : (o.grepOptions query).has "ignore-case" = !o.caseSensitive := by
  obtain ⟨regex, caseSensitive, pathGlob, maxResults⟩ := o
  cases regex <;> cases caseSensitive <;> rfl

theorem has_lineNumber : (o.grepOptions query).has "line-number" = true := by
  obtain ⟨regex, caseSensitive, pathGlob, maxResults⟩ := o
  cases regex <;> cases caseSensitive <;> rfl

theorem has_other {name : String}
    (h : name ∉ ["fixed-strings", "ignore-case", "line-number"]) :
    (o.grepOptions query).has name = false := by
  obtain ⟨regex, caseSensitive, pathGlob, maxResults⟩ := o
  cases regex <;> cases caseSensitive <;> simp_all [SearchOptions.grepOptions, Options.has]

theorem value?_grepOptions (name : String) :
    (o.grepOptions query).value? name = if "regexp" = name then some query else none := by
  rw [Options.value?, SearchOptions.grepOptions, SortedMap.get?_insert]
  rfl

variable {o query}

theorem regex?_grepOptions
    (hcase : o.regex = true → o.caseSensitive = false → Regex.CaseBlind query.toList) :
    regex? (o.grepOptions query) query = o.regex? query := by
  have hword : (o.grepOptions query).has "word-regexp" = false := has_other o query (by decide)
  rw [regex?, SearchOptions.regex?, has_fixedStrings, has_ignoreCase, hword, source]
  cases hregex : o.regex with
  | false => rfl
  | true =>
    cases hplain : Regex.compile? query.toList false with
    | some r => rfl
    | none =>
      have hnone : Regex.compile? query.toList (!o.caseSensitive) = none := by
        cases hsensitive : o.caseSensitive with
        | true => exact hplain
        | false => exact (hcase hregex hsensitive).eq_none hplain
      change Regex.compileLenient (Regex.escape query.toList) _ = _
      rw [Regex.compileLenient_escape, Regex.compileLenient, if_pos rfl, hnone]
      rfl

theorem matchingLines_eq_numbered (r : Regex) (path : String) (number : Nat)
    (ls : List String) : FileStore.matchingLines r path number ls =
      ((numbered number ls).filter (fun l => r.isMatch l.2.toList != false)).map
        (fun l => ⟨path, l.1, l.2⟩) := by
  induction ls generalizing number with
  | nil => rfl
  | cons l ls ih =>
    rw [FileStore.matchingLines, numbered_cons, List.filter_cons, ih]
    cases r.isMatch l.toList with
    | true => rfl
    | false => rfl

variable (o query)

theorem lineReport_grepOptions (r : Regex) (f : File) (l : Nat × String) :
    lineReport r (o.grepOptions query) true (ofFile f) l =
      [SearchMatch.shown ⟨f.path, l.1, l.2⟩] := by
  have honly : (o.grepOptions query).has "only-matching" = false := has_other o query (by decide)
  simp only [lineReport, has_lineNumber, honly]
  simp [shownName, ofFile, SearchMatch.shown, String.append_assoc]

theorem inputReport_grepOptions (r : Regex) (f : File) :
    inputReport r (o.grepOptions query) none true (ofFile f) =
      (FileStore.matchingLines r f.path 1 f.lines).map SearchMatch.shown := by
  have hinvert : (o.grepOptions query).has "invert-match" = false := has_other o query (by decide)
  have hfiles : (o.grepOptions query).has "files-with-matches" = false :=
    has_other o query (by decide)
  have hcount : (o.grepOptions query).has "count" = false := has_other o query (by decide)
  have hline : lineReport r (o.grepOptions query) true (ofFile f) =
      fun l => [SearchMatch.shown ⟨f.path, l.1, l.2⟩] :=
    funext (lineReport_grepOptions o query r f)
  simp only [inputReport_eq, selected, capped, hinvert, hfiles, hcount, hline,
    matchingLines_eq_numbered]
  simp [ofFile, File.lines, ← List.map_eq_flatMap, Function.comp_def]

theorem inputs_grepOptions (v : View) :
    inputs v (wanted (o.grepOptions query)) [] none =
      { inputs := v.files.values.map ofFile, showNames := true } := by
  have hwanted : wanted (o.grepOptions query) = fun _ => true := by
    funext path
    simp [wanted, value?_grepOptions]
  simp only [hwanted, inputs, List.filter_eq_self.2 (fun _ _ => rfl)]

theorem search_grepOptions {r : Regex} (v : View)
    (h : regex? (o.grepOptions query) query = some r) :
    search (o.grepOptions query) query [] none v =
      (Report.lines ((FileStore.allMatches r (fun _ => true) v.files.values).map
        SearchMatch.shown)).outcome := by
  have hwith : (o.grepOptions query).has "with-filename" = false := has_other o query (by decide)
  have hwithout : (o.grepOptions query).has "no-filename" = false :=
    has_other o query (by decide)
  have hmax : (o.grepOptions query).value? "max-count" = none := value?_grepOptions o query _
  simp only [search, h, hmax, inputs_grepOptions, hwith, hwithout, Option.map_none]
  have hreports : (v.files.values.map ofFile).flatMap
      (inputReport r (o.grepOptions query) none true) =
        (FileStore.allMatches r (fun _ => true) v.files.values).map SearchMatch.shown := by
    rw [FileStore.allMatches, List.filter_eq_self.2 (fun _ _ => rfl), List.flatMap_map,
      List.map_flatMap]
    exact congrArg v.files.values.flatMap (funext (inputReport_grepOptions o query r))
  exact congrArg (fun ls => (Report.lines ls).outcome) hreports

theorem run_grepArgs (v : View) :
    run (o.grepArgs query) none v = search (o.grepOptions query) query [] none v := by
  have hoperands : (o.grepOptions query).operands = [] := rfl
  simp only [run, parse_grepArgs, value?_grepOptions, if_true, hoperands]

end Command.Grep

theorem dispatch_grep_prints_search {s : FileStore} {query : String} {o : SearchOptions}
    (hquery : query ≠ "") (hglob : o.pathGlob = none)
    (hcase : o.regex = true → o.caseSensitive = false → Regex.CaseBlind query.toList)
    (hcap : s.matchCount query o ≤ o.maxResults.getD s.limits.maxSearchResults) :
    ((dispatch "grep" (o.grepArgs query) none).run s).1.stdout =
      "\n".intercalate ((s.search query o).map SearchMatch.shown) := by
  have hrun : (dispatch "grep" (o.grepArgs query) none).run s =
      (Command.Grep.run (o.grepArgs query) none s.view, s) := run_dispatch_read (b := .grep) s rfl
  rw [hrun, Command.Grep.run_grepArgs]
  have hregex := Command.Grep.regex?_grepOptions hcase
  cases h : o.regex? query with
  | none =>
    rw [FileStore.search_of_none h, Command.Grep.search, hregex, h]
    rfl
  | some r =>
    rw [FileStore.search_of_matchCount_le hquery hglob h hcap,
      Command.Grep.search_grepOptions o query s.view (hregex.trans h)]
    rfl

theorem dispatch_grep_prints_search_unclosed :
    let s := ((FileStore.new ⟨0⟩).seed [("src/b.ts", "x\nFoo(1)\n"), ("a.ts", "foo(\nbar")]).2
    let o : SearchOptions := { regex := true, maxResults := some 2 }
    ("foo(" ≠ "" ∧ o.pathGlob = none ∧
      (o.regex = true → o.caseSensitive = false → Regex.CaseBlind "foo(".toList) ∧
      s.matchCount "foo(" o ≤ o.maxResults.getD s.limits.maxSearchResults) ∧
      ((dispatch "grep" (o.grepArgs "foo(") none).run s).1.stdout =
        "a.ts:1:foo(\nsrc/b.ts:2:Foo(1)" := by
  intro s o
  have hquery : "foo(" ≠ "" := by decide
  have hcase : Regex.CaseBlind "foo(".toList := by
    unfold Regex.CaseBlind
    decide +kernel
  have hcap : s.matchCount "foo(" o ≤ o.maxResults.getD s.limits.maxSearchResults := by
    decide +kernel
  have hprints := dispatch_grep_prints_search hquery rfl (fun _ _ => hcase) hcap
  exact ⟨⟨hquery, rfl, fun _ _ => hcase, hcap⟩, hprints.trans (by decide +kernel)⟩

end ProjectShell
