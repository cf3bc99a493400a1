import Mathlib.Data.List.TakeWhile
import ProjectShell.Proofs.Chains
import ProjectShell.Proofs.Occurrences

namespace ProjectShell

namespace Text

theorem trim_eq_nil_iff (cs : List Char) : trim cs = [] ↔ allBlank cs = true := by
  rw [allBlank, List.all_eq_true]
  constructor
  · intro h
    rw [trim, trimEnd, List.reverse_eq_nil_iff, List.dropWhile_eq_nil_iff] at h
    have hnil : trimStart cs = [] := by
      by_contra hne
      have hhead := List.head_dropWhile_not isBlank hne
      have hblank := h _ (List.mem_reverse.2 (List.head_mem hne))
      exact absurd hblank (Bool.eq_false_iff.1 hhead)
    exact List.dropWhile_eq_nil_iff.1 hnil
  · intro h
    have hnil : trimStart cs = [] := List.dropWhile_eq_nil_iff.2 h
    rw [trim, hnil]
    rfl

theorem isEmpty_trimmed (s : String) : (trimmed s).isEmpty = allBlank s.toList := by
  rw [Bool.eq_iff_iff, ← trim_eq_nil_iff, trimmed, String.isEmpty_iff]
  exact ⟨fun h => by simpa using congrArg String.toList h, fun h => by rw [h]⟩

end Text

namespace Command.Xargs

structure Batched (size : Nat) (ws : List String) (batches : List (List String)) : Prop where
  all : batches.flatten = ws
  full : ∀ b ∈ batches.dropLast, b.length = size
  some : ∀ b ∈ batches, 1 ≤ b.length ∧ b.length ≤ size

theorem length_batchesFrom {size room : Nat} {current : List String}
    (hroom : room + current.length = size) (hpos : 0 < room) (ws : List String) :
    (∀ b ∈ (batchesFrom size room current ws).dropLast, b.length = size) ∧
      ∀ b ∈ batchesFrom size room current ws, 1 ≤ b.length ∧ b.length ≤ size := by
  induction ws generalizing room current with
  | nil =>
    cases current with
    | nil => exact ⟨nofun, nofun⟩
    | cons w current =>
      refine ⟨nofun, ?_⟩
      rintro b (_ | ⟨_, ⟨⟩⟩)
      rw [List.length_reverse]
      rw [List.length_cons] at hroom ⊢
      omega
  | cons w ws ih =>
    rw [batchesFrom]
    by_cases hlast : room ≤ 1
    · rw [if_pos hlast]
      have hlength : (w :: current).reverse.length = size := by
        rw [List.length_reverse, List.length_cons]
        omega
      obtain ⟨hfull, hsome⟩ := @ih size [] rfl (by omega)
      refine ⟨fun b hb => ?_, List.forall_mem_cons.2 ⟨by omega, hsome⟩⟩
      cases hrest : batchesFrom size size [] ws with
      | nil => simp [hrest] at hb
      | cons b' bs =>
        rw [hrest, List.dropLast_cons_cons, List.mem_cons] at hb
        rcases hb with rfl | hb
        · exact hlength
        · exact hfull b (hrest ▸ hb)
    · rw [if_neg hlast]
      exact ih (by rw [List.length_cons]; omega) (by omega)

theorem batched_batches {size : Nat} (h : 0 < size) (ws : List String) :
    Batched size ws (batches size ws) :=
  have hlength := @length_batchesFrom size size [] rfl h ws
  ⟨flatten_batches size ws, hlength.1, hlength.2⟩

inductive Item
  | ignored (word : String) (h : isIgnored word = true)
  | attached (flag : Flag) (value : String) (h : value ≠ "")
  | apart (flag : Flag) (value : String)

namespace Item

def words : Item → List String
  | ignored word _ => [word]
  | attached flag value _ => [String.ofList ('-' :: flag.letter :: value.toList)]
  | apart flag value => [String.ofList ['-', flag.letter], value]

def given? : Item → Option (Flag × String)
  | ignored _ _ => none
  | attached flag value _ => some (flag, value)
  | apart flag value => some (flag, value)

def batch? (i : Item) : Option Nat :=
  match i.given? with
  | some (.number, value) => Text.parseSize? value
  | some (.lines, value) => Text.parseSize? value
  | _ => none

def marker? (i : Item) : Option String :=
  match i.given? with
  | some (.marker, value) => some value
  | _ => none

end Item

structure Settles (start : Settings) (items : List Item) (rest : List String) (s : Settings) :
    Prop where
  batch : s.batch = (items.filterMap Item.batch?).getLast?.getD start.batch
  marker : s.marker = (items.filterMap Item.marker?).getLast?.or start.marker
  command : s.command = if rest = [] then ["echo"] else rest
  ends : ∀ word ∈ rest.head?, flag? word = none ∧ isIgnored word = false

theorem flag?_eq_some {arg : String} {f : Flag} {value : Option String}
    (h : flag? arg = some (f, value)) :
    arg = String.ofList ('-' :: f.letter :: (value.getD "").toList) ∧ value ≠ some "" := by
  have hattached (cs : List Char) (v : Option String)
      (hv : (if cs.isEmpty then none else some (String.ofList cs)) = v) :
      (v.getD "").toList = cs ∧ v ≠ some "" := by
    cases cs <;> cases hv <;> simp
  rw [← String.ofList_toList (s := arg)]
  rw [flag?] at h
  split at h
  case h_4 => cases h
  all_goals
    rename_i cs harg
    obtain ⟨hf, hvalue⟩ := Prod.mk.inj (Option.some.inj h)
    obtain ⟨hcs, hne⟩ := hattached cs value hvalue
    rw [harg, hcs, ← hf]
    exact ⟨rfl, hne⟩

theorem Settles.cons_given {start mid s : Settings} {f : Flag} {value : String}
    {items : List Item} {rest : List String} (h : Settles mid items rest s)
    (hset : set start f value = .ok mid) {i : Item} (hi : i.given? = some (f, value)) :
    Settles start (i :: items) rest s := by
  have hbatch : ∀ n, i.batch? = some n → (i :: items).filterMap Item.batch? =
      n :: items.filterMap Item.batch? := fun n hn => List.filterMap_cons_some hn
  refine ⟨?_, ?_, h.command, h.ends⟩
  · rw [h.batch]
    cases f with
    | marker =>
      cases hset
      rw [List.filterMap_cons_none (by rw [Item.batch?, hi])]
    | number | lines =>
      rw [set] at hset
      · split at hset
        · rename_i n hn
          cases hset
          rw [hbatch (n + 1) (by rw [Item.batch?, hi]; exact hn), List.getLast?_cons]
          rfl
        · cases hset
      · nofun
  · rw [h.marker]
    cases f with
    | marker =>
      cases hset
      rw [List.filterMap_cons_some (b := value) (by rw [Item.marker?, hi]), List.getLast?_cons]
      cases (items.filterMap Item.marker?).getLast? <;> rfl
    | number | lines =>
      rw [List.filterMap_cons_none (by rw [Item.marker?, hi])]
      rw [set] at hset
      · split at hset <;> cases hset
        rfl
      · nofun

theorem batch_pos_of_set {start mid : Settings} {f : Flag} {value : String}
    (hset : set start f value = .ok mid) (hpos : 0 < start.batch) : 0 < mid.batch := by
  cases f with
  | marker =>
    cases hset
    exact hpos
  | number | lines =>
    rw [set] at hset
    · split at hset <;> cases hset
      exact Nat.succ_pos _
    · nofun

theorem parseFrom_settles {start s : Settings} {args : List String}
    (h : parseFrom start args = .ok s) (hpos : 0 < start.batch) :
    0 < s.batch ∧ ∃ items rest, args = items.flatMap Item.words ++ rest ∧
      Settles start items rest s := by
  fun_induction parseFrom start args with
  | case1 start =>
    cases h
    exact ⟨hpos, [], [], rfl, rfl, rfl, rfl, nofun⟩
  | case2 start arg rest f value hflag mid hset ih =>
    obtain ⟨hbatch, items, command, rfl, hs⟩ := ih h (batch_pos_of_set hset hpos)
    obtain ⟨rfl, hne⟩ := flag?_eq_some hflag
    have hvalue : value ≠ "" := fun he => hne (congrArg some he)
    exact ⟨hbatch, .attached f value hvalue :: items, command, rfl, hs.cons_given hset rfl⟩
  | case3 => cases h
  | case4 => cases h
  | case5 start arg f hflag value rest mid hset ih =>
    obtain ⟨hbatch, items, command, rfl, hs⟩ := ih h (batch_pos_of_set hset hpos)
    obtain ⟨rfl, -⟩ := flag?_eq_some hflag
    exact ⟨hbatch, .apart f value :: items, command, rfl, hs.cons_given hset rfl⟩
  | case6 => cases h
  | case7 start arg rest hflag hignored ih =>
    obtain ⟨hbatch, items, command, rfl, hs⟩ := ih h hpos
    exact ⟨hbatch, .ignored arg hignored :: items, command, rfl, hs.batch, hs.marker, hs.command,
      hs.ends⟩
  | case8 start arg rest hflag hignored =>
    cases h
    refine ⟨hpos, [], arg :: rest, rfl, rfl, rfl, rfl, ?_⟩
    rintro word hword
    cases hword
    exact ⟨hflag, Bool.eq_false_iff.2 hignored⟩

def filledLines (input : String) : List String :=
  (Text.linesOf input).filter (fun l => !Text.allBlank l.toList)

theorem inputLines_eq (input : String) :
    inputLines input = (filledLines input).map Text.trimmed := by
  simp only [inputLines, filledLines, List.filter_map, Function.comp_def, Text.isEmpty_trimmed]

theorem command_ne_nil {start s : Settings} {items : List Item} {rest : List String}
    (h : Settles start items rest s) : s.command ≠ [] := by
  rw [h.command]
  split
  · exact List.cons_ne_nil _ _
  · assumption

theorem ne_nil_of_mem_invocations {s : Settings} {input : String} {words : List String}
    (hcommand : s.command ≠ []) (h : words ∈ invocations s input) : words ≠ [] := by
  rw [invocations] at h
  split at h
  all_goals
    obtain ⟨x, -, rfl⟩ := List.mem_map.1 h
    simp [hcommand]

end Command.Xargs

def Outcome.gathered (outcomes : List Outcome) : Outcome :=
  ⟨(outcomes.map Outcome.stdout).foldl joinOutput "",
    (outcomes.map Outcome.stderr).foldl joinOutput "",
    if outcomes.all Outcome.succeeded then 0 else 1⟩

theorem gathered_cons (o : Outcome) (os : List Outcome) :
    Outcome.gathered (o :: os) = ⟨joinOutput o.stdout (Outcome.gathered os).stdout,
      joinOutput o.stderr (Outcome.gathered os).stderr,
      if o.succeeded then (Outcome.gathered os).exitCode else 1⟩ := by
  simp only [Outcome.gathered, List.map_cons, foldl_joinOutput_cons, List.all_cons,
    Outcome.mk.injEq, true_and]
  by_cases h : o.succeeded = true <;> simp [h]

theorem exitCode_gathered_iff (os : List Outcome) :
    (Outcome.gathered os).exitCode = 1 ↔ ∃ o ∈ os, o.succeeded = false := by
  simp [Outcome.gathered]

def runWords (inner : String → List String → Script Outcome) : List String → Script Outcome
  | [] => pure {}
  | name :: args => inner name args

namespace Command.Xargs

variable {inner : String → List String → Script Outcome}

theorem runAll_eq {all : List (List String)} (h : ∀ words ∈ all, words ≠ []) :
    runAll inner all = Outcome.gathered <$> all.mapM (runWords inner) := by
  induction all with
  | nil => rfl
  | cons words all ih =>
    obtain ⟨hwords, hall⟩ := List.forall_mem_cons.1 h
    match words, hwords with
    | name :: args, _ =>
      rw [runAll, ih hall, List.mapM_cons]
      simp only [map_eq_pure_bind, bind_assoc, pure_bind, runWords, gathered_cons]

theorem run_of_parse {args : List String} {s : Settings} (h : parse args = .ok s)
    (stdin : Option String) :
    run inner args stdin = Script.read View.maxInvocations >>= fun limit =>
      if limit < (invocations s (stdin.getD "")).length then
        pure (.failure ("xargs: too many invocations (" ++
          toString (invocations s (stdin.getD "")).length ++ ", limit " ++ toString limit ++ ")"))
      else runAll inner (invocations s (stdin.getD "")) := by
  rw [run, h]

theorem invocations_empty (s : Settings) : invocations s "" = [] := by
  rw [invocations]
  cases s.marker with
  | none => rfl
  | some marker => rfl

theorem run_none (inner : String → List String → Script Outcome) (args : List String) :
    run inner args none =
      match parse args with
      | .error message => pure (.failure message)
      | .ok _ => Script.read View.maxInvocations >>= fun _ => pure {} := by
  cases h : parse args with
  | error message => rw [run, h]
  | ok s =>
    rw [run_of_parse h, Option.getD_none, invocations_empty]
    rfl

end Command.Xargs

theorem dispatchWith_xargs (inner : String → List String → Script Outcome) (args : List String)
    (stdin : Option String) :
    dispatchWith inner "xargs" args stdin = Command.Xargs.run inner args stdin :=
  guarded_safely "xargs" _

theorem dispatchWith_none (inner inner' : String → List String → Script Outcome) (name : String)
    (args : List String) :
    dispatchWith inner name args none = dispatchWith inner' name args none := by
  rw [dispatchWith, dispatchWith]
  cases Builtin.ofName? name with
  | none => rfl
  | some b =>
    -- Only one command runs others, and without input it runs none.
    cases b
    case xargs =>
      simp only [Builtin.run, Command.Xargs.run_none]
    all_goals rfl

def dispatchLevels (below : String → List String → Option String → Script Outcome) :
    Nat → String → List String → Option String → Script Outcome
  | 0 => below
  | levels + 1 =>
      dispatchWith (fun name args => dispatchLevels below levels name args none)

theorem dispatchLevels_eq (below : String → List String → Option String → Script Outcome)
    (levels : Nat) (name : String) (args : List String) (stdin : Option String) :
    dispatchLevels below (levels + 2) name args stdin = dispatch name args stdin := by
  have hinner : (fun name args => dispatchLevels below (levels + 1) name args none) =
      dispatchInner :=
    funext fun name => funext fun args => dispatchWith_none _ _ name args
  rw [dispatchLevels, hinner]
  rfl

theorem dispatch_eq (name : String) (args : List String) (stdin : Option String) :
    dispatch name args stdin =
      dispatchWith (fun name args => dispatch name args none) name args stdin := by
  have hinner : dispatchInner = fun name args => dispatch name args none :=
    funext fun name => funext fun args => dispatchWith_none _ _ name args
  rw [dispatch, hinner]

namespace Command.Xargs

structure Calls (args : List String) (s : Settings) (input : String) (all : List (List String)) :
    Prop where
  options : 0 < s.batch ∧ ∃ items rest, args = items.flatMap Item.words ++ rest ∧
    Settles {} items rest s
  words : s.marker = none →
    ∃ batches, Batched s.batch (wordTexts input) batches ∧ all = batches.map (s.command ++ ·)
  lines : ∀ marker, s.marker = some marker →
    all = (filledLines input).map
      (fun line => s.command.map (substitute marker (Text.trimmed line)))
  replaced : ∀ marker, s.marker = some marker → marker ≠ "" → ∀ line word : String,
    Text.Replaced marker.toList line.toList word.toList (substitute marker line word).toList

theorem calls_invocations {args : List String} {s : Settings} (h : parse args = .ok s)
    (input : String) : Calls args s input (invocations s input) := by
  have hoptions := parseFrom_settles h Nat.one_pos
  refine ⟨hoptions, fun hmarker => ?_, fun marker hmarker => ?_, fun marker _ hne line word => ?_⟩
  · refine ⟨batches s.batch (wordTexts input), batched_batches hoptions.1 _, ?_⟩
    rw [invocations, hmarker]
  · rw [invocations, hmarker, inputLines_eq]
    exact List.map_map
  · have hmarker : marker.toList ≠ [] := by simpa using hne
    exact (Text.replaced_iff hmarker).2 String.toList_ofList

theorem dispatch_eq_of_parse {args : List String} {s : Settings} (h : parse args = .ok s)
    (stdin : Option String) :
    dispatch "xargs" args stdin = Script.read View.maxInvocations >>= fun limit =>
      if limit < (invocations s (stdin.getD "")).length then
        pure (.failure ("xargs: too many invocations (" ++
          toString (invocations s (stdin.getD "")).length ++ ", limit " ++ toString limit ++ ")"))
      else Outcome.gathered <$>
        (invocations s (stdin.getD "")).mapM
          (runWords fun name args => dispatch name args none) := by
  obtain ⟨-, items, rest, -, hsettles⟩ := parseFrom_settles h Nat.one_pos
  have hcommand := command_ne_nil hsettles
  rw [dispatch_eq, dispatchWith_xargs, run_of_parse h,
    runAll_eq (fun words hwords => ne_nil_of_mem_invocations hcommand hwords)]

end Command.Xargs

namespace Script

variable {α β : Type}

theorem run_map (s : FileStore) (f : α → β) (x : Script α) :
    (f <$> x).run s = (f (x.run s).1, (x.run s).2) := by
  rw [map_eq_pure_bind, run_bind, run_pure]

theorem edits_map (s : FileStore) (f : α → β) (x : Script α) : (f <$> x).edits s = x.edits s := by
  rw [map_eq_pure_bind, edits_bind]
  exact List.append_nil _

end Script

open Command in
theorem xargs_runs_in_order {args : List String} {settings : Xargs.Settings}
    (h : Xargs.parse args = .ok settings) (stdin : Option String) :
    let all := Xargs.invocations settings (stdin.getD "")
    (Xargs.Calls args settings (stdin.getD "") all ∧ ∀ s : FileStore,
      let xargs := dispatch "xargs" args stdin
      let ran := all.mapM (runWords fun name args => dispatch name args none)
      (s.limits.maxXargsInvocations < all.length →
        xargs.edits s = [] ∧ (xargs.run s).2 = s ∧ (xargs.run s).1.exitCode = 1) ∧
      (all.length ≤ s.limits.maxXargsInvocations →
        xargs.edits s = ran.edits s ∧
        xargs.run s = (Outcome.gathered (ran.run s).1, (ran.run s).2) ∧
        ((xargs.run s).1.exitCode = 1 ↔ ∃ o ∈ (ran.run s).1, o.succeeded = false))) ∧
    (∀ args (s : FileStore), (dispatch "xargs" args none).edits s = [] ∧
      ((dispatch "xargs" args none).run s).2 = s) ∧
    (∀ name args stdin, dispatch name args stdin =
      dispatchWith (fun name args => dispatch name args none) name args stdin) ∧
    ∀ below levels name args stdin,
      dispatchLevels below (levels + 2) name args stdin = dispatch name args stdin := by
  intro all
  refine ⟨⟨Xargs.calls_invocations h _, ?_⟩, ?_, dispatch_eq, dispatchLevels_eq⟩
  · intro s xargs ran
    have heq : xargs = _ := Xargs.dispatch_eq_of_parse h stdin
    constructor
    · intro hmany
      have hmany' : s.view.maxInvocations < _ := hmany
      rw [heq, Script.edits_bind, Script.run_bind, Script.run_read, if_pos hmany']
      exact ⟨rfl, rfl, rfl⟩
    · intro hfew
      have hfew' : ¬ s.view.maxInvocations < _ := Nat.not_lt.2 hfew
      have hrun : xargs.run s = (Outcome.gathered (ran.run s).1, (ran.run s).2) := by
        rw [heq, Script.run_bind, Script.run_read, if_neg hfew', Script.run_map]
      refine ⟨?_, hrun, ?_⟩
      · rw [heq, Script.edits_bind, Script.run_read, if_neg hfew', Script.edits_map]
        rfl
      · rw [hrun]
        exact exitCode_gathered_iff _
  · intro args s
    rw [dispatch_eq, dispatchWith_xargs, Xargs.run_none]
    cases Xargs.parse args <;> exact ⟨rfl, rfl⟩

theorem xargs_runs_in_order_batches :
    let s := FileStore.new ⟨0⟩
    let args := ["-r", "-n2", "xargs", "touch"]
    let settings : Command.Xargs.Settings := { batch := 2, command := ["xargs", "touch"] }
    Command.Xargs.parse args = .ok settings ∧
      Command.Xargs.invocations settings "a 'b c'\nd" =
        [["xargs", "touch", "a", "b c"], ["xargs", "touch", "d"]] ∧
      (dispatch "xargs" args (some "a 'b c'\nd")).run s = ({}, s) := by
  intro s args settings
  have hparse : Command.Xargs.parse args = .ok settings := by decide
  have hall : Command.Xargs.invocations settings "a 'b c'\nd" =
      [["xargs", "touch", "a", "b c"], ["xargs", "touch", "d"]] := by decide
  obtain ⟨⟨-, hrun⟩, -⟩ := xargs_runs_in_order hparse (some "a 'b c'\nd")
  rw [Option.getD_some, hall] at hrun
  exact ⟨hparse, hall, ((hrun s).2 (by decide)).2.1⟩

end ProjectShell
