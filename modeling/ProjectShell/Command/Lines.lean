import ProjectShell.Command.Options
import ProjectShell.Command.Report
import ProjectShell.Text.Lowercase
import ProjectShell.Text.Numeral

namespace ProjectShell.Command

def headTable : OptionTable where
  flags := [.value 'n' "lines", .switch 'q' "quiet"]
  numeric := some "lines"

/-- A part of a text's lines; `fromLine` counts lines from one. -/
inductive Span
  | first (n : Nat)
  | last (n : Nat)
  | fromLine (n : Nat)
deriving DecidableEq, Repr

def Span.select (ls : List String) : Span → List String
  | first n => ls.take n
  | last n => ls.drop (ls.length - n)
  | fromLine n => ls.drop (n - 1)

inductive Edge
  | head
  | tail
deriving DecidableEq, Repr

namespace Edge

def name : Edge → String
  | head => "head"
  | tail => "tail"

def span (e : Edge) (n : Nat) : Span :=
  match e with
  | head => .first n
  | tail => .last n

def parseSpan (e : Edge) (raw : String) : Option Span :=
  match e, raw.toList with
  | tail, '+' :: cs => (Text.parseSize? (String.ofList cs)).map .fromLine
  | e, _ => (Text.parseSize? raw).map e.span

def selected (span : Span) (s : Source) : List String :=
  let ls := span.select s.lines
  if ls.isEmpty then [] else ["\n".intercalate ls]

def headed (span : Span) (first : Bool) : List Source → List String
  | [] => []
  | s :: rest =>
      (if first then [] else [""]) ++ ["==> " ++ s.name.getD "standard input" ++ " <=="] ++
        selected span s ++ headed span false rest

def run (e : Edge) (args : List String) (stdin : Option String) (v : View) : Outcome :=
  let o := headTable.parse args
  let span := match o.value? "lines" with
    | none => some (e.span 10)
    | some raw => e.parseSpan raw
  match span with
  | none =>
      .failure (e.name ++ ": invalid number of lines: '" ++ (o.value? "lines").getD "" ++ "'")
  | some span =>
      let (found, missing) := v.sources e.name o.operands stdin
      let shown :=
        if 1 < found.length && !o.has "quiet" then headed span true found
        else found.flatMap (selected span)
      (missing ++ .lines shown).outcome

end Edge

def wcTable : OptionTable where
  flags := [.switch 'l' "lines", .switch 'w' "words", .switch 'c' "bytes", .switch 'm' "chars"]

structure Counts where
  lines : Nat := 0
  words : Nat := 0
  chars : Nat := 0
deriving DecidableEq, Repr

namespace Counts

def ofText (s : String) : Counts :=
  ⟨(Text.linesOf s).length, (Text.words s.toList).length, s.length⟩

def add (a b : Counts) : Counts := ⟨a.lines + b.lines, a.words + b.words, a.chars + b.chars⟩

def line (o : Options) (c : Counts) (name : Option String) : String :=
  let chars := o.has "bytes" || o.has "chars"
  let all := !(o.has "lines" || o.has "words" || chars)
  " ".intercalate ((if all || o.has "lines" then [toString c.lines] else []) ++
    (if all || o.has "words" then [toString c.words] else []) ++
    (if all || chars then [toString c.chars] else []) ++ name.toList)

end Counts

def wc (args : List String) (stdin : Option String) (v : View) : Outcome :=
  let o := wcTable.parse args
  let (found, missing) := v.sources "wc" o.operands stdin
  let each := found.map (fun s => (Counts.ofText s.text).line o s.name)
  let total : Counts := found.foldl (fun (c : Counts) s => c.add (Counts.ofText s.text)) {}
  let last := if 1 < found.length then [total.line o (some "total")] else []
  (missing ++ .lines (each ++ last)).outcome

def unescape : List Char → List Char
  | [] => []
  | '\\' :: 'n' :: cs => '\n' :: unescape cs
  | '\\' :: 't' :: cs => '\t' :: unescape cs
  | '\\' :: '\\' :: cs => '\\' :: unescape cs
  | '\\' :: c :: cs => '\\' :: c :: unescape cs
  | c :: cs => c :: unescape cs

def isEchoFlag (arg : String) : Bool :=
  match arg.toList with
  | '-' :: c :: cs => (c :: cs).all (fun d => d = 'n' || d = 'e' || d = 'E')
  | _ => false

def echoInterprets (flags : List String) : Bool :=
  flags.foldl (fun b f =>
    if f.toList.contains 'E' then false else if f.toList.contains 'e' then true else b) false

def echo (args : List String) : Outcome :=
  let flags := args.takeWhile isEchoFlag
  let text := " ".intercalate (args.drop flags.length)
  .ok (if echoInterprets flags then String.ofList (unescape text.toList) else text)

def sortTable : OptionTable where
  flags := [.switch 'r' "reverse", .switch 'u' "unique", .switch 'n' "numeric-sort",
    .switch 'f' "ignore-case"]

def numericKey (line : String) : Int :=
  Text.floatRank (Text.numeralValue (Text.numeralOf (Text.trimStart line.toList)))

def byNumber (a b : Int × String) : Bool := a.1 < b.1 || (a.1 = b.1 && a.2 ≤ b.2)

def byText (a b : String × String) : Bool := a.1 < b.1 || (a.1 = b.1 && a.2 ≤ b.2)

def dropRepeats {α : Type} [DecidableEq α] (key : String → α) : List String → List String
  | [] => []
  | a :: rest =>
      match dropRepeats key rest with
      | [] => [a]
      | b :: kept => if key a = key b then a :: kept else a :: b :: kept

def sortLines (o : Options) (ls : List String) : List String :=
  let sorted :=
    if o.has "numeric-sort" then
      ((ls.map (fun l => (numericKey l, l))).mergeSort byNumber).map Prod.snd
    else if o.has "ignore-case" then
      ((ls.map (fun l => (Text.lowercase l, l))).mergeSort byText).map Prod.snd
    else ls.mergeSort (fun a b => decide (a ≤ b))
  let unique :=
    if !o.has "unique" then sorted
    else if o.has "ignore-case" then dropRepeats Text.lowercase sorted
    else dropRepeats id sorted
  if o.has "reverse" then unique.reverse else unique

def sort (args : List String) (stdin : Option String) (v : View) : Outcome :=
  let o := sortTable.parse args
  let (found, missing) := v.sources "sort" o.operands stdin
  let ls := sortLines o (found.flatMap Source.lines)
  (missing ++ .lines (if ls.isEmpty then [] else ["\n".intercalate ls])).outcome

def uniqTable : OptionTable where
  flags := [.switch 'c' "count", .switch 'd' "repeated", .switch 'u' "unique"]

def runsOf : List String → List (String × Nat)
  | [] => []
  | a :: rest =>
      match runsOf rest with
      | [] => [(a, 1)]
      | (b, n) :: runs => if a = b then (a, n + 1) :: runs else (a, 1) :: (b, n) :: runs

def uniqLine (o : Options) (r : String × Nat) : List String :=
  if o.has "repeated" && r.2 < 2 then []
  else if o.has "unique" && 1 < r.2 then []
  else if o.has "count" then [Text.padLeft 7 (toString r.2) ++ " " ++ r.1]
  else [r.1]

def uniq (args : List String) (stdin : Option String) (v : View) : Outcome :=
  let o := uniqTable.parse args
  let (found, missing) := v.sources "uniq" o.operands stdin
  (missing ++ .lines ((runsOf (found.flatMap Source.lines)).flatMap (uniqLine o))).outcome

end ProjectShell.Command
