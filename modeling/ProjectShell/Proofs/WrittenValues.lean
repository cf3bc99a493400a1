import ProjectShell.Proofs.ReadValues
import ProjectShell.Proofs.WrittenTokens

namespace ProjectShell.Json

open Reading
open Cursor (isJsonBlank)

def Opens (s : List Char) : Prop := ∃ c ∈ s.head?, ¬ isJsonBlank c ∧ c ≠ ']'

section Heads

variable {c : Char} {s t : List Char}

theorem opens_cons (hc : ¬ isJsonBlank c ∧ c ≠ ']') : Opens (c :: s) := ⟨c, rfl, hc⟩

theorem Opens.append (h : Opens s) (t : List Char) : Opens (s ++ t) := by
  obtain ⟨c, hc, hopens⟩ := h
  refine ⟨c, ?_, hopens⟩
  rw [List.head?_append, hc]
  rfl

theorem opens_of_isDigit (hc : c.isDigit) : Opens (c :: s) :=
  opens_cons ⟨not_isJsonBlank_of_isDigit hc, ne_of_isDigit hc (by decide)⟩

theorem opens_toDigits (n : Nat) : Opens (Nat.toDigits 10 n) := by
  cases h : Nat.toDigits 10 n with
  | nil => exact absurd h Nat.toDigits_ne_nil
  | cons c s => exact opens_of_isDigit (isDigit_toDigits c (h ▸ List.mem_cons_self))

theorem Opens.take (h : Opens s) {n : Nat} (hn : 0 < n) : Opens (s.take n) := by
  obtain ⟨c, hc, hopens⟩ := h
  refine ⟨c, ?_, hopens⟩
  rw [List.head?_take, if_neg (Nat.ne_of_gt hn)]
  exact hc

theorem opens_layout {digits : List Char} (h : Opens digits) (point : Int) :
    Opens (layout digits point) := by
  rw [layout]
  dsimp only
  split
  · exact opens_of_isDigit (by decide)
  · split
    · split
      · exact (h.append _).append _
      · exact ((h.take (by omega)).append _).append _
    · exact (((h.take (by decide)).append _).append _).append _

theorem opens_floatText (bits : UInt64) : Opens (floatText bits).toList := by
  have hsign : ∀ digits, Opens digits → Opens
      ((if Nat.pow 2 63 ≤ bits.toNat then ['-'] else []) ++ digits) := by
    intro digits h
    split
    · exact ⟨'-', rfl, by decide⟩
    · exact h
  rw [floatText]
  dsimp only
  split
  · rw [String.toList_ofList]
    exact hsign _ ⟨'0', rfl, by decide⟩
  · rw [String.toList_ofList]
    exact hsign _ (opens_layout (opens_toDigits _) _)

theorem opens_text (n : Number) : Opens n.text.toList := by
  cases n with
  | whole n => exact (Nat.toList_repr (n := n)).symm ▸ opens_toDigits n
  | negative n =>
    rw [Number.text, String.toList_append]
    exact Opens.append ⟨'-', rfl, by decide⟩ _
  | float bits => exact opens_floatText bits

theorem opens_prettyAt (indent : Nat) (v : Json) : Opens (prettyAt indent v).toList := by
  match v with
  | .null | .bool false | .bool true | .arr [] | .obj [] =>
    rw [prettyAt]
    exact ⟨_, rfl, by decide⟩
  | .num n =>
    rw [prettyAt]
    exact opens_text n
  | .str s =>
    rw [prettyAt, toList_quote]
    exact ⟨'"', rfl, by decide⟩
  | .arr (v :: rest) =>
    simp only [prettyAt, String.toList_append]
    iterate 5 apply Opens.append
    exact ⟨'[', rfl, by decide⟩
  | .obj (e :: rest) =>
    simp only [prettyAt, String.toList_append]
    iterate 7 apply Opens.append
    exact ⟨'\x7b', rfl, by decide⟩

end Heads

theorem Opens.exists_cons {s : List Char} (h : Opens s) :
    ∃ c s', s = c :: s' ∧ ¬ isJsonBlank c ∧ c ≠ ']' := by
  obtain ⟨c, hc, hopens⟩ := h
  obtain ⟨s', rfl⟩ := List.head?_eq_some_iff.1 hc
  exact ⟨c, s', rfl, hopens⟩

namespace Reading

variable {c : Char} {depth fuel indent outer : Nat} {first : Bool} {s t u : List Char} {v : Json}
  {vs : List Json} {key : String} {read ms : Members}

theorem dropWhile_newline (hc : ¬ isJsonBlank c) :
    ((newline indent).toList ++ c :: s).dropWhile isJsonBlank = c :: s := by
  have htext : (newline indent).toList = '\n' :: List.replicate (2 * indent) ' ' := by
    simp [newline]
  have hblank : ∀ d ∈ (newline indent).toList, isJsonBlank d := by
    rw [htext]
    refine List.forall_mem_cons.2 ⟨by decide, fun d hd => ?_⟩
    rw [List.eq_of_mem_replicate hd]
    decide
  rw [List.dropWhile_append_of_pos hblank, List.dropWhile_cons_of_neg hc]

theorem reads_token_newline (hc : ¬ isJsonBlank c) :
    Reads token ((newline indent).toList ++ c :: s) (c :: s) (some c) :=
  reads_token (dropWhile_newline hc)

theorem skipBlankFrom_again (cs : List Char) (line column : Nat) :
    (Cursor.skipBlankFrom cs line column).skipBlank = Cursor.skipBlankFrom cs line column := by
  induction cs generalizing line column with
  | nil => rfl
  | cons c cs ih =>
    rw [Cursor.skipBlankFrom]
    split
    · exact ih ..
    · split
      · exact ih ..
      · rename_i hline hblank
        rw [Cursor.skipBlank, Cursor.skipBlankFrom, if_neg hline, if_neg hblank]

theorem token_bind_skipBlank {α : Type} (f : Option Char → Reading α) (cur : Cursor) :
    (token >>= f) cur.skipBlank = (token >>= f) cur := by
  have hagain : cur.skipBlank.skipBlank = cur.skipBlank := skipBlankFrom_again ..
  change Except.bind (Except.ok (cur.skipBlank.skipBlank.peek, cur.skipBlank.skipBlank))
    (fun p => f p.1 p.2) = _
  rw [hagain]
  rfl

theorem reads_value_blank (h : Reads (value depth fuel) (s.dropWhile isJsonBlank) t v) :
    Reads (value depth fuel) s t v := by
  rintro cur rfl
  have hrest := rest_skipBlankFrom cur.rest cur.line cur.column
  obtain ⟨cur', hcur', ht⟩ := h cur.skipBlank hrest
  refine ⟨cur', ?_, ht⟩
  cases fuel with
  | zero => cases hcur'
  | succ fuel =>
    rw [value.eq_def] at hcur' ⊢
    exact (token_bind_skipBlank ..).symm.trans hcur'

def ReadBack (depth : Nat) (v : Json) : Prop :=
  ∀ indent fuel t, Closes t → ((prettyAt indent v).toList ++ t).length ≤ fuel →
    Reads (value depth fuel) ((prettyAt indent v).toList ++ t) t v

theorem length_newline_pos : 0 < (newline indent).toList.length := by
  rw [newline, String.toList_append]
  exact Nat.zero_lt_succ _

theorem closes_newline : Closes ((newline indent).toList ++ s) := by
  rw [newline, String.toList_append]
  exact .inr (.inr rfl)

theorem readBack_of_succ (h : ∀ indent fuel t, Closes t →
    ((prettyAt indent v).toList ++ t).length ≤ fuel + 1 →
    Reads (value depth (fuel + 1)) ((prettyAt indent v).toList ++ t) t v) : ReadBack depth v := by
  intro indent fuel t ht hfuel
  -- A written value is not empty, so there is some fuel to read it with.
  obtain ⟨c, s, hs, -⟩ := ((opens_prettyAt indent v).append t).exists_cons
  cases fuel with
  | zero =>
    rw [hs] at hfuel
    cases hfuel
  | succ fuel => exact h indent fuel t ht hfuel

section Elements

theorem reads_moreElements_end (h : s.dropWhile isJsonBlank = ']' :: t) :
    Reads (moreElements first) s (']' :: t) false :=
  reads_bind (reads_token h) reads_pure

theorem reads_moreElements_first (h : Opens s) :
    Reads (moreElements true) ((newline indent).toList ++ s) s true := by
  obtain ⟨c, s, rfl, hblank, hne⟩ := h.exists_cons
  refine reads_bind (reads_token_newline hblank) ?_
  split
  case h_1 heq => cases heq
  case h_2 heq => exact absurd (Option.some.inj heq) hne
  case h_3 => exact reads_pure

theorem reads_moreElements_comma (h : Opens s) :
    Reads (moreElements false) (',' :: ((newline indent).toList ++ s)) s true := by
  obtain ⟨c, s, rfl, hblank, hne⟩ := h.exists_cons
  refine reads_bind (reads_token_cons (by decide)) ?_
  refine reads_bind reads_skip (reads_bind (reads_token_newline hblank) ?_)
  split
  case h_1 heq => cases heq
  case h_2 heq => exact absurd (Option.some.inj heq) hne
  case h_3 => exact reads_pure

theorem reads_elements_end (h : s.dropWhile isJsonBlank = ']' :: t) :
    Reads (elements depth first (fuel + 1)) s t [] := by
  rw [elements]
  refine reads_bind (reads_moreElements_end h) ?_
  rw [if_neg Bool.false_ne_true]
  exact reads_bind reads_skip reads_pure

theorem reads_elements_cons
    (hmore : Reads (moreElements first) s ((prettyAt indent v).toList ++ u) true)
    (hv : ReadBack depth v) (hu : Closes u)
    (hfuel : ((prettyAt indent v).toList ++ u).length < fuel)
    (hrest : ∀ fuel, u.length ≤ fuel → Reads (elements depth false fuel) u t vs) :
    Reads (elements depth first fuel) s t (v :: vs) := by
  obtain ⟨fuel, rfl⟩ := Nat.exists_eq_add_one_of_ne_zero (Nat.ne_zero_of_lt hfuel)
  have hle := Nat.le_of_lt_succ hfuel
  have hule : u.length ≤ fuel := by
    rw [List.length_append] at hle
    omega
  rw [elements]
  refine reads_bind hmore ?_
  rw [if_pos rfl]
  exact reads_bind (hv indent fuel u hu hle) (reads_bind (hrest fuel hule) reads_pure)

def elementsTail (indent outer : Nat) (vs : List Json) (t : List Char) : List Char :=
  (prettyElements indent vs).toList ++ ((newline outer).toList ++ ']' :: t)

theorem elementsTail_cons : elementsTail indent outer (v :: vs) t =
    ',' :: ((newline indent).toList ++
      ((prettyAt indent v).toList ++ elementsTail indent outer vs t)) := by
  simp only [elementsTail, prettyElements, String.toList_append, List.append_assoc]
  rfl

theorem closes_elementsTail : Closes (elementsTail indent outer vs t) := by
  cases vs with
  | nil =>
    rw [elementsTail, prettyElements]
    exact closes_newline
  | cons v vs =>
    rw [elementsTail_cons]
    exact .inr (.inl rfl)

theorem reads_elementsTail (h : ∀ v ∈ vs, ReadBack depth v)
    (hfuel : (elementsTail indent outer vs t).length ≤ fuel) :
    Reads (elements depth false fuel) (elementsTail indent outer vs t) t vs := by
  induction vs generalizing fuel with
  | nil =>
    cases fuel with
    | zero => simp [elementsTail] at hfuel
    | succ fuel => exact reads_elements_end (dropWhile_newline (by decide))
  | cons v vs ih =>
    obtain ⟨hv, hvs⟩ := List.forall_mem_cons.1 h
    rw [elementsTail_cons] at hfuel ⊢
    rw [List.length_cons, List.length_append] at hfuel
    have hopens := (opens_prettyAt indent v).append (elementsTail indent outer vs t)
    exact reads_elements_cons (reads_moreElements_comma hopens) hv closes_elementsTail (by omega)
      (fun _ hle => ih hvs hle)

theorem readBack_arr (h : ∀ v ∈ vs, ReadBack depth v) : ReadBack (depth + 1) (.arr vs) := by
  refine readBack_of_succ (fun indent fuel t _ hfuel => ?_)
  cases vs with
  | nil =>
    rw [prettyAt] at hfuel ⊢
    rw [value.eq_def]
    refine reads_bind (reads_token_cons (c := '[') (by decide)) ?_
    refine reads_bind reads_skip (reads_bind ?_ reads_pure)
    have hne : fuel ≠ 0 := by
      rintro rfl
      simp at hfuel
    obtain ⟨fuel, rfl⟩ := Nat.exists_eq_add_one_of_ne_zero hne
    exact reads_elements_end rfl
  | cons v vs =>
    obtain ⟨hv, hvs⟩ := List.forall_mem_cons.1 h
    have htext : (prettyAt indent (.arr (v :: vs))).toList ++ t = '[' ::
        ((newline (indent + 1)).toList ++ ((prettyAt (indent + 1) v).toList ++
          elementsTail (indent + 1) indent vs t)) := by
      simp only [prettyAt, elementsTail, String.toList_append, List.append_assoc]
      rfl
    rw [htext] at hfuel ⊢
    rw [List.length_cons, List.length_append] at hfuel
    have hpos := @length_newline_pos (indent + 1)
    have hopens := (opens_prettyAt (indent + 1) v).append (elementsTail (indent + 1) indent vs t)
    rw [value.eq_def]
    refine reads_bind (reads_token_cons (by decide)) (reads_bind reads_skip ?_)
    refine reads_bind ?_ reads_pure
    exact reads_elements_cons (reads_moreElements_first hopens) hv closes_elementsTail (by omega)
      (fun _ hle => reads_elementsTail hvs hle)

end Elements

section Objects

def memberText (indent : Nat) (key : String) (v : Json) (u : List Char) : List Char :=
  (quote key).toList ++ ':' :: ' ' :: ((prettyAt indent v).toList ++ u)

theorem memberText_eq_cons : ∃ s, memberText indent key v u = '"' :: s := by
  rw [memberText, toList_quote]
  exact ⟨_, rfl⟩

theorem length_memberText :
    key.toList.length + ((prettyAt indent v).toList ++ u).length <
      (memberText indent key v u).length := by
  have hkey := length_quote_ge key
  simp only [memberText, List.length_append, List.length_cons]
  omega

theorem reads_moreMembers_end (h : s.dropWhile isJsonBlank = '\x7d' :: t) :
    Reads (moreMembers first) s ('\x7d' :: t) false :=
  reads_bind (reads_token h) reads_pure

theorem reads_moreMembers_first :
    Reads (moreMembers true) ((newline indent).toList ++ memberText indent key v u)
      (memberText indent key v u) true := by
  obtain ⟨s, hs⟩ := @memberText_eq_cons indent u v key
  rw [hs]
  exact reads_bind (reads_token_newline (by decide)) reads_pure

theorem reads_moreMembers_comma :
    Reads (moreMembers false) (',' :: ((newline indent).toList ++ memberText indent key v u))
      (memberText indent key v u) true := by
  obtain ⟨s, hs⟩ := @memberText_eq_cons indent u v key
  rw [hs]
  refine reads_bind (reads_token_cons (by decide)) ?_
  exact reads_bind reads_skip (reads_bind (reads_token_newline (by decide)) reads_pure)

theorem reads_colon : Reads colon (':' :: s) s () :=
  reads_bind (reads_token_cons (by decide)) reads_skip

theorem reads_members_end (h : s.dropWhile isJsonBlank = '\x7d' :: t) :
    Reads (members depth first read (fuel + 1)) s t read := by
  rw [members]
  refine reads_bind (reads_moreMembers_end h) ?_
  rw [if_neg Bool.false_ne_true]
  exact reads_bind reads_skip reads_pure

theorem reads_members_cons
    (hmore : Reads (moreMembers first) s (memberText indent key v u) true)
    (hv : ReadBack depth v) (hu : Closes u) (hfuel : (memberText indent key v u).length < fuel)
    (hrest : ∀ fuel, u.length ≤ fuel →
      Reads (members depth false (read.insert key v) fuel) u t ms) :
    Reads (members depth first read fuel) s t ms := by
  obtain ⟨fuel, rfl⟩ := Nat.exists_eq_add_one_of_ne_zero (Nat.ne_zero_of_lt hfuel)
  have hlength := @length_memberText indent u v key
  have hule : u.length ≤ fuel := by
    rw [List.length_append] at hlength
    omega
  rw [members]
  refine reads_bind hmore ?_
  rw [if_pos rfl]
  refine reads_bind (reads_string key (by omega)) (reads_bind reads_colon ?_)
  refine reads_bind (reads_value_blank ?_) (hrest fuel hule)
  obtain ⟨c, s', hs', hblank, -⟩ := ((opens_prettyAt indent v).append u).exists_cons
  rw [List.dropWhile_cons_of_pos (by decide), hs', List.dropWhile_cons_of_neg hblank, ← hs']
  exact hv indent fuel u hu (by omega)

def membersTail (indent outer : Nat) (ms : Members) (t : List Char) : List Char :=
  (prettyMembers indent ms).toList ++ ((newline outer).toList ++ '\x7d' :: t)

theorem membersTail_cons : membersTail indent outer ((key, v) :: ms) t =
    ',' :: ((newline indent).toList ++
      memberText indent key v (membersTail indent outer ms t)) := by
  simp only [membersTail, memberText, prettyMembers, String.toList_append, List.append_assoc]
  rfl

theorem closes_membersTail : Closes (membersTail indent outer ms t) := by
  cases ms with
  | nil =>
    rw [membersTail, prettyMembers]
    exact closes_newline
  | cons e ms =>
    rw [membersTail_cons]
    exact .inr (.inl rfl)

theorem reads_membersTail (h : ∀ e ∈ ms, ReadBack depth e.2) (hk : (read ++ ms).keys.Nodup)
    (hfuel : (membersTail indent outer ms t).length ≤ fuel) :
    Reads (members depth false read fuel) (membersTail indent outer ms t) t (read ++ ms) := by
  induction ms generalizing read fuel with
  | nil =>
    cases fuel with
    | zero => simp [membersTail] at hfuel
    | succ fuel =>
      rw [List.append_nil]
      exact reads_members_end (dropWhile_newline (by decide))
  | cons e ms ih =>
    obtain ⟨key, v⟩ := e
    obtain ⟨hv, hms⟩ := List.forall_mem_cons.1 h
    rw [membersTail_cons] at hfuel ⊢
    rw [List.length_cons, List.length_append] at hfuel
    -- A key that is new goes to the end, and so the order is that of the text.
    have hfresh : key ∉ read.keys := by
      intro hm
      rw [Members.keys, List.map_append, List.nodup_append] at hk
      exact hk.2.2 key hm key List.mem_cons_self rfl
    rw [List.append_cons] at hk ⊢
    refine reads_members_cons reads_moreMembers_comma hv closes_membersTail (by omega) ?_
    intro fuel hle
    rw [Members.insert_of_not_mem_keys hfresh]
    exact ih hms hk hle

theorem readBack_obj (h : ∀ e ∈ ms, ReadBack depth e.2) (hk : ms.keys.Nodup) :
    ReadBack (depth + 1) (.obj ms) := by
  refine readBack_of_succ (fun indent fuel t _ hfuel => ?_)
  cases ms with
  | nil =>
    rw [prettyAt] at hfuel ⊢
    rw [value.eq_def]
    refine reads_bind (reads_token_cons (c := '\x7b') (by decide)) ?_
    refine reads_bind reads_skip (reads_bind ?_ reads_pure)
    have hne : fuel ≠ 0 := by
      rintro rfl
      simp at hfuel
    obtain ⟨fuel, rfl⟩ := Nat.exists_eq_add_one_of_ne_zero hne
    exact reads_members_end rfl
  | cons e ms =>
    obtain ⟨key, v⟩ := e
    obtain ⟨hv, hms⟩ := List.forall_mem_cons.1 h
    have htext : (prettyAt indent (.obj ((key, v) :: ms))).toList ++ t = '\x7b' ::
        ((newline (indent + 1)).toList ++
          memberText (indent + 1) key v (membersTail (indent + 1) indent ms t)) := by
      simp only [prettyAt, memberText, membersTail, String.toList_append, List.append_assoc]
      rfl
    rw [htext] at hfuel ⊢
    rw [List.length_cons, List.length_append] at hfuel
    have hpos := @length_newline_pos (indent + 1)
    rw [value.eq_def]
    refine reads_bind (reads_token_cons (by decide)) (reads_bind reads_skip ?_)
    refine reads_bind ?_ reads_pure
    exact reads_members_cons reads_moreMembers_first hv closes_membersTail (by omega)
      (fun _ hle => reads_membersTail hms hk hle)

end Objects

theorem readBack_null : ReadBack depth .null := by
  refine readBack_of_succ (fun indent fuel t _ _ => ?_)
  rw [prettyAt, value.eq_def]
  refine reads_bind (reads_token_cons (c := 'n') (by decide)) ?_
  exact reads_bind reads_skip (reads_bind (reads_word ['u', 'l', 'l'] t) reads_pure)

theorem readBack_bool (b : Bool) : ReadBack depth (.bool b) := by
  refine readBack_of_succ (fun indent fuel t _ _ => ?_)
  rw [prettyAt, value.eq_def]
  cases b with
  | false =>
    refine reads_bind (reads_token_cons (c := 'f') (by decide)) ?_
    exact reads_bind reads_skip (reads_bind (reads_word ['a', 'l', 's', 'e'] t) reads_pure)
  | true =>
    refine reads_bind (reads_token_cons (c := 't') (by decide)) ?_
    exact reads_bind reads_skip (reads_bind (reads_word ['r', 'u', 'e'] t) reads_pure)

theorem readBack_num {n : Number} (h : n.ReadsBack) : ReadBack depth (.num n) := by
  refine readBack_of_succ (fun indent fuel t ht _ => ?_)
  rw [prettyAt]
  exact h depth fuel t ht

theorem readBack_str (s : String) : ReadBack depth (.str s) := by
  refine readBack_of_succ (fun indent fuel t _ hfuel => ?_)
  have hlength := length_quote_ge s
  rw [prettyAt, List.length_append] at hfuel
  have hread := @reads_string fuel t s (by omega)
  rw [prettyAt, value.eq_def]
  rw [toList_quote] at hread ⊢
  exact reads_bind (reads_token_cons (c := '"') (by decide)) (reads_bind hread reads_pure)

theorem readBack_of_formed (h : Formed Number.ReadsBack depth v) : ReadBack depth v := by
  induction h with
  | null => exact readBack_null
  | bool b => exact readBack_bool b
  | num h => exact readBack_num h
  | str s => exact readBack_str s
  | arr _ ih => exact readBack_arr ih
  | obj hk _ ih => exact readBack_obj ih hk

end Reading

inductive Has (n : Number) : Json → Prop
  | num : Has n (.num n)
  | arr {elements : List Json} {v : Json} (hv : v ∈ elements) (h : Has n v) :
      Has n (.arr elements)
  | obj {members : Members} {e : String × Json} (he : e ∈ members) (h : Has n e.2) :
      Has n (.obj members)

theorem Number.readsBack_of_inRange {n : Number} (h : n.InRange)
    (hfloat : ∀ bits, n = .float bits → n.ReadsBack) : n.ReadsBack := by
  cases n with
  | whole n => exact readsBack_whole h
  | negative n => exact readsBack_negative h.1 h.2
  | float bits => exact hfloat bits rfl

theorem Formed.readsBack {depth : Nat} {v : Json} (h : Formed Number.InRange depth v)
    (hfloats : ∀ bits, Has (.float bits) v → (Number.float bits).ReadsBack) :
    Formed Number.ReadsBack depth v := by
  induction h with
  | null => exact .null
  | bool b => exact .bool b
  | num h =>
    refine .num (Number.readsBack_of_inRange h ?_)
    rintro bits rfl
    exact hfloats bits .num
  | str s => exact .str s
  | arr _ ih => exact .arr (fun v hv => ih v hv (fun bits h => hfloats bits (.arr hv h)))
  | obj hk _ ih => exact .obj hk (fun e he => ih e he (fun bits h => hfloats bits (.obj he h)))

theorem Reading.reads_finish : Reads finish ['\n'] [] () := by
  rintro ⟨_, line, column⟩ rfl
  exact ⟨⟨[], line + 1, 0⟩, rfl, rfl⟩

theorem parse_pretty {v : Json} (h : Formed Number.ReadsBack maxDepth v) :
    parse (v.pretty ++ "\n") = .ok v := by
  have htext : (v.pretty ++ "\n").toList = (prettyAt 0 v).toList ++ ['\n'] := String.toList_append
  have hread : Reads (do
      let v ← value maxDepth (2 * (v.pretty ++ "\n").toList.length + 2)
      finish
      pure v) (v.pretty ++ "\n").toList [] v := by
    rw [htext]
    refine reads_bind (readBack_of_formed h 0 _ _ (.inr (.inr rfl)) (by omega)) ?_
    exact reads_bind reads_finish reads_pure
  obtain ⟨cur, hcur, -⟩ := hread (Cursor.start (v.pretty ++ "\n")) rfl
  exact congrArg (Except.map Prod.fst) hcur

end ProjectShell.Json
