import ProjectShell.Json.Printer
import ProjectShell.Json.Reader

namespace ProjectShell.Json

namespace Reading

open Cursor (isJsonBlank)

variable {α β : Type} {a : α} {b : β} {c : Char} {n depth fuel : Nat} {s t u read : List Char}

def Reads (r : Reading α) (s t : List Char) (a : α) : Prop :=
  ∀ cur, cur.rest = s → ∃ cur', r cur = .ok (a, cur') ∧ cur'.rest = t

theorem reads_pure : Reads (pure a) s s a := fun cur h => ⟨cur, rfl, h⟩

theorem reads_bind {r : Reading α} {f : α → Reading β} (hr : Reads r s t a)
    (hf : Reads (f a) t u b) : Reads (r >>= f) s u b := by
  intro cur h
  obtain ⟨cur', hcur', hrest⟩ := hr cur h
  obtain ⟨cur'', hcur'', hrest'⟩ := hf cur' hrest
  refine ⟨cur'', ?_, hrest'⟩
  change Except.bind (r cur) (fun p => f p.1 p.2) = _
  rw [hcur']
  exact hcur''

theorem reads_peek : Reads peek s s s.head? := by
  rintro cur rfl
  exact ⟨cur, rfl, rfl⟩

theorem reads_skip : Reads skip (c :: s) s () := by
  intro cur h
  refine ⟨cur.next, rfl, ?_⟩
  rw [Cursor.next, h]
  dsimp only [Cursor.past]
  split <;> rfl

theorem rest_skipBlankFrom (cs : List Char) (line column : Nat) :
    (Cursor.skipBlankFrom cs line column).rest = cs.dropWhile isJsonBlank := by
  induction cs generalizing line column with
  | nil => rfl
  | cons c cs ih =>
    rw [Cursor.skipBlankFrom, List.dropWhile_cons]
    split
    · rename_i h
      rw [ih, h, if_pos (by decide)]
    · split
      · exact ih ..
      · rfl

theorem reads_token (h : s.dropWhile isJsonBlank = c :: t) : Reads token s (c :: t) (some c) := by
  rintro cur rfl
  have hrest := (rest_skipBlankFrom cur.rest cur.line cur.column).trans h
  refine ⟨cur.skipBlank, ?_, hrest⟩
  change Except.ok (cur.skipBlank.rest.head?, cur.skipBlank) = _
  rw [Cursor.skipBlank, hrest]
  rfl

theorem reads_token_cons (hc : ¬ isJsonBlank c) : Reads token (c :: s) (c :: s) (some c) :=
  reads_token (List.dropWhile_cons_of_neg hc)

theorem reads_word (s t : List Char) : Reads (word s) (s ++ t) t () := by
  induction s with
  | nil => exact reads_pure
  | cons c s ih =>
    rw [word]
    refine reads_bind reads_peek ?_
    dsimp only [List.cons_append, List.head?_cons]
    rw [if_pos rfl]
    exact reads_bind reads_skip ih

section Strings

variable {text : String}

theorem reads_inString : Reads inString (c :: s) (c :: s) c := reads_bind reads_peek reads_pure

theorem hexValue_digitChar : ∀ d < 16, hexValue (Nat.digitChar d) = some d := by decide

theorem utf8Size_digitChar : ∀ d < 16, (Nat.digitChar d).utf8Size = 1 := by decide

theorem reads_hexEscape {a b c d : Nat} (ha : a < 16) (hb : b < 16) (hc : c < 16) (hd : d < 16) :
    Reads hexEscape
      (Nat.digitChar a :: Nat.digitChar b :: Nat.digitChar c :: Nat.digitChar d :: t) t
      (((a * 16 + b) * 16 + c) * 16 + d) := by
  intro cur hrest
  refine ⟨⟨t, cur.line, cur.column + 4⟩, ?_, rfl⟩
  have hbytes : atLeastBytes 4 cur.rest = true := by
    simp [hrest, atLeastBytes, utf8Size_digitChar, ha, hb, hc, hd]
  have hvalues : (cur.rest.take 4).mapM hexValue = some [a, b, c, d] := by
    simp [hrest, hexValue_digitChar, ha, hb, hc, hd]
  have hdrop : cur.rest.drop 4 = t := by rw [hrest]; rfl
  rw [hexEscape]
  change (ite _ _ _ : Reading Nat) cur = _
  rw [if_pos hbytes, hvalues]
  change Except.ok (_, Cursor.mk (cur.rest.drop 4) _ _) = _
  rw [hdrop]

theorem reads_unicodeEscape (h : Reads hexEscape s t n) (hn : n < 0xD800) :
    Reads unicodeEscape s t (Char.ofNat n) := by
  rw [unicodeEscape]
  refine reads_bind h ?_
  rw [if_neg (by simp; omega), if_pos (by simp; omega)]
  exact reads_pure

theorem reads_stringFrom_simple {e : Char} (he : simpleEscape e = some c)
    (h : Reads (stringFrom (c :: read) fuel) s t text) :
    Reads (stringFrom read (fuel + 1)) ('\\' :: e :: s) t text := by
  have hu : e ≠ 'u' := by
    rintro rfl
    cases he
  rw [stringFrom]
  refine reads_bind reads_inString ?_
  rw [if_neg (by decide), if_pos rfl]
  refine reads_bind reads_skip (reads_bind reads_inString ?_)
  rw [if_neg hu, he]
  exact reads_bind reads_skip h

theorem reads_stringFrom_control (hc : c.toNat < 0x20)
    (h : Reads (stringFrom (c :: read) fuel) s t text) :
    Reads (stringFrom read (fuel + 1)) (['\\', 'u', '0', '0', Nat.digitChar (c.toNat / 16),
      Nat.digitChar (c.toNat % 16)] ++ s) t text := by
  rw [stringFrom]
  refine reads_bind reads_inString ?_
  rw [if_neg (by decide), if_pos rfl]
  refine reads_bind reads_skip (reads_bind reads_inString ?_)
  rw [if_pos rfl]
  have hescape : Reads hexEscape ('0' :: '0' :: Nat.digitChar (c.toNat / 16) ::
      Nat.digitChar (c.toNat % 16) :: s) s c.toNat := by
    have hread := reads_hexEscape (t := s) (a := 0) (b := 0) (c := c.toNat / 16)
      (d := c.toNat % 16) (by decide) (by decide) (by omega) (by omega)
    rwa [Nat.zero_add, Nat.div_add_mod'] at hread
  refine reads_bind reads_skip (reads_bind (reads_unicodeEscape hescape (by omega)) ?_)
  rw [Char.ofNat_toNat]
  exact h

theorem reads_stringFrom_plain (hquote : c ≠ '"') (hslash : c ≠ '\\') (hc : ¬ c.toNat < 0x20)
    (h : Reads (stringFrom (c :: read) fuel) s t text) :
    Reads (stringFrom read (fuel + 1)) (c :: s) t text := by
  rw [stringFrom]
  refine reads_bind reads_inString ?_
  rw [if_neg hquote, if_neg hslash, if_neg hc]
  exact reads_bind reads_skip h

theorem reads_stringFrom_escapeChar (c : Char) (h : Reads (stringFrom (c :: read) fuel) s t text) :
    Reads (stringFrom read (fuel + 1)) (escapeChar c ++ s) t text := by
  rw [escapeChar.eq_def]
  split
  · exact reads_stringFrom_simple rfl h
  · exact reads_stringFrom_simple rfl h
  · exact reads_stringFrom_simple rfl h
  · exact reads_stringFrom_simple rfl h
  · exact reads_stringFrom_simple rfl h
  · exact reads_stringFrom_simple rfl h
  · exact reads_stringFrom_simple rfl h
  · split
    · exact reads_stringFrom_control ‹_› h
    · exact reads_stringFrom_plain ‹_› ‹_› ‹_› h

theorem reads_stringFrom {cs : List Char} (h : cs.length < fuel) :
    Reads (stringFrom read fuel) (cs.flatMap escapeChar ++ '"' :: t) t
      (String.ofList (read.reverse ++ cs)) := by
  obtain ⟨fuel, rfl⟩ := Nat.exists_eq_add_one_of_ne_zero (Nat.ne_zero_of_lt h)
  induction cs generalizing read fuel with
  | nil =>
    rw [List.append_nil, stringFrom]
    refine reads_bind reads_inString ?_
    rw [if_pos rfl]
    exact reads_bind reads_skip reads_pure
  | cons c cs ih =>
    obtain ⟨fuel, rfl⟩ := Nat.exists_eq_add_one_of_ne_zero (n := fuel) (by simp at h; omega)
    rw [List.flatMap_cons, List.append_assoc]
    refine reads_stringFrom_escapeChar c ?_
    have hrest := @ih (c :: read) fuel (by simpa using h)
    rwa [List.reverse_cons, List.append_assoc] at hrest

theorem toList_quote (s : String) :
    (quote s).toList = '"' :: (s.toList.flatMap escapeChar ++ ['"']) := by
  simp [quote]

theorem length_le_flatMap_escapeChar (cs : List Char) :
    cs.length ≤ (cs.flatMap escapeChar).length := by
  induction cs with
  | nil => exact Nat.le_refl _
  | cons c cs ih =>
    have hpos : 0 < (escapeChar c).length := by
      rw [escapeChar.eq_def]
      split <;> try exact Nat.zero_lt_succ _
      split <;> exact Nat.zero_lt_succ _
    rw [List.flatMap_cons, List.length_append, List.length_cons]
    omega

theorem length_quote_ge (s : String) : s.toList.length + 2 ≤ (quote s).toList.length := by
  have hlength := length_le_flatMap_escapeChar s.toList
  rw [toList_quote, List.length_cons, List.length_append]
  exact Nat.succ_le_succ (Nat.succ_le_succ hlength)

theorem reads_string (s : String) (h : s.toList.length < fuel) :
    Reads (string fuel) ((quote s).toList ++ t) t s := by
  rw [toList_quote, List.cons_append, List.append_assoc]
  refine reads_bind reads_skip ?_
  have hread := @reads_stringFrom fuel t [] s.toList h
  rwa [List.reverse_nil, List.nil_append, String.ofList_toList] at hread

end Strings

def Closes (t : List Char) : Prop :=
  t.head? = none ∨ t.head? = some ',' ∨ t.head? = some '\n'

section Numbers

def digitOf (c : Char) : Nat := c.toNat - '0'.toNat

theorem Closes.not_isDigit (h : Closes t) : ∀ c ∈ t.head?, ¬ c.isDigit := by
  intro c hc
  rcases h with h | h | h <;> rw [h] at hc <;> cases hc <;> decide

theorem digitsFrom_append {cs : List Char} (hcs : ∀ c ∈ cs, c.isDigit)
    (ht : ∀ c ∈ t.head?, ¬ c.isDigit) (line column : Nat) :
    digitsFrom (cs ++ t) line column = (cs.map digitOf, ⟨t, line, column + cs.length⟩) := by
  induction cs generalizing column with
  | nil =>
    cases t with
    | nil => rfl
    | cons c t =>
      rw [List.nil_append, digitsFrom, if_neg (ht c rfl)]
      rfl
  | cons c cs ih =>
    obtain ⟨hc, hcs⟩ := List.forall_mem_cons.1 hcs
    rw [List.cons_append, digitsFrom, if_pos hc, ih hcs, List.length_cons, Nat.add_right_comm]
    rfl

theorem le_ofDigitChars (cs : List Char) (n : Nat) : n ≤ Nat.ofDigitChars 10 cs n := by
  induction cs generalizing n with
  | nil => exact Nat.le_refl _
  | cons c cs ih =>
    rw [Nat.ofDigitChars_cons]
    exact Nat.le_trans (by omega) (ih _)

theorem wholeDigits_map_digitOf (cs : List Char) {n : Nat}
    (h : Nat.ofDigitChars 10 cs n ≤ maxWord) :
    wholeDigits n (cs.map digitOf) = (Nat.ofDigitChars 10 cs n, 0) := by
  induction cs generalizing n with
  | nil => rfl
  | cons c cs ih =>
    rw [Nat.ofDigitChars_cons, Nat.mul_comm] at h ⊢
    -- No number on the way is greater than the last, so no digit is dropped.
    have hle : n * 10 + digitOf c ≤ maxWord := Nat.le_trans (le_ofDigitChars cs _) h
    rw [List.map_cons, wholeDigits, if_pos hle]
    exact ih h

theorem digitChar_ne_zero : ∀ n < 10, n ≠ 0 → Nat.digitChar n ≠ '0' := by decide

theorem head?_toDigits_ne (h : n ≠ 0) : (Nat.toDigits 10 n).head? ≠ some '0' := by
  induction n using Nat.strongRecOn with
  | ind n ih =>
    rw [Nat.toDigits_eq_if (by decide)]
    split
    · rename_i hlt
      exact fun he => digitChar_ne_zero n hlt h (Option.some.inj he)
    · have hhead := ih (n / 10) (by omega) (by omega)
      cases hd : Nat.toDigits 10 (n / 10) with
      | nil => exact absurd hd Nat.toDigits_ne_nil
      | cons d ds => rwa [hd] at hhead

theorem isDigit_toDigits : ∀ c ∈ Nat.toDigits 10 n, c.isDigit :=
  fun _ h => Nat.isDigit_of_mem_toDigits (by decide) (by decide) h

theorem wholeDigits_toDigits (h : n ≤ maxWord) :
    wholeDigits 0 ((Nat.toDigits 10 n).map digitOf) = (n, 0) := by
  have hvalue : Nat.ofDigitChars 10 (Nat.toDigits 10 n) 0 = n :=
    Nat.ofDigitChars_toDigits (by decide) (by decide)
  rw [wholeDigits_map_digitOf _ (hvalue.symm ▸ h), hvalue]

theorem reads_digits {cs : List Char} (hcs : ∀ c ∈ cs, c.isDigit) (ht : Closes t) :
    Reads digits (cs ++ t) t (cs.map digitOf) := by
  intro cur h
  refine ⟨⟨t, cur.line, cur.column + cs.length⟩, ?_, rfl⟩
  rw [digits, h, digitsFrom_append hcs ht.not_isDigit]

theorem reads_leadingDigits (hc : Nat.toDigits 10 n = c :: s) (ht : Closes t) :
    Reads (leadingDigits c) (c :: s ++ t) t ((c :: s).map digitOf) := by
  rw [leadingDigits]
  split
  · rename_i hzero
    subst hzero
    have hn : n = 0 := Decidable.byContradiction
      (fun hne => head?_toDigits_ne hne (congrArg List.head? hc))
    subst hn
    cases hc
    rw [List.singleton_append]
    refine reads_bind reads_skip (reads_bind reads_peek ?_)
    cases h : t.head? with
    | none => exact reads_pure
    | some d =>
      dsimp only
      rw [if_neg (ht.not_isDigit d h)]
      exact reads_pure
  · exact reads_digits (hc ▸ isDigit_toDigits) ht

theorem reads_number (positive : Bool) (h : n ≤ maxWord) (ht : Closes t) {m : Number}
    (hm : Reads (if positive then pure (.whole n)
      else if n = 0 || 0x8000000000000000 < n then pure (floatNumber false (Float.ofNat n))
      else pure (.negative n)) t t m) :
    Reads (number positive) (Nat.toDigits 10 n ++ t) t m := by
  cases hc : Nat.toDigits 10 n with
  | nil => exact absurd hc Nat.toDigits_ne_nil
  | cons c s =>
    have hdigit : c.isDigit := isDigit_toDigits c (hc ▸ List.mem_cons_self)
    rw [number]
    refine reads_bind reads_peek ?_
    dsimp only [List.cons_append, List.head?_cons]
    rw [if_pos hdigit]
    refine reads_bind (reads_leadingDigits hc ht) ?_
    rw [← hc, wholeDigits_toDigits h]
    refine reads_bind reads_peek ?_
    rcases ht with ht | ht | ht <;> rw [ht] <;> exact hm

theorem ne_of_isDigit {d : Char} (hc : c.isDigit) (hd : ¬ d.isDigit) : c ≠ d :=
  fun h => hd (h ▸ hc)

theorem not_isJsonBlank_of_isDigit (hc : c.isDigit) : ¬ isJsonBlank c := by
  have hspace := ne_of_isDigit hc (d := ' ') (by decide)
  have hline := ne_of_isDigit hc (d := '\n') (by decide)
  have htab := ne_of_isDigit hc (d := '\t') (by decide)
  have hreturn := ne_of_isDigit hc (d := '\r') (by decide)
  simp [isJsonBlank, hspace, hline, htab, hreturn]

end Numbers

end Reading

namespace Number

open Reading

variable {n : Nat}

def ReadsBack (n : Number) : Prop :=
  ∀ depth fuel t, Closes t → Reads (value depth (fuel + 1)) (n.text.toList ++ t) t (.num n)

theorem readsBack_whole (h : n ≤ maxWord) : ReadsBack (.whole n) := by
  intro depth fuel t ht
  have htext : (whole n).text.toList = Nat.toDigits 10 n := Nat.toList_repr
  have hread := @reads_number n t true h ht (.whole n) reads_pure
  rw [htext]
  cases hc : Nat.toDigits 10 n with
  | nil => exact absurd hc Nat.toDigits_ne_nil
  | cons c s =>
    have hdigit : c.isDigit := isDigit_toDigits c (hc ▸ List.mem_cons_self)
    rw [hc] at hread
    rw [value.eq_def]
    dsimp only
    refine reads_bind (reads_token_cons (not_isJsonBlank_of_isDigit hdigit)) ?_
    split
    case h_1 heq => cases heq
    case h_9 heq =>
      cases heq
      rw [if_pos hdigit]
      exact reads_bind hread reads_pure
    all_goals
      rename_i heq
      cases heq
      exact absurd hdigit (by decide)

theorem readsBack_negative (hpos : 0 < n) (h : n ≤ 0x8000000000000000) :
    ReadsBack (.negative n) := by
  intro depth fuel t ht
  have htext : (negative n).text.toList = '-' :: Nat.toDigits 10 n := by
    simp [Number.text]
  have hread := @reads_number n t false (Nat.le_trans h (by decide)) ht (.negative n) (by
    rw [if_neg (by decide), if_neg (by simp; omega)]
    exact reads_pure)
  rw [htext, value.eq_def]
  dsimp only
  refine reads_bind (reads_token_cons (by decide)) ?_
  exact reads_bind reads_skip (reads_bind hread reads_pure)

end Number

end ProjectShell.Json
