import ProjectShell.Proofs.DistinctKeys

namespace ProjectShell.Json

namespace Number

def InRange : Number → Prop
  | .whole n => n ≤ maxWord
  | .negative n => 0 < n ∧ n ≤ 0x8000000000000000
  | .float _ => True

end Number

inductive Formed (P : Number → Prop) : Nat → Json → Prop
  | null {depth : Nat} : Formed P depth .null
  | bool {depth : Nat} (b : Bool) : Formed P depth (.bool b)
  | num {depth : Nat} {n : Number} (h : P n) : Formed P depth (.num n)
  | str {depth : Nat} (s : String) : Formed P depth (.str s)
  | arr {depth : Nat} {elements : List Json} (h : ∀ v ∈ elements, Formed P depth v) :
      Formed P (depth + 1) (.arr elements)
  | obj {depth : Nat} {members : Members} (hk : members.keys.Nodup)
      (h : ∀ e ∈ members, Formed P depth e.2) : Formed P (depth + 1) (.obj members)

namespace Formed

variable {P : Number → Prop} {depth : Nat} {members : Members}

theorem obj_iff : Formed P (depth + 1) (.obj members) ↔
    members.keys.Nodup ∧ ∀ e ∈ members, Formed P depth e.2 :=
  ⟨fun | .obj hk h => ⟨hk, h⟩, fun ⟨hk, h⟩ => .obj hk h⟩

theorem empty : Formed P (depth + 1) (.obj []) := .obj .nil (List.forall_mem_nil _)

theorem nodup_keys (h : Formed P depth (.obj members)) : members.keys.Nodup := by
  cases h with
  | obj hk _ => exact hk

theorem insert (key : String) {v : Json} (h : Formed P (depth + 1) (.obj members))
    (hv : Formed P depth v) : Formed P (depth + 1) (.obj (members.insert key v)) := by
  obtain ⟨hk, hm⟩ := obj_iff.1 h
  refine .obj (Members.nodup_keys_insert key v hk) (fun e he => ?_)
  rcases Members.mem_insert he with rfl | he
  · exact hv
  · exact hm e he

theorem erase (key : String) (h : Formed P (depth + 1) (.obj members)) :
    Formed P (depth + 1) (.obj (members.erase key)) := by
  obtain ⟨hk, hm⟩ := obj_iff.1 h
  exact .obj (Members.nodup_keys_erase key hk) (fun e he => hm e (List.mem_of_mem_filter he))

theorem sort (h : Formed P (depth + 1) (.obj members)) :
    Formed P (depth + 1) (.obj members.sort) := by
  obtain ⟨hk, hm⟩ := obj_iff.1 h
  exact .obj (Members.nodup_keys_sort hk) (fun e he => hm e ((Members.sort_perm _).mem_iff.1 he))

end Formed

namespace Reading

variable {α β : Type}

def Yields (r : Reading α) (Q : α → Prop) : Prop := ∀ cur a cur', r cur = .ok (a, cur') → Q a

theorem yields_pure {Q : α → Prop} {a : α} (h : Q a) : Yields (pure a) Q := by
  intro cur b cur' hb
  cases hb
  exact h

theorem yields_fail {Q : α → Prop} (fault : Fault) : Yields (fail fault) Q := nofun

theorem yields_bind {R : α → Prop} {Q : β → Prop} {r : Reading α} {f : α → Reading β}
    (hr : Yields r R) (hf : ∀ a, R a → Yields (f a) Q) : Yields (r >>= f) Q := by
  intro cur b cur' hb
  change Except.bind (r cur) (fun p => f p.1 p.2) = _ at hb
  cases h : r cur with
  | error e =>
    rw [h] at hb
    cases hb
  | ok p =>
    rw [h] at hb
    exact hf p.1 (hr cur p.1 p.2 h) p.2 b cur' hb

theorem yields_then {Q : β → Prop} {r : Reading α} {f : α → Reading β}
    (hf : ∀ a, Yields (f a) Q) : Yields (r >>= f) Q :=
  yields_bind (R := fun _ => True) (fun _ _ _ _ => trivial) (fun a _ => hf a)

theorem yields_failAhead {Q : α → Prop} (fault : Fault) : Yields (failAhead fault) Q :=
  yields_then (fun _ => yields_fail fault)

theorem holds_of_run' {Q : α → Prop} {r : Reading α} (hr : Yields r Q) {cur : Cursor} {a : α}
    (h : StateT.run' r cur = .ok a) : Q a := by
  change Except.map Prod.fst (r cur) = .ok a at h
  cases hc : r cur with
  | error e =>
    rw [hc] at h
    cases h
  | ok p =>
    rw [hc] at h
    cases h
    exact hr cur p.1 p.2 hc

section Numbers

variable (positive : Bool) (n : Nat) (e : Int)

theorem wholeDigits_le (ds : List Nat) :
    ∀ {n : Nat}, n ≤ maxWord → (wholeDigits n ds).1 ≤ maxWord := by
  induction ds with
  | nil => exact id
  | cons d ds ih =>
    intro n hn
    rw [wholeDigits]
    split
    · rename_i h
      exact ih h
    · exact hn

theorem yields_scaledNumber : Yields (scaledNumber positive n e) Number.InRange := by
  rw [scaledNumber]
  split
  · exact yields_pure trivial
  · exact yields_fail _

theorem yields_exponent : Yields (exponent positive n e) Number.InRange := by
  rw [exponent]
  refine yields_then (fun _ => yields_then (fun up => yields_then (fun c => ?_)))
  split
  · exact yields_fail _
  · split
    · refine yields_then (fun cur => yields_then (fun ds => ?_))
      dsimp only
      split
      · split
        · exact yields_then (fun _ => yields_fail _)
        · exact yields_pure trivial
      · exact yields_scaledNumber _ _ _
    · exact yields_failAhead _

theorem yields_fraction : Yields (fraction positive n e) Number.InRange := by
  rw [fraction]
  refine yields_then (fun _ => yields_then (fun ds => ?_))
  split
  · refine yields_then (fun c => ?_)
    split <;> exact yields_failAhead _
  · refine yields_then (fun c => ?_)
    split
    · exact yields_exponent _ _ _
    · exact yields_exponent _ _ _
    · exact yields_scaledNumber _ _ _

theorem yields_number : Yields (number positive) Number.InRange := by
  rw [number]
  refine yields_then (fun c => ?_)
  split
  · exact yields_fail _
  · split
    · refine yields_then (fun ds => ?_)
      have hn := wholeDigits_le ds (Nat.zero_le maxWord)
      dsimp only
      refine yields_then (fun c => ?_)
      split
      · exact yields_fraction _ _ _
      · exact yields_exponent _ _ _
      · exact yields_exponent _ _ _
      · split
        · exact yields_scaledNumber _ _ _
        · split
          · exact yields_pure hn
          · split
            · exact yields_pure trivial
            · rename_i h
              simp only [Bool.or_eq_true, decide_eq_true_eq, not_or, Nat.not_lt] at h
              exact yields_pure ⟨Nat.pos_of_ne_zero h.1, h.2⟩
    · exact yields_failAhead _

end Numbers

theorem yields_formed (fuel : Nat) :
    (∀ depth, Yields (value depth fuel) (Formed Number.InRange depth)) ∧
    (∀ depth first, Yields (elements depth first fuel)
      (fun vs => ∀ v ∈ vs, Formed Number.InRange depth v)) ∧
    (∀ depth first read, Formed Number.InRange (depth + 1) (.obj read) →
      Yields (members depth first read fuel)
        (fun ms => Formed Number.InRange (depth + 1) (.obj ms))) := by
  -- The three readers call one another with less fuel.
  induction fuel with
  | zero => exact ⟨fun _ => yields_fail _, fun _ _ => yields_fail _, fun _ _ _ _ => yields_fail _⟩
  | succ fuel ih =>
    obtain ⟨hvalue, helements, hmembers⟩ := ih
    refine ⟨?_, ?_, ?_⟩
    · intro depth
      rw [value.eq_def]
      dsimp only
      refine yields_then (fun c => ?_)
      split
      · exact yields_failAhead _
      · exact yields_then (fun _ => yields_then (fun _ => yields_pure .null))
      · exact yields_then (fun _ => yields_then (fun _ => yields_pure (.bool true)))
      · exact yields_then (fun _ => yields_then (fun _ => yields_pure (.bool false)))
      · refine yields_then (fun _ => ?_)
        exact yields_bind (yields_number false) (fun n h => yields_pure (.num h))
      · exact yields_then (fun s => yields_pure (.str s))
      · cases depth with
        | zero => exact yields_failAhead _
        | succ depth =>
          refine yields_then (fun _ => ?_)
          exact yields_bind (helements depth true) (fun vs h => yields_pure (.arr h))
      · cases depth with
        | zero => exact yields_failAhead _
        | succ depth =>
          refine yields_then (fun _ => ?_)
          exact yields_bind (hmembers depth true [] .empty) (fun ms h => yields_pure h)
      · split
        · exact yields_bind (yields_number true) (fun n h => yields_pure (.num h))
        · exact yields_failAhead _
    · intro depth first
      rw [elements]
      refine yields_then (fun more => ?_)
      split
      · refine yields_bind (hvalue depth) (fun v hv => ?_)
        refine yields_bind (helements depth false) (fun vs hvs => ?_)
        exact yields_pure (List.forall_mem_cons.2 ⟨hv, hvs⟩)
      · exact yields_then (fun _ => yields_pure (List.forall_mem_nil _))
    · intro depth first read hread
      rw [members]
      refine yields_then (fun more => ?_)
      split
      · refine yields_then (fun key => yields_then (fun _ => ?_))
        refine yields_bind (hvalue depth) (fun v hv => ?_)
        exact hmembers depth false _ (hread.insert key hv)
      · exact yields_then (fun _ => yields_pure hread)

end Reading

theorem formed_of_parse {s : String} {v : Json} (h : parse s = .ok v) :
    Formed Number.InRange maxDepth v :=
  Reading.holds_of_run'
    (Reading.yields_bind ((Reading.yields_formed _).1 maxDepth)
      (fun _ hv => Reading.yields_then (fun _ => Reading.yields_pure hv))) h

end ProjectShell.Json
