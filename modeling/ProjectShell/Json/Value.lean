namespace ProjectShell

namespace Json

/-- Whole numbers of a machine word are kept apart from floats, which are held by their bits. -/
inductive Number
  | whole (n : Nat)
  | negative (n : Nat)
  | float (bits : UInt64)
deriving DecidableEq, Repr

end Json

inductive Json
  | null
  | bool (b : Bool)
  | num (n : Json.Number)
  | str (s : String)
  | arr (elements : List Json)
  | obj (members : List (String × Json))
deriving Repr, Inhabited

namespace Json

abbrev Members := List (String × Json)

namespace Members

def get? (key : String) : Members → Option Json
  | [] => none
  | (k, v) :: rest => if k = key then some v else get? key rest

def insert (key : String) (value : Json) : Members → Members
  | [] => [(key, value)]
  | (k, v) :: rest =>
      if k = key then (key, value) :: rest else (k, v) :: insert key value rest

def erase (key : String) (members : Members) : Members :=
  members.filter (fun e => e.1 ≠ key)

def insertSorted (key : String) (value : Json) : Members → Members
  | [] => [(key, value)]
  | (k, v) :: rest =>
      if key < k then (key, value) :: (k, v) :: rest else (k, v) :: insertSorted key value rest

def sort : Members → Members
  | [] => []
  | (k, v) :: rest => insertSorted k v (sort rest)

theorem get?_insert (key key' : String) (value : Json) (members : Members) :
    get? key' (insert key value members) =
      if key = key' then some value else get? key' members := by
  induction members with
  | nil => simp [insert, get?]
  | cons e rest ih =>
      obtain ⟨k, v⟩ := e
      simp only [insert]
      split
      · rename_i h
        subst h
        simp only [get?]
        split <;> rfl
      · simp only [get?, ih]
        split <;> split <;> simp_all

theorem get?_erase (key key' : String) (members : Members) :
    get? key' (erase key members) = if key = key' then none else get? key' members := by
  induction members with
  | nil => simp [erase, get?]
  | cons e rest ih =>
      obtain ⟨k, v⟩ := e
      simp only [erase] at ih
      by_cases hk : k = key
      · subst hk
        simp only [erase, ne_eq, not_true_eq_false, decide_false, Bool.false_eq_true,
          not_false_eq_true, List.filter_cons_of_neg, get?]
        rw [ih]
        split <;> rfl
      · simp only [erase, ne_eq, hk, not_false_eq_true, decide_true, List.filter_cons_of_pos, get?]
        rw [ih]
        split <;> split <;> simp_all

end Members

def str? : Json → Option String
  | .str s => some s
  | _ => none

end Json

end ProjectShell
