import ProjectShell.Command.Report

namespace ProjectShell

namespace Script

variable {α β : Type} {Seen : View → Prop} {Asked : Edit → Prop} {Q R : α → Prop}

def Asks (Seen : View → Prop) (Asked : Edit → Prop) (Q : α → Prop) : Script α → Prop
  | done a => Q a
  | look k => ∀ v, Seen v → Asks Seen Asked Q (k v)
  | edit e k => Asked e ∧ ∀ r, Asks Seen Asked Q (k r)

theorem asks_pure (a : α) : Asks Seen Asked Q (pure a : Script α) ↔ Q a := Iff.rfl

theorem asks_read (f : View → α) : Asks Seen Asked Q (read f) ↔ ∀ v, Seen v → Q (f v) := Iff.rfl

theorem asks_bind (x : Script α) (f : α → Script β) {Q : β → Prop} :
    Asks Seen Asked Q (x >>= f) ↔ Asks Seen Asked (fun a => Asks Seen Asked Q (f a)) x := by
  induction x with
  | done a => exact Iff.rfl
  | look k ih => exact forall_congr' (fun v => imp_congr_right (fun _ => ih v))
  | edit e k ih => exact and_congr_right (fun _ => forall_congr' ih)

theorem Asks.mono {x : Script α} (h : Asks Seen Asked Q x) (hq : ∀ a, Q a → R a) :
    Asks Seen Asked R x := by
  induction x with
  | done a => exact hq a h
  | look k ih => exact fun v hv => ih v (h v hv)
  | edit e k ih => exact ⟨h.1, fun r => ih r (h.2 r)⟩

theorem asks_edit {e : Edit} (h : Asked e) {Q : e.Reply → Prop} (hq : ∀ r, Q r) :
    Asks Seen Asked Q (edit e done) :=
  ⟨h, hq⟩

theorem asks_appendOutput {path text : String} (h : ∀ text, Asked (.append path text)) :
    Asks Seen Asked (fun _ => True) (appendOutput path text) := by
  rw [appendOutput, files, asks_bind, asks_read]
  intro v _
  exact asks_edit (h _) (fun _ => trivial)

theorem asks_forEach {γ : Type} {f : γ → Script Report} {xs : List γ}
    (h : ∀ x ∈ xs, Asks Seen Asked (fun _ => True) (f x)) :
    Asks Seen Asked (fun _ => True) (Report.forEach f xs) := by
  induction xs with
  | nil => trivial
  | cons x xs ih =>
    obtain ⟨hx, hxs⟩ := List.forall_mem_cons.1 h
    rw [Report.forEach, asks_bind]
    refine hx.mono (fun a _ => ?_)
    rw [asks_bind]
    exact (ih hxs).mono (fun _ _ => trivial)

theorem Asks.run {x : Script α} (h : Asks Seen Asked Q x) (Inv : FileStore → Prop)
    (hseen : ∀ s, Inv s → Seen s.view) (hedit : ∀ s e, Inv s → Asked e → Inv (s.apply e).2)
    {s : FileStore} (hs : Inv s) : Inv (x.run s).2 := by
  induction x generalizing s with
  | done a => exact hs
  | look k ih => exact ih s.view (h s.view (hseen s hs)) hs
  | edit e k ih => exact ih (s.apply e).1 (h.2 (s.apply e).1) (hedit s e hs h.1)

end Script

namespace Attempt

variable {α β : Type} {Seen : View → Prop} {Asked : Edit → Prop} {Q R : α → Prop}

def Asks (Seen : View → Prop) (Asked : Edit → Prop) (Q : α → Prop) (x : Attempt α) : Prop :=
  Script.Asks Seen Asked (fun r => ∀ a, r = .ok a → Q a) x.run

theorem asks_pure (a : α) : Asks Seen Asked Q (pure a) ↔ Q a :=
  ⟨fun h => h a rfl, fun h _ he => Except.ok.inj he ▸ h⟩

theorem asks_done (a : α) : Asks Seen Asked (fun _ => True) (pure a) := (asks_pure a).2 trivial

theorem asks_bind (x : Attempt α) (f : α → Attempt β) {Q : β → Prop} :
    Asks Seen Asked Q (x >>= f) ↔ Asks Seen Asked (fun a => Asks Seen Asked Q (f a)) x := by
  rw [Asks, Asks, ExceptT.run_bind, Script.asks_bind]
  constructor <;> intro h <;> refine Script.Asks.mono h (fun r hr => ?_)
  · rintro a rfl
    exact hr
  · cases r with
    | ok a => exact hr a rfl
    | error e => exact fun _ he => nomatch he

theorem Asks.mono {x : Attempt α} (h : Asks Seen Asked Q x) (hq : ∀ a, Q a → R a) :
    Asks Seen Asked R x :=
  Script.Asks.mono h (fun _ hr a ha => hq a (hr a ha))

theorem asks_lift {x : Script α} (h : Script.Asks Seen Asked Q x) :
    Asks Seen Asked Q (ExceptT.lift x) := by
  rw [Asks, ExceptT.run_lift, ← bind_pure_comp, Script.asks_bind]
  refine h.mono (fun a ha => ?_)
  rw [Script.asks_pure]
  rintro b hb
  cases hb
  exact ha

theorem asks_mk {x : Script (Except StoreError α)} (h : Script.Asks Seen Asked (fun _ => True) x) :
    Asks Seen Asked (fun _ => True) (ExceptT.mk x) :=
  h.mono (fun _ _ _ _ => trivial)

theorem discard_eq (x : Attempt α) : discard x = x >>= fun _ => pure () := by
  rw [discard, map_const, bind_pure_comp]
  rfl

theorem asks_discard {x : Attempt α} (h : Asks Seen Asked (fun _ => True) x) :
    Asks Seen Asked (fun _ => True) (discard x) := by
  rw [discard_eq, asks_bind]
  exact h.mono (fun _ _ => asks_done _)

theorem asks_read {f : View → α} (h : ∀ v, Seen v → Q (f v)) : Asks Seen Asked Q (read f) :=
  asks_lift h

theorem asks_forEach {γ : Type} {f : γ → Attempt Report} {xs : List γ}
    (h : ∀ x ∈ xs, Asks Seen Asked (fun _ => True) (f x)) :
    Asks Seen Asked (fun _ => True) (Report.forEach f xs) := by
  induction xs with
  | nil => exact asks_done _
  | cons x xs ih =>
    obtain ⟨hx, hxs⟩ := List.forall_mem_cons.1 h
    rw [Report.forEach, asks_bind]
    refine hx.mono (fun a _ => ?_)
    rw [asks_bind]
    exact (ih hxs).mono (fun b _ => asks_done _)

end Attempt

end ProjectShell
