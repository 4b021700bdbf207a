import Mathlib.Data.List.Forall2

/-! # Steps that may fail

When steps are made one after the other, the result is there if and only if each of them has its own.
-/

namespace ReviewContext

variable {ε α β : Type} {a : α} {as : List α} {b : β} {bs : List β} {step : α → Except ε β}

/-- A mapped ending succeeds where the ending does. -/
theorem except_map_eq_ok_iff {ending : Except ε α} {change : α → β} :
    ending.map change = .ok b ↔ ∃ a, ending = .ok a ∧ change a = b := by
  cases ending with
  | error e => simp [Except.map]
  | ok a => simp [Except.map]

/-- Two steps succeed where the first does and the second does on its result. -/
theorem except_bind_eq_ok_iff {ending : Except ε α} :
    ending >>= step = .ok b ↔ ∃ a, ending = .ok a ∧ step a = .ok b := by
  cases ending with
  | error e => simp [Bind.bind, Except.bind]
  | ok a => simp [Bind.bind, Except.bind]

/-- If no step fails, each element has its own result. -/
theorem mapM_eq_ok_iff : as.mapM step = .ok bs ↔ List.Forall₂ (fun a b => step a = .ok b) as bs := by
  induction as generalizing bs with
  | nil => simp [Pure.pure, Except.pure, eq_comm]
  | cons a as ih =>
    simp only [List.mapM_cons, except_bind_eq_ok_iff, ih, List.forall₂_cons_left_iff, Pure.pure,
      Except.pure, Except.ok.injEq, eq_comm (a := bs)]
    constructor
    · rintro ⟨b, first, rest, tail, rfl⟩
      exact ⟨b, rest, first, tail, rfl⟩
    · rintro ⟨b, rest, first, tail, rfl⟩
      exact ⟨b, first, rest, tail, rfl⟩

/-- Behind a check the rest is made if the check is passed. -/
theorem except_guard_eq_ok_iff {p : Prop} [Decidable p] {e : ε} {after : PUnit → Except ε α} {rest : Except ε α} :
    (if p then throw e >>= after else rest) = .ok a ↔ ¬ p ∧ rest = .ok a := by
  split
  · next failed => exact iff_of_false nofun fun both => both.1 failed
  · next passed => exact (and_iff_right passed).symm

end ReviewContext
