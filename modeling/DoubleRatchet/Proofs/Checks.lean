import DoubleRatchet.Proofs.Computation

/-! Checks that are made in order. A reading that makes them fails by the first that is not met, and by no other. -/
namespace DoubleRatchet

/-- Something that is asked of what comes in, and the fault of what does not have it. -/
structure Check where
  met : Bool
  fault : Fault

namespace Check

/-- The fault of the first check that is not met. -/
def first? : List Check → Option Fault
  | [] => none
  | check :: rest => if check.met then first? rest else some check.fault

theorem first?_append (checks later : List Check) : first? (checks ++ later) = (first? checks).or (first? later) := by
  induction checks with
  | nil => rfl
  | cons check rest ih =>
    rw [List.cons_append, first?, first?, ih]
    split <;> simp

/-- A computation makes checks: it fails by the first that is not met, and succeeds if all are met. -/
def Guard {A : Type} (checks : List Check) (x : Except Fault A) : Prop :=
  ∀ fault, x = .error fault ↔ first? checks = some fault

namespace Guard

variable {A B : Type} {checks later : List Check} {x : Except Fault A} {f : A → Except Fault B}

theorem ok (a : A) : Guard [] (.ok a) := by simp [Guard, first?]

/-- A check is made before all others. -/
theorem cons {check : Check} (unmet : check.met = false → x = .error check.fault) (met : check.met → Guard checks x) :
    Guard (check :: checks) x := by
  intro fault
  rw [first?]
  split
  · exact met ‹_› fault
  · rw [unmet (Bool.eq_false_iff.mpr ‹_›)]
    simp

theorem first?_of_ok (guards : Guard checks x) {a : A} (made : x = .ok a) : first? checks = none := by
  cases first : first? checks with
  | none => rfl
  | some fault =>
    rw [(guards fault).mpr first] at made
    cases made

/-- What is checked after a part of a computation is checked after what that part checks. -/
theorem bind (first : Guard checks x) (second : ∀ a, x = .ok a → Guard later (f a)) : Guard (checks ++ later) (x >>= f) := by
  intro fault
  rw [first?_append, bind_eq_error]
  cases made : x with
  | error other => simp [(first other).mp made]
  | ok a => simp [first.first?_of_ok made, second a made fault]

theorem map (guards : Guard checks x) (g : A → B) : Guard checks (x >>= fun a => pure (g a)) := by
  have := guards.bind (f := fun a => pure (g a)) fun a _ => ok (g a)
  rwa [List.append_nil] at this

end Guard

end Check

end DoubleRatchet
