import Std.Data.ExtTreeMap

/-!
Who a session is held with (`Address`) and whose messages to which group a sender key reads (`SenderKeyName`).
Both are ordered field by field, so that they can be keys of a store.
-/
namespace DoubleRatchet

/-- One device of a named user. -/
structure Address where
  name : String
  device : UInt32
  deriving DecidableEq

namespace Address

instance : Ord Address := ⟨compareLex (compareOn name) (compareOn device)⟩

instance : Std.TransOrd Address :=
  inferInstanceAs (Std.TransCmp (compareLex (compareOn name) (compareOn device)))

instance : Std.LawfulEqOrd Address where
  eq_of_compare {a b} h := by
    obtain ⟨hn, hd⟩ := compareLex_eq_eq.1 (show compareLex (compareOn name) (compareOn device) a b = .eq from h)
    cases a; cases b
    have := Std.LawfulEqOrd.eq_of_compare hn
    have := Std.LawfulEqOrd.eq_of_compare hd
    simp_all

/-- The name and the device number, divided by a full stop. -/
def display (a : Address) : String := s!"{a.name}.{a.device}"

end Address

/-- The messages of one sender to one group. -/
structure SenderKeyName where
  group : String
  sender : Address
  deriving DecidableEq

namespace SenderKeyName

instance : Ord SenderKeyName := ⟨compareLex (compareOn group) (compareOn sender)⟩

instance : Std.TransOrd SenderKeyName :=
  inferInstanceAs (Std.TransCmp (compareLex (compareOn group) (compareOn sender)))

instance : Std.LawfulEqOrd SenderKeyName where
  eq_of_compare {a b} h := by
    obtain ⟨hg, hs⟩ := compareLex_eq_eq.1 (show compareLex (compareOn group) (compareOn sender) a b = .eq from h)
    cases a; cases b
    have := Std.LawfulEqOrd.eq_of_compare hg
    have := Std.LawfulEqOrd.eq_of_compare hs
    simp_all

/-- The group and the sender, divided by two colons. -/
def display (n : SenderKeyName) : String := s!"{n.group}::{n.sender.display}"

end SenderKeyName

end DoubleRatchet
