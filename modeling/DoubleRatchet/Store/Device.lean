import DoubleRatchet.Store.Memory

/-!
A device: its stores in memory, its source of randomness and its log, and the computations on it. What a failed
computation has stored stays stored.
-/
namespace DoubleRatchet

/-- A device that runs the library: its stores, its source of randomness and its log. -/
structure Device where
  stores : Stores
  ambient : Ambient

abbrev OnDevice := ExceptT Fault (StateM Device)

namespace OnDevice

def act {A : Type} (computation : Act A) : OnDevice A := fun device =>
  let (result, ambient) := computation device.ambient
  (result, { device with ambient })

def call {A : Type} (call : StoreCall A) : OnDevice A := fun device =>
  let (result, stores) := device.stores.answer call
  (result, { device with stores })

instance : Host OnDevice := ⟨act, call⟩

end OnDevice

end DoubleRatchet
