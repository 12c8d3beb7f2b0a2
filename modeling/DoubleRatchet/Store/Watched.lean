import DoubleRatchet.Store.Device

/-!
A device whose owner watches the calls on its stores, and can let one fail.
-/
namespace DoubleRatchet

/-- A device whose calls are listed, and can be refused. -/
structure WatchedDevice where
  device : Device
  /-- The calls that were made, in order. -/
  calls : List String := []
  /-- The names of calls the next of which fails. -/
  refused : List String := []

/-- A computation on a device whose calls are listed. -/
abbrev OnWatched := ExceptT Fault (StateM WatchedDevice)

namespace OnWatched

def act {A : Type} (computation : Act A) : OnWatched A := fun watched =>
  let (result, device) := OnDevice.act computation watched.device
  (result, { watched with device })

/-- Lists the call, and answers it unless it is refused. -/
def call {A : Type} (call : StoreCall A) : OnWatched A := fun watched =>
  let watched := { watched with calls := watched.calls ++ [call.display] }
  if watched.refused.contains call.name then
    (.error (.store call.name "refused"), { watched with refused := watched.refused.erase call.name })
  else
    let (result, device) := OnDevice.call call watched.device
    (result, { watched with device })

instance : Host OnWatched := ⟨act, call⟩

end OnWatched

end DoubleRatchet
