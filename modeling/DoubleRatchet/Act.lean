import DoubleRatchet.Entropy
import DoubleRatchet.Fault

/-!
Computations that draw randomness, keep a log and may fail. What a failed computation has drawn stays drawn, and
what it has noted stays noted.
-/
namespace DoubleRatchet

/-- How grave a log record is. -/
inductive Level where
  | error
  | warn
  | info
  | debug
  deriving DecidableEq

/-- A log record. -/
structure Note where
  level : Level
  text : String
  deriving DecidableEq

/-- What surrounds a computation: the source of randomness and the log so far. -/
structure Ambient where
  entropy : Entropy
  notes : List Note := []

abbrev Act := ExceptT Fault (StateM Ambient)

/-- Draws from the ambient source. -/
instance : MonadLift (StateM Entropy) (StateM Ambient) where
  monadLift draw := fun ambient =>
    let (value, entropy) := draw ambient.entropy
    (value, { ambient with entropy })

def note (level : Level) (text : String) : Act Unit :=
  ExceptT.lift (modify fun ambient => { ambient with notes := ambient.notes ++ [⟨level, text⟩] })

/-- Runs a computation and goes on with its result or its fault. -/
def observe {m : Type → Type} [Monad m] [MonadExceptOf Fault m] {A : Type} (computation : m A) :
    m (Except Fault A) :=
  tryCatch (do return .ok (← computation)) fun fault => return .error fault

/-- An optional number as the log shows it. -/
def showOptional : Option UInt32 → String
  | some n => s!"Some({n})"
  | none => "None"

end DoubleRatchet
