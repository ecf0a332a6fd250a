import Winnow.Fault
import Winnow.Json.Reader
import Winnow.Yaml.Json

/-!
# Providers

A provider produces a raw demand when it is asked, perhaps with an effect, or a fault. A static
provider gives the same demand each time.
-/

namespace Winnow

structure Provider (m : Type → Type) where
  id : String
  demand : ExceptT Fault m Mapping

namespace Provider

variable {m : Type → Type} [Monad m]

/-- Gives the same demand each time. -/
def static (id : String) (demand : Mapping) : Provider m :=
  ⟨id, pure demand⟩

def empty (id : String) : Provider m := static id []

/-- The demand that a value stands for: a mapping, or an empty demand for null. -/
def demandOf (id : String) : Json → Except Fault Mapping
  | .object members => .ok members
  | .null => .ok []
  | _ => .error (.provider id "demand must be a mapping")

/-- A static provider of the demand in a text. -/
def ofText (format : Format) (id text : String) : Except Fault (Provider m) :=
  let value :=
    match format with
    | .json => Json.read? text
    | .yaml => Yaml.readJson? text
  match value with
  | none => .error (.malformedText format)
  | some json => static id <$> demandOf id json

end Provider

end Winnow
