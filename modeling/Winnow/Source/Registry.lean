import Winnow.Settings.Basic
import Winnow.Source.Collector

/-!
# Registries

A registry makes providers of the kinds it knows. Registering a kind again replaces what made it.
-/

namespace Winnow

/-- Makes a provider with a given id. -/
abbrev Factory (m : Type → Type) := String → ExceptT Fault m (Provider m)

structure Registry (m : Type → Type) where
  factories : Entries (Factory m) := []

namespace Registry

variable {m : Type → Type} [Monad m]

def empty : Registry m := {}

def register (registry : Registry m) (kind : String) (factory : Factory m) : Registry m :=
  ⟨registry.factories.put kind factory⟩

def contains (registry : Registry m) (kind : String) : Bool :=
  (registry.factories.get? kind).isSome

def kinds (registry : Registry m) : List String :=
  registry.factories.keys.mergeSort fun a b => decide (a ≤ b)

def create (registry : Registry m) (id kind : String) : ExceptT Fault m (Provider m) :=
  match registry.factories.get? kind with
  | some factory => factory id
  | none => throw (.unknownProviderKind id kind)

def instantiate (registry : Registry m) (settings : Settings) :
    ExceptT Fault m (List (Provider m)) :=
  settings.providers.mapM fun (id, kind) => registry.create id kind

end Registry

def Collector.ofSettings {m : Type → Type} [Monad m] (settings : Settings)
    (registry : Registry m) : ExceptT Fault m (Collector m) :=
  return { providers := ← registry.instantiate settings, policy := settings.merge }

end Winnow
