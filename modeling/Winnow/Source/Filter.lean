import Winnow.Compiler
import Winnow.Source.Registry

/-!
# Filters

A filter collects the current demand and compiles it.
-/

namespace Winnow

structure Filter (m : Type → Type) where
  collector : Collector m := {}
  compiler : Compiler := ⟨.placeholder⟩
  aliases : TableAliases := []

namespace Filter

variable {m : Type → Type} [Monad m] {P : Type}

def ofSettings (settings : Settings) (registry : Registry m) : ExceptT Fault m (Filter m) :=
  return {
    collector := ← Collector.ofSettings settings registry
    compiler := ⟨settings.unknownOperator⟩
    aliases := settings.tableAliases }

/-- The collected demand, before coercion. -/
def demand (filter : Filter m) : ExceptT Fault m Mapping :=
  filter.collector.collect

/-- Compiles a given demand with the filter's compiler and aliases. -/
def buildFrom (filter : Filter m) (b : Builder m P) (raw : Mapping) : ExceptT Fault m P :=
  filter.compiler.compile filter.aliases b raw

def build (filter : Filter m) (b : Builder m P) : ExceptT Fault m P := do
  filter.buildFrom b (← filter.demand)

end Filter

end Winnow
