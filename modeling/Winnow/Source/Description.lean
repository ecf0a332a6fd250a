import Winnow.Source.Registry
import Winnow.Text.Quoted

/-!
# Descriptions

One-line descriptions of providers, collectors and registries for logs.
-/

namespace Winnow

variable {m : Type → Type} [Monad m]

def quotedList (items : List String) : String :=
  listText (items.map quotedText)

/-- A provider whose demand is computed when it is asked. -/
def Provider.describe (provider : Provider m) : String :=
  recordText "FnProvider" [("id", quotedText provider.id)]

def Collector.describe (collector : Collector m) : String :=
  recordText "DemandCollector"
    [("providers", quotedList collector.ids), ("policy", collector.policy.title)]

def Registry.describe (registry : Registry m) : String :=
  recordText "ProviderRegistry" [("kinds", quotedList registry.kinds)]

end Winnow
