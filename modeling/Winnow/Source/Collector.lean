import Winnow.Policy
import Winnow.Source.Provider

/-!
# Collectors

A collector asks its providers in order and combines their demands. The first fault ends the
collection.
-/

namespace Winnow

/-- What has been collected, together with one more demand. -/
def MergePolicy.combine (policy : MergePolicy) (collected demand : Mapping) : Mapping :=
  match policy with
  | .merge => collected.extend demand
  | .lastWins => demand

structure Collector (m : Type → Type) where
  providers : List (Provider m) := []
  policy : MergePolicy := .merge

namespace Collector

variable {m : Type → Type} [Monad m]

def empty : Collector m := {}

def add (collector : Collector m) (provider : Provider m) : Collector m :=
  { collector with providers := collector.providers ++ [provider] }

def withPolicy (collector : Collector m) (policy : MergePolicy) : Collector m :=
  { collector with policy }

def ids (collector : Collector m) : List String :=
  collector.providers.map Provider.id

def collect (collector : Collector m) : ExceptT Fault m Mapping :=
  collector.providers.foldlM
    (fun collected provider => return collector.policy.combine collected (← provider.demand)) []

end Collector

end Winnow
