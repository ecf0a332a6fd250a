import Winnow.Yaml.Tag

/-!
# YAML tokens

The marks of a text with its indentation made explicit: block collections have a start and an end,
and every key is announced.
-/

namespace Winnow.Yaml

inductive Token where
  | version (major minor : Nat)
  | handle (handle meaning : String)
  | documentStart
  | documentEnd
  | blockSequence
  | blockMapping
  | blockEnd
  | flowSequence
  | flowSequenceEnd
  | flowMapping
  | flowMappingEnd
  | blockEntry
  | flowEntry
  | key
  | value
  | reference (name : String)
  | anchor (name : String)
  | tag (tag : Tag)
  | scalar (plain : Bool) (text : String)
deriving DecidableEq

end Winnow.Yaml
