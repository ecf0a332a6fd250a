/-!
# Characters of YAML text

Line breaks, the two gap characters, and the characters that names and tags are made of.
-/

namespace Winnow.Yaml

/-- Characters that end a line. A carriage return with a line feed is one break. -/
def isBreak (c : Char) : Bool :=
  c == '\n' || c == '\r' || c == '\u0085' || c == '\u2028' || c == '\u2029'

/-- Spaces and tabs part words within a line. -/
def isGap (c : Char) : Bool := c == ' ' || c == '\t'

def byteOrderMark : Char := '\uFEFF'

/-- Characters that may occur in a text at all. -/
def isPrintable (c : Char) : Bool :=
  let n := c.toNat
  n == 0x9 || n == 0xA || n == 0xD || (0x20 ≤ n && n ≤ 0x7E) || n == 0x85 ||
    (0xA0 ≤ n && n ≤ 0xD7FF) || (0xE000 ≤ n && n ≤ 0xFFFD) || 0x10000 ≤ n

/-- Characters of anchor names and tag handles. -/
def isWord (c : Char) : Bool := c.isAlphanum || c == '_' || c == '-'

/-- Characters of tags. Commas and brackets need a tag between angle brackets. -/
def isTagChar (verbatim : Bool) (c : Char) : Bool :=
  isWord c || ";/?:@&=+$.!~*'()%".contains c || (verbatim && ",[]".contains c)

/-- Characters with a meaning of their own in flow collections. -/
def isFlowMark (c : Char) : Bool :=
  c == ',' || c == '[' || c == ']' || c == '\x7b' || c == '\x7d'

/-- Characters that no plain scalar starts with, whatever follows them. -/
def isIndicator (c : Char) : Bool :=
  isFlowMark c || "-?:#&*!|>'\"%@`".contains c

end Winnow.Yaml
