import Winnow.Text.Invisible

/-!
# Quoted texts

How descriptions show strings, lists of strings and named fields.
-/

namespace Winnow

/-- A character as it stands between double quotes: quotes, backslashes and invisible characters are
escaped, the rarer ones by their number. -/
def escapeChar (c : Char) : List Char :=
  match c with
  | '"' => ['\\', '"']
  | '\\' => ['\\', '\\']
  | '\n' => ['\\', 'n']
  | '\r' => ['\\', 'r']
  | '\t' => ['\\', 't']
  | '\x00' => ['\\', '0']
  | c =>
    if isInvisible c then
      ['\\', 'u', '\x7b'] ++ Nat.toDigits 16 c.toNat ++ ['\x7d']
    else
      [c]

def quotedText (s : String) : String :=
  String.ofList ('"' :: (s.toList.flatMap escapeChar ++ ['"']))

def listText (items : List String) : String :=
  "[" ++ String.intercalate ", " items ++ "]"

def recordText (name : String) (fields : List (String × String)) : String :=
  name ++ " \x7b " ++
    String.intercalate ", " (fields.map fun (field, value) => field ++ ": " ++ value) ++ " \x7d"

end Winnow
