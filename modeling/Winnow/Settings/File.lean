import Winnow.Fault
import Winnow.Settings.Json
import Winnow.Settings.Yaml

/-!
# Settings files

A file is read as JSON if its name says so, and as YAML otherwise. Its bytes have to be UTF-8.
-/

namespace Winnow.Settings

/-- What follows the last point of a file name. A point at the start does not count. -/
def extension? (name : String) : Option String :=
  let reversed := name.toList.reverse
  let tail := reversed.takeWhile (· ≠ '.')
  match reversed.dropWhile (· ≠ '.') with
  | [] | ['.'] => none
  | _ => some (String.ofList tail.reverse)

/-- The format of a file, by its extension in any case. -/
def formatOf (name : String) : Format :=
  match extension? name with
  | some extension => if extension.toLower = "json" then .json else .yaml
  | none => .yaml

def ofText (format : Format) (text : String) : Except Fault Settings :=
  let settings :=
    match format with
    | .json => ofJsonText? text
    | .yaml => ofYamlText? text
  match settings with
  | some settings => .ok settings
  | none => .error (.malformedText format)

def ofFile (name : String) (bytes : Option ByteArray) : Except Fault Settings :=
  match bytes >>= String.fromUTF8? with
  | none => .error .unreadableFile
  | some text =>
    let format := formatOf name
    (ofText format text).mapError fun _ => .malformedFile name format

end Winnow.Settings
