import Descent.Binary64.Printer
import Descent.Text.Quoted
import Descent.Value

/-!
# Written outputs

The written form of an output, as error messages show it.
-/

namespace Descent.Value

mutual

def written : Value → Text
  | .null => "None"
  | .bool b => if b then "True" else "False"
  | .int n => Text.ofInt n
  | .float x => Binary64.written x
  | .text t => t.quoted
  | .list items => "[" ++ List.intercalate ", " (writtenAll items) ++ "]"
  | .tuple [item] => "(" ++ written item ++ ",)"
  | .tuple items => "(" ++ List.intercalate ", " (writtenAll items) ++ ")"
  | .nothing => "NOTHING"
  | .success output rest =>
      "Success(" ++ written output ++ ", remaining_input=" ++ rest.quoted ++ ")"
  | .failure input message _ _ =>
      "Failure(" ++ input.quoted ++ ", " ++ message.quoted ++ ")"

def writtenAll : List Value → List Text
  | [] => []
  | item :: items => written item :: writtenAll items

end

end Descent.Value
