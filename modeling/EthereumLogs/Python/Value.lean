import EthereumLogs.Python.Text
import Mathlib.Data.Rat.Defs

namespace EthereumLogs.Python

inductive Json where
  | null
  | bool (b : Bool)
  | int (i : Int)
  | float (q : Rat)
  | str (s : Text)
  | arr (xs : List Json)
  | obj (fields : List (String × Json))
deriving Repr

abbrev JsonObject := List (String × Json)

def JsonObject.get (o : JsonObject) (key : String) : Option Json := o.lookup key

def JsonObject.item (o : JsonObject) (key : String) : Except Exc Json :=
  match o.get key with
  | some v => .ok v
  | none => .error (.keyError key)

def Json.isObj : Json → Bool
  | .obj _ => true
  | _ => false

end EthereumLogs.Python
