import EthereumLogs.Python.Datetime

namespace EthereumLogs.Python

inductive PyVal where
  | none
  | bool (b : Bool)
  | int (i : Int)
  | float (q : Rat)
  | str (s : Text)
  | datetime (d : Datetime)
  | date (days : Int)
  | other (tag : String)
  | unhashable (tag : String)
deriving DecidableEq, Repr

namespace PyVal

-- values that Python's == identifies have one canonical form
def canon : PyVal → PyVal
  | .bool b => .int (if b then 1 else 0)
  | .float q => if q.den = 1 then .int q.num else .float q
  | .datetime ⟨wall, some offset⟩ => .datetime (.utc (wall - offset))
  | v => v

def eq (a b : PyVal) : Bool := a.canon = b.canon

def isHashable : PyVal → Bool
  | .unhashable _ => false
  | _ => true

def asStr : PyVal → Option Text
  | .str s => some s
  | _ => Option.none

def ofOptionalText : Option Text → PyVal
  | some s => .str s
  | Option.none => .none

def ofOptionalInt : Option Int → PyVal
  | some i => .int i
  | Option.none => .none

def ofOptionalBool : Option Bool → PyVal
  | some b => .bool b
  | Option.none => .none

end PyVal

abbrev PyRow := List (String × PyVal)

namespace PyRow

def columns (row : PyRow) : List String := row.map Prod.fst

def item (row : PyRow) (column : String) : PyVal := (row.lookup column).getD .none

end PyRow

def Json.asStr : Json → Option Text
  | .str s => some s
  | _ => none

example : PyVal.eq (.bool true) (.float 1) = true ∧
    PyVal.eq (.datetime ⟨3600, some 3600⟩) (.datetime (.utc 0)) = true ∧
    PyVal.eq (.datetime ⟨0, none⟩) (.datetime (.utc 0)) = false := by decide

end EthereumLogs.Python
