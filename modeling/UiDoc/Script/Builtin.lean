import UiDoc.Json.Printer
import UiDoc.Script.Term
import UiDoc.Script.Argument
import UiDoc.Script.Operator

/-!
# Functions that every script can call
-/

namespace UiDoc.Script

/-- The least or greatest of numbers; no number if one of them is none. -/
def extremum (choose : Float → Float → Float) (start : Float) (numbers : List Float) : Float :=
  numbers.foldl (fun best x =>
    if x.isNaN || best.isNaN then Binary64.notANumber else choose best x) start

/-- The value of a function. -/
def Builtin.apply (args : List Arg) : Builtin → Value
  | string => some (.str (if args.isEmpty then "" else Value.text (argument args 0)))
  | number => computed (if args.isEmpty then 0.0 else Value.toFloat (argument args 0))
  | boolean => truth (Value.truthy (argument args 0))
  | round => computed (Binary64.floor (Value.toFloat (argument args 0) + 0.5))
  | floor => computed (Binary64.floor (Value.toFloat (argument args 0)))
  | ceil => computed (Binary64.ceil (Value.toFloat (argument args 0)))
  | abs => computed (Value.toFloat (argument args 0)).abs
  | min =>
      computed (extremum Binary64.least Binary64.infinity
        (args.map fun arg => Value.toFloat arg.toValue))
  | max =>
      computed (extremum Binary64.greatest (-Binary64.infinity)
        (args.map fun arg => Value.toFloat arg.toValue))
  | stringify => (argument args 0).map fun v => .str v.print

end UiDoc.Script
