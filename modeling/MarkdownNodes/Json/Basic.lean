import MarkdownNodes.Json.Shortest
import MarkdownNodes.Text.Quoted

/-! JSON values. A number is an integer if it is written without point and exponent and fits 64 bits,
signed or unsigned; every other number is a floating point number. The fields of an object keep their
order and their repetitions, which a reader may object to. -/

namespace MarkdownNodes

inductive Json where
  | null
  | bool (b : Bool)
  | int (n : Int)
  | float (x : Float)
  | str (s : String)
  | arr (elems : List Json)
  | obj (fields : List (String × Json))

namespace Json

/-- What shows of a value from outside: a scalar is shown whole, a container by its kind alone. -/
inductive Shape where
  | null
  | bool (b : Bool)
  | int (n : Int)
  | float (x : Float)
  | str (s : String)
  | arr
  | obj
  deriving DecidableEq

def shape : Json → Shape
  | .null => .null
  | .bool b => .bool b
  | .int n => .int n
  | .float x => .float x
  | .str s => .str s
  | .arr _ => .arr
  | .obj _ => .obj

/-- The words for a value in a message. -/
def Shape.describe : Shape → String
  | .null => "null"
  | .bool b => "boolean `" ++ toString b ++ "`"
  | .int n => "integer `" ++ toString n ++ "`"
  | .float x => "floating point `" ++ Shortest.text x ++ "`"
  | .str s => "string " ++ Text.quoted s
  | .arr => "sequence"
  | .obj => "map"

end MarkdownNodes.Json
