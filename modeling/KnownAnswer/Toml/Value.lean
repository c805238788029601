/-!
# TOML values

The tree a TOML document stands for.  Floating-point numbers and dates are kept as they were
written: fixtures have no use for what they stand for.
-/

namespace KnownAnswer.Toml

inductive Value where
  | string (text : String)
  | integer (value : Int)
  | float (literal : String)
  | boolean (value : Bool)
  | dateTime (literal : String)
  | array (items : List Value)
  | table (fields : List (String × Value))

/-- The value a key has in a table. -/
def field? (key : String) (fields : List (String × Value)) : Option Value := fields.lookup key

end KnownAnswer.Toml
