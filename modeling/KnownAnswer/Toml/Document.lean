import KnownAnswer.Toml.DateTime
import KnownAnswer.Toml.Layout

/-!
# TOML documents

Values, the lines of a document, and the tree that its lines build.
-/

namespace KnownAnswer.Toml

open Reader

/-! ## Values -/

/-- The items of an array whose bracket was taken; a comma may follow the last one. -/
def arrayRest (item : Reader Value) : Reader Value := do
  blankLines
  if ← optional ']' then
    return .array []
  else
    let separate : Reader Bool := do
      blankLines
      if ← optional ',' then
        blankLines
        return (← peek) != some ']'
      else
        return false
    let items ← elements item separate
    char ']'
    return .array items

/-- A key and its value. -/
def keyValue (item : Reader Value) : Reader ((List String × String) × Value) := do
  let key ← dottedKey
  char '='
  spaces
  let value ← item
  return (key, value)

/-- The fields of an inline table whose brace was taken: on one line, and without a comma after
the last one. -/
def inlineTableRest (item : Reader Value) : Reader Value := do
  spaces
  if ← optional '\x7d' then
    return .table []
  else
    let separate : Reader Bool := do
      spaces
      optional ','
    let pairs ← elements (keyValue item) separate
    char '\x7d'
    let fields ← (pairs.foldlM
      (fun fields ((path, key), value) => Fields.addValue path key value fields) [] : Option Fields)
    return .table (fieldsToValues fields)

/-- A value that holds no others. -/
def scalar : Reader Value := do
  match ← peek with
  | some '"' | some '\'' => return .string (← quotedString)
  | some 't' =>
    literal "true".toList
    return .boolean true
  | some 'f' =>
    literal "false".toList
    return .boolean false
  | _ => if looksLikeDateTime (← get) then dateTime else number

/-- A value in which others are nested at most so deep. -/
def value : (depth : Nat) → Reader Value
  | 0 => scalar
  | depth + 1 => do
    match ← peek with
    | some '[' =>
      char '['
      arrayRest (value depth)
    | some '\x7b' =>
      char '\x7b'
      inlineTableRest (value depth)
    | _ => scalar

/-! ## Lines -/

/-- What a line says. -/
inductive Line where
  | field (path : List String) (key : String) (value : Value)
  | table (path : List String) (key : String)
  | arrayElement (path : List String) (key : String)

/-- The next line that says something, or none at the end of the text.  Each turn takes a line, so
`fuel` may be the length of the text. -/
def lineFrom : (fuel : Nat) → Reader (Option Line)
  | 0 => failure
  | fuel + 1 => do
    spaces
    match ← get with
    | [] => return none
    | '#' :: _ | '\n' :: _ | '\r' :: _ =>
      lineEnd
      lineFrom fuel
    | '[' :: '[' :: _ =>
      literal ['[', '[']
      let (path, key) ← dottedKey
      literal [']', ']']
      lineEnd
      return some (.arrayElement path key)
    | '[' :: _ =>
      char '['
      let (path, key) ← dottedKey
      char ']'
      lineEnd
      return some (.table path key)
    | _ =>
      let ((path, key), item) ← keyValue (value (depthLimit - 1))
      lineEnd
      return some (.field path key item)

/-- Where a document stands after some of its lines: all that was written, and the table that the
next fields belong to. -/
structure Progress where
  root : Fields := []
  current : Option (List String × String) := none

/-- Adds what a line says. -/
def Progress.add (progress : Progress) : Line → Option Progress
  | .field path key value => do
    let root ← match progress.current with
      | none => Fields.addValue path key value progress.root
      | some (parents, table) =>
        Fields.editAt .implied (fun _ fields => Fields.addValue path key value fields)
          (parents ++ [table]) .header progress.root
    return { progress with root }
  | .table path key => do
    return { root := ← Fields.addTable path key progress.root, current := some (path, key) }
  | .arrayElement path key => do
    return { root := ← Fields.addToArray path key progress.root, current := some (path, key) }

/-- Reads lines to the end of the text, of which there are at most `fuel`. -/
def linesFrom : (fuel : Nat) → Progress → List Char → Option Progress
  | 0, _, _ => none
  | fuel + 1, progress, text => do
    match ← (lineFrom (fuel + 1)).run text with
    | (none, _) => return progress
    | (some line, rest) => linesFrom fuel (← progress.add line) rest

/-- Reads a document; a byte order mark before it is skipped. -/
def document? (text : String) : Option (List (String × Value)) := do
  let text := match text.toList with
    | '\uFEFF' :: rest => rest
    | text => text
  let progress ← linesFrom (text.length + 1) {} text
  return fieldsToValues progress.root

end KnownAnswer.Toml
