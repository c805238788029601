import KnownAnswer.Toml.Value

/-!
# Tables under construction

A table may be written in pieces: by a header, by headers of tables inside it, and by dotted keys.
Which piece came first decides what may still be added, so every table remembers how it came to
be until the document is complete.
-/

namespace KnownAnswer.Toml

/-- How a table came to be. -/
inductive Origin
  /-- by a header of its own, or as an element of an array of tables -/
  | header
  /-- by the header of a table inside it -/
  | implied
  /-- by a dotted key -/
  | dotted
  deriving DecidableEq

inductive Entry where
  /-- a value that was written in one piece, inline tables included -/
  | value (value : Value)
  | table (origin : Origin) (fields : List (String × Entry))
  /-- an array of tables: the one that is written to, and those before it, the last one first -/
  | tables (latest : List (String × Entry)) (earlier : List (List (String × Entry)))

abbrev Fields := List (String × Entry)

/-! ## Completion -/

mutual

/-- The value an entry stands for when the document is complete. -/
def Entry.toValue : Entry → Value
  | .value value => value
  | .table _ fields => .table (fieldsToValues fields)
  | .tables latest earlier =>
    .array (tablesToValues [] earlier ++ [.table (fieldsToValues latest)])

def fieldsToValues : Fields → List (String × Value)
  | [] => []
  | (key, entry) :: rest => (key, entry.toValue) :: fieldsToValues rest

/-- The tables of a list in reverse, before `done`. -/
def tablesToValues (done : List Value) : List Fields → List Value
  | [] => done
  | fields :: rest => tablesToValues (.table (fieldsToValues fields) :: done) rest

end

/-! ## Additions -/

namespace Fields

def add (key : String) (entry : Entry) (fields : Fields) : Fields := fields ++ [(key, entry)]

def replace (key : String) (entry : Entry) (fields : Fields) : Fields :=
  fields.map fun (k, e) => if k = key then (k, entry) else (k, e)

/-- Edits the table that a path leads to, with what is known of its origin.  Tables missing on the
way are made, by way of a header or of a dotted key as `via` says; an array of tables leads to its
latest one; a dotted key does not lead through a table that has a header. -/
def editAt (via : Origin) (edit : Origin → Fields → Option Fields) :
    (path : List String) → Origin → Fields → Option Fields
  | [], origin, fields => edit origin fields
  | key :: path, _, fields =>
    match fields.lookup key with
    | none => do
      let inner ← editAt via edit path via []
      return fields.add key (.table via inner)
    | some (.value _) => none
    | some (.tables latest earlier) => do
      let latest ← editAt via edit path .header latest
      return fields.replace key (.tables latest earlier)
    | some (.table origin inner) =>
      if via = .dotted ∧ origin = .header then
        none
      else do
        let inner ← editAt via edit path origin inner
        return fields.replace key (.table origin inner)

/-- Adds a value under a key that may be dotted.  The table that a dotted key leads to has to be
one that dotted keys made. -/
def addValue (path : List String) (key : String) (value : Value) (fields : Fields) :
    Option Fields :=
  let insert (origin : Origin) (fields : Fields) : Option Fields :=
    if path ≠ [] ∧ origin ≠ .dotted then none
    else
      match fields.lookup key with
      | none => some (fields.add key (.value value))
      | some _ => none
  editAt .dotted insert path .header fields

/-- Adds a table by its header; a table that was only implied so far gets it too. -/
def addTable (path : List String) (key : String) (fields : Fields) : Option Fields :=
  let insert (_ : Origin) (fields : Fields) : Option Fields :=
    match fields.lookup key with
    | none => some (fields.add key (.table .header []))
    | some (.table .implied inner) => some (fields.replace key (.table .header inner))
    | some _ => none
  editAt .implied insert path .header fields

/-- Adds a further table to an array of tables. -/
def addToArray (path : List String) (key : String) (fields : Fields) : Option Fields :=
  let insert (_ : Origin) (fields : Fields) : Option Fields :=
    match fields.lookup key with
    | none => some (fields.add key (.tables [] []))
    | some (.tables latest earlier) =>
      some (fields.replace key (.tables [] (latest :: earlier)))
    | some _ => none
  editAt .implied insert path .header fields

end Fields

end KnownAnswer.Toml
