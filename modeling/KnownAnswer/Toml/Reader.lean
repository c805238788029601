/-!
# Readers

A reader takes the front of a text and leaves the rest.  Text that is no TOML has one answer,
whatever is wrong with it, so failing carries no reason.
-/

namespace KnownAnswer.Toml

abbrev Reader := StateT (List Char) Option

namespace Reader

variable {α : Type}

def peek : Reader (Option Char) := fun text => some (text.head?, text)

/-- Whether the text begins with the given characters; nothing is taken. -/
def beginsWith (start : List Char) : Reader Bool := fun text => some (start.isPrefixOf text, text)

/-- Takes one character that satisfies a test. -/
def satisfy (test : Char → Bool) : Reader Char
  | [] => none
  | c :: rest => if test c then some (c, rest) else none

def char (c : Char) : Reader Unit := do
  let _ ← satisfy (· == c)

/-- Takes all of the given characters. -/
def literal (expected : List Char) : Reader Unit := fun text =>
  if expected.isPrefixOf text then some ((), text.drop expected.length) else none

/-- Takes the given character if it comes next, and tells whether it did. -/
def optional (c : Char) : Reader Bool
  | [] => some (false, [])
  | d :: rest => some (if d = c then (true, rest) else (false, d :: rest))

/-- Takes characters as long as they satisfy a test. -/
def takeWhile (test : Char → Bool) : Reader (List Char) := fun text => some (text.span test)

/-- Takes exactly so many characters that satisfy a test. -/
def exactly (count : Nat) (test : Char → Bool) : Reader (List Char) := fun text =>
  let taken := text.take count
  if taken.length = count ∧ taken.all test then some (taken, text.drop count) else none

/-- Repeats a reader of elements, each but the last followed by `separate`, which tells whether a
further element comes.  Every element takes at least one character, so `fuel` may be the length of
the text; `done` holds the elements read so far, the last one first. -/
def elementsFrom (element : Reader α) (separate : Reader Bool) :
    (fuel : Nat) → (done : List α) → Reader (List α)
  | 0, _ => failure
  | fuel + 1, done => do
    let item ← element
    if ← separate then
      elementsFrom element separate fuel (item :: done)
    else
      return (item :: done).reverse

def elements (element : Reader α) (separate : Reader Bool) : Reader (List α) := do
  elementsFrom element separate ((← get).length) []

end Reader

end KnownAnswer.Toml
