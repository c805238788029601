import KnownAnswer.Toml.Reader

/-!
# Blanks, comments, strings and keys

The parts of TOML in which nearly every character is allowed.  Control characters other than tab
are not, and a carriage return counts only as the first half of a line end.
-/

namespace KnownAnswer.Toml

open Reader

/-! ## Blanks and line ends -/

def isSpace (c : Char) : Bool := c == ' ' || c == '\t'

/-- Characters that may stand in comments and strings: no control character except tab. -/
def isPlain (c : Char) : Bool := c == '\t' || (0x20 ≤ c.toNat && c.toNat != 0x7F)

def spaces : Reader Unit := do
  let _ ← takeWhile isSpace

/-- A line feed, alone or after a carriage return. -/
def newline : Reader Unit
  | '\n' :: rest => some ((), rest)
  | '\r' :: '\n' :: rest => some ((), rest)
  | _ => none

/-- A comment up to the end of its line, if there is one. -/
def comment : Reader Unit := do
  if ← optional '#' then
    let _ ← takeWhile isPlain

/-- What may follow on a line that is complete: blanks, a comment, and the end of the line or of
the text. -/
def lineEnd : Reader Unit := do
  spaces
  comment
  match ← peek with
  | none => return
  | some _ => newline

/-- Drops blanks, line ends and comments; `inComment` says whether the text begins inside of one.
A comment has to be followed by a line end. -/
def dropBlankLines (inComment : Bool) : List Char → Option (List Char)
  | '\n' :: rest => dropBlankLines false rest
  | '\r' :: '\n' :: rest => dropBlankLines false rest
  | c :: rest =>
    if inComment then
      if isPlain c then dropBlankLines true rest else none
    else if isSpace c then
      dropBlankLines false rest
    else if c == '#' then
      dropBlankLines true rest
    else
      some (c :: rest)
  | [] => if inComment then none else some []

def blankLines : Reader Unit := fun text => (dropBlankLines false text).map fun rest => ((), rest)

/-! ## Characters of strings -/

/-- The character a one-letter escape stands for. -/
def escape? : Char → Option Char
  | 'b' => some '\x08'
  | 't' => some '\t'
  | 'n' => some '\n'
  | 'f' => some '\x0c'
  | 'r' => some '\r'
  | '"' => some '"'
  | '\\' => some '\\'
  | _ => none

/-- The value of a hexadecimal digit of either case. -/
def hexValue? (c : Char) : Option Nat :=
  if '0' ≤ c ∧ c ≤ '9' then some (c.toNat - 0x30)
  else if 'a' ≤ c ∧ c ≤ 'f' then some (c.toNat - 0x61 + 10)
  else if 'A' ≤ c ∧ c ≤ 'F' then some (c.toNat - 0x41 + 10)
  else none

/-- The character whose code point is written in hexadecimal; surrogates are none. -/
def scalar? (digits : List Char) : Option Char := do
  let code ← digits.foldlM (fun n c => (hexValue? c).map (16 * n + ·)) 0
  if h : code.isValidChar then some (Char.ofNatAux code h) else none

/-! ## One-line strings -/

/-- The rest of a string in double quotes, up to and with the closing one.  `done` holds its
characters so far, the last one first. -/
def basicRest (done : List Char) : List Char → Option (String × List Char)
  | '"' :: rest => some (String.ofList done.reverse, rest)
  | '\\' :: 'u' :: a :: b :: c :: d :: rest => do
    basicRest ((← scalar? [a, b, c, d]) :: done) rest
  | '\\' :: 'U' :: a :: b :: c :: d :: e :: f :: g :: h :: rest => do
    basicRest ((← scalar? [a, b, c, d, e, f, g, h]) :: done) rest
  | '\\' :: c :: rest => do basicRest ((← escape? c) :: done) rest
  | c :: rest => if isPlain c && c != '\\' then basicRest (c :: done) rest else none
  | [] => none

/-- The rest of a string in single quotes, in which nothing is escaped. -/
def literalRest (done : List Char) : List Char → Option (String × List Char)
  | '\'' :: rest => some (String.ofList done.reverse, rest)
  | c :: rest => if isPlain c then literalRest (c :: done) rest else none
  | [] => none

/-! ## Strings of several lines -/

/-- Where the reader stands after a backslash: nowhere near one, on its line with nothing but
blanks after it, or on the following lines, whose leading blanks are dropped. -/
inductive Continuation
  | none
  | sameLine
  | nextLines

/-- The rest of a string in triple double quotes.  Up to two quotes may stand right before the
closing ones. -/
def multilineBasicRest (continuation : Continuation) (done : List Char) :
    List Char → Option (String × List Char)
  | '\r' :: '\n' :: rest =>
    match continuation with
    | .none => multilineBasicRest .none ('\n' :: done) rest
    | _ => multilineBasicRest .nextLines done rest
  | '\n' :: rest =>
    match continuation with
    | .none => multilineBasicRest .none ('\n' :: done) rest
    | _ => multilineBasicRest .nextLines done rest
  | ' ' :: rest =>
    match continuation with
    | .none => multilineBasicRest .none (' ' :: done) rest
    | _ => multilineBasicRest continuation done rest
  | '\t' :: rest =>
    match continuation with
    | .none => multilineBasicRest .none ('\t' :: done) rest
    | _ => multilineBasicRest continuation done rest
  | c :: rest =>
    match continuation with
    | .sameLine => none
    | _ =>
      match c, rest with
      | '"', '"' :: '"' :: '"' :: '"' :: rest =>
        some (String.ofList ('"' :: '"' :: done).reverse, rest)
      | '"', '"' :: '"' :: '"' :: rest => some (String.ofList ('"' :: done).reverse, rest)
      | '"', '"' :: '"' :: rest => some (String.ofList done.reverse, rest)
      | '\\', 'u' :: a :: b :: c :: d :: rest => do
        multilineBasicRest .none ((← scalar? [a, b, c, d]) :: done) rest
      | '\\', 'U' :: a :: b :: c :: d :: e :: f :: g :: h :: rest => do
        multilineBasicRest .none ((← scalar? [a, b, c, d, e, f, g, h]) :: done) rest
      | '\\', c :: rest =>
        match escape? c with
        | some c => multilineBasicRest .none (c :: done) rest
        | none => multilineBasicRest .sameLine done (c :: rest)
      | '\\', [] => none
      | c, rest => if isPlain c then multilineBasicRest .none (c :: done) rest else none
  | [] => none

/-- The rest of a string in triple single quotes. -/
def multilineLiteralRest (done : List Char) : List Char → Option (String × List Char)
  | '\r' :: '\n' :: rest => multilineLiteralRest ('\n' :: done) rest
  | '\n' :: rest => multilineLiteralRest ('\n' :: done) rest
  | '\'' :: '\'' :: '\'' :: '\'' :: '\'' :: rest =>
    some (String.ofList ('\'' :: '\'' :: done).reverse, rest)
  | '\'' :: '\'' :: '\'' :: '\'' :: rest => some (String.ofList ('\'' :: done).reverse, rest)
  | '\'' :: '\'' :: '\'' :: rest => some (String.ofList done.reverse, rest)
  | c :: rest => if isPlain c then multilineLiteralRest (c :: done) rest else none
  | [] => none

/-- Drops one line end, which may stand right after the quotes that open several lines. -/
def dropNewline : List Char → List Char
  | '\n' :: rest => rest
  | '\r' :: '\n' :: rest => rest
  | text => text

/-- A string in quotes of any of the four kinds. -/
def quotedString : Reader String
  | '"' :: '"' :: '"' :: rest => multilineBasicRest .none [] (dropNewline rest)
  | '"' :: rest => basicRest [] rest
  | '\'' :: '\'' :: '\'' :: rest => multilineLiteralRest [] (dropNewline rest)
  | '\'' :: rest => literalRest [] rest
  | _ => none

/-! ## Keys -/

def isBareKeyChar (c : Char) : Bool := c.isAlphanum || c == '-' || c == '_'

/-- One part of a key: bare, or a one-line string. -/
def simpleKey : Reader String
  | '"' :: rest => basicRest [] rest
  | '\'' :: rest => literalRest [] rest
  | text =>
    match text.span isBareKeyChar with
    | ([], _) => none
    | (bare, rest) => some (String.ofList bare, rest)

/-- Keys have fewer parts than this, and values are nested less deep. -/
def depthLimit : Nat := 80

/-- A key with all its dotted parts, the last of them apart. -/
def dottedKey : Reader (List String × String) := do
  let part : Reader String := do
    spaces
    let name ← simpleKey
    spaces
    return name
  let parts ← elementsFrom part (optional '.') (depthLimit - 1) []
  match parts.getLast? with
  | some last => return (parts.dropLast, last)
  | none => failure

end KnownAnswer.Toml
