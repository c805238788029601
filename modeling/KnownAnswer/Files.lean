import KnownAnswer.Bytes

/-!
# Files

Reading a text file by its path, and the ways in which that fails.  Nothing that is read changes
while a run goes on.
-/

namespace KnownAnswer

/-- Why a file cannot be read as text. -/
inductive ReadFailure
  | notFound
  | isDirectory
  | notDirectory
  | notText
  | other (text : String)
  deriving DecidableEq

def ReadFailure.message : ReadFailure → String
  | .notFound => "No such file or directory (os error 2)"
  | .isDirectory => "Is a directory (os error 21)"
  | .notDirectory => "Not a directory (os error 20)"
  | .notText => "stream did not contain valid UTF-8"
  | .other text => text

/-- What reading a path as text yields. -/
abbrev FileReader := String → Except ReadFailure String

/-- The text that bytes stand for. -/
def decodeText (bytes : ByteArray) : Except ReadFailure String :=
  match String.fromUTF8? bytes with
  | some text => .ok text
  | none => .error .notText

end KnownAnswer
