import KnownAnswer.Hex

/-!
# Quoted characters

A character between single quotes, written so that it can be seen: what has no glyph is given by
an escape.
-/

namespace KnownAnswer.Text

/-- A number in hexadecimal without leading zeros. -/
def hexNumeral (n : Nat) : String := String.ofList (Nat.toDigits 16 n)

/-- Whether a Latin-1 code stands for a character with a glyph: neither a control character nor a
no-break space nor a soft hyphen. -/
def hasGlyph (code : UInt8) : Bool :=
  (0x20 ≤ code && code ≤ 0x7E) || (0xA1 ≤ code && code != 0xAD)

/-- The character with a Latin-1 code, as it stands between single quotes. -/
def quotedBody (code : UInt8) : String :=
  if code = 0x00 then "\\0"
  else if code = 0x09 then "\\t"
  else if code = 0x0A then "\\n"
  else if code = 0x0D then "\\r"
  else if code = 0x27 then "\\'"
  else if code = 0x5C then "\\\\"
  else if hasGlyph code then String.singleton (Char.ofNat code.toNat)
  else "\\u\x7b" ++ hexNumeral code.toNat ++ "\x7d"

def quoted (code : UInt8) : String := "'" ++ quotedBody code ++ "'"

end KnownAnswer.Text
