/-! Quoted literals on one line. Tab, carriage return, line feed, quote, backslash and NUL have
short escapes, a special character is written by its number, and every other character stands
for itself. Which characters are special is a parameter: reading a literal back does not depend
on it. -/
namespace RouteForge.Text

def hexDigits (n : Nat) : List Char := Nat.toDigits 16 n

def escape (special : Char → Bool) (c : Char) : List Char :=
  if c = '\x00' then ['\\', '0']
  else if c = '\t' then ['\\', 't']
  else if c = '\r' then ['\\', 'r']
  else if c = '\n' then ['\\', 'n']
  else if c = '"' then ['\\', '"']
  else if c = '\\' then ['\\', '\\']
  else if special c then ['\\', 'u', '{'] ++ hexDigits c.toNat ++ ['}']
  else [c]

def quote (special : Char → Bool) (cs : List Char) : List Char :=
  '"' :: cs.flatMap (escape special) ++ ['"']

end RouteForge.Text
