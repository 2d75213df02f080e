import IndexAdvisor.Text.Visible

/-!
# Settings quoted in messages

A message that quotes what the user wrote shows it between double quotes. Quotes, backslashes and
the usual controls have two-character escapes; any other character that is not visible by itself is
written by its code point in hexadecimal.

Models how the messages of `validate` quote a value.
-/

namespace IndexAdvisor

/-- The escape of one character inside a quoted setting. -/
def escapeChar (c : Char) : List Char :=
  if c = Char.ofNat 0 then ['\\', '0']
  else if c = '\t' then ['\\', 't']
  else if c = '\r' then ['\\', 'r']
  else if c = '\n' then ['\\', 'n']
  else if c = '\\' || c = '"' then ['\\', c]
  else if isVisible c then [c]
  else ['\\', 'u', '{'] ++ Nat.toDigits 16 c.toNat ++ ['}']

/-- A setting between double quotes, with everything escaped that does not show itself. -/
def quoteSetting (s : String) : String :=
  String.ofList ('"' :: (s.toList.flatMap escapeChar ++ ['"']))

end IndexAdvisor
