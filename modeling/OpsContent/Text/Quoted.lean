import OpsContent.Text.Printable

/-!
# Quoted text in messages

A message that reports an unexpected text shows it between double quotes, with the quote, the
backslash and every character without a visible form written as an escape.
-/

namespace OpsContent.Text

def hexDigits (number : Nat) : List Char :=
  Nat.toDigits 16 number

/-- A character as it stands between the quotes. -/
def quotedChar (char : Char) : List Char :=
  if char == '\n' then ['\\', 'n']
  else if char == '\r' then ['\\', 'r']
  else if char == '\t' then ['\\', 't']
  else if char == '"' then ['\\', '"']
  else if char == '\\' then ['\\', '\\']
  else if char.toNat == 0 then ['\\', '0']
  else if isPrintable char then [char]
  else ['\\', 'u', '\x7b'] ++ hexDigits char.toNat ++ ['\x7d']

/-- A text in quotes, with what is not printable escaped. -/
def quoted (text : String) : String :=
  String.ofList ('"' :: text.toList.flatMap quotedChar ++ ['"'])

end OpsContent.Text
