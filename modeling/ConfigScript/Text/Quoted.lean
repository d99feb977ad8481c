import ConfigScript.Text.Printable

/-!
# Quoted texts

A text in double quotes on one line. The quote, the backslash, tab, carriage return, line feed and
the null character have short escapes; other characters that cannot be shown by themselves are
given by their code points.
-/

namespace ConfigScript.Text

/-- A character as it stands between the quotes. -/
def quoteChar (c : Char) : List Char :=
  if c = '"' then ['\\', '"']
  else if c = '\\' then ['\\', '\\']
  else if c = '\t' then ['\\', 't']
  else if c = '\r' then ['\\', 'r']
  else if c = '\n' then ['\\', 'n']
  else if c = '\x00' then ['\\', '0']
  else if isPrintable c then [c]
  else ['\\', 'u', '\x7b'] ++ Nat.toDigits 16 c.toNat ++ ['\x7d']

def quoted (text : String) : String :=
  String.ofList ('"' :: text.toList.flatMap quoteChar ++ ['"'])

end ConfigScript.Text
