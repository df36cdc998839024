import ScanBridge.Text.Hexadecimal
import ScanBridge.Text.Unshown

namespace ScanBridge.Text

def quoteChar (c : Char) : String :=
  if c = '\x00' then "\\0"
  else if c = '\t' then "\\t"
  else if c = '\n' then "\\n"
  else if c = '\r' then "\\r"
  else if c = '"' then "\\\""
  else if c = '\\' then "\\\\"
  else if isUnshown c then "\\u\x7b" ++ hexDigits c.toNat ++ "\x7d"
  else c.toString

/-- Text quoted for a message, with a backslash before a quote or a backslash, short escapes for NUL
and the usual blanks, and a number for each character that cannot be seen. -/
def quote (s : String) : String :=
  "\"" ++ String.join (s.toList.map quoteChar) ++ "\""

end ScanBridge.Text
