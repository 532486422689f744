import OverTheAir.Bytes

/-!
# Json/Quoted — a text in quotes

Quotes, backslashes and control characters are escaped, the common ones by a letter; all other
characters stand for themselves.
-/

namespace OverTheAir.Json

/-- A character as it stands between quotes. -/
def quoteChar (c : Char) : String :=
  if c == '"' then "\\\""
  else if c == '\\' then "\\\\"
  else if c == '\n' then "\\n"
  else if c == '\r' then "\\r"
  else if c == '\t' then "\\t"
  else if c.toNat == 0x08 then "\\b"
  else if c.toNat == 0x0C then "\\f"
  else if c.toNat < 0x20 then "\\u00" ++ Bytes.hexByte (UInt8.ofNat c.toNat)
  else String.singleton c

/-- A text in quotes. -/
def quote (s : String) : String :=
  "\"" ++ String.join (s.toList.map quoteChar) ++ "\""

end OverTheAir.Json
