import AtariTos.Text.Classes
import AtariTos.Text.Hex

namespace AtariTos

namespace Quoted

def codePoint (c : Char) : String :=
  "\\u\x7b" ++ hex 1 c.toNat ++ "\x7d"

/-- A character between double quotes; `marks` are written behind a backslash. -/
def escape (marks : List Char) (c : Char) : String :=
  if c = '\x00' then "\\0"
  else if c = '\t' then "\\t"
  else if c = '\n' then "\\n"
  else if c = '\r' then "\\r"
  else if c ∈ marks then "\\" ++ c.toString
  else if isCombining c || !isPrintable c then codePoint c
  else c.toString

def quote (marks : List Char) (text : String) : String :=
  "\"" ++ String.join (text.toList.map (escape marks)) ++ "\""

end Quoted

def quotedText (text : String) : String :=
  Quoted.quote ['\\', '"'] text

def quotedPath (path : String) : String :=
  Quoted.quote ['\\', '"', '\''] path

end AtariTos
