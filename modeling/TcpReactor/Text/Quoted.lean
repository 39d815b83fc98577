import TcpReactor.Text.CodePoints

namespace TcpReactor.Text

/-! # Quoted text

Error messages show a text that came from the peer in quotes, so that nothing in it can be mistaken
for the message around it: quotes and backslashes are escaped, the usual controls have their short
forms, and what would not show, or would change the character before it, is written by number.
-/

/-- The number of `c` in lower-case hexadecimal, in the form of an escape. -/
def numberEscape (c : Char) : List Char :=
  ['\\', 'u', '\x7b'] ++ Nat.toDigits 16 c.toNat ++ ['\x7d']

/-- Does `c` show nothing of its own? -/
def isInvisible (c : Char) : Bool := !isPrintable c || isHangulFiller c

/-- Would `c` change the look of the character before it? -/
def joinsPrevious (c : Char) : Bool := isGraphemeExtend c && !isHalfwidthSoundMark c

/-- How `c` appears between the quotes. -/
def escape (c : Char) : List Char :=
  if c = '\x00' then ['\\', '0']
  else if c = '\t' then ['\\', 't']
  else if c = '\r' then ['\\', 'r']
  else if c = '\n' then ['\\', 'n']
  else if c = '"' || c = '\\' then ['\\', c]
  else if joinsPrevious c || isInvisible c then numberEscape c
  else [c]

/-- The text in quotes. -/
def quoted (text : String) : String :=
  .ofList (['"'] ++ text.toList.flatMap escape ++ ['"'])

end TcpReactor.Text
