import MessageChannel.Text.Combining
import MessageChannel.Text.Digits
import MessageChannel.Text.Ignorable
import MessageChannel.Text.Unprintable

namespace MessageChannel

/-- Whether a code point would not be seen, or not as itself, between quotation marks. -/
def isHidden (code : Nat) : Bool :=
  unprintable.has code || combining.has code || ignorable.has code

/-- A character as it stands between quotation marks. Hidden ones are spelled out. -/
def escapeChar (c : Char) : String :=
  match c with
  | '"' => "\\\""
  | '\\' => "\\\\"
  | '\t' => "\\t"
  | '\n' => "\\n"
  | '\r' => "\\r"
  | '\x00' => "\\0"
  | c =>
      if isHidden c.toNat then "\\u\x7b" ++ hexDigits c.toNat ++ "\x7d"
      else c.toString

def quoted (s : String) : String := "\"" ++ String.join (s.toList.map escapeChar) ++ "\""

end MessageChannel
