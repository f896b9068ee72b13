import BootImage.Text.Hidden

/-!
# Quoted text

A text that comes from outside is quoted in double quotes.  Quotes and backslashes are escaped by a backslash,
the common controls by their letters, and other characters that do not show by their code point.
-/

namespace BootImage

def escapeChar (c : Char) : List Char :=
  match c with
  | '\x00' => ['\\', '0']
  | '\t' => ['\\', 't']
  | '\r' => ['\\', 'r']
  | '\n' => ['\\', 'n']
  | '"' => ['\\', '"']
  | '\\' => ['\\', '\\']
  | c => if isHidden c then ['\\', 'u', '\x7b'] ++ Nat.toDigits 16 c.toNat ++ ['\x7d'] else [c]

def quoted (text : String) : String := String.ofList (['"'] ++ text.toList.flatMap escapeChar ++ ['"'])

end BootImage
