import BootImage.Text.Hex

/-!
# Control characters

Some controls make a terminal act: bell, backspace, form feed, escape, delete, and the second set of controls
at 0x80.  `withoutControls` writes them out by their code points, so that a text shows and does nothing else;
line feeds, carriage returns and tabs stay.
-/

namespace BootImage

def singleControls : List Char := ['\x07', '\x08', '\x0c', '\x1b', '\x7f']

def isSecondControl (c : Char) : Bool := 0x80 ≤ c.toNat && c.toNat ≤ 0x9F

def spellControl (c : Char) : List Char :=
  if c ∈ singleControls then '\\' :: 'x' :: hexDigits 2 c.toNat
  else if isSecondControl c then ['\\', 'u', '\x7b'] ++ Nat.toDigits 16 c.toNat ++ ['\x7d']
  else [c]

def withoutControls (text : String) : String := String.ofList (text.toList.flatMap spellControl)

end BootImage
