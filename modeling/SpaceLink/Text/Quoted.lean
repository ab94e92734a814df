import SpaceLink.Text.Numeral
import SpaceLink.Text.Visible

/-! # Quoted text

Text between double quotes in which every character shows: quotes and backslashes have a backslash
in front, and characters that would not show are written by name or by number.
-/
namespace SpaceLink.Text

def escaped (c : Char) : List Char :=
  if c = '"' then ['\\', '"']
  else if c = '\\' then ['\\', '\\']
  else if c = '\x00' then ['\\', '0']
  else if c = '\t' then ['\\', 't']
  else if c = '\n' then ['\\', 'n']
  else if c = '\r' then ['\\', 'r']
  else if showsPlainly c then [c]
  else ['\\', 'u', '\x7b'] ++ hexDigits false c.toNat ++ ['\x7d']

def quoted (text : String) : String :=
  String.ofList ('"' :: text.toList.flatMap escaped ++ ['"'])

end SpaceLink.Text
