import SlotGraph.Text.Unprintable
import SlotGraph.Text.Extender
set_option autoImplicit false

namespace SlotGraph.Text

def lowerHex (n : Nat) : List Char := Nat.toDigits 16 n

def escapeCode (c : Char) : List Char :=
  ['\\', 'u', '\x7b'] ++ lowerHex c.toNat ++ ['\x7d']

def quoteChar (c : Char) : List Char :=
  if c = '"' then ['\\', '"']
  else if c = '\\' then ['\\', '\\']
  else if c = '\x00' then ['\\', '0']
  else if c = '\t' then ['\\', 't']
  else if c = '\r' then ['\\', 'r']
  else if c = '\n' then ['\\', 'n']
  else if isExtender c || isUnprintable c then escapeCode c
  else [c]

def quote (s : String) : String := String.ofList ('"' :: s.toList.flatMap quoteChar ++ ['"'])

end SlotGraph.Text
