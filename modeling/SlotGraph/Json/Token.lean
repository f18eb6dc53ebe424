set_option autoImplicit false

/-!
The tokens of a JSON text. Reading JSON is the work of a library on which the program relies, so
this scanner follows the documented format of JSON and no code of the program. It reads one
character after the other and knows only the token that it is in; two tokens with nothing between
them are left to the grammar.
-/

namespace SlotGraph.Json

/-- A character as it stands, or a code unit written as an escape. -/
inductive Piece where
  | char (c : Char)
  | unit (n : Nat)
  deriving DecidableEq, Repr

inductive Token where
  | openBrace
  | closeBrace
  | openBracket
  | closeBracket
  | colon
  | comma
  | text (pieces : List Piece)
  | number (text : List Char)
  | word (text : List Char)
  deriving DecidableEq, Repr

inductive NumberPart where
  | minus
  | zero
  | whole
  | point
  | fraction
  | exponent
  | sign
  | power
  deriving DecidableEq, Repr

namespace NumberPart

def isComplete : NumberPart → Bool
  | .zero | .whole | .fraction | .power => true
  | .minus | .point | .exponent | .sign => false

def ofDigit (c : Char) : Option NumberPart :=
  if c = '0' then some .zero else if c.isDigit then some .whole else none

def afterWhole (c : Char) : Option NumberPart :=
  if c = '.' then some .point else if c = 'e' ∨ c = 'E' then some .exponent else none

/-- The part that a character leads to, or nothing where it does not belong to the number. A zero
in front stands alone. -/
def next? : NumberPart → Char → Option NumberPart
  | .minus, c => ofDigit c
  | .zero, c => afterWhole c
  | .whole, c => if c.isDigit then some .whole else afterWhole c
  | .point, c => if c.isDigit then some .fraction else none
  | .fraction, c =>
    if c.isDigit then some .fraction else if c = 'e' ∨ c = 'E' then some .exponent else none
  | .exponent, c =>
    if c.isDigit then some .power else if c = '+' ∨ c = '-' then some .sign else none
  | .sign, c => if c.isDigit then some .power else none
  | .power, c => if c.isDigit then some .power else none

end NumberPart

/-- The token that the scanner is in, with what it has read of it, the latest first. -/
inductive Scan where
  | idle
  | word (read : List Char)
  | number (part : NumberPart) (read : List Char)
  | text (read : List Piece)
  | escape (read : List Piece)
  | hex (read : List Piece) (count value : Nat)
  deriving DecidableEq, Repr

namespace Scan

def isBlank (c : Char) : Bool := c == ' ' || c == '\t' || c == '\n' || c == '\r'

def hexValue? (c : Char) : Option Nat :=
  if c.isDigit then some (c.toNat - '0'.toNat)
  else if 'a' ≤ c ∧ c ≤ 'f' then some (c.toNat - 'a'.toNat + 10)
  else if 'A' ≤ c ∧ c ≤ 'F' then some (c.toNat - 'A'.toNat + 10)
  else none

def escaped? (c : Char) : Option Char :=
  match c with
  | '"' => some '"'
  | '\\' => some '\\'
  | '/' => some '/'
  | 'b' => some '\x08'
  | 'f' => some '\x0c'
  | 'n' => some '\n'
  | 'r' => some '\r'
  | 't' => some '\t'
  | _ => none

def start (c : Char) : Option (List Token × Scan) :=
  if isBlank c then some ([], .idle)
  else match c with
    | '\x7b' => some ([.openBrace], .idle)
    | '\x7d' => some ([.closeBrace], .idle)
    | '[' => some ([.openBracket], .idle)
    | ']' => some ([.closeBracket], .idle)
    | ':' => some ([.colon], .idle)
    | ',' => some ([.comma], .idle)
    | '"' => some ([], .text [])
    | '-' => some ([], .number .minus ['-'])
    | c =>
      match NumberPart.ofDigit c with
      | some part => some ([], .number part [c])
      | none => if c.isAlpha then some ([], .word [c]) else none

def finish : Scan → Option (List Token)
  | .idle => some []
  | .word read =>
    if read.reverse ∈ ["true".toList, "false".toList, "null".toList]
    then some [.word read.reverse] else none
  | .number part read => if part.isComplete then some [.number read.reverse] else none
  | .text _ | .escape _ | .hex _ _ _ => none

def cut (scan : Scan) (c : Char) : Option (List Token × Scan) := do
  let done ← scan.finish
  let (tokens, next) ← start c
  return (done ++ tokens, next)

def step (scan : Scan) (c : Char) : Option (List Token × Scan) :=
  match scan with
  | .idle => start c
  | .word read => if c.isAlpha then some ([], .word (c :: read)) else scan.cut c
  | .number part read =>
    match part.next? c with
    | some part => some ([], .number part (c :: read))
    | none => scan.cut c
  | .text read =>
    if c = '"' then some ([.text read.reverse], .idle)
    else if c = '\\' then some ([], .escape read)
    else if c.toNat < 0x20 then none
    else some ([], .text (.char c :: read))
  | .escape read =>
    if c = 'u' then some ([], .hex read 0 0)
    else (escaped? c).map fun c => ([], .text (.char c :: read))
  | .hex read count value => do
    let value := 16 * value + (← hexValue? c)
    if count = 3 then return ([], .text (.unit value :: read))
    else return ([], .hex read (count + 1) value)

end Scan

def tokensFrom (scan : Scan) : List Char → Option (List Token)
  | [] => scan.finish
  | c :: rest => do
    let (tokens, next) ← scan.step c
    return tokens ++ (← tokensFrom next rest)

def tokens (s : String) : Option (List Token) := tokensFrom .idle s.toList

end SlotGraph.Json
