import SlotGraph.Json.Token
set_option autoImplicit false

/-!
JSON values, by the grammar of the documented format: like the scanner, this stands for the library
that reads JSON, not for code of the program. Numbers and texts stay as they are written, and
members stay in order and may repeat: what they mean is for their reader to decide.
-/

namespace SlotGraph.Json

inductive Value where
  | word (text : List Char)
  | number (text : List Char)
  | text (pieces : List Piece)
  | list (items : List Value)
  | object (members : List (List Piece × Value))
  deriving Repr

/-- A container part way through, with what it holds so far, the latest first. -/
inductive Frame where
  | list (done : List Value)
  | object (done : List (List Piece × Value)) (name : List Piece)
  deriving Repr

inductive Expect where
  | value
  | valueOrClose
  | nameOrClose (done : List (List Piece × Value))
  | name (done : List (List Piece × Value))
  | colon (done : List (List Piece × Value)) (name : List Piece)
  | after (v : Value)
  deriving Repr

def scalar? : Token → Option Value
  | .word w => some (.word w)
  | .number n => some (.number n)
  | .text ps => some (.text ps)
  | _ => none

def enter (frames : List Frame) : Token → Option (Expect × List Frame)
  | .openBracket => some (.valueOrClose, frames)
  | .openBrace => some (.nameOrClose [], frames)
  | t => (scalar? t).map fun v => (.after v, frames)

/-- One token of a value. An open list has its frame pushed when its first item begins. -/
def advance : Expect → List Frame → Token → Option (Expect × List Frame)
  | .value, frames, t => enter frames t
  | .valueOrClose, frames, .closeBracket => some (.after (.list []), frames)
  | .valueOrClose, frames, t => enter (.list [] :: frames) t
  | .nameOrClose done, frames, .closeBrace => some (.after (.object done.reverse), frames)
  | .nameOrClose done, frames, .text ps => some (.colon done ps, frames)
  | .name done, frames, .text ps => some (.colon done ps, frames)
  | .colon done ps, frames, .colon => some (.value, .object done ps :: frames)
  | .after v, .list done :: frames, .comma => some (.value, .list (v :: done) :: frames)
  | .after v, .list done :: frames, .closeBracket =>
    some (.after (.list (v :: done).reverse), frames)
  | .after v, .object done ps :: frames, .comma => some (.name ((ps, v) :: done), frames)
  | .after v, .object done ps :: frames, .closeBrace =>
    some (.after (.object ((ps, v) :: done).reverse), frames)
  | _, _, _ => none

def valueFrom : Expect → List Frame → List Token → Option Value
  | .after v, [], [] => some v
  | _, _, [] => none
  | expect, frames, t :: rest =>
    match advance expect frames t with
    | some (expect, frames) => valueFrom expect frames rest
    | none => none

def Value.read? (s : String) : Option Value := do valueFrom .value [] (← tokens s)

end SlotGraph.Json
