import DecisionModel.Json.Written

/-!
# Reading JSON text

Both stages are folds of a step function, over the characters into tokens and over the tokens into
a tree, so neither needs a bound on its run. The tree stage keeps the open arrays and objects on a
stack. How deep they may be nested matters only for the values that count.
-/

namespace DecisionModel.Json

/-! ## Tokens -/

inductive Token where
  | openArray
  | closeArray
  | openObject
  | closeObject
  | colon
  | comma
  /-- A string, a number, a boolean or null. -/
  | scalar (value : Written)

/-- Where the lexer stands. The characters of an unfinished token are kept in reverse. -/
inductive LexMode where
  | between
  | bare (reversed : List Char)
  | quoted (reversed : List Char) (escaped : Bool)

structure Lexer where
  mode : LexMode
  reversed : List Token

/-- The token of characters that stand without quotes. -/
def bareToken? (cs : List Char) : Option Token :=
  if cs = ['n', 'u', 'l', 'l'] then some (.scalar .null)
  else if cs = ['t', 'r', 'u', 'e'] then some (.scalar (.bool true))
  else if cs = ['f', 'a', 'l', 's', 'e'] then some (.scalar (.bool false))
  else (numberParts? cs).map fun parts => .scalar (.number parts)

def isBare (c : Char) : Bool := c.isAlphanum || c == '+' || c == '-' || c == '.'

def isSpace (c : Char) : Bool := c == ' ' || c == '\t' || c == '\n' || c == '\x0d'

/-- A character that stands between two tokens or begins one. -/
def Lexer.begin (l : Lexer) (c : Char) : Option Lexer :=
  let push (t : Token) : Option Lexer := some ⟨.between, t :: l.reversed⟩
  if isSpace c then some ⟨.between, l.reversed⟩
  else match c with
    | '[' => push .openArray
    | ']' => push .closeArray
    | '\x7b' => push .openObject
    | '\x7d' => push .closeObject
    | ':' => push .colon
    | ',' => push .comma
    | '"' => some ⟨.quoted [] false, l.reversed⟩
    | c => if isBare c then some ⟨.bare [c], l.reversed⟩ else none

def Lexer.step (l : Lexer) (c : Char) : Option Lexer :=
  match l.mode with
  | .between => l.begin c
  | .bare cs =>
    if isBare c then some { l with mode := .bare (c :: cs) }
    else do
      let token ← bareToken? cs.reverse
      Lexer.begin ⟨.between, token :: l.reversed⟩ c
  | .quoted cs true => some { l with mode := .quoted (c :: cs) false }
  | .quoted cs false =>
    if c == '\\' then some { l with mode := .quoted (c :: cs) true }
    else if c == '"' then
      if isWellEscaped cs.reverse then
        some ⟨.between, .scalar (.string cs.reverse) :: l.reversed⟩
      else none
    else if c < ' ' then none
    else some { l with mode := .quoted (c :: cs) false }

def tokens? (cs : List Char) : Option (List Token) := do
  let l ← cs.foldlM Lexer.step ⟨.between, []⟩
  match l.mode with
  | .between => some l.reversed.reverse
  | .bare rest => some ((← bareToken? rest.reverse) :: l.reversed).reverse
  | .quoted _ _ => none

/-! ## Trees -/

/-- An open array or object, its members in reverse. An object remembers the name whose value is
being read. -/
inductive Open where
  | array (reversed : List Written)
  | object (reversed : List (List Char × Written)) (name : List Char)

/-- What may come next. -/
inductive Expected where
  | value
  | valueOrClose
  | name
  | nameOrClose
  | colon
  | commaOrClose
  | nothing (result : Written)

structure Builder where
  stack : List Open
  expected : Expected

/-- Puts a finished value where it belongs. -/
def Builder.finish (stack : List Open) (value : Written) : Builder :=
  match stack with
  | [] => ⟨[], .nothing value⟩
  | .array items :: rest => ⟨.array (value :: items) :: rest, .commaOrClose⟩
  | .object fields name :: rest => ⟨.object ((name, value) :: fields) name :: rest, .commaOrClose⟩

def Builder.step (b : Builder) (token : Token) : Option Builder :=
  match b.expected, token, b.stack with
  | .value, .scalar v, stack => some (.finish stack v)
  | .valueOrClose, .scalar v, stack => some (.finish stack v)
  | .value, .openArray, stack => some ⟨.array [] :: stack, .valueOrClose⟩
  | .valueOrClose, .openArray, stack => some ⟨.array [] :: stack, .valueOrClose⟩
  | .value, .openObject, stack => some ⟨.object [] [] :: stack, .nameOrClose⟩
  | .valueOrClose, .openObject, stack => some ⟨.object [] [] :: stack, .nameOrClose⟩
  | .valueOrClose, .closeArray, .array items :: rest => some (.finish rest (.array items.reverse))
  | .commaOrClose, .closeArray, .array items :: rest => some (.finish rest (.array items.reverse))
  | .commaOrClose, .comma, .array items :: rest => some ⟨.array items :: rest, .value⟩
  | .name, .scalar (.string s), .object fields _ :: rest => some ⟨.object fields s :: rest, .colon⟩
  | .nameOrClose, .scalar (.string s), .object fields _ :: rest =>
    some ⟨.object fields s :: rest, .colon⟩
  | .colon, .colon, stack => some ⟨stack, .value⟩
  | .nameOrClose, .closeObject, .object fields _ :: rest =>
    some (.finish rest (.object fields.reverse))
  | .commaOrClose, .closeObject, .object fields _ :: rest =>
    some (.finish rest (.object fields.reverse))
  | .commaOrClose, .comma, .object fields name :: rest => some ⟨.object fields name :: rest, .name⟩
  | _, _, _ => none

/-- Reads a text that holds one JSON value. -/
def readWritten? (text : String) : Option Written := do
  let tokens ← tokens? text.toList
  let b ← tokens.foldlM Builder.step ⟨[], .value⟩
  match b.expected with
  | .nothing value => some value
  | _ => none

/-- Values that count are in at most this many arrays and objects. -/
def maxNesting : Nat := 127

/-- The values of a text that count. -/
def readAs? (shape : Shape) (text : String) : Option Json := do
  (← readWritten? text).take? shape maxNesting

/-- The whole of a text. -/
def read? (text : String) : Option Json := readAs? .whole text

end DecisionModel.Json
