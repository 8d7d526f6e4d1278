import Offside.Builtin
import Offside.C.Type
import Offside.Number.Shortest

/-!
# C expressions

Expressions of generated C. Parentheses are nodes of their own, so the text of an expression is put
together from the texts of its parts and nothing else.
-/

namespace Offside

namespace C

inductive Literal
  | int (value : Int)
  | float (value : Number.Binary64)
  | str (value : String)
  | null
deriving DecidableEq, Repr

/-- The three octal digits of a small number. -/
def octal (code : Nat) : List Char :=
  [code / 64 % 8, code / 8 % 8, code % 8].map fun digit => Char.ofNat ('0'.toNat + digit)

/-- What stands for a character in a literal; numbers have three digits, so no digit joins them. -/
def escapedChar (char : Char) : List Char :=
  if char = '\\' then ['\\', '\\']
  else if char = '"' then ['\\', '"']
  else if char = '\n' then ['\\', 'n']
  else if char = '\t' then ['\\', 't']
  else if char = '\r' then ['\\', 'r']
  else if char.toNat < 0x20 then '\\' :: octal char.toNat
  else [char]

/-- A text as a string literal. -/
def stringLiteral (text : String) : String :=
  String.ofList ('"' :: text.toList.flatMap escapedChar ++ ['"'])

def Literal.text : Literal → String
  | int value => toString value
  | float value => value.text
  | str value => stringLiteral value
  | null => "NULL"

inductive UnaryOp
  | not
  | neg
  | pos
  | address
  | deref
deriving DecidableEq, Repr

def UnaryOp.spelling : UnaryOp → String
  | not => "!"
  | neg => "-"
  | pos => "+"
  | address => "&"
  | deref => "*"

inductive BinaryOp
  | add
  | sub
  | mul
  | div
  | mod
  | eq
  | ne
  | lt
  | le
  | gt
  | ge
  | and
  | or
deriving DecidableEq, Repr

def BinaryOp.spelling : BinaryOp → String
  | add => "+"
  | sub => "-"
  | mul => "*"
  | div => "/"
  | mod => "%"
  | eq => "=="
  | ne => "!="
  | lt => "<"
  | le => "<="
  | gt => ">"
  | ge => ">="
  | and => "&&"
  | or => "||"

/-- Headers of the C library that generated code may need. -/
inductive Header
  | stdio
  | stdlib
  | string
  | math
deriving DecidableEq, Repr

def Header.name : Header → String
  | stdio => "stdio.h"
  | stdlib => "stdlib.h"
  | string => "string.h"
  | math => "math.h"

/-- Functions of the C library that generated code calls. -/
inductive LibraryFunction
  | printf
  | malloc
  | free
  | strcmp
  | floor
  | fmod
deriving DecidableEq, Repr

namespace LibraryFunction

def name : LibraryFunction → String
  | printf => "printf"
  | malloc => "malloc"
  | free => "free"
  | strcmp => "strcmp"
  | floor => "floor"
  | fmod => "fmod"

/-- The header that declares a function of the C library. -/
def header : LibraryFunction → Header
  | printf => .stdio
  | malloc => .stdlib
  | free => .stdlib
  | strcmp => .string
  | floor => .math
  | fmod => .math

end LibraryFunction

inductive Callee
  /-- A function that the source calls by name. -/
  | named (name : String)
  /-- A function of the C library. -/
  | library (function : LibraryFunction)
  | support (name : String)
deriving DecidableEq, Repr

def Callee.name : Callee → String
  | named name => name
  | library function => function.name
  | support name => name

/-- Whether a result holds a value or an error. -/
inductive Tag
  | ok
  | err
deriving DecidableEq, Repr

def Tag.name : Tag → String
  | ok => "OK"
  | err => "ERR"

inductive Expr
  | name (id : String)
  | literal (value : Literal)
  | paren (inner : Expr)
  | unary (op : UnaryOp) (operand : Expr)
  | binary (op : BinaryOp) (left right : Expr)
  | assign (target value : Expr)
  | call (callee : Callee) (args : List Expr)
  | field (value : Expr) (part : String)
  | arrow (value : Expr) (part : String)
  | index (value position : Expr)
  | cast (ty : Ty) (operand : Expr)
  | sizeOf (ty : Ty)
  | zeroStruct (tag : String)
  | result (tag : Tag) (slot : Payload) (value : Expr)

/-- What initializes an object with zero bytes. -/
def zeroInitializer : String := "\x7b0\x7d"

namespace Expr

mutual

def text : Expr → String
  | name id => id
  | literal value => value.text
  | paren inner => "(" ++ inner.text ++ ")"
  | unary op operand => op.spelling ++ operand.text
  | binary op left right => left.text ++ " " ++ op.spelling ++ " " ++ right.text
  | assign target value => target.text ++ " = " ++ value.text
  | call callee args => callee.name ++ "(" ++ ", ".intercalate (texts args) ++ ")"
  | field value part => value.text ++ "." ++ part
  | arrow value part => value.text ++ "->" ++ part
  | index value position => value.text ++ "[" ++ position.text ++ "]"
  | cast ty operand => "(" ++ ty.text ++ ")" ++ operand.text
  | sizeOf ty => "sizeof(" ++ ty.text ++ ")"
  | zeroStruct tag => "(" ++ (Ty.struct tag).text ++ ")" ++ zeroInitializer
  | result tag slot value =>
      "(" ++ Ty.result.text ++ ")\x7b .type = " ++ tag.name ++ ", .value = \x7b ." ++ slot.slot
        ++ " = " ++ value.text ++ " \x7d \x7d"

def texts : List Expr → List String
  | [] => []
  | item :: items => item.text :: texts items

end

mutual

def headers : Expr → List Header
  | name _ | literal _ | sizeOf _ | zeroStruct _ => []
  | paren inner => inner.headers
  | unary _ operand => operand.headers
  | binary _ left right => left.headers ++ right.headers
  | assign target value => target.headers ++ value.headers
  | call callee args =>
      match callee with
      | .library function => function.header :: headersOf args
      | _ => headersOf args
  | field value _ => value.headers
  | arrow value _ => value.headers
  | index value position => value.headers ++ position.headers
  | cast _ operand => operand.headers
  | result _ _ value => value.headers

def headersOf : List Expr → List Header
  | [] => []
  | item :: items => item.headers ++ headersOf items

end

end Expr

end C

end Offside
