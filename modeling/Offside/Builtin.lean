import Offside.Ty

/-!
# Builtins

The functions that every source may call without declaring them.
-/

namespace Offside

/-- The slots in which a result carries its value or error. -/
inductive Payload
  | int
  | float
  | str
  | ptr
deriving DecidableEq, Repr

namespace Payload

/-- The type that is read out of a slot. -/
def ty : Payload → Ty
  | int => .int
  | float => .float
  | str => .str
  | ptr => .ptr .none

def slot : Payload → String
  | int => "int_val"
  | float => "float_val"
  | str => "str_val"
  | ptr => "ptr_val"

/-- The slot that carries values of a type, if one does. -/
def ofTy? : Ty → Option Payload
  | .int => some int
  | .bool => some int
  | .float => some float
  | .str => some str
  | .ptr _ => some ptr
  | _ => none

end Payload

inductive Builtin.Kind
  | print
  /-- Counts; only loops run over it. -/
  | range
  | addr
  | deref
  | store
  | malloc
  | free
  | sizeOf
  | intCast
  | floatCast
  | ok
  | err
  | isOk
  | isErr
  | unwrap (payload : Payload)
  | unwrapOr (payload : Payload)
  | expect (payload : Payload)
deriving DecidableEq, Repr

structure Builtin where
  name : String
  least : Nat
  most : Nat
  kind : Builtin.Kind
deriving DecidableEq, Repr

namespace Builtin

/-- What a builtin does, without its slot. -/
def Kind.name : Kind → String
  | print => "Print"
  | range => "Range"
  | addr => "Addr"
  | deref => "Deref"
  | store => "Store"
  | malloc => "Malloc"
  | free => "Free"
  | sizeOf => "SizeOf"
  | intCast => "IntCast"
  | floatCast => "FloatCast"
  | ok => "Ok"
  | err => "Err"
  | isOk => "IsOk"
  | isErr => "IsErr"
  | unwrap _ => "Unwrap"
  | unwrapOr _ => "UnwrapOr"
  | expect _ => "Expect"

/-- The slot that a builtin works on. -/
def Kind.payload? : Kind → Option Payload
  | unwrap payload => some payload
  | unwrapOr payload => some payload
  | expect payload => some payload
  | _ => none

def fixed (name : String) (count : Nat) (kind : Kind) : Builtin := ⟨name, count, count, kind⟩

def all : List Builtin :=
  [fixed "print" 1 .print,
   ⟨"range", 1, 2, .range⟩,
   fixed "addr" 1 .addr,
   fixed "deref" 1 .deref,
   fixed "assign" 2 .store,
   fixed "malloc" 1 .malloc,
   fixed "free" 1 .free,
   fixed "sizeof" 1 .sizeOf,
   fixed "int" 1 .intCast,
   fixed "float" 1 .floatCast,
   fixed "Ok" 1 .ok,
   fixed "Err" 1 .err,
   fixed "is_ok" 1 .isOk,
   fixed "is_err" 1 .isErr,
   fixed "unwrap_int" 1 (.unwrap .int),
   fixed "unwrap_float" 1 (.unwrap .float),
   fixed "unwrap_str" 1 (.unwrap .str),
   fixed "unwrap_ptr" 1 (.unwrap .ptr),
   fixed "unwrap_or_int" 2 (.unwrapOr .int),
   fixed "unwrap_or_float" 2 (.unwrapOr .float),
   fixed "unwrap_or_str" 2 (.unwrapOr .str),
   fixed "unwrap_or_ptr" 2 (.unwrapOr .ptr),
   fixed "expect_int" 2 (.expect .int),
   fixed "expect_float" 2 (.expect .float),
   fixed "expect_str" 2 (.expect .str),
   fixed "expect_ptr" 2 (.expect .ptr)]

def find? (name : String) : Option Builtin := all.find? (·.name = name)

def acceptsArity (builtin : Builtin) (count : Nat) : Bool :=
  builtin.least ≤ count && count ≤ builtin.most

/-- The numbers of arguments that a builtin takes, in words. -/
def arityText (builtin : Builtin) : String :=
  if builtin.least = builtin.most then
    "exactly " ++ toString builtin.least ++ " argument" ++ (if builtin.least = 1 then "" else "s")
  else toString builtin.least ++ " to " ++ toString builtin.most ++ " arguments"

/-- Whether calls of a builtin become calls into the support library. -/
def isHelper (builtin : Builtin) : Bool :=
  match builtin.kind with
  | .isOk | .isErr | .unwrap _ | .unwrapOr _ | .expect _ => true
  | _ => false

end Builtin

end Offside
