import Offside.Lower.Expression

/-!
# Lowering of bodies

Bodies are walked in the order in which they were checked. Whenever a block opens, the walk enters
the next scope of the table, so that names mean what they meant when the body was checked.
-/

namespace Offside

namespace Lower

/-- How far a walk through the scopes has come. -/
structure Walk where
  scope : Nat
  cursor : Nat
  made : Nat
deriving DecidableEq, Repr

namespace Walk

/-- The walk before any scope is entered. -/
def start : Walk := ⟨0, 0, 0⟩

/-- Enters the next scope, which must lie in the one at hand. -/
def enter (table : Table) (walk : Walk) : Except Fault Walk :=
  let next := walk.cursor + 1
  if next < table.scopes.length && table.parent? next = some walk.scope then
    .ok { walk with scope := next, cursor := next }
  else .error (.lowering .scopeMismatch)

/-- Returns to the scope around the one at hand. -/
def leave (table : Table) (walk : Walk) : Walk :=
  { walk with scope := (table.parent? walk.scope).getD 0 }

/-- Makes up a name that no other made-up name equals. -/
def fresh (stem : String) (walk : Walk) : String × Walk :=
  (stem ++ "_" ++ toString (walk.made + 1), { walk with made := walk.made + 1 })

end Walk

/-- The function and the named loops around the statement at hand. -/
structure Surroundings where
  table : Table
  returns : Ty
  isEntry : Bool
  /-- The named loops around with their C labels, innermost first. -/
  loops : List (String × String)

/-- The scope that a walk has come to. -/
def Surroundings.view (around : Surroundings) (walk : Walk) : View := ⟨around.table, walk.scope⟩

/-- Whether a character can stand anywhere in a C identifier. -/
def isPlainLetter (char : Char) : Bool := char.isAlpha || char.isDigit

/-- A label as a C identifier. -/
def cIdentifier (label : String) : String :=
  let chars := label.toList.map fun char => if isPlainLetter char then char else '_'
  match chars with
  | [] => "_"
  | first :: _ => String.ofList (if first.isDigit then '_' :: chars else chars)

/-- Enters a loop: a named one gets a C label. -/
def Surroundings.inLoop (around : Surroundings) (label : Option String) (walk : Walk) :
    Option String × Surroundings × Walk :=
  match label with
  | none => (none, around, walk)
  | some word =>
      let (name, walk) := walk.fresh (cIdentifier word)
      (some name, { around with loops := (word, name) :: around.loops }, walk)

/-- A jump in C. -/
def lowerJump (around : Surroundings) (jump : Jump) (label : Option String) :
    Except Fault C.Stmt :=
  match label with
  | none => .ok (.jump jump none)
  | some word =>
      match around.loops.find? (·.1 = word) with
      | some (_, name) => .ok (.jump jump (some name))
      | none => .error (.lowering (.unknownLabel word))

/-- Whether a call makes a struct. -/
def isConstructor (view : View) : Expr → Bool
  | .call (.name id) _ => (view.lookup id).any (·.kind.isStruct)
  | _ => false

def lowerDeclare (view : View) (target : Expr) (written : TypeExpr) (value : Option Expr) :
    Except Fault C.Definition :=
  match target with
  | .name name => do
      let annotated ← (Annotated.ofExpr written).mapError fun fault =>
        .lowering (.malformedType fault)
      let declared ← declarator view.table annotated.ty name
      match value with
      | none => return ⟨annotated.immutable, declared, defaultInitial view.table annotated.ty⟩
      | some value =>
          match annotated.ty with
          | .array _ _ => .error (.lowering (.arrayInitializer name))
          | ty =>
              if isConstructor view value then return ⟨annotated.immutable, declared, .zero⟩
              else do
                let value ← lower view (.stored (some ty)) value
                return ⟨annotated.immutable, declared, .value value⟩
  | _ => .error (.lowering .notPlainName)

def lowerAssign (view : View) (line : Nat) (target value : Expr) : Except Fault C.Stmt :=
  match staticType view target with
  | some (.array item size) => .error (.lowering (.assignsArray line (.array item size)))
  | ty => do
      let target ← lower view .operand target
      let value ← lower view (.stored ty) value
      return .assign target value

/-- What the entry function returns. -/
def exitSuccess : C.Stmt := .ret (some (.literal (.int 0)))

/-- The C form of a return. -/
def lowerReturn (around : Surroundings) (view : View) (value : Option Expr) :
    Except Fault C.Stmt :=
  if around.isEntry then .ok exitSuccess
  else match value with
    | none => .ok (.ret none)
    | some value =>
        if value.isNone && around.returns = .none then .ok (.ret none)
        else do
          let value ← lower view (.stored (some around.returns)) value
          return .ret (some value)

/-- What a loop counts over, and what each round starts with. -/
structure Counting where
  counter : String
  start : C.Expr
  /-- The number at which counting ends. -/
  stop : C.Expr
  opening : List C.Stmt

/-- The bounds of a call of the range builtin. -/
def rangeCall? : Expr → Option (List Expr)
  | .call (.name id) args =>
      match Builtin.find? id with
      | some builtin => if builtin.kind = .range then some args else none
      | none => none
  | _ => none

def number (value : Nat) : C.Expr := .literal (.int value)

/-- What a loop over a range or an array counts; over an array, positions. -/
def counting (view : View) (target : String) (iter : Expr) (walk : Walk) :
    Except Fault (Counting × Walk) :=
  match rangeCall? iter with
  | some [stop] => do
      let stop ← lower view .operand stop
      return (⟨target, number 0, stop, []⟩, walk)
  | some [start, stop] => do
      let start ← lower view .operand start
      let stop ← lower view .operand stop
      return (⟨target, start, stop, []⟩, walk)
  | some _ => .error (.lowering .rangeBounds)
  | none =>
      match staticType view iter with
      | some (.array (.array _ _) _) => .error (.lowering .nestedArrays)
      | some (.array item size) => do
          let array ← lower view .operand iter
          let (position, walk) := walk.fresh "_i"
          let declared ← declarator view.table item target
          let taken : C.Definition := ⟨false, declared, .value (.index array (.name position))⟩
          return (⟨position, number 0, number size, [.define taken]⟩, walk)
      | _ => .error (.lowering .notIterable)

/-- Whether an expression can stand several times for its value. -/
def isRepeatable : Expr → Bool
  | .name _ => true
  | .member _ _ => true
  | .constant _ => true
  | _ => false

/-- A subject of a match statement. -/
structure Subject where
  value : C.Expr
  kept : Option C.Declarator
  isText : Bool

/-- What patterns are compared with. -/
def Subject.shown (subject : Subject) : C.Expr :=
  match subject.kept with
  | some declared => .name declared.name
  | none => subject.value

/-- The subject of a match statement. -/
def lowerSubject (view : View) (subject : Expr) (walk : Walk) : Except Fault (Subject × Walk) :=
  match staticType view subject with
  | none => do
      let value ← lower view .operand subject
      return (⟨value, none, false⟩, walk)
  | some ty =>
      if isEquatable view.table ty then do
        let value ← lower view .operand subject
        if isRepeatable subject then return (⟨value, none, ty = .str⟩, walk)
        else do
          let (name, walk) := walk.fresh "_match"
          let declared ← declarator view.table ty name
          return (⟨value, some declared, ty = .str⟩, walk)
      else .error (.lowering (.cannotMatch ty))

/-- When a case is taken; always, if there is no condition. -/
def lowerPattern (view : View) (subject : Subject) : Pattern → Except Fault (Option C.Expr)
  | .wildcard => .ok none
  | .value expr => do
      let pattern ← lower view .operand expr
      return some (compared subject.isText .eq subject.shown pattern)

mutual

/-- The C form of a statement, and the walk after it. -/
def lowerForm (around : Surroundings) (line : Nat) (form : Form) (walk : Walk) :
    Except Fault (List C.Stmt × Walk) :=
  let view := around.view walk
  match form with
  | .declare target written value => do
      let definition ← lowerDeclare view target written value
      return ([.define definition], walk)
  | .assign target value => do
      let stmt ← lowerAssign view line target value
      return ([stmt], walk)
  | .branch test body orelse => do
      let test ← lower view .operand test
      let walk ← walk.enter around.table
      let (body, walk) ← lowerBody around body walk
      let (arms, walk) ← lowerElse around orelse (walk.leave around.table)
      return ([.branch (⟨some test, body⟩ :: arms)], walk)
  | .whileLoop test body label => do
      let test ← lower view .operand test
      let (name, inside, walk) := around.inLoop label walk
      let walk ← walk.enter around.table
      let (body, walk) ← lowerBody inside body walk
      return ([.whileLoop test body name], walk.leave around.table)
  | .forLoop target iter body label => do
      let (counted, walk) ← counting view target iter walk
      let (name, inside, walk) := around.inLoop label walk
      let walk ← walk.enter around.table
      let (body, walk) ← lowerBody inside body walk
      let loop : C.Stmt :=
        .countLoop counted.counter counted.start counted.stop (counted.opening ++ body) name
      return ([loop], walk.leave around.table)
  | .jump jump label => do
      let stmt ← lowerJump around jump label
      return ([stmt], walk)
  | .ret value => do
      let stmt ← lowerReturn around view value
      return ([stmt], walk)
  | .expr (.constant (.str _)) => return ([], walk)
  | .expr value => do
      let value ← lower view .operand value
      return ([.expr value], walk)
  | .pass => return ([], walk)
  | .select subject cases => do
      let (subject, walk) ← lowerSubject view subject walk
      let (arms, walk) ← lowerCases around subject cases walk
      return ([.select subject.value subject.kept arms], walk)
  | .import_ _ => .error (.lowering (.nestedDeclaration line))
  | .function _ => .error (.lowering (.nestedDeclaration line))
  | .classDef _ => .error (.lowering (.nestedDeclaration line))

/-- The C forms of statements, and the walk after them. -/
def lowerBody (around : Surroundings) (body : List Statement) (walk : Walk) :
    Except Fault (List C.Stmt × Walk) :=
  match body with
  | [] => return ([], walk)
  | ⟨line, form⟩ :: others => do
      let (first, walk) ← lowerForm around line form walk
      let (rest, walk) ← lowerBody around others walk
      return (first ++ rest, walk)

/-- The further alternatives of a branch. An alternative that is one branch continues the chain. -/
def lowerElse (around : Surroundings) (orelse : List Statement) (walk : Walk) :
    Except Fault (List C.Arm × Walk) :=
  match orelse with
  | [] => do
      let walk ← walk.enter around.table
      return ([], walk.leave around.table)
  | [⟨_, .branch test body orelse⟩] => do
      let walk ← walk.enter around.table
      let test ← lower (around.view walk) .operand test
      let walk ← walk.enter around.table
      let (body, walk) ← lowerBody around body walk
      let (arms, walk) ← lowerElse around orelse (walk.leave around.table)
      return (⟨some test, body⟩ :: arms, walk.leave around.table)
  | ⟨line, form⟩ :: others => do
      let walk ← walk.enter around.table
      let (first, walk) ← lowerForm around line form walk
      let (rest, walk) ← lowerBody around others walk
      return ([⟨none, first ++ rest⟩], walk.leave around.table)

/-- The alternatives of a match statement. -/
def lowerCases (around : Surroundings) (subject : Subject) (cases : List Case) (walk : Walk) :
    Except Fault (List C.Arm × Walk) :=
  match cases with
  | [] => return ([], walk)
  | ⟨pattern, body, _⟩ :: others => do
      let condition ← lowerPattern (around.view walk) subject pattern
      let walk ← walk.enter around.table
      let (body, walk) ← lowerBody around body walk
      let (arms, walk) ← lowerCases around subject others (walk.leave around.table)
      return (⟨condition, body⟩ :: arms, walk)

end

end Lower

end Offside
