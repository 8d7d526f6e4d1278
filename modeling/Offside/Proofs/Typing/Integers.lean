import Mathlib
import Offside.Proofs.Grammar.Imports
import Offside.Proofs.Match.Subject

/-!
# Whole numbers that fit

A numeral has no sign, so it stands for a number that is not negative and fits in 64 bits with a
sign. Any number of minus signs before it leaves its magnitude as it is, and no negation overflows.
The numbers of a unit that is accepted fit in 32 bits, each taken with the minus sign right before
it.
-/

namespace Offside

/-- Whether a number can be held in bits of which one is the sign. -/
def FitsIn (bits : Nat) (number : Int) : Prop :=
  -2 ^ (bits - 1) ≤ number ∧ number < 2 ^ (bits - 1)

instance (bits : Nat) (number : Int) : Decidable (FitsIn bits number) :=
  inferInstanceAs (Decidable (_ ∧ _))

/-- What a whole number stands for, with the sign right before it. -/
def Expr.integer? : Expr → Option Int
  | .constant (.int number) => some number
  | .unary .neg (.constant (.int number)) => some (-number)
  | _ => none

theorem Expr.eq_of_integer? {expr : Expr} {number : Int} (isNumber : expr.integer? = some number) :
    expr = .constant (.int number) ∨
      ∃ value, expr = .unary .neg (.constant (.int value)) ∧ number = -value := by
  rw [Expr.integer?.eq_def] at isNumber
  split at isNumber
  · exact .inl (by rw [Option.some.inj isNumber])
  · exact .inr ⟨_, rfl, (Option.some.inj isNumber).symm⟩
  · cases isNumber

/-- The whole numbers in an expression, with the signs right before them. -/
def Expr.integers (expr : Expr) : List Int := expr.parts.filterMap Expr.integer?

def Form.exprs : Form → List Expr
  | .assign target value => [target, value]
  | .declare target _ value => target :: value.toList
  | .branch test _ _ | .whileLoop test _ _ => [test]
  | .forLoop _ iter _ _ => [iter]
  | .ret value => value.toList
  | .expr value => [value]
  | .select subject cases => subject :: comparedValues cases
  | .function _ | .classDef _ | .jump _ _ | .pass | .import_ _ => []

theorem natAbs_of_int64? {text : String} {number : Int}
    (isDigit : ∀ char ∈ text.toList, char.isDigit) (read : Number.int64? text = some number) :
    number.natAbs < 2 ^ 63 := by
  have unsigned : Number.whole? text = (Number.natural? text.toList).map Int.ofNat := by
    rw [Number.whole?, splitSign_of_isDigit isDigit]
    dsimp only
    cases Number.natural? text.toList <;> rfl
  rw [Number.int64?, unsigned, Option.filter_eq_some_iff] at read
  obtain ⟨isNatural, bounded⟩ := read
  obtain ⟨natural, _, rfl⟩ := Option.map_eq_some_iff.mp isNatural
  simp only [Int.ofNat_eq_natCast, Bool.and_eq_true, decide_eq_true_eq] at bounded
  simpa only [Int.ofNat_eq_natCast, Int.natAbs_natCast] using by omega

/-- A numeral of a source without faults has less than 64 bits. -/
theorem natAbs_of_denotes {source : String} {token : Token} {number : Int}
    (faultless : ∀ token ∈ Token.ofSource source, token.kind ≠ .error)
    (member : token ∈ Token.ofSource source) (denotes : token.Denotes (.int number)) :
    number.natAbs < 2 ^ 63 := by
  obtain ⟨isNumber, read⟩ := denotes
  obtain ⟨spelling, _, spells⟩ :=
    exists_spells faultless member (by simp [Token.isSpelled, isNumber])
  rw [isNumber] at spells
  obtain ⟨isText, numeral⟩ := spells
  rw [Token.text, isText, Option.getD_some, Grammar.numeral?, String.contains_char_eq,
    String.toList_ofList] at read
  rcases numeral with ⟨_, isDigit⟩ | ⟨whole, fraction, rfl, _⟩
  · have noPoint : '.' ∉ spelling := fun member => absurd (isDigit _ member) (by decide)
    simp only [noPoint, decide_false, Bool.false_eq_true, ↓reduceIte, Option.map_eq_some_iff,
      Constant.int.injEq, exists_eq_right] at read
    exact natAbs_of_int64? (by simpa using isDigit) read
  · simp at read

theorem natAbs_of_integerLiteral? {bound : Nat} :
    (expr : Expr) → (∀ number, .int number ∈ expr.literals → number.natAbs < bound) →
      {number : Int} → Check.integerLiteral? expr = some number → number.natAbs < bound
  | .constant (.int value), small, number, isLiteral => by
      obtain rfl := Option.some.inj isLiteral
      exact small value (by simp [Expr.literals])
  | .unary .neg operand, small, number, isLiteral => by
      rw [Check.integerLiteral?, Option.map_eq_some_iff] at isLiteral
      obtain ⟨value, isValue, rfl⟩ := isLiteral
      rw [Int.natAbs_neg]
      exact natAbs_of_integerLiteral? operand small isValue

mutual

theorem literals_subset_of_mem_parts :
    (expr : Expr) → ∀ part ∈ expr.parts, part.literals ⊆ expr.literals
  | .name _ => by simp [Expr.parts]
  | .constant _ => by simp [Expr.parts]
  | .binary _ left right | .compare _ left right | .logical _ left right | .subscript left right =>
      by
      have first := literals_subset_of_mem_parts left
      have second := literals_subset_of_mem_parts right
      simp only [Expr.parts, List.forall_mem_cons, List.forall_mem_append, Expr.literals]
      exact ⟨List.Subset.refl _,
        fun part member => List.subset_append_of_subset_left _ (first part member),
        fun part member => List.subset_append_of_subset_right _ (second part member)⟩
  | .unary op operand => by
      have inner := literals_subset_of_mem_parts operand
      by_cases literal : ∃ number, op = .neg ∧ operand = .constant (.int number)
      · obtain ⟨number, rfl, rfl⟩ := literal
        simp [Expr.parts]
      · rw [Expr.parts_unary fun number isNeg isLiteral => literal ⟨number, isNeg, isLiteral⟩,
          List.forall_mem_cons]
        exact ⟨List.Subset.refl _, inner⟩
  | .call callee args => by
      have first := literals_subset_of_mem_parts callee
      have second := literals_subset_of_mem_partsIn args
      simp only [Expr.parts, List.forall_mem_cons, List.forall_mem_append, Expr.literals]
      exact ⟨List.Subset.refl _,
        fun part member => List.subset_append_of_subset_left _ (first part member),
        fun part member => List.subset_append_of_subset_right _ (second part member)⟩
  | .member owner _ => by
      simp only [Expr.parts, List.forall_mem_cons, Expr.literals]
      exact ⟨List.Subset.refl _, literals_subset_of_mem_parts owner⟩

theorem literals_subset_of_mem_partsIn :
    (exprs : List Expr) → ∀ part ∈ partsIn exprs, part.literals ⊆ literalsIn exprs
  | [] => nofun
  | expr :: exprs => by
      have first := literals_subset_of_mem_parts expr
      have second := literals_subset_of_mem_partsIn exprs
      simp only [partsIn, List.forall_mem_append, literalsIn]
      exact ⟨fun part member => List.subset_append_of_subset_left _ (first part member),
        fun part member => List.subset_append_of_subset_right _ (second part member)⟩

end

namespace Grammar

variable {source : List Token}

theorem CasesFrom.exprFrom {cases : List Case} (isFrom : CasesFrom source cases) :
    ∀ expr ∈ comparedValues cases, ExprFrom source expr := by
  induction cases with
  | nil => exact nofun
  | cons case cases induction =>
      obtain ⟨pattern, body, line⟩ := case
      rw [CasesFrom] at isFrom
      obtain ⟨isPattern, _, others⟩ := isFrom
      cases pattern with
      | wildcard => exact induction others
      | value expr => exact List.forall_mem_cons.mpr ⟨isPattern, induction others⟩

theorem FormFrom.exprFrom {form : Form} (isFrom : FormFrom source form) :
    ∀ expr ∈ form.exprs, ExprFrom source expr := by
  cases form with
  | select subject cases =>
      rw [FormFrom] at isFrom
      exact List.forall_mem_cons.mpr ⟨isFrom.1, isFrom.2.exprFrom⟩
  | _ => simp_all [FormFrom, Form.exprs]

mutual

theorem FormFrom.statements (site : Site) :
    (form : Form) → FormFrom source form →
      ∀ inner ∈ form.statements site, FormFrom source inner.2.form
  | .function ⟨_, _, _, body⟩, isFrom => BodyFrom.statements (0 :: site) 0 body isFrom
  | .classDef ⟨_, _, _, body⟩, isFrom => BodyFrom.statements (0 :: site) 0 body isFrom
  | .branch _ body orelse, isFrom => by
      rw [FormFrom] at isFrom
      exact List.forall_mem_append.mpr ⟨BodyFrom.statements (0 :: site) 0 body isFrom.2.1,
        BodyFrom.statements (1 :: site) 0 orelse isFrom.2.2⟩
  | .whileLoop _ body _, isFrom => by
      rw [FormFrom] at isFrom
      exact BodyFrom.statements (0 :: site) 0 body isFrom.2
  | .forLoop _ _ body _, isFrom => by
      rw [FormFrom] at isFrom
      exact BodyFrom.statements (0 :: site) 0 body isFrom.2
  | .select _ cases, isFrom => by
      rw [FormFrom] at isFrom
      exact CasesFrom.statements site 0 cases isFrom.2
  | .assign _ _, _ | .declare _ _ _, _ | .jump _ _, _ | .ret _, _ | .expr _, _ | .pass, _
  | .import_ _, _ => nofun

theorem BodyFrom.statements (site : Site) (position : Nat) :
    (body : List Statement) → BodyFrom source body →
      ∀ inner ∈ bodyStatements site position body, FormFrom source inner.2.form
  | [], _ => nofun
  | ⟨_, form⟩ :: others, isFrom => by
      rw [BodyFrom] at isFrom
      simp only [bodyStatements, List.forall_mem_cons, List.forall_mem_append]
      exact ⟨isFrom.1, FormFrom.statements (position :: site) form isFrom.1,
        BodyFrom.statements site (position + 1) others isFrom.2⟩

theorem CasesFrom.statements (site : Site) (position : Nat) :
    (cases : List Case) → CasesFrom source cases →
      ∀ inner ∈ caseStatements site position cases, FormFrom source inner.2.form
  | [], _ => nofun
  | ⟨_, body, _⟩ :: others, isFrom => by
      rw [CasesFrom] at isFrom
      exact List.forall_mem_append.mpr ⟨BodyFrom.statements (position :: site) 0 body isFrom.2.1,
        CasesFrom.statements site (position + 1) others isFrom.2.2⟩

end

end Grammar

theorem natAbs_of_negated {source : String} {body : List Statement}
    (parsed : parse source = .ok body) {inner : Site × Statement}
    (inside : inner ∈ bodyStatements [] 0 body) {expr operand : Expr}
    (isExpr : expr ∈ inner.2.form.exprs) (negated : .unary .neg operand ∈ expr.parts)
    {number : Int} (isLiteral : Check.integerLiteral? operand = some number) :
    number.natAbs < 2 ^ 63 := by
  obtain ⟨faultless, isFrom⟩ := bodyFrom_of_parse parsed
  have exprFrom := (Grammar.BodyFrom.statements [] 0 body isFrom inner inside).exprFrom expr isExpr
  refine natAbs_of_integerLiteral? operand (fun value member => ?_) isLiteral
  obtain ⟨token, isToken, denotes⟩ :=
    exprFrom _ (literals_subset_of_mem_parts expr _ negated member)
  exact natAbs_of_denotes faultless (mem_of_mem_splitEnd isToken) denotes

namespace Check

open Outcome

variable {table : Table}

theorem inIntRange_eq_ok {number : Int} : inIntRange number = .ok () ↔ FitsIn 32 number := by
  simp only [inIntRange, ite_error_eq_ok, Bool.and_eq_true, decide_eq_true_eq, and_true, FitsIn]
  omega

/-- A whole number that has a type fits. -/
theorem Known.fitsIn {part : Expr} (known : Known table part) {number : Int}
    (isNumber : part.integer? = some number) : FitsIn 32 number := by
  rcases Expr.eq_of_integer? isNumber with rfl | ⟨value, rfl, rfl⟩
  all_goals
    cases known with
    | typed isTyped =>
        obtain ⟨_, _, isTyped⟩ := isTyped
        simp only [typeIn, bind_eq_ok] at isTyped
        obtain ⟨_, inRange, _⟩ := isTyped
        exact inIntRange_eq_ok.mp inRange

theorem fitsIn_of_known {exprs : List Expr} (known : ∀ part ∈ exprs, Known table part) :
    ∀ number ∈ exprs.filterMap Expr.integer?, FitsIn 32 number := by
  intro number member
  obtain ⟨part, isPart, isNumber⟩ := List.mem_filterMap.mp member
  exact (known part isPart).fitsIn isNumber

theorem Checked.fitsIn {expr : Expr} (checked : Checked table expr) :
    ∀ number ∈ expr.integers, FitsIn 32 number := fitsIn_of_known checked.known

theorem fitsIn_of_iterationType {iter : Expr} {item : Ty}
    (typed : iterationType table iter = .ok item) :
    ∀ number ∈ iter.integers, FitsIn 32 number := by
  rcases checked_of_iterationType typed with checked | ⟨id, _, bounds, rfl, _, _, checked⟩
  · exact checked.fitsIn
  · have inner := fitsIn_of_known (known_partsIn bounds checked)
    simpa [Expr.integers, Expr.parts, Expr.integer?] using inner

theorem fitsIn_of_checkCases {around : Surroundings} {subject : Ty} {after : Table} :
    {cases : List Case} → {table : Table} → checkCases around subject cases table = .ok after →
      ∀ expr ∈ comparedValues cases, ∀ number ∈ expr.integers, FitsIn 32 number
  | [], _, _ => nofun
  | ⟨pattern, body, line⟩ :: others, table, checked => by
      simp only [checkCases, bind_eq_ok, onLine_eq_ok] at checked
      obtain ⟨_, matched, _, _, rest⟩ := checked
      have later := fitsIn_of_checkCases rest
      cases pattern with
      | wildcard => exact later
      | value expr =>
          exact List.forall_mem_cons.mpr ⟨(checked_of_checkPattern matched).fitsIn, later⟩

theorem fitsIn_of_accepted {statement : Statement} (accepted : Accepted table statement) :
    ∀ expr ∈ statement.form.exprs, ∀ number ∈ expr.integers, FitsIn 32 number := by
  obtain ⟨line, form⟩ := statement
  obtain ⟨around, after, accepted⟩ := accepted
  cases form with
  | declare target written value =>
      rw [checkForm, onLine_eq_ok] at accepted
      obtain ⟨isTarget, areValues⟩ := checked_of_declareVariable accepted
      refine List.forall_mem_cons.mpr ⟨isTarget.fitsIn, fun expr member => ?_⟩
      exact (areValues expr (Option.mem_toList.mp member)).fitsIn
  | assign target value =>
      simp only [checkForm, bind_eq_ok, onLine_eq_ok] at accepted
      obtain ⟨_, assigned, _⟩ := accepted
      obtain ⟨isTarget, isValue⟩ := checked_of_checkAssign assigned
      simpa [Form.exprs] using ⟨isTarget.fitsIn, isValue.fitsIn⟩
  | branch | whileLoop =>
      simp only [checkForm, bind_eq_ok, onLine_eq_ok] at accepted
      obtain ⟨_, tested, _⟩ := accepted
      simpa [Form.exprs] using (checked_of_checkCondition tested).fitsIn
  | forLoop target iter body label =>
      simp only [checkForm, bind_eq_ok, onLine_eq_ok] at accepted
      obtain ⟨item, isItem, _⟩ := accepted
      simpa [Form.exprs] using fitsIn_of_iterationType isItem
  | ret value =>
      simp only [checkForm, bind_eq_ok, onLine_eq_ok] at accepted
      obtain ⟨_, returned, _⟩ := accepted
      intro expr member
      exact (checked_of_checkReturn returned expr (Option.mem_toList.mp member)).fitsIn
  | expr value =>
      simp only [checkForm, bind_eq_ok, onLine_eq_ok] at accepted
      obtain ⟨ty, typed, _⟩ := accepted
      simpa [Form.exprs] using Checked.fitsIn (.inl ⟨none, ty, typed⟩)
  | select subject cases =>
      simp only [checkForm, bind_eq_ok, onLine_eq_ok] at accepted
      obtain ⟨_, isSubject, checked⟩ := accepted
      exact List.forall_mem_cons.mpr
        ⟨(checked_of_subjectType isSubject).fitsIn, fitsIn_of_checkCases checked⟩
  | function _ | classDef _ | jump _ _ | pass | import_ _ => exact List.forall_mem_nil _

theorem fitsIn_of_global {kind : UnitKind} {fragments : List Fragment} {body : List Statement}
    (checked : checkUnit kind fragments body = .ok table) {line : Nat} {target value : Expr}
    {written : TypeExpr} (member : ⟨line, .declare target written (some value)⟩ ∈ body) :
    ∀ number ∈ value.integers, FitsIn 32 number := by
  simp only [checkUnit, bind_eq_ok] at checked
  obtain ⟨start, isStart, folded⟩ := checked
  obtain ⟨found, isFound, known⟩ := global?_of_declareAll isStart member
  simp only [topSymbol, onLine_eq_ok, bind_eq_ok, pure_eq_ok] at isFound
  obtain ⟨name, isName, annotated, _, rfl⟩ := isFound
  obtain ⟨⟨_, grown⟩, _⟩ := fills_of_declareAll isStart
  obtain ⟨earlier, _, before, _, isBefore, isChecked, _⟩ := exists_step_of_foldlM member folded
  have isKnown : before.global? name = some (.value name annotated.ty annotated.immutable) :=
    global?_of_checkTops grown.wellFormed isBefore (known _ rfl)
  simp only [checkTop, bind_eq_ok, onLine_eq_ok, checkGlobal] at isChecked
  obtain ⟨_, ⟨name', isName', isChecked⟩, _⟩ := isChecked
  obtain rfl := Except.ok.inj (isName.symm.trans isName')
  simp only [isKnown, ite_error_eq_ok] at isChecked
  exact Checked.fitsIn (.inl (typed_of_checkValue isChecked.2))

theorem exists_of_enumMember {owner : String} {members after : List (String × Int)}
    {statement : Statement} (added : enumMember owner members statement = .ok after) :
    ∃ more, after = members ++ more ∧ ∀ member ∈ more, FitsIn 32 member.2 := by
  rw [enumMember] at added
  split at added
  · rw [onLine_eq_ok, addEnumMember] at added
    split at added
    · simp at added
    · simp only [bind_eq_ok, error_bind, error_ite_eq_ok, pure_eq_ok] at added
      obtain ⟨_, inRange, _, rfl⟩ := added
      exact ⟨_, rfl, by simpa using inIntRange_eq_ok.mp inRange⟩
  · split at added
    · obtain rfl : members = after := by simpa using added
      exact ⟨[], by simp, List.forall_mem_nil _⟩
    · simp at added

/-- The members of an enumeration fit, each with the number written for it. -/
theorem exists_of_classSymbol {decl : ClassDef} {symbol : Symbol} (isEnum : decl.kind = .enum)
    (declared : classSymbol decl = .ok symbol) :
    ∃ members, symbol = .plain decl.name (.enum members) ∧
      (∀ member ∈ members, FitsIn 32 member.2) ∧
      ∀ line name value, ⟨line, .assign (.name name) value⟩ ∈ decl.body →
        ∃ number, integerLiteral? value = some number ∧ (name, number) ∈ members := by
  simp only [classSymbol, isEnum, bind_eq_ok, pure_eq_ok] at declared
  obtain ⟨members, folded, rfl⟩ := declared
  refine ⟨members, rfl, ?_, fun line name value member => ?_⟩
  · refine foldlM_preserves (fun state => ∀ member ∈ state, FitsIn 32 member.2)
      (fun earlier step => ?_) decl.body (List.forall_mem_nil _) folded
    obtain ⟨more, rfl, fits⟩ := exists_of_enumMember step
    exact List.forall_mem_append.mpr ⟨earlier, fits⟩
  · obtain ⟨_, later, before, after, _, isAfter, isLater⟩ := exists_step_of_foldlM member folded
    rw [enumMember, onLine_eq_ok, addEnumMember] at isAfter
    cases isLiteral : integerLiteral? value with
    | none => simp [isLiteral] at isAfter
    | some number =>
        simp only [isLiteral, bind_eq_ok, error_bind, error_ite_eq_ok, pure_eq_ok] at isAfter
        obtain ⟨_, _, _, rfl⟩ := isAfter
        refine ⟨number, rfl, ?_⟩
        refine foldlM_preserves (fun state => (name, number) ∈ state) (fun earlier step => ?_) later
          (by simp) isLater
        obtain ⟨more, rfl, _⟩ := exists_of_enumMember step
        exact List.mem_append_left more earlier

end Check

/-- No minus sign in a source overflows 64 bits. If the unit is accepted, the numbers in its
functions, methods and globals fit in 32 bits, with the sign right before them, and so do the
members of its enumerations. -/
theorem integers_fit {source : String} {body : List Statement} (parsed : parse source = .ok body) :
    (∀ site statement, (site, statement) ∈ bodyStatements [] 0 body →
      ∀ expr ∈ statement.form.exprs, ∀ operand, .unary .neg operand ∈ expr.parts →
        ∀ number, Check.integerLiteral? operand = some number →
          FitsIn 64 number ∧ FitsIn 64 (-number)) ∧
    ∀ kind modules table, analyze kind modules body = .ok table →
      (∀ site statement, (site, statement) ∈ unitStatements body →
        ∀ expr ∈ statement.form.exprs, ∀ number ∈ expr.integers, FitsIn 32 number) ∧
      (∀ line target written value, ⟨line, .declare target written (some value)⟩ ∈ body →
        ∀ number ∈ value.integers, FitsIn 32 number) ∧
      ∀ line decl, ⟨line, .classDef decl⟩ ∈ body → decl.kind = .enum →
        ∃ members, table.global? decl.name = some (.plain decl.name (.enum members)) ∧
          (∀ member ∈ members, FitsIn 32 member.2) ∧
          ∀ line name value, ⟨line, .assign (.name name) value⟩ ∈ decl.body →
            ∃ number, Check.integerLiteral? value = some number ∧ (name, number) ∈ members := by
  refine ⟨fun site statement inside expr isExpr operand negated number isLiteral => ?_, ?_⟩
  · have small := natAbs_of_negated parsed inside isExpr negated isLiteral
    simp only [FitsIn]
    omega
  · intro kind modules table accepted
    refine ⟨fun site statement inside => ?_, ?_, fun line decl member isEnum => ?_⟩
    · obtain ⟨_, _, accepted⟩ := Check.accepted_unit accepted site statement inside
      exact Check.fitsIn_of_accepted accepted
    · exact fun line target written value member => Check.fitsIn_of_global accepted member
    · obtain ⟨found, isFound, known⟩ := Check.global?_of_checkUnit accepted member
      simp only [Check.topSymbol, Outcome.bind_eq_ok, Outcome.pure_eq_ok] at isFound
      obtain ⟨symbol, isSymbol, rfl⟩ := isFound
      obtain ⟨members, rfl, fits, written⟩ := Check.exists_of_classSymbol isEnum isSymbol
      exact ⟨members, known _ rfl, fits, written⟩

/-- A source with numbers at both ends of what is allowed. -/
def edgeNumbers : String :=
  "class A(Enum):\n a=--7\nf:int=-2147483648\ndef g():\n f=2147483647\n"

/-- The statements of this source. -/
def edgeNumbersBody : List Statement :=
  [⟨1, .classDef ⟨"A", ["Enum"], .enum,
      [⟨2, .assign (.name "a") (.unary .neg (.unary .neg (.constant (.int 7))))⟩]⟩⟩,
   ⟨3, .declare (.name "f") (.name "int") (some (.unary .neg (.constant (.int 2147483648))))⟩,
   ⟨4, .function ⟨"g", [], none, [⟨5, .assign (.name "f") (.constant (.int 2147483647))⟩]⟩⟩]

theorem integers_fit_edgeNumbers :
    parse edgeNumbers = .ok edgeNumbersBody ∧
    ∃ table, analyze .library [] edgeNumbersBody = .ok table ∧
      (FitsIn 64 (-7) ∧ FitsIn 64 (- -7)) ∧ FitsIn 32 2147483647 ∧ FitsIn 32 (-2147483648) ∧
      ∃ members, table.global? "A" = some (.plain "A" (.enum members)) ∧ ("a", 7) ∈ members := by
  have parsed : parse edgeNumbers = .ok edgeNumbersBody := by cbv
  obtain ⟨table, accepted⟩ : ∃ table, analyze .library [] edgeNumbersBody = .ok table :=
    Outcome.exists_ok_of_toBool (by with_unfolding_all rfl)
  obtain ⟨inSource, ofUnit⟩ := integers_fit parsed
  obtain ⟨inBodies, inGlobals, inEnums⟩ := ofUnit .library [] table accepted
  obtain ⟨members, isEnum, _, written⟩ := inEnums 1 _ (.head _) rfl
  obtain ⟨number, isNumber, isMember⟩ := written 2 "a" _ (.head _)
  obtain rfl : 7 = number := Option.some.inj isNumber
  refine ⟨parsed, table, accepted, ?_, ?_, ?_, members, isEnum, isMember⟩
  · exact inSource [0, 0, 0] _ (.tail _ (.head _)) _ (.tail _ (.head _))
      (.unary .neg (.constant (.int 7))) (.head _) (-7) rfl
  · exact inBodies [0, 0, 2] _ (.head _) _ (.tail _ (.head _)) 2147483647 (.head _)
  · exact inGlobals 3 _ _ _ (.tail _ (.head _)) (-2147483648) (.head _)

end Offside
