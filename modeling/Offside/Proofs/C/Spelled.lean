import Offside.Proofs.C.Complete
import Offside.Proofs.C.Numeral

/-!
# Texts of C expressions

The text of an expression falls into the tokens of its tree, whatever comes after it, as long as
neither its names nor the places of its operators run tokens together. Its parts then fit their
places exactly if no assignment is an operand.
-/

namespace Offside

namespace C

namespace Tree

def isAssign : Tree → Bool
  | assign _ _ => true
  | _ => false

mutual

/-- Whether no operand of an operator is an assignment. -/
def Apart : Tree → Prop
  | atom _ | sizeOf _ => True
  | paren inner => inner.Apart
  | unary _ operand => operand.Apart ∧ operand.isAssign = false
  | binary _ left right =>
      left.Apart ∧ left.isAssign = false ∧ right.Apart ∧ right.isAssign = false
  | assign target value => target.Apart ∧ value.Apart
  | call _ args => AllApart args
  | part _ value _ => value.Apart
  | index value position => value.Apart ∧ position.Apart
  | cast _ operand => operand.Apart
  | compound _ items => AllApart items
  | braces items => AllApart items
  | designated _ value => value.Apart

def AllApart : List Tree → Prop
  | [] => True
  | item :: items => item.Apart ∧ AllApart items

end

end Tree

def Literal.atom : Literal → Atom
  | int value => .number (toString value)
  | float (.finite negative significand exponent) =>
      .number (Number.Binary64.finite negative significand exponent).text
  | float (.infinite negative) => .name (Number.Binary64.infinite negative).text
  | str value => .string (stringLiteral value)
  | null => .name "NULL"

def Literal.IsUnsigned : Literal → Prop
  | int value => 0 ≤ value
  | float (.finite negative _ _) => negative = false
  | float (.infinite negative) => negative = false
  | _ => True

namespace Expr

mutual

/-- The tree that an expression is meant to be read as. -/
def tree : Expr → Tree
  | name id => .atom (.name id)
  | literal value => .atom value.atom
  | paren inner => .paren inner.tree
  | unary op operand => .unary op operand.tree
  | binary op left right => .binary op left.tree right.tree
  | assign target value => .assign target.tree value.tree
  | call callee args => .call callee.name (trees args)
  | field value part => .part .direct value.tree part
  | arrow value part => .part .throughPointer value.tree part
  | index value position => .index value.tree position.tree
  | cast ty operand => .cast ty operand.tree
  | sizeOf ty => .sizeOf ty
  | zeroStruct tag => .compound (.struct tag) [.atom (.number "0")]
  | result tag slot value =>
      .compound .result [.designated "type" (.atom (.name tag.name)),
        .designated "value" (.braces [.designated slot.slot value.tree])]

def trees : List Expr → List Tree
  | [] => []
  | item :: items => item.tree :: trees items

end

mutual

/-- Whether an expression has names of C and literals without sign. -/
def Legible : Expr → Prop
  | name id => isName id
  | literal value => value.IsUnsigned
  | paren inner => inner.Legible
  | unary _ operand => operand.Legible
  | binary _ left right => left.Legible ∧ right.Legible
  | assign target value => target.Legible ∧ value.Legible
  | call callee args => isName callee.name ∧ AllLegible args
  | field value part => value.Legible ∧ isName part
  | arrow value part => value.Legible ∧ isName part
  | index value position => value.Legible ∧ position.Legible
  | cast ty operand => ty.IsNamed ∧ operand.Legible
  | sizeOf ty => ty.IsNamed
  | zeroStruct tag => isName tag
  | result _ _ value => value.Legible

def AllLegible : List Expr → Prop
  | [] => True
  | item :: items => item.Legible ∧ AllLegible items

end

/-- Whether an expression is an assignment, in parentheses or not. -/
def isStore : Expr → Bool
  | assign _ _ => true
  | paren inner => inner.isStore
  | _ => false

/-- Whether parts can be taken of an expression, which is no number. -/
def isOwner : Expr → Bool
  | name _ | paren _ | call _ _ | field _ _ | arrow _ _ | index _ _ | zeroStruct _
  | result _ _ _ => true
  | _ => false

/-- Whether an expression is closed to what stands around it, or an assignment. -/
def isOperand : Expr → Bool
  | paren inner => !inner.isStore
  | literal _ | sizeOf _ | assign _ _ => true
  | expr => expr.isOwner

mutual

/-- Whether operands stand where an expression has them. -/
def Guarded : Expr → Prop
  | name _ | literal _ | sizeOf _ | zeroStruct _ => True
  | paren inner => inner.Guarded
  | unary _ operand => operand.Guarded ∧ operand.isOperand
  | binary _ left right =>
      left.Guarded ∧ left.isOperand ∧ right.Guarded ∧ right.isOperand
  | assign target value =>
      (∃ pointer, target = unary .deref (paren pointer)) ∧ target.Guarded ∧ value.Guarded
  | call _ args => AllGuarded args
  | field value _ => value.Guarded ∧ value.isOwner
  | arrow value _ => value.Guarded ∧ value.isOwner
  | index value position => value.Guarded ∧ value.isOwner ∧ position.Guarded
  | cast _ operand => operand.Guarded ∧ operand.isOwner
  | result _ _ value => value.Guarded

def AllGuarded : List Expr → Prop
  | [] => True
  | item :: items => item.Guarded ∧ AllGuarded items

end

theorem level_tree (expr : Expr) : 2 ≤ expr.tree.level := by
  cases expr with
  | binary op left right =>
      have := op.level_bounds
      simp only [tree, Tree.level]
      omega
  | _ => simp [tree, Tree.level]

theorem isAssign_bare_tree : (expr : Expr) → expr.tree.bare.isAssign = expr.isStore
  | paren inner => isAssign_bare_tree inner
  | name _ | literal _ | unary _ _ | binary _ _ _ | assign _ _ | call _ _ | field _ _ | arrow _ _
  | index _ _ | .cast _ _ | .sizeOf _ | zeroStruct _ | result _ _ _ => rfl

theorem level_tree_of_isOwner {expr : Expr} (isOwner : expr.isOwner) : 11 ≤ expr.tree.level := by
  cases expr <;> simp [Expr.isOwner] at isOwner <;> simp [tree, Tree.level]

/-- An operand is an assignment, or binds tightly enough. -/
theorem operand_cases {expr : Expr} (isOperand : expr.isOperand) :
    (∃ target value, expr = assign target value) ∨
      (9 ≤ expr.tree.level ∧ expr.isStore = false) := by
  cases expr with
  | assign target value => exact .inl ⟨target, value, rfl⟩
  | paren inner =>
      right
      simpa [Expr.isOperand, isStore, tree, Tree.level] using isOperand
  | unary | binary | cast => simp [Expr.isOperand, isOwner] at isOperand
  | _ => exact .inr ⟨by simp [tree, Tree.level], rfl⟩

/-- An operand fits if it does on its own and is no assignment. -/
theorem fits_operand_iff {expr : Expr} (isOperand : expr.isOperand)
    (fits : expr.tree.Fits ↔ expr.tree.bare.Apart) {least : Nat} (loose : 3 ≤ least)
    (tight : least ≤ 9) :
    (expr.tree.Fits ∧ least ≤ expr.tree.level) ↔
      (expr.tree.bare.Apart ∧ expr.tree.bare.isAssign = false) := by
  rw [isAssign_bare_tree, fits]
  apply and_congr_right
  intro _
  rcases operand_cases isOperand with ⟨target, value, rfl⟩ | ⟨isTight, noStore⟩
  · simp only [tree, Tree.level, isStore, Bool.true_eq_false, iff_false]
    omega
  · simp only [noStore, iff_true]
    omega

theorem isValid_atom {value : Literal} (isUnsigned : value.IsUnsigned) : value.atom.IsValid := by
  cases value with
  | int | str => trivial
  | null => exact (by decide : isName "NULL" = true)
  | float value =>
      cases value with
      | finite => trivial
      | infinite negative =>
          obtain rfl : negative = false := isUnsigned
          exact (by decide : isName "inf" = true)

theorem isName_tag (tag : Tag) : isName tag.name := by
  cases tag <;> decide

theorem isName_slot (slot : Payload) : isName slot.slot := by
  cases slot <;> decide

mutual

/-- The parts of an expression fit exactly if no operand is an assignment. -/
theorem fits_tree_iff : (expr : Expr) → expr.Legible → expr.Guarded →
    (expr.tree.Fits ↔ expr.tree.bare.Apart)
  | name id, legible, _ => by
      simp only [tree, Tree.bare, Tree.Apart, iff_true]
      exact legible
  | literal value, legible, _ => by
      simp only [tree, Tree.bare, Tree.Apart, iff_true]
      exact isValid_atom legible
  | paren inner, legible, guarded => by
      simp only [tree, Tree.bare, Tree.Fits, level_tree, and_true]
      exact fits_tree_iff inner legible guarded
  | unary op operand, legible, guarded => by
      have ⟨inside, isOperand⟩ := guarded
      exact fits_operand_iff isOperand (fits_tree_iff operand legible inside) (by decide)
        (Nat.le_refl 9)
  | binary op left right, legible, guarded => by
      have ⟨leftGuarded, leftOperand, rightGuarded, rightOperand⟩ := guarded
      have bounds := op.level_bounds
      have first := fits_operand_iff leftOperand (fits_tree_iff left legible.1 leftGuarded)
        bounds.1 (by omega)
      have second := fits_operand_iff rightOperand (fits_tree_iff right legible.2 rightGuarded)
        (by omega : 3 ≤ op.level + 1) (by omega)
      have both : (binary op left right).tree.Fits ↔
          (left.tree.Fits ∧ op.level ≤ left.tree.level) ∧
            (right.tree.Fits ∧ op.level + 1 ≤ right.tree.level) := by
        rw [and_assoc]
        exact Iff.rfl
      rw [both, first, second, and_assoc]
      exact Iff.rfl
  | assign target value, legible, guarded => by
      have ⟨isTarget, targetGuarded, valueGuarded⟩ := guarded
      obtain ⟨pointer, rfl⟩ := isTarget
      have tight : 10 ≤ (unary .deref (paren pointer)).tree.level := Nat.le_refl 10
      have first := fits_tree_iff (unary .deref (paren pointer)) legible.1 targetGuarded
      have second := fits_tree_iff value legible.2 valueGuarded
      rw [tree, Tree.bare, Tree.Fits, Tree.Apart, first, second]
      simp only [tight, level_tree, true_and, and_true]
  | call callee args, legible, guarded => by
      simp only [tree, Tree.bare, Tree.Fits, Tree.Apart, legible.1, true_and]
      exact allFit_trees_iff args legible.2 guarded
  | field value part, legible, guarded | arrow value part, legible, guarded => by
      have tight := level_tree_of_isOwner guarded.2
      simp only [tree, Tree.bare, Tree.Fits, Tree.Apart, legible.2, tight, and_true]
      exact fits_tree_iff value legible.1 guarded.1
  | index value position, legible, guarded => by
      have ⟨valueGuarded, isOwner, positionGuarded⟩ := guarded
      have tight := level_tree_of_isOwner isOwner
      simp only [tree, Tree.bare, Tree.Fits, Tree.Apart, tight, level_tree, true_and, and_true]
      exact and_congr (fits_tree_iff value legible.1 valueGuarded)
        (fits_tree_iff position legible.2 positionGuarded)
  | .cast ty operand, legible, guarded => by
      have tight := level_tree_of_isOwner guarded.2
      have tight : 9 ≤ operand.tree.level := by omega
      simp only [tree, Tree.bare, Tree.Fits, Tree.Apart, legible.1, tight, true_and, and_true]
      exact fits_tree_iff operand legible.2 guarded.1
  | .sizeOf ty, legible, _ => by
      simp only [tree, Tree.bare, Tree.Apart, iff_true]
      exact legible
  | zeroStruct tag, legible, _ => by
      have named : (Ty.struct tag).IsNamed := legible
      simp [tree, Tree.bare, Tree.bareAll, Tree.Fits, Tree.AllFit, Tree.Apart, Tree.AllApart, named,
        Atom.IsValid]
  | result tag slot value, legible, guarded => by
      have inside := fits_tree_iff value legible guarded
      have isType : isName "type" := by decide
      have isValue : isName "value" := by decide
      have ofTag : 1 ≤ (Tree.atom (.name tag.name)).level := by simp [Tree.level]
      have ofBraces (items : List Tree) : 1 ≤ (Tree.braces items).level := Nat.le_refl 1
      have ofValue : 1 ≤ value.tree.level := Nat.le_of_succ_le value.level_tree
      simp [tree, Tree.bare, Tree.bareAll, Tree.Fits, Tree.AllFit, Tree.Apart, Tree.AllApart,
        Atom.IsValid, Ty.IsNamed, isType, isValue, isName_tag, isName_slot, ofTag, ofBraces,
        ofValue, inside]

theorem allFit_trees_iff : (exprs : List Expr) → AllLegible exprs → AllGuarded exprs →
    (Tree.AllFit 2 (trees exprs) ↔ Tree.AllApart (Tree.bareAll (trees exprs)))
  | [], _, _ => Iff.rfl
  | expr :: exprs, legible, guarded => by
      have first := fits_tree_iff expr legible.1 guarded.1
      have others := allFit_trees_iff exprs legible.2 guarded.2
      simp only [trees, Tree.bareAll, Tree.AllFit, Tree.AllApart, level_tree, true_and]
      exact and_congr first others

end

end Expr

/-! ## Tokens of texts -/

/-- Whether no word goes on in a text. -/
def Unworded (after : List Char) : Prop :=
  ∀ char, after.head? = some char → isIdentifierChar char = false

/-- Whether neither a word nor a number goes on in a text. -/
def Parted (after : List Char) : Prop :=
  ∀ char, after.head? = some char → isIdentifierChar char = false ∧ char ≠ '.' ∧ char ≠ '+' ∧
    char ≠ '-'

theorem Parted.unworded {after : List Char} (parted : Parted after) : Unworded after :=
  fun char isHead => (parted char isHead).1

theorem unworded_cons (char : Char) (plain : isIdentifierChar char = false) (rest : List Char) :
    Unworded (char :: rest) := by
  intro other isHead
  obtain rfl : char = other := by simpa using isHead
  exact plain

theorem parted_cons (char : Char) (plain : (!isIdentifierChar char && char ≠ '.' && char ≠ '+' &&
    char ≠ '-') = true) (rest : List Char) : Parted (char :: rest) := by
  intro other isHead
  obtain rfl : char = other := by simpa using isHead
  simpa [and_assoc] using plain

namespace Lexes

variable {chars after : List Char} {tokens : List Token}

theorem cons_mark (mark : Mark) (alone : mark.isAlone) (next : Lexes chars tokens after) :
    Lexes (mark.spelling ++ chars) (.mark mark :: tokens) after :=
  (mark_alone mark alone _).append next

theorem cons_space (next : Lexes chars tokens after) : Lexes (' ' :: chars) tokens after :=
  (space _).append next

theorem cons_spaced (mark : Mark) (next : Lexes chars tokens after) :
    Lexes (' ' :: (mark.spelling ++ ' ' :: chars)) (.mark mark :: tokens) after :=
  cons_space ((mark_space mark (chars ++ after)).append next.cons_space)

theorem ofWord {text : String} (isText : isWord text) (free : Unworded after) :
    Lexes text.toList [.word text] after := by
  obtain ⟨first, rest, isChars, notDigit, plain⟩ := isWord_iff.mp isText
  have whole : text = String.ofList (first :: rest) := by rw [← isChars, String.ofList_toList]
  rw [isChars]
  rw [whole]
  exact word notDigit plain free

theorem ofNumeral {text : String} (isText : IsNumeral text.toList) (free : Parted after) :
    Lexes text.toList [.number text] after := by
  obtain ⟨first, rest, isChars, digit, goesOn⟩ := isText
  have whole : text = String.ofList (first :: rest) := by rw [← isChars, String.ofList_toList]
  rw [isChars]
  rw [whole]
  exact number digit goesOn free

end Lexes

theorem isWord_of_isName {text : String} (named : isName text) : isWord text := by
  simp only [isName, Bool.and_eq_true] at named
  exact named.1.1

/-- The text of a type falls into its tokens where no mark goes on. -/
theorem lexes_ty : (ty : Ty) → ty.IsNamed → {after : List Char} → Unworded after →
    (∀ char, after.head? = some char → char ∉ joining) → Lexes ty.text.toList ty.tokens after
  | .pointer target, named, after, _, plain => by
      have isStar := Lexes.mark_unary .star rfl plain
      have starred : ∀ char, ('*' :: after).head? = some char → char ∉ joining := by
        intro char isHead
        obtain rfl : '*' = char := by simpa using isHead
        decide
      have inside := lexes_ty target named (unworded_cons '*' (by decide) after) starred
      rw [Ty.text, String.toList_append]
      exact inside.append isStar
  | .int, _, _, free, _ | .float, _, _, free, _ | .char, _, _, free, _ | .void, _, _, free, _
  | .result, _, _, free, _ => Lexes.ofWord (by decide) free
  | .struct tag, named, after, free, _ => by
      have isTag : Lexes tag.toList [.word tag] after := Lexes.ofWord (isWord_of_isName named) free
      have isStruct : Lexes "struct".toList [.word "struct"] (' ' :: (tag.toList ++ after)) :=
        Lexes.ofWord (by decide) (unworded_cons ' ' (by decide) _)
      rw [Ty.text, String.toList_append]
      exact isStruct.append isTag.cons_space
  | .enum tag, named, after, free, _ => by
      have isTag : Lexes tag.toList [.word tag] after := Lexes.ofWord (isWord_of_isName named) free
      have isEnum : Lexes "enum".toList [.word "enum"] (' ' :: (tag.toList ++ after)) :=
        Lexes.ofWord (by decide) (unworded_cons ' ' (by decide) _)
      rw [Ty.text, String.toList_append]
      exact isEnum.append isTag.cons_space

theorem lexes_ty_paren {ty : Ty} (named : ty.IsNamed) {chars after : List Char}
    {tokens : List Token}
    (next : Lexes chars tokens after) :
    Lexes ('(' :: (ty.text.toList ++ ')' :: chars))
      (.mark .leftParen :: (ty.tokens ++ .mark .rightParen :: tokens)) after := by
  have closed : ∀ char, (')' :: (chars ++ after)).head? = some char → char ∉ joining := by
    intro char isHead
    obtain rfl : ')' = char := by simpa using isHead
    decide
  have isType := lexes_ty ty named (unworded_cons ')' (by decide) (chars ++ after)) closed
  exact (isType.append (next.cons_mark .rightParen rfl)).cons_mark .leftParen rfl

theorem notMem_joining_of_isIdentifierChar {char : Char} (plain : isIdentifierChar char) :
    char ∉ joining := by
  intro member
  have isMark : char = '=' ∨ char = '>' ∨ char = '+' ∨ char = '-' ∨ char = '&' := by
    simpa [joining] using member
  rcases isMark with rfl | rfl | rfl | rfl | rfl <;> exact absurd plain (by decide)

/-- Whether a text starts with a character that prolongs no mark. -/
def StartsPlain (chars : List Char) : Prop :=
  ∃ first rest, chars = first :: rest ∧ first ∉ joining

namespace StartsPlain

theorem append {chars : List Char} (starts : StartsPlain chars) (more : List Char) :
    StartsPlain (chars ++ more) := by
  obtain ⟨first, rest, rfl, plain⟩ := starts
  exact ⟨first, rest ++ more, rfl, plain⟩

theorem append_text {text : String} (starts : StartsPlain text.toList) (more : String) :
    StartsPlain (text ++ more).toList := by
  rw [String.toList_append]
  exact starts.append more.toList

theorem of_isWord {text : String} (isText : isWord text) : StartsPlain text.toList := by
  obtain ⟨first, rest, isChars, _, plain⟩ := isWord_iff.mp isText
  exact ⟨first, rest, isChars, notMem_joining_of_isIdentifierChar (plain first (by simp))⟩

theorem of_isNumeral {chars : List Char} (isNumeral : IsNumeral chars) : StartsPlain chars := by
  obtain ⟨first, rest, isChars, digit, _⟩ := isNumeral
  refine ⟨first, rest, isChars, notMem_joining_of_isIdentifierChar ?_⟩
  simp [isIdentifierChar, Char.isAlphanum, digit]

end StartsPlain

namespace Literal

theorem startsPlain_text {value : Literal} (isUnsigned : value.IsUnsigned) :
    StartsPlain value.text.toList := by
  cases value with
  | int value => exact .of_isNumeral (isNumeral_int isUnsigned)
  | str value =>
      rw [text, stringLiteral, String.toList_ofList]
      exact ⟨'"', _, rfl, by decide⟩
  | null => exact .of_isWord (by decide)
  | float value =>
      cases value with
      | finite negative significand exponent =>
          obtain rfl : negative = false := isUnsigned
          exact .of_isNumeral (isNumeral_finite significand exponent)
      | infinite negative =>
          obtain rfl : negative = false := isUnsigned
          exact ⟨'i', ['n', 'f'], rfl, by decide⟩

theorem lexes_text {value : Literal} (isUnsigned : value.IsUnsigned) {after : List Char}
    (parted : Parted after) : Lexes value.text.toList [value.atom.token] after := by
  cases value with
  | int value => exact Lexes.ofNumeral (isNumeral_int isUnsigned) parted
  | str value => exact Lexes.string value after
  | null => exact Lexes.ofWord (by decide) parted.unworded
  | float value =>
      cases value with
      | finite negative significand exponent =>
          obtain rfl : negative = false := isUnsigned
          exact Lexes.ofNumeral (isNumeral_finite significand exponent) parted
      | infinite negative =>
          obtain rfl : negative = false := isUnsigned
          exact Lexes.ofWord (by decide : isWord "inf" = true) parted.unworded

end Literal

theorem UnaryOp.toList_spelling (op : UnaryOp) : op.spelling.toList = op.mark.spelling := by
  cases op <;> rfl

theorem UnaryOp.isUnary_mark (op : UnaryOp) : op.mark.isUnary := by
  cases op <;> rfl

theorem BinaryOp.toList_spelling (op : BinaryOp) : op.spelling.toList = op.mark.spelling := by
  cases op <;> rfl

namespace Expr

/-- No operator before an operand goes on with it. -/
theorem startsPlain_text : (expr : Expr) → expr.Legible → expr.Guarded →
    (expr.isOwner || expr.isOperand) = true → StartsPlain expr.text.toList
  | name _, legible, _, _ => .of_isWord (isWord_of_isName legible)
  | literal _, legible, _, _ => Literal.startsPlain_text legible
  | paren inner, _, _, _ | zeroStruct _, _, _, _ | result _ _ _, _, _, _ => by
      have starts : StartsPlain "(".toList := ⟨'(', [], rfl, by decide⟩
      rw [text]
      repeat apply StartsPlain.append_text
      exact starts
  | .sizeOf ty, _, _, _ => by
      have starts : StartsPlain "sizeof(".toList := ⟨'s', _, rfl, by decide⟩
      exact (starts.append_text _).append_text _
  | assign target value, _, guarded, _ => by
      obtain ⟨pointer, rfl⟩ := guarded.1
      have starts : StartsPlain "*".toList := ⟨'*', [], rfl, by decide⟩
      exact ((starts.append_text _).append_text _).append_text _
  | call callee args, legible, _, _ => by
      have starts := StartsPlain.of_isWord (isWord_of_isName legible.1)
      exact ((starts.append_text _).append_text _).append_text _
  | field value part, legible, guarded, _ | arrow value part, legible, guarded, _ => by
      have starts := startsPlain_text value legible.1 guarded.1 (by rw [guarded.2, Bool.true_or])
      exact (starts.append_text _).append_text _
  | index value position, legible, guarded, _ => by
      have starts := startsPlain_text value legible.1 guarded.1 (by rw [guarded.2.1, Bool.true_or])
      exact ((starts.append_text _).append_text _).append_text _
  | unary _ _, _, _, starts | binary _ _ _, _, _, starts | .cast _ _, _, _, starts => by
      simp [isOwner, isOperand] at starts

theorem lexes_part (access : Access) {part : String} (named : isName part) {after : List Char}
    (free : Unworded after) :
    Lexes (access.mark.spelling ++ part.toList) [.mark access.mark, .word part] after := by
  have isPart := Lexes.ofWord (isWord_of_isName named) free
  cases access with
  | throughPointer => exact isPart.cons_mark .arrow rfl
  | direct =>
      refine Lexes.append (Lexes.mark_dot ?_) isPart
      obtain ⟨first, rest, isChars, notDigit, plain⟩ := isWord_iff.mp (isWord_of_isName named)
      intro char isHead
      rw [isChars] at isHead
      obtain rfl : first = char := by simpa using isHead
      refine ⟨?_, notDigit⟩
      rintro rfl
      exact absurd (plain '.' (by simp)) (by decide)

theorem lexes_designated {part : String} (named : isName part) {chars after : List Char}
    {tokens : List Token} (next : Lexes chars tokens after) :
    Lexes ('.' :: (part.toList ++ ' ' :: (Mark.assign.spelling ++ ' ' :: chars)))
      (.mark .dot :: .word part :: .mark .assign :: tokens) after :=
  (lexes_part .direct named (unworded_cons ' ' (by decide) _)).append (next.cons_spaced .assign)

mutual

/-- The text of an expression falls into the tokens of its tree. -/
theorem lexes_text : (expr : Expr) → expr.Legible → expr.Guarded → {after : List Char} →
    Parted after ∨ (expr.isOwner ∧ Unworded after) → Lexes expr.text.toList expr.tree.tokens after
  | name id, legible, _, _, free =>
      Lexes.ofWord (isWord_of_isName legible) (free.elim Parted.unworded And.right)
  | literal value, legible, _, _, free =>
      Literal.lexes_text legible (free.resolve_right (by simp [isOwner]))
  | paren inner, legible, guarded, after, _ => by
      have inside := lexes_text inner legible guarded (.inl (parted_cons ')' (by decide) after))
      have written : (paren inner).text.toList = '(' :: (inner.text.toList ++ [')']) := by
        simp [text]
      rw [written]
      exact (inside.append (Lexes.mark_alone .rightParen rfl after)).cons_mark .leftParen rfl
  | unary op operand, legible, guarded, after, free => by
      have parted : Parted after := free.resolve_right (by simp [isOwner])
      have inside := lexes_text operand legible guarded.1 (.inl parted)
      have starts := startsPlain_text operand legible guarded.1 (by rw [guarded.2, Bool.or_true])
      have isMark : Lexes op.mark.spelling [.mark op.mark] (operand.text.toList ++ after) := by
        apply Lexes.mark_unary op.mark op.isUnary_mark
        intro char isHead
        obtain ⟨first, rest, isChars, plain⟩ := starts.append after
        rw [isChars] at isHead
        obtain rfl : first = char := by simpa using isHead
        exact plain
      rw [text, String.toList_append, op.toList_spelling]
      exact isMark.append inside
  | binary op left right, legible, guarded, after, free => by
      have parted : Parted after := free.resolve_right (by simp [isOwner])
      have ⟨leftGuarded, _, rightGuarded, _⟩ := guarded
      have second := lexes_text right legible.2 rightGuarded (.inl parted)
      have first := lexes_text left legible.1 leftGuarded (.inl (parted_cons ' ' (by decide)
        ((op.mark.spelling ++ ' ' :: right.text.toList) ++ after)))
      have written : (binary op left right).text.toList =
          left.text.toList ++ ' ' :: (op.mark.spelling ++ ' ' :: right.text.toList) := by
        simp [text, op.toList_spelling]
      rw [written]
      exact first.append (second.cons_spaced op.mark)
  | assign target value, legible, guarded, after, free => by
      have parted : Parted after := free.resolve_right (by simp [isOwner])
      have ⟨_, targetGuarded, valueGuarded⟩ := guarded
      have second := lexes_text value legible.2 valueGuarded (.inl parted)
      have first := lexes_text target legible.1 targetGuarded (.inl (parted_cons ' ' (by decide)
        ((Mark.assign.spelling ++ ' ' :: value.text.toList) ++ after)))
      have written : (assign target value).text.toList =
          target.text.toList ++ ' ' :: (Mark.assign.spelling ++ ' ' :: value.text.toList) := by
        simp [text, Mark.spelling]
      rw [written]
      exact first.append (second.cons_spaced .assign)
  | call callee args, legible, guarded, after, _ => by
      have inside := lexes_texts args legible.2 guarded (parted_cons ')' (by decide) after)
      have isCallee := Lexes.ofWord (isWord_of_isName legible.1) (unworded_cons '(' (by decide)
        (((", ".intercalate (texts args)).toList ++ [')']) ++ after))
      have written : (call callee args).text.toList =
          callee.name.toList ++ '(' :: ((", ".intercalate (texts args)).toList ++ [')']) := by
        simp [text]
      rw [written]
      exact isCallee.append
        ((inside.append (Lexes.mark_alone .rightParen rfl after)).cons_mark .leftParen rfl)
  | field value part, legible, guarded, after, free => by
      have free : Unworded after := free.elim Parted.unworded And.right
      have isPart := lexes_part .direct legible.2 free
      have first := lexes_text value legible.1 guarded.1
        (.inr ⟨guarded.2, unworded_cons '.' (by decide) (part.toList ++ after)⟩)
      have written : (field value part).text.toList = value.text.toList ++ '.' :: part.toList := by
        simp [text]
      rw [written]
      exact first.append isPart
  | arrow value part, legible, guarded, after, free => by
      have free : Unworded after := free.elim Parted.unworded And.right
      have isPart := lexes_part .throughPointer legible.2 free
      have first := lexes_text value legible.1 guarded.1
        (.inr ⟨guarded.2, unworded_cons '-' (by decide) ('>' :: (part.toList ++ after))⟩)
      have written : (arrow value part).text.toList =
          value.text.toList ++ '-' :: '>' :: part.toList := by
        simp [text]
      rw [written]
      exact first.append isPart
  | index value position, legible, guarded, after, _ => by
      have ⟨valueGuarded, _, positionGuarded⟩ := guarded
      have second := lexes_text position legible.2 positionGuarded
        (.inl (parted_cons ']' (by decide) after))
      have first := lexes_text value legible.1 valueGuarded (.inl (parted_cons '[' (by decide)
        ((position.text.toList ++ [']']) ++ after)))
      have written : (index value position).text.toList =
          value.text.toList ++ '[' :: (position.text.toList ++ [']']) := by
        simp [text]
      rw [written]
      exact first.append
        ((second.append (Lexes.mark_alone .rightBracket rfl after)).cons_mark .leftBracket rfl)
  | .cast ty operand, legible, guarded, after, free => by
      have parted : Parted after := free.resolve_right (by simp [isOwner])
      have inside := lexes_text operand legible.2 guarded.1 (.inl parted)
      have written : (Expr.cast ty operand).text.toList =
          '(' :: (ty.text.toList ++ ')' :: operand.text.toList) := by
        simp [text]
      rw [written]
      exact lexes_ty_paren legible.1 inside
  | .sizeOf ty, legible, _, after, _ => by
      have isWord := Lexes.ofWord (by decide : isWord "sizeof" = true)
        (unworded_cons '(' (by decide) ((ty.text.toList ++ [')']) ++ after))
      have written : (Expr.sizeOf ty).text.toList =
          "sizeof".toList ++ '(' :: (ty.text.toList ++ [')']) := by
        simp [text]
      rw [written]
      exact isWord.append (lexes_ty_paren legible (Lexes.nil after))
  | zeroStruct tag, legible, _, after, _ => by
      have isNumeral : IsNumeral "0".toList := ⟨'0', [], rfl, rfl, rfl⟩
      have isZero := Lexes.ofNumeral isNumeral (parted_cons '\x7d' (by decide) after)
      have named : (Ty.struct tag).IsNamed := legible
      have written : (zeroStruct tag).text.toList =
          '(' :: ((Ty.struct tag).text.toList ++ ')' :: '\x7b' :: ("0".toList ++ ['\x7d'])) := by
        simp [text, zeroInitializer]
      rw [written]
      exact lexes_ty_paren named
        ((isZero.append (Lexes.mark_alone .rightBrace rfl after)).cons_mark .leftBrace rfl)
  | result tag slot value, legible, guarded, after, _ => by
      have inside := lexes_text value legible guarded (.inl (parted_cons ' ' (by decide)
        ('\x7d' :: ' ' :: '\x7d' :: after)))
      have closing (after : List Char) : Lexes [' ', '\x7d'] [.mark .rightBrace] after :=
        (Lexes.mark_alone .rightBrace rfl after).cons_space
      have isSlot := (lexes_designated (isName_slot slot) inside).append (closing _)
      have isPayload := lexes_designated (by decide : isName "value" = true)
        (isSlot.cons_space.cons_mark .leftBrace rfl)
      have isTag (rest : List Char) := lexes_designated (by decide : isName "type" = true)
        (Lexes.ofWord (isWord_of_isName (isName_tag tag)) (unworded_cons ',' (by decide) rest))
      have isItems := (isTag _).append
        ((isPayload.append (closing after)).cons_space.cons_mark .comma rfl)
      have isResult : Ty.result.IsNamed := trivial
      have whole := lexes_ty_paren isResult (isItems.cons_space.cons_mark .leftBrace rfl)
      simpa [text, tree, Tree.tokens, Tree.tokensOf, Tree.moreTokens, Mark.spelling, Atom.token]
        using whole

theorem lexes_texts : (exprs : List Expr) → AllLegible exprs → AllGuarded exprs →
    {after : List Char} → Parted after →
    Lexes (", ".intercalate (texts exprs)).toList (Tree.tokensOf (trees exprs)) after
  | [], _, _, after, _ => by
      rw [texts, String.intercalate_nil]
      exact Lexes.nil after
  | [expr], legible, guarded, _, parted => by
      have first := lexes_text expr legible.1 guarded.1 (.inl parted)
      rw [texts, texts, String.intercalate_singleton, trees, trees, Tree.tokensOf, Tree.moreTokens,
        List.append_nil]
      exact first
  | expr :: second :: exprs, legible, guarded, after, parted => by
      have others := lexes_texts (second :: exprs) legible.2 guarded.2 parted
      have first := lexes_text expr legible.1 guarded.1 (.inl (parted_cons ',' (by decide)
        ((' ' :: (", ".intercalate (texts (second :: exprs))).toList) ++ after)))
      have written : (", ".intercalate (texts (expr :: second :: exprs))).toList =
          expr.text.toList ++
            ',' :: ' ' :: (", ".intercalate (texts (second :: exprs))).toList := by
        simp [texts, String.intercalate_cons_cons]
      rw [written]
      exact first.append (others.cons_space.cons_mark .comma rfl)

end

theorem lex_text {expr : Expr} (legible : expr.Legible) (guarded : expr.Guarded) :
    lex expr.text.toList = some expr.tree.tokens := by
  have lexes := lexes_text expr legible guarded (.inl (by simp [Parted] : Parted []))
  rw [Lexes, List.append_nil] at lexes
  simpa [lex] using lexes

/-- A text is read as its tree exactly if no operand is an assignment. -/
theorem read_text_iff {expr : Expr} (legible : expr.Legible) (guarded : expr.Guarded) :
    read expr.text = some expr.tree.bare ↔ expr.tree.bare.Apart := by
  rw [read_eq_some_iff (lex_text legible guarded) expr.level_tree]
  exact fits_tree_iff expr legible guarded

end Expr

end C

end Offside
