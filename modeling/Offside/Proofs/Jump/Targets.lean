import Mathlib.Data.List.Forall2
import Offside.Compile
import Offside.Proofs.Jump.Names
import Offside.Proofs.Unit.Functions

/-!
# Jumps go to loops around them

The jumps in a tree are listed from the tree alone, each with the labels of the loops around it. A
check that succeeds finds each of them inside a loop, and those that name a loop inside one of that
name only. Generated code has the same jumps in the same nests of loops, and the ones that name a
loop go to a label of that very loop.
-/

namespace Offside

structure WrittenJump where
  jump : Jump
  label : Option String
  around : List (Option String)

mutual

/-- The jumps in a statement that lies in loops with some labels. -/
def Form.jumps (around : List (Option String)) : Form → List WrittenJump
  | .function ⟨_, _, _, body⟩ => bodyJumps [] body
  | .classDef ⟨_, _, _, body⟩ => bodyJumps [] body
  | .assign _ _ => []
  | .declare _ _ _ => []
  | .branch _ body orelse => bodyJumps around body ++ bodyJumps around orelse
  | .whileLoop _ body label => bodyJumps (label :: around) body
  | .forLoop _ _ body label => bodyJumps (label :: around) body
  | .jump jump label => [⟨jump, label, around⟩]
  | .ret _ => []
  | .expr _ => []
  | .pass => []
  | .select _ cases => caseJumps around cases
  | .import_ _ => []

def bodyJumps (around : List (Option String)) : List Statement → List WrittenJump
  | [] => []
  | ⟨_, form⟩ :: others => form.jumps around ++ bodyJumps around others

def caseJumps (around : List (Option String)) : List Case → List WrittenJump
  | [] => []
  | ⟨_, body, _⟩ :: others => bodyJumps around body ++ caseJumps around others

end

/-- A jump lies in a loop, and in exactly one that it names. -/
def WrittenJump.Aims (jump : WrittenJump) : Prop :=
  jump.around ≠ [] ∧ ∀ label, jump.label = some label → jump.around.count (some label) = 1

namespace Check

open Outcome

/-- No label is that of two loops. -/
def Distinct (loops : List (Option String)) : Prop := ∀ label, loops.count (some label) ≤ 1

/-- A loop keeps the labels around it distinct. -/
theorem distinct_of_inLoop {around inside : Surroundings} {label : Option String}
    (distinct : Distinct around.loops) (entered : around.inLoop label = .ok inside) :
    inside.loops = label :: around.loops ∧ Distinct inside.loops := by
  cases label with
  | none =>
      obtain rfl := Except.ok.inj entered
      exact ⟨rfl, fun other => by simpa using distinct other⟩
  | some word =>
      simp only [Surroundings.inLoop, error_ite_eq_ok, Except.ok.injEq] at entered
      obtain ⟨untaken, rfl⟩ := entered
      refine ⟨rfl, fun other => ?_⟩
      have untaken : around.loops.count (some word) = 0 :=
        List.count_eq_zero.mpr (by simpa using untaken)
      by_cases same : word = other
      · subst same
        simp [untaken]
      · simpa [List.count_cons, same] using distinct other

theorem aims_of_checkJump {around : Surroundings} {jump : Jump} {label : Option String}
    (distinct : Distinct around.loops) (checked : checkJump around jump label = .ok ()) :
    WrittenJump.Aims ⟨jump, label, around.loops⟩ := by
  simp only [checkJump, error_ite_eq_ok] at checked
  obtain ⟨inside, checked⟩ := checked
  refine ⟨by simpa using inside, ?_⟩
  rintro word rfl
  have member : some word ∈ around.loops := by simpa using checked
  have := List.count_pos_iff.mpr member
  have := distinct word
  show around.loops.count (some word) = 1
  omega

mutual

/-- The jumps of a checked statement go to loops around them. -/
theorem aims_of_checkForm {around : Surroundings} (distinct : Distinct around.loops)
    {line : Nat} {table after : Table} :
    (form : Form) → checkForm around line form table = .ok after →
      ∀ jump ∈ form.jumps around.loops, jump.Aims
  | .branch test body orelse, checked => by
      simp only [checkForm, bind_eq_ok] at checked
      obtain ⟨_, _, first, isFirst, second, isSecond, _⟩ := checked
      exact List.forall_mem_append.mpr
        ⟨aims_of_checkBody distinct body isFirst, aims_of_checkBody distinct orelse isSecond⟩
  | .whileLoop test body label, checked => by
      simp only [checkForm, bind_eq_ok, onLine_eq_ok] at checked
      obtain ⟨_, _, inside, isInside, first, isFirst, _⟩ := checked
      obtain ⟨loops_eq, distinct⟩ := distinct_of_inLoop distinct isInside
      rw [Form.jumps, ← loops_eq]
      exact aims_of_checkBody distinct body isFirst
  | .forLoop target iter body label, checked => by
      simp only [checkForm, bind_eq_ok, onLine_eq_ok] at checked
      obtain ⟨_, _, inside, isInside, _, _, last, isLast, _⟩ := checked
      obtain ⟨loops_eq, distinct⟩ := distinct_of_inLoop distinct isInside
      rw [Form.jumps, ← loops_eq]
      exact aims_of_checkBody distinct body isLast
  | .jump jump label, checked => by
      simp only [checkForm, bind_eq_ok, onLine_eq_ok] at checked
      obtain ⟨_, isJump, _⟩ := checked
      intro other member
      rw [Form.jumps, List.mem_singleton] at member
      exact member ▸ aims_of_checkJump distinct isJump
  | .select subject cases, checked => by
      simp only [checkForm, bind_eq_ok, onLine_eq_ok] at checked
      obtain ⟨_, _, checked⟩ := checked
      exact aims_of_checkCases distinct cases checked
  | .declare _ _ _, _ => nofun
  | .assign _ _, _ => nofun
  | .ret _, _ => nofun
  | .expr _, _ => nofun
  | .pass, _ => nofun
  | .import_ _, checked => by simp [checkForm] at checked
  | .function _, checked => by simp [checkForm] at checked
  | .classDef _, checked => by simp [checkForm] at checked

theorem aims_of_checkBody {around : Surroundings} (distinct : Distinct around.loops)
    {table after : Table} :
    (body : List Statement) → checkBody around body table = .ok after →
      ∀ jump ∈ bodyJumps around.loops body, jump.Aims
  | [], _ => nofun
  | ⟨line, form⟩ :: others, checked => by
      simp only [checkBody, bind_eq_ok] at checked
      obtain ⟨middle, isMiddle, rest⟩ := checked
      exact List.forall_mem_append.mpr
        ⟨aims_of_checkForm distinct form isMiddle, aims_of_checkBody distinct others rest⟩

theorem aims_of_checkCases {around : Surroundings} (distinct : Distinct around.loops)
    {subject : Ty} {table after : Table} :
    (cases : List Case) → checkCases around subject cases table = .ok after →
      ∀ jump ∈ caseJumps around.loops cases, jump.Aims
  | [], _ => nofun
  | ⟨pattern, body, line⟩ :: others, checked => by
      simp only [checkCases, bind_eq_ok] at checked
      obtain ⟨_, _, middle, isMiddle, rest⟩ := checked
      exact List.forall_mem_append.mpr
        ⟨aims_of_checkBody distinct body isMiddle, aims_of_checkCases distinct others rest⟩

end

theorem aims_of_checkFunction {owner : Option String} {line : Nat} {decl : FunctionDef}
    {table after : Table} (checked : checkFunction owner line decl table = .ok after) :
    ∀ jump ∈ bodyJumps [] decl.body, jump.Aims := by
  simp only [checkFunction, bind_eq_ok] at checked
  obtain ⟨signature, _, _, _, _, _, inside, _, last, isLast, _⟩ := checked
  refine aims_of_checkBody ?_ decl.body isLast
  exact fun _ => Nat.zero_le 1

theorem aims_of_defines {kind : UnitKind} {fragments : List Fragment} {body : List Statement}
    {table : Table} {owner : Option String} {decl : FunctionDef}
    (accepted : checkUnit kind fragments body = .ok table) (defines : Defines body owner decl) :
    ∀ jump ∈ bodyJumps [] decl.body, jump.Aims := by
  obtain ⟨_, _, _, checked⟩ := checkFunction_of_defines accepted defines
  exact aims_of_checkFunction checked

end Check

namespace Lower

open Outcome

/-! ## Loops and their names -/

/-- A loop of generated code has a name made of its label, if any. -/
def NamedFor : Option String → C.Loop → Prop
  | none, loop => loop.label = none
  | some label, loop => ∃ number, loop.label = some (loopName label number)

/-- The same jump in generated code goes to the loop that it names. -/
structure Lands (written : WrittenJump) (placed : C.PlacedJump) : Prop where
  jump_eq : placed.jump = written.jump
  loops : List.Forall₂ NamedFor written.around placed.around
  plain : written.label = none → placed.label = none
  named : ∀ label, written.label = some label →
    ∃ (position : Nat) (loop : C.Loop) (name : String),
      written.around[position]? = some (some label) ∧ placed.around[position]? = some loop ∧
        loop.label = some name ∧ placed.label = some name

theorem Lands.exists_loop {written : WrittenJump} {placed : C.PlacedJump}
    (lands : Lands written placed) {name : String} (isName : placed.label = some name) :
    ∃ loop ∈ placed.around, loop.label = some name := by
  cases isLabel : written.label with
  | none => simp [lands.plain isLabel] at isName
  | some label =>
      obtain ⟨position, loop, found, _, isLoop, isFound, named⟩ := lands.named label isLabel
      refine ⟨loop, List.mem_of_getElem? isLoop, ?_⟩
      rw [isFound, ← named, isName]

theorem exists_loop_of_lands {jumps : List WrittenJump} {placed : List C.PlacedJump}
    (lands : List.Forall₂ Lands jumps placed) {jump : C.PlacedJump} (member : jump ∈ placed)
    {name : String} (isName : jump.label = some name) :
    ∃ loop ∈ jump.around, loop.label = some name := by
  induction lands with
  | nil => exact absurd member List.not_mem_nil
  | cons first others induction =>
      rcases List.mem_cons.mp member with rfl | later
      · exact first.exists_loop isName
      · exact induction later

/-- The labels of the loops around a statement, and what they have become. -/
inductive Knows : List (Option String) → List (String × String) → List C.Loop → Prop
  | nil : Knows [] [] []
  | plain {labels : List (Option String)} {names : List (String × String)} {loops : List C.Loop}
      {loop : C.Loop} (known : Knows labels names loops) (nameless : loop.label = none) :
      Knows (none :: labels) names (loop :: loops)
  | named {labels : List (Option String)} {names : List (String × String)} {loops : List C.Loop}
      {loop : C.Loop} {label : String} {number : Nat} (known : Knows labels names loops)
      (isName : loop.label = some (loopName label number)) :
      Knows (some label :: labels) ((label, loopName label number) :: names) (loop :: loops)

namespace Knows

variable {labels : List (Option String)} {names : List (String × String)} {loops : List C.Loop}

theorem forall₂ (known : Knows labels names loops) : List.Forall₂ NamedFor labels loops := by
  induction known with
  | nil => exact .nil
  | plain known nameless induction => exact .cons nameless induction
  | named known isName induction => exact .cons ⟨_, isName⟩ induction

theorem exists_loop (known : Knows labels names loops) {label : String} {found : String × String}
    (isFound : names.find? (·.1 = label) = some found) :
    ∃ (position : Nat) (loop : C.Loop), labels[position]? = some (some label) ∧
      loops[position]? = some loop ∧ loop.label = some found.2 := by
  induction known with
  | nil => simp at isFound
  | plain known nameless induction =>
      obtain ⟨position, loop, isLabel, isLoop, isName⟩ := induction isFound
      exact ⟨position + 1, loop, isLabel, isLoop, isName⟩
  | @named labels names loops loop word number known isName induction =>
      by_cases same : word = label
      · obtain rfl : (word, loopName word number) = found := by simpa [same] using isFound
        exact ⟨0, loop, by rw [same]; rfl, rfl, isName⟩
      · obtain ⟨position, loop, isLabel, isLoop, isName⟩ :=
          induction (by simpa [List.find?_cons, same] using isFound)
        exact ⟨position + 1, loop, isLabel, isLoop, isName⟩

theorem lands {around : Surroundings} (known : Knows labels around.loops loops) {jump : Jump}
    {label : Option String} {stmt : C.Stmt} (lowered : lowerJump around jump label = .ok stmt) :
    ∃ name, stmt = .jump jump name ∧ Lands ⟨jump, label, labels⟩ ⟨jump, name, loops⟩ := by
  cases label with
  | none =>
      obtain rfl := Except.ok.inj lowered
      exact ⟨none, rfl, rfl, known.forall₂, fun _ => rfl, by rintro _ ⟨⟩⟩
  | some word =>
      cases isFound : around.loops.find? (·.1 = word) with
      | none => simp [lowerJump, isFound] at lowered
      | some found =>
          simp only [lowerJump, isFound, Except.ok.injEq] at lowered
          refine ⟨some found.2, lowered.symm, rfl, known.forall₂, by rintro ⟨⟩, ?_⟩
          rintro _ ⟨⟩
          obtain ⟨position, loop, isLabel, isLoop, isName⟩ := known.exists_loop isFound
          exact ⟨position, loop, found.2, isLabel, isLoop, isName, rfl⟩

theorem inLoop {around inside : Surroundings} (known : Knows labels around.loops loops)
    {label name : Option String} {walk next : Walk}
    (entered : around.inLoop label walk = (name, inside, next)) (depth : Nat) (head : String)
    (pieces : List C.Piece) :
    Knows (label :: labels) inside.loops (⟨depth, head, name, pieces⟩ :: loops) := by
  cases label with
  | none =>
      obtain ⟨rfl, rfl, rfl⟩ := by simpa [Surroundings.inLoop] using entered
      exact known.plain rfl
  | some word =>
      obtain ⟨rfl, rfl, rfl⟩ := by simpa [Surroundings.inLoop] using entered
      exact known.named rfl

end Knows

def namesOf (pieces : List C.Piece) : List String := (C.loopsOf pieces).filterMap (·.label)

@[simp]
theorem namesOf_append (pieces others : List C.Piece) :
    namesOf (pieces ++ others) = namesOf pieces ++ namesOf others := by
  simp [namesOf]

theorem namesOf_loop (loop : C.Loop) :
    namesOf [.loop loop] = namesOf loop.inside ++ loop.label.toList := by
  obtain ⟨depth, head, label, inside⟩ := loop
  cases label <;> simp [namesOf, C.loopsOf, C.Piece.loops]

theorem flatMap_labels (loops : List C.Loop) :
    loops.flatMap C.Loop.labels = (loops.filterMap (·.label)).flatMap C.labelsFor := by
  induction loops with
  | nil => rfl
  | cons loop loops induction =>
      obtain ⟨depth, head, label, inside⟩ := loop
      cases label <;> simp [C.Loop.labels, induction]

variable {walk next : Walk} {view : View}

theorem MadeBetween.inLoop {around inside : Surroundings} {label name : Option String} {last : Nat}
    {names : List String} (entered : around.inLoop label walk = (name, inside, next))
    (made : MadeBetween next.made last names) :
    MadeBetween walk.made last (names ++ name.toList) := by
  cases label with
  | none =>
      obtain ⟨rfl, rfl, rfl⟩ := by simpa [Surroundings.inLoop] using entered
      simpa using made
  | some word =>
      obtain ⟨rfl, rfl, rfl⟩ := by simpa [Surroundings.inLoop] using entered
      exact ((MadeBetween.single word walk.made).append made).perm List.perm_append_comm

/-- Code in some loops has given jumps, and its loops have rising numbers. -/
structure Carries (loops : List C.Loop) (jumps : List WrittenJump) (first : Nat)
    (pieces : List C.Piece) (last : Nat) : Prop where
  lands : List.Forall₂ Lands jumps (C.jumpsOf loops pieces)
  names : MadeBetween first last (namesOf pieces)

namespace Carries

variable {loops : List C.Loop} {jumps others : List WrittenJump} {first middle last : Nat}
  {pieces rest : List C.Piece}

theorem nil (le : first ≤ last) : Carries loops [] first [] last := ⟨.nil, .nil le⟩

theorem code (depth : Nat) (text : String) (number : Nat) :
    Carries loops [] number [.code depth text] number := ⟨.nil, .nil (Nat.le_refl _)⟩

theorem append (earlier : Carries loops jumps first pieces middle)
    (later : Carries loops others middle rest last) :
    Carries loops (jumps ++ others) first (pieces ++ rest) last where
  lands := by
    rw [C.jumpsOf_append]
    exact List.rel_append earlier.lands later.lands
  names := by
    rw [namesOf_append]
    exact earlier.names.append later.names

/-- Code before a block that has no jumps in it. -/
theorem after_code (depth : Nat) (text : String) (carries : Carries loops jumps first pieces last) :
    Carries loops jumps first (.code depth text :: pieces) last :=
  (code depth text first).append carries

/-- Code after a block that has no jumps in it. -/
theorem before_code (depth : Nat) (text : String)
    (carries : Carries loops jumps first pieces last) :
    Carries loops jumps first (pieces ++ [.code depth text]) last := by
  simpa using carries.append (code depth text last)

theorem uncons_code {depth : Nat} {text : String}
    (carries : Carries loops jumps first (.code depth text :: pieces) last) :
    Carries loops jumps first pieces last := ⟨carries.lands, carries.names⟩

theorem mono (carries : Carries loops jumps middle pieces last) (le : first ≤ middle) :
    Carries loops jumps first pieces last :=
  (nil le).append carries

theorem loop {around inside : Surroundings} {label name : Option String} {walk next : Walk}
    (entered : around.inLoop label walk = (name, inside, next)) {depth : Nat} {head : String}
    (carries : Carries (⟨depth, head, name, pieces⟩ :: loops) jumps next.made pieces last) :
    Carries loops jumps walk.made [.loop ⟨depth, head, name, pieces⟩] last where
  lands := by
    simpa [C.jumpsOf, C.Piece.jumps] using carries.lands
  names := by
    rw [namesOf_loop]
    exact carries.names.inLoop entered

/-- How a chain opens does not matter to what it carries. -/
theorem later {depth : Nat} {arms : List C.Arm}
    (carries : Carries loops jumps first (C.armPieces depth true arms) last) :
    Carries loops jumps first (C.armPieces depth false arms) last := by
  cases arms with
  | nil => exact carries.after_code depth "\x7d"
  | cons arm arms =>
      obtain ⟨condition, body⟩ := arm
      exact carries.uncons_code.after_code depth (C.armHead false condition)

theorem elseArms {orelse : List Statement} {code : List C.Stmt} (empty : orelse = [] → code = [])
    (carries : ∀ depth, Carries loops jumps first (C.bodyPieces depth code) last) (depth : Nat) :
    Carries loops jumps first (C.armPieces depth false (elseArms orelse code)) last := by
  rw [elseArms.eq_def]
  split
  · rw [empty rfl] at carries
    exact (carries depth).after_code depth "\x7d"
  · rename_i arms
    have chain := carries depth
    rw [C.bodyPieces, C.bodyPieces, List.append_nil] at chain
    exact chain.later
  · exact ((carries (depth + 1)).before_code depth "\x7d").after_code depth (C.armHead false none)

end Carries

theorem Walk.made_of_enter {table : Table} (entered : walk.enter table = .ok next) :
    walk.made = next.made := by
  simp only [Walk.enter, ite_error_eq_ok, Except.ok.injEq] at entered
  obtain ⟨_, rfl⟩ := entered
  rfl

theorem CountsBy.made_le {target : String} {iter : Expr} {counted : Counting}
    (counts : CountsBy view target iter walk counted next) : walk.made ≤ next.made := by
  cases counts with
  | upTo => exact Nat.le_refl _
  | between => exact Nat.le_refl _
  | positions => exact Nat.le_succ _

theorem CountsBy.carries_opening {target : String} {iter : Expr} {counted : Counting}
    (counts : CountsBy view target iter walk counted next) (loops : List C.Loop)
    (depth number : Nat) : Carries loops [] number (C.bodyPieces depth counted.opening) number := by
  cases counts with
  | upTo => exact .nil (Nat.le_refl _)
  | between => exact .nil (Nat.le_refl _)
  | positions => exact .code depth _ number

theorem LowersTo.made_le {subject : Expr} {lowered : Subject}
    (lowers : LowersTo view subject walk lowered next) : walk.made ≤ next.made := by
  cases lowers with
  | shown => exact Nat.le_refl _
  | kept => exact Nat.le_succ _

theorem exists_ret_of_lowerReturn {around : Surroundings} {value : Option Expr} {stmt : C.Stmt}
    (lowered : lowerReturn around view value = .ok stmt) : ∃ result, stmt = .ret result := by
  rw [lowerReturn.eq_def] at lowered
  split at lowered
  · exact ⟨_, (Except.ok.inj lowered).symm⟩
  · split at lowered
    · exact ⟨_, (Except.ok.inj lowered).symm⟩
    · split at lowered
      · exact ⟨_, (Except.ok.inj lowered).symm⟩
      · obtain ⟨code, _, rfl⟩ := by simpa using lowered
        exact ⟨_, rfl⟩

mutual

theorem carries_of_lowerForm {labels : List (Option String)} {around : Surroundings}
    {loops : List C.Loop} (known : Knows labels around.loops loops) {line : Nat}
    {walk next : Walk} {code : List C.Stmt} :
    (form : Form) → lowerForm around line form walk = .ok (code, next) → (depth : Nat) →
      Carries loops (form.jumps labels) walk.made (C.bodyPieces depth code) next.made
  | .declare target written value, lowered, depth => by
      simp only [lowerForm, bind_eq_ok, pure_eq_ok, Prod.mk.injEq] at lowered
      obtain ⟨definition, _, rfl, rfl⟩ := lowered
      exact .code depth definition.text walk.made
  | .assign target value, lowered, depth => by
      simp only [lowerForm, lowerAssign, bind_eq_ok, pure_eq_ok, Prod.mk.injEq] at lowered
      obtain ⟨stmt, isStmt, rfl, rfl⟩ := lowered
      split at isStmt
      · simp at isStmt
      · obtain ⟨first, _, second, _, rfl⟩ := by simpa using isStmt
        exact .code depth _ walk.made
  | .branch test body orelse, lowered, depth => by
      simp only [lowerForm, lowerElse_eq, bind_eq_ok, pure_eq_ok, Prod.exists,
        Prod.mk.injEq] at lowered
      obtain ⟨condition, _, first, isFirst, inner, within, isInner, arms, _,
        ⟨second, isSecond, other, after, isOther, rfl, rfl⟩, rfl, rfl⟩ := lowered
      have empty : orelse = [] → other = [] := by
        rintro rfl
        obtain ⟨rfl, _⟩ := by simpa [lowerBody] using isOther
        rfl
      have left := carries_of_lowerBody known body isInner (depth + 1)
      have right := Carries.elseArms empty (carries_of_lowerBody known orelse isOther) depth
      rw [← Walk.made_of_enter isFirst] at left
      rw [← Walk.made_of_enter isSecond] at right
      rw [C.bodyPieces, C.bodyPieces, List.append_nil, C.Stmt.pieces, C.armPieces]
      exact (left.append right).after_code depth (C.armHead true (some condition))
  | .whileLoop test body label, lowered, depth => by
      rcases entered : around.inLoop label walk with ⟨name, inside, start⟩
      simp only [lowerForm, entered, bind_eq_ok, pure_eq_ok, Prod.exists, Prod.mk.injEq] at lowered
      obtain ⟨condition, _, first, isFirst, inner, within, isInner, rfl, rfl⟩ := lowered
      have carried (head : String) (pieces : List C.Piece) :=
        carries_of_lowerBody (known.inLoop entered depth head pieces) body isInner (depth + 1)
      refine .loop entered ?_
      exact (carried _ _).mono (Nat.le_of_eq (Walk.made_of_enter isFirst))
  | .forLoop target iter body label, lowered, depth => by
      simp only [lowerForm, bind_eq_ok, pure_eq_ok, Prod.exists, Prod.mk.injEq] at lowered
      obtain ⟨counted, second, isCounted, first, isFirst, inner, within, isInner, rfl, rfl⟩ := lowered
      rcases entered : around.inLoop label second with ⟨name, inside, start⟩
      rw [entered] at isFirst isInner
      have counts := countsBy_of_counting isCounted
      have carried (head : String) (pieces : List C.Piece) :=
        (counts.carries_opening _ (depth + 1) first.made).append
          (carries_of_lowerBody (known.inLoop entered depth head pieces) body isInner (depth + 1))
      simp only [← C.bodyPieces_append] at carried
      refine Carries.mono (.loop entered ?_) counts.made_le
      exact (carried _ _).mono (Nat.le_of_eq (Walk.made_of_enter isFirst))
  | .jump jump label, lowered, depth => by
      simp only [lowerForm, bind_eq_ok, pure_eq_ok, Prod.mk.injEq] at lowered
      obtain ⟨stmt, isStmt, rfl, rfl⟩ := lowered
      obtain ⟨name, rfl, lands⟩ := known.lands isStmt
      exact ⟨.cons lands .nil, .nil (Nat.le_refl _)⟩
  | .ret value, lowered, depth => by
      simp only [lowerForm, bind_eq_ok, pure_eq_ok, Prod.mk.injEq] at lowered
      obtain ⟨stmt, isStmt, rfl, rfl⟩ := lowered
      obtain ⟨result, rfl⟩ := exists_ret_of_lowerReturn isStmt
      cases result with
      | none => exact .code depth _ walk.made
      | some result => exact .code depth _ walk.made
  | .expr value, lowered, depth => by
      rcases lowerForm_expr around line value walk with ⟨⟨text, rfl⟩, same⟩ | same
      · obtain ⟨rfl, rfl⟩ := by simpa [same] using lowered
        exact .nil (Nat.le_refl _)
      · obtain ⟨code, _, rfl, rfl⟩ := by simpa [same] using lowered
        exact .code depth _ walk.made
  | .pass, lowered, depth => by
      obtain ⟨rfl, rfl⟩ := by simpa [lowerForm] using lowered
      exact .nil (Nat.le_refl _)
  | .select subject cases, lowered, depth => by
      simp only [lowerForm, bind_eq_ok, pure_eq_ok, Prod.exists, Prod.mk.injEq] at lowered
      obtain ⟨shown, second, isShown, arms, after, isArms, rfl, rfl⟩ := lowered
      have carried := carries_of_lowerCases known cases isArms depth true
      have lowers := lowersTo_of_lowerSubject isShown
      rw [C.bodyPieces, C.bodyPieces, List.append_nil, C.Stmt.pieces]
      refine Carries.mono ?_ lowers.made_le
      cases lowers with
      | shown => exact carried
      | kept => exact carried.after_code depth _
  | .import_ _, lowered, _ => by simp [lowerForm] at lowered
  | .function _, lowered, _ => by simp [lowerForm] at lowered
  | .classDef _, lowered, _ => by simp [lowerForm] at lowered

theorem carries_of_lowerBody {labels : List (Option String)} {around : Surroundings}
    {loops : List C.Loop} (known : Knows labels around.loops loops) {walk next : Walk}
    {code : List C.Stmt} :
    (body : List Statement) → lowerBody around body walk = .ok (code, next) → (depth : Nat) →
      Carries loops (bodyJumps labels body) walk.made (C.bodyPieces depth code) next.made
  | [], lowered, depth => by
      obtain ⟨rfl, rfl⟩ := by simpa [lowerBody] using lowered
      exact .nil (Nat.le_refl _)
  | ⟨line, form⟩ :: others, lowered, depth => by
      simp only [lowerBody, bind_eq_ok, pure_eq_ok, Prod.exists, Prod.mk.injEq] at lowered
      obtain ⟨first, middle, isFirst, rest, last, isRest, rfl, rfl⟩ := lowered
      rw [C.bodyPieces_append]
      exact (carries_of_lowerForm known form isFirst depth).append
        (carries_of_lowerBody known others isRest depth)

theorem carries_of_lowerCases {labels : List (Option String)} {around : Surroundings}
    {loops : List C.Loop} (known : Knows labels around.loops loops) {subject : Subject}
    {walk next : Walk} {arms : List C.Arm} :
    (cases : List Case) → lowerCases around subject cases walk = .ok (arms, next) →
      (depth : Nat) → (isFirst : Bool) →
      Carries loops (caseJumps labels cases) walk.made (C.armPieces depth isFirst arms) next.made
  | [], lowered, depth, isFirst => by
      obtain ⟨rfl, rfl⟩ := by simpa [lowerCases] using lowered
      cases isFirst with
      | true => exact .nil (Nat.le_refl _)
      | false => exact .code depth "\x7d" walk.made
  | ⟨pattern, body, line⟩ :: others, lowered, depth, isFirst => by
      simp only [lowerCases, bind_eq_ok, pure_eq_ok, Prod.exists, Prod.mk.injEq] at lowered
      obtain ⟨condition, _, first, isEntered, inner, within, isInner, rest, last, isRest, rfl, rfl⟩ :=
        lowered
      have left := carries_of_lowerBody known body isInner (depth + 1)
      have right := carries_of_lowerCases known others isRest depth false
      rw [← Walk.made_of_enter isEntered] at left
      exact (left.append right).after_code depth (C.armHead isFirst condition)

end

theorem loops_of_enterFunction {table : Table} {owner : Option String} {decl : FunctionDef}
    {entered : Entered} (isEntered : enterFunction table owner decl walk = .ok entered) :
    entered.around.loops = [] := by
  simp only [enterFunction, bind_eq_ok] at isEntered
  obtain ⟨signature, _, params, _, isEntered⟩ := isEntered
  split at isEntered
  · obtain ⟨inner, _, rfl⟩ := by simpa using isEntered
    rfl
  · obtain ⟨_, _, inner, _, rfl⟩ := by simpa using isEntered
    rfl

theorem carries_of_lowerFunction {table : Table} {owner : Option String} {decl : FunctionDef}
    {definition : C.FunctionDef}
    (lowered : lowerFunction table owner decl walk = .ok (definition, next)) :
    definition.name = functionName owner decl.name ∧
      Carries [] (bodyJumps [] decl.body) walk.made definition.pieces next.made := by
  simp only [lowerFunction_eq, bind_eq_ok, pure_eq_ok, Prod.exists, Prod.mk.injEq] at lowered
  obtain ⟨entered, isEntered, code, last, isCode, rfl, rfl⟩ := lowered
  refine ⟨rfl, ?_⟩
  have known : Knows [] entered.around.loops [] := by
    rw [loops_of_enterFunction isEntered]
    exact .nil
  obtain ⟨_, _, _, isInner, _⟩ := exists_of_enterFunction isEntered
  have carries := carries_of_lowerBody known decl.body isCode 1
  rw [← Walk.made_of_enter isInner] at carries
  rw [C.FunctionDef.pieces, Entered.close]
  split
  · rw [C.bodyPieces_append]
    exact carries.before_code 1 _
  · exact carries

/-! ## Units -/

/-- Definitions whose jumps land where they aim and whose loops have names of their own. -/
structure Stocked (body : List Statement) (definitions : List C.FunctionDef) (made : Nat) :
    Prop where
  comes : ∀ definition ∈ definitions, ∃ owner decl, Defines body owner decl ∧
    definition.name = functionName owner decl.name ∧
    List.Forall₂ Lands (bodyJumps [] decl.body) definition.jumps
  names : MadeBetween 0 made (definitions.flatMap fun definition => namesOf definition.pieces)

namespace Stocked

variable {table : Table} {body : List Statement} {definitions : List C.FunctionDef}

/-- One more function. -/
theorem add {owner : Option String} {decl : FunctionDef} {walk next : Walk}
    {definition : C.FunctionDef} (stocked : Stocked body definitions walk.made)
    (defines : Defines body owner decl)
    (lowered : lowerFunction table owner decl walk = .ok (definition, next)) :
    Stocked body (definitions ++ [definition]) next.made := by
  obtain ⟨isName, carries⟩ := carries_of_lowerFunction lowered
  constructor
  · intro other member
    rcases List.mem_append.mp member with earlier | isNew
    · exact stocked.comes other earlier
    · obtain rfl := List.mem_singleton.mp isNew
      exact ⟨owner, decl, defines, isName, carries.lands⟩
  · simpa using stocked.names.append carries.names

theorem addAll {items : List (Option String × FunctionDef)} {more : List C.FunctionDef}
    {walk last : Walk} (inTurn : LowersInTurn table walk items more last)
    (defines : ∀ item ∈ items, Defines body item.1 item.2)
    (stocked : Stocked body definitions walk.made) :
    Stocked body (definitions ++ more) last.made := by
  induction inTurn generalizing definitions with
  | nil _ => simpa using stocked
  | cons lowered _ induction =>
      obtain ⟨first, others⟩ := List.forall_mem_cons.mp defines
      rw [List.append_cons]
      exact induction others (stocked.add first lowered)

theorem perm {more : List C.FunctionDef} {made : Nat} (stocked : Stocked body definitions made)
    (same : definitions.Perm more) : Stocked body more made where
  comes definition member := stocked.comes definition (same.mem_iff.mpr member)
  names := stocked.names.perm (same.flatMap_right _)

theorem left {others : List C.FunctionDef} {made : Nat}
    (stocked : Stocked body (definitions ++ others) made) : Stocked body definitions made where
  comes definition member := stocked.comes definition (List.mem_append_left _ member)
  names := by
    have names := stocked.names
    rw [List.flatMap_append] at names
    exact names.left

theorem of_generate {support : String} {target : UnitKind} {unit : C.Unit}
    (generated : generate table support target body = .ok unit) :
    ∃ made, Stocked body (unit.functions ++ unit.entry) made := by
  obtain ⟨definitions, last, inTurn, isFunctions, isEntry⟩ :=
    definitions_of_lowerUnit generated
  have whole : Stocked body ([] ++ definitions) last.made :=
    addAll inTurn (fun _ => defines_of_mem_defined) ⟨nofun, .nil (Nat.le_refl _)⟩
  have apart := whole.perm (List.perm_append_comm.trans
    (List.filter_append_perm (fun definition => decide (definition.name = entryPoint))
      definitions)).symm
  rw [isFunctions, isEntry]
  split
  · exact ⟨last.made, by simpa using apart.left⟩
  · exact ⟨last.made, by simpa using apart⟩

theorem labels_eq (definitions : List C.FunctionDef) :
    definitions.flatMap C.FunctionDef.labels =
      (definitions.flatMap fun definition => namesOf definition.pieces).flatMap C.labelsFor := by
  rw [List.flatMap_assoc]
  congr 1
  funext definition
  rw [C.FunctionDef.labels, C.FunctionDef.lines, C.labelsOn_linesOf, flatMap_labels, namesOf]

end Stocked

end Lower

/-- How the text of a function is laid out in lines. -/
structure C.FunctionDef.LaidOut (definition : C.FunctionDef) : Prop where
  text_eq : definition.text =
    definition.returns.text ++ " " ++ definition.name ++ "("
      ++ C.parameterText (definition.params.map C.Declarator.text) ++ ") \x7b\n"
      ++ C.written definition.lines ++ "\x7d\n"
  jumps_eq : C.jumpsOn definition.lines =
    definition.jumps.map fun jump => (jump.jump, jump.label)
  inside : ∀ jump ∈ definition.jumps, ∀ loop ∈ jump.around, loop ∈ definition.loops
  closed : ∀ loop ∈ definition.loops, ∀ name, loop.label = some name →
    ⟨loop.depth, .code loop.head⟩ :: (C.linesOf loop.inside ++
      [⟨loop.depth + 1, .label (C.jumpLabel name .next)⟩, ⟨loop.depth, .code "\x7d"⟩,
        ⟨loop.depth, .label (C.jumpLabel name .leave)⟩]) <:+: definition.lines

theorem C.FunctionDef.laidOut (definition : C.FunctionDef) : definition.LaidOut where
  text_eq := definition.text_eq_written
  jumps_eq := C.jumpsOn_linesOf [] definition.pieces
  inside := by
    intro jump member loop isAround
    exact (C.mem_loopsOf_of_around definition.pieces member isAround).resolve_left List.not_mem_nil
  closed := by
    intro loop member name isName
    have together := C.lines_isInfix_linesOf definition.pieces member
    rw [C.Loop.lines, isName] at together
    exact together

/-- In an accepted unit, jumps lie in loops, and one that names a loop lies in exactly one of that
name. Its C form has the same jumps in the same nests of loops, and one that names a loop goes to
its label, which is defined once, in the same function. -/
theorem jumps_land_in_their_loops {kind : UnitKind} {modules : List Fragment}
    {body : List Statement} {table : Table} (analyzed : analyze kind modules body = .ok table)
    {support : String} {target : UnitKind} {unit : C.Unit}
    (generated : generate table support target body = .ok unit) :
    (∀ definition ∈ unit.functions ++ unit.entry,
      definition.LaidOut ∧
      (∃ owner decl, Defines body owner decl ∧ definition.name = Lower.functionName owner decl.name ∧
        (∀ jump ∈ bodyJumps [] decl.body, jump.Aims) ∧
        List.Forall₂ Lower.Lands (bodyJumps [] decl.body) definition.jumps) ∧
      ∀ jump ∈ definition.jumps, ∀ name, jump.label = some name →
        C.jumpLabel name jump.jump ∈ definition.labels ∧
          unit.labels.count (C.jumpLabel name jump.jump) = 1) ∧
    ∀ label ∈ unit.labels, C.IsIdentifier label := by
  obtain ⟨made, stocked⟩ := Lower.Stocked.of_generate generated
  have labels_eq : unit.labels = _ := Lower.Stocked.labels_eq (unit.functions ++ unit.entry)
  refine ⟨fun definition member => ⟨definition.laidOut, ?_, ?_⟩, ?_⟩
  · obtain ⟨owner, decl, defines, isName, lands⟩ := stocked.comes definition member
    exact ⟨owner, decl, defines, isName, Check.aims_of_defines analyzed defines, lands⟩
  · intro jump isJump name isName
    obtain ⟨_, _, _, _, lands⟩ := stocked.comes definition member
    obtain ⟨loop, isAround, named⟩ := Lower.exists_loop_of_lands lands isJump isName
    have isLoop := definition.laidOut.inside jump isJump loop isAround
    have isLabel : C.jumpLabel name jump.jump ∈ definition.labels := by
      rw [C.FunctionDef.labels, C.FunctionDef.lines, C.labelsOn_linesOf]
      refine List.mem_flatMap.mpr ⟨loop, isLoop, ?_⟩
      rw [C.Loop.labels, named, Option.toList_some, List.flatMap_singleton]
      exact C.mem_labelsFor.mpr ⟨jump.jump, rfl⟩
    have isOnce : unit.labels.Nodup := by
      rw [labels_eq]
      exact stocked.names.labels_nodup
    refine ⟨isLabel, List.count_eq_one_of_mem isOnce ?_⟩
    exact List.mem_flatMap.mpr ⟨definition, member, isLabel⟩
  · intro label isLabel
    rw [labels_eq] at isLabel
    exact stocked.names.isIdentifier_label isLabel

/-- Loops whose labels are no identifiers, and jumps out of both from the inner one. -/
def nestedLoops : List Statement :=
  let always : Expr := .constant (.bool true)
  [⟨1, .function ⟨"main", [], none,
    [⟨2, .whileLoop always
      [⟨3, .forLoop "i" (.call (.name "range") [.constant (.int 3)])
        [⟨4, .branch always [⟨5, .jump .next (some "1 a")⟩] [⟨7, .jump .leave (some "")⟩]⟩,
         ⟨8, .jump .leave none⟩] (some "")⟩] (some "1 a")⟩]⟩⟩]

theorem jumps_land_in_their_loops_nestedLoops :
    ∃ table unit definition jump, analyze .program [] nestedLoops = .ok table ∧
      generate table defaultSupport .program nestedLoops = .ok unit ∧
      definition ∈ unit.functions ++ unit.entry ∧ jump ∈ definition.jumps ∧
      jump.jump = .next ∧ jump.label = some "_1_a_1" ∧
      "_1_a_1_continue" ∈ definition.labels ∧ unit.labels.count "_1_a_1_continue" = 1 ∧
      C.IsIdentifier "_1_a_1_continue" := by
  obtain ⟨table, unit, definition, jump, analyzed, generated, member, isJump, isNext, isName⟩ :
      ∃ table unit definition jump, analyze .program [] nestedLoops = .ok table ∧
        generate table defaultSupport .program nestedLoops = .ok unit ∧
        definition ∈ unit.functions ++ unit.entry ∧ jump ∈ definition.jumps ∧
        jump.jump = .next ∧ jump.label = some "_1_a_1" :=
    ⟨_, _, _, _, rfl, rfl, List.mem_cons_self, List.mem_cons_self, rfl,
      by with_unfolding_all rfl⟩
  obtain ⟨each, identifiers⟩ := jumps_land_in_their_loops analyzed generated
  obtain ⟨isLabel, isOnce⟩ := (each definition member).2.2 jump isJump "_1_a_1" isName
  have isWritten : C.jumpLabel "_1_a_1" jump.jump = "_1_a_1_continue" := by
    rw [isNext]
    decide
  rw [isWritten] at isLabel isOnce
  exact ⟨table, unit, definition, jump, analyzed, generated, member, isJump, isNext, isName, isLabel,
    isOnce, identifiers _ (List.mem_flatMap.mpr ⟨definition, member, isLabel⟩)⟩

end Offside
