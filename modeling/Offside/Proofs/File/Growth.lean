import Offside.FileTree
import Offside.Proofs.File.Pieces
import Offside.Proofs.Outcome

/-!
# File trees that grow

Making directories and writing files only adds to a tree: what was a directory stays one, what was a
file stays one, and only files that are written change what they hold.
-/

namespace Offside

open Outcome

namespace Node

theorem get?_cons (node : Node) (name : String) (names : Position) :
    node.get? (name :: names) = (node.child? name).bind (·.get? names) := by
  rw [get?]
  cases node.child? name <;> rfl

theorem child?_cons (name other : String) (node : Node) (entries : List (String × Node)) :
    (directory ((other, node) :: entries)).child? name =
      if other = name then some node else (directory entries).child? name := by
  by_cases same : other = name <;> simp [child?, same]

@[simp]
theorem child?_putEntry_self (name : String) (new : Node) (entries : List (String × Node)) :
    (directory (putEntry name new entries)).child? name = some new := by
  induction entries with
  | nil => simp [putEntry, child?]
  | cons entry entries induction =>
      obtain ⟨other, old⟩ := entry
      rw [putEntry]
      split
      · simp [child?_cons]
      · rename_i differ
        split
        · simp [child?_cons]
        · rw [child?_cons, if_neg (Ne.symm differ), induction]

theorem child?_putEntry_of_ne {name other : String} (differ : other ≠ name) (new : Node)
    (entries : List (String × Node)) :
    (directory (putEntry name new entries)).child? other = (directory entries).child? other := by
  induction entries with
  | nil => simp [putEntry, child?, Ne.symm differ]
  | cons entry entries induction =>
      obtain ⟨held, old⟩ := entry
      rw [putEntry]
      split
      · rename_i same
        subst same
        simp [child?_cons, Ne.symm differ]
      · split
        · rw [child?_cons, if_neg (Ne.symm differ)]
        · rw [child?_cons, child?_cons, induction]

/-- A directory stays one, and a file changes only if it is written. -/
inductive Becomes (written : Prop) : Node → Node → Prop
  | directory (entries entries' : List (String × Node)) :
      Becomes written (.directory entries) (.directory entries')
  | kept (content : ByteArray) : Becomes written (.file content) (.file content)
  | rewritten (isWritten : written) (old new : ByteArray) : Becomes written (.file old) (.file new)

namespace Becomes

variable {written written' : Prop} {before middle after : Node}

theorem refl (written : Prop) : (node : Node) → Becomes written node node
  | .file content => .kept content
  | .directory entries => .directory entries entries

theorem trans (first : Becomes written before middle) (second : Becomes written middle after) :
    Becomes written before after := by
  cases first with
  | directory entries entries' =>
      cases second with
      | directory _ entries'' => exact .directory entries entries''
  | kept content => exact second
  | rewritten isWritten old new =>
      cases second with
      | kept _ => exact .rewritten isWritten old new
      | rewritten _ _ newer => exact .rewritten isWritten old newer

theorem mono (becomes : Becomes written before after) (wider : written → written') :
    Becomes written' before after := by
  cases becomes with
  | directory entries entries' => exact .directory entries entries'
  | kept content => exact .kept content
  | rewritten isWritten old new => exact .rewritten (wider isWritten) old new

end Becomes

/-- Whether everything in a node is still there, apart from files at written positions. -/
def Grows (written : Position → Prop) (before after : Node) : Prop :=
  ∀ position held, before.get? position = some held →
    ∃ held', after.get? position = some held' ∧ Becomes (written position) held held'

namespace Grows

variable {written written' : Position → Prop} {before middle after : Node}

theorem refl (written : Position → Prop) (node : Node) : Grows written node node :=
  fun position held found => ⟨held, found, .refl (written position) held⟩

theorem trans (first : Grows written before middle) (second : Grows written middle after) :
    Grows written before after := by
  intro position held found
  obtain ⟨held', found', becomes⟩ := first position held found
  obtain ⟨held'', found'', becomes'⟩ := second position held' found'
  exact ⟨held'', found'', becomes.trans becomes'⟩

theorem mono (grows : Grows written before after)
    (wider : ∀ position, written position → written' position) : Grows written' before after := by
  intro position held found
  obtain ⟨held', found', becomes⟩ := grows position held found
  exact ⟨held', found', becomes.mono (wider position)⟩

/-- Nothing that was there is gone. -/
theorem isSome (grows : Grows written before after) {position : Position}
    (found : (before.get? position).isSome) : (after.get? position).isSome := by
  obtain ⟨held, found⟩ := Option.isSome_iff_exists.mp found
  obtain ⟨held', found', _⟩ := grows position held found
  simp [found']

theorem directory (grows : Grows written before after) {position : Position}
    {entries : List (String × Node)} (found : before.get? position = some (.directory entries)) :
    ∃ entries', after.get? position = some (.directory entries') := by
  obtain ⟨held', found', becomes⟩ := grows position _ found
  cases becomes with
  | directory _ entries' => exact ⟨entries', found'⟩

theorem file (grows : Grows written before after) {position : Position} {content : ByteArray}
    (free : ¬ written position) (found : before.get? position = some (.file content)) :
    after.get? position = some (.file content) := by
  obtain ⟨held', found', becomes⟩ := grows position _ found
  cases becomes with
  | kept _ => exact found'
  | rewritten isWritten _ _ => exact absurd isWritten free

theorem of_file (isWritten : written []) (old new : ByteArray) :
    Grows written (.file old) (.file new)
  | [], held, found => by
      obtain rfl := Option.some.inj found
      exact ⟨_, rfl, .rewritten isWritten old new⟩
  | _ :: _, held, found => by simp [get?, child?] at found

theorem of_entry {entries : List (String × Node)} {name : String} {new : Node}
    (grows : ∀ old, (Node.directory entries).child? name = some old →
      Grows (fun position => written (name :: position)) old new) :
    Grows written (.directory entries) (.directory (putEntry name new entries))
  | [], held, found => by
      obtain rfl := Option.some.inj found
      exact ⟨_, rfl, .directory _ _⟩
  | first :: names, held, found => by
      rw [get?_cons] at found ⊢
      by_cases same : first = name
      · subst same
        obtain ⟨old, isOld, found⟩ := Option.bind_eq_some_iff.mp found
        rw [child?_putEntry_self]
        exact grows old isOld names held found
      · rw [child?_putEntry_of_ne same]
        exact ⟨held, found, .refl _ held⟩

theorem of_put {name : String} {new : Node} :
    (above : Position) → {written : Position → Prop} → {node : Node} →
      {entries : List (String × Node)} → node.get? above = some (.directory entries) →
      (∀ old, node.get? (above ++ [name]) = some old →
        Grows (fun position => written (above ++ name :: position)) old new) →
      Grows written node (node.put (above ++ [name]) new)
  | [], written, node, entries, found, grows => by
      obtain rfl := Option.some.inj found
      rw [List.nil_append, put, put]
      refine of_entry fun old isOld => grows old ?_
      rw [List.nil_append, get?_cons, isOld]
      rfl
  | first :: above, written, node, entries, found, grows => by
      rw [get?_cons] at found
      obtain ⟨inner, isInner, isFound⟩ := Option.bind_eq_some_iff.mp found
      cases node with
      | file content => simp [child?] at isInner
      | directory outer =>
          rw [List.cons_append, put, isInner, Option.getD_some]
          refine of_entry fun old isOld => ?_
          obtain rfl : inner = old := Option.some.inj (isInner.symm.trans isOld)
          refine of_put above isFound fun old isOld => grows old ?_
          rw [List.cons_append, get?_cons, isInner]
          exact isOld

end Grows

theorem get?_put_self {name : String} {new : Node} :
    (above : Position) → {node : Node} → {entries : List (String × Node)} →
      node.get? above = some (.directory entries) →
      (node.put (above ++ [name]) new).get? (above ++ [name]) = some new
  | [], node, entries, found => by
      obtain rfl := Option.some.inj found
      rw [List.nil_append, put, put, get?_cons, child?_putEntry_self]
      rfl
  | first :: above, node, entries, found => by
      rw [get?_cons] at found
      obtain ⟨inner, isInner, isFound⟩ := Option.bind_eq_some_iff.mp found
      cases node with
      | file content => simp [child?] at isInner
      | directory outer =>
          rw [List.cons_append, put, isInner, Option.getD_some, get?_cons, child?_putEntry_self]
          exact get?_put_self above isFound

end Node

namespace FileTree

/-- Whether everything in a tree is still there, apart from files at written positions. -/
structure Grows (written : Position → Prop) (before after : FileTree) : Prop where
  home_eq : after.home = before.home
  root : before.root.Grows written after.root

namespace Grows

variable {written written' : Position → Prop} {before middle after : FileTree}

theorem refl (written : Position → Prop) (tree : FileTree) : Grows written tree tree :=
  ⟨rfl, .refl written tree.root⟩

theorem trans (first : Grows written before middle) (second : Grows written middle after) :
    Grows written before after :=
  ⟨second.home_eq.trans first.home_eq, first.root.trans second.root⟩

theorem mono (grows : Grows written before after)
    (wider : ∀ position, written position → written' position) : Grows written' before after :=
  ⟨grows.home_eq, grows.root.mono wider⟩

theorem start_eq (grows : Grows written before after) (path : Path) :
    after.start path = before.start path := by
  rw [start, start, grows.home_eq]

/-- A piece of a path leads where it led. -/
theorem step (grows : Grows written before after) {position next : Position} {piece : String}
    (stepped : FileTree.step before.root position piece = .ok next) :
    FileTree.step after.root position piece = .ok next := by
  cases found : before.root.get? position with
  | none => simp [FileTree.step, found] at stepped
  | some node =>
      cases node with
      | file content => simp [FileTree.step, found] at stepped
      | directory entries =>
          obtain ⟨entries', found'⟩ := grows.root.directory found
          simp only [FileTree.step, found, found'] at stepped ⊢
          by_cases idle : Path.isIdle piece = true
          · rwa [if_pos idle] at stepped ⊢
          · by_cases up : piece = ".."
            · rwa [if_neg idle, if_pos up] at stepped ⊢
            · rw [if_neg idle, if_neg up, error_ite_eq_ok, ite_error_eq_ok] at stepped ⊢
              exact ⟨stepped.1, grows.root.isSome stepped.2.1, stepped.2.2⟩

theorem walk (grows : Grows written before after) {pieces : List String} {first last : Position}
    (walked : pieces.foldlM (FileTree.step before.root) first = .ok last) :
    pieces.foldlM (FileTree.step after.root) first = .ok last := by
  induction pieces generalizing first with
  | nil => exact walked
  | cons piece pieces induction =>
      rw [List.foldlM_cons, bind_eq_ok] at walked ⊢
      obtain ⟨next, stepped, walked⟩ := walked
      exact ⟨next, grows.step stepped, induction walked⟩

/-- A path leads where it led. -/
theorem resolve (grows : Grows written before after) {path : Path} {position : Position}
    (resolved : before.resolve path = .ok position) : after.resolve path = .ok position := by
  simp only [FileTree.resolve, bind_eq_ok] at resolved ⊢
  obtain ⟨first, isFirst, walked⟩ := resolved
  exact ⟨first, (grows.start_eq path).trans isFirst, grows.walk walked⟩

end Grows

theorem exists_of_target {tree : FileTree} {path : Path} {directory : Position} {name : String}
    (isTarget : tree.target path = .ok (.name directory name)) :
    ∃ first init entries, tree.start path = .ok first ∧
      (path.pieces.reverse.dropWhile (· = "")).reverse = init ++ [name] ∧
      init.foldlM (step tree.root) first = .ok directory ∧
      tree.root.get? directory = some (.directory entries) ∧ name ≠ "." ∧ name ≠ ".." := by
  simp only [target, bind_eq_ok] at isTarget
  obtain ⟨first, isFirst, isTarget⟩ := isTarget
  cases isLast : (path.pieces.reverse.dropWhile (· = "")).reverse.getLast? with
  | none => simp [isLast] at isTarget
  | some last =>
      obtain ⟨init, isInit⟩ := List.getLast?_eq_some_iff.mp isLast
      simp only [isInit, List.getLast?_concat, List.dropLast_concat, bind_eq_ok] at isTarget
      obtain ⟨reached, walked, isTarget⟩ := isTarget
      cases found : tree.root.get? reached with
      | none => simp [found] at isTarget
      | some node =>
          cases node with
          | file content => simp [found] at isTarget
          | directory entries =>
              simp only [found] at isTarget
              split at isTarget
              · simp at isTarget
              · rename_i named
                obtain ⟨rfl, rfl⟩ : reached = directory ∧ last = name := by simpa using isTarget
                refine ⟨first, init, entries, isFirst, isInit, walked, found, ?_⟩
                simpa using named

/-- A directory is made where nothing was. -/
theorem grows_of_makeDirectory {tree after : FileTree} {path : Path}
    (made : tree.makeDirectory path = .ok after) (written : Position → Prop) :
    Grows written tree after := by
  simp only [makeDirectory, bind_eq_ok] at made
  obtain ⟨place, isPlace, made⟩ := made
  cases place with
  | existing => simp at made
  | name directory name =>
      simp only [error_ite_eq_ok, pure_eq_ok] at made
      obtain ⟨_, missing, rfl⟩ := made
      obtain ⟨_, _, _, _, _, _, found, _⟩ := exists_of_target isPlace
      refine ⟨rfl, .of_put directory found fun old isOld => ?_⟩
      simp [isOld] at missing

/-- Making directories only adds to a tree, also where it fails. -/
theorem grows_makeChain (written : Position → Prop) :
    (paths : List Path) → (tree : FileTree) → Grows written tree (tree.makeChain paths).2
  | [], tree => .refl written tree
  | path :: above, tree => by
      rw [makeChain]
      split
      · exact .refl written tree
      · cases made : tree.makeDirectory path with
        | ok after => exact grows_of_makeDirectory made written
        | error fault =>
            cases fault with
            | notFound =>
                have earlier := grows_makeChain written above tree
                dsimp only
                generalize tree.makeChain above = chain at earlier
                obtain ⟨outcome, reached⟩ := chain
                cases outcome with
                | error fault => exact earlier
                | ok done =>
                    cases done
                    dsimp only at earlier ⊢
                    cases again : reached.makeDirectory path with
                    | ok after => exact earlier.trans (grows_of_makeDirectory again written)
                    | error fault => exact earlier
            | _ => exact .refl written tree

/-- A path that leads to a name in a directory. -/
structure Leads (tree : FileTree) (path : Path) (directory : Position) (name : String) : Prop where
  before : ∃ first init, tree.start path = .ok first ∧ path.pieces = init ++ [name] ∧
    init.foldlM (step tree.root) first = .ok directory
  named : Path.isIdle name = false
  resolve_eq : tree.resolve path = .ok (directory ++ [name])

theorem Grows.leads {written : Position → Prop} {before after : FileTree}
    (grows : Grows written before after) {path : Path} {directory : Position} {name : String}
    (leads : before.Leads path directory name) : after.Leads path directory name := by
  obtain ⟨⟨first, init, isFirst, cut, walked⟩, named, resolved⟩ := leads
  exact ⟨⟨first, init, (grows.start_eq path).trans isFirst, cut, grows.walk walked⟩, named,
    grows.resolve resolved⟩

/-- A path that can be written to leads to what was written. -/
theorem leads_of_write {tree after : FileTree} {path : Path} {content : ByteArray}
    (wrote : tree.write path content = .ok after) :
    ∃ directory name, after.Leads path directory name ∧
      after.root.get? (directory ++ [name]) = some (.file content) ∧
      Grows (· = directory ++ [name]) tree after := by
  simp only [write, bind_eq_ok] at wrote
  obtain ⟨place, isPlace, wrote⟩ := wrote
  cases place with
  | existing => simp at wrote
  | name directory name =>
      simp only [error_ite_eq_ok] at wrote
      obtain ⟨closed, short, wrote⟩ := wrote
      obtain ⟨first, init, entries, isFirst, isInit, walked, found, notDot, notUp⟩ :=
        exists_of_target isPlace
      have nonempty : path.text ≠ "" := by
        intro isEmpty
        simp [start, isEmpty] at isFirst
      obtain ⟨init', name', cut, notEmpty⟩ := Path.exists_last_piece nonempty closed
      obtain ⟨rfl, rfl⟩ : init' = init ∧ name' = name := by
        simpa [cut, notEmpty] using isInit
      have notDirectory : ∀ entries,
          tree.root.get? (directory ++ [name']) ≠ some (.directory entries) := by
        intro entries isDirectory
        simp [isDirectory] at wrote
      obtain rfl : tree.put (directory ++ [name']) (.file content) = after := by
        cases held : tree.root.get? (directory ++ [name']) with
        | none => simpa [held] using wrote
        | some node =>
            cases node with
            | file old => simpa [held] using wrote
            | directory entries => exact absurd held (notDirectory entries)
      have grows : Grows (· = directory ++ [name']) tree
          (tree.put (directory ++ [name']) (.file content)) := by
        refine ⟨rfl, .of_put directory found fun old isOld => ?_⟩
        cases old with
        | file old =>
            refine .of_file ?_ old content
            rfl
        | directory entries => exact absurd isOld (notDirectory entries)
      have there : (tree.root.put (directory ++ [name']) (.file content)).get?
          (directory ++ [name']) = some (.file content) := Node.get?_put_self directory found
      have started := (grows.start_eq path).trans isFirst
      have named : Path.isIdle name' = false := by simp [Path.isIdle, notEmpty, notDot]
      refine ⟨directory, name', ⟨⟨first, init', started, cut, grows.walk walked⟩, named, ?_⟩, there,
        grows⟩
      obtain ⟨entries', found'⟩ := grows.root.directory found
      simp only [FileTree.resolve, started, cut, ok_bind, List.foldlM_append, grows.walk walked,
        List.foldlM_cons, List.foldlM_nil, bind_pure]
      simp only [step, found', named, Bool.false_eq_true, if_false, notUp, short]
      simp [put, there]

end FileTree

end Offside
