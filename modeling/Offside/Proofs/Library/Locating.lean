import Offside.Library.Load
import Offside.Proofs.Outcome

/-!
# Where modules are found

Whatever a search for a module finds is a file of the tree. The files of a tree are finitely many,
so that nothing outside a fixed list is ever compiled.
-/

namespace Offside

open Outcome

namespace Node

theorem mem_filesIn_of_mem {entries : List (String × Node)} {name : String} {node : Node}
    {position : Position} {content : ByteArray} (isEntry : (name, node) ∈ entries)
    (isFile : (position, content) ∈ node.files) :
    (name :: position, content) ∈ filesIn entries := by
  induction entries with
  | nil => exact absurd isEntry List.not_mem_nil
  | cons entry entries induction =>
      obtain ⟨other, inner⟩ := entry
      rw [filesIn, List.mem_append]
      rcases List.mem_cons.mp isEntry with isFirst | isLater
      · obtain ⟨rfl, rfl⟩ := Prod.mk.inj isFirst
        left
        exact List.mem_map.mpr ⟨_, isFile, rfl⟩
      · right
        exact induction isLater

theorem mem_files_of_get? {node inner : Node} {position below : Position} {content : ByteArray}
    (found : node.get? position = some inner) (isFile : (below, content) ∈ inner.files) :
    (position ++ below, content) ∈ node.files := by
  induction position generalizing node with
  | nil =>
      obtain rfl : node = inner := by simpa [get?] using found
      exact isFile
  | cons name names induction =>
      cases node with
      | file other => simp [get?, child?] at found
      | directory entries =>
          cases isEntry : entries.find? (·.1 = name) with
          | none => simp [get?, child?, isEntry] at found
          | some entry =>
              have named : entry.1 = name := by simpa using List.find?_some isEntry
              have below : entry.2.get? names = some inner := by
                simpa [get?, child?, isEntry] using found
              have member : (name, entry.2) ∈ entries := by
                rw [← named]
                exact List.mem_of_find?_eq_some isEntry
              rw [files, List.cons_append]
              exact mem_filesIn_of_mem member (induction below)

mutual

theorem mem_files_of_find? {wanted : String} : (node : Node) → {position : Position} →
    node.find? wanted = some position → ∃ content, (position, content) ∈ node.files
  | .file _, _, found => by simp [find?] at found
  | .directory entries, _, found => by
      rw [find?] at found
      rw [files]
      exact mem_filesIn_of_findIn? entries found

theorem mem_filesIn_of_findIn? {wanted : String} : (entries : List (String × Node)) →
    {position : Position} → findIn? wanted entries = some position →
      ∃ content, (position, content) ∈ filesIn entries
  | [], _, found => by simp [findIn?] at found
  | (name, node) :: entries, position, found => by
      rw [findIn?] at found
      by_cases isWanted : (node.isFile && name = wanted) = true
      · obtain rfl : [name] = position := by simpa [isWanted] using found
        cases node with
        | file content => exact ⟨content, mem_filesIn_of_mem List.mem_cons_self (by simp [files])⟩
        | directory inner => simp [isFile] at isWanted
      · rw [if_neg isWanted] at found
        cases isInside : node.find? wanted with
        | some inside =>
            obtain rfl : name :: inside = position := by simpa [isInside] using found
            obtain ⟨content, isFile⟩ := mem_files_of_find? node isInside
            exact ⟨content, mem_filesIn_of_mem List.mem_cons_self isFile⟩
        | none =>
            obtain ⟨content, isFile⟩ :=
              mem_filesIn_of_findIn? entries (by simpa [isInside] using found)
            exact ⟨content, List.mem_append_right _ isFile⟩

end

end Node

namespace FileTree

theorem exists_resolve_of_isFile {tree : FileTree} {path : Path} (isFile : tree.isFile path) :
    ∃ position content, tree.resolve path = .ok position ∧
      (position, content) ∈ tree.root.files := by
  rw [FileTree.isFile] at isFile
  cases isNode : tree.node path with
  | error fault => simp [isNode] at isFile
  | ok node =>
      cases node with
      | directory entries => simp [isNode, Node.isFile] at isFile
      | file content =>
          simp only [FileTree.node, bind_eq_ok] at isNode
          obtain ⟨position, resolved, isNode⟩ := isNode
          cases found : tree.root.get? position with
          | none => simp [found] at isNode
          | some inner =>
              obtain rfl : inner = .file content := by simpa [found] using isNode
              have below : ([], content) ∈ (Node.file content).files := by simp [Node.files]
              refine ⟨position, content, resolved, ?_⟩
              simpa using Node.mem_files_of_get? found below

theorem mem_files_of_search? {tree : FileTree} {path : Path} {wanted : String}
    {position : Position} (found : tree.search? path wanted = some position) :
    ∃ content, (position, content) ∈ tree.root.files := by
  rw [search?] at found
  cases resolved : tree.resolve path with
  | error fault => simp [resolved] at found
  | ok start =>
      cases isNode : tree.root.get? start with
      | none => simp [resolved, isNode] at found
      | some node =>
          simp only [resolved, isNode] at found
          obtain ⟨below, isBelow, rfl⟩ := Option.map_eq_some_iff.mp found
          obtain ⟨content, isFile⟩ := Node.mem_files_of_find? node isBelow
          exact ⟨content, Node.mem_files_of_get? isNode isFile⟩

end FileTree

namespace Library

theorem mem_filesOf {tree : FileTree} {position : Position} {content : ByteArray}
    (isFile : (position, content) ∈ tree.root.files) : position.path ∈ filesOf tree :=
  List.mem_map.mpr ⟨_, isFile, rfl⟩

theorem mem_filesOf_of_locate {tree : FileTree} {roots : List Path} {module : List String}
    {current : Option Path} {file : Path} (located : locate tree roots module current = .ok file) :
    file ∈ filesOf tree := by
  rw [locate] at located
  cases isLast : module.getLast? with
  | none => simp [isLast] at located
  | some last =>
      simp only [isLast] at located
      split at located
      · rename_i place isPlace
        simp only [mapError_eq_ok, FileTree.canonical, bind_eq_ok, pure_eq_ok] at located
        obtain ⟨position, resolved, rfl⟩ := located
        obtain ⟨other, content, resolved', isFile⟩ :=
          FileTree.exists_resolve_of_isFile (List.find?_some isPlace)
        obtain rfl : position = other := Except.ok.inj (resolved.symm.trans resolved')
        exact mem_filesOf isFile
      · split at located
        · rename_i position isPosition
          obtain rfl := Except.ok.inj located
          obtain ⟨directory, _, found⟩ := List.exists_of_findSome?_eq_some isPosition
          obtain ⟨content, isFile⟩ := FileTree.mem_files_of_search? found
          exact mem_filesOf isFile
        · simp at located

theorem locate_ne_cycle (tree : FileTree) (roots : List Path) (module : List String)
    (current : Option Path) (files : List Path) :
    locate tree roots module current ≠ .error (.cycle files) := by
  intro failed
  rw [locate] at failed
  cases isLast : module.getLast? with
  | none => simp [isLast] at failed
  | some last =>
      simp only [isLast] at failed
      split at failed
      · rename_i place _
        cases canonical : tree.canonical place <;>
          rw [canonical] at failed <;> cases failed
      · split at failed <;> simp at failed

end Library

end Offside
