import Offside.Proofs.File.Growth

/-!
# Files that were written

Files that are written one after another: every path that was written to leads to a file ever after,
and a file holds the text that was written to it last.
-/

namespace Offside

namespace FileTree

open Outcome

/-- Whether a name after a path is looked for in a directory. -/
def Enters (tree : FileTree) (base : Path) (directory : Position) : Prop :=
  base.lead.foldlM (step tree.root) (if base.isAbsolute then [] else tree.home) = .ok directory

theorem Enters.unique {tree : FileTree} {base : Path} {directory other : Position}
    (enters : tree.Enters base directory) (enters' : tree.Enters base other) :
    directory = other :=
  Except.ok.inj (enters.symm.trans enters')

theorem eq_of_idle {root : Node} {pieces : List String} {first last : Position}
    (idle : ∀ piece ∈ pieces, Path.isIdle piece = true)
    (walked : pieces.foldlM (step root) first = .ok last) : last = first := by
  refine foldlM_preserves_of_mem (· = first) pieces ?_ rfl walked
  rintro position piece next member rfl stepped
  cases found : root.get? position with
  | none => simp [step, found] at stepped
  | some node =>
      cases node with
      | file content => simp [step, found] at stepped
      | directory entries => simpa [step, found, idle piece member, eq_comm] using stepped

namespace Leads

variable {tree : FileTree} {path base : Path} {directory : Position} {name plain : String}

theorem walk (leads : tree.Leads path directory name) {init : List String}
    (cut : path.pieces = init ++ [plain]) :
    plain = name ∧ init.foldlM (step tree.root) (if path.isAbsolute then [] else tree.home) =
      .ok directory := by
  obtain ⟨first, init', isFirst, cut', walked⟩ := leads.before
  obtain ⟨rfl, isName⟩ := List.append_inj' (cut.symm.trans cut') rfl
  simp only [start, error_ite_eq_ok, Except.ok.injEq] at isFirst
  obtain ⟨_, _, rfl⟩ := isFirst
  exact ⟨List.singleton_inj.mp isName, walked⟩

theorem getLast?_pieces (leads : tree.Leads path directory name) :
    path.pieces.getLast? = some name := by
  obtain ⟨_, init, _, cut, _⟩ := leads.before
  rw [cut, List.getLast?_concat]

theorem join (leads : tree.Leads (base.join ⟨plain⟩) directory name)
    (noSlash : '/' ∉ plain.toList) : plain = name ∧ tree.Enters base directory := by
  obtain ⟨isName, walked⟩ := leads.walk (Path.pieces_join noSlash)
  rw [Path.isAbsolute_join noSlash] at walked
  exact ⟨isName, walked⟩

theorem parent (leads : tree.Leads path directory name) :
    tree.Enters (path.parent?.getD ⟨""⟩) directory := by
  obtain ⟨_, init, _, cut, _⟩ := leads.before
  obtain ⟨_, walked⟩ := leads.walk cut
  obtain ⟨sameStart, idles, isInit, idle⟩ := Path.lead_parent cut leads.named
  rw [isInit, List.foldlM_append, bind_eq_ok, ← sameStart] at walked
  obtain ⟨middle, isMiddle, walked⟩ := walked
  obtain rfl := eq_of_idle idle walked
  exact isMiddle

end Leads

theorem textOf_toUTF8 (text : String) : textOf text.toUTF8 = .ok text := by
  have isText : String.fromUTF8? text.toUTF8 = some text := by
    simp only [String.fromUTF8?, Option.dite_none_right_eq_some]
    exact ⟨text.isValidUTF8, rfl⟩
  rw [textOf, isText]

theorem readText_congr {tree : FileTree} {path other : Path}
    (same : tree.resolve path = tree.resolve other) :
    tree.readText path = tree.readText other := by
  rw [readText, readText, node, node, same]

theorem readText_eq_ok_iff {tree : FileTree} {path : Path} {position : Position} {text : String}
    (resolved : tree.resolve path = .ok position) :
    tree.readText path = .ok text ↔
      ∃ content, tree.root.get? position = some (.file content) ∧ textOf content = .ok text := by
  rw [readText, node, resolved, ok_bind]
  cases tree.root.get? position with
  | none => simp
  | some node => cases node <;> simp [pure, Except.pure]

theorem Grows.readText {written : Position → Prop} {before after : FileTree}
    (grows : Grows written before after) {path : Path} {position : Position} {text : String}
    (resolved : before.resolve path = .ok position) (free : ¬ written position)
    (isRead : before.readText path = .ok text) : after.readText path = .ok text := by
  obtain ⟨content, found, isText⟩ := (readText_eq_ok_iff resolved).mp isRead
  exact (readText_eq_ok_iff (grows.resolve resolved)).mpr
    ⟨content, grows.root.file free found, isText⟩

/-- Whether writing files in an order makes one tree of another. -/
structure Written (origin tree : FileTree) (files : List (Path × String)) : Prop where
  leads : ∀ file ∈ files, ∃ directory name, tree.Leads file.1 directory name
  /-- The last text of a place is there. -/
  last : ∀ {earlier later : List (Path × String)} {file : Path × String},
    files = earlier ++ file :: later →
      (∀ other ∈ later, tree.resolve other.1 ≠ tree.resolve file.1) →
        tree.readText file.1 = .ok file.2
  grows : origin.Grows (fun position => ∃ file ∈ files, tree.resolve file.1 = .ok position) tree

namespace Written

variable {origin tree before after : FileTree} {files : List (Path × String)}

theorem nil (tree : FileTree) : tree.Written tree [] := ⟨nofun, by simp, .refl _ tree⟩

theorem resolve_eq (written : origin.Written before files) {changed : Position → Prop}
    (grows : before.Grows changed after) {file : Path × String} (member : file ∈ files) :
    after.resolve file.1 = before.resolve file.1 := by
  obtain ⟨directory, name, leads⟩ := written.leads file member
  rw [leads.resolve_eq, grows.resolve leads.resolve_eq]

theorem readText_of_grows (written : origin.Written before files) {place : Position}
    (grows : before.Grows (· = place) after) {earlier later : List (Path × String)}
    {file : Path × String} (parts : files = earlier ++ file :: later)
    (distinct : ∀ other ∈ later, after.resolve other.1 ≠ after.resolve file.1)
    (free : after.resolve file.1 ≠ .ok place) : after.readText file.1 = .ok file.2 := by
  have member : file ∈ files := by simp [parts]
  have isRead : before.readText file.1 = .ok file.2 := by
    refine written.last parts fun other isLater => ?_
    rw [← written.resolve_eq grows member, ← written.resolve_eq grows (by simp [parts, isLater])]
    exact distinct other isLater
  obtain ⟨directory, name, leads⟩ := written.leads file member
  refine grows.readText leads.resolve_eq ?_ isRead
  rintro rfl
  exact free (grows.resolve leads.resolve_eq)

/-- One more file is written, after directories may have been made. -/
theorem write (written : origin.Written before files) {made : FileTree}
    (grows : before.Grows (fun _ => False) made) {path : Path} {text : String}
    (wrote : made.write path text.toUTF8 = .ok after) :
    origin.Written after (files ++ [(path, text)]) := by
  obtain ⟨directory, name, leads, found, grows'⟩ := leads_of_write wrote
  have grown : before.Grows (· = directory ++ [name]) after :=
    (grows.mono fun _ => False.elim).trans grows'
  refine ⟨fun file member => ?_, fun {earlier later file} parts distinct => ?_, ?_⟩
  · rcases List.mem_append.mp member with isOld | isNew
    · obtain ⟨directory, name, leads⟩ := written.leads file isOld
      exact ⟨directory, name, grown.leads leads⟩
    · obtain rfl := List.mem_singleton.mp isNew
      exact ⟨directory, name, leads⟩
  · rcases List.eq_nil_or_concat later with rfl | ⟨later, newest, rfl⟩
    · obtain ⟨_, isNew⟩ := List.append_inj' parts rfl
      obtain rfl := List.singleton_inj.mp isNew
      exact (readText_eq_ok_iff leads.resolve_eq).mpr ⟨text.toUTF8, found, textOf_toUTF8 text⟩
    · rw [List.concat_eq_append] at parts distinct
      have areParts : files ++ [(path, text)] = (earlier ++ file :: later) ++ [newest] := by
        rw [parts, List.append_assoc, List.cons_append]
      obtain ⟨areOld, isNew⟩ := List.append_inj' areParts rfl
      obtain rfl := List.singleton_inj.mp isNew
      obtain ⟨fromOld, fromNew⟩ := List.forall_mem_append.mp distinct
      refine written.readText_of_grows grown areOld fromOld fun same => ?_
      exact fromNew (path, text) List.mem_cons_self (leads.resolve_eq.trans same.symm)
  · refine (written.grows.mono ?_).trans (grown.mono ?_)
    · rintro position ⟨file, member, resolved⟩
      exact ⟨file, List.mem_append_left _ member, grown.resolve resolved⟩
    · rintro position rfl
      exact ⟨(path, text), List.mem_append_right _ List.mem_cons_self, leads.resolve_eq⟩

/-- A file holds the text that was written last to its place. -/
theorem exists_last (written : origin.Written tree files) {earlier later : List (Path × String)}
    {file : Path × String} (parts : files = earlier ++ file :: later) :
    ∃ other ∈ file :: later, tree.resolve other.1 = tree.resolve file.1 ∧
      tree.readText file.1 = .ok other.2 := by
  by_cases again : ∃ other ∈ later, tree.resolve other.1 = tree.resolve file.1
  · obtain ⟨other, isLater, same⟩ := again
    obtain ⟨between, later, rfl⟩ := List.append_of_mem isLater
    have areParts : files = (earlier ++ file :: between) ++ other :: later := by simp [parts]
    obtain ⟨last, isLast, sameLast, isRead⟩ := written.exists_last areParts
    refine ⟨last, ?_, sameLast.trans same, (readText_congr same).symm.trans isRead⟩
    exact List.mem_cons_of_mem file (List.mem_append_right between isLast)
  · refine ⟨file, List.mem_cons_self, rfl, written.last parts fun other isLater same => ?_⟩
    exact again ⟨other, isLater, same⟩
termination_by later.length
decreasing_by simp_all; omega

/-- All texts are there exactly when different ones went to different places. -/
theorem forall_readText_iff (written : origin.Written tree files) :
    (∀ file ∈ files, tree.readText file.1 = .ok file.2) ↔
      ∀ file ∈ files, ∀ other ∈ files, tree.resolve file.1 = tree.resolve other.1 →
        file.2 = other.2 := by
  constructor
  · intro kept file isFile other isOther same
    have isRead := kept file isFile
    rw [readText_congr same, kept other isOther] at isRead
    exact (Except.ok.inj isRead).symm
  · intro agree file isFile
    obtain ⟨earlier, later, parts⟩ := List.append_of_mem isFile
    obtain ⟨other, isOther, same, isRead⟩ := written.exists_last parts
    have isWritten : other ∈ files := parts ▸ List.mem_append_right earlier isOther
    rw [isRead, agree other isWritten file isFile same]

end Written

end FileTree

end Offside
