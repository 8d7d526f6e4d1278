import Mathlib.Data.List.TakeWhile
import Offside.Path

/-!
# Pieces of paths

A path is its pieces with slashes between them. A name without slashes that is put into a directory
is the last piece of its path. The parent of a path names the directory that the path leads into:
the pieces that the parent leaves out change nothing.
-/

namespace Offside

namespace Path

variable {base : Path} {init : List String}

theorem split_eq_splitOn (chars : List Char) : split chars = chars.splitOn '/' := by
  induction chars with
  | nil => rfl
  | cons char rest induction =>
      rw [split, List.splitOn_cons_eq_if_modifyHead, induction]
      by_cases slash : char = '/'
      · simp [slash]
      · cases pieces : rest.splitOn '/' with
        | nil => exact absurd pieces (List.splitOn_ne_nil '/' rest)
        | cons piece others => simp [slash]

theorem slash_notMem_split {chars : List Char} :
    ∀ piece ∈ split chars, '/' ∉ piece := by
  induction chars with
  | nil => simp [split]
  | cons char rest induction =>
      rw [split]
      split
      · exact List.forall_mem_cons.mpr ⟨List.not_mem_nil, induction⟩
      · rename_i notSlash
        cases pieces : split rest with
        | nil => simpa using Ne.symm notSlash
        | cons piece others =>
            rw [pieces] at induction
            obtain ⟨first, later⟩ := List.forall_mem_cons.mp induction
            refine List.forall_mem_cons.mpr ⟨?_, later⟩
            simpa [first] using Ne.symm notSlash

theorem exists_split_concat {char : Char} (notSlash : char ≠ '/') (chars : List Char) :
    ∃ pieces last, split (chars ++ [char]) = pieces ++ [last ++ [char]] := by
  induction chars with
  | nil => exact ⟨[], [], by simp [split, notSlash]⟩
  | cons first chars induction =>
      obtain ⟨pieces, last, isSplit⟩ := induction
      rw [List.cons_append, split, isSplit]
      split
      · exact ⟨[] :: pieces, last, rfl⟩
      · cases pieces with
        | nil => exact ⟨[], first :: last, rfl⟩
        | cons piece pieces => exact ⟨(first :: piece) :: pieces, last, rfl⟩

theorem slash_notMem_pieces (path : Path) : ∀ piece ∈ path.pieces, '/' ∉ piece.toList := by
  intro piece member
  obtain ⟨chars, isPiece, rfl⟩ := List.mem_map.mp member
  rw [String.toList_ofList]
  exact slash_notMem_split chars isPiece

theorem pieces_empty : pieces ⟨""⟩ = [""] := rfl

variable {name : String} {path : Path}

theorem pieces_of_plain (plain : '/' ∉ name.toList) : pieces ⟨name⟩ = [name] := by
  rw [pieces, split_eq_splitOn, List.splitOn_eq_singleton plain, List.map_singleton,
    String.ofList_toList]

/-- A slash divides the pieces before it from those after it. -/
theorem pieces_slash (left right : String) :
    pieces ⟨left ++ "/" ++ right⟩ = pieces ⟨left⟩ ++ pieces ⟨right⟩ := by
  have isList : (left ++ "/" ++ right).toList = left.toList ++ '/' :: right.toList := by simp
  simp only [pieces, split_eq_splitOn]
  rw [isList, List.splitOn_append_cons_self, List.map_append]

theorem pieces_ofPieces {parts : List String} (plain : ∀ part ∈ parts, '/' ∉ part.toList)
    (nonempty : parts ≠ []) : (ofPieces parts).pieces = parts := by
  have cut : ("/".intercalate parts).toList.splitOn '/' = parts.map String.toList := by
    rw [String.toList_intercalate]
    refine List.splitOn_intercalate '/' ?_ (by simpa using nonempty)
    intro chars member
    obtain ⟨part, isPart, rfl⟩ := List.mem_map.mp member
    exact plain part isPart
  rw [ofPieces, pieces, split_eq_splitOn, cut, List.map_map]
  simp [Function.comp_def]

theorem endsWith_slash_iff {text : String} :
    text.endsWith "/" = true ↔ ∃ rest, text = rest ++ "/" := by
  have isSuffix : text.endsWith "/" = true ↔ ['/'] <:+ text.toList := by
    simp [← String.endsWith_toSlice]
  rw [isSuffix]
  constructor
  · rintro ⟨rest, isRest⟩
    refine ⟨String.ofList rest, String.toList_inj.mp ?_⟩
    simp [← isRest]
  · rintro ⟨rest, rfl⟩
    exact ⟨rest.toList, by simp⟩

theorem exists_last_piece (nonempty : path.text ≠ "") (closed : ¬ path.text.endsWith "/" = true) :
    ∃ init name, path.pieces = init ++ [name] ∧ name ≠ "" := by
  rcases List.eq_nil_or_concat path.text.toList with isEmpty | ⟨chars, char, isText⟩
  · exact absurd (String.toList_eq_nil_iff.mp isEmpty) nonempty
  · have notSlash : char ≠ '/' := by
      rintro rfl
      refine closed (endsWith_slash_iff.mpr ⟨String.ofList chars, ?_⟩)
      apply String.toList_inj.mp
      simpa using isText
    obtain ⟨pieces, last, isSplit⟩ := exists_split_concat notSlash chars
    refine ⟨pieces.map String.ofList, String.ofList (last ++ [char]), ?_, ?_⟩
    · rw [Path.pieces, isText, List.concat_eq_append, isSplit, List.map_append, List.map_singleton]
    · intro isEmpty
      simpa using congrArg String.toList isEmpty

/-- A path starts at the root exactly when its first piece is empty and not its last. -/
theorem isAbsolute_iff :
    path.isAbsolute = true ↔ ∃ piece pieces, path.pieces = "" :: piece :: pieces := by
  have starts : path.isAbsolute = true ↔ ['/'] <+: path.text.toList := by simp [isAbsolute]
  rw [starts, pieces]
  cases path.text.toList with
  | nil => simp [split]
  | cons char chars =>
      rw [split]
      by_cases slash : char = '/'
      · subst slash
        cases others : split chars with
        | nil => exact absurd ((split_eq_splitOn chars).symm.trans others) (List.splitOn_ne_nil _ _)
        | cons piece pieces => simp
      · cases others : split chars with
        | nil => simp [slash, Ne.symm slash]
        | cons piece pieces =>
            simp [slash, Ne.symm slash]

/-- The pieces before a name that is put into a directory. -/
def lead (base : Path) : List String :=
  if base.text = "" then []
  else if base.text.endsWith "/" then base.pieces.dropLast
  else base.pieces

theorem not_isAbsolute_of_plain (plain : '/' ∉ name.toList) : ¬ isAbsolute ⟨name⟩ = true := by
  rw [isAbsolute_iff, pieces_of_plain plain]
  simp

/-- A name without slashes is the last piece of its path. -/
theorem pieces_join (plain : '/' ∉ name.toList) :
    (base.join ⟨name⟩).pieces = base.lead ++ [name] := by
  rw [join, if_neg (not_isAbsolute_of_plain plain), lead]
  by_cases isEmpty : base.text = ""
  · rw [if_pos isEmpty, isEmpty]
    simpa using pieces_of_plain plain
  · rw [if_neg isEmpty]
    by_cases closed : base.text.endsWith "/" = true
    · obtain ⟨rest, isRest⟩ := endsWith_slash_iff.mp closed
      have base_pieces : base.pieces = pieces ⟨rest⟩ ++ [""] := by
        have cut := pieces_slash rest ""
        rw [String.append_empty, ← isRest] at cut
        exact cut
      rw [if_pos closed, base_pieces, List.dropLast_concat]
      rw [closed, Bool.or_true, if_pos rfl, isRest, pieces_slash, pieces_of_plain plain]
    · simp only [isEmpty, closed, decide_false, Bool.or_false, Bool.false_eq_true, if_false]
      rw [pieces_slash, pieces_of_plain plain]

/-- A name in a directory starts where the directory does. -/
theorem isAbsolute_join (plain : '/' ∉ name.toList) :
    (base.join ⟨name⟩).isAbsolute = base.isAbsolute := by
  rw [join, if_neg (not_isAbsolute_of_plain plain)]
  by_cases isEmpty : base.text = ""
  · have relative : base.isAbsolute = false := by simp [isAbsolute, isEmpty]
    rw [relative, isEmpty]
    simpa using not_isAbsolute_of_plain plain
  · have kept (more : String) : isAbsolute ⟨base.text ++ more⟩ = base.isAbsolute := by
      obtain ⟨first, rest, isText⟩ :=
        List.exists_cons_of_ne_nil (mt String.toList_eq_nil_iff.mp isEmpty)
      rw [Bool.eq_iff_iff]
      simp [isAbsolute, isText]
    split
    · exact kept name
    · rw [String.append_assoc]
      exact kept ("/" ++ name)

theorem trimmed_concat (named : isIdle name = false) :
    trimmed (init ++ [name]) = init ++ [name] := by
  cases init with
  | nil =>
      have nonempty : name ≠ "" := by
        rintro rfl
        exact absurd named (by decide)
      simp [trimmed, nonempty]
  | cons first others => simp [trimmed, named]

theorem exists_trimmed_cons (first : String) (others : List String) :
    ∃ kept idles, others = kept ++ idles ∧ (∀ piece ∈ idles, isIdle piece = true) ∧
      (∀ last ∈ kept.getLast?, isIdle last = false) ∧
      trimmed (first :: others) = if first = "" ∧ kept = [] then [] else first :: kept := by
  refine ⟨(others.reverse.dropWhile isIdle).reverse, (others.reverse.takeWhile isIdle).reverse,
    ?_, ?_, ?_, ?_⟩
  · rw [← List.reverse_append, List.takeWhile_append_dropWhile, List.reverse_reverse]
  · intro piece member
    exact List.mem_takeWhile_imp (List.mem_reverse.mp member)
  · intro last isLast
    rw [List.getLast?_reverse] at isLast
    have notIdle := List.head?_dropWhile_not isIdle others.reverse
    simp only [Option.mem_def.mp isLast] at notIdle
    exact notIdle
  · rw [trimmed]
    cases (others.reverse.dropWhile isIdle).reverse with
    | nil => by_cases isEmpty : first = "" <;> simp [isEmpty]
    | cons piece pieces => simp

theorem isAbsolute_iff_of_cons {first : String} {others : List String}
    (cut : path.pieces = first :: others) (more : others ≠ []) :
    path.isAbsolute = true ↔ first = "" := by
  obtain ⟨piece, pieces, rfl⟩ := List.exists_cons_of_ne_nil more
  rw [isAbsolute_iff, cut]
  simp

theorem not_isAbsolute_of_single {piece : String} (cut : path.pieces = [piece]) :
    path.isAbsolute = false := by
  rw [Bool.eq_false_iff]
  intro absolute
  obtain ⟨_, _, isCut⟩ := isAbsolute_iff.mp absolute
  simp [cut] at isCut

theorem pieces_root : pieces ⟨"/"⟩ = ["", ""] := pieces_slash "" ""

theorem lead_root : lead ⟨"/"⟩ = [""] := by
  have closed : "/".endsWith "/" = true := endsWith_slash_iff.mpr ⟨"", rfl⟩
  rw [lead, if_neg (by decide), if_pos closed, pieces_root]
  rfl

theorem lead_eq_pieces (nonempty : base.pieces.getLast? ≠ some "") : base.lead = base.pieces := by
  have notEmpty : base.text ≠ "" := by
    intro isEmpty
    exact nonempty (by rw [pieces, isEmpty]; rfl)
  have notClosed : ¬ base.text.endsWith "/" = true := by
    intro closed
    obtain ⟨rest, isRest⟩ := endsWith_slash_iff.mp closed
    have cut := pieces_slash rest ""
    rw [String.append_empty, ← isRest] at cut
    refine nonempty ?_
    rw [show base.pieces = pieces ⟨base.text⟩ from rfl, cut]
    exact List.getLast?_concat
  rw [lead, if_neg notEmpty, if_neg notClosed]

theorem parent?_of_concat (cut : path.pieces = init ++ [name]) (named : isIdle name = false) :
    path.parent? = some (ofTrimmed path.isAbsolute (trimmed init)) := by
  rw [parent?, cut, trimmed_concat named]
  cases init with
  | nil => rfl
  | cons first others =>
      show some (ofTrimmed _ (trimmed (first :: others ++ [name]).dropLast)) = _
      rw [List.dropLast_concat]

/-- The parent of a path names the directory that the path leads into. -/
theorem lead_parent (cut : path.pieces = init ++ [name]) (named : isIdle name = false) :
    (path.parent?.getD ⟨""⟩).isAbsolute = path.isAbsolute ∧
      ∃ idles, init = (path.parent?.getD ⟨""⟩).lead ++ idles ∧
        ∀ piece ∈ idles, isIdle piece = true := by
  rw [parent?_of_concat cut named, Option.getD_some]
  cases init with
  | nil =>
      rw [not_isAbsolute_of_single cut]
      exact ⟨not_isAbsolute_of_single pieces_empty, [], rfl, nofun⟩
  | cons first others =>
      obtain ⟨kept, idles, rfl, areIdle, last, isTrimmed⟩ := exists_trimmed_cons first others
      have absolute_iff := isAbsolute_iff_of_cons cut (by simp)
      rw [isTrimmed]
      by_cases atRoot : first = "" ∧ kept = []
      · obtain ⟨rfl, rfl⟩ := atRoot
        rw [if_pos ⟨rfl, rfl⟩, absolute_iff.mpr rfl]
        have isRoot : ofTrimmed true [] = ⟨"/"⟩ := rfl
        rw [isRoot, lead_root]
        exact ⟨(isAbsolute_iff_of_cons pieces_root (by simp)).mpr rfl, idles, rfl, areIdle⟩
      · rw [if_neg atRoot]
        have isBase : ofTrimmed path.isAbsolute (first :: kept) = ofPieces (first :: kept) := rfl
        have plain : ∀ part ∈ first :: kept, '/' ∉ part.toList := by
          intro part member
          apply slash_notMem_pieces path
          rw [cut]
          exact List.mem_append_left [name] (List.mem_append_left idles member)
        have basePieces := pieces_ofPieces plain (List.cons_ne_nil first kept)
        rw [isBase]
        by_cases single : kept = []
        · subst single
          have named : first ≠ "" := fun isEmpty => atRoot ⟨isEmpty, rfl⟩
          refine ⟨?_, idles, ?_, areIdle⟩
          · rw [not_isAbsolute_of_single basePieces, eq_comm, Bool.eq_false_iff]
            exact fun absolute => named (absolute_iff.mp absolute)
          · rw [lead_eq_pieces (by simpa [basePieces] using named), basePieces]
            rfl
        · refine ⟨?_, idles, ?_, areIdle⟩
          · rw [Bool.eq_iff_iff, absolute_iff]
            exact isAbsolute_iff_of_cons basePieces single
          · have notEmpty : (ofPieces (first :: kept)).pieces.getLast? ≠ some "" := by
              rw [basePieces, List.getLast?_cons_of_ne_nil single]
              intro isLast
              exact absurd (last "" isLast) (by decide)
            rw [lead_eq_pieces notEmpty, basePieces]
            rfl

end Path

end Offside
