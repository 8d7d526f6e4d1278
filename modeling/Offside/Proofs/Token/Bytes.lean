import Offside.Proofs.Token.Lines
import Offside.Proofs.Token.Respelled

/-!
# Scanning byte by byte

A source can be scanned without knowing which of its bytes belong to one character. Then a word is a
slice between two places that must not lie inside a character, and a literal is put together from
single bytes, which must make a text. Neither ever fails on the bytes of a text.

A byte stands here as the character of its number, since lexemes are told apart by characters in
ASCII only.
-/

namespace Offside

namespace Token

variable {char : Char}

/-- What would stop a scan of bytes although the source is not at fault. -/
inductive Mishap
  | cutInside
  | illegible
deriving DecidableEq, Repr

/-- The text that bytes make. -/
def decode? (bytes : List Char) : Option String :=
  String.fromUTF8? (bytes.map Char.toUInt8).toByteArray

/-- Whether the first byte does not continue a character. -/
def isBoundary (bytes : List Char) : Bool :=
  bytes.head?.all fun byte => byte.toNat < 0x80 || 0xC0 ≤ byte.toNat

/-- The text of bytes that are taken off the front of others. -/
def slice (taken following : List Char) : Except Mishap String :=
  match decode? taken with
  | some text =>
      if isBoundary (taken ++ following) && isBoundary following then .ok text
      else .error .cutInside
  | none => .error .cutInside

/-- The text of a token: a slice of the source, decoded for literals. -/
def textAt (kind : Kind) (text : Option String) (spelling following : List Char) :
    Except Mishap (Option String) :=
  match kind with
  | .string =>
      match decode? (text.getD "").toList with
      | some text => .ok (some text)
      | none => .error .illegible
  | .number | .identifier | .keyword _ => do
      let word ← slice spelling following
      return text.map fun _ => word
  | _ => .ok text

/-- The fault at some bytes. -/
def faultAt (reason : LexicalFault) (bytes : List Char) : Except Mishap LexicalFault :=
  match reason with
  | .unexpected _ => do
      let text ← slice bytes []
      return .unexpected (text.toList.headD '?')
  | reason => .ok reason

mutual

/-- The tokens of bytes inside a line, from a given column on. -/
def scanBytes (indents : List Nat) (line column : Nat) (bytes : List Char) :
    Except Mishap (List Token) :=
  match bytes with
  | [] => .ok (closing indents line)
  | byte :: rest =>
      match cut : Lexeme.read byte rest with
      | (.fault before reason, _) => do
          let reason ← faultAt reason (byte :: rest)
          return [faulty line (column + before.length) reason]
      | (.blank spelling, following) =>
          scanBytes indents line (column + spelling.length) following
      | (.token kind text spelling, following) => do
          let text ← textAt kind text spelling following
          let others ← scanBytes indents line (column + spelling.length) following
          return ⟨kind, text, line, column⟩ :: others
      | (.lineEnd, following) => do
          let others ← scanBytesLine indents (line + 1) following
          return ⟨.newline, none, line, column⟩ :: others
termination_by 2 * bytes.length
decreasing_by
  all_goals
    have shorter := Lexeme.read_length byte rest (by simp [cut])
    simp only [cut] at shorter
    simp only [List.length_cons]
    omega

/-- The tokens of bytes that start a line. -/
def scanBytesLine (indents : List Nat) (line : Nat) (bytes : List Char) :
    Except Mishap (List Token) :=
  let blanks := bytes.takeWhile isIndentation
  let body := bytes.dropWhile isIndentation
  let column := blanks.length + 1
  if isBare body then scanBytes indents line column body
  else
    let shift := Shift.of indents (indentationWidth blanks)
    if shift.aligned then do
      let others ← scanBytes shift.indents line column body
      return shift.kinds.map (layout line) ++ others
    else .ok (shift.kinds.map (layout line) ++ [faulty line column .misaligned])
termination_by 2 * bytes.length + 1
decreasing_by
  all_goals
    have shorter := (List.dropWhile_suffix isIndentation (l := bytes)).length_le
    omega

end

/-- The tokens of a source that is given by its bytes. -/
def ofBytes (bytes : ByteArray) : Except Mishap (List Token) :=
  scanBytesLine [0] 1 (bytes.data.toList.map Char.ofUInt8)

/-- The bytes of a character. -/
def spread (char : Char) : List Char := (String.utf8EncodeChar char).map Char.ofUInt8

theorem length_flatMap_spread (chars : List Char) :
    (chars.flatMap spread).length = byteLength chars := by
  induction chars with
  | nil => rfl
  | cons char chars induction =>
      simp only [List.flatMap_cons, List.length_append, induction, byteLength]
      rw [spread, List.length_map, String.length_utf8EncodeChar]

theorem spread_ascii (ascii : char.toNat < 128) : spread char = [char] := by
  have size : char.utf8Size = 1 := by
    rw [Char.utf8Size_eq_one_iff, UInt32.le_iff_toNat_le]
    exact Nat.le_of_lt_succ ascii
  have same : Char.ofUInt8 char.toUInt8 = char :=
    Char.toNat_inj.mp (Nat.mod_eq_of_lt (Nat.lt_trans ascii (by decide)))
  rw [spread, String.utf8EncodeChar_eq_singleton size]
  exact congrArg (fun byte => [byte]) same

theorem spread_foreign (foreign : 128 ≤ char.toNat) :
    ∃ lead others, spread char = lead :: others ∧ 192 ≤ lead.toNat ∧
      ∀ byte ∈ lead :: others, 128 ≤ byte.toNat := by
  have outside : ¬ char.val.toNat ≤ 127 := Nat.not_le.mpr foreign
  have code (byte : UInt8) : (Char.ofUInt8 byte).toNat = byte.toNat := rfl
  rw [spread, String.utf8EncodeChar, if_neg outside]
  split
  · refine ⟨_, _, rfl, ?_⟩
    simp [code]
    omega
  split
  · refine ⟨_, _, rfl, ?_⟩
    simp [code]
    omega
  · refine ⟨_, _, rfl, ?_⟩
    simp [code]
    omega

theorem respells_spread : Respells (128 ≤ ·.toNat) spread := by
  intro char
  by_cases ascii : char.toNat < 128
  · exact .inl (spread_ascii ascii)
  · have foreign := Nat.not_lt.mp ascii
    obtain ⟨lead, others, isSpread, _, areForeign⟩ := spread_foreign foreign
    exact .inr ⟨foreign, lead, others, isSpread, areForeign lead List.mem_cons_self⟩

theorem isBoundary_spread (chars : List Char) : isBoundary (chars.flatMap spread) = true := by
  rcases chars with _ | ⟨char, rest⟩
  · rfl
  by_cases ascii : char.toNat < 128
  · simp [isBoundary, spread_ascii ascii, ascii]
  · obtain ⟨lead, others, isSpread, starts, _⟩ := spread_foreign (Nat.not_lt.mp ascii)
    simp [isBoundary, isSpread, starts]

theorem decode?_spread (chars : List Char) :
    decode? (chars.flatMap spread) = some (String.ofList chars) := by
  have inverse : Char.toUInt8 ∘ Char.ofUInt8 = id := by
    funext byte
    exact byte.toUInt8_toUInt32
  have bytes : ((chars.flatMap spread).map Char.toUInt8).toByteArray =
      (String.ofList chars).toByteArray := by
    have encoded : chars.flatMap spread = (chars.flatMap String.utf8EncodeChar).map Char.ofUInt8 :=
      List.map_flatMap.symm
    rw [encoded, List.map_map, inverse, List.map_id]
    exact String.toByteArray_ofList.symm
  simp only [decode?, String.fromUTF8?, bytes, Option.dite_none_right_eq_some]
  exact ⟨(String.ofList chars).isValidUTF8, rfl⟩

theorem slice_spread (chars following : List Char) :
    slice (chars.flatMap spread) (following.flatMap spread) = .ok (String.ofList chars) := by
  rw [slice, decode?_spread, ← List.flatMap_append, isBoundary_spread, isBoundary_spread]
  rfl

theorem kept_of_append {taken : List Char} (following : List Char)
    (whole : taken ++ following.flatMap spread = (taken ++ following).flatMap spread) :
    taken.flatMap spread = taken := by
  rw [List.flatMap_append] at whole
  exact (List.append_cancel_right whole).symm

theorem ne_of_foreign {mark : Char} (foreign : 128 ≤ char.toNat) (ascii : mark.toNat < 128) :
    char ≠ mark := by
  rintro rfl
  exact absurd ascii (Nat.not_lt.mpr foreign)

end Token

namespace Lexeme

open Token

variable {char : Char}

/-- The body of a literal with each character spelled by its bytes. -/
def LiteralBody.widened (body : LiteralBody) : LiteralBody where
  decoded := body.decoded.flatMap spread
  spelling := body.spelling.flatMap spread
  closed := body.closed
  rest := body.rest.flatMap spread

theorem LiteralBody.widened_prepend (body : LiteralBody) (decoded spelling : List Char) :
    (body.prepend decoded spelling).widened =
      body.widened.prepend (decoded.flatMap spread) (spelling.flatMap spread) := by
  simp [LiteralBody.widened, prepend]

theorem ascii_of_escaped? {meant : Char} (known : escaped? char = some meant) :
    char.toNat < 128 ∧ meant.toNat < 128 := by
  unfold escaped? at known
  split at known
  case h_7 => simp at known
  all_goals
    obtain rfl := Option.some.inj known
    decide

/-- Bytes outside ASCII are part of a literal as they stand. -/
theorem LiteralBody.read_foreign {quote : Char} (ascii : quote.toNat < 128) {front : List Char}
    (foreign : ∀ byte ∈ front, 128 ≤ byte.toNat) (rest : List Char) :
    read quote (front ++ rest) = (read quote rest).prepend front front := by
  induction front with
  | nil => rfl
  | cons byte front induction =>
      rw [List.forall_mem_cons] at foreign
      rw [List.cons_append, read_plain (ne_of_foreign foreign.1 (by decide))
        (ne_of_foreign foreign.1 (by decide)), if_neg (ne_of_foreign foreign.1 ascii),
        induction foreign.2]
      rfl

/-- A literal is read off its bytes as it is off its characters. -/
theorem LiteralBody.read_spread {quote : Char} (isQuote : quote = '"' ∨ quote = '\'')
    (chars : List Char) : read quote (chars.flatMap spread) = (read quote chars).widened := by
  have marks : quote.toNat < 128 ∧ quote ≠ '\n' ∧ quote ≠ '\\' := by
    rcases isQuote with rfl | rfl <;> decide
  fun_induction read quote chars with
  | case1 => rfl
  | case2 rest => simp [spread_ascii, read, widened]
  | case3 char rest meant known induction =>
      obtain ⟨ascii, asciiMeant⟩ := ascii_of_escaped? known
      simp [spread_ascii, ascii, asciiMeant, read, known, widened_prepend, induction]
  | case4 char rest unknown induction =>
      have escapes : ∃ first others, spread char = first :: others ∧ escaped? first = none := by
        rcases respells_spread char with kept | ⟨_, first, others, isSpread, foreign⟩
        · exact ⟨char, [], kept, unknown⟩
        · refine ⟨first, others, isSpread, Option.eq_none_iff_forall_ne_some.mpr fun _ known => ?_⟩
          exact absurd (ascii_of_escaped? known).1 (Nat.not_lt.mpr foreign)
      obtain ⟨first, others, isSpread, unknownFirst⟩ := escapes
      rw [widened_prepend, ← induction]
      simp [spread_ascii, isSpread, read, unknownFirst]
  | case5 rest =>
      rw [List.flatMap_cons, spread_ascii marks.1, List.singleton_append,
        read_plain marks.2.1 marks.2.2, if_pos rfl]
      simp [widened, spread_ascii marks.1]
  | case6 char rest inLine pair other induction =>
      have inLine : char ≠ '\n' := inLine
      rw [widened_prepend, ← induction, List.flatMap_cons, List.flatMap_singleton]
      by_cases ascii : char.toNat < 128
      · rw [spread_ascii ascii]
        by_cases escapes : char = '\\'
        · -- Nothing can come after this backslash.
          cases rest with
          | nil =>
              subst escapes
              simp [read, other]
          | cons next more => exact absurd rfl (pair next more escapes)
        · rw [List.singleton_append, read_plain inLine escapes, if_neg other]
      · obtain ⟨lead, others, isSpread, _, foreign⟩ := spread_foreign (Nat.not_lt.mp ascii)
        rw [isSpread, read_foreign marks.1 foreign]

/-- A lexeme in which each character is spelled by its bytes. -/
def widened : Lexeme → Lexeme
  | blank spelling => blank (spelling.flatMap spread)
  | lineEnd => lineEnd
  | token kind text spelling =>
      token kind (text.map fun text => String.ofList (text.toList.flatMap spread))
        (spelling.flatMap spread)
  | fault before reason => fault (before.flatMap spread) reason

theorem not_isAlphanum (foreign : 128 ≤ char.toNat) :
    char.isAlpha = false ∧ char.isDigit = false := by
  refine ⟨Bool.eq_false_iff.mpr fun letter => ?_, Bool.eq_false_iff.mpr fun digit => ?_⟩
  · have code := (code_of_isAlpha letter).2
    omega
  · have code := (code_of_isDigit digit).2
    omega

theorem not_isIdentifierRest (foreign : 128 ≤ char.toNat) : isIdentifierRest char = false := by
  simp [isIdentifierRest, Char.isAlphanum, not_isAlphanum foreign,
    ne_of_foreign foreign (by decide : '_'.toNat < 128)]

theorem ofPair?_foreign {next : Char} (foreign : 128 ≤ char.toNat ∨ 128 ≤ next.toNat) :
    Punct.ofPair? char next = none := by
  unfold Punct.ofPair?
  split
  case h_7 => rfl
  all_goals exact absurd foreign (by decide)

theorem ofChar?_foreign (foreign : 128 ≤ char.toNat) : Punct.ofChar? char = none := by
  unfold Punct.ofChar?
  split
  case h_19 => rfl
  all_goals exact absurd foreign (by decide)

theorem read_foreign (foreign : 128 ≤ char.toNat) (rest : List Char) :
    read char rest = (fault [] (.unexpected char), char :: rest) := by
  have other {mark : Char} (ascii : mark.toNat < 128) : char ≠ mark := ne_of_foreign foreign ascii
  have noPunct : readPunct? char rest = none := by
    cases rest <;> simp [readPunct?, ofChar?_foreign foreign, ofPair?_foreign (.inl foreign)]
  simp [read, other, isIdentifierStart, not_isAlphanum foreign, noPunct]

/-- A comment ends at the same line end. -/
theorem comment_spread (chars : List Char) :
    (chars.flatMap spread).takeWhile (· ≠ '\n') = (chars.takeWhile (· ≠ '\n')).flatMap spread ∧
      (chars.flatMap spread).dropWhile (· ≠ '\n') =
        (chars.dropWhile (· ≠ '\n')).flatMap spread := by
  induction chars with
  | nil => exact ⟨rfl, rfl⟩
  | cons char chars induction =>
      by_cases ends : char = '\n'
      · subst ends
        simp [spread_ascii]
      · have inLine : ∀ byte ∈ spread char, decide (byte ≠ '\n') = true := by
          by_cases ascii : char.toNat < 128
          · simpa [spread_ascii ascii] using ends
          · obtain ⟨lead, others, isSpread, _, foreign⟩ := spread_foreign (Nat.not_lt.mp ascii)
            rw [isSpread]
            exact fun byte member =>
              decide_eq_true (ne_of_foreign (foreign byte member) (by decide))
        rw [List.flatMap_cons, List.takeWhile_append_of_pos inLine,
          List.dropWhile_append_of_pos inLine]
        simpa [ends] using induction

/-- A lexeme is cut off bytes as it is off characters. -/
theorem read_spread (ascii : char.toNat < 128) (rest : List Char) :
    read char (rest.flatMap spread) =
      ((read char rest).1.widened, (read char rest).2.flatMap spread) := by
  have whole : char :: rest.flatMap spread = (char :: rest).flatMap spread := by
    simp [spread_ascii ascii]
  unfold read
  split
  · simp [widened, spread_ascii ascii]
  split
  · simp only [comment_spread, widened, List.flatMap_cons, spread_ascii ascii,
      List.singleton_append]
  split
  · rfl
  split
  · rename_i isQuote
    rw [LiteralBody.read_spread (by simpa using isQuote)]
    dsimp only [LiteralBody.widened]
    split <;> simp [widened, spread_ascii ascii]
  split
  · have numeral := respells_spread.readNumeral
      (fun _ foreign => ⟨(not_isAlphanum foreign).2, ne_of_foreign foreign (by decide)⟩)
      (char :: rest)
    have split := readNumeral_append ((char :: rest).flatMap spread)
    rw [numeral] at split
    have kept := kept_of_append _ (split.trans (by rw [readNumeral_append]))
    rw [whole, numeral]
    simp [widened, kept]
  split
  · have taken := respells_spread.takeWhile (fun _ => not_isIdentifierRest) rest
    have left := respells_spread.dropWhile (fun _ => not_isIdentifierRest) rest
    have split := List.takeWhile_append_dropWhile (p := isIdentifierRest) (l := rest.flatMap spread)
    rw [taken, left] at split
    have kept : (char :: rest.takeWhile isIdentifierRest).flatMap spread =
        char :: rest.takeWhile isIdentifierRest := by
      refine kept_of_append (rest.dropWhile isIdentifierRest) ?_
      rw [List.cons_append, split, List.cons_append, List.takeWhile_append_dropWhile, whole]
    rw [taken, left]
    dsimp only
    split <;> simp [widened, kept]
  · have punct := respells_spread.readPunct? (fun _ _ foreign => ofPair?_foreign (.inr foreign))
      char rest
    rw [punct]
    cases found : readPunct? char rest with
    | none => simp [widened, spread_ascii ascii]
    | some cut =>
        obtain ⟨mark, written, following⟩ := cut
        rw [found] at punct
        have kept : written.flatMap spread = written := by
          refine kept_of_append following ((readPunct?_eq_some punct).2.trans ?_)
          rw [(readPunct?_eq_some found).2, whole]
        simp [widened, kept]

end Lexeme

/-! ## Tokens -/

namespace Token

theorem textAt_spread {kind : Kind} {text : Option String} {spelling : List Char}
    (spells : Spells kind text spelling) (following : List Char) :
    textAt kind (text.map fun text => String.ofList (text.toList.flatMap spread))
      (spelling.flatMap spread) (following.flatMap spread) = .ok text := by
  cases kind with
  | string =>
      obtain ⟨_, _, decoded, _, _, _, rfl⟩ := spells
      simp [textAt, decode?_spread]
  | number | identifier | keyword =>
      obtain ⟨rfl, _⟩ := spells
      rw [textAt, slice_spread]
      rfl
  | punct | newline =>
      obtain ⟨rfl, _⟩ := spells
      rfl
  | _ => exact spells.elim

theorem faultAt_spread {char : Char} {rest before following : List Char} {reason : LexicalFault}
    (cut : Lexeme.read char rest = (.fault before reason, following)) :
    faultAt reason ((char :: rest).flatMap spread) = .ok reason := by
  cases reason with
  | unexpected found =>
      obtain rfl : found = char := by
        unfold Lexeme.read at cut
        grind
      have whole : slice ((found :: rest).flatMap spread) [] = _ := slice_spread (found :: rest) []
      rw [faultAt, whole]
      simp only [bind, Except.bind, String.toList_ofList]
      rfl
  | _ => rfl

theorem scanBytes_cons (indents : List Nat) (line column : Nat) (byte : Char) (rest : List Char) :
    scanBytes indents line column (byte :: rest) =
      match Lexeme.read byte rest with
      | (.fault before reason, _) => do
          let reason ← faultAt reason (byte :: rest)
          return [faulty line (column + before.length) reason]
      | (.blank spelling, following) =>
          scanBytes indents line (column + spelling.length) following
      | (.token kind text spelling, following) => do
          let text ← textAt kind text spelling following
          let others ← scanBytes indents line (column + spelling.length) following
          return ⟨kind, text, line, column⟩ :: others
      | (.lineEnd, following) => do
          let others ← scanBytesLine indents (line + 1) following
          return ⟨.newline, none, line, column⟩ :: others := by
  rw [scanBytes]
  split <;> rename_i cut <;> rw [cut]

theorem isBare_spread (body : List Char) : isBare (body.flatMap spread) = isBare body := by
  rcases body with _ | ⟨char, rest⟩
  · rfl
  rcases respells_spread char with kept | ⟨foreign, lead, others, isSpread, foreignLead⟩
  · simp [kept, isBare]
  · simp [isSpread, isBare, ne_of_foreign foreign, ne_of_foreign foreignLead]

/-- Bytes give the tokens of their characters. -/
theorem scanBytes_spread :
    (∀ indents line column chars, scanBytes indents line column (chars.flatMap spread) =
      .ok (scan indents line column chars)) ∧
    (∀ indents line chars, scanBytesLine indents line (chars.flatMap spread) =
      .ok (scanLine indents line chars)) := by
  -- Only a fault is found at a character outside ASCII.
  have read {char : Char} {rest following : List Char} {lexeme : Lexeme}
      (cut : Lexeme.read char rest = (lexeme, following))
      (sound : ∀ before reason, lexeme ≠ .fault before reason) :
      (char :: rest).flatMap spread = char :: rest.flatMap spread ∧
        Lexeme.read char (rest.flatMap spread) = (lexeme.widened, following.flatMap spread) := by
    have ascii : char.toNat < 128 := by
      by_contra foreign
      rw [Lexeme.read_foreign (Nat.not_lt.mp foreign)] at cut
      exact sound _ _ (Prod.mk.inj cut).1.symm
    rw [List.flatMap_cons, spread_ascii ascii, Lexeme.read_spread ascii, cut]
    exact ⟨rfl, rfl⟩
  have stops (char : Char) (foreign : 128 ≤ char.toNat) : isIndentation char = false := by
    simp [isIndentation, ne_of_foreign foreign]
  apply scan.mutual_induct
  case case1 =>
    intro indents line column
    rw [scan, List.flatMap_nil, scanBytes]
  case case2 =>
    intro indents line column char rest before reason following cut
    have found := faultAt_spread cut
    rw [scan_cons, cut]
    by_cases ascii : char.toNat < 128
    · rw [List.flatMap_cons, spread_ascii ascii] at found ⊢
      rw [List.singleton_append, scanBytes_cons, Lexeme.read_spread ascii, cut]
      dsimp only [Lexeme.widened]
      rw [length_flatMap_spread]
      exact congrArg (· >>= _) found
    · obtain ⟨lead, others, isSpread, _, foreign⟩ := spread_foreign (Nat.not_lt.mp ascii)
      rw [Lexeme.read_foreign (Nat.not_lt.mp ascii)] at cut
      obtain ⟨rfl, rfl⟩ := Lexeme.fault.inj (Prod.mk.inj cut).1
      rw [List.flatMap_cons, isSpread] at found ⊢
      rw [List.cons_append, scanBytes_cons, Lexeme.read_foreign (foreign lead List.mem_cons_self)]
      exact congrArg (· >>= _) found
  case case3 =>
    intro indents line column char rest spelling following cut later
    obtain ⟨spelled, cutBytes⟩ := read cut (by rintro _ _ ⟨⟩)
    rw [spelled, scanBytes_cons, scan_cons, cut, cutBytes]
    dsimp only [Lexeme.widened]
    rw [length_flatMap_spread, later]
  case case4 =>
    intro indents line column char rest kind text spelling following cut later
    obtain ⟨spelled, cutBytes⟩ := read cut (by rintro _ _ ⟨⟩)
    have spells : Spells kind text spelling := (Lexeme.of_read cut).2.1
    rw [spelled, scanBytes_cons, scan_cons, cut, cutBytes]
    dsimp only [Lexeme.widened]
    rw [length_flatMap_spread, textAt_spread spells, later]
    rfl
  case case5 =>
    intro indents line column char rest following cut later
    obtain ⟨spelled, cutBytes⟩ := read cut (by rintro _ _ ⟨⟩)
    rw [spelled, scanBytes_cons, scan_cons, cut, cutBytes]
    dsimp only [Lexeme.widened]
    rw [later]
    rfl
  case case6 =>
    intro indents line chars blanks body column bare later
    rw [scanBytesLine, respells_spread.takeWhile stops, respells_spread.dropWhile stops,
      isBare_spread, scanLine, if_pos bare, if_pos bare]
    exact later
  case case7 =>
    intro indents line chars blanks body column full shift later
    rw [scanBytesLine, respells_spread.takeWhile stops, respells_spread.dropWhile stops,
      isBare_spread, scanLine, if_neg full, if_neg full]
    dsimp only
    split
    · rw [later]
      rfl
    · rfl

/-- A source is scanned by its bytes as by its characters, without a mishap. -/
theorem ofBytes_toUTF8 (source : String) : ofBytes source.toUTF8 = .ok (ofSource source) := by
  have bytes : source.toUTF8.data.toList.map Char.ofUInt8 = source.toList.flatMap spread := by
    rw [String.toUTF8_eq_toByteArray, ← String.ofList_toList (s := source),
      String.toByteArray_ofList]
    simp only [List.utf8Encode, List.data_toByteArray, List.map_flatMap, String.toList_ofList]
    rfl
  rw [ofBytes, bytes]
  exact scanBytes_spread.2 [0] 1 source.toList

end Token

end Offside
