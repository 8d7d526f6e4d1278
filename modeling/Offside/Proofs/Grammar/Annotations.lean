import Offside.Proofs.Grammar.Imports
import Offside.Proofs.Grammar.Precedence
import Offside.Proofs.Token.Composed

/-!
# Annotations in print

An annotation that comes out of a text is writable: its names are words, its sizes stand between
brackets and are not too large, and nothing is left of quotes, of trailing commas and of parentheses
around a single annotation. The text of a writable annotation is cut into the tokens that print it,
and these are read as the annotation again.
-/

namespace Offside

open Token (ScannedAs)

namespace TypeExpr

mutual

/-- Whether an annotation can come out of a text: sizes only stand between brackets. -/
def Writable (bracketed : Bool) : TypeExpr → Prop
  | name id => IsWord id ∨ id = "None"
  | size count => bracketed = true ∧ count ≤ 18446744073709551615
  | generic id args => IsWord id ∧ args ≠ [] ∧ AreWritable true args
  | tuple items => 2 ≤ items.length ∧ AreWritable false items

def AreWritable (bracketed : Bool) : List TypeExpr → Prop
  | [] => True
  | item :: items => item.Writable bracketed ∧ AreWritable bracketed items

end

mutual

def printing : TypeExpr → List Imprint
  | name id =>
      [if id = "None" then (Token.Kind.keyword .none_).imprint else (.identifier, id)]
  | size count => [(.number, toString count)]
  | generic id args =>
      (.identifier, id) :: Punct.leftBracket.imprint
        :: (itemsPrinting args ++ [Punct.rightBracket.imprint])
  | tuple items =>
      Punct.leftParen.imprint :: (itemsPrinting items ++ [Punct.rightParen.imprint])

def itemsPrinting : List TypeExpr → List Imprint
  | [] => []
  | [item] => item.printing
  | item :: next :: others =>
      item.printing ++ Punct.comma.imprint :: itemsPrinting (next :: others)

end

def furtherPrinting (items : List TypeExpr) : List Imprint :=
  items.flatMap fun item => Punct.comma.imprint :: item.printing

theorem itemsPrinting_cons (item : TypeExpr) (items : List TypeExpr) :
    itemsPrinting (item :: items) = item.printing ++ furtherPrinting items := by
  induction items generalizing item with
  | nil => simp [itemsPrinting, furtherPrinting]
  | cons next others induction =>
      rw [itemsPrinting, induction next]
      simp [furtherPrinting]

theorem none_not_isWord : ¬ IsWord "None" := fun isWord => isWord.2 .none_ rfl

theorem printing_name {id : String} (isWord : IsWord id) :
    (name id).printing = [(.identifier, id)] := by
  have other : id ≠ "None" := by
    rintro rfl
    exact none_not_isWord isWord
  rw [printing, if_neg other]

/-! ## From the text to the tokens -/

mutual

/-- The text of a writable annotation is scanned as the tokens that print it. -/
theorem scannedAs_text {after : List Char} (ends : EndsWord after) {bracketed : Bool} :
    (written : TypeExpr) → written.Writable bracketed →
      ScannedAs written.text.toList after written.printing
  | .name id, writable => by
      rw [Writable] at writable
      rcases writable with isWord | rfl
      · rw [printing_name isWord, text]
        exact .word isWord ends
      · have reserved : ScannedAs Keyword.none_.spelling.toList after _ := .keyword ends
        rwa [printing, if_pos rfl, text]
  | .size count, _ => by
      rw [printing, text]
      exact .number count ends
  | .generic id args, writable => by
      rw [Writable] at writable
      obtain ⟨isWord, nonempty, areWritable⟩ := writable
      have inside := scannedAs_texts (endsWord_cons ']' (by decide) after) args nonempty areWritable
      have enclosed :=
        inside.between ('[', .leftBracket) (']', .rightBracket) (by decide) (by decide)
      rw [printing, text, String.toList_append, String.toList_append, String.toList_append,
        List.append_assoc, List.append_assoc]
      exact (ScannedAs.word isWord (endsWord_cons '[' (by decide) _)).append enclosed
  | .tuple items, writable => by
      rw [Writable] at writable
      obtain ⟨several, areWritable⟩ := writable
      have nonempty : items ≠ [] := by
        rintro rfl
        simp at several
      have inside :=
        scannedAs_texts (endsWord_cons ')' (by decide) after) items nonempty areWritable
      have enclosed :=
        inside.between ('(', .leftParen) (')', .rightParen) (by decide) (by decide)
      rw [printing, text, String.toList_append, String.toList_append]
      exact enclosed

theorem scannedAs_texts {after : List Char} (ends : EndsWord after) {bracketed : Bool} :
    (items : List TypeExpr) → items ≠ [] → AreWritable bracketed items →
      ScannedAs (", ".intercalate (texts items)).toList after (itemsPrinting items)
  | [], nonempty, _ => absurd rfl nonempty
  | [item], _, areWritable => by
      rw [AreWritable] at areWritable
      rw [texts, texts, String.intercalate_singleton, itemsPrinting]
      exact scannedAs_text ends item areWritable.1
  | item :: next :: others, _, areWritable => by
      rw [AreWritable] at areWritable
      obtain ⟨isWritable, areOthers⟩ := areWritable
      have later := scannedAs_texts ends (next :: others) (List.cons_ne_nil _ _) areOthers
      have separated : ScannedAs (", ".toList ++ _) after (Punct.comma.imprint :: _) :=
        (ScannedAs.lone (',', .comma) (by decide) _).append ((ScannedAs.space _).append later)
      rw [texts, texts, String.intercalate_cons_cons, String.toList_append, String.toList_append,
        itemsPrinting, List.append_assoc]
      exact (scannedAs_text (endsWord_cons ',' (by decide) _) item isWritable).append separated

end

/-- The text of an annotation starts a line without layout. -/
theorem exists_first_of_text {written : TypeExpr} (writable : written.Writable false) :
    ∃ first rest, written.text.toList = first :: rest ∧
      first ∉ [' ', '\t', '\n', '\r', '#'] := by
  have word {first : Char} (starts : Lexeme.isIdentifierStart first) :
      first ∉ [' ', '\t', '\n', '\r', '#'] := by
    intro blank
    have foreign : [' ', '\t', '\n', '\r', '#'].all (!Lexeme.isIdentifierStart ·) := by decide
    simpa [starts] using List.all_eq_true.mp foreign first blank
  cases written with
  | name id =>
      rw [Writable] at writable
      rcases writable with ⟨⟨first, rest, isText, starts, _⟩, _⟩ | rfl
      · exact ⟨first, rest, by rw [text, isText], word starts⟩
      · exact ⟨'N', ['o', 'n', 'e'], rfl, by decide⟩
  | size count => simp [Writable] at writable
  | generic id args =>
      rw [Writable] at writable
      obtain ⟨⟨⟨first, rest, isText, starts, _⟩, _⟩, _⟩ := writable
      rw [text, String.toList_append, String.toList_append, String.toList_append, isText]
      exact ⟨first, _, rfl, word starts⟩
  | tuple items =>
      rw [text, String.toList_append, String.toList_append]
      exact ⟨'(', _, rfl, by decide⟩

theorem imprints_ofSource_text {written : TypeExpr} (writable : written.Writable false) :
    (Token.ofSource written.text).map Token.imprint =
      written.printing ++ [Token.Kind.endOfFile.imprint] := by
  obtain ⟨first, rest, isText, starts⟩ := exists_first_of_text writable
  obtain ⟨next, scanned⟩ := scannedAs_text endsWord_nil written writable [0] 1 1
  rw [List.append_nil, Token.scan] at scanned
  rw [Token.ofSource_eq_scan isText starts, scanned]
  rfl

end TypeExpr

namespace Grammar

open TypeExpr

variable {tokens : List Token} {quoted : QuotedReader} {arg : TypeExpr}

/-! ## From the tokens to the annotation -/

theorem eat?_of_peek_ne {kind : Token.Kind} (other : peek tokens ≠ kind) :
    eat? kind tokens = none := by
  cases tokens with
  | nil => rfl
  | cons token rest => exact eat?_cons_ne other rest

theorem size?_toString {count : Nat} (small : count ≤ 18446744073709551615) :
    Number.size? (toString count) = some count := by
  have digits := isDigit_of_mem_toString count
  rw [Number.size?]
  split
  · rename_i rest isText
    rw [isText] at digits
    exact absurd (digits '+' List.mem_cons_self) (by decide)
  · rw [natural?_of_isDigit (toString_nat_ne_nil count) digits, digitsValue_toString,
      Option.filter_some, if_pos (decide_eq_true small)]

variable {written : TypeExpr}

theorem writable_of_ne_size {bracketed : Bool} (writable : written.Writable bracketed)
    (other : ∀ count, written ≠ .size count) : written.Writable false := by
  cases written with
  | size count => exact absurd rfl (other count)
  | _ => simpa [Writable] using writable

theorem exists_first_of_printing (writable : written.Writable false) {slice : List Token}
    (printed : slice.map Token.imprint = written.printing) :
    ∃ token rest, slice = token :: rest ∧
      token.kind ∈ [.identifier, .keyword .none_, .punct .leftParen] := by
  have starts : ∃ imprint imprints, written.printing = imprint :: imprints ∧
      imprint.1 ∈ [.identifier, .keyword .none_, .punct .leftParen] := by
    cases written with
    | name id =>
        rw [printing]
        exact ⟨_, _, rfl, by split <;> simp [Token.Kind.imprint]⟩
    | size count => simp [Writable] at writable
    | generic id args =>
        rw [printing]
        exact ⟨_, _, rfl, by simp⟩
    | tuple items =>
        rw [printing]
        exact ⟨_, _, rfl, by decide⟩
  obtain ⟨imprint, imprints, isPrinting, starts⟩ := starts
  rw [isPrinting] at printed
  obtain ⟨token, rest, rfl, rfl, -⟩ := List.map_eq_cons_iff.mp printed
  exact ⟨token, rest, rfl, starts⟩

def typeArgument (quoted : QuotedReader) (tokens : List Token) : Outcome TypeExpr tokens.length :=
  match eat? .number tokens with
  | some ⟨token, rest, h⟩ =>
      match Number.size? token.text with
      | some count => .ok ⟨.size count, rest, h⟩
      | none => .error (.parsing .invalidSize (some token))
  | none => typeExpr quoted tokens

theorem gives_typeArgument (writable : arg.Writable true) {slice rest : List Token}
    (printed : slice.map Token.imprint = arg.printing)
    (others : arg.Writable false → Gives (typeExpr quoted (slice ++ rest)) arg rest) :
    Gives (typeArgument quoted (slice ++ rest)) arg rest := by
  by_cases isSize : ∃ count, arg = .size count
  · obtain ⟨count, rfl⟩ := isSize
    rw [Writable] at writable
    rw [printing] at printed
    obtain ⟨token, rfl, isToken⟩ := List.map_eq_singleton_iff.mp printed
    obtain ⟨isNumber, isText⟩ := Prod.mk.inj isToken
    rw [List.singleton_append, typeArgument, eat?_cons isNumber]
    dsimp only
    rw [isText, size?_toString writable.2]
    exact .ok
  · have unbracketed := writable_of_ne_size writable fun count same => isSize ⟨count, same⟩
    obtain ⟨token, rest, rfl, starts⟩ := exists_first_of_printing unbracketed printed
    have notNumber : token.kind ≠ .number := by
      rintro isNumber
      simp [isNumber] at starts
    rw [typeArgument, List.cons_append, eat?_cons_ne notNumber]
    exact others unbracketed

theorem gives_lastTypeArgument {rest : List Token}
    (first : Gives (typeArgument quoted tokens) arg rest) (ends : peek rest ≠ .punct .comma) :
    Gives (typeArguments quoted tokens) [arg] rest := by
  rw [typeArguments]
  refine first.bind fun _ => ?_
  dsimp only
  rw [eat?_of_peek_ne ends]
  exact .ok

theorem gives_nextTypeArgument {rest left : List Token} {args : List TypeExpr} {comma : Token}
    (first : Gives (typeArgument quoted tokens) arg (comma :: rest))
    (separates : comma.kind = .punct .comma)
    (others : Gives (typeArguments quoted rest) args left) :
    Gives (typeArguments quoted tokens) (arg :: args) left := by
  rw [typeArguments]
  refine first.bind fun _ => ?_
  dsimp only
  rw [eat?_cons separates]
  exact others.bind fun _ => .ok

/-- No bracket comes after the first of several items. -/
theorem unbracketed_further {items : List TypeExpr} {further : List Token} {closing : Token}
    (printed : further.map Token.imprint = furtherPrinting items)
    (closes : closing.kind = .punct .rightParen) (rest : List Token) :
    peek (further ++ closing :: rest) ≠ .punct .leftBracket := by
  cases items with
  | nil =>
      obtain rfl := List.map_eq_nil_iff.mp printed
      rw [List.nil_append, peek_cons, closes]
      decide
  | cons item items =>
      obtain ⟨comma, listed, rfl, isComma, -⟩ := List.map_eq_cons_iff.mp printed
      rw [List.cons_append, peek_cons, (Prod.mk.inj isComma).1]
      decide

mutual

/-- An annotation is read off its tokens unless a bracket follows. -/
theorem gives_typeExpr (quoted : QuotedReader) :
    (written : TypeExpr) → written.Writable false → ∀ {slice rest : List Token},
      slice.map Token.imprint = written.printing → peek rest ≠ .punct .leftBracket →
      Gives (typeExpr quoted (slice ++ rest)) written rest
  | .name id, writable, slice, rest, printed, unbracketed => by
      rw [Writable] at writable
      rcases writable with isWord | rfl
      · rw [printing_name isWord] at printed
        obtain ⟨token, rfl, isToken⟩ := List.map_eq_singleton_iff.mp printed
        obtain ⟨isName, rfl⟩ := Prod.mk.inj isToken
        rw [List.singleton_append, typeExpr.eq_def]
        dsimp only
        rw [isName, eat?_of_peek_ne unbracketed]
        exact .ok
      · rw [printing, if_pos rfl] at printed
        obtain ⟨token, rfl, isToken⟩ := List.map_eq_singleton_iff.mp printed
        obtain ⟨isNone, -⟩ := Prod.mk.inj isToken
        rw [List.singleton_append, typeExpr.eq_def]
        dsimp only
        rw [isNone]
        exact .ok
  | .size count, writable, _, _, _, _ => by simp [Writable] at writable
  | .generic id args, writable, slice, rest, printed, _ => by
      rw [Writable] at writable
      obtain ⟨-, nonempty, areWritable⟩ := writable
      rw [printing] at printed
      obtain ⟨token, bracketed, rfl, isToken, isBracketed⟩ := List.map_eq_cons_iff.mp printed
      obtain ⟨isName, rfl⟩ := Prod.mk.inj isToken
      obtain ⟨opening, inside, closing, rfl, opens, isInside, closes⟩ :=
        exists_of_imprints_between isBracketed
      have arguments := gives_typeArguments quoted args nonempty areWritable isInside closes rest
      rw [List.cons_append, List.cons_append, List.append_assoc, typeExpr.eq_def]
      dsimp only
      rw [isName, eat?_cons opens]
      exact arguments.bind fun _ => (gives_expect closes _ rest).bind fun _ => .ok
  | .tuple [], writable, _, _, _, _ => by simp [Writable] at writable
  | .tuple (first :: others), writable, slice, rest, printed, _ => by
      rw [Writable, AreWritable] at writable
      obtain ⟨several, isWritable, areWritable⟩ := writable
      rw [printing, itemsPrinting_cons] at printed
      obtain ⟨opening, inside, closing, rfl, opens, isInside, closes⟩ :=
        exists_of_imprints_between printed
      obtain ⟨slice, further, rfl, isFirst, isFurther⟩ := List.map_eq_append_iff.mp isInside
      have later := gives_typeItems quoted others areWritable isFurther closes rest
      have first := gives_typeExpr quoted first isWritable isFirst
        (unbracketed_further isFurther closes rest)
      rw [List.cons_append, List.append_assoc, List.append_assoc, List.singleton_append,
        typeExpr.eq_def]
      dsimp only
      rw [opens]
      refine first.bind fun _ => later.bind fun _ => (gives_expect closes _ rest).bind fun _ => ?_
      cases others with
      | nil => simp at several
      | cons second others => exact .ok

theorem gives_typeArguments (quoted : QuotedReader) :
    (args : List TypeExpr) → args ≠ [] → AreWritable true args →
      ∀ {slice : List Token} {closing : Token},
      slice.map Token.imprint = itemsPrinting args → closing.kind = .punct .rightBracket →
      ∀ rest, Gives (typeArguments quoted (slice ++ closing :: rest)) args (closing :: rest)
  | [], nonempty, _, _, _, _, _, _ => absurd rfl nonempty
  | [arg], _, areWritable, slice, closing, printed, closes, rest => by
      rw [AreWritable] at areWritable
      rw [itemsPrinting] at printed
      have read : Gives (typeArgument quoted (slice ++ closing :: rest)) arg (closing :: rest) :=
        gives_typeArgument areWritable.1 printed fun writable =>
          gives_typeExpr quoted arg writable printed (by rw [peek_cons, closes]; decide)
      exact gives_lastTypeArgument read (by rw [peek_cons, closes]; decide)
  | arg :: next :: others, _, areWritable, slice, closing, printed, closes, rest => by
      rw [AreWritable] at areWritable
      obtain ⟨isWritable, areOthers⟩ := areWritable
      rw [itemsPrinting] at printed
      obtain ⟨slice, comma, further, rfl, isArg, isComma, isFurther⟩ := exists_of_imprints printed
      have separates : comma.kind = .punct .comma := (Prod.mk.inj isComma).1
      have later := gives_typeArguments quoted (next :: others) (List.cons_ne_nil _ _) areOthers
        isFurther closes rest
      rw [List.append_assoc, List.cons_append]
      refine gives_nextTypeArgument (gives_typeArgument isWritable isArg fun writable => ?_)
        separates later
      exact gives_typeExpr quoted arg writable isArg (by rw [peek_cons, separates]; decide)

theorem gives_typeItems (quoted : QuotedReader) :
    (items : List TypeExpr) → AreWritable false items →
      ∀ {slice : List Token} {closing : Token},
      slice.map Token.imprint = furtherPrinting items → closing.kind = .punct .rightParen →
      ∀ rest, Gives (typeItems quoted (slice ++ closing :: rest)) items (closing :: rest)
  | [], _, slice, closing, printed, closes, rest => by
      obtain rfl := List.map_eq_nil_iff.mp printed
      rw [List.nil_append, typeItems, eat?_cons_ne (by rw [closes]; decide)]
      exact .ok
  | item :: items, areWritable, slice, closing, printed, closes, rest => by
      rw [AreWritable] at areWritable
      obtain ⟨isWritable, areOthers⟩ := areWritable
      rw [furtherPrinting, List.flatMap_cons, List.cons_append] at printed
      obtain ⟨comma, listed, rfl, isComma, isListed⟩ := List.map_eq_cons_iff.mp printed
      have separates : comma.kind = .punct .comma := (Prod.mk.inj isComma).1
      obtain ⟨slice, further, rfl, isItem, isFurther⟩ := List.map_eq_append_iff.mp isListed
      have later := gives_typeItems quoted items areOthers isFurther closes rest
      have first := gives_typeExpr quoted item isWritable isItem
        (unbracketed_further isFurther closes rest)
      obtain ⟨token, others, rfl, starts⟩ := exists_first_of_printing isWritable isItem
      have goesOn : token.kind ≠ .punct .rightParen := by
        rintro isParen
        simp [isParen] at starts
      rw [List.cons_append, typeItems, eat?_cons separates]
      dsimp only
      rw [List.append_assoc, if_neg (by simpa [peek_cons] using goesOn)]
      exact first.bind fun _ => later.bind fun _ => .ok

end

/-- The reader for quoted texts inside a text. -/
def readerIn (text : String) : QuotedReader := fun inside =>
  if inside.utf8ByteSize < text.utf8ByteSize then quotedType inside
  else .error (.parsing (.expected .typeExpr))

theorem quotedType_eq_ok_iff {text : String} :
    quotedType text = .ok written ↔
      (∀ token ∈ Token.ofSource text, token.kind ≠ .error) ∧
      ∃ rest, Gives (typeExpr (readerIn text) (splitEnd (Token.ofSource text)).1) written rest ∧
        peek rest = .endOfFile := by
  have noFault_iff : scanFault? (Token.ofSource text) = none ↔
      ∀ token ∈ Token.ofSource text, token.kind ≠ .error := by
    simp [scanFault?]
  rw [quotedType, ← noFault_iff]
  cases scanFault? (Token.ofSource text) with
  | some fault => simp
  | none =>
      unfold readerIn
      dsimp only
      generalize typeExpr _ (splitEnd (Token.ofSource text)).1 = outcome
      cases outcome with
      | error refusal => simp [Gives]
      | ok parsed =>
          obtain ⟨value, rest, shorter⟩ := parsed
          dsimp only
          constructor
          · intro isOk
            obtain ⟨ends, isValue⟩ := Outcome.ite_error_eq_ok.mp isOk
            obtain rfl := Except.ok.inj isValue
            exact ⟨rfl, rest, .ok, ends⟩
          · rintro ⟨-, left, gives, ends⟩
            obtain ⟨rfl, rfl⟩ := gives.eq_of_ok
            rw [if_pos ends]

theorem quotedType_text (writable : written.Writable false) :
    quotedType written.text = .ok written := by
  obtain ⟨body, last, tail, isTokens, isPrinted, isLast, isTail⟩ :=
    exists_of_imprints (imprints_ofSource_text writable)
  obtain rfl := List.map_eq_nil_iff.mp isTail
  have isEnd : last.kind = .endOfFile := (Prod.mk.inj isLast).1
  have ends : (Token.ofSource written.text).getLast?.map (·.kind) = some .endOfFile := by
    simp [isTokens, isEnd]
  have isBody : (splitEnd (Token.ofSource written.text)).1 = body ++ [] := by
    simp [splitEnd, isTokens, isEnd]
  refine quotedType_eq_ok_iff.mpr ⟨Token.kind_ne_error ends, [], ?_, rfl⟩
  rw [isBody]
  exact gives_typeExpr _ written writable isPrinted (by decide)

theorem areWritable_iff {bracketed : Bool} {items : List TypeExpr} :
    AreWritable bracketed items ↔ ∀ item ∈ items, item.Writable bracketed := by
  induction items with
  | nil => simp [AreWritable]
  | cons item items induction => simp [AreWritable, induction]

theorem writable_of_unbracketed (writable : written.Writable false) (bracketed : Bool) :
    written.Writable bracketed := by
  cases written with
  | size count => simp [Writable] at writable
  | _ => simpa [Writable] using writable

theorem le_of_size? {text : String} {count : Nat} (isSize : Number.size? text = some count) :
    count ≤ 18446744073709551615 := by
  rw [Number.size?] at isSize
  exact of_decide_eq_true (Option.filter_eq_some_iff.mp isSize).2

theorem writable_of_quotedType (text : String) {written : TypeExpr}
    (read : quotedType text = .ok written) : written.Writable false := by
  obtain ⟨faultless, rest, ⟨shorter, isOk⟩, -⟩ := quotedType_eq_ok_iff.mp read
  have isWord (id : String) (isName : IsName (splitEnd (Token.ofSource text)).1 id) :
      IsWord id := by
    obtain ⟨token, member, named⟩ := isName
    exact isWord_of_isName faultless ⟨token, mem_of_mem_splitEnd member, named⟩
  have inherited : Inherited (splitEnd (Token.ofSource text)).1 (readerIn text)
      fun bracketed written => written.Writable bracketed := by
    constructor
    case none => simp [Writable]
    case name =>
      intro bracketed id isName
      rw [Writable]
      exact .inl (isWord id isName)
    case size =>
      intro _ count isSize
      rw [Writable]
      exact ⟨rfl, le_of_size? isSize⟩
    case generic =>
      intro bracketed id args isName nonempty areWritable
      rw [Writable]
      exact ⟨isWord id isName, nonempty, areWritable_iff.mpr areWritable⟩
    case quoted =>
      -- A quoted text inside the text is shorter.
      intro bracketed inside written isRead
      obtain ⟨shorter, isRead⟩ := Outcome.ite_error_eq_ok.mp isRead
      exact writable_of_unbracketed (writable_of_quotedType inside isRead) bracketed
    case tuple =>
      intro bracketed items several areWritable
      rw [Writable]
      exact ⟨several, areWritable_iff.mpr areWritable⟩
  exact ((takes_typeExpr _ inherited).made _ isOk).2 false
termination_by text.utf8ByteSize

end Grammar

/-- The text of an annotation that was read is read as this annotation. -/
theorem parseType_text {source : String} {line : Nat} {written : TypeExpr}
    (read : parseType source line = .ok written) (line' : Nat) :
    parseType written.text line' = .ok written := by
  have writable := Grammar.writable_of_quotedType source (Outcome.mapError_eq_ok.mp read)
  exact Outcome.mapError_eq_ok.mpr (Grammar.quotedType_text writable)

theorem parseType_text_meaningless :
    parseType "('List[ptr[Node], 007]', (None), b,)" 3 =
        .ok (.tuple [.generic "List" [.generic "ptr" [.name "Node"], .size 7], .name "None",
          .name "b"]) ∧
      parseType "(List[ptr[Node], 7], None, b)" 0 =
        .ok (.tuple [.generic "List" [.generic "ptr" [.name "Node"], .size 7], .name "None",
          .name "b"]) := by
  have read : parseType "('List[ptr[Node], 007]', (None), b,)" 3 =
      .ok (.tuple [.generic "List" [.generic "ptr" [.name "Node"], .size 7], .name "None",
        .name "b"]) := by
    with_unfolding_all rfl
  exact ⟨read, parseType_text read 0⟩

namespace Ty

def written : Ty → TypeExpr
  | int => .name "int"
  | float => .name "float"
  | bool => .name "bool"
  | str => .name "str"
  | none => .name "None"
  | ptr target => .generic "ptr" [target.written]
  | array item size => .generic "array" [item.written, .size size]
  | result ok err => .generic "Result" [ok.written, err.written]
  | named name => .name name
  | range => .name "range"

theorem text_written (ty : Ty) : ty.written.text = ty.text := by
  induction ty <;> simp_all [written, text, TypeExpr.text, TypeExpr.texts, String.append_assoc]

/-- Whether annotations can mean a type. -/
def Meant : Ty → Prop
  | int | float | bool | str | none => True
  | ptr target => target.Meant
  | array item size => item.Meant ∧ 0 < size ∧ size ≤ 18446744073709551615
  | result ok err => ok.Meant ∧ err.Meant
  | named name => IsWord name ∧ ofName name = .ok (named name)
  | range => False

variable {ty : Ty}

theorem eq_named_of_ofName {id : String} (means : ofName id = .ok ty) :
    ty ∈ [int, float, bool, str, none] ∨ ty = named id := by
  simp only [ofName] at means
  repeat' split at means
  all_goals cases means
  all_goals simp

theorem meant_of_ofName {id : String} (isName : IsWord id ∨ id = "None")
    (means : ofName id = .ok ty) : ty.Meant := by
  rcases eq_named_of_ofName means with builtIn | rfl
  · simp only [List.mem_cons, List.not_mem_nil, or_false] at builtIn
    rcases builtIn with rfl | rfl | rfl | rfl | rfl <;> exact trivial
  · refine ⟨isName.resolve_right ?_, means⟩
    rintro rfl
    cases means

theorem meant_of_ofExpr {written : TypeExpr} {bracketed : Bool}
    (writable : written.Writable bracketed) (means : ofExpr written = .ok ty) : ty.Meant := by
  fun_induction ofExpr written generalizing ty bracketed
  case case1 id =>
    rw [TypeExpr.Writable] at writable
    exact meant_of_ofName writable means
  case case4 inner _ meantInner =>
    simp only [TypeExpr.Writable, TypeExpr.AreWritable] at writable
    simp only [Outcome.bind_eq_ok, Outcome.pure_eq_ok] at means
    obtain ⟨target, isTarget, rfl⟩ := means
    have meantTarget := meantInner writable.2.2.1 isTarget
    exact meantTarget
  case case6 first second _ meantFirst meantSecond =>
    simp only [TypeExpr.Writable, TypeExpr.AreWritable] at writable
    obtain ⟨-, -, isFirst, isSecond, -⟩ := writable
    simp only [Outcome.bind_eq_ok, Outcome.pure_eq_ok] at means
    obtain ⟨ok, isOk, err, isErr, rfl⟩ := means
    exact ⟨meantFirst isFirst isOk, meantSecond isSecond isErr⟩
  case case8 first count positive _ _ meantFirst =>
    simp only [TypeExpr.Writable, TypeExpr.AreWritable] at writable
    obtain ⟨-, -, isFirst, ⟨-, small⟩, -⟩ := writable
    simp only [Outcome.bind_eq_ok, Outcome.pure_eq_ok] at means
    obtain ⟨item, isItem, rfl⟩ := means
    exact ⟨meantFirst isFirst isItem, Nat.pos_of_ne_zero positive, small⟩
  case case11 first second meantFirst meantSecond =>
    simp only [TypeExpr.Writable, TypeExpr.AreWritable] at writable
    obtain ⟨-, isFirst, isSecond, -⟩ := writable
    simp only [Outcome.bind_eq_ok, Outcome.pure_eq_ok] at means
    obtain ⟨ok, isOk, err, isErr, rfl⟩ := means
    exact ⟨meantFirst isFirst isOk, meantSecond isSecond isErr⟩
  all_goals cases means

theorem writable_written (meant : ty.Meant) : ty.written.Writable false := by
  induction ty with
  | int | float | bool | str => exact .inl (by decide)
  | none => exact .inr rfl
  | ptr target writable =>
      have inner := Grammar.writable_of_unbracketed (writable meant) true
      exact ⟨by decide, List.cons_ne_nil _ _, inner, trivial⟩
  | array item size writable =>
      obtain ⟨meantItem, -, small⟩ := meant
      have inner := Grammar.writable_of_unbracketed (writable meantItem) true
      exact ⟨by decide, List.cons_ne_nil _ _, inner, ⟨rfl, small⟩, trivial⟩
  | result ok err writableOk writableErr =>
      obtain ⟨meantOk, meantErr⟩ := meant
      have first := Grammar.writable_of_unbracketed (writableOk meantOk) true
      have second := Grammar.writable_of_unbracketed (writableErr meantErr) true
      exact ⟨by decide, List.cons_ne_nil _ _, first, second, trivial⟩
  | named name => exact .inl meant.1
  | range => exact meant.elim

theorem ofExpr_written (meant : ty.Meant) : ofExpr ty.written = .ok ty := by
  induction ty with
  | int | float | bool | str | none => rfl
  | ptr target means => simp [written, ofExpr, means meant]
  | array item size means =>
      obtain ⟨meantItem, positive, -⟩ := meant
      simp [written, ofExpr, means meantItem, positive.ne']
  | result ok err meansOk meansErr => simp [written, ofExpr, meansOk meant.1, meansErr meant.2]
  | named name => simpa [written, ofExpr] using meant.2
  | range => exact meant.elim

end Ty

/-- The text of a type is read as an annotation that means this type. -/
theorem ofExpr_parseType_text {source : String} {line : Nat} {written : TypeExpr} {ty : Ty}
    (read : parseType source line = .ok written) (means : Ty.ofExpr written = .ok ty)
    (line' : Nat) :
    ∃ written', parseType ty.text line' = .ok written' ∧ Ty.ofExpr written' = .ok ty := by
  have writable := Grammar.writable_of_quotedType source (Outcome.mapError_eq_ok.mp read)
  have meant := Ty.meant_of_ofExpr writable means
  refine ⟨ty.written, ?_, Ty.ofExpr_written meant⟩
  rw [← Ty.text_written]
  exact Outcome.mapError_eq_ok.mpr (Grammar.quotedType_text (Ty.writable_written meant))

theorem ofExpr_parseType_text_pair :
    parseType "(array[ptr['Node'], 007], void)" 3 =
        .ok (.tuple [.generic "array" [.generic "ptr" [.name "Node"], .size 7], .name "void"]) ∧
      Ty.ofExpr (.tuple [.generic "array" [.generic "ptr" [.name "Node"], .size 7], .name "void"]) =
        .ok (.result (.array (.ptr (.named "Node")) 7) .none) ∧
      ∃ written', parseType "Result[array[ptr[Node], 7], None]" 0 = .ok written' ∧
        Ty.ofExpr written' = .ok (.result (.array (.ptr (.named "Node")) 7) .none) := by
  have read : parseType "(array[ptr['Node'], 007], void)" 3 =
      .ok (.tuple [.generic "array" [.generic "ptr" [.name "Node"], .size 7], .name "void"]) := by
    with_unfolding_all rfl
  have means : Ty.ofExpr (.tuple [.generic "array" [.generic "ptr" [.name "Node"], .size 7],
      .name "void"]) = .ok (.result (.array (.ptr (.named "Node")) 7) .none) := by
    with_unfolding_all rfl
  exact ⟨read, means, ofExpr_parseType_text read means 0⟩

end Offside
