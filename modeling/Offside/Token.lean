import Offside.Text.Quoted

/-!
# Tokens

The words of the source language: numerals, quoted literals, identifiers, keywords, punctuation, and
the layout tokens that stand for line ends and for the opening and closing of indented blocks.
-/

namespace Offside

inductive Keyword
  | def_
  | class_
  | if_
  | else_
  | elif_
  | while_
  | for_
  | break_
  | continue_
  | return_
  | pass_
  | match_
  | case_
  | in_
  | and_
  | or_
  | not_
  | true_
  | false_
  | none_
  | import_
  | from_
  | as_
deriving DecidableEq, Repr

namespace Keyword

def all : List Keyword :=
  [def_, class_, if_, else_, elif_, while_, for_, break_, continue_, return_, pass_, match_, case_,
   in_, and_, or_, not_, true_, false_, none_, import_, from_, as_]

def spelling : Keyword → String
  | def_ => "def"
  | class_ => "class"
  | if_ => "if"
  | else_ => "else"
  | elif_ => "elif"
  | while_ => "while"
  | for_ => "for"
  | break_ => "break"
  | continue_ => "continue"
  | return_ => "return"
  | pass_ => "pass"
  | match_ => "match"
  | case_ => "case"
  | in_ => "in"
  | and_ => "and"
  | or_ => "or"
  | not_ => "not"
  | true_ => "True"
  | false_ => "False"
  | none_ => "None"
  | import_ => "import"
  | from_ => "from"
  | as_ => "as"

/-- The name of a reserved word in dumps and messages. -/
def name : Keyword → String
  | def_ => "DEF"
  | class_ => "CLASS"
  | if_ => "IF"
  | else_ => "ELSE"
  | elif_ => "ELIF"
  | while_ => "WHILE"
  | for_ => "FOR"
  | break_ => "BREAK"
  | continue_ => "CONTINUE"
  | return_ => "RETURN"
  | pass_ => "PASS"
  | match_ => "MATCH"
  | case_ => "CASE"
  | in_ => "IN"
  | and_ => "AND"
  | or_ => "OR"
  | not_ => "NOT"
  | true_ => "TRUE"
  | false_ => "FALSE"
  | none_ => "NONE"
  | import_ => "IMPORT"
  | from_ => "FROM"
  | as_ => "AS"

def ofSpelling? (text : String) : Option Keyword := all.find? (·.spelling = text)

end Keyword

inductive Punct
  | plus
  | minus
  | star
  | slash
  | doubleSlash
  | percent
  | assign
  | equal
  | notEqual
  | less
  | lessEqual
  | greater
  | greaterEqual
  | arrow
  | leftParen
  | rightParen
  | leftBracket
  | rightBracket
  | leftBrace
  | rightBrace
  | comma
  | colon
  | semicolon
  | dot
deriving DecidableEq, Repr

namespace Punct

def all : List Punct :=
  [plus, minus, star, slash, doubleSlash, percent, assign, equal, notEqual, less, lessEqual,
   greater, greaterEqual, arrow, leftParen, rightParen, leftBracket, rightBracket, leftBrace,
   rightBrace, comma, colon, semicolon, dot]

def spelling : Punct → String
  | plus => "+"
  | minus => "-"
  | star => "*"
  | slash => "/"
  | doubleSlash => "//"
  | percent => "%"
  | assign => "="
  | equal => "=="
  | notEqual => "!="
  | less => "<"
  | lessEqual => "<="
  | greater => ">"
  | greaterEqual => ">="
  | arrow => "->"
  | leftParen => "("
  | rightParen => ")"
  | leftBracket => "["
  | rightBracket => "]"
  | leftBrace => "\x7b"
  | rightBrace => "\x7d"
  | comma => ","
  | colon => ":"
  | semicolon => ";"
  | dot => "."

/-- The name of an operator or delimiter in dumps and messages. -/
def name : Punct → String
  | plus => "PLUS"
  | minus => "MINUS"
  | star => "STAR"
  | slash => "SLASH"
  | doubleSlash => "DOUBLE_SLASH"
  | percent => "PERCENT"
  | assign => "ASSIGN"
  | equal => "EQ"
  | notEqual => "NE"
  | less => "LT"
  | lessEqual => "LE"
  | greater => "GT"
  | greaterEqual => "GE"
  | arrow => "ARROW"
  | leftParen => "LPAREN"
  | rightParen => "RPAREN"
  | leftBracket => "LBRACKET"
  | rightBracket => "RBRACKET"
  | leftBrace => "LBRACE"
  | rightBrace => "RBRACE"
  | comma => "COMMA"
  | colon => "COLON"
  | semicolon => "SEMICOLON"
  | dot => "DOT"

/-- The operator that two adjacent characters make. -/
def ofPair? : Char → Char → Option Punct
  | '-', '>' => some arrow
  | '/', '/' => some doubleSlash
  | '=', '=' => some equal
  | '!', '=' => some notEqual
  | '<', '=' => some lessEqual
  | '>', '=' => some greaterEqual
  | _, _ => none

/-- The operator or delimiter that one character makes by itself. -/
def ofChar? : Char → Option Punct
  | '(' => some leftParen
  | ')' => some rightParen
  | '[' => some leftBracket
  | ']' => some rightBracket
  | '\x7b' => some leftBrace
  | '\x7d' => some rightBrace
  | ',' => some comma
  | ':' => some colon
  | ';' => some semicolon
  | '.' => some dot
  | '+' => some plus
  | '*' => some star
  | '%' => some percent
  | '-' => some minus
  | '/' => some slash
  | '=' => some assign
  | '<' => some less
  | '>' => some greater
  | _ => none

end Punct

namespace Token

inductive Kind
  | number
  | string
  | identifier
  | keyword (word : Keyword)
  | punct (mark : Punct)
  | newline
  | indent
  | dedent
  | endOfFile
  | error
deriving DecidableEq, Repr

namespace Kind

def all : List Kind :=
  [number, string, identifier, newline, indent, dedent, endOfFile, error]
    ++ Keyword.all.map keyword ++ Punct.all.map punct

/-- The name of a sort of token in dumps and messages. -/
def name : Kind → String
  | number => "NUMBER"
  | string => "STRING"
  | identifier => "IDENTIFIER"
  | keyword word => word.name
  | punct mark => mark.name
  | newline => "NEWLINE"
  | indent => "INDENT"
  | dedent => "DEDENT"
  | endOfFile => "EOF"
  | error => "ERROR"

/-- The sort of token that a name stands for. -/
def ofName? (text : String) : Option Kind := all.find? (·.name = text)

end Kind

end Token

/-- A token and where it starts, counted from one, in columns of bytes. -/
structure Token where
  kind : Token.Kind
  /-- The text of numerals, literals and identifiers, and the message of an error. -/
  lexeme : Option String
  line : Nat
  column : Nat
deriving DecidableEq, Repr

namespace Token

def text (token : Token) : String := token.lexeme.getD ""

/-- The token as messages name it, with its text in quotes. -/
def describe (token : Token) : String :=
  match token.lexeme with
  | some lexeme => token.kind.name ++ "(" ++ Text.quoted lexeme ++ ")"
  | none => token.kind.name

/-- One line of a token dump. -/
def listingLine (token : Token) : String :=
  toString token.line ++ ":" ++ toString token.column ++ " " ++ token.describe ++ "\n"

/-- The dump of a token list, one token a line. -/
def listing (tokens : List Token) : String := String.join (tokens.map listingLine)

end Token

end Offside
