/-
Kinds of tokens.

The kinds are closed: the keywords, identifiers and integers, the operators, the delimiters, and
the two kinds for the end of the input and for a character that starts no token. Each kind has a
name, and a number by its place in `Kind.all`, from 1.
-/
namespace Lexis

/-- The reserved words. -/
inductive Keyword where
  | classKw | publicKw | staticKw | voidKw | mainKw | stringKw | extendsKw | returnKw
  | intKw | booleanKw | ifKw | elseKw | whileKw | printKw | lengthKw | trueKw | falseKw
  | thisKw | newKw
  deriving DecidableEq, Repr

/-- The operators. -/
inductive Operator where
  | and | lessThan | plus | minus | times | not | equals | dot
  deriving DecidableEq, Repr

/-- The delimiters. -/
inductive Delimiter where
  | leftParen | rightParen | leftBrace | rightBrace | leftBracket | rightBracket
  | semicolon | comma
  deriving DecidableEq, Repr

/-- The kind of a token. -/
inductive Kind where
  | keyword (k : Keyword)
  | identifier
  | integer
  | operator (o : Operator)
  | delimiter (d : Delimiter)
  /-- The end of the input. -/
  | endOfInput
  /-- A character that starts no token. -/
  | invalid
  deriving DecidableEq, Repr

/-- The keywords in the order of the table of reserved words. -/
def Keyword.all : List Keyword :=
  [.classKw, .publicKw, .staticKw, .voidKw, .mainKw, .stringKw, .extendsKw, .returnKw, .intKw,
   .booleanKw, .ifKw, .elseKw, .whileKw, .printKw, .lengthKw, .trueKw, .falseKw, .thisKw, .newKw]

/-- The operators in order. -/
def Operator.all : List Operator :=
  [.and, .lessThan, .plus, .minus, .times, .not, .equals, .dot]

/-- The delimiters in order. -/
def Delimiter.all : List Delimiter :=
  [.leftParen, .rightParen, .leftBrace, .rightBrace, .leftBracket, .rightBracket, .semicolon,
   .comma]

/-- The kinds in order. -/
def Kind.all : List Kind :=
  Keyword.all.map .keyword ++ [.identifier, .integer] ++ Operator.all.map .operator ++
    Delimiter.all.map .delimiter ++ [.endOfInput, .invalid]

/-- The name of a keyword's kind. -/
def Keyword.name : Keyword → String
  | .classKw => "CLASS"
  | .publicKw => "PUBLIC"
  | .staticKw => "STATIC"
  | .voidKw => "VOID"
  | .mainKw => "MAIN"
  | .stringKw => "STRING"
  | .extendsKw => "EXTENDS"
  | .returnKw => "RETURN"
  | .intKw => "INT"
  | .booleanKw => "BOOLEAN"
  | .ifKw => "IF"
  | .elseKw => "ELSE"
  | .whileKw => "WHILE"
  | .printKw => "PRINT"
  | .lengthKw => "LENGTH"
  | .trueKw => "TRUE"
  | .falseKw => "FALSE"
  | .thisKw => "THIS"
  | .newKw => "NEW"

/-- The name of an operator's kind. -/
def Operator.name : Operator → String
  | .and => "AND"
  | .lessThan => "LESS_THAN"
  | .plus => "PLUS"
  | .minus => "MINUS"
  | .times => "TIMES"
  | .not => "NOT"
  | .equals => "EQUALS"
  | .dot => "DOT"

/-- The name of a delimiter's kind. -/
def Delimiter.name : Delimiter → String
  | .leftParen => "LPAREN"
  | .rightParen => "RPAREN"
  | .leftBrace => "LBRACE"
  | .rightBrace => "RBRACE"
  | .leftBracket => "LBRACKET"
  | .rightBracket => "RBRACKET"
  | .semicolon => "SEMICOLON"
  | .comma => "COMMA"

/-- The name of a kind. -/
def Kind.name : Kind → String
  | .keyword k => k.name
  | .identifier => "ID"
  | .integer => "INTEGER_LITERAL"
  | .operator o => o.name
  | .delimiter d => d.name
  | .endOfInput => "EOF"
  | .invalid => "ERROR"

/-- The number of a kind: its place among all kinds, from 1. -/
def Kind.number (k : Kind) : Nat :=
  Kind.all.idxOf k + 1

/-- The kind of a given name. -/
def Kind.ofName? (name : String) : Option Kind :=
  Kind.all.find? (·.name = name)

/-- Is it the kind of a reserved word? -/
def Kind.isKeyword : Kind → Bool
  | .keyword _ => true
  | _ => false

/-- Is it the kind of an operator? -/
def Kind.isOperator : Kind → Bool
  | .operator _ => true
  | _ => false

/-- Is it the kind of a delimiter? -/
def Kind.isDelimiter : Kind → Bool
  | .delimiter _ => true
  | _ => false

theorem Kind.mem_all (k : Kind) : k ∈ Kind.all := by
  rcases k with k | _ | _ | o | d | _ | _
  · cases k <;> decide
  · decide
  · decide
  · cases o <;> decide
  · cases d <;> decide
  · decide
  · decide

end Lexis
