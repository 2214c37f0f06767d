import GateBench.Number.Shortest

/-!
Tokens of the gate-list language.
-/

namespace GateBench.Syntax

/-- The reserved words.  `entryMark` is the mark in front of an operation that may be run. -/
inductive Keyword where
  | namespaceWord
  | operationWord
  | entryMark
  | callWord
  | measureWord
  | resetWord
  | piWord
deriving DecidableEq, Repr

/-- How a reserved word is spelled. -/
def Keyword.text : Keyword → String
  | .namespaceWord => "namespace"
  | .operationWord => "operation"
  | .entryMark => "@entry"
  | .callWord => "call"
  | .measureWord => "measure"
  | .resetWord => "reset"
  | .piWord => "pi"

/-- The reserved words that have the shape of an identifier. -/
def Keyword.worded : List Keyword :=
  [.namespaceWord, .operationWord, .callWord, .measureWord, .resetWord, .piWord]

/-- Operators and punctuation, one character each. -/
inductive Mark where
  | plus
  | minus
  | star
  | slash
  | leftParen
  | rightParen
  | leftBrace
  | rightBrace
  | semicolon
  | comma
  | dot
deriving DecidableEq, Repr

/-- How a mark is spelled. -/
def Mark.char : Mark → Char
  | .plus => '+'
  | .minus => '-'
  | .star => '*'
  | .slash => '/'
  | .leftParen => '('
  | .rightParen => ')'
  | .leftBrace => '\x7b'
  | .rightBrace => '\x7d'
  | .semicolon => ';'
  | .comma => ','
  | .dot => '.'

/-- Every mark, each once. -/
def Mark.all : List Mark :=
  [.plus, .minus, .star, .slash, .leftParen, .rightParen, .leftBrace, .rightBrace, .semicolon,
    .comma, .dot]

/-- The mark that a character spells. -/
def Mark.ofChar? (c : Char) : Option Mark :=
  Mark.all.find? (·.char = c)

/-- One token.  A whole number is below `2 ^ 64`; a decimal holds its value. -/
inductive Token where
  | keyword (word : Keyword)
  | mark (shape : Mark)
  | decimal (value : Float)
  | whole (value : Nat)
  | identifier (name : String)
deriving DecidableEq

/-- The text of a token in messages: its spelling, a number in its shortest form. -/
def Token.text : Token → String
  | .keyword word => word.text
  | .mark shape => shape.char.toString
  | .decimal value => Number.shortest value
  | .whole value => toString value
  | .identifier name => name

theorem Mark.ofChar?_char (mark : Mark) : Mark.ofChar? mark.char = some mark := by
  cases mark <;> decide

theorem Mark.char_of_ofChar? {c : Char} {mark : Mark} (h : Mark.ofChar? c = some mark) :
    mark.char = c := by
  simpa using List.find?_some h

end GateBench.Syntax
