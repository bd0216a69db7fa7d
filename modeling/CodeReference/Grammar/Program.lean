import CodeReference.Grammar.Expression
import CodeReference.Grammar.Element
import CodeReference.Grammar.Statement

/-!
The grammar as a whole: the rule behind every name, and programs read from source text.
-/
namespace CodeReference.Grammar

open Syntax

def Symbol.rule : Symbol → Rule Symbol
  | statement => Rule.statement
  | declaration => Rule.declaration
  | statementBlock => Rule.statementBlock
  | expression => Rule.expression
  | expressions => Rule.expressions
  | operation level => Rule.operation level
  | unary => Rule.unary
  | leftSide => Rule.leftSide
  | primary => Rule.primary
  | constructorCall => Rule.constructorCall
  | arrow => Rule.arrow
  | arguments => Rule.arguments
  | object => Rule.object
  | parenthesized => Rule.parenthesized
  | pattern => Rule.pattern
  | bindingPattern => Rule.bindingPattern
  | parameters => Rule.parameters
  | callSignature => Rule.callSignature
  | decorator => Rule.decorator
  | methodDefinition => Rule.methodDefinition
  | classBody => Rule.classBody
  | classExpression => Rule.classExpression
  | functionExpression => Rule.functionExpression
  | element => Rule.element
  | typeExpression => Rule.typeExpression
  | unionType => Rule.unionType
  | intersectionType => Rule.intersectionType
  | postfixType => Rule.postfixType
  | typeArguments => Rule.typeArguments
  | typeParameters => Rule.typeParameters
  | typeAnnotation => Rule.typeAnnotation
  | objectMember => Rule.objectMember

/-- The rules nest at most this deep for each character of a text. -/
def depthPerChar : Nat := 400

/-- The tree of a program, or `none` if the text is not one. The root spans the text from its first
character that is not blank to its end. -/
def program? (d : Dialect) (source : Text) : Option Node :=
  let start := (Reading.start source).skipSpace
  let rule : Rule Symbol := .seq
    (.opt (.adjacentLeaf "hash_bang_line" Lexeme.interpreterLine)) (.many (.named .statement))
  match Rule.read d Symbol.rule (depthPerChar * (source.length + 4)) rule start with
  | none => none
  | some s =>
    let s := s.skip
    if s.rest.isEmpty then some ⟨"program", start.pos, s.pos, none, s.nodes.reverse⟩ else none

/-- Reads a program into its tree, or says that it is none. -/
def readProgram (d : Dialect) (source : Text) : Except Text Node :=
  match program? d source with
  | some root => .ok root
  | none => .error "the source does not follow the grammar".toList

end CodeReference.Grammar
