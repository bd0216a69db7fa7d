import CodeReference.Grammar.Rule

/-!
The names under which rules of the script languages refer to one another, and the smallest rules:
names, literals and the pieces of templates.
-/
namespace CodeReference.Grammar

inductive Symbol where
  | statement | declaration | statementBlock
  | expression | expressions
  /-- Operators that bind at least this tightly. -/
  | operation (level : Nat)
  | unary | leftSide | primary | constructorCall | arrow | arguments | object | parenthesized
  | pattern | bindingPattern
  | parameters | callSignature | decorator | methodDefinition
  | classBody | classExpression | functionExpression
  | element
  | typeExpression | unionType | intersectionType | postfixType | typeArguments | typeParameters
  | typeAnnotation | objectMember
deriving Repr, DecidableEq

namespace Rule

abbrev Script := Rule Symbol

instance : Coe Symbol Script := ⟨named⟩

/-- A string stands for the keyword or the punctuation it spells. -/
instance : Coe String Script := ⟨op⟩

def identifier : Script :=
  choice (wordLeaf "undefined" "undefined") (leaf "identifier" Lexeme.identifier)

/-- Any name, reserved or not, as a property. -/
def propertyIdentifier : Script := leaf "property_identifier" Lexeme.name

def privateIdentifier : Script := leaf "private_property_identifier" Lexeme.privateName

def typeIdentifier : Script := leaf "type_identifier" Lexeme.identifier

def number : Script := leaf "number" Lexeme.number

def escape : Script := adjacentLeaf "escape_sequence" Lexeme.escape

def quoted (kind : String) (quote : Char) (part : Script) : Script :=
  node kind <| all
    [token (Lexeme.exactly [quote]), many part, adjacent (Lexeme.exactly [quote])]

def stringOf (quote : Char) : Script :=
  quoted "string" quote (choice (adjacentLeaf "string_fragment" (Lexeme.stringPart quote)) escape)

def string : Script := choice (stringOf '\'') (stringOf '"')

def templateOf (kind : String) (substitution : Script) : Script :=
  quoted kind '\x60' <| any
    [adjacentLeaf "string_fragment" Lexeme.templatePart, escape, substitution]

def substitutionOf (kind : String) (content : Script) : Script :=
  node kind <| within true <| all
    [adjacent (Lexeme.exactly "$\x7b".toList), content, "\x7d"]

def template : Script :=
  templateOf "template_string" (substitutionOf "template_substitution" Symbol.expressions)

def regex : Script :=
  node "regex" <| all
    [punct "/", field "pattern" (adjacentLeaf "regex_pattern" Lexeme.pattern),
      adjacent (Lexeme.exactly ['/']),
      opt (field "flags" (adjacentLeaf "regex_flags" Lexeme.patternFlags))]

def computedName : Script := node "computed_property_name" (squares Symbol.expression)

def propertyName : Script := any [propertyIdentifier, privateIdentifier, string, number, computedName]

def initializer : Script := seq "=" (field "value" Symbol.expression)

def typeAnnotated : Script := opt (typed (field "type" Symbol.typeAnnotation))

def typeParametric : Script := opt (typed (field "type_parameters" Symbol.typeParameters))

def typeApplied : Script := typed (field "type_arguments" Symbol.typeArguments)

def property : Script := field "property" (choice privateIdentifier propertyIdentifier)

def memberStep : Script := extend "member_expression" [] (some "object") (seq "." property)

end Rule
end CodeReference.Grammar
