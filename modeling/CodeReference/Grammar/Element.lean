import CodeReference.Grammar.Symbol

/-!
Elements written as expressions: tags with attributes, text and nested expressions.
-/
namespace CodeReference.Grammar.Rule

def elementIdentifier : Script := leaf "identifier" Lexeme.elementName

def namespaceName : Script :=
  node "jsx_namespace_name" (all [elementIdentifier, ":", elementIdentifier])

def elementName : Script := choice namespaceName (grow elementIdentifier [memberStep])

def characterReference : Script := leaf "html_character_reference" Lexeme.characterReference

def elementExpression : Script :=
  node "jsx_expression" <| curlies <| opt <| choice
    (node "spread_element" (seq "..." Symbol.expression)) Symbol.expressions

def attributeString (quote : Char) : Script :=
  quoted "string" quote <| choice
    (adjacentLeaf "string_fragment" (Lexeme.attributePart quote))
    (adjacentLeaf "html_character_reference" Lexeme.characterReference)

def elementAttribute : Script :=
  node "jsx_attribute" <|
    seq (choice namespaceName (leaf "property_identifier" Lexeme.elementName)) <| opt <|
      seq "=" <| any
        [attributeString '\'', attributeString '"', elementExpression, Symbol.element]

def tagContent : Script := all
  [field "name" elementName, opt typeApplied,
    many (field "attribute" (choice elementAttribute elementExpression))]

def openingTag : Script :=
  node "jsx_opening_element" <| within true <| all ["<", opt tagContent, punct ">"]

def closingTag : Script :=
  node "jsx_closing_element" <| within true <| all
    [punct "</", opt (field "name" elementName), punct ">"]

def elementChild : Script := any
  [adjacentLeaf "jsx_text" Lexeme.elementText, characterReference, Symbol.element,
    elementExpression]

def element : Script := choice
  (node "jsx_self_closing_element" <| within true <| all ["<", tagContent, punct "/>"])
  (node "jsx_element" <| all
    [field "open_tag" openingTag, many elementChild, field "close_tag" closingTag])

end CodeReference.Grammar.Rule
