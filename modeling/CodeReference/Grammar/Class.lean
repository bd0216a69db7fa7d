import CodeReference.Grammar.TypeExpression

/-!
Classes: decorators, heritage, and the members of a class body. Methods of object literals follow
the same rule as those of classes.
-/
namespace CodeReference.Grammar.Rule

def decorator : Script :=
  node "decorator" <| seq "@" <| choice
    (grow identifier
      [memberStep,
        extend "call_expression" [] (some "function") <|
          seq (opt typeApplied) (field "arguments" Symbol.arguments)])
    Symbol.parenthesized

def decorators : Script := many (field "decorator" Symbol.decorator)

def methodDefinition : Script :=
  node "method_definition" <| all
    [choice (untyped (seq decorators (opt (modifier "static")))) (typed typedModifiers),
      methodModifiers, field "name" propertyName, opt (typed "?"), Symbol.callSignature,
      field "body" Symbol.statementBlock]

def staticBlock : Script :=
  node "class_static_block" (seq "static" (field "body" Symbol.statementBlock))

def fieldDefinition : Script :=
  node "field_definition" <| all
    [decorators, opt (modifier "static"), field "property" propertyName, opt initializer]

def member : Script := any
  [punct ";", field "member" staticBlock,
    seq (field "member" Symbol.methodDefinition) (opt (punct ";")),
    seq (field "member" fieldDefinition) terminator]

def typedFieldDefinition : Script :=
  node "public_field_definition" <| all
    [decorators,
      many (modifier (any
        [accessibility, overriding, "static", "readonly", "declare", "abstract", "accessor"])),
      field "name" propertyName, opt (choice "?" "!"), typeAnnotated, opt initializer]

def abstractMethod : Script :=
  node "abstract_method_signature" <| all
    [opt (modifier accessibility), modifier "abstract",
      opt (modifier overriding), opt (any [modifier "get", modifier "set", "*"]),
      field "name" propertyName, opt "?", Symbol.callSignature]

def memberEnd : Script := any [punct ";", punct ",", lineEnd false true]

def typedMember : Script := any
  [punct ";", staticBlock,
    all [decorators, Symbol.methodDefinition, opt (punct ";")],
    seq abstractMethod memberEnd, seq indexSignature memberEnd, seq methodSignature memberEnd,
    seq typedFieldDefinition (any [punct ";", punct ",", lineEnd false false])]

def classBody : Script :=
  node "class_body" <| block <| many <| choice (typed typedMember) (untyped member)

def className : Script := choice (typed typeIdentifier) (untyped identifier)

def extendsClause : Script :=
  node "extends_clause" <| seq "extends" <| commaList1 <|
    seq (field "value" Symbol.leftSide) (opt typeApplied)

def implementsClause : Script :=
  node "implements_clause" (seq "implements" (commaList1 Symbol.typeExpression))

def heritage : Script :=
  node "class_heritage" <| choice
    (untyped (seq "extends" Symbol.leftSide))
    (typed (choice (seq extendsClause (opt implementsClause)) implementsClause))

def classTail : Script := all [typeParametric, opt heritage, field "body" Symbol.classBody]

def classExpression : Script :=
  node "class" <| all
    [decorators, "class", opt (seq (absent "implements") (field "name" className)), classTail]

def classDeclaration : Script :=
  node "class_declaration" <| all
    [decorators, "class", field "name" className, classTail, opt (lineEnd true false)]

def abstractClass : Script :=
  node "abstract_class_declaration" <| all
    [decorators, "abstract", "class", field "name" className, classTail]

end CodeReference.Grammar.Rule
