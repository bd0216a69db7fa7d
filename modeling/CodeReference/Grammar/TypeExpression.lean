import CodeReference.Grammar.Symbol

/-!
Type annotations: the types themselves, signatures of functions and members, and the parameters
that carry annotations.
-/
namespace CodeReference.Grammar.Rule

/-! ## Dotted names -/

/-- A dotted name as a whole, its inner names being members. -/
def dottedName : Script :=
  let step : Script := seq "." (field "property" propertyIdentifier)
  grow identifier
    [extend "member_expression" ["identifier", "member_expression"] (some "object")
      (seq step (ahead ".")),
     extend "nested_identifier" ["identifier", "member_expression"] (some "object") step]

/-- A name of a type, perhaps in a dotted module. -/
def typeName : Script :=
  let step : Script := seq "." (field "property" propertyIdentifier)
  choice
    (seq (grow identifier
      [extend "member_expression" ["identifier", "member_expression"] (some "object")
        (seq step (ahead (all [".", propertyIdentifier, "."]))),
       extend "nested_identifier" ["identifier", "member_expression"] (some "object")
        (seq step (ahead ".")),
       extend "nested_type_identifier" ["identifier", "nested_identifier"] (some "module")
        (seq "." (field "name" typeIdentifier))])
      nothing)
    typeIdentifier

def typeReference : Script :=
  grow (choice (seq (ahead (seq identifier ".")) typeName) typeIdentifier)
    [extend "generic_type" ["type_identifier", "nested_type_identifier"] (some "name") typeApplied]

/-! ## Members of object types -/

/-- A word that qualifies the member whose name follows it on the same line. -/
def modifier (w : Script) : Script :=
  let next : Lexeme := fun t => match t with
    | c :: _ => if isNameStart c || isDigit c || "'\"[#*".toList.contains c then some 0 else none
    | [] => none
  all [w, goesOn true, ahead (token next)]

def accessibility : Script :=
  node "accessibility_modifier" (any ["public", "private", "protected"])

def overriding : Script := wordLeaf "override_modifier" "override"

def typedModifiers : Script :=
  many (modifier (any [accessibility, overriding, "static", "readonly", "declare", "accessor"]))

def methodModifiers : Script := seq (opt (modifier "async"))
  (opt (any [modifier "get", modifier "set", "*"]))

def methodSignature : Script :=
  node "method_signature" <| all
    [typedModifiers, methodModifiers, field "name" propertyName, opt "?", Symbol.callSignature]

def propertySignature : Script :=
  node "property_signature" <| all
    [typedModifiers, field "name" propertyName, opt "?", typeAnnotated]

def constructSignature : Script :=
  node "construct_signature" <| all
    [opt "abstract", "new", typeParametric, field "parameters" Symbol.parameters, typeAnnotated]

def mappedClause : Script :=
  node "mapped_type_clause" <| all
    [field "name" typeIdentifier, "in", field "type" Symbol.typeExpression,
      opt (seq "as" (field "alias" Symbol.typeExpression))]

def indexSignature : Script :=
  let key := choice
    (all [field "name" identifier, ":", field "index_type" Symbol.typeExpression]) mappedClause
  let result := any
    [Symbol.typeAnnotation,
      node "omitting_type_annotation" (seq (punct "-?:") Symbol.typeExpression),
      node "adding_type_annotation" (seq (punct "+?:") Symbol.typeExpression),
      node "opting_type_annotation" (seq (punct "?:") Symbol.typeExpression)]
  node "index_signature" <| all
    [opt (seq (opt (choice "-" "+")) "readonly"), squares key, field "type" result]

def objectMember : Script := any
  [constructSignature, node "call_signature" Symbol.callSignature, indexSignature, methodSignature,
    propertySignature]

def objectType (kind : String) : Script :=
  node kind <| block <| many <| any [punct ",", punct ";", Symbol.objectMember]

/-! ## Types -/

def predefinedType : Script := choice
  (node "predefined_type" (seq "unique" "symbol"))
  (any (["any", "number", "boolean", "string", "symbol", "void", "unknown", "never", "object"].map
    (wordLeaf "predefined_type")))

def literalType : Script :=
  node "literal_type" <| any
    [string, number, node "unary_expression" (seq (choice "-" "+") (field "argument" number)),
      wordLeaf "true" "true", wordLeaf "false" "false", wordLeaf "null" "null",
      wordLeaf "undefined" "undefined"]

def tupleMember : Script := any
  [node "required_parameter" <|
      seq (field "name" (choice identifier (node "rest_pattern" (seq "..." identifier))))
        (field "type" Symbol.typeAnnotation),
    node "optional_parameter" <| all
      [field "name" identifier, "?", field "type" Symbol.typeAnnotation],
    node "rest_type" (seq "..." Symbol.typeExpression),
    grow Symbol.typeExpression [extend "optional_type" [] none "?"]]

def importCall : Script :=
  node "call_expression" <|
    seq (field "function" (wordLeaf "import" "import")) (field "arguments" Symbol.arguments)

def typeQuery : Script :=
  node "type_query" <| all
    ["typeof", grow (any [importCall, wordLeaf "this" "this", identifier])
      [memberStep, extend "subscript_expression" [] (some "object")
        (seq (goesOn false) (squares (field "index" Symbol.expressions)))],
      opt typeApplied]

def predicate : Script :=
  node "type_predicate" <| all
    [field "name" (choice (wordLeaf "this" "this") identifier), "is",
      field "type" Symbol.typeExpression]

def assertion : Script :=
  node "asserts" <| seq "asserts" <| any [predicate, wordLeaf "this" "this", identifier]

def primaryType : Script := any
  [node "parenthesized_type" (parens Symbol.typeExpression),
    seq predefinedType (absent "."), wordLeaf "this_type" "this", literalType,
    templateOf "template_literal_type" (substitutionOf "template_type" Symbol.typeExpression),
    objectType "object_type", node "tuple_type" (squares (sparseList tupleMember)), typeQuery,
    node "existential_type" "*", grow importCall [memberStep],
    node "readonly_type" (seq "readonly" Symbol.postfixType),
    node "index_type_query" (seq "keyof" Symbol.postfixType),
    node "infer_type" (all ["infer", typeIdentifier, opt (seq "extends" Symbol.unionType)]),
    typeReference]

def postfixType : Script :=
  grow primaryType
    [extend "array_type" [] none (seq (goesOn false) (squares nothing)),
      extend "lookup_type" [] none (seq (goesOn false) (squares Symbol.typeExpression))]

def intersectionType : Script :=
  grow (choice (node "intersection_type" (seq "&" Symbol.postfixType)) Symbol.postfixType)
    [extend "intersection_type" [] none (seq "&" Symbol.postfixType)]

def unionType : Script :=
  grow (choice (node "union_type" (seq "|" Symbol.intersectionType)) Symbol.intersectionType)
    [extend "union_type" [] none (seq "|" Symbol.intersectionType)]

def functionType : Script :=
  node "function_type" <| all
    [typeParametric, field "parameters" Symbol.parameters, "=>",
      field "return_type" (any [assertion, predicate, Symbol.typeExpression])]

def constructorType : Script :=
  node "constructor_type" <| all
    [opt "abstract", "new", typeParametric, field "parameters" Symbol.parameters, "=>",
      field "type" Symbol.typeExpression]

def conditionalType : Script :=
  extend "conditional_type" [] (some "left") <| all
    [goesOn false, "extends", field "right" (choice functionType Symbol.unionType), "?",
      within true (field "consequence" Symbol.typeExpression), ":",
      field "alternative" Symbol.typeExpression]

def typeExpression : Script := any
  [functionType, constructorType, apart (seq Symbol.unionType (opt conditionalType))]

def typeAnnotation : Script := node "type_annotation" (seq ":" Symbol.typeExpression)

def typeArguments : Script :=
  node "type_arguments" <| within true <| all
    ["<", sparseList Symbol.typeExpression, punct ">"]

def typeParameter : Script :=
  node "type_parameter" <| all
    [opt "const", field "name" typeIdentifier,
      opt (field "constraint" (node "constraint" (seq (choice "extends" ":") Symbol.typeExpression))),
      opt (field "value" (node "default_type" (seq "=" Symbol.typeExpression)))]

def typeParameters : Script :=
  node "type_parameters" <| within true <| all ["<", sparseList typeParameter, punct ">"]

/-! ## Parameters and signatures -/

def typedParameter : Script :=
  let name : Script := all
    [many (field "decorator" Symbol.decorator),
      many (modifier (any [accessibility, overriding, "readonly"])),
      field "pattern" (choice (wordLeaf "this" "this") Symbol.pattern)]
  let rest : Script := seq typeAnnotated (opt initializer)
  choice (node "optional_parameter" (all [name, "?", rest]))
    (node "required_parameter" (seq name rest))

def parameter : Script := choice (typed typedParameter)
  (untyped <| grow Symbol.pattern
    [extend "assignment_pattern" [] (some "left") (seq "=" (field "right" Symbol.expression))])

def parameters : Script := node "formal_parameters" (parens (sparseList parameter))

def returnType : Script := any
  [node "asserts_annotation" (seq ":" assertion),
    node "type_predicate_annotation" (seq ":" predicate), Symbol.typeAnnotation]

def callSignature : Script := all
  [typeParametric, field "parameters" Symbol.parameters,
    opt (typed (field "return_type" returnType))]

end CodeReference.Grammar.Rule
