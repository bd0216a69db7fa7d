import CodeReference.Grammar.Symbol

/-!
Expressions: literals, calls and members, operators with their precedence, assignments, arrow
functions, and the patterns that bindings and assignments take apart.
-/
namespace CodeReference.Grammar.Rule

/-! ## Patterns -/

def withDefault (p : Script) : Script :=
  grow p [extend "assignment_pattern" [] (some "left") (seq "=" (field "right" Symbol.expression))]

def restPattern : Script :=
  node "rest_pattern" (seq "..." (choice Symbol.bindingPattern Symbol.leftSide))

def target : Script :=
  grow (choice (wordLeaf "this" "this") identifier)
    [memberStep,
      extend "subscript_expression" [] (some "object") (squares (field "index" Symbol.expressions))]

def pattern : Script := any [Symbol.bindingPattern, restPattern, target]

def shorthandPattern : Script := leaf "shorthand_property_identifier_pattern" Lexeme.identifier

def pairPattern : Script :=
  node "pair_pattern" <| all
    [field "key" propertyName, ":", field "value" (withDefault Symbol.pattern)]

def objectAssignmentPattern : Script :=
  node "object_assignment_pattern" <| all
    [field "left" (choice shorthandPattern Symbol.bindingPattern), "=",
      field "right" Symbol.expression]

def objectPattern : Script :=
  node "object_pattern" <| curlies <| sparseList <| any
    [pairPattern, restPattern, objectAssignmentPattern, shorthandPattern]

def arrayPattern : Script :=
  node "array_pattern" (squares (sparseList (withDefault Symbol.pattern)))

def bindingPattern : Script := choice objectPattern arrayPattern

/-! ## Literals -/

def spread : Script := node "spread_element" (seq "..." Symbol.expression)

def pair : Script :=
  node "pair" <| all [field "key" propertyName, ":", field "value" Symbol.expression]

def object : Script :=
  node "object" <| curlies <| sparseList <| any
    [spread, Symbol.methodDefinition, pair,
      leaf "shorthand_property_identifier" Lexeme.identifier]

def array : Script := node "array" (squares (sparseList (choice spread Symbol.expression)))

def arguments : Script :=
  node "arguments" (parens (sparseList (choice spread Symbol.expression)))

def parenthesized : Script :=
  node "parenthesized_expression" (parens (seq Symbol.expressions typeAnnotated))

/-! ## Members, calls and constructors -/

def optionalMark : Script := field "optional_chain" (leaf "optional_chain" Lexeme.optionalChain)

def optionalMember : Script :=
  extend "member_expression" [] (some "object") (seq optionalMark property)

def subscript : Script :=
  extend "subscript_expression" [] (some "object") <|
    seq (opt optionalMark) (squares (field "index" Symbol.expressions))

def call : Script :=
  extend "call_expression" [] (some "function") <|
    seq (opt typeApplied) (field "arguments" Symbol.arguments)

def optionalCall : Script :=
  extend "call_expression" [] (some "function") <| all
    [choice (untyped optionalMark) (typed (token Lexeme.optionalChain)), opt typeApplied,
      field "arguments" Symbol.arguments]

def templateCall : Script :=
  extend "call_expression" [] (some "function") (field "arguments" template)

def nonNull : Script := typed (extend "non_null_expression" [] none (seq (goesOn true) "!"))

/-- Type arguments without a call, where an operand cannot follow. -/
def instantiation : Script :=
  extend "instantiation_expression" [] none <|
    seq typeApplied (ahead (any [punct ";", punct ",", punct ")", punct "]", lineEnd true false]))

def metaProperty : Script :=
  node "meta_property" <| choice (all ["new", ".", "target"]) (all ["import", ".", "meta"])

def constructorCall : Script :=
  node "new_expression" <| all
    ["new", field "constructor" (grow (choice Symbol.constructorCall Symbol.primary)
        [memberStep, optionalMember, subscript, nonNull]),
      opt typeApplied, opt (field "arguments" Symbol.arguments)]

def primary : Script := any
  [wordLeaf "this" "this", wordLeaf "super" "super", wordLeaf "true" "true",
    wordLeaf "false" "false", wordLeaf "null" "null", number, string, template,
    Symbol.parenthesized, Symbol.object, array, Symbol.functionExpression, Symbol.classExpression,
    metaProperty, seq (wordLeaf "import" "import") (ahead (punct "(")),
    only Dialect.hasElements Symbol.element, regex, identifier]

/-- What may follow an operand that is complete without it. -/
def accesses : List Script :=
  [optionalMember, memberStep, subscript, call, optionalCall, templateCall, nonNull, instantiation]

def leftSide : Script := grow (any [metaProperty, Symbol.constructorCall, Symbol.primary]) accesses

/-! ## Operators -/

/-- A binary operator whose right operand holds operators of at least the given level. -/
def binary (operator : String) (right : Nat) : Script :=
  extend "binary_expression" [] (some "left") <|
    seq operator (field "right" (Symbol.operation right))

/-- Operators by how tightly they bind, the loosest first. -/
def binaryOperators : List (List String) :=
  [["??"], ["||"], ["&&"], ["|"], ["^"], ["&"], ["===", "!==", "==", "!="],
    ["<=", ">=", "<", ">", "instanceof", "in"], ["<<", ">>>", ">>"], ["+", "-"], ["*", "/", "%"]]

/-- Assertions of a type bind like comparisons. -/
def typeOperators : Script := typed <| choice
  (extend "as_expression" [] none
    (all [goesOn true, "as", choice "const" Symbol.typeExpression]))
  (extend "satisfies_expression" [] none (all [goesOn true, "satisfies", Symbol.typeExpression]))

/-- The operators of a level and of those that bind tighter. -/
def operatorsFrom (level : Nat) : List Script :=
  let binaries := binaryOperators.zipIdx.flatMap fun (names, k) =>
    if level ≤ k then names.map fun name => binary name (k + 1) else []
  let power := extend "binary_expression" [] (some "left") <|
    seq "**" (field "right" (Symbol.operation 11))
  (if level ≤ 7 then [typeOperators] else []) ++ binaries ++ [power]

def operation (level : Nat) : Script := grow Symbol.unary (operatorsFrom level)

def unary : Script := any
  [node "unary_expression" <|
      seq (any ["!", "~", "-", "+", "typeof", "void", "delete"]) (field "argument" Symbol.unary),
    node "update_expression" (seq (choice "++" "--") (field "argument" Symbol.unary)),
    node "await_expression" (seq "await" Symbol.unary),
    seq privateIdentifier (ahead "in"),
    only (· == .typed) (node "type_assertion" (seq Symbol.typeArguments Symbol.unary)),
    grow Symbol.leftSide
      [extend "update_expression" [] (some "argument") (seq (goesOn true) (choice "++" "--"))]]

/-! ## Functions and assignments -/

def arrow : Script :=
  let head := seq (choice (field "parameter" identifier) Symbol.callSignature) "=>"
  node "arrow_function" <|
    seq (choice (seq "async" head) head)
      (field "body" (choice Symbol.statementBlock Symbol.expression))

def yield : Script :=
  node "yield_expression" <| seq "yield" <|
    choice (seq "*" Symbol.expression) (opt (seq (goesOn false) Symbol.expression))

def functionExpression : Script :=
  let rest := [opt (field "name" identifier), Symbol.callSignature,
    field "body" Symbol.statementBlock]
  choice (node "generator_function" (all ([opt "async", "function", "*"] ++ rest)))
    (node "function_expression" (all ([opt "async", "function"] ++ rest)))

/-- What may stand left of an assignment besides patterns. -/
def assignable : List String :=
  ["identifier", "undefined", "member_expression", "subscript_expression",
    "parenthesized_expression", "non_null_expression"]

def assignment : Script :=
  extend "assignment_expression" assignable (some "left") <|
    seq "=" (field "right" Symbol.expression)

def compoundAssignment : Script :=
  let operators : List Script :=
    [">>>=", "**=", "<<=", ">>=", "&&=", "||=", "??=", "+=", "-=", "*=", "/=", "%=", "&=", "|=", "^="]
  extend "augmented_assignment_expression" assignable (some "left") <|
    seq (any operators) (field "right" Symbol.expression)

def conditional : Script :=
  extend "ternary_expression" [] (some "condition") <| all
    [token Lexeme.conditionalMark, within true (field "consequence" Symbol.expression), ":",
      field "alternative" Symbol.expression]

/-- An assignment that takes its right side apart. -/
def patternAssignment : Script :=
  node "assignment_expression" <| all
    [field "left" Symbol.bindingPattern, "=", field "right" Symbol.expression]

def expression : Script := any
  [grow Symbol.arrow (accesses ++ operatorsFrom 0 ++ [conditional]), yield, patternAssignment,
    grow (Symbol.operation 0) [assignment, compoundAssignment, conditional]]

def expressions : Script :=
  apart <| seq Symbol.expression <| opt <| extend "sequence_expression" [] none <|
    seq (seq "," Symbol.expression) (many (seq "," Symbol.expression))

end CodeReference.Grammar.Rule
