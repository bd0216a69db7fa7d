import CodeReference.Grammar.Class

/-!
Statements and declarations, with the imports and exports that bind modules together.
-/
namespace CodeReference.Grammar.Rule

/-! ## Declarations -/

def declarator : Script :=
  node "variable_declarator" <| all
    [field "name" (choice Symbol.bindingPattern identifier),
      opt (typed (seq (opt "!") (field "type" Symbol.typeAnnotation))), opt initializer]

/-- Declarators, the last of which may end with a type. -/
def declarators : Script := seq (commaList1 declarator) (choice terminator (typed looseTerminator))

def variableDeclaration : Script := choice
  (node "lexical_declaration" (seq (choice "let" "const") declarators))
  (node "variable_declaration" (seq "var" declarators))

def functionDeclaration : Script :=
  let rest := [field "name" identifier, Symbol.callSignature, field "body" Symbol.statementBlock,
    opt (lineEnd true false)]
  choice (node "generator_function_declaration" (all ([opt "async", "function", "*"] ++ rest)))
    (node "function_declaration" (all ([opt "async", "function"] ++ rest)))

def functionSignature : Script :=
  node "function_signature" <| all
    [opt "async", "function", field "name" identifier, Symbol.callSignature,
      choice (punct ";") (lineEnd false true)]

def interfaceDeclaration : Script :=
  node "interface_declaration" <| all
    ["interface", field "name" typeIdentifier, typeParametric,
      opt (node "extends_type_clause" (seq "extends" (commaList1 (field "type" typeReference)))),
      field "body" (objectType "interface_body")]

def enumDeclaration : Script :=
  let constant := choice
    (node "enum_assignment" (seq (field "name" propertyName) initializer))
    (field "name" propertyName)
  node "enum_declaration" <| all
    [opt "const", "enum", field "name" identifier,
      field "body" (node "enum_body" (curlies (sparseList constant)))]

def typeAlias : Script :=
  node "type_alias_declaration" <| all
    ["type", field "name" typeIdentifier, typeParametric, "=",
      field "value" Symbol.typeExpression, looseTerminator]

def moduleTail : Script :=
  seq (field "name" (choice string dottedName)) (opt (field "body" Symbol.statementBlock))

def internalModule : Script := node "internal_module" (seq "namespace" moduleTail)

def importAlias : Script :=
  node "import_alias" <| all ["import", identifier, "=", dottedName, terminator]

def ambientDeclaration : Script :=
  node "ambient_declaration" <| seq "declare" <| any
    [seq "global" Symbol.statementBlock,
      all ["module", ".", propertyIdentifier, ":", Symbol.typeExpression, looseTerminator],
      internalModule, Symbol.declaration]

def typedDeclaration : Script := any
  [functionSignature, abstractClass, node "module" (seq "module" moduleTail), typeAlias,
    enumDeclaration, interfaceDeclaration, importAlias, ambientDeclaration]

def declaration : Script := any
  [functionDeclaration, classDeclaration, typed typedDeclaration, variableDeclaration]

/-! ## Imports and exports -/

def moduleName : Script := any ["default", leaf "identifier" Lexeme.name, string]

def fromClause : Script := seq "from" (field "source" string)

/-- A name and perhaps the name it goes by on the other side. -/
def specifier (kind : String) : Script :=
  let item : Script := choice
    (all [field "name" moduleName, "as", field "alias" moduleName]) (field "name" moduleName)
  choice (typed (node kind (seq (choice "type" "typeof") item))) (node kind item)

def exportClause : Script :=
  node "export_clause" (curlies (sparseList (specifier "export_specifier")))

def exportStatement : Script :=
  let namespaceExport := node "namespace_export" (all ["*", "as", moduleName])
  let default : Script := seq "default" <| choice
    (field "declaration" Symbol.declaration) (seq (field "value" Symbol.expression) terminator)
  node "export_statement" <| any
    [all ["export", any
        [seq namespaceExport fromClause, seq "*" fromClause, seq exportClause (opt fromClause)],
        terminator],
      typed (all ["export", "type", exportClause, opt fromClause, terminator]),
      typed (all ["export", "=", Symbol.expression, terminator]),
      typed (all ["export", "as", "namespace", identifier, terminator]),
      all [decorators, "export",
        any [field "declaration" (choice Symbol.declaration (typed internalModule)), default]]]

def namedImports : Script :=
  node "named_imports" (curlies (sparseList (specifier "import_specifier")))

def namespaceImport : Script := node "namespace_import" (all ["*", "as", identifier])

def importClause : Script :=
  node "import_clause" <| any
    [namespaceImport, namedImports,
      seq identifier (opt (seq "," (choice namespaceImport namedImports)))]

def importRequire : Script :=
  node "import_require_clause" <| all
    [identifier, "=", "require", parens (field "source" string)]

def importStatement : Script :=
  let content : Script := any
    [seq importClause fromClause, typed importRequire, field "source" string]
  let options : Script :=
    opt (node "import_attribute" (seq (choice "with" (typed "assert")) Symbol.object))
  node "import_statement" <| all
    ["import", choice (typed (seq (choice "type" "typeof") content)) content, options, terminator]

/-! ## Statements -/

def statementBlock : Script :=
  node "statement_block" (seq (block (many Symbol.statement)) (opt (lineEnd true false)))

def ifStatement : Script :=
  node "if_statement" <| all
    ["if", field "condition" Symbol.parenthesized, field "consequence" Symbol.statement,
      opt (field "alternative" (node "else_clause" (seq "else" Symbol.statement)))]

def switchStatement : Script :=
  let body : Script := field "body" (many Symbol.statement)
  let case : Script := node "switch_case" <| all
    ["case", within true (field "value" Symbol.expressions), ":", body]
  let default : Script := node "switch_default" (all ["default", ":", body])
  node "switch_statement" <| all
    ["switch", field "value" Symbol.parenthesized,
      field "body" (node "switch_body" (block (many (choice case default))))]

def emptyStatement : Script := node "empty_statement" (punct ";")

def forStatement : Script :=
  let initial : Script := any
    [field "initializer" variableDeclaration, field "initializer" emptyStatement,
      seq (field "initializer" Symbol.expressions) ";"]
  let condition : Script := choice (field "condition" emptyStatement)
    (seq (field "condition" Symbol.expressions) ";")
  node "for_statement" <| all
    ["for", parens (all [initial, condition, opt (field "increment" Symbol.expressions)]),
      field "body" Symbol.statement]

def forInStatement : Script :=
  let left : Script := choice
    (all [any ["var", "let", "const"], field "left" (choice Symbol.bindingPattern identifier),
      opt initializer])
    (field "left" (choice Symbol.bindingPattern Symbol.leftSide))
  node "for_in_statement" <| all
    ["for", opt "await", parens (all
      [left, choice "in" "of", field "right" Symbol.expressions]),
      field "body" Symbol.statement]

def whileStatement : Script :=
  node "while_statement" <| all
    ["while", field "condition" Symbol.parenthesized, field "body" Symbol.statement]

def doStatement : Script :=
  node "do_statement" <| all
    ["do", field "body" Symbol.statement, "while", field "condition" Symbol.parenthesized,
      opt terminator]

def tryStatement : Script :=
  let handler : Script := node "catch_clause" <| all
    ["catch", opt (parens (seq
      (field "parameter" (choice Symbol.bindingPattern identifier)) typeAnnotated)),
      field "body" Symbol.statementBlock]
  let finalizer : Script :=
    node "finally_clause" (seq "finally" (field "body" Symbol.statementBlock))
  node "try_statement" <| all
    ["try", field "body" Symbol.statementBlock, opt (field "handler" handler),
      opt (field "finalizer" finalizer)]

def withStatement : Script :=
  node "with_statement" <| all
    ["with", field "object" Symbol.parenthesized, field "body" Symbol.statement]

/-- A keyword and perhaps something on the same line. -/
def jump (kind word : String) (operand : Script) : Script :=
  node kind <| seq word <| choice (lineEnd false false) (seq operand terminator)

def jumpStatement : Script :=
  let label : Script := opt (field "label" (leaf "statement_identifier" Lexeme.identifier))
  any
    [jump "return_statement" "return" (opt Symbol.expressions),
      node "throw_statement" (all ["throw", Symbol.expressions, terminator]),
      jump "break_statement" "break" label, jump "continue_statement" "continue" label,
      node "debugger_statement" (seq "debugger" looseTerminator)]

def labeledStatement : Script :=
  node "labeled_statement" <| all
    [field "label" (leaf "statement_identifier" Lexeme.identifier), ":",
      field "body" Symbol.statement]

def expressionStatement : Script := choice
  (typed (node "expression_statement" (seq internalModule (opt terminator))))
  (node "expression_statement" (seq Symbol.expressions terminator))

def statement : Script := any
  [exportStatement, importStatement, Symbol.declaration, Symbol.statementBlock, ifStatement,
    switchStatement, forInStatement, forStatement, whileStatement, doStatement, tryStatement,
    withStatement, jumpStatement, emptyStatement, labeledStatement, expressionStatement]

end CodeReference.Grammar.Rule
