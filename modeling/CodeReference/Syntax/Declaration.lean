import CodeReference.Syntax.Site

/-!
The labels of declarations: functions, variables that hold functions, members of classes, and the
properties of object literals. A member is labelled with the name of what it belongs to in front.
-/
namespace CodeReference.Syntax

def nonEmpty? (t : Text) : Option Text := if t.isEmpty then none else some t

/-- A name, after the name of its owner if there is one. -/
def qualified (owner : Option Text) (name : Text) : Text :=
  match owner with
  | some o => o ++ ['.'] ++ name
  | none => name

def functionValues : List String :=
  ["arrow_function", "function_expression", "function", "generator_function"]

def classKinds : List String := ["class_declaration", "abstract_class_declaration", "class"]

def functionKinds : List String :=
  ["function_declaration", "generator_function_declaration", "function_signature"]

def memberKinds : List String :=
  ["method_definition", "abstract_method_signature", "method_signature",
    "public_field_definition", "field_definition"]

/-- Kinds of property names that are written as they are. -/
def plainNames : List String :=
  ["identifier", "property_identifier", "private_property_identifier", "type_identifier", "number"]

variable (source : Text)

/-- The text of the name of a property: a string without its quotes, a computed name as the
expression in it. -/
def propertyName? (n : Node) : Option Text :=
  if plainNames.contains n.kind then nonEmpty? (n.text source)
  else if n.kind = "string" then
    let t := n.text source
    if 2 ≤ t.length then nonEmpty? (t.drop 1).dropLast else none
  else if n.kind = "computed_property_name" then
    n.children.head?.bind fun inner => nonEmpty? (inner.text source)
  else none

def nameText? (n : Node) : Option Text :=
  (n.child? "name").bind fun name => nonEmpty? (name.text source)

/-- The name that an object literal is bound to: that of its variable, or the place to which it is
assigned. -/
def ownerOfObject? (object : Site) : Option Text := do
  let parent ← object.parent?
  if parent.kind = "variable_declarator" then
    let name ← parent.node.child? "name"
    if object.isChildIn "value" ∧ name.kind = "identifier" then nonEmpty? (name.text source)
    else none
  else if parent.kind = "assignment_expression" then
    let left ← parent.node.child? "left"
    if object.isChildIn "right" ∧ (left.kind = "identifier" ∨ left.kind = "member_expression") then
      nonEmpty? (left.text source)
    else none
  else none

def ownerOfBody? (body : Site) : Option Text := do
  let cls ← body.parent?
  if classKinds.contains cls.kind then nameText? source cls.node else none

def variableLabel? (s : Site) : Option Text := do
  let name ← s.node.child? "name"
  let value ← s.node.child? "value"
  if name.kind = "identifier" ∧ functionValues.contains value.kind then
    nonEmpty? (name.text source)
  else none

/-- The label of a member. Signatures outside class bodies declare nothing. -/
def memberLabel? (s : Site) : Option Text := do
  let name ← (s.node.child? "name").or (s.node.child? "property")
  let member ← propertyName? source name
  match s.parent? with
  | some parent =>
    if parent.kind = "class_body" then return qualified (ownerOfBody? source parent) member
    else if s.kind = "method_signature" then none
    else if parent.kind = "object" then return qualified (ownerOfObject? source parent) member
    else return member
  | none => if s.kind = "method_signature" then none else return member

def pairLabel? (s : Site) : Option Text := do
  let key ← s.node.child? "key"
  let property ← propertyName? source key
  match s.parent? with
  | some parent =>
    if parent.kind = "object" then return qualified (ownerOfObject? source parent) property
    else return property
  | none => return property

def declarationLabel? (s : Site) : Option Text :=
  if functionKinds.contains s.kind then nameText? source s.node
  else if s.kind = "variable_declarator" then variableLabel? source s
  else if memberKinds.contains s.kind then memberLabel? source s
  else if s.kind = "pair" then pairLabel? source s
  else none

end CodeReference.Syntax
