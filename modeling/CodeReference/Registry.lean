import CodeReference.Settings.Basic
import CodeReference.Text.Lowercase
import CodeReference.Text.Quoted

/-!
Strategies by file extension. Extensions count in lower case, and the registry keeps them in the
order in which they came first; a strategy that comes later for the same extension takes its place.
-/
namespace CodeReference

inductive Resolver where
  /-- By the blocks that indentation makes. -/
  | outline
  /-- In the tree of a script with type annotations. -/
  | typedTree
  /-- In the tree of a script. -/
  | scriptTree
  /-- By the opening tag before the selection. -/
  | markup
  /-- The same labels for every selection. -/
  | fixed (labels : List Text)
deriving Repr, DecidableEq

structure Strategy where
  name : Text
  language : Language
  extensions : List Text
  resolver : Resolver
deriving Repr, DecidableEq

namespace Strategy

def ofOutline : Strategy :=
  ⟨"PythonLabelStrategy".toList, .python, [".py".toList], .outline⟩

def ofTypedTree : Strategy :=
  ⟨"TypeScriptLabelStrategy".toList, .typescript, [".ts".toList, ".tsx".toList], .typedTree⟩

def ofScriptTree : Strategy :=
  ⟨"JavaScriptLabelStrategy".toList, .javascript, [".js".toList, ".jsx".toList], .scriptTree⟩

def ofMarkup : Strategy :=
  ⟨"HtmlLabelStrategy".toList, .html, [".html".toList, ".htm".toList], .markup⟩

end Strategy

/-- A strategy as it is defined; an abstract one is not registered. -/
structure Definition where
  name : Text
  language : Text
  extensions : List Text
  isAbstract : Bool
  labels : List Text
deriving Repr, DecidableEq

inductive DefinitionError where
  | unknownLanguage (language : Text)
  | noExtensions (name : Text)
deriving Repr, DecidableEq

namespace DefinitionError

def message : DefinitionError → Text
  | unknownLanguage language => Text.quoted language ++ " is not a valid LanguageKind".toList
  | noExtensions name => name ++ " missing \x60extensions\x60".toList

end DefinitionError

/-- The strategies under the extensions they are registered for. -/
abbrev Registry := List (Text × Strategy)

namespace Registry

def set (r : Registry) (extension : Text) (s : Strategy) : Registry :=
  if r.any fun m => m.1 == extension then
    r.map fun m => if m.1 == extension then (extension, s) else m
  else r ++ [(extension, s)]

def register (r : Registry) (s : Strategy) : Registry :=
  s.extensions.foldl (fun r e => r.set (Text.lowercase e) s) r

def standard : Registry :=
  [Strategy.ofOutline, Strategy.ofTypedTree, Strategy.ofScriptTree, Strategy.ofMarkup].foldl
    register []

def define (r : Registry) (d : Definition) : Except DefinitionError Registry :=
  match Language.ofName? d.language with
  | none => .error (.unknownLanguage d.language)
  | some language =>
    if d.isAbstract then .ok r
    else if d.extensions.isEmpty then .error (.noExtensions d.name)
    else .ok (r.register ⟨d.name, language, d.extensions, .fixed d.labels⟩)

def ofLanguage? (r : Registry) (language : Language) : Option Strategy :=
  (r.find? fun m => m.2.language == language).map (·.2)

/-- The strategy for an extension: the one registered for it, or else the first one of the language
that the settings give it. -/
def get? (r : Registry) (extension : Text) (settings : Option Settings) : Option Strategy :=
  let extension := Text.lowercase extension
  match r.lookup extension with
  | some s => some s
  | none => do
    let language ← (← settings).extraLanguage? extension
    r.ofLanguage? language

end Registry
end CodeReference
