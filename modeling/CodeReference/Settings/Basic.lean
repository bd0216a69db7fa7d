import CodeReference.Markup.Layout

/-!
What a caller may set: how markup is laid out, how far the tag locator looks, what a tab counts as,
and which further file extensions belong to a language.
-/
namespace CodeReference

inductive Language where
  | python | typescript | javascript | html
deriving Repr, DecidableEq

namespace Language

def name : Language → Text
  | python => "python".toList
  | typescript => "typescript".toList
  | javascript => "javascript".toList
  | html => "html".toList

def all : List Language := [python, typescript, javascript, html]

def ofName? (t : Text) : Option Language := all.find? fun l => l.name == t

theorem ofName?_name (l : Language) : ofName? l.name = some l := by cases l <;> rfl

end Language

structure Settings where
  style : Markup.Style := {}
  snippetLength : Int := 200
  tabWidth : Int := 4
  extraExtensions : List (Text × Language) := []
deriving Repr, DecidableEq

namespace Settings

def extraLanguage? (s : Settings) (extension : Text) : Option Language :=
  s.extraExtensions.lookup extension

end Settings
end CodeReference
