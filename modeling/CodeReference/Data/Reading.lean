import CodeReference.Data.Check
import CodeReference.Entry
import CodeReference.Outline.Block
import CodeReference.Settings.Basic

/-!
Positions, selections, spans, entries and settings read from values. Unknown members are passed over,
except at the top of the settings, where they are faults.
-/
namespace CodeReference

open Data

namespace Position

def ofTable (t : Table) : Checked Position :=
  mk <$> Check.required t "line".toList Check.nat <*> Check.optional t "character".toList 0 Check.nat

def ofParts (line character : Value) : Checked Position :=
  ofTable [("line".toList, line), ("character".toList, character)]

end Position

namespace Selection

def ofValue : Value → Checked Selection :=
  Check.model fun t =>
    mk <$> Check.required t "anchor".toList (Check.model Position.ofTable)
      <*> Check.required t "active".toList (Check.model Position.ofTable)

end Selection

namespace Span

def ofTable (t : Table) : Checked Span :=
  let parts := (fun a b c d s => make a b c d s)
    <$> Check.required t "start".toList Check.int
    <*> Check.required t "end".toList Check.int
    <*> Check.required t "start_line".toList Check.int
    <*> Check.required t "end_line".toList Check.int
    <*> Check.optional t "text".toList [] Check.text
  parts.andThen fun
    | .ok s => pure s
    | .error e => .fault (.bounds e)

def ofValue : Value → Checked Span := Check.model ofTable

end Span

namespace Entry

def ofParts (path lines label : Value) : Checked Entry :=
  mk <$> (Check.text path).under "relative_path".toList
    <*> (Check.text lines).under "line_text".toList
    <*> (Check.text? label).under "label".toList

end Entry

namespace Outline.BlockKind

def ofValue (v : Value) : Checked BlockKind := (Check.name ofName? v).under "kind".toList

end Outline.BlockKind

namespace Markup.Style

def ofTable (t : Table) : Checked Style :=
  let standard : Style := {}
  mk <$> Check.optional t "indent".toList standard.indent Check.text
    <*> Check.optional t "inline_raw_text_limit".toList standard.inlineLimit Check.int

end Markup.Style

namespace Settings

def fields : List Text :=
  ["formatter", "locator", "python", "extra_extensions"].map (·.toList)

def ofTable (t : Table) : Checked Settings :=
  let standard : Settings := {}
  let settings := mk
    <$> Check.optional t "formatter".toList standard.style (Check.model Markup.Style.ofTable)
    <*> Check.optional t "locator".toList standard.snippetLength
      (Check.model fun m =>
        Check.optional m "snippet_length".toList standard.snippetLength Check.int)
    <*> Check.optional t "python".toList standard.tabWidth
      (Check.model fun m => Check.optional m "tab_width".toList standard.tabWidth Check.int)
    <*> Check.optional t "extra_extensions".toList standard.extraExtensions
      (Check.entries (Check.name Language.ofName?))
  (fun s _ => s) <$> settings <*> Check.noOthers t fields

end Settings
end CodeReference
