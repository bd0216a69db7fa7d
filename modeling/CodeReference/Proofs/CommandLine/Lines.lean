import Mathlib
import CodeReference.Proofs.CommandLine.Surroundings
import CodeReference.Proofs.CommandLine.Values
import CodeReference.Proofs.Markup.Range
import CodeReference.Proofs.Text.Decoding

/-!
Runs of the program that lay out some lines of a file. They are refused exactly if there are no such
lines. Otherwise what is above these lines and what ends the last of them stay as they are, and no
other file is changed.
-/
namespace CodeReference.CommandLine

variable {d : Directory} {v : Values} {l : Logging} {settings : Settings} {file : FoundPath}
  {text : Text} {o : Outcome} {path : Text} {bytes : List UInt8} {c : Command}

/-! ## Outcomes -/

namespace Outcome

/-- A directory after a run. -/
def applyTo (o : Outcome) (d : Directory) : Directory :=
  match o.written? with
  | some (path, bytes) => d.write path bytes
  | none => d

theorem applyTo_of_none (h : o.written? = none) : o.applyTo d = d := by rw [applyTo, h]

theorem applyTo_of_some (h : o.written? = some (path, bytes)) :
    o.applyTo d = d.write path bytes := by
  rw [applyTo, h]

/-- A run that fails for how the command was used, and changes nothing. -/
def Refuses (o : Outcome) (c : Command) (d : Directory) : Prop :=
  (∃ l e, o = .usage l (some c) e) ∧ o.applyTo d = d

theorem refuses_usage (l : Logging) (c : Command) (e : UsageError) (d : Directory) :
    (Outcome.usage l (some c) e).Refuses c d := ⟨⟨l, e, rfl⟩, rfl⟩

theorem not_refuses (h : o.exit = 0) : ¬ o.Refuses c d := by
  rintro ⟨⟨l, e, rfl⟩, -⟩
  cases h

end Outcome

/-! ## The lines of a call -/

namespace Values

/-- The first line to lay out, counted from one. -/
def firstLine (v : Values) : Nat := v.startLine?.getD 1

/-- The last line to lay out, which may be behind the last line of the text. -/
def lastLine (v : Values) (text : Text) : Nat := v.endLine?.getD text.lineCount

/-- Whether a call asks for lines that the text does not have. -/
def Misses (v : Values) (text : Text) : Prop :=
  v.lastLine text < v.firstLine ∨ text.lineCount < v.firstLine

theorem Sound.one_le_firstLine {s : Surroundings} (h : v.Sound s) : 1 ≤ v.firstLine := by
  unfold firstLine
  cases hstart : v.startLine? with
  | none => exact le_rfl
  | some n => exact h.startLine n hstart

theorem Sound.one_le_lastLine {s : Surroundings} (h : v.Sound s) (text : Text) :
    1 ≤ v.lastLine text := by
  unfold lastLine
  cases hend : v.endLine? with
  | none =>
      rw [Option.getD_none, Text.lineCount_eq]
      exact Nat.le_add_left 1 _
  | some n => exact h.endLine n hend

end Values

namespace Command

theorem layoutOf_of_given (h : v.startLine?.isSome ∨ v.endLine?.isSome) :
    layoutOf settings v text = settings.style.formatLines text v.startLine? v.endLine? := by
  unfold layoutOf
  split
  · rename_i hstart hend
    rw [hstart, hend] at h
    simp at h
  · rfl

section
variable {s : Surroundings} (hv : v.Sound s) (hgiven : v.startLine?.isSome ∨ v.endLine?.isSome)
include hv hgiven

theorem layoutOf_of_misses (settings : Settings) (h : v.Misses text) :
    ∃ e, layoutOf settings v text = .error e := by
  have hfirst := hv.one_le_firstLine
  have hlast := hv.one_le_lastLine text
  rw [layoutOf_of_given hgiven]
  by_cases hreversed : v.lastLine text < v.firstLine
  · exact ⟨_, Markup.Style.formatLines_of_reversed
      (show v.lastLine text - 1 < v.firstLine - 1 by omega)⟩
  · have hbeyond := h.resolve_left hreversed
    exact ⟨_, Markup.Style.formatLines_of_beyond
      (show v.firstLine - 1 ≤ v.lastLine text - 1 by omega)
      (show text.lineCount ≤ v.firstLine - 1 by omega)⟩

theorem layoutOf_of_not_misses (settings : Settings) (h : ¬ v.Misses text) :
    ∃ above part below r, text.IsLineRange (v.firstLine - 1)
        (min (v.lastLine text) text.lineCount - 1) above part below ∧
      layoutOf settings v text = .ok r ∧
      r.apply text = above ++ settings.style.format part ++ below := by
  have hfirst := hv.one_le_firstLine
  obtain ⟨hle, hlt⟩ := not_or.1 h
  obtain ⟨above, part, below, hrange, hlayout⟩ := Markup.Style.formatLines_of_lt
    (s := settings.style) (show v.firstLine - 1 ≤ v.lastLine text - 1 by omega)
    (show v.firstLine - 1 < text.lineCount by omega)
  refine ⟨above, part, below, _, ?_, (layoutOf_of_given hgiven).trans hlayout,
    Markup.Style.apply_replace hrange.text⟩
  rwa [← Nat.sub_min_sub_right]

end

/-! ## Runs -/

theorem withDocument_of_encode (h : file.place.item = .file (Text.encode text))
    (k : Text → Outcome) : withDocument l file k = k text := by
  rw [withDocument, Place.bytes, h]
  dsimp only
  rw [Text.decode_encode]

theorem runFormatHtml_of_error {e : Markup.LinesError}
    (hfile : file.place.item = .file (Text.encode text))
    (h : layoutOf settings v text = .error e) :
    runFormatHtml settings l v file = .usage l (some .formatHtml) (.lines e) := by
  rw [runFormatHtml, withDocument_of_encode hfile, h]

theorem runFormatHtml_of_ok {r : Markup.Replacement}
    (hfile : file.place.item = .file (Text.encode text)) (h : layoutOf settings v text = .ok r) :
    runFormatHtml settings l v file =
      if v.inPlace then
        { err := "HTML formatted.\n".toList
          written? := some (file.path, Text.encode (r.apply text))
          logging := l }
      else
        { out := r.apply text ++ (if (r.apply text).getLast? = some '\n' then [] else ['\n'])
          logging := l } := by
  rw [runFormatHtml, withDocument_of_encode hfile, h]

end Command

/-- A call that lays out lines of a file is refused, and changes nothing, exactly if its first line is
behind its last line or behind the text. Otherwise the text is cut before its first line and before
what ends its last line, and what is between is laid out; the result is printed, or is what the file
holds afterwards, while all else is as it was. -/
theorem run_formatHtml_lines (readTree : TreeReader) (d : Directory)
    (environment : List (Text × Text)) (l : Logging) (args : List Text) (settings : Settings)
    (debug : Bool) (v : Values) (file : FoundPath) (text : Text)
    (hcall : Invokes ⟨d.find?, environment⟩ args .formatHtml settings debug v file)
    (hfile : file.place.item = .file (Text.encode text))
    (hgiven : v.startLine?.isSome ∨ v.endLine?.isSome) :
    ((run readTree ⟨d.find?, environment⟩ l args).Refuses .formatHtml d ↔
      v.lastLine text < v.firstLine ∨ text.lineCount < v.firstLine) ∧
    (¬ (v.lastLine text < v.firstLine ∨ text.lineCount < v.firstLine) →
      ∃ above part below result, text.IsLineRange (v.firstLine - 1)
          (min (v.lastLine text) text.lineCount - 1) above part below ∧
        result = above ++ settings.style.format part ++ below ∧
        (run readTree ⟨d.find?, environment⟩ l args).exit = 0 ∧
        if v.inPlace then
          (run readTree ⟨d.find?, environment⟩ l args).out = [] ∧
          ∀ location, ((run readTree ⟨d.find?, environment⟩ l args).applyTo d).item? location =
            if location = file.place.location then some (.file (Text.encode result))
            else d.item? location
        else
          (run readTree ⟨d.find?, environment⟩ l args).out =
            result ++ (if result.getLast? = some '\n' then [] else ['\n']) ∧
          (run readTree ⟨d.find?, environment⟩ l args).applyTo d = d) := by
  have hv := hcall.sound
  by_cases hmisses : v.Misses text
  · obtain ⟨e, hlayout⟩ := Command.layoutOf_of_misses hv hgiven settings hmisses
    rw [(hcall.run_eq readTree l).trans (Command.runFormatHtml_of_error hfile hlayout)]
    exact ⟨iff_of_true (Outcome.refuses_usage _ _ _ _) hmisses, fun h => absurd hmisses h⟩
  · obtain ⟨above, part, below, r, hrange, hlayout, hresult⟩ :=
      Command.layoutOf_of_not_misses hv hgiven settings hmisses
    have hrun := (hcall.run_eq readTree l).trans (Command.runFormatHtml_of_ok hfile hlayout)
    cases hinPlace : v.inPlace with
    | true =>
        rw [hinPlace, if_pos rfl] at hrun
        rw [hrun]
        refine ⟨iff_of_false (Outcome.not_refuses rfl) hmisses, fun _ =>
          ⟨above, part, below, _, hrange, hresult, rfl, rfl, fun location => ?_⟩⟩
        rw [Outcome.applyTo_of_some rfl]
        exact Directory.item?_write (hv.file file hcall.file?_eq) hfile location
    | false =>
        rw [hinPlace, if_neg Bool.false_ne_true] at hrun
        rw [hrun]
        exact ⟨iff_of_false (Outcome.not_refuses rfl) hmisses, fun _ =>
          ⟨above, part, below, _, hrange, hresult, rfl, rfl, Outcome.applyTo_of_none rfl⟩⟩

/-- A document whose second line ends in a carriage return and a line feed. -/
def sampleDocument : Text := "<main>\n<div><p>a</p></div>\r\n</main>".toList

def sampleFile : FoundPath :=
  ⟨"page.html".toList, ⟨["home".toList, "page.html".toList], .file (Text.encode sampleDocument)⟩⟩

def sampleDirectory : Directory where
  files := [(sampleFile.place.location, Text.encode sampleDocument)]

def sampleArguments : List Text :=
  ["format-html", "page.html", "--end-line", "2", "--start-line", "2", "--in-place"].map
    String.toList

theorem invokes_sampleArguments :
    Invokes ⟨sampleDirectory.find?, []⟩ sampleArguments .formatHtml {} false
      { file? := some sampleFile, startLine? := some 2, endLine? := some 2, inPlace := true }
      sampleFile := by
  have hsettings : loadSettings ⟨sampleDirectory.find?, []⟩ none = .ok {} := by decide +kernel
  exact .intro (u := {}) rfl rfl rfl rfl hsettings rfl rfl rfl rfl rfl

/-- The second line is laid out on three, and what ends it stays. -/
theorem run_formatHtml_lines_sampleArguments :
    (run (fun _ _ => .error []) ⟨sampleDirectory.find?, []⟩ {} sampleArguments).exit = 0 ∧
      ((run (fun _ _ => .error []) ⟨sampleDirectory.find?, []⟩ {} sampleArguments).applyTo
          sampleDirectory).item? sampleFile.place.location =
        some (.file (Text.encode "<main>\n<div>\n  <p>a</p>\n</div>\r\n</main>".toList)) := by
  obtain ⟨-, h⟩ := run_formatHtml_lines (fun _ _ => .error []) sampleDirectory [] {} _ {} false _
    sampleFile sampleDocument invokes_sampleArguments rfl (.inl rfl)
  obtain ⟨above, part, below, _, hrange, rfl, hexit, -, hitem⟩ := h (by decide)
  have hcut : sampleDocument.IsLineRange 1 1 "<main>\n".toList "<div><p>a</p></div>".toList
      "\r\n</main>".toList :=
    ⟨rfl, rfl, by simp, rfl, .returnFeed _ _⟩
  obtain ⟨rfl, rfl, rfl⟩ := hrange.unique hcut
  have hformat : Markup.Style.format {} "<div><p>a</p></div>".toList =
      "<div>\n  <p>a</p>\n</div>".toList := by
    decide +kernel
  refine ⟨hexit, (hitem _).trans ?_⟩
  rw [if_pos rfl, hformat]
  rfl

end CodeReference.CommandLine
