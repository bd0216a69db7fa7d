import Mathlib
import CodeReference.Proofs.Direction
import CodeReference.Proofs.Outline.LineEnding
import CodeReference.Proofs.Reference

/-!
References from an outline do not depend on the line ending of the document. A selection has the
same lines and the same text with either ending, and only its offsets move.
-/
namespace CodeReference

variable {t : Text} {sel : Selection} {s : Span} {d : Document}

/-! ## Spans -/

/-- What becomes of a span of `t` when `t` gets a carriage return before each line feed. -/
def Span.crlf (t : Text) (s : Span) : Span :=
  { s with
    start := t.crlfOffset s.start.toNat
    stop := t.crlfOffset s.stop.toNat
    text := s.text.crlf }

namespace Selection

theorem span_crlf (hreturn : '\r' ∉ t) (sel : Selection) :
    sel.span t.crlf = (sel.span t).map (Span.crlf t) := by
  have hcount := Text.lineCount_crlf t
  by_cases hanchor : sel.anchor.line < t.lineCount
  · by_cases hactive : sel.active.line < t.lineCount
    · have hlow := Position.min_line_lt hanchor hactive
      have hhigh := Position.max_line_lt hanchor hactive
      rw [span_eq hanchor hactive, span_eq (hcount ▸ hanchor) (hcount ▸ hactive),
        Text.offsetIn_crlf hreturn hlow, Text.offsetIn_crlf hreturn hhigh,
        t.drop_take_crlfOffset (Text.offsetIn_mono hlow hhigh min_le_max)]
      rfl
    · rw [span_of_le_active hanchor (not_lt.1 hactive),
        span_of_le_active (hcount ▸ hanchor) (hcount ▸ not_lt.1 hactive), hcount]
      rfl
  · rw [span_of_le_anchor (not_lt.1 hanchor), span_of_le_anchor (hcount ▸ not_lt.1 hanchor), hcount]
    rfl

end Selection

/-! ## References -/

/-- A source with a carriage return before each line feed. -/
def Source.crlf (s : Source) : Source :=
  s.flatMap fun c => if c = .char '\n' then [.char '\r', .char '\n'] else [c]

theorem Source.text_crlf (s : Source) : s.crlf.text = s.text.crlf := by
  rw [crlf, text, text, Text.crlf, List.map_flatMap, List.flatMap_map]
  congr 1
  funext c
  cases c with
  | surrogate n => rfl
  | char c => by_cases hc : c = '\n' <;> simp [CodePoint.toChar, hc]

/-- The document with a carriage return before each line feed of its text. -/
def Document.crlf (d : Document) : Document := { d with source := d.source.crlf }

theorem Document.text_crlf (d : Document) : d.crlf.text = d.text.crlf := d.source.text_crlf

theorem Outline.blocks_document_crlf (hreturn : '\r' ∉ d.text) (tabWidth : Int) :
    blocks tabWidth d.crlf.text = blocks tabWidth d.text := by
  rw [d.text_crlf, blocks_crlf hreturn]

theorem Resolver.outlineFindings_crlf (hreturn : '\r' ∉ d.text) (tabWidth : Int) (s : Span) :
    outlineFindings tabWidth d.crlf (s.crlf d.text) = outlineFindings tabWidth d s := by
  have hname : Outline.selectedName? (s.crlf d.text).text = Outline.selectedName? s.text :=
    Outline.selectedName?_crlf s.text
  rw [outlineFindings, Outline.blocks_document_crlf hreturn, hname]
  rfl

section
variable {readTree : TreeReader} {registry : Registry} {settings : Settings}
  (hreturn : '\r' ∉ d.text)
  (houtline : ∀ strategy, registry.get? d.extension (some settings) = some strategy →
    strategy.resolver = .outline)
include hreturn houtline

theorem exists_strategyFindings_crlf (readTree : TreeReader) (s : Span) :
    ∃ f g, strategyFindings readTree registry settings d.crlf (s.crlf d.text) = .ok f ∧
      strategyFindings readTree registry settings d s = .ok g ∧ f.entries = g.entries := by
  cases hget : registry.get? d.extension (some settings) with
  | none =>
      have hcrlf : registry.get? d.crlf.extension (some settings) = none := hget
      exact ⟨_, _, strategyFindings_of_none hcrlf, strategyFindings_of_none hget, rfl⟩
  | some strategy =>
      have hcrlf : registry.get? d.crlf.extension (some settings) = some strategy := hget
      have hfound : ∀ (d : Document) (s : Span), strategy.resolver.findings readTree settings d s =
          .ok (Resolver.outlineFindings settings.tabWidth d s) := by
        rw [houtline strategy hget]
        exact fun _ _ => rfl
      obtain ⟨f, hf, hentries⟩ := exists_strategyFindings hcrlf (hfound d.crlf (s.crlf d.text))
      obtain ⟨g, hg, hentries'⟩ := exists_strategyFindings hget (hfound d s)
      refine ⟨f, g, hf, hg, ?_⟩
      rw [hentries, hentries', Resolver.outlineFindings_crlf hreturn]

theorem references_crlf (sel : Selection) :
    references readTree registry settings d.crlf sel =
      references readTree registry settings d sel := by
  have hcrlf : sel.span d.crlf.text = (sel.span d.text).map (Span.crlf d.text) := by
    rw [d.text_crlf, Selection.span_crlf hreturn]
  cases hspan : sel.span d.text with
  | error e =>
      rw [hspan] at hcrlf
      rw [references_of_selectionError hspan, references_of_selectionError hcrlf]
  | ok s =>
      rw [hspan] at hcrlf
      obtain ⟨f, g, hf, hg, hentries⟩ :=
        exists_strategyFindings_crlf hreturn houtline readTree s
      rw [references_of_strategyFindings hspan hg, references_of_strategyFindings hcrlf hf,
        Findings.entries_orLines, Findings.entries_orLines, hentries]
      rfl

end

/-- With a carriage return before each of its line feeds, a document has the same blocks. Where its
extension is not known or is one of outlines, it also has the same references for each selection,
and the same selections are refused. -/
theorem lineEnding_irrelevant (readTree : TreeReader) (registry : Registry) (settings : Settings)
    (d : Document) (hreturn : '\r' ∉ d.text)
    (houtline : ∀ strategy, registry.get? d.extension (some settings) = some strategy →
      strategy.resolver = .outline) :
    (∀ tabWidth, Outline.blocks tabWidth d.crlf.text = Outline.blocks tabWidth d.text) ∧
      ∀ sel, references readTree registry settings d.crlf sel =
          references readTree registry settings d sel ∧
        referencesText readTree registry settings d.crlf sel =
          referencesText readTree registry settings d sel := by
  refine ⟨Outline.blocks_document_crlf hreturn, fun sel => ⟨references_crlf hreturn houtline sel, ?_⟩⟩
  rw [referencesText, referencesText, references_crlf hreturn houtline sel]

/-- The selected name goes on in the second line of the document. -/
theorem lineEnding_irrelevant_continued :
    references (fun _ _ => .error []) .standard {}
        ⟨"a.py".toList, "x = pkg.\\\r\n  attr\r\n".toList, none⟩ ⟨⟨0, 4⟩, ⟨1, 6⟩⟩ =
      .ok [⟨"a.py".toList, "1-2".toList, some "pkg.attr".toList⟩] := by
  have h := lineEnding_irrelevant (fun _ _ => .error []) .standard {}
    ⟨"a.py".toList, "x = pkg.\\\n  attr\n".toList, none⟩ (by decide) (by decide +kernel)
  exact ((h.2 ⟨⟨0, 4⟩, ⟨1, 6⟩⟩).1).trans (by decide +kernel)

end CodeReference
