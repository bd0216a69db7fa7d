import Mathlib
import CodeReference.Proofs.Markup.Reading

/-!
The scanner cuts markup into pieces without losing a character: the pieces put together are the
markup, each spells the token it stands for, and there is no other way to cut.
-/
namespace CodeReference.Markup
open Text

variable {name t u source rest : Text} {k : Option Token}

/-! ## What a piece spells -/

def IsEndTag (name source : Text) : Prop :=
  ∃ w b, IsName w ∧ (∀ c ∈ b, isAsciiBlank c = true) ∧ name = w.map Char.toLower ∧
    source = '<' :: '/' :: (w ++ b ++ ['>'])

def IsStartTag (name attributes : Text) (slash : Bool) (source : Text) : Prop :=
  ∃ w body, IsOpening w body slash ∧ name = w.map Char.toLower ∧
    attributes = normalizeAttributes body ∧ source = opening w body slash

/-- A closing tag behind `content`, in front of `rest`; none begins earlier. -/
structure IsFirstClosing (name content u rest : Text) : Prop where
  closing : IsClosing name u
  first : ∀ before v after, IsClosing name v → content ++ u ++ rest = before ++ v ++ after →
    content.length ≤ before.length

/-- How a token is written in front of a rest. Closing tags of void elements are no tokens. -/
def IsWritten (source rest : Text) : Option Token → Prop
  | some (.comment content) => source = content
  | some (.doctype content) => source = content
  | some (.text content) => source = content
  | some (.endTag name) => IsEndTag name source ∧ isVoid name = false
  | none => ∃ name, IsEndTag name source ∧ isVoid name = true
  | some (.startTag name attributes selfClosing) =>
      ∃ slash, IsStartTag name attributes slash source ∧
        (selfClosing = true ↔ slash = true ∨ isVoid name = true)
  | some (.rawText name attributes content) =>
      isRawText name = true ∧ ∃ tag u, IsStartTag name attributes false tag ∧
        IsFirstClosing name content u rest ∧ source = tag ++ content ++ u

theorem IsClosing.isFirstClosing {content : Text} (hn : ∀ a ∈ name, isNameChar a = true)
    (hu : IsClosing name u) (hc : ¬ HasClosing name content) :
    IsFirstClosing name content u rest := by
  refine ⟨hu, fun before v after hv heq => ?_⟩
  by_contra hlt
  rw [List.append_assoc, List.append_assoc] at heq
  rcases List.append_eq_append_iff.1 heq with ⟨m, rfl, -⟩ | ⟨m, rfl, hm⟩
  · rw [List.length_append] at hlt
    omega
  · cases m with
    | nil => simp at hlt
    | cons c m =>
        -- A closing tag that begins in the content also ends there.
        have hpre : v <+: c :: m ++ (u ++ rest) := ⟨after, hm⟩
        have hin := (hv.prefix_of_append hn hu hpre).isInfix
        exact hc ⟨v, hv, hin.trans (List.suffix_append before (c :: m)).isInfix⟩

theorem Reading.isWritten (h : Reading source k rest) : IsWritten source rest k := by
  cases h with
  | comment => rfl
  | openComment => rfl
  | doctype => rfl
  | openDoctype => rfl
  | stray => rfl
  | text => rfl
  | @endTag w b _ hw hb =>
      have htag : IsEndTag (w.map Char.toLower) ('<' :: '/' :: (w ++ b ++ ['>'])) :=
        ⟨w, b, hw, hb, rfl, rfl⟩
      cases hvoid : isVoid (w.map Char.toLower) with
      | true => exact ⟨_, htag, hvoid⟩
      | false => exact ⟨htag, hvoid⟩
  | @startTag w body _ slash h _ =>
      exact ⟨slash, ⟨w, body, h, rfl, rfl, rfl⟩, by simp [closesItself]⟩
  | @rawText w body content u _ h hraw hc hu =>
      have hn := h.name.isLowerName_map.all
      exact ⟨hraw, opening w body false, u, ⟨w, body, h, rfl, rfl, rfl⟩,
        hu.isFirstClosing hn hc, rfl⟩

/-! ## Pieces one after the other -/

/-- The markup that segments make up. -/
def sourceOf (segs : List Segment) : Text := segs.flatMap Segment.source

/-- Each segment is a source that is cut off in front of what the later ones make up. -/
def Segmented : List Segment → Prop
  | [] => True
  | s :: segs => Reading s.source s.token? (sourceOf segs) ∧ Segmented segs

theorem sourceOf_cons (s : Segment) (segs : List Segment) :
    sourceOf (s :: segs) = s.source ++ sourceOf segs := List.flatMap_cons

theorem segmented_segments (t : Text) : Segmented (segments t) ∧ sourceOf (segments t) = t := by
  induction t using reading_induction with
  | nil => rw [segments]; exact ⟨trivial, rfl⟩
  | step source k r h ih =>
      obtain ⟨hseg, hsource⟩ := ih
      rw [h.segments_eq, sourceOf_cons, hsource]
      exact ⟨⟨hsource.symm ▸ h, hseg⟩, rfl⟩

theorem Segmented.segments_eq {segs : List Segment} (h : Segmented segs) :
    segments (sourceOf segs) = segs := by
  induction segs with
  | nil => rw [sourceOf, List.flatMap_nil, segments]
  | cons s segs ih => rw [sourceOf_cons, h.1.segments_eq, ih h.2]

theorem Segmented.reading {segs before after : List Segment} {s : Segment} (h : Segmented segs)
    (heq : segs = before ++ s :: after) : Reading s.source s.token? (sourceOf after) := by
  induction before generalizing segs with
  | nil => subst heq; exact h.1
  | cons b before ih => subst heq; exact ih h.2 rfl

/-- Markup is cut into segments that are not empty and make it up, each of which spells its token,
and the tokens of the markup are those of the segments in order. No other list of segments cuts
the markup by the rules of the scanner. -/
theorem tokens_partition (t : Text) :
    ∃ segs : List Segment, sourceOf segs = t ∧ tokens t = segs.filterMap Segment.token? ∧
      (∀ before s after, segs = before ++ s :: after →
        s.source ≠ [] ∧ IsWritten s.source (sourceOf after) s.token?) ∧
      ∀ others, Segmented others ∧ sourceOf others = t ↔ others = segs := by
  obtain ⟨hseg, hsource⟩ := segmented_segments t
  refine ⟨segments t, hsource, rfl, fun before s after heq => ?_, fun others => ⟨?_, ?_⟩⟩
  · have hread := hseg.reading heq
    exact ⟨hread.source_ne_nil, hread.isWritten⟩
  · rintro ⟨hothers, rfl⟩
    exact hothers.segments_eq.symm
  · rintro rfl
    exact ⟨hseg, hsource⟩

end CodeReference.Markup
