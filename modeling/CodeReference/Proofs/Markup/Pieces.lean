import Mathlib
import CodeReference.Proofs.Markup.Relaid

/-!
A layout cut into pieces, one for each token in order. The piece of a tag, a comment or raw text is
what it is written as, behind a line break and indentation. The piece of a text is its content
without the blanks at its ends, and only a text of nothing but blanks leaves no piece.
-/
namespace CodeReference.Markup
open Text

variable {s : Style} {n : Nesting} {k : Token} {ks : List Token}
  {name attributes content lead sep t : Text} {keep : Bool}

/-- Tokens, each with the nesting it is found in. -/
def Nesting.along (n : Nesting) : List Token → List (Nesting × Token)
  | [] => []
  | k :: ks => (n, k) :: (n.after k).along ks

/-! ## What a token is written as -/

namespace Style

/-- What stands before a token: nothing within a line, else a line break, except on the first line,
and indentation. -/
inductive Lead (s : Style) : Text → Prop
  | within : s.Lead []
  | first (depth : Nat) : s.Lead (s.indentation depth)
  | next (depth : Nat) : s.Lead ('\n' :: s.indentation depth)

/-- The piece of the output that a token is written as. -/
inductive Writes (s : Style) : Nesting × Token → Text → Prop
  | blank {n : Nesting} {content : Text} (h : Blanks content) : s.Writes (n, .text content) []
  | text {n : Nesting} {a core b lead : Text} (ha : Blanks a) (hb : Blanks b) (hcore : Trimmed core)
      (hne : core ≠ []) (hlead : s.Lead lead) :
      s.Writes (n, .text (a ++ core ++ b))
        (lead ++ if keepsBreaks n.openNames then core else escapeBreaks core)
  | token {n : Nesting} {k : Token} {lead : Text} (hk : ∀ content, k ≠ .text content)
      (hlead : s.Lead lead) : s.Writes (n, k) (lead ++ (s.relaidToken n.depth k).written)

end Style

theorem escapeBreaks_eq_nil_iff : escapeBreaks t = [] ↔ t = [] := by
  constructor
  · intro h
    refine List.eq_nil_iff_forall_not_mem.2 fun c hc => ?_
    have hwritten := List.flatMap_eq_nil_iff.1 h c hc
    split at hwritten
    · cases hwritten
    · split at hwritten
      · cases hwritten
      · cases hwritten
  · rintro rfl
    rfl

theorem writtenText_eq_nil_iff : writtenText keep content = [] ↔ Blanks content := by
  rw [writtenText, ← trim_eq_nil_iff]
  cases keep with
  | true => rfl
  | false => exact escapeBreaks_eq_nil_iff

theorem writes_text (hlead : s.Lead lead) (h : ¬ Blanks content) :
    s.Writes (n, .text content) (lead ++ writtenText (keepsBreaks n.openNames) content) := by
  obtain ⟨a, b, ha, hb, heq⟩ := exists_trim content
  have hwrites : s.Writes (n, .text (a ++ Text.trim content ++ b)) _ :=
    .text ha hb (trimmed_trim content) (mt trim_eq_nil_iff.1 h) hlead
  rwa [← heq] at hwrites

/-- A token is written as one piece, or it is a text of blanks. -/
theorem writes_token (s : Style) (n : Nesting) (k : Token) :
    (s.token n k).1 = [] ∧ s.Writes (n, k) [] ∨
      (s.token n k).1 ≠ [] ∧ ∃ depth t, join ['\n'] (s.token n k).1 = s.indentation depth ++ t ∧
        ∀ lead, s.Lead lead → s.Writes (n, k) (lead ++ t) := by
  by_cases htext : ∃ content, k = .text content
  · obtain ⟨content, rfl⟩ := htext
    rw [token_text]
    by_cases hblank : Blanks content
    · exact .inl ⟨if_pos (writtenText_eq_nil_iff.2 hblank), .blank hblank⟩
    · rw [if_neg (mt writtenText_eq_nil_iff.1 hblank)]
      exact .inr ⟨by simp, n.depth, _, rfl, fun lead hlead => writes_text hlead hblank⟩
  · rw [not_exists] at htext
    have hplain : k.plain? = none := by
      cases k with
      | text content => exact absurd rfl (htext content)
      | _ => rfl
    obtain ⟨hne, hjoin⟩ := join_token (s := s) (n := n) hplain
    exact .inr ⟨hne, _, _, hjoin, fun lead hlead => .token htext hlead⟩

/-! ## Layouts -/

theorem lead_append (hsep : sep = [] ∨ sep = ['\n']) (depth : Nat) :
    s.Lead (sep ++ s.indentation depth) := by
  rcases hsep with rfl | rfl
  · exact .first depth
  · exact .next depth

/-- Lines behind `sep` are made up of pieces. Within an element on one line no piece has a lead. -/
theorem exists_pieces (s : Style) (n : Nesting) (ks : List Token) (hsep : sep = [] ∨ sep = ['\n']) :
    ∃ pieces : List Text, List.Forall₂ s.Writes (n.along ks) pieces ∧
      pieces.flatten = writeLines sep (s.lines n ks) := by
  induction n, ks using lines_induction generalizing sep with
  | nil n => exact ⟨[], .nil, by rw [lines_nil]; rfl⟩
  | inline n name attributes content ks t h ih =>
      obtain ⟨_, _, _, _, heq, rfl, hne, -⟩ := inlined?_eq_some h
      cases heq
      obtain ⟨pieces, hpieces, hflatten⟩ := ih (.inr rfl)
      have htext : s.Writes (n.enter name, .text content) _ :=
        writes_text .within (mt writtenText_eq_nil_iff.2 hne)
      refine ⟨_ :: _ :: _ :: pieces, .cons (.token (by simp) (lead_append hsep n.depth))
        (.cons htext (.cons (.token (by simp) .within) hpieces)), ?_⟩
      rw [lines_inline h, writeLines, ← hflatten]
      simp [Style.relaidToken, Token.written, Style.line, Nesting.enter]
  | cons n k ks h ih =>
      rw [lines_cons h]
      rcases writes_token s n k with ⟨hnil, hwrites⟩ | ⟨hne, depth, t, hjoin, hwrites⟩
      · obtain ⟨pieces, hpieces, hflatten⟩ := ih hsep
        exact ⟨_, .cons hwrites hpieces, by rw [hnil]; exact hflatten⟩
      · obtain ⟨pieces, hpieces, hflatten⟩ := ih (.inr rfl)
        refine ⟨_, .cons (hwrites _ (lead_append hsep depth)) hpieces, ?_⟩
        rw [writeLines_append hne, hjoin, List.flatten_cons, hflatten]
        simp

/-- A layout is made up of the pieces of its tokens, in their order. So every text that is not blank
is in it, as its content without the blanks at its ends, with line breaks escaped unless an element
is open that keeps them. -/
theorem format_pieces (s : Style) (markup : Text) : ∃ pieces : List Text,
    s.format markup = pieces.flatten ∧
      List.Forall₂ s.Writes (Nesting.along {} (tokens markup)) pieces := by
  obtain ⟨pieces, hpieces, hflatten⟩ := exists_pieces s {} (tokens markup) (.inl rfl)
  refine ⟨pieces, ?_, hpieces⟩
  rw [hflatten, ← join_eq_writeLines]
  rfl

/-! ## White space of markup -/

/-- The characters that a page shows as one space. Other blanks are shown as they are. -/
def pageSpaces : List Char := [' ', '\t', '\n', '\x0c', '\r']

/-- A text of nothing but a no-break space is blank, so it is lost, though a page would show it. -/
theorem not_text_infix_format : ¬ ∀ (s : Style) (markup a core b : Text), s.PlainIndent →
    .text (a ++ core ++ b) ∈ tokens markup → (∀ c ∈ a ++ b, c ∈ pageSpaces) → core ≠ [] →
    (∀ c ∈ core.head?, c ∉ pageSpaces) → (∀ c ∈ core.getLast?, c ∉ pageSpaces) →
    '\n' ∉ core → '\r' ∉ core → core <:+: s.format markup := by
  intro h
  have hinfix := h ⟨[' ', ' '], 60⟩ "<p>\u00A0</p>".toList [] ['\u00A0'] []
    (by simp [Style.PlainIndent]) (by decide +kernel) (by simp) (by simp) (by simp [pageSpaces])
    (by simp [pageSpaces]) (by simp) (by simp)
  revert hinfix
  decide +kernel

end CodeReference.Markup
