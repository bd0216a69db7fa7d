import Mathlib
import CodeReference.Proofs.Markup.RawText

/-!
The lines that tokens are laid out on, token by token: either an element on one line, or the lines of
the first token and then the others. The nesting does not depend on the style.
-/
namespace CodeReference.Markup
open Text

variable {s : Style} {n : Nesting} {k : Token} {ks : List Token} {name attributes content t x : Text}
  {keep : Bool}

/-! ## Text as it is written -/

theorem writtenText_append_right (hx : Blanks x) :
    writtenText keep (t ++ x) = writtenText keep t := by
  rw [writtenText, writtenText, trim_append_right hx]

theorem writtenText_append_left (hx : Blanks x) :
    writtenText keep (x ++ t) = writtenText keep t := by
  rw [writtenText, writtenText, trim_append_left hx]

theorem writtenText_of_blanks (ht : Blanks t) : writtenText keep t = [] := by
  rw [writtenText, trim_of_blanks ht]
  cases keep <;> rfl

theorem escapeBreaks_append (t u : Text) :
    escapeBreaks (t ++ u) = escapeBreaks t ++ escapeBreaks u := List.flatMap_append

theorem escapeBreaks_of_not_mem (hn : '\n' ∉ t) (hr : '\r' ∉ t) : escapeBreaks t = t := by
  induction t with
  | nil => rfl
  | cons c t ih =>
      simp only [List.mem_cons, not_or] at hn hr
      rw [← List.singleton_append, escapeBreaks_append, ih hn.2 hr.2, escapeBreaks,
        List.flatMap_singleton, if_neg (Ne.symm hn.1), if_neg (Ne.symm hr.1)]

theorem mem_escapeBreaks {c : Char} (h : c ∈ escapeBreaks t) :
    c ∈ t ∧ c ≠ '\n' ∧ c ≠ '\r' ∨ c ∈ "&#10;".toList ∨ c ∈ "&#13;".toList := by
  obtain ⟨d, hd, hc⟩ := List.mem_flatMap.1 h
  split at hc
  · exact .inr (.inl hc)
  · split at hc
    · exact .inr (.inr hc)
    · obtain rfl := List.mem_singleton.1 hc
      exact .inl ⟨hd, by assumption, by assumption⟩

theorem escapeBreaks_escapeBreaks (t : Text) : escapeBreaks (escapeBreaks t) = escapeBreaks t := by
  refine escapeBreaks_of_not_mem (fun h => ?_) fun h => ?_
  · rcases mem_escapeBreaks h with h | h | h
    · exact h.2.1 rfl
    · exact absurd h (by decide)
    · exact absurd h (by decide)
  · rcases mem_escapeBreaks h with h | h | h
    · exact h.2.2 rfl
    · exact absurd h (by decide)
    · exact absurd h (by decide)

theorem escapeBreaks_singleton {c : Char} (hc : isBlank c = false) : escapeBreaks [c] = [c] := by
  refine escapeBreaks_of_not_mem ?_ ?_ <;> rw [List.mem_singleton] <;> rintro rfl <;>
    exact absurd hc (by decide)

theorem trimmed_escapeBreaks (h : Trimmed t) : Trimmed (escapeBreaks t) := by
  refine ⟨fun c hc => ?_, fun c hc => ?_⟩
  · cases t with
    | nil => cases hc
    | cons d t =>
        have hd := h.1 d rfl
        rw [← List.singleton_append, escapeBreaks_append, escapeBreaks_singleton hd] at hc
        obtain rfl : d = c := by simpa using hc
        exact hd
  · induction t using List.reverseRecOn with
    | nil => cases hc
    | append_singleton t d =>
        have hd := h.2 d (by simp)
        rw [escapeBreaks_append, escapeBreaks_singleton hd] at hc
        obtain rfl : d = c := by simpa using hc
        exact hd

theorem writtenText_writtenText (keep : Bool) (t : Text) :
    writtenText keep (writtenText keep t) = writtenText keep t := by
  cases keep with
  | true => simp only [writtenText, if_true, trim_trim]
  | false =>
      simp only [writtenText, Bool.false_eq_true, if_false]
      rw [trim_of_trimmed (trimmed_escapeBreaks (trimmed_trim t)), escapeBreaks_escapeBreaks]

theorem not_mem_writtenText (h : '<' ∉ t) : '<' ∉ writtenText keep t := by
  have htrim : '<' ∉ Text.trim t := fun hmem => by
    obtain ⟨x, y, -, -, heq⟩ := exists_trim t
    exact h (by rw [heq]; simp [hmem])
  cases keep with
  | true => exact htrim
  | false =>
      intro hmem
      rcases mem_escapeBreaks hmem with hmem | hmem | hmem
      · exact htrim hmem.1
      · exact absurd hmem (by decide)
      · exact absurd hmem (by decide)

theorem writtenText_bracket (keep : Bool) : writtenText keep ['<'] = ['<'] := by
  cases keep <;> decide

/-! ## Tokens one by one -/

namespace Nesting

/-- The nesting after a token that is laid out by itself. -/
def after (n : Nesting) : Token → Nesting
  | .startTag name _ selfClosing => if selfClosing then n else n.enter name
  | .endTag _ => n.leave
  | _ => n

def lineDepth (n : Nesting) : Token → Nat
  | .endTag _ => n.leave.depth
  | _ => n.depth

/-- The text of the element that tokens begin with, if it goes on one line with its tags. -/
def inlined? (n : Nesting) : List Token → Option Text
  | .startTag name _ false :: ks => Style.inlineText? name (keepsBreaks (name :: n.openNames)) ks
  | _ => none

end Nesting

namespace Style

def lines (s : Style) (n : Nesting) (ks : List Token) : List Text := (s.layout n ks).1

end Style

theorem snd_token (s : Style) (n : Nesting) (k : Token) : (s.token n k).2 = n.after k := by
  cases k <;> rfl

theorem inlineText?_eq_some (h : Style.inlineText? name keep ks = some t) : ∃ content ks',
    ks = .text content :: .endTag name :: ks' ∧ t = writtenText keep content ∧ t ≠ [] ∧
      '\n' ∉ t := by
  unfold Style.inlineText? at h
  split at h
  · rename_i content closing ks'
    rw [Option.ite_none_right_eq_some] at h
    obtain ⟨⟨rfl, hne, hbreak⟩, heq⟩ := h
    cases heq
    exact ⟨content, ks', rfl, rfl, by simpa using hne, by simpa using hbreak⟩
  · cases h

theorem inlined?_eq_some (h : n.inlined? ks = some t) : ∃ name attributes content ks',
    ks = .startTag name attributes false :: .text content :: .endTag name :: ks' ∧
      t = writtenText (keepsBreaks (name :: n.openNames)) content ∧ t ≠ [] ∧ '\n' ∉ t := by
  unfold Nesting.inlined? at h
  split at h
  · rename_i name attributes ks
    obtain ⟨content, ks', rfl, ht⟩ := inlineText?_eq_some h
    exact ⟨name, attributes, content, ks', rfl, ht⟩
  · cases h

theorem inlineElement?_eq_none (h : n.inlined? (k :: ks) = none) :
    s.inlineElement? n k ks = none := by
  cases k with
  | startTag name attributes selfClosing =>
      cases selfClosing with
      | true => rfl
      | false => rw [Style.inlineElement?, show Style.inlineText? .. = none from h]; rfl
  | _ => rfl

/-! ## Equations -/

theorem lines_nil : s.lines n [] = [] := by
  rw [Style.lines, Style.layout]

theorem layout_inline (h : n.inlined? (.startTag name attributes false :: .text content ::
    .endTag name :: ks) = some t) :
    s.layout n (.startTag name attributes false :: .text content :: .endTag name :: ks) =
      (s.line n.depth (openTag name attributes false ++ t ++ closeTag name) :: (s.layout n ks).1,
        (s.layout n ks).2) := by
  have htext : Style.inlineText? name (keepsBreaks (name :: n.openNames))
      (.text content :: .endTag name :: ks) = some t := h
  rw [Style.layout, Style.inlineElement?, htext]
  rfl

theorem layout_cons (h : n.inlined? (k :: ks) = none) :
    s.layout n (k :: ks) =
      ((s.token n k).1 ++ (s.layout (n.after k) ks).1, (s.layout (n.after k) ks).2) := by
  rw [Style.layout, inlineElement?_eq_none h, ← snd_token s]

theorem lines_inline (h : n.inlined? (.startTag name attributes false :: .text content ::
    .endTag name :: ks) = some t) :
    s.lines n (.startTag name attributes false :: .text content :: .endTag name :: ks) =
      s.line n.depth (openTag name attributes false ++ t ++ closeTag name) :: s.lines n ks := by
  rw [Style.lines, layout_inline h, Style.lines]

theorem lines_cons (h : n.inlined? (k :: ks) = none) :
    s.lines n (k :: ks) = (s.token n k).1 ++ s.lines (n.after k) ks := by
  rw [Style.lines, layout_cons h, Style.lines]

/-- Token lists are taken apart as they are laid out. -/
theorem lines_induction {P : Nesting → List Token → Prop} (nil : ∀ n, P n [])
    (inline : ∀ n name attributes content ks t,
      n.inlined? (.startTag name attributes false :: .text content :: .endTag name :: ks) = some t →
      P n ks → P n (.startTag name attributes false :: .text content :: .endTag name :: ks))
    (cons : ∀ n k ks, n.inlined? (k :: ks) = none → P (n.after k) ks → P n (k :: ks))
    (n : Nesting) (ks : List Token) : P n ks := by
  induction hl : ks.length using Nat.strong_induction_on generalizing n ks with
  | h l ih =>
      subst hl
      cases ks with
      | nil => exact nil n
      | cons k ks =>
          cases h : n.inlined? (k :: ks) with
          | none => exact cons n k ks h (ih _ (by simp) _ _ rfl)
          | some t =>
              obtain ⟨name, attributes, content, ks', heq, -⟩ := inlined?_eq_some h
              cases heq
              exact inline n name attributes content ks' t h (ih _ (by simp; omega) _ _ rfl)

end CodeReference.Markup
