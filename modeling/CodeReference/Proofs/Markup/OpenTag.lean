import Mathlib
import CodeReference.Proofs.Markup.WellFormed

/-!
Opening tags written and read again. Whatever stands in the attributes, one tag is read. It is the
tag that was written, unless its attributes end with a slash and it does not close itself: that
slash then stands right before the closing bracket, and is read as the one of a tag that does.
-/
namespace CodeReference.Markup
open Text

variable {t name attributes : Text} {selfClosing : Bool} {k : Token}

theorem tokens_of_reading (h : Reading t (some k) []) : tokens t = [k] := by
  have hread := h.tokens_eq
  rwa [List.append_nil, tokens_nil] at hread

theorem Token.precedes_nil (k : Token) : k.Precedes [] where
  unclosed _ := rfl
  raw _ _ := not_hasClosing_nil
  text _ _ c hc := by cases hc

/-- A token that the scanner can give, written by itself, is read again. -/
theorem Token.Sound.tokens_written (h : k.Sound) (hslash : k.endsInSlash = false) :
    tokens k.written = [k] :=
  tokens_of_reading (h.reading hslash k.precedes_nil)

theorem openTag_concat_slash (name a : Text) :
    openTag name (a ++ ['/']) false = opening name (' ' :: a) true := by
  simp [openTag, opening]

/-- The slash at the end of attributes is read as that of a tag that closes itself. -/
theorem tokens_openTag_concat_slash {a : Text} (hname : IsLowerName name) (ha : '>' ∉ a) :
    tokens (openTag name (a ++ ['/']) false) = [.startTag name (normalizeAttributes a) true] := by
  have hopening : IsOpening name (' ' :: a) true := by
    refine ⟨hname.toIsName, ?_, ?_, by simp⟩
    · intro c hc
      obtain rfl : ' ' = c := by simpa using hc
      decide
    · simpa using ha
  have hread : Reading _ _ [] := .startTag hopening (by simp [closesItself])
  have hspace : normalizeAttributes (' ' :: a) = normalizeAttributes a :=
    normalizeAttributes_append_left (t := [' ']) (blanks_nil.cons (by decide))
  rw [openTag_concat_slash, tokens_of_reading hread, hname.lower, hspace]
  rfl

/-- An opening tag of some markup, written by itself, is read as exactly that tag if and only if it
closes itself or its attributes do not end with a slash. Otherwise the slash is taken from the
attributes, and a tag that was open closes itself. -/
theorem tokens_openTag (h : .startTag name attributes selfClosing ∈ tokens t) :
    (tokens (openTag name attributes selfClosing) = [.startTag name attributes selfClosing] ↔
        ¬ (selfClosing = false ∧ attributes.getLast? = some '/')) ∧
      ∀ a, selfClosing = false → attributes = a ++ ['/'] →
        tokens (openTag name attributes selfClosing) =
          [.startTag name (normalizeAttributes a) true] := by
  have hsound : (Token.startTag name attributes selfClosing).Sound := (wellFormed_tokens t).sound _ h
  have hslash : ∀ a, selfClosing = false → attributes = a ++ ['/'] →
      tokens (openTag name attributes selfClosing) =
        [.startTag name (normalizeAttributes a) true] := by
    rintro a rfl rfl
    have hname : IsLowerName name := hsound.1
    have hbracket : '>' ∉ a ++ ['/'] := hsound.2.1.bracket
    exact tokens_openTag_concat_slash hname fun hmem => hbracket (by simp [hmem])
  refine ⟨⟨?_, ?_⟩, hslash⟩
  · rintro hread ⟨rfl, hlast⟩
    obtain ⟨a, ha⟩ := List.getLast?_eq_some_iff.1 hlast
    rw [hslash a rfl ha] at hread
    simp at hread
  · intro hlast
    refine hsound.tokens_written ?_
    cases selfClosing with
    | true => rfl
    | false => simpa [Token.endsInSlash] using hlast

/-- The slash in the attributes does not end them. -/
theorem tokens_openTag_inner_slash :
    tokens (openTag ['a'] "href=b/ c".toList false) = [.startTag ['a'] "href=b/ c".toList false] :=
  (tokens_openTag (t := "x<A  href=b/\tc >".toList) (by decide +kernel)).1.2 (by decide)

/-- The tag of an element that is open is written as that of one that closes itself. -/
theorem tokens_openTag_last_slash :
    .startTag ['a'] "href=b/".toList false ∈ tokens "<a href=b/ >x</a>".toList ∧
      isRawText ['a'] = false ∧
      tokens (openTag ['a'] "href=b/".toList false) ≠ [.startTag ['a'] "href=b/".toList false] ∧
      tokens (openTag ['a'] "href=b/".toList false) = [.startTag ['a'] "href=b".toList true] := by
  refine ⟨?_, ?_, ?_, ?_⟩ <;> decide +kernel

end CodeReference.Markup
