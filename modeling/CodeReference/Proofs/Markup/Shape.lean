import Mathlib
import CodeReference.Proofs.Markup.WellFormed

/-!
What the tokens of markup look like, said without the scanner: names in small letters, attributes
with single spaces, comments and declarations that go to their first terminator, and raw text
without its closing tag. Nothing follows what has no terminator, and no closing tag of raw text
follows an opening tag that found none.
-/
namespace CodeReference.Markup
open Text

variable {name attributes content t : Text} {k l : Token} {ks : List Token}

/-! ## Tokens by themselves -/

def IsSmallName (name : Text) : Prop :=
  ∃ c t, name = c :: t ∧ c.isLower = true ∧
    ∀ d ∈ t, d.isLower = true ∨ d.isDigit = true ∨ d ∈ ['_', ':', '-']

theorem isLower_of_isNameStart {c : Char} (hc : isNameStart c = true) (hlower : c.toLower = c) :
    c.isLower = true :=
  forall_isNameChar (P := fun c => isNameStart c = true → c.toLower = c → c.isLower = true)
    (by decide) (isNameChar_of_isNameStart hc) hc hlower

theorem small_of_isNameChar {c : Char} (hc : isNameChar c = true) (hlower : c.toLower = c) :
    c.isLower = true ∨ c.isDigit = true ∨ c ∈ ['_', ':', '-'] :=
  forall_isNameChar (P := fun c => c.toLower = c →
    c.isLower = true ∨ c.isDigit = true ∨ c ∈ ['_', ':', '-']) (by decide) hc hlower

theorem IsLowerName.isSmallName (h : IsLowerName name) : IsSmallName name := by
  obtain ⟨c, hc, hstart⟩ := h.head
  have hlower := List.map_inj_left.1 (h.lower.trans (List.map_id name).symm)
  cases name with
  | nil => cases hc
  | cons d t =>
      obtain rfl : d = c := by simpa using hc
      exact ⟨d, t, rfl, isLower_of_isNameStart hstart (hlower d List.mem_cons_self), fun e he =>
        small_of_isNameChar (h.all e (List.mem_cons_of_mem d he))
          (hlower e (List.mem_cons_of_mem d he))⟩

/-- Attributes with nothing but single spaces between their parts. -/
structure IsSpacedOut (a : Text) : Prop where
  bracket : '>' ∉ a
  trimmed : Trimmed a
  spaced : SingleSpaced a

theorem IsAttributes.isSpacedOut (h : IsAttributes attributes) : IsSpacedOut attributes where
  bracket := h.bracket
  trimmed := h.normal ▸ trimmed_normalizeAttributes attributes
  spaced := h.normal ▸ singleSpaced_normalizeAttributes attributes

/-- A text between delimiters. The one at the end comes nowhere before, and may be missing. -/
def IsDelimited (start stop content : Text) : Prop :=
  ∃ body, content = start ++ body ∧ ∀ x y, body = x ++ stop ++ y → y = []

/-- What a token looks like. -/
def Token.Shaped : Token → Prop
  | .startTag name attributes selfClosing =>
    IsSmallName name ∧ IsSpacedOut attributes ∧ (isVoid name = true → selfClosing = true)
  | .endTag name => IsSmallName name ∧ isVoid name = false
  | .text content => content = ['<'] ∨ content ≠ [] ∧ '<' ∉ content
  | .comment content => IsDelimited commentStart commentStop content
  | .doctype content =>
    IsDelimited doctypeStart doctypeStop content ∧ ¬ commentStart <+: content
  | .rawText name attributes content =>
    IsSmallName name ∧ IsSpacedOut attributes ∧ name ∈ rawTextElements ∧ ¬ HasClosing name content

theorem Token.Sound.shaped (h : k.Sound) : k.Shaped := by
  cases k with
  | startTag name attributes selfClosing => exact ⟨h.1.isSmallName, h.2.1.isSpacedOut, h.2.2⟩
  | endTag name => exact ⟨h.1.isSmallName, h.2⟩
  | text content => exact h
  | comment content =>
      obtain ⟨body, heq, hbody⟩ := h
      exact ⟨body, heq, nothing_after_through?_iff.1 hbody⟩
  | doctype content =>
      obtain ⟨body, rfl, hdashes, hbody⟩ := h
      refine ⟨⟨body, rfl, nothing_after_through?_iff.1 hbody⟩, fun hcomment => hdashes ?_⟩
      exact (List.prefix_append_right_inj doctypeStart).1 hcomment
  | rawText name attributes content =>
      obtain ⟨hname, hattributes, hraw, hcontent⟩ := h
      exact ⟨hname.isSmallName, hattributes.isSpacedOut, by simpa [isRawText] using hraw, hcontent⟩

/-! ## Tokens and what follows them -/

/-- A comment or declaration without its terminator. -/
def Token.LacksStop : Token → Prop
  | .comment content => ∀ body, content ≠ commentStart ++ body ++ commentStop
  | .doctype content => ∀ body, content ≠ doctypeStart ++ body ++ doctypeStop
  | _ => False

theorem Token.Sound.unclosed (h : k.Sound) (hlacks : k.LacksStop) : k.Unclosed := by
  -- Where a terminator is found, the content is what comes before it, and the terminator.
  have hnone : ∀ {start stop body : Text},
      (∀ x r, through? stop body = some (x, r) → r = []) →
      (∀ x, start ++ body ≠ start ++ x ++ stop) → through? stop body = none := by
    intro start stop body hbody hstop
    rcases through?_of_nothing_after hbody with hx | hx
    · obtain ⟨x, rfl⟩ := suffix_of_through? hx
      exact absurd (List.append_assoc ..).symm (hstop x)
    · exact hx
  cases k with
  | comment content =>
      obtain ⟨body, rfl, hbody⟩ := h
      rw [Token.Unclosed, List.drop_left]
      exact hnone hbody hlacks
  | doctype content =>
      obtain ⟨body, rfl, -, hbody⟩ := h
      rw [Token.Unclosed, List.drop_left]
      exact hnone hbody hlacks
  | _ => exact hlacks.elim

theorem WellFormed.of_append {before after : List Token} (h : WellFormed (before ++ after)) :
    WellFormed after := by
  induction before with
  | nil => exact h
  | cons k before ih => exact ih h.2.2.2

theorem hasClosing_written_endTag (h : IsLowerName name) :
    HasClosing name (Token.endTag name).written :=
  ⟨closeTag name, isClosing_closeTag h, List.infix_rfl⟩

theorem hasClosing_written_rawText (h : IsLowerName name) (attributes content : Text) :
    HasClosing name (Token.rawText name attributes content).written :=
  ⟨closeTag name, isClosing_closeTag h, (List.suffix_append _ _).isInfix⟩

/-- Each token of markup has the shape of its kind. One without its terminator is the last token.
After an opening tag of a raw text element that is left open there is no closing tag and no raw text
of its name. -/
theorem tokens_shaped (t : Text) : ∀ before k after, tokens t = before ++ k :: after →
    k.Shaped ∧ (k.LacksStop → after = []) ∧
      ∀ name attributes, k = .startTag name attributes false → name ∈ rawTextElements →
        ∀ l ∈ after, l ≠ .endTag name ∧ ∀ a content, l ≠ .rawText name a content := by
  intro before k after heq
  have hwell := wellFormed_tokens t
  rw [heq] at hwell
  obtain ⟨hsound, hunclosed, hopens, -⟩ := hwell.of_append
  refine ⟨hsound.shaped, fun hlacks => hunclosed (hsound.unclosed hlacks), ?_⟩
  rintro name attributes rfl hraw l hl
  have hraw : isRawText name = true := by simpa [isRawText] using hraw
  have hnone := hopens name ⟨hraw, attributes, rfl⟩ l hl
  refine ⟨?_, fun a content => ?_⟩
  · rintro rfl
    exact hnone (hasClosing_written_endTag hsound.1)
  · rintro rfl
    exact hnone (hasClosing_written_rawText hsound.1 a content)

/-- The script is left open, since its closing tag comes before it. -/
theorem tokens_shaped_openScript :
    tokens "</script><SCRIPT  a =1>x</b ><!-- y".toList =
        [.endTag "script".toList] ++ .startTag "script".toList "a =1".toList false ::
          [.text ['x'], .endTag ['b'], .comment "<!-- y".toList] ∧
      (Token.startTag "script".toList "a =1".toList false).Shaped ∧
      ∀ l ∈ [Token.text ['x'], .endTag ['b'], .comment "<!-- y".toList],
        l ≠ .endTag "script".toList := by
  have heq : tokens "</script><SCRIPT  a =1>x</b ><!-- y".toList =
      [.endTag "script".toList] ++ .startTag "script".toList "a =1".toList false ::
        [.text ['x'], .endTag ['b'], .comment "<!-- y".toList] := by
    decide +kernel
  obtain ⟨hshaped, -, hopen⟩ := tokens_shaped _ _ _ _ heq
  exact ⟨heq, hshaped, fun l hl => (hopen _ _ rfl (by decide) l hl).1⟩

end CodeReference.Markup
