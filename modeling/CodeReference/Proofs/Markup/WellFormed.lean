import Mathlib
import CodeReference.Proofs.Markup.Written

/-!
Token lists that the scanner gives, and token lists that are read again as they were written. What
a token is like comes from its own source; what may follow it comes from the markup behind it.
-/
namespace CodeReference.Markup
open Text

variable {k : Token} {ks : List Token} {name source rest r t : Text}

/-! ## Tokens by themselves -/

/-- Attributes as a token holds them. -/
structure IsAttributes (a : Text) : Prop where
  normal : normalizeAttributes a = a
  bracket : '>' ∉ a

theorem isAttributes_normalizeAttributes {body : Text} (h : '>' ∉ body) :
    IsAttributes (normalizeAttributes body) :=
  ⟨normalizeAttributes_normalizeAttributes body, fun hmem =>
    h (mem_of_mem_normalizeAttributes (by decide) hmem)⟩

/-- A token that the scanner can give. -/
def Token.Sound : Token → Prop
  | .startTag name attributes selfClosing =>
    IsLowerName name ∧ IsAttributes attributes ∧ (isVoid name = true → selfClosing = true)
  | .endTag name => IsLowerName name ∧ isVoid name = false
  | .text content => content = ['<'] ∨ content ≠ [] ∧ '<' ∉ content
  | .comment content => ∃ body, content = commentStart ++ body ∧
    ∀ x r, through? commentStop body = some (x, r) → r = []
  | .doctype content => ∃ body, content = doctypeStart ++ body ∧ ¬ ['-', '-'] <+: body ∧
    ∀ x r, through? doctypeStop body = some (x, r) → r = []
  | .rawText name attributes content =>
    IsLowerName name ∧ IsAttributes attributes ∧ isRawText name = true ∧ ¬ HasClosing name content

theorem Reading.sound (h : Reading source (some k) r) : k.Sound := by
  generalize hk : some k = k? at h
  cases h with
  | comment h => cases hk; exact ⟨_, rfl, by simp [h]⟩
  | openComment h => cases hk; exact ⟨_, rfl, by simp [h]⟩
  | doctype hc h => cases hk; exact ⟨_, rfl, hc, by simp [h]⟩
  | openDoctype hc h => cases hk; exact ⟨_, rfl, hc, by simp [h]⟩
  | endTag hw hb =>
      split at hk
      · cases hk
      · rename_i hvoid
        cases hk
        exact ⟨hw.isLowerName_map, by simpa using hvoid⟩
  | stray => cases hk; exact .inl rfl
  | startTag h hraw =>
      cases hk
      exact ⟨h.name.isLowerName_map, isAttributes_normalizeAttributes h.bracket,
        fun hvoid => by simp [closesItself, hvoid]⟩
  | rawText h hraw hc hu =>
      cases hk
      exact ⟨h.name.isLowerName_map, isAttributes_normalizeAttributes h.bracket, hraw, hc⟩
  | text hne ht hr => cases hk; exact .inr ⟨hne, ht⟩

/-! ## Tokens and what follows them -/

/-- A comment or declaration that is not closed. -/
def Token.Unclosed : Token → Prop
  | .comment content => through? commentStop (content.drop commentStart.length) = none
  | .doctype content => through? doctypeStop (content.drop doctypeStart.length) = none
  | _ => False

/-- An opening tag whose content would be raw text if it had a closing tag. -/
def Token.OpensRaw (k : Token) (name : Text) : Prop :=
  isRawText name = true ∧ ∃ attributes, k = .startTag name attributes false

/-- A rest that leaves a token as it is when it is written in front of it. -/
structure Token.Precedes (k : Token) (rest : Text) : Prop where
  unclosed : k.Unclosed → rest = []
  raw : ∀ name, k.OpensRaw name → ¬ HasClosing name rest
  text : ∀ content, k = .text content →
    ∀ c ∈ rest.head?, c = '<' ∨ content = ['<'] ∧ isBlank c = true

theorem Token.precedes_text {content : Text} (h : ∀ c ∈ rest.head?, c = '<') :
    (Token.text content).Precedes rest :=
  ⟨False.elim, fun _ ⟨_, _, heq⟩ => Token.noConfusion heq, fun _ _ c hc => .inl (h c hc)⟩

theorem Token.precedes_endTag (name rest : Text) : (Token.endTag name).Precedes rest :=
  ⟨False.elim, fun _ ⟨_, _, heq⟩ => Token.noConfusion heq, fun _ heq => Token.noConfusion heq⟩

/-- Where a slash ends the attributes of a tag it would be read as the slash of a tag that closes
itself. -/
def Token.endsInSlash : Token → Bool
  | .startTag _ attributes false | .rawText _ attributes _ => attributes.getLast? == some '/'
  | _ => false

theorem isLowerName_of_isRawText (h : isRawText name = true) : IsLowerName name := by
  rcases isRawText_iff.1 h with rfl | rfl
  · exact ⟨⟨⟨'s', rfl, by decide⟩, by simp [isNameChar]⟩, rfl⟩
  · exact ⟨⟨⟨'s', rfl, by decide⟩, by simp [isNameChar]⟩, rfl⟩

theorem through?_of_nothing_after {p body : Text}
    (h : ∀ x r, through? p body = some (x, r) → r = []) :
    through? p body = some (body, []) ∨ through? p body = none := by
  cases hx : through? p body with
  | none => exact .inr rfl
  | some xr =>
      obtain ⟨x, r⟩ := xr
      obtain rfl := h x r hx
      have heq := through?_append hx
      rw [List.append_nil] at heq
      exact .inl (by rw [heq])

theorem reading_stray (h : ∀ c ∈ rest.head?, c = '<' ∨ isBlank c = true) :
    Reading ['<'] (some (.text ['<'])) rest := by
  have hne : ∀ {c : Char}, c ≠ '<' → isBlank c = false → rest.head? ≠ some c := by
    intro c hc hblank heq
    rcases h c heq with rfl | hb
    · exact hc rfl
    · rw [hb] at hblank
      cases hblank
  refine .stray (hne (by decide) (by decide)) ?_ ?_
  · rw [Option.eq_none_iff_forall_ne_some]
    rintro ⟨w, r⟩ heq
    obtain ⟨b, -, -, heq⟩ := endTag?_eq_some_iff.1 heq
    exact hne (c := '/') (by decide) (by decide) (by simp_all)
  · rw [Option.eq_none_iff_forall_ne_some]
    rintro ⟨w, body, slash, r⟩ heq
    obtain ⟨ho, heq⟩ := startTag?_eq_some_iff.1 heq
    obtain ⟨c, hc, hstart⟩ := ho.name.head
    have hsolid := solid_of_isNameChar (isNameChar_of_isNameStart hstart)
    refine hne (c := c) hsolid.bracket.1 hsolid.blank ?_
    rw [opening, List.cons_append, List.cons.injEq] at heq
    rw [heq.2]
    cases w with
    | nil => simp at hc
    | cons d w => exact hc

/-- A token is read from what it is written as. -/
theorem Token.Sound.reading (h : k.Sound) (hslash : k.endsInSlash = false)
    (hp : k.Precedes rest) : Reading k.written (some k) rest := by
  cases k with
  | startTag name attributes selfClosing =>
      obtain ⟨hname, hattributes, hvoid⟩ := h
      have hself : closesItself name selfClosing = selfClosing := by
        cases selfClosing with
        | true => rfl
        | false => simpa [closesItself] using hvoid
      have hopening : IsOpening name (attributeBody attributes selfClosing) selfClosing :=
        isOpening_attributeBody hname.toIsName hattributes.bracket (by
          rintro rfl
          simpa [Token.endsInSlash] using hslash)
      have hread : Reading _ _ rest := .startTag hopening (by
        rw [hname.lower, hself]
        intro hraw hopen
        exact hp.raw name ⟨hraw, attributes, by simp_all⟩)
      rwa [hname.lower, normalizeAttributes_attributeBody hattributes.normal, hself,
        ← openTag_eq_opening] at hread
  | endTag name =>
      obtain ⟨hname, hvoid⟩ := h
      have hread : Reading _ _ rest := .endTag (w := name) (b := []) hname.toIsName (by simp)
      rwa [hname.lower, if_neg (by simp [hvoid]), List.append_nil] at hread
  | text content =>
      by_cases hstray : content = ['<']
      · subst hstray
        exact reading_stray fun c hc => (hp.text _ rfl c hc).imp_right And.right
      · obtain ⟨hne, hopen⟩ := h.resolve_left hstray
        exact .text hne hopen fun c hc => (hp.text _ rfl c hc).resolve_right fun h => hstray h.1
  | comment content =>
      obtain ⟨body, rfl, hbody⟩ := h
      rcases through?_of_nothing_after hbody with hx | hx
      · exact .comment hx
      · obtain rfl := hp.unclosed (by simpa [Token.Unclosed] using hx)
        exact .openComment hx
  | doctype content =>
      obtain ⟨body, rfl, hc, hbody⟩ := h
      rcases through?_of_nothing_after hbody with hx | hx
      · exact .doctype hc hx
      · obtain rfl := hp.unclosed (by simpa [Token.Unclosed] using hx)
        exact .openDoctype hc hx
  | rawText name attributes content =>
      obtain ⟨hname, hattributes, hraw, hcontent⟩ := h
      have hopening : IsOpening name (attributeBody attributes false) false :=
        isOpening_attributeBody hname.toIsName hattributes.bracket (by
          rintro -
          simpa [Token.endsInSlash] using hslash)
      have hread : Reading (_ ++ content ++ _) _ rest := .rawText hopening
        (by rwa [hname.lower]) (by rwa [hname.lower])
        (by rw [hname.lower]; exact isClosing_closeTag hname)
      rwa [hname.lower, normalizeAttributes_attributeBody hattributes.normal,
        ← openTag_eq_opening] at hread

theorem getLast?_closeTag (name : Text) : (closeTag name).getLast? = some '>' :=
  List.getLast?_concat

theorem closeTag_ne_nil (name : Text) : closeTag name ≠ [] := by simp [closeTag]

/-- No closing tag of raw text lies across the border between a token and what follows it. -/
theorem Token.Sound.severed (h : k.Sound) (hp : k.Precedes rest) : Severed k.written rest := by
  -- A comment or declaration ends in a bracket, or nothing follows it.
  have hclosed : ∀ {start stop body : Text}, stop.getLast? = some '>' →
      (∀ x r, through? stop body = some (x, r) → r = []) →
      (through? stop body = none → rest = []) → Severed (start ++ body) rest := by
    intro start stop body hstop hbody hrest
    rcases through?_of_nothing_after hbody with hx | hx
    · obtain ⟨y, rfl⟩ := suffix_of_through? hx
      exact .inr (.inr (.inl (by simp [hstop])))
    · rw [hrest hx]
      exact .inr (.inl (by simp))
  cases k with
  | startTag name attributes selfClosing =>
      rw [Token.written, openTag_eq_opening]
      exact .inr (.inr (.inl (getLast?_opening ..)))
  | endTag name => exact .inr (.inr (.inl (getLast?_closeTag name)))
  | text content =>
      rcases h with rfl | ⟨-, hopen⟩
      · refine .inr (.inr (.inr (.inr ⟨rfl, fun hc => ?_⟩)))
        rcases hp.text _ rfl _ hc with heq | ⟨-, hblank⟩
        · exact absurd heq (by decide)
        · exact absurd hblank (by decide)
      · exact .inl hopen
  | comment content =>
      obtain ⟨body, rfl, hbody⟩ := h
      exact hclosed rfl hbody fun hx => hp.unclosed (by simpa [Token.Unclosed] using hx)
  | doctype content =>
      obtain ⟨body, rfl, -, hbody⟩ := h
      exact hclosed rfl hbody fun hx => hp.unclosed (by simpa [Token.Unclosed] using hx)
  | rawText name attributes content =>
      refine .inr (.inr (.inl ?_))
      rw [Token.written, List.getLast?_append_of_ne_nil _ (closeTag_ne_nil name)]
      exact getLast?_closeTag name

/-! ## Token lists -/

/-- Token lists as the scanner gives them. -/
def WellFormed : List Token → Prop
  | [] => True
  | k :: ks => k.Sound ∧ (k.Unclosed → ks = []) ∧
    (∀ name, k.OpensRaw name → ∀ l ∈ ks, ¬ HasClosing name l.written) ∧ WellFormed ks

theorem WellFormed.sound (h : WellFormed ks) : ∀ k ∈ ks, k.Sound := by
  induction ks with
  | nil => simp
  | cons k ks ih => exact List.forall_mem_cons.2 ⟨h.1, ih h.2.2.2⟩

theorem Reading.eq_nil_of_unclosed (h : Reading source (some k) r) (hu : k.Unclosed) : r = [] := by
  generalize hk : some k = k? at h
  cases h with
  | openComment | openDoctype => rfl
  | comment h => cases hk; simp [Token.Unclosed, h] at hu
  | doctype hc h => cases hk; simp [Token.Unclosed, h] at hu
  | endTag => split at hk <;> cases hk; exact hu.elim
  | _ => cases hk; exact hu.elim

theorem Reading.not_hasClosing (h : Reading source (some k) r) (ho : k.OpensRaw name) :
    ¬ HasClosing name r := by
  obtain ⟨hraw, attributes, rfl⟩ := ho
  generalize hk : some (Token.startTag name attributes false) = k? at h
  cases h with
  | endTag => split at hk <;> cases hk
  | startTag h hrest =>
      simp only [Option.some.injEq, Token.startTag.injEq] at hk
      obtain ⟨rfl, -, hself⟩ := hk
      exact hrest hraw (by simp [← hself])
  | _ => cases hk

theorem wellFormed_tokens (t : Text) : WellFormed (tokens t) := by
  induction t using reading_induction with
  | nil =>
      rw [tokens_nil]
      trivial
  | step source k? r hread ih =>
      rw [hread.tokens_eq]
      cases k? with
      | none => exact ih
      | some k =>
          refine ⟨hread.sound, fun hu => ?_, fun name ho => ?_, ih⟩
          · rw [hread.eq_nil_of_unclosed hu]
            exact tokens_nil
          · exact not_hasClosing_of_mem_tokens (isLowerName_of_isRawText ho.1).toIsName
              (hread.not_hasClosing ho)

/-! ## Markup of token lists -/

def writeAll (ks : List Token) : Text := ks.flatMap Token.written

/-- Token lists that are read as they were written. -/
def Readable : List Token → Prop
  | [] => True
  | k :: ks => k.Sound ∧ k.endsInSlash = false ∧ k.Precedes (writeAll ks) ∧ Readable ks

theorem tokens_writeAll (h : Readable ks) : tokens (writeAll ks) = ks := by
  induction ks with
  | nil => exact tokens_nil
  | cons k ks ih =>
      obtain ⟨hsound, hslash, hp, h⟩ := h
      rw [writeAll, List.flatMap_cons, ← writeAll, (hsound.reading hslash hp).tokens_eq, ih h]
      rfl

theorem not_hasClosing_writeAll (hn : ∀ a ∈ name, isNameChar a = true) (h : Readable ks)
    (hc : ∀ k ∈ ks, ¬ HasClosing name k.written) : ¬ HasClosing name (writeAll ks) := by
  induction ks with
  | nil => exact not_hasClosing_nil
  | cons k ks ih =>
      obtain ⟨hsound, -, hp, h⟩ := h
      obtain ⟨hk, hc⟩ := List.forall_mem_cons.1 hc
      rw [writeAll, List.flatMap_cons, ← writeAll, hasClosing_append_iff hn (hsound.severed hp)]
      exact not_or.2 ⟨hk, ih h hc⟩

end CodeReference.Markup
