import Mathlib
import CodeReference.Proofs.Markup.Relaid

/-!
Laying out markup keeps its tags, comments and declarations and the lines of its raw text, and does
not depend on how the markup was laid out before.
-/
namespace CodeReference.Markup
open Text

variable {s a b : Style} {n : Nesting} {k : Token} {ks : List Token} {keep : Bool}
  {name gap sep t u : Text}

/-- The scanner finds the relaid tokens in the layout. -/
theorem tokens_format (hs : s.PlainIndent) {markup : Text}
    (hslash : ∀ k ∈ tokens markup, k.endsInSlash = false) :
    tokens (s.format markup) = s.relaid {} [] [] (tokens markup) := by
  have hwritten : s.format markup = writeAll (s.relaid {} [] [] (tokens markup)) := by
    rw [writeAll_relaid, List.nil_append, ← join_eq_writeLines]
    rfl
  rw [hwritten]
  exact tokens_writeAll
    (readable_relaid hs (wellFormed_tokens markup) hslash (by simp) (by simp))

/-- A page with what is laid out in ways of its own: a text with a line break, a bracket that opens
no tag, raw text, and a comment that is not closed. -/
def samplePage : Text :=
  "<div><p> a\n b </p>5 < 6<script>\n   f(1);\n     g();\n</script></div><!-- end".toList

/-! ## Markup is kept -/

/-- A token that is no text, and apart from it the trimmed lines of its raw text. -/
def Token.markup? : Token → Option (Token × List Text)
  | .text _ => none
  | .rawText name attributes content => some (.rawText name attributes [], strippedLines content)
  | k => some (k, [])

theorem filterMap_textOf (t : Text) : (textOf t).filterMap Token.markup? = [] := by
  unfold textOf
  split <;> rfl

theorem markup?_relaidToken {depth : Nat} (hs : s.PlainIndent) :
    (s.relaidToken depth k).markup? = k.markup? := by
  cases k with
  | rawText name attributes content =>
      rw [Style.relaidToken, Token.markup?, Token.markup?, strippedLines_relaidContent hs]
  | _ => rfl

theorem filterMap_relaid (hs : s.PlainIndent) :
    (s.relaid n sep gap ks).filterMap Token.markup? = ks.filterMap Token.markup? := by
  induction n, ks using lines_induction generalizing sep gap with
  | nil n => rw [relaid_nil, filterMap_textOf, List.filterMap_nil]
  | inline n name attributes content ks t h ih =>
      rw [relaid_inline h, List.filterMap_append, filterMap_textOf]
      simp [List.filterMap_cons, Token.markup?, ih]
  | cons n k ks h ih =>
      cases hplain : k.plain? with
      | some content =>
          obtain ⟨rfl, hc⟩ := Token.plain?_eq_some_iff.1 hplain
          rw [relaid_text hc, List.filterMap_cons_none rfl]
          split
          · exact ih
          · exact ih
      | none =>
          rw [relaid_cons h hplain, List.filterMap_append, filterMap_textOf, List.filterMap_cons,
            List.filterMap_cons, markup?_relaidToken hs, ih, List.nil_append]

/-- Markup that is laid out has the same tags, comments and declarations as before, and its raw text
has the same lines, whatever blanks stand around them. -/
theorem filterMap_tokens_format (s : Style) (markup : Text) (hs : s.PlainIndent)
    (hslash : ∀ k ∈ tokens markup, k.endsInSlash = false) :
    (tokens (s.format markup)).filterMap Token.markup? =
      (tokens markup).filterMap Token.markup? := by
  rw [tokens_format hs hslash, filterMap_relaid hs]

theorem filterMap_tokens_format_samplePage :
    (tokens (Style.format ⟨['\t'], 60⟩ samplePage)).filterMap Token.markup? =
      [(.startTag "div".toList [] false, []), (.startTag ['p'] [] false, []), (.endTag ['p'], []),
        (.rawText "script".toList [] [], ["f(1);".toList, "g();".toList]),
        (.endTag "div".toList, []), (.comment "<!-- end".toList, [])] :=
  (filterMap_tokens_format ⟨['\t'], 60⟩ samplePage (by simp [Style.PlainIndent])
    (by decide +kernel)).trans (by decide +kernel)

/-! ## Layouts of layouts -/

def Apart (k l : Token) : Prop := k.plain? = none ∨ l.plain? = none

instance (k l : Token) : Decidable (Apart k l) := inferInstanceAs (Decidable (_ ∨ _))

/-- An element with a text stays on one line if its closing tag comes next and the text allows. -/
theorem inlineText?_text (name : Text) (keep : Bool) (t : Text) (ks : List Token) :
    Style.inlineText? name keep (.text t :: ks) =
      if ks.head? = some (.endTag name) ∧ writtenText keep t ≠ [] ∧ '\n' ∉ writtenText keep t then
        some (writtenText keep t) else none := by
  cases ks with
  | nil => simp [Style.inlineText?]
  | cons k ks => cases k <;> simp [Style.inlineText?]

/-- An element that is on one line is on one line after it was laid out. -/
theorem inlined?_inline {attributes content : Text} (h : n.inlined? (.startTag name attributes false ::
    .text content :: .endTag name :: ks) = some t) (ks' : List Token) :
    n.inlined? (.startTag name attributes false :: .text t :: .endTag name :: ks') = some t := by
  obtain ⟨_, _, _, _, heq, ht, hne, hbreak⟩ := inlined?_eq_some h
  cases heq
  have htext := inlineText?_text name (keepsBreaks (name :: n.openNames)) t (.endTag name :: ks')
  rwa [ht, writtenText_writtenText, ← ht, if_pos ⟨rfl, hne, hbreak⟩] at htext

theorem inlineText?_of_blanks (ht : Blanks t) (ks : List Token) :
    Style.inlineText? name keep (.text t :: ks) = none := by
  rw [inlineText?_text, writtenText_of_blanks ht, if_neg (by simp)]

theorem head?_relaidToken_cons {depth : Nat} (ks ks' : List Token) :
    (s.relaidToken depth k :: ks).head? = some (.endTag name) ↔
      (k :: ks').head? = some (.endTag name) := by
  cases k <;> simp [Style.relaidToken]

/-- The text in front of a tag is written as before, whatever blanks were put around it. -/
theorem inlineText?_relaid (hs : s.PlainIndent) (hks : ∀ k ∈ ks.head?, k.plain? = none) :
    Style.inlineText? name keep (s.relaid n ['\n'] gap ks) =
      Style.inlineText? name keep (.text gap :: ks) := by
  have hlead : ∀ depth, Blanks (['\n'] ++ s.indentation depth) := fun depth =>
    (blanks_nil.cons (by decide)).append hs.blanks
  have htext : ∀ depth, textOf (gap ++ ['\n'] ++ s.indentation depth) =
      [.text (gap ++ (['\n'] ++ s.indentation depth))] := by
    intro depth
    rw [textOf, if_neg (by simp), List.append_assoc]
  cases ks with
  | nil =>
      rw [relaid_nil, textOf]
      split <;> rfl
  | cons k ks =>
      cases h : n.inlined? (k :: ks) with
      | some t =>
          obtain ⟨_, attributes, content, ks', heq, -⟩ := inlined?_eq_some h
          cases heq
          rw [relaid_inline h, htext]
          rfl
      | none =>
          rw [relaid_cons h (hks k rfl), htext, List.singleton_append, inlineText?_text,
            inlineText?_text, writtenText_append_right (hlead _)]
          simp only [head?_relaidToken_cons _ ks]

theorem lines_text (s : Style) (n : Nesting) (t : Text) (ks : List Token) :
    s.lines n (.text t :: ks) =
      (if writtenText (keepsBreaks n.openNames) t = [] then []
        else [s.line n.depth (writtenText (keepsBreaks n.openNames) t)]) ++ s.lines n ks := by
  rw [lines_cons rfl, token_text]
  rfl

theorem lines_text_of_blanks (ht : Blanks t) : s.lines n (.text t :: ks) = s.lines n ks := by
  rw [lines_text, writtenText_of_blanks ht, if_pos rfl, List.nil_append]

theorem lines_textOf_append : s.lines n (textOf t ++ ks) = s.lines n (.text t :: ks) := by
  unfold textOf
  split
  · rename_i hnil
    rw [hnil, lines_text_of_blanks blanks_nil, List.nil_append]
  · rfl

theorem plain?_head_of_isChain {content : Text} (hks : (k :: ks).IsChain Apart)
    (hk : k.plain? = some content) : ∀ l ∈ ks.head?, l.plain? = none := fun l hl =>
  (hks.rel_head? hl).resolve_left (by rw [hk]; exact Option.some_ne_none content)

/-- An element that was not on one line is not on one line after its content was laid out. -/
theorem inlineText?_relaid_eq_none (hs : s.PlainIndent) (hks : ks.IsChain Apart)
    (h : Style.inlineText? name (keepsBreaks n.openNames) ks = none) :
    Style.inlineText? name (keepsBreaks n.openNames) (s.relaid n ['\n'] [] ks) = none := by
  have hother : (∀ k ∈ ks.head?, k.plain? = none) →
      Style.inlineText? name (keepsBreaks n.openNames) (s.relaid n ['\n'] [] ks) = none := by
    intro hhead
    rw [inlineText?_relaid hs hhead, inlineText?_of_blanks blanks_nil]
  cases ks with
  | nil => exact hother (by simp)
  | cons k ks =>
      cases hplain : k.plain? with
      | none => exact hother (by simpa using hplain)
      | some content =>
          have hhead := plain?_head_of_isChain hks hplain
          obtain ⟨rfl, hc⟩ := Token.plain?_eq_some_iff.1 hplain
          rw [relaid_text hc]
          split
          · rw [inlineText?_relaid hs hhead, inlineText?_of_blanks blanks_nil]
          · have hlead : Blanks ([] ++ ['\n'] ++ s.indentation n.depth) :=
              (blanks_nil.cons (by decide)).append hs.blanks
            rw [inlineText?_text] at h
            rw [inlineText?_relaid hs hhead, inlineText?_text, writtenText_append_left hlead,
              writtenText_writtenText, h]

theorem inlined?_relaid (hs : s.PlainIndent) (hks : ks.IsChain Apart)
    (h : n.inlined? (k :: ks) = none) {depth : Nat} :
    n.inlined? (s.relaidToken depth k :: s.relaid (n.after k) ['\n'] [] ks) = none := by
  cases k with
  | startTag name attributes selfClosing =>
      cases selfClosing with
      | true => rfl
      | false => exact inlineText?_relaid_eq_none (n := n.enter name) hs hks h
  | _ => rfl

/-- A token takes the same lines after it was laid out before. -/
theorem token_relaidToken (ha : a.PlainIndent) (hlimit : a.inlineLimit = b.inlineLimit) :
    (b.token n (a.relaidToken n.depth k)).1 = (b.token n k).1 ∧
      n.after (a.relaidToken n.depth k) = n.after k := by
  cases k with
  | rawText name attributes content => exact ⟨rawTextLines_relaidContent ha hlimit, rfl⟩
  | _ => exact ⟨rfl, rfl⟩

/-- The lines of a layout's tokens are those of the tokens that were laid out. -/
theorem lines_relaid (ha : a.PlainIndent) (hlimit : a.inlineLimit = b.inlineLimit)
    (hks : ks.IsChain Apart) (hsep : Blanks sep)
    (hgap : Blanks gap ∨ ∀ k ∈ ks.head?, k.plain? = none) :
    b.lines n (a.relaid n sep gap ks) = b.lines n (.text gap :: ks) := by
  have hbreak : Blanks ['\n'] := blanks_nil.cons (by decide)
  have hlead : ∀ {n sep gap depth ks}, Blanks sep →
      b.lines n (.text (gap ++ sep ++ a.indentation depth) :: ks) = b.lines n (.text gap :: ks) := by
    intro n sep gap depth ks hsep
    rw [lines_text, lines_text, writtenText_append_right ha.blanks, writtenText_append_right hsep]
  induction n, ks using lines_induction generalizing sep gap with
  | nil n => rw [relaid_nil, ← lines_textOf_append, List.append_nil]
  | inline n name attributes content ks t h ih =>
      have hagain := inlined?_inline h (a.relaid n ['\n'] [] ks)
      have hrest := ih hks.tail.tail.tail hbreak (.inl blanks_nil)
      rw [relaid_inline h, lines_textOf_append, hlead hsep, lines_text, lines_text,
        lines_inline hagain, lines_inline h, hrest, lines_text_of_blanks blanks_nil]
  | cons n k ks h ih =>
      cases hplain : k.plain? with
      | some content =>
          have hhead := plain?_head_of_isChain hks hplain
          obtain ⟨rfl, hc⟩ := Token.plain?_eq_some_iff.1 hplain
          have hchain : ks.IsChain Apart := hks.tail
          have hafter : n.after (.text content) = n := rfl
          rw [hafter] at ih
          rw [relaid_text hc]
          split
          · rename_i hnil
            rw [ih hchain hsep (.inr hhead), lines_text, lines_text, lines_text, if_pos hnil,
              List.nil_append]
          · have hgap : Blanks gap := hgap.resolve_right fun hno => by
              rw [hno _ rfl] at hplain
              cases hplain
            have hmargin : Blanks (gap ++ sep ++ a.indentation n.depth) :=
              (hgap.append hsep).append ha.blanks
            rw [ih hchain hbreak (.inr hhead), lines_text_of_blanks hgap, lines_text,
              writtenText_append_left hmargin, writtenText_writtenText, lines_text]
      | none =>
          obtain ⟨htoken, hafter⟩ := token_relaidToken (n := n) (k := k) ha hlimit
          have hchain : ks.IsChain Apart := hks.tail
          have hrest := ih hchain hbreak (.inl blanks_nil)
          rw [relaid_cons h hplain, lines_textOf_append, hlead hsep, lines_text, lines_text,
            lines_cons (inlined?_relaid ha hchain h), htoken, hafter, hrest,
            lines_text_of_blanks blanks_nil, lines_cons h]

/-- Laying out again leaves nothing of an earlier layout: the result is what the markup itself would
be laid out as. -/
theorem format_format (a b : Style) (markup : Text) (ha : a.PlainIndent)
    (hlimit : a.inlineLimit = b.inlineLimit) (hks : (tokens markup).IsChain Apart)
    (hslash : ∀ k ∈ tokens markup, k.endsInSlash = false) :
    b.format (a.format markup) = b.format markup := by
  have hlines : b.lines {} (tokens (a.format markup)) = b.lines {} (tokens markup) := by
    rw [tokens_format ha hslash, lines_relaid ha hlimit hks blanks_nil (.inl blanks_nil),
      lines_text_of_blanks blanks_nil]
  exact congrArg (join ['\n']) hlines

theorem format_format_samplePage :
    Style.format ⟨['\t'], 60⟩ (Style.format ⟨[' ', ' '], 60⟩ samplePage) =
      ("<div>\n\t<p>a&#10; b</p>\n\t5\n\t<\n\t6\n\t<script>\n\t\tf(1);\n\t\t  g();\n" ++
        "\t</script>\n</div>\n<!-- end").toList :=
  (format_format ⟨[' ', ' '], 60⟩ ⟨['\t'], 60⟩ samplePage (by simp [Style.PlainIndent]) rfl
    (by decide +kernel) (by decide +kernel)).trans (by decide +kernel)

end CodeReference.Markup
