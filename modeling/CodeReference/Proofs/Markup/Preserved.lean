import Mathlib
import CodeReference.Proofs.Markup.Balanced
import CodeReference.Proofs.Markup.Format

/-!
Elements with one text in them, wherever they stand. What is written between the tags is the trimmed
text if that is one line, and otherwise the text on lines of its own, indented like any other. So an
element that is to keep its white space keeps it only if it was written like that before.
-/
namespace CodeReference.Markup
open Text

variable {s : Style} {n : Nesting} {k : Token} {ks rest before after : List Token} {depth : Nat}
  {name attributes content markup t : Text} {keep : Bool}

/-! ## Layouts in front of an opening tag -/

/-- The nesting after tokens. -/
def Nesting.through (n : Nesting) (ks : List Token) : Nesting := ks.foldl Nesting.after n

def startsWithTag (rest : List Token) : Prop :=
  ∃ name attributes ks, rest = .startTag name attributes false :: ks

theorem inlineText?_append_eq_none (h : Style.inlineText? name keep ks = none)
    (hrest : startsWithTag rest) : Style.inlineText? name keep (ks ++ rest) = none := by
  obtain ⟨_, _, _, rfl⟩ := hrest
  match ks with
  | [] => rfl
  | .text content :: [] => rfl
  | .text content :: l :: ks =>
      rw [inlineText?_text] at h
      rw [List.cons_append, inlineText?_text]
      exact h
  | .startTag .. :: ks | .endTag _ :: ks | .comment _ :: ks | .doctype _ :: ks
  | .rawText .. :: ks => rfl

/-- Whether an element stays on one line does not depend on an opening tag behind the tokens. -/
theorem inlined?_append_eq_none (h : n.inlined? (k :: ks) = none) (hrest : startsWithTag rest) :
    n.inlined? (k :: (ks ++ rest)) = none := by
  cases k with
  | startTag name attributes selfClosing =>
      cases selfClosing with
      | true => rfl
      | false => exact inlineText?_append_eq_none h hrest
  | _ => rfl

theorem lines_append (n : Nesting) (ks : List Token) (hrest : startsWithTag rest) :
    s.lines n (ks ++ rest) = s.lines n ks ++ s.lines (n.through ks) rest := by
  induction n, ks using lines_induction with
  | nil n => rw [lines_nil]; rfl
  | inline n name attributes content ks t h ih =>
      have hinline : n.inlined? (.startTag name attributes false :: .text content ::
        .endTag name :: (ks ++ rest)) = some t := h
      rw [lines_inline h, List.cons_append, List.cons_append, List.cons_append, lines_inline hinline,
        ih]
      rfl
  | cons n k ks h ih =>
      rw [List.cons_append, lines_cons h, lines_cons (inlined?_append_eq_none h hrest), ih,
        List.append_assoc]
      rfl

/-! ## Elements with one text -/

/-- What is written between the tags of an element that holds a text which is written as `t`. -/
def Style.enclosed (s : Style) (depth : Nat) (t : Text) : Text :=
  if t = [] then '\n' :: s.indentation depth
  else if '\n' ∈ t then
    '\n' :: s.indentation (depth + 1) ++ t ++ '\n' :: s.indentation depth
  else t

def elementOf (name attributes content : Text) : List Token :=
  [.startTag name attributes false, .text content, .endTag name]

theorem balanced_elementOf (name attributes content : Text) :
    Balanced (elementOf name attributes content) :=
  .element name attributes (.flat rfl)

theorem lines_elementOf (n : Nesting) (name attributes content : Text) :
    s.lines n (elementOf name attributes content) ≠ [] ∧
      join ['\n'] (s.lines n (elementOf name attributes content)) =
        s.line n.depth (openTag name attributes false ++
          s.enclosed n.depth (writtenText (keepsBreaks (name :: n.openNames)) content) ++
          closeTag name) := by
  generalize ht : writtenText (keepsBreaks (name :: n.openNames)) content = t
  by_cases hinline : t ≠ [] ∧ '\n' ∉ t
  · have hline : n.inlined? (elementOf name attributes content) = some t := by
      rw [elementOf, Nesting.inlined?, inlineText?_text, ht, if_pos ⟨rfl, hinline⟩]
    rw [elementOf, lines_inline hline, lines_nil, Style.enclosed, if_neg hinline.1,
      if_neg hinline.2]
    exact ⟨by simp, rfl⟩
  · have hnone : ¬ ∃ u, n.Inlines name [.text content] u := by
      rintro ⟨u, _, heq, rfl, hu⟩
      cases heq
      exact hinline (ht ▸ hu)
    have hlines : s.lines n (elementOf name attributes content) =
        s.line n.depth (openTag name attributes false) ::
          (s.lines (n.enter name) [.text content] ++ [s.line n.depth (closeTag name)]) :=
      congrArg Prod.fst ((Balanced.flat (k := .text content) rfl).layout_element s attributes hnone)
    rw [hlines, lines_text, lines_nil, Nesting.enter, ht, Style.enclosed]
    refine ⟨by simp, ?_⟩
    by_cases hnil : t = []
    · rw [if_pos hnil, if_pos hnil]
      simp [join, Style.line]
    · have hbreak : '\n' ∈ t := by_contra fun hbreak => hinline ⟨hnil, hbreak⟩
      rw [if_neg hnil, if_neg hnil, if_pos hbreak]
      simp [join, Style.line]

/-! ## Text that is kept -/

/-- The text between the tags is laid out as itself if a layout wrote it. -/
theorem trim_enclosed (hs : s.PlainIndent) (ht : Trimmed t) :
    Text.trim (s.enclosed depth t) = t := by
  have hmargin : ∀ depth, Blanks ('\n' :: s.indentation depth) := fun depth =>
    hs.blanks.cons (by decide)
  unfold Style.enclosed
  split
  · rename_i hnil
    rw [hnil, trim_of_blanks (hmargin depth)]
  · split
    · exact trim_eq_of_eq (hmargin (depth + 1)) (hmargin depth) ht rfl
    · exact trim_of_trimmed ht

theorem enclosed_trim_eq_iff (hs : s.PlainIndent) : s.enclosed depth (Text.trim content) = content ↔
    ∃ t, Trimmed t ∧ content = s.enclosed depth t := by
  constructor
  · intro h
    exact ⟨_, trimmed_trim content, h.symm⟩
  · rintro ⟨t, ht, rfl⟩
    rw [trim_enclosed hs ht]

/-- An element that is to keep its white space is laid out, at any depth, around its trimmed text.
It is kept as it was if and only if it stood there as a layout writes it. -/
theorem format_preserving (s : Style) (markup name attributes content : Text)
    (before after : List Token) (hs : s.PlainIndent) (hname : name ∈ preservingElements)
    (h : tokens markup = before ++ (elementOf name attributes content ++ after)) :
    s.format markup = join ['\n'] (s.lines {} before ++
        s.line (Nesting.through {} before).depth (openTag name attributes false ++
          s.enclosed (Nesting.through {} before).depth (Text.trim content) ++ closeTag name) ::
        s.lines (Nesting.through {} before) after) ∧
      (s.enclosed (Nesting.through {} before).depth (Text.trim content) = content ↔
        ∃ t, Trimmed t ∧ content = s.enclosed (Nesting.through {} before).depth t) := by
  refine ⟨?_, enclosed_trim_eq_iff hs⟩
  generalize hn : Nesting.through {} before = n
  have hkeep : keepsBreaks (name :: n.openNames) = true := by simp [keepsBreaks, hname]
  have hafter : s.lines n (elementOf name attributes content ++ after) =
      s.lines n (elementOf name attributes content) ++ s.lines n after :=
    congrArg Prod.fst ((balanced_elementOf name attributes content).layout_append s n after)
  have hopens : startsWithTag (elementOf name attributes content ++ after) :=
    ⟨name, attributes, _, rfl⟩
  obtain ⟨hne, hjoin⟩ := lines_elementOf (s := s) n name attributes content
  rw [hkeep, writtenText, if_pos rfl] at hjoin
  have hlines : s.format markup = join ['\n'] (s.lines {} (tokens markup)) := rfl
  rw [hlines, h, lines_append {} before hopens, hn, hafter,
    join_append_join hne, hjoin]

theorem format_preserving_pre :
    Style.format ⟨['\t'], 60⟩ "<div><pre>a\n b</pre></div>".toList =
      "<div>\n\t<pre>\n\t\ta\n b\n\t</pre>\n</div>".toList :=
  (format_preserving ⟨['\t'], 60⟩ "<div><pre>a\n b</pre></div>".toList "pre".toList [] "a\n b".toList
    [.startTag "div".toList [] false] [.endTag "div".toList] (by simp [Style.PlainIndent])
    (by decide) (by decide +kernel)).1.trans (by decide +kernel)

/-- A text on two lines is moved to lines of its own, even where its white space is to be kept. -/
theorem not_format_keeps_text : ¬ ∀ (s : Style) (markup name attributes content : Text),
    s.PlainIndent → name ∈ preservingElements →
    tokens markup = elementOf name attributes content →
    s.format markup = openTag name attributes false ++ content ++ closeTag name := by
  intro h
  have hpre := h ⟨[' ', ' '], 60⟩ "<pre>a\n b</pre>".toList "pre".toList [] "a\n b".toList
    (by simp [Style.PlainIndent]) (by decide) (by decide +kernel)
  revert hpre
  decide +kernel

end CodeReference.Markup
