import Mathlib
import CodeReference.Proofs.Markup.Lines

/-!
The white space that the lines of a raw text block lose. Each loses as many blanks as the least
indented of them has, whatever these blanks are. That is the white space which the lines share only
if all of them begin with the same blanks; where some are indented by tabs and some by spaces, blanks
are lost that the lines do not share.
-/
namespace CodeReference.Markup
open Text

variable {s : Style} {n : Nesting} {ks : List Token} {ls inner : List Text} {depth m : Nat}
  {name attributes content l t u w : Text} {Front : Text → Prop}

/-! ## Margins -/

/-- The longest white space that every line begins with, blank lines apart. -/
structure IsSharedMargin (ls : List Text) (w : Text) : Prop where
  blanks : Blanks w
  shared : ∀ l ∈ ls, isBlankLine l = false → w <+: l
  longest : ∀ u, Blanks u → (∀ l ∈ ls, isBlankLine l = false → u <+: l) → u.length ≤ w.length

/-- How many blanks the lines begin with, blank lines apart. -/
def indentWidths (ls : List Text) : Set Nat :=
  {k | ∃ l ∈ ls, isBlankLine l = false ∧ leadingBlanks l = k}

theorem length_le_leadingBlanks (hu : Blanks u) (h : u <+: l) : u.length ≤ leadingBlanks l := by
  obtain ⟨t, rfl⟩ := h
  rw [leadingBlanks_append hu]
  exact Nat.le_add_right _ _

/-- The body of a block does not begin with a blank line, so its lines have a least indentation. -/
theorem isLeast_commonIndent (hne : bodyLines content ≠ []) :
    IsLeast (indentWidths (bodyLines content)) (commonIndent (bodyLines content)) := by
  obtain ⟨l, rest, hbody⟩ := List.exists_cons_of_ne_nil hne
  have hhead : isBlankLine l = false := (trimmedBy_bodyLines content).1 l (by rw [hbody]; rfl)
  have hl : l ∈ bodyLines content := by rw [hbody]; exact List.mem_cons_self
  refine ⟨?_, ?_⟩
  · obtain ⟨k, hk, hblank, heq⟩ := exists_commonIndent hl hhead
    exact ⟨k, hk, hblank, heq.symm⟩
  · rintro _ ⟨k, hk, hblank, rfl⟩
    exact commonIndent_le hk hblank

theorem IsSharedMargin.length_le (hw : IsSharedMargin ls w) (hm : IsLeast (indentWidths ls) m) :
    w.length ≤ m := by
  obtain ⟨l, hl, hblank, rfl⟩ := hm.1
  exact length_le_leadingBlanks hw.blanks (hw.shared l hl hblank)

/-! ## Lines that are indented anew -/

namespace Style

/-- A line of a block as a line of its body, which loses a front that satisfies `Front` and the
carriage returns at its end, and is indented one level deeper than the tags. A blank line becomes
empty. -/
inductive Reindents (s : Style) (depth : Nat) (Front : Text → Prop) : Text → Text → Prop
  | blank {l : Text} (h : isBlankLine l = true) : s.Reindents depth Front l []
  | line {front rest : Text} (hfront : Front front) (h : isBlankLine (front ++ rest) = false) :
      s.Reindents depth Front (front ++ rest)
        (s.line (depth + 1) (dropEndWhile (· == '\r') rest))

end Style

theorem reindents_innerLine (hfront : isBlankLine l = false → Front (l.take m)) :
    s.Reindents depth Front l (s.innerLine depth m l) := by
  cases hblank : isBlankLine l with
  | true =>
      rw [innerLine_of_blank hblank]
      exact .blank hblank
  | false =>
      rw [innerLine_of_not_blank hblank]
      have hline : s.Reindents depth Front (l.take m ++ l.drop m) _ :=
        .line (hfront hblank) (by rwa [List.take_append_drop])
      rwa [List.take_append_drop] at hline

theorem forall₂_innerLines (h : ∀ l ∈ ls, isBlankLine l = false →
    Front (l.take (commonIndent ls))) :
    List.Forall₂ (s.Reindents depth Front) ls (s.innerLines depth ls) := by
  rw [Style.innerLines, List.forall₂_map_right_iff, List.forall₂_same]
  exact fun l hl => reindents_innerLine (h l hl)

/-- What is left of a line tells how many blanks it has lost. -/
theorem length_eq_of_dropReturns_eq (hw : Blanks w) (hblank : isBlankLine (w ++ t) = false)
    (hm : m ≤ leadingBlanks (w ++ t))
    (h : dropEndWhile (· == '\r') t = dropEndWhile (· == '\r') ((w ++ t).drop m)) :
    w.length = m := by
  have hwidth := leadingBlanks_append hw t
  have hrest : ¬ Blanks t := fun ht => isBlankLine_eq_false_iff.1 hblank (hw.append ht)
  have hdrop : ¬ Blanks ((w ++ t).drop m) := by
    rw [← trim_eq_nil_iff, trim_drop hm, trim_eq_nil_iff, ← isBlankLine_eq_false_iff]
    exact hblank
  have hcount := congrArg leadingBlanks h
  rw [leadingBlanks_dropReturns hrest, leadingBlanks_dropReturns hdrop, leadingBlanks_drop hm]
    at hcount
  omega

theorem length_eq_of_reindents (hw : Blanks w) (hblank : isBlankLine l = false)
    (hm : m ≤ leadingBlanks l) (h : s.Reindents depth (· = w) l (s.innerLine depth m l)) :
    w.length = m := by
  rw [innerLine_of_not_blank hblank] at h
  generalize hline : s.indentation (depth + 1) ++ dropEndWhile (· == '\r') (l.drop m) = line at h
  cases h with
  | blank hl => rw [hl] at hblank; cases hblank
  | line hfront hl =>
      subst hfront
      exact length_eq_of_dropReturns_eq hw hl hm (List.append_cancel_left hline).symm

/-- The lines lose the white space that they share if and only if it is all that the least indented
one begins with. -/
theorem forall₂_innerLines_iff (hw : IsSharedMargin (bodyLines content) w)
    (hne : bodyLines content ≠ []) :
    List.Forall₂ (s.Reindents depth (· = w)) (bodyLines content)
        (s.innerLines depth (bodyLines content)) ↔
      w.length = commonIndent (bodyLines content) := by
  constructor
  · intro h
    obtain ⟨⟨l, hl, hblank, heq⟩, -⟩ := isLeast_commonIndent hne
    rw [Style.innerLines, List.forall₂_map_right_iff, List.forall₂_same] at h
    exact length_eq_of_reindents hw.blanks hblank heq.ge (h l hl)
  · intro hlength
    refine forall₂_innerLines fun l hl hblank => ?_
    rw [← hlength]
    exact (List.prefix_iff_eq_take.1 (hw.shared l hl hblank)).symm

/-! ## Raw text blocks -/

theorem ne_nil_of_block (h : s.inlineRawText? ls = none) : ls ≠ [] := by
  rintro rfl
  cases h

theorem lines_rawText (h : s.inlineRawText? (bodyLines content) = none) :
    s.lines n (.rawText name attributes content :: ks) =
      [s.line n.depth (openTag name attributes false)] ++
        s.innerLines n.depth (bodyLines content) ++ [s.line n.depth (closeTag name)] ++
        s.lines n ks := by
  have htoken : (s.token n (.rawText name attributes content)).1 =
      s.rawTextLines n.depth name attributes content := rfl
  rw [lines_cons rfl, htoken, rawTextLines_of_block h]
  rfl

/-- Wherever raw text stands that is laid out as a block, its lines stand between its tags one for
one, and each has lost as many blanks as the least indented of them has. These are the white space
that the lines share if and only if they share that much. -/
theorem lines_rawText_block (s : Style) (n : Nesting) (name attributes content w : Text)
    (ks : List Token) (hblock : s.inlineRawText? (bodyLines content) = none)
    (hw : IsSharedMargin (bodyLines content) w) :
    ∃ inner m,
      s.lines n (.rawText name attributes content :: ks) =
        [s.line n.depth (openTag name attributes false)] ++ inner ++
          [s.line n.depth (closeTag name)] ++ s.lines n ks ∧
      IsLeast (indentWidths (bodyLines content)) m ∧ w.length ≤ m ∧
      List.Forall₂ (s.Reindents n.depth fun front => Blanks front ∧ front.length = m)
        (bodyLines content) inner ∧
      (List.Forall₂ (s.Reindents n.depth (· = w)) (bodyLines content) inner ↔ w.length = m) := by
  have hne := ne_nil_of_block hblock
  have hleast := isLeast_commonIndent hne
  refine ⟨s.innerLines n.depth (bodyLines content), commonIndent (bodyLines content),
    lines_rawText hblock, hleast, hw.length_le hleast, forall₂_innerLines fun l hl hblank => ?_,
    forall₂_innerLines_iff hw hne⟩
  have hle : commonIndent (bodyLines content) ≤ leadingBlanks l := hleast.2 ⟨l, hl, hblank, rfl⟩
  exact ⟨blanks_take_of_le hle,
    List.length_take_of_le (hle.trans (List.takeWhile_prefix isBlank).length_le)⟩

/-- A script that is indented by spaces only, inside of a head. -/
theorem lines_rawText_block_spaces :
    ∃ inner, Style.lines ⟨['\t'], 60⟩ (Nesting.enter {} "head".toList)
        [.rawText "script".toList [] "\n    f\n\n      g\r\n    h\n".toList] =
          ["\t<script>".toList] ++ inner ++ ["\t</script>".toList] ∧
      List.Forall₂ (Style.Reindents ⟨['\t'], 60⟩ 1 (· = "    ".toList))
        (bodyLines "\n    f\n\n      g\r\n    h\n".toList) inner := by
  have hbody : bodyLines "\n    f\n\n      g\r\n    h\n".toList =
      ["    f".toList, [], "      g\r".toList, "    h".toList] := by decide
  have hw : IsSharedMargin (bodyLines "\n    f\n\n      g\r\n    h\n".toList) "    ".toList := by
    rw [hbody]
    exact ⟨by simp [Blanks, isBlank], by decide, fun u hu h =>
      length_le_leadingBlanks hu (h "    f".toList (by decide) (by decide))⟩
  obtain ⟨inner, m, hlines, hleast, hle, -, hiff⟩ := lines_rawText_block ⟨['\t'], 60⟩
    (Nesting.enter {} "head".toList) "script".toList [] "\n    f\n\n      g\r\n    h\n".toList
    "    ".toList [] (by rw [hbody]; rfl) hw
  have hge : m ≤ "    ".toList.length := by
    refine hleast.2 ⟨"    f".toList, ?_, by decide, by decide⟩
    rw [hbody]
    exact List.mem_cons_self
  exact ⟨inner, hlines.trans (by rw [lines_nil, List.append_nil]; rfl), hiff.2 (hle.antisymm hge)⟩

/-- Of a line that is indented by a tab and one that is indented by spaces, each loses a blank,
though they share no white space. -/
theorem not_lines_rawText_sharedMargin : ¬ ∀ (s : Style) (n : Nesting)
    (name attributes content w : Text) (ks : List Token), s.PlainIndent →
    s.inlineRawText? (bodyLines content) = none → IsSharedMargin (bodyLines content) w →
    ∃ inner, s.lines n (.rawText name attributes content :: ks) =
        [s.line n.depth (openTag name attributes false)] ++ inner ++
          [s.line n.depth (closeTag name)] ++ s.lines n ks ∧
      List.Forall₂ (s.Reindents n.depth (· = w)) (bodyLines content) inner := by
  intro h
  have hbody : bodyLines "\n\ta\n    b\n".toList = ["\ta".toList, "    b".toList] := by decide
  have hw : IsSharedMargin (bodyLines "\n\ta\n    b\n".toList) [] := by
    rw [hbody]
    refine ⟨blanks_nil, fun l _ _ => List.nil_prefix, fun u _ hu => ?_⟩
    have htab := hu "\ta".toList (by decide) (by decide)
    have hspaces := hu "    b".toList (by decide) (by decide)
    cases u with
    | nil => rfl
    | cons c u =>
        have htab := (List.cons_prefix_cons.1 htab).1
        have hspaces := (List.cons_prefix_cons.1 hspaces).1
        exact absurd (htab.symm.trans hspaces) (by decide)
  have hblock : Style.inlineRawText? ⟨[' ', ' '], 60⟩ (bodyLines "\n\ta\n    b\n".toList) = none := by
    rw [hbody]
    rfl
  obtain ⟨inner, hlines, hinner⟩ := h ⟨[' ', ' '], 60⟩ {} "script".toList [] _ [] []
    (by simp [Style.PlainIndent]) hblock hw
  rw [lines_rawText hblock, List.append_cancel_right_eq, List.append_cancel_right_eq,
    List.append_cancel_left_eq] at hlines
  subst hlines
  rw [forall₂_innerLines_iff hw (ne_nil_of_block hblock), hbody] at hinner
  revert hinner
  decide

end CodeReference.Markup
