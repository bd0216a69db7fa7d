import Mathlib
import CodeReference.Proofs.Direction

/-!
Laying out lines of a document. The document is cut before the first of these lines and before what
ends the last of them, and only what is between the cuts is replaced.
-/
namespace CodeReference

/-! ## Lines in a text -/

namespace Text

variable {t above above' content content' below below' part : Text} {first last : Nat}

/-- What is below a part of a text begins with what ends the last line of the part: a line feed, with
the carriage return before it if there is one, or at the end of the text a carriage return or
nothing. -/
inductive EndsLine : (part below : Text) → Prop
  | feed {part : Text} (rest : Text) (h : part.getLast? ≠ some '\r') : EndsLine part ('\n' :: rest)
  | returnFeed (part rest : Text) : EndsLine part ('\r' :: '\n' :: rest)
  | finalReturn (part : Text) : EndsLine part ['\r']
  | final {part : Text} (h : part.getLast? ≠ some '\r') : EndsLine part []

/-- Lines `first` to `last` of a text, counted from zero, without what ends the last of them, the
whole lines above and what is below. -/
structure IsLineRange (t : Text) (first last : Nat) (above part below : Text) : Prop where
  text : t = above ++ part ++ below
  above_lines : above.count '\n' = first
  above_ends : ∀ c ∈ above.getLast?, c = '\n'
  part_lines : first + part.count '\n' = last
  ends : EndsLine part below

theorem ends_of_append {u v : Text} (h : ∀ c ∈ (v ++ u).getLast?, c = '\n') :
    ∀ c ∈ u.getLast?, c = '\n' := by
  intro c hc
  refine h c ?_
  rw [List.getLast?_append, hc]
  rfl

theorem unbroken_of_count {u v : Text} (h : (v ++ u).count '\n' = v.count '\n') : '\n' ∉ u := by
  rw [List.count_append] at h
  exact List.count_eq_zero.1 (by omega)

theorem eq_nil_of_ends {u : Text} (hends : ∀ c ∈ u.getLast?, c = '\n') (hu : '\n' ∉ u) :
    u = [] := by
  cases hlast : u.getLast? with
  | none => exact List.getLast?_eq_none_iff.1 hlast
  | some c =>
      obtain rfl := hends c hlast
      exact absurd (List.mem_of_getLast? hlast) hu

/-- What ends a line does not become longer or shorter by characters of the line. -/
theorem EndsLine.eq_nil {u : Text} (h : EndsLine part (u ++ below))
    (h' : EndsLine (part ++ u) below) (hu : '\n' ∉ u) : u = [] := by
  have hlast : ∀ {v : Text}, (v ++ ['\r']).getLast? = some '\r' := List.getLast?_concat
  cases u with
  | nil => rfl
  | cons c u =>
      rw [List.cons_append] at h
      generalize hrest : u ++ below = rest at h
      cases h with
      | feed => exact absurd (.head u) hu
      | returnFeed rest =>
          cases u with
          | nil =>
              rw [List.nil_append] at hrest
              subst hrest
              cases h' with
              | feed _ h => exact absurd hlast h
          | cons d u =>
              obtain ⟨rfl, -⟩ := List.cons.inj hrest
              exact absurd (.tail _ (.head u)) hu
      | finalReturn =>
          obtain ⟨rfl, rfl⟩ := List.append_eq_nil_iff.1 hrest
          cases h' with
          | final h => exact absurd hlast h

/-- A text has only one cut into these lines, what is above and what is below. -/
theorem IsLineRange.unique (h : IsLineRange t first last above part below)
    (h' : IsLineRange t first last above' content below') :
    above = above' ∧ part = content ∧ below = below' := by
  have hpart := h.part_lines.trans h'.part_lines.symm
  have habove := h.above_lines.trans h'.above_lines.symm
  have htext := h.text.symm.trans h'.text
  rw [List.append_assoc, List.append_assoc] at htext
  obtain rfl : above = above' := by
    rcases List.append_eq_append_iff.1 htext with ⟨u, rfl, -⟩ | ⟨u, rfl, -⟩
    · obtain rfl := eq_nil_of_ends (ends_of_append h'.above_ends) (unbroken_of_count habove.symm)
      exact (List.append_nil _).symm
    · obtain rfl := eq_nil_of_ends (ends_of_append h.above_ends) (unbroken_of_count habove)
      exact List.append_nil _
  have hcount := Nat.add_left_cancel hpart
  have hrest := List.append_cancel_left htext
  rcases List.append_eq_append_iff.1 hrest with ⟨u, rfl, rfl⟩ | ⟨u, rfl, rfl⟩
  · obtain rfl := h.ends.eq_nil h'.ends (unbroken_of_count hcount.symm)
    exact ⟨rfl, (List.append_nil _).symm, rfl⟩
  · obtain rfl := h'.ends.eq_nil h.ends (unbroken_of_count hcount)
    exact ⟨rfl, List.append_nil _, rfl⟩

theorem IsLine.exists_between (hfirst : IsLine t first above content below)
    (hlast : IsLine t last above' content' below') (h : above.length ≤ above'.length) :
    ∃ between, above' = above ++ between ∧ ∀ c ∈ between.getLast?, c = '\n' := by
  have habove : above <+: t := by
    rw [hfirst.text, List.append_assoc]
    exact List.prefix_append _ _
  have habove' : above' <+: t := by
    rw [hlast.text, List.append_assoc]
    exact List.prefix_append _ _
  obtain ⟨between, rfl⟩ := List.prefix_of_prefix_length_le habove habove' h
  exact ⟨between, rfl, ends_of_append hlast.above_ends⟩

/-- The rest of a line begins with what ends it. -/
theorem IsLine.endsLine (h : IsLine t last above content below) {between : Text}
    (hbetween : ∀ c ∈ between.getLast?, c = '\n') :
    ∃ ending, content = dropReturn content ++ ending ∧
      EndsLine (between ++ dropReturn content) (ending ++ below) := by
  by_cases hreturn : content.getLast? = some '\r'
  · refine ⟨['\r'], ?_, ?_⟩
    · rw [dropReturn, if_pos hreturn, List.dropLast_append_getLast? '\r' hreturn]
    · cases below with
      | nil => exact .finalReturn _
      | cons c rest =>
          obtain rfl := h.below_begins c rfl
          exact .returnFeed _ rest
  · have hpart : (between ++ dropReturn content).getLast? ≠ some '\r' := by
      rw [dropReturn, if_neg hreturn, List.getLast?_append]
      intro hlast
      rcases Option.or_eq_some_iff.1 hlast with hlast | ⟨-, hlast⟩
      · exact hreturn hlast
      · exact absurd (hbetween _ hlast) (by decide)
    refine ⟨[], by rw [dropReturn, if_neg hreturn, List.append_nil], ?_⟩
    cases below with
    | nil => exact .final hpart
    | cons c rest =>
        obtain rfl := h.below_begins c rfl
        exact .feed rest hpart

theorem exists_isLineRange (hle : first ≤ last) (hlt : last < t.lineCount) :
    ∃ above part below, IsLineRange t first last above part below ∧
      t.offsetAt ⟨first, 0⟩ = .ok above.length ∧
      t.offsetAt ⟨last, t.lineLength last⟩ = .ok (above ++ part).length := by
  obtain ⟨above, content, below, hfirst⟩ := exists_isLine (hle.trans_lt hlt)
  obtain ⟨above', content', below', hlast⟩ := exists_isLine hlt
  have hstart : t.offsetIn ⟨first, 0⟩ = above.length := by
    rw [offsetIn, hfirst.lineStart_eq, Nat.zero_min, Nat.add_zero]
  have hlength : above.length ≤ above'.length := by
    have hmono := offsetIn_mono (t := t) (p := ⟨first, 0⟩) (q := ⟨last, 0⟩) (hle.trans_lt hlt) hlt
      (Position.le_iff.2 (hle.lt_or_eq.imp_right fun heq => ⟨heq, le_rfl⟩))
    rwa [hstart, offsetIn, hlast.lineStart_eq, Nat.zero_min, Nat.add_zero] at hmono
  obtain ⟨between, rfl, hbetween⟩ := hfirst.exists_between hlast hlength
  obtain ⟨ending, hcontent, hends⟩ := hlast.endsLine hbetween
  refine ⟨above, between ++ dropReturn content', ending ++ below', ⟨?_, hfirst.number,
    hfirst.above_ends, ?_, hends⟩, ?_, ?_⟩
  · conv_lhs => rw [hlast.text, hcontent]
    simp only [List.append_assoc]
  · have hnumber := hlast.number
    have hnone : (dropReturn content').count '\n' = 0 :=
      List.count_eq_zero.2 fun hmem => hlast.unbroken ((dropReturn_isPrefix content').subset hmem)
    rw [List.count_append, hfirst.number] at hnumber
    rw [List.count_append, hnone, Nat.add_zero, hnumber]
  · rw [offsetAt_of_lt (hle.trans_lt hlt), hstart]
  · rw [offsetAt_of_lt hlt, offsetIn, hlast.lineStart_eq, hlast.lineLength_eq, min_self]
    simp only [List.length_append, Nat.add_assoc]

end Text

/-! ## Laying out lines -/

namespace Markup.Style

variable {s : Style} {document : Text} {first? last? : Option Nat}

theorem formatLines_of_reversed
    (h : last?.getD document.lineCount - 1 < first?.getD 1 - 1) :
    s.formatLines document first? last? = .error .reversed := by
  rw [formatLines, lineOffsets, if_pos h]
  rfl

theorem formatLines_of_beyond (hle : first?.getD 1 - 1 ≤ last?.getD document.lineCount - 1)
    (h : document.lineCount ≤ first?.getD 1 - 1) :
    s.formatLines document first? last? =
      .error (.place (.lineOutOfRange (first?.getD 1 - 1) document.lineCount)) := by
  rw [formatLines, lineOffsets, if_neg (not_lt.2 hle)]
  dsimp only
  rw [Text.offsetAt_of_le h]
  rfl

theorem formatLines_of_lt (hle : first?.getD 1 - 1 ≤ last?.getD document.lineCount - 1)
    (h : first?.getD 1 - 1 < document.lineCount) :
    ∃ above part below, document.IsLineRange (first?.getD 1 - 1)
        (min (last?.getD document.lineCount - 1) (document.lineCount - 1)) above part below ∧
      s.formatLines document first? last? =
        .ok (s.replace document above.length (above ++ part).length) := by
  obtain ⟨above, part, below, hrange, hstart, hstop⟩ := Text.exists_isLineRange
    (t := document) (le_min hle (Nat.le_sub_one_of_lt h)) (by omega)
  refine ⟨above, part, below, hrange, ?_⟩
  rw [formatLines, lineOffsets, if_neg (not_lt.2 hle)]
  dsimp only
  rw [hstart, hstop]
  rfl

theorem apply_replace {above part below : Text} (h : document = above ++ part ++ below) :
    (s.replace document above.length (above ++ part).length).apply document =
      above ++ s.format part ++ below := by
  have hpart : (document.take (above ++ part).length).drop above.length = part := by
    rw [h, List.take_left, List.drop_left]
  have habove : document.take above.length = above := by
    rw [h, List.append_assoc, List.take_left]
  have hbelow : document.drop (above ++ part).length = below := by
    rw [h, List.drop_left]
  rw [replace, hpart, Replacement.apply, habove, hbelow]

end Markup.Style
end CodeReference
