import Mathlib
import CodeReference.Markup.Layout
import CodeReference.Proofs.Text.Split
import CodeReference.Proofs.Markup.Closing

/-!
The content of raw text elements, line by line. Laying it out changes blanks at the ends of its lines
and blank lines at its ends, so it holds the same trimmed lines and is laid out the same way again.
-/
namespace CodeReference.Markup
open Text

variable {s a b : Style} {depth : Nat} {name attributes content t : Text} {ls : List Text}

/-! ## Indentation -/

/-- Levels of nesting are indented by spaces and tabs. -/
def Style.PlainIndent (s : Style) : Prop := ∀ c ∈ s.indent, c = ' ' ∨ c = '\t'

instance (s : Style) : Decidable s.PlainIndent :=
  inferInstanceAs (Decidable (∀ c ∈ s.indent, c = ' ' ∨ c = '\t'))

theorem Style.PlainIndent.indentation (hs : s.PlainIndent) :
    ∀ c ∈ s.indentation depth, c = ' ' ∨ c = '\t' := by
  intro c hc
  simp only [Style.indentation, times, List.mem_flatten, List.mem_replicate] at hc
  obtain ⟨u, ⟨-, rfl⟩, hc⟩ := hc
  exact hs c hc

theorem Style.PlainIndent.blanks (hs : s.PlainIndent) : Blanks (s.indentation depth) := by
  intro c hc
  rcases hs.indentation c hc with rfl | rfl <;> decide

theorem Style.PlainIndent.not_mem (hs : s.PlainIndent) {c : Char} (hspace : c ≠ ' ')
    (htab : c ≠ '\t') : c ∉ s.indentation depth := fun hc =>
  (hs.indentation c hc).elim hspace htab

/-! ## Blank lines at the ends -/

/-- The lines of the content of a raw text element, without the blank ones at its ends. -/
def bodyLines (content : Text) : List Text := dropBlankMargin (splitOn '\n' content)

theorem dropBlankMargin_eq_trimBy (ls : List Text) : dropBlankMargin ls = trimBy isBlankLine ls := rfl

theorem trimmedBy_bodyLines (content : Text) : TrimmedBy isBlankLine (bodyLines content) :=
  trimmedBy_trimBy isBlankLine _

theorem not_mem_of_mem_bodyLines {l : Text} (h : l ∈ bodyLines content) : '\n' ∉ l := by
  obtain ⟨x, y, -, -, heq⟩ := exists_trimBy isBlankLine (splitOn '\n' content)
  refine not_mem_of_mem_splitOn (t := content) ?_
  rw [heq]
  simp only [List.mem_append]
  exact .inl (.inr h)

/-- A block of lines between line breaks is its own body. -/
theorem bodyLines_block (hls : ∀ l ∈ ls, '\n' ∉ l) (htrim : TrimmedBy isBlankLine ls)
    (ht : Blanks t) (hbreak : '\n' ∉ t) : bodyLines ('\n' :: join ['\n'] (ls ++ [t])) = ls := by
  have hsplit : splitOn '\n' ('\n' :: join ['\n'] (ls ++ [t])) = [[]] ++ ls ++ [t] := by
    have hall : ∀ l ∈ ls ++ [t], '\n' ∉ l := List.forall_mem_append.2 ⟨hls, by simpa using hbreak⟩
    rw [splitOn, if_pos rfl, splitOn_join (by simp) hall]
    rfl
  rw [bodyLines, dropBlankMargin_eq_trimBy]
  exact trimBy_eq_of_eq (by simp [isBlankLine]) (by simpa [isBlankLine_iff] using ht) htrim hsplit

theorem bodyLines_single (hbreak : '\n' ∉ t) (hblank : ¬ Blanks t) : bodyLines t = [t] := by
  have hnot : isBlankLine t = false := by
    rw [← Bool.not_eq_true, isBlankLine_iff]
    exact hblank
  rw [bodyLines, splitOn_of_not_mem hbreak, dropBlankMargin_eq_trimBy]
  exact trimBy_of_trimmedBy ⟨by simpa using hnot, by simpa using hnot⟩

/-! ## The lines of a block -/

namespace Style

/-- The line of a block that a line of the body becomes, where all lines lose `common` blanks. -/
def innerLine (s : Style) (depth common : Nat) (l : Text) : Text :=
  if isBlankLine l then [] else s.line (depth + 1) (dropEndWhile (· == '\r') (l.drop common))

def innerLines (s : Style) (depth : Nat) (ls : List Text) : List Text :=
  ls.map (s.innerLine depth (commonIndent ls))

end Style

theorem isBlankLine_eq_false_iff : isBlankLine t = false ↔ ¬ Blanks t := by
  rw [← Bool.not_eq_true, isBlankLine_iff]

theorem blanks_take_of_le {n : Nat} {l : Text} (h : n ≤ leadingBlanks l) : Blanks (l.take n) := by
  have hfront : l.take n <+: l.takeWhile isBlank :=
    List.prefix_of_prefix_length_le (List.take_prefix n l) (List.takeWhile_prefix isBlank)
      ((List.length_take_le n l).trans h)
  exact fun c hc => List.mem_takeWhile_imp (hfront.subset hc)

theorem leadingBlanks_append (ht : Blanks t) (u : Text) :
    leadingBlanks (t ++ u) = t.length + leadingBlanks u := by
  rw [leadingBlanks, leadingBlanks, List.takeWhile_append_of_pos ht, List.length_append]

theorem leadingBlanks_append_of_not_blanks (ht : ¬ Blanks t) (u : Text) :
    leadingBlanks (t ++ u) = leadingBlanks t := by
  rw [leadingBlanks, List.takeWhile_append, if_neg]
  · rfl
  · intro hlength
    refine ht fun c hc => List.mem_takeWhile_imp (p := isBlank) (l := t) ?_
    rwa [(List.takeWhile_prefix isBlank).eq_of_length hlength]

theorem leadingBlanks_drop {n : Nat} {l : Text} (h : n ≤ leadingBlanks l) :
    leadingBlanks (l.drop n) = leadingBlanks l - n := by
  have hsplit := leadingBlanks_append (blanks_take_of_le h) (l.drop n)
  have hlength : n ≤ l.length := h.trans (List.takeWhile_prefix isBlank).length_le
  rw [List.take_append_drop, List.length_take_of_le hlength] at hsplit
  omega

theorem trim_drop {n : Nat} {l : Text} (h : n ≤ leadingBlanks l) :
    Text.trim (l.drop n) = Text.trim l := by
  conv_rhs => rw [← List.take_append_drop n l]
  rw [trim_append_left (blanks_take_of_le h)]

theorem exists_dropReturns (l : Text) :
    ∃ r, Blanks r ∧ l = dropEndWhile (· == '\r') l ++ r := by
  refine ⟨l.rtakeWhile (· == '\r'), fun c hc => ?_, ?_⟩
  · obtain rfl : c = '\r' := by simpa using List.mem_rtakeWhile_imp hc
    decide
  · rw [dropEndWhile_eq_rdropWhile, List.rdropWhile_append_rtakeWhile]

theorem trim_dropReturns (l : Text) : Text.trim (dropEndWhile (· == '\r') l) = Text.trim l := by
  obtain ⟨r, hr, heq⟩ := exists_dropReturns l
  conv_rhs => rw [heq]
  rw [trim_append_right hr]

theorem leadingBlanks_dropReturns {l : Text} (hl : ¬ Blanks l) :
    leadingBlanks (dropEndWhile (· == '\r') l) = leadingBlanks l := by
  obtain ⟨r, hr, heq⟩ := exists_dropReturns l
  have hnot : ¬ Blanks (dropEndWhile (· == '\r') l) := by
    rw [← trim_eq_nil_iff, trim_dropReturns, trim_eq_nil_iff]
    exact hl
  conv_rhs => rw [heq]
  rw [leadingBlanks_append_of_not_blanks hnot]

/-! ## Common indentation -/

theorem commonIndent_le {l : Text} (hl : l ∈ ls) (hblank : isBlankLine l = false) :
    commonIndent ls ≤ leadingBlanks l :=
  List.min?_getD_le_of_mem (List.mem_map_of_mem (List.mem_filter.2 ⟨hl, by simp [hblank]⟩))

theorem exists_commonIndent {l : Text} (hl : l ∈ ls) (hblank : isBlankLine l = false) :
    ∃ m ∈ ls, isBlankLine m = false ∧ commonIndent ls = leadingBlanks m := by
  have hmem : leadingBlanks l ∈ (ls.filter fun l => !isBlankLine l).map leadingBlanks :=
    List.mem_map_of_mem (List.mem_filter.2 ⟨hl, by simp [hblank]⟩)
  obtain ⟨n, hn⟩ := Option.isSome_iff_exists.1 (List.isSome_min?_of_mem hmem)
  obtain ⟨m, hm, heq⟩ := List.mem_map.1 (List.min?_mem hn)
  obtain ⟨hm, hnot⟩ := List.mem_filter.1 hm
  exact ⟨m, hm, by simpa using hnot, by rw [commonIndent, hn, heq]; rfl⟩

/-! ## Lines of a block -/

section
variable {common : Nat} {l : Text}

theorem innerLine_of_blank (h : isBlankLine l = true) : s.innerLine depth common l = [] := if_pos h

theorem innerLine_of_not_blank (h : isBlankLine l = false) : s.innerLine depth common l =
    s.indentation (depth + 1) ++ dropEndWhile (· == '\r') (l.drop common) :=
  if_neg (by simp [h])

theorem trim_innerLine (hs : s.PlainIndent) (hc : isBlankLine l = false → common ≤ leadingBlanks l) :
    Text.trim (s.innerLine depth common l) = Text.trim l := by
  cases hblank : isBlankLine l with
  | true =>
      rw [innerLine_of_blank hblank, trim_of_blanks blanks_nil,
        trim_of_blanks (isBlankLine_iff.1 hblank)]
  | false =>
      rw [innerLine_of_not_blank hblank, trim_append_left hs.blanks, trim_dropReturns,
        trim_drop (hc hblank)]

theorem isBlankLine_innerLine (hs : s.PlainIndent)
    (hc : isBlankLine l = false → common ≤ leadingBlanks l) :
    isBlankLine (s.innerLine depth common l) = isBlankLine l := by
  rw [Bool.eq_iff_iff, isBlankLine_iff, isBlankLine_iff, ← trim_eq_nil_iff, trim_innerLine hs hc,
    trim_eq_nil_iff]

theorem leadingBlanks_innerLine (hs : s.PlainIndent) (hblank : isBlankLine l = false)
    (hc : common ≤ leadingBlanks l) : leadingBlanks (s.innerLine depth common l) =
      (s.indentation (depth + 1)).length + (leadingBlanks l - common) := by
  have hnot : ¬ Blanks (l.drop common) := by
    rw [← trim_eq_nil_iff, trim_drop hc, trim_eq_nil_iff, ← isBlankLine_eq_false_iff]
    exact hblank
  rw [innerLine_of_not_blank hblank, leadingBlanks_append hs.blanks,
    leadingBlanks_dropReturns hnot, leadingBlanks_drop hc]

/-- The indentation that a block was given is what its lines share. -/
theorem commonIndent_innerLines (hs : s.PlainIndent) (hl : l ∈ ls) (hblank : isBlankLine l = false) :
    commonIndent (s.innerLines depth ls) = (s.indentation (depth + 1)).length := by
  have hc : ∀ m ∈ ls, isBlankLine m = false → commonIndent ls ≤ leadingBlanks m :=
    fun m hm => commonIndent_le hm
  obtain ⟨m, hm, hmblank, hmin⟩ := exists_commonIndent hl hblank
  have hinner : ∀ {m}, m ∈ ls → s.innerLine depth (commonIndent ls) m ∈ s.innerLines depth ls :=
    fun hm => List.mem_map_of_mem hm
  have hmblank' : isBlankLine (s.innerLine depth (commonIndent ls) m) = false :=
    (isBlankLine_innerLine hs (hc m hm)).trans hmblank
  refine Nat.le_antisymm ?_ ?_
  · have hle := commonIndent_le (hinner hm) hmblank'
    rwa [leadingBlanks_innerLine hs hmblank (hc m hm hmblank), hmin, Nat.sub_self, Nat.add_zero]
      at hle
  · obtain ⟨m', hm', hm'blank, hmin'⟩ := exists_commonIndent (hinner hm) hmblank'
    obtain ⟨k, hk, rfl⟩ := List.mem_map.1 hm'
    rw [isBlankLine_innerLine hs (hc k hk)] at hm'blank
    rw [hmin', leadingBlanks_innerLine hs hm'blank (hc k hk hm'blank)]
    exact Nat.le_add_right _ _

/-- A block is laid out again as the lines it was made of. -/
theorem innerLines_innerLines (ha : a.PlainIndent) :
    b.innerLines depth (a.innerLines depth ls) = b.innerLines depth ls := by
  rw [Style.innerLines, Style.innerLines, Style.innerLines, List.map_map]
  refine List.map_congr_left fun l hl => ?_
  have hc : isBlankLine l = false → commonIndent ls ≤ leadingBlanks l := commonIndent_le hl
  rw [Function.comp_apply, ← Style.innerLines]
  have hinner : isBlankLine (a.innerLine depth (commonIndent ls) l) = isBlankLine l :=
    isBlankLine_innerLine ha hc
  cases hblank : isBlankLine l with
  | true => rw [innerLine_of_blank (hinner.trans hblank), innerLine_of_blank hblank]
  | false =>
      rw [commonIndent_innerLines ha hl hblank, innerLine_of_not_blank (hinner.trans hblank),
        innerLine_of_not_blank hblank, innerLine_of_not_blank hblank, List.drop_left,
        dropEndWhile_eq_rdropWhile, dropEndWhile_eq_rdropWhile, List.rdropWhile_idempotent]

theorem trimmedBy_innerLines (hs : s.PlainIndent) (h : TrimmedBy isBlankLine ls) :
    TrimmedBy isBlankLine (s.innerLines depth ls) := by
  have hc : ∀ l ∈ ls, isBlankLine l = false → commonIndent ls ≤ leadingBlanks l :=
    fun l hl => commonIndent_le hl
  refine ⟨fun m hm => ?_, fun m hm => ?_⟩
  · rw [Style.innerLines, List.head?_map, Option.mem_map] at hm
    obtain ⟨l, hl, rfl⟩ := hm
    rw [isBlankLine_innerLine hs (hc l (List.mem_of_mem_head? hl)), h.1 l hl]
  · rw [Style.innerLines, List.getLast?_map, Option.mem_map] at hm
    obtain ⟨l, hl, rfl⟩ := hm
    rw [isBlankLine_innerLine hs (hc l (List.mem_of_getLast? hl)), h.2 l hl]

theorem not_mem_of_mem_innerLines (hs : s.PlainIndent) (h : ∀ l ∈ ls, '\n' ∉ l) :
    ∀ m ∈ s.innerLines depth ls, '\n' ∉ m := by
  intro m hm
  obtain ⟨l, hl, rfl⟩ := List.mem_map.1 hm
  cases hblank : isBlankLine l with
  | true => simp [innerLine_of_blank hblank]
  | false =>
    rw [innerLine_of_not_blank hblank, List.mem_append, not_or]
    refine ⟨hs.not_mem (by decide) (by decide), fun hmem => h l hl ?_⟩
    rw [dropEndWhile_eq_rdropWhile] at hmem
    exact (List.drop_suffix _ l).subset ((List.rdropWhile_prefix _ _).subset hmem)

end

/-! ## Content laid out -/

namespace Style

/-- The content that stays in the line of its tags. -/
def inlineRawText? (s : Style) : (body : List Text) → Option Text
  | [] => some []
  | [single] =>
    if (Text.trim single).length < s.inlineLimit then some (Text.trim single) else none
  | _ => none

def relaidContent (s : Style) (depth : Nat) (content : Text) : Text :=
  match s.inlineRawText? (bodyLines content) with
  | some t => t
  | none => '\n' :: join ['\n'] (s.innerLines depth (bodyLines content) ++ [s.indentation depth])

end Style

theorem rawTextLines_of_inline (h : s.inlineRawText? (bodyLines content) = some t) :
    s.rawTextLines depth name attributes content =
      [s.line depth (openTag name attributes false ++ t ++ closeTag name)] := by
  rw [Style.rawTextLines, ← bodyLines]
  dsimp only
  match hbody : bodyLines content with
  | [] =>
      rw [hbody] at h
      cases h
      rw [List.append_nil]
  | [single] =>
      rw [hbody, Style.inlineRawText?, Option.ite_none_right_eq_some] at h
      obtain ⟨hlength, heq⟩ := h
      cases heq
      exact if_pos hlength
  | _ :: _ :: _ =>
      rw [hbody] at h
      cases h

theorem rawTextLines_of_block (h : s.inlineRawText? (bodyLines content) = none) :
    s.rawTextLines depth name attributes content =
      [s.line depth (openTag name attributes false)] ++ s.innerLines depth (bodyLines content) ++
        [s.line depth (closeTag name)] := by
  rw [Style.rawTextLines, ← bodyLines]
  dsimp only
  match hbody : bodyLines content with
  | [] =>
      rw [hbody] at h
      cases h
  | [single] =>
      rw [hbody, Style.inlineRawText?] at h
      split at h
      · cases h
      · rename_i hlength
        exact if_neg hlength
  | _ :: _ :: _ => rfl

theorem map_trim_innerLines (hs : s.PlainIndent) :
    (s.innerLines depth ls).map Text.trim = ls.map Text.trim := by
  rw [Style.innerLines, List.map_map]
  exact List.map_congr_left fun l hl => trim_innerLine hs (commonIndent_le hl)

theorem bodyLines_relaidContent_of_block (hs : s.PlainIndent)
    (h : s.inlineRawText? (bodyLines content) = none) :
    bodyLines (s.relaidContent depth content) = s.innerLines depth (bodyLines content) := by
  rw [Style.relaidContent, h]
  exact bodyLines_block (not_mem_of_mem_innerLines hs fun l => not_mem_of_mem_bodyLines)
    (trimmedBy_innerLines hs (trimmedBy_bodyLines content)) hs.blanks
    (hs.not_mem (by decide) (by decide))

theorem bodyLines_of_inline (h : s.inlineRawText? (bodyLines content) = some t) :
    bodyLines t = (bodyLines content).map Text.trim := by
  have htrim := trimmedBy_bodyLines content
  have hbreak : ∀ l ∈ bodyLines content, '\n' ∉ l := fun l => not_mem_of_mem_bodyLines
  match hbody : bodyLines content with
  | [] =>
      rw [hbody] at h
      cases h
      rfl
  | [single] =>
      rw [hbody] at h htrim hbreak
      rw [Style.inlineRawText?, Option.ite_none_right_eq_some] at h
      cases h.2
      obtain ⟨x, y, -, -, heq⟩ := exists_trim single
      refine bodyLines_single (fun hmem => hbreak single (by simp) ?_) ?_
      · rw [heq]
        simp [hmem]
      · rw [← trim_eq_nil_iff, trim_trim, trim_eq_nil_iff, ← isBlankLine_eq_false_iff]
        exact htrim.1 single rfl
  | _ :: _ :: _ =>
      rw [hbody] at h
      cases h

theorem map_trim_bodyLines_relaidContent (hs : s.PlainIndent) :
    (bodyLines (s.relaidContent depth content)).map Text.trim =
      (bodyLines content).map Text.trim := by
  cases h : s.inlineRawText? (bodyLines content) with
  | some t =>
      rw [Style.relaidContent, h]
      dsimp only
      rw [bodyLines_of_inline h, List.map_map]
      exact List.map_congr_left fun l _ => trim_trim l
  | none => rw [bodyLines_relaidContent_of_block hs h, map_trim_innerLines hs]

theorem inlineRawText?_congr {ms : List Text} (hlimit : a.inlineLimit = b.inlineLimit)
    (h : ls.map Text.trim = ms.map Text.trim) : a.inlineRawText? ls = b.inlineRawText? ms := by
  match ls, ms, h with
  | [], [], _ => rfl
  | [l], [m], h =>
      rw [List.map_singleton, List.map_singleton, List.cons.injEq] at h
      rw [Style.inlineRawText?, Style.inlineRawText?, h.1, hlimit]
  | _ :: _ :: _, _ :: _ :: _, _ => rfl
  | [_], _ :: _ :: _, h | _ :: _ :: _, [_], h => simp at h

/-- Content that was laid out is laid out as before, whatever its indentation was. -/
theorem rawTextLines_relaidContent (ha : a.PlainIndent) (hlimit : a.inlineLimit = b.inlineLimit) :
    b.rawTextLines depth name attributes (a.relaidContent depth content) =
      b.rawTextLines depth name attributes content := by
  have hagain : b.inlineRawText? (bodyLines (a.relaidContent depth content)) =
      b.inlineRawText? (bodyLines content) :=
    inlineRawText?_congr rfl (map_trim_bodyLines_relaidContent ha)
  cases h : b.inlineRawText? (bodyLines content) with
  | some t => rw [rawTextLines_of_inline (hagain.trans h), rawTextLines_of_inline h]
  | none =>
      have hblock := (inlineRawText?_congr hlimit rfl).trans h
      rw [rawTextLines_of_block (hagain.trans h), rawTextLines_of_block h,
        bodyLines_relaidContent_of_block ha hblock, innerLines_innerLines ha]

theorem join_append_singleton (ls : List Text) (t u : Text) :
    join ['\n'] (ls ++ [t ++ u]) = join ['\n'] (ls ++ [t]) ++ u := by
  induction ls with
  | nil => rfl
  | cons l ls ih =>
      cases ls with
      | nil => simp [join]
      | cons m ls => simp_all [join]

/-- The lines of a raw text element are its tags around its content as laid out. -/
theorem join_rawTextLines : join ['\n'] (s.rawTextLines depth name attributes content) =
    s.indentation depth ++
      (openTag name attributes false ++ s.relaidContent depth content ++ closeTag name) := by
  rw [Style.relaidContent]
  cases h : s.inlineRawText? (bodyLines content) with
  | some t => rw [rawTextLines_of_inline h]; rfl
  | none =>
      rw [rawTextLines_of_block h, Style.line, Style.line, List.append_assoc, List.singleton_append,
        join_eq, List.intercalate_cons_of_ne_nil (by simp), ← join_eq, join_append_singleton]
      simp

/-! ## Trimmed lines -/

def strippedLines (t : Text) : List Text := ((splitOn '\n' t).map Text.trim).filter (· ≠ [])

theorem strippedLines_eq (t : Text) :
    strippedLines t = ((bodyLines t).map Text.trim).filter (· ≠ []) := by
  have hnone : ∀ {ls : List Text}, (∀ l ∈ ls, isBlankLine l = true) →
      (ls.map Text.trim).filter (· ≠ []) = [] := by
    intro ls h
    simp only [List.filter_eq_nil_iff, List.forall_mem_map, decide_eq_true_eq, not_not]
    exact fun l hl => trim_eq_nil_iff.2 (isBlankLine_iff.1 (h l hl))
  obtain ⟨x, y, hx, hy, heq⟩ := exists_trimBy isBlankLine (splitOn '\n' t)
  rw [strippedLines, heq, ← dropBlankMargin_eq_trimBy, ← bodyLines]
  simp only [List.map_append, List.filter_append, hnone hx, hnone hy, List.nil_append,
    List.append_nil]

theorem strippedLines_relaidContent (hs : s.PlainIndent) :
    strippedLines (s.relaidContent depth content) = strippedLines content := by
  rw [strippedLines_eq, strippedLines_eq, map_trim_bodyLines_relaidContent hs]

theorem spaced_nil (t : Text) : spaced t [] = t := by
  unfold spaced
  split <;> simp_all

/-- Blanks apart, a text is its trimmed lines. -/
theorem normalizeAttributes_eq_foldr (t : Text) :
    normalizeAttributes t = ((strippedLines t).map normalizeAttributes).foldr spaced [] := by
  have hlines : ∀ {ls : List Text}, ls ≠ [] →
      normalizeAttributes (join ['\n'] ls) = (ls.map normalizeAttributes).foldr spaced [] := by
    intro ls hne
    induction ls with
    | nil => exact absurd rfl hne
    | cons l ls ih =>
        cases ls with
        | nil => rw [join, List.map_singleton, List.foldr_cons, List.foldr_nil, spaced_nil]
        | cons m ls =>
            have hbreak : isBlank '\n' = true := by decide
            rw [join, List.append_assoc, List.singleton_append,
              normalizeAttributes_append_cons hbreak, ih (by simp)]
            rfl
  have hstrip : ∀ ls : List Text, (ls.map normalizeAttributes).foldr spaced [] =
      ((((ls.map Text.trim).filter (· ≠ [])).map normalizeAttributes).foldr spaced []) := by
    intro ls
    induction ls with
    | nil => rfl
    | cons l ls ih =>
        rw [List.map_cons, List.foldr_cons, ih, List.map_cons, ← normalizeAttributes_trim l]
        by_cases hnil : Text.trim l = []
        · rw [hnil, List.filter_cons_of_neg (by simp)]
          rfl
        · rw [List.filter_cons_of_pos (by simpa using hnil), List.map_cons, List.foldr_cons]
  conv_lhs => rw [← join_splitOn '\n' t]
  rw [hlines (splitOn_ne_nil _ _), hstrip, strippedLines]

theorem hasClosing_relaidContent (hn : ∀ c ∈ name, isNameChar c = true) (hs : s.PlainIndent) :
    HasClosing name (s.relaidContent depth content) ↔ HasClosing name content := by
  rw [← hasClosing_normalizeAttributes hn, ← hasClosing_normalizeAttributes hn (t := content),
    normalizeAttributes_eq_foldr, normalizeAttributes_eq_foldr content,
    strippedLines_relaidContent hs]

end CodeReference.Markup
