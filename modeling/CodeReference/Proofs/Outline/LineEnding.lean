import Mathlib
import CodeReference.Proofs.Coordinates
import CodeReference.Proofs.Outline.Names
import CodeReference.Proofs.Text.LineEnding

/-!
An outline does not depend on the line ending. The carriage returns before line feeds are dropped
from its lines, and they are blanks where a selected name is looked for.
-/
namespace CodeReference.Outline
open Text

variable {t : Text}

/-! ## Blocks -/

theorem lines_crlf (h : '\r' ∉ t) : lines t.crlf = lines t := by
  refine List.ext_getElem? fun line => ?_
  by_cases hline : line < t.lineCount
  · obtain ⟨above, content, below, hcut⟩ := exists_isLine hline
    have hcontent : '\r' ∉ content := hcut.not_mem_content h
    have hlast := hcut.below_eq_nil_iff
    rw [lines, lines, getElem?_dropReturns hcut.crlf.getElem?_splitOn,
      getElem?_dropReturns hcut.getElem?_splitOn, length_splitOn, length_splitOn, ← lineCount_eq,
      ← lineCount_eq, lineCount_crlf]
    by_cases hbelow : below = []
    · rw [if_pos hbelow]
    · rw [if_neg hbelow, if_neg (mt hlast.2 hbelow), if_neg (mt hlast.2 hbelow), dropReturn_concat,
        dropReturn_of_not_mem hcontent]
  · rw [List.getElem?_eq_none (by rw [length_lines, lineCount_crlf]; exact not_lt.1 hline),
      List.getElem?_eq_none (by rw [length_lines]; exact not_lt.1 hline)]

theorem blocks_crlf (h : '\r' ∉ t) (tabWidth : Int) : blocks tabWidth t.crlf = blocks tabWidth t := by
  rw [blocks, blocks, lines_crlf h]

/-! ## Normal forms of selections -/

theorem continues_crlf (t : Text) :
    (t.crlf.takeWhile isBlank).contains '\n' = (t.takeWhile isBlank).contains '\n' := by
  rw [takeWhile_crlf (by decide), Bool.eq_iff_iff, List.contains_iff_mem, List.contains_iff_mem,
    lineFeed_mem_crlf]

theorem joinContinued_crlf (joining : Bool) (t : Text) :
    joinContinued joining t.crlf = (joinContinued joining t).crlf := by
  induction t generalizing joining with
  | nil => cases joining <;> rfl
  | cons c t ih =>
      by_cases hc : c = '\n'
      · subst hc
        have hreturn : isBlank '\r' = true := by decide
        have hfeed : isBlank '\n' = true := by decide
        cases joining with
        | true => simp [joinContinued, hreturn, hfeed, ih]
        | false => simp [joinContinued, ih]
      · rw [crlf_cons_of_ne hc, joinContinued, joinContinued, continues_crlf, ih, ih]
        split
        · rfl
        · split
          · rfl
          · rw [crlf_cons_of_ne hc]

theorem dotFollows_crlf (t : Text) : startsWith (t.crlf.dropWhile isBlank) ['.'] =
    startsWith (t.dropWhile isBlank) ['.'] := by
  rw [dropWhile_crlf (by decide), startsWith_crlf (by decide) (by decide)]

theorem closeDots_crlf (afterDot : Bool) (t : Text) :
    closeDots afterDot t.crlf = (closeDots afterDot t).crlf := by
  induction t generalizing afterDot with
  | nil => cases afterDot <;> rfl
  | cons c t ih =>
      by_cases hc : c = '\n'
      · subst hc
        have hreturn : isBlank '\r' = true := by decide
        have hfeed : isBlank '\n' = true := by decide
        have hskip : ('\n' :: crlf t).dropWhile isBlank = (crlf t).dropWhile isBlank :=
          List.dropWhile_cons_of_pos hfeed
        simp only [crlf_cons_lineFeed, closeDots, hreturn, hfeed, if_true, hskip, dotFollows_crlf, ih]
        cases afterDot with
        | true => rfl
        | false => cases startsWith (t.dropWhile isBlank) ['.'] <;> rfl
      · rw [crlf_cons_of_ne hc, closeDots, closeDots, dotFollows_crlf, ih, ih, ih]
        split
        · split
          · rfl
          · rw [crlf_cons_of_ne hc]
        · rw [crlf_cons_of_ne hc]

theorem normalize_crlf (t : Text) : normalize t.crlf = (normalize t).crlf := by
  rw [normalize, joinContinued_crlf, closeDots_crlf, trim_crlf, normalize]

/-! ## Selected names -/

theorem isNameChain_crlf (startsName : Bool) (t : Text) :
    isNameChain startsName t.crlf = isNameChain startsName t := by
  by_cases h : '\n' ∈ t
  · have hnot : ∀ u, '\n' ∈ u → isNameChain startsName u = false := fun u hu =>
      Bool.eq_false_iff.2 fun hchain => (isDotted_of_isNameChain hchain).lineFeed_not_mem hu
    rw [hnot t h, hnot t.crlf (lineFeed_mem_crlf.2 h)]
  · rw [crlf_of_not_mem h]

theorem name?_crlf (t : Text) : name? t.crlf = (name? t).map (Prod.map id crlf) := by
  cases t with
  | nil => rfl
  | cons c t =>
      by_cases hc : c = '\n'
      · subst hc
        rfl
      · have hname : '\n' ∉ (c :: t).takeWhile isNameChar := fun hmem =>
          absurd (List.mem_takeWhile_imp hmem) (by decide)
        have htake : (crlf (c :: t)).takeWhile isNameChar = (c :: t).takeWhile isNameChar := by
          rw [takeWhile_crlf rfl, crlf_of_not_mem hname]
        have hdrop : (crlf (c :: t)).dropWhile isNameChar = crlf ((c :: t).dropWhile isNameChar) :=
          dropWhile_crlf rfl _
        rw [crlf_cons_of_ne hc] at htake hdrop ⊢
        rw [name?, name?, htake, hdrop]
        cases isNameStart c <;> rfl

theorem nameAfter?_crlf {keyword : Text} (hreturn : '\r' ∉ keyword) (hfeed : '\n' ∉ keyword)
    (t : Text) : nameAfter? keyword t.crlf = (nameAfter? keyword t).map (Prod.map id crlf) := by
  rw [nameAfter?, nameAfter?, dropPrefix?_crlf hreturn hfeed]
  cases dropPrefix? keyword t with
  | none => rfl
  | some u =>
      cases u with
      | nil => rfl
      | cons c u =>
          -- The blank after the keyword may be the line ending itself.
          by_cases hc : c = '\n'
          · subst hc
            have hblank : isAsciiBlank '\n' = true := by decide
            have hskip : ('\n' :: crlf u).dropWhile isAsciiBlank =
                (crlf u).dropWhile isAsciiBlank := List.dropWhile_cons_of_pos hblank
            simp only [Option.map_some, crlf_cons_lineFeed]
            rw [if_pos (by decide), if_pos hblank, hskip, dropWhile_crlf (by decide), name?_crlf]
          · simp only [Option.map_some, crlf_cons_of_ne hc]
            rw [dropWhile_crlf (by decide), name?_crlf]
            split <;> rfl

theorem className?_crlf (t : Text) : className? t.crlf = className? t := by
  rw [className?, nameAfter?_crlf (by decide) (by decide), Option.map_map, className?]
  rfl

theorem selectedName?_crlf (t : Text) : selectedName? t.crlf = selectedName? t := by
  have hempty : t.trim.crlf.isEmpty = t.trim.isEmpty := by
    rw [Bool.eq_iff_iff, List.isEmpty_iff, List.isEmpty_iff, crlf_eq_nil_iff]
  simp only [selectedName?, trim_crlf, hempty, normalize_crlf, isNameChain_crlf, className?_crlf]
  cases hchain : isNameChain true (normalize t.trim) with
  | true =>
      rw [crlf_of_not_mem (isDotted_of_isNameChain hchain).lineFeed_not_mem]
  | false => rfl

end CodeReference.Outline
