import Mathlib
import CodeReference.Proofs.Direction

/-!
From an offset to its position and back. Both ways keep the order. Each position comes back with its
character clamped to its line, and each offset comes back as it was, unless a carriage return that
ends a line stands before it: no position lies behind that carriage return.
-/
namespace CodeReference.Text

variable {t : Text} {o i j : Nat} {p : Position}

/-! ## The line of an offset -/

theorem exists_whole_lines (t : Text) :
    ∃ above front, t = above ++ front ∧ (∀ c ∈ above.getLast?, c = '\n') ∧ '\n' ∉ front := by
  refine ⟨t.rdropWhile (· != '\n'), t.rtakeWhile (· != '\n'),
    List.rdropWhile_append_rtakeWhile.symm, fun c hc => ?_,
    fun hmem => by simpa using List.mem_rtakeWhile_imp hmem⟩
  have hne : t.rdropWhile (· != '\n') ≠ [] := by
    intro hnil
    simp [hnil] at hc
  have hlast := List.rdropWhile_last_not _ _ hne
  rw [List.getLast_of_getLast?_eq_some hc] at hlast
  simpa using hlast

theorem lineAt_lt_lineCount (t : Text) (o : Nat) : t.lineAt o < t.lineCount := by
  rw [lineAt_eq_count, lineCount_eq, Nat.lt_succ_iff]
  exact (List.take_sublist _ _).count_le _

/-- An offset divides the content of its line into what is before it and what is behind it. -/
theorem exists_isLine_lineAt (h : o ≤ t.length) : ∃ above front back below,
    IsLine t (lineAt t o) above (front ++ back) below ∧ o = above.length + front.length := by
  obtain ⟨above, front, htake, habove, hfront⟩ := exists_whole_lines (t.take o)
  have hfirst := isLine_zero (t.drop o)
  generalize (t.drop o).takeWhile (· != '\n') = back at hfirst
  generalize (t.drop o).dropWhile (· != '\n') = below at hfirst
  refine ⟨above, front, back, below, ⟨?_, ?_, habove, ?_, hfirst.below_begins⟩, ?_⟩
  · have hdrop := hfirst.text
    rw [List.nil_append] at hdrop
    rw [← List.append_assoc, List.append_assoc, ← htake, ← hdrop, List.take_append_drop]
  · rw [lineAt_eq_count, htake, List.count_append, List.count_eq_zero.2 hfront, Nat.add_zero]
  · exact fun hmem => (List.mem_append.1 hmem).elim hfront hfirst.unbroken
  · rw [← List.length_append, ← htake, List.length_take, min_eq_left h]

/-- Whether a carriage return that ends a line stands right before an offset. -/
def AfterReturn (t : Text) (o : Nat) : Prop :=
  1 ≤ o ∧ t[o - 1]? = some '\r' ∧ (o = t.length ∨ t[o]? = some '\n')

instance (t : Text) (o : Nat) : Decidable (AfterReturn t o) :=
  inferInstanceAs (Decidable (_ ∧ _ ∧ _))

namespace IsLine

variable {line : Nat} {above front back below : Text}
  (h : IsLine t line above (front ++ back) below)
include h

theorem stop_iff : above.length + front.length = t.length ∨
    t[above.length + front.length]? = some '\n' ↔ back = [] := by
  have hrest : t[above.length + front.length]? = (back ++ below).head? := by
    rw [h.text, ← List.length_append, ← List.append_assoc, List.append_assoc _ back,
      List.getElem?_append_right le_rfl, Nat.sub_self, List.head?_eq_getElem?]
  have hlength : t.length = above.length + front.length + (back ++ below).length := by
    simp [h.text, Nat.add_assoc]
  rw [hrest, hlength, Nat.left_eq_add, List.length_eq_zero_iff]
  cases back with
  | nil =>
      cases below with
      | nil => simp
      | cons c below => simp [h.below_begins c rfl]
  | cons c back =>
      have hc : c ≠ '\n' := by
        rintro rfl
        exact h.unbroken (by simp)
      simp [hc]

theorem return_iff : 1 ≤ above.length + front.length ∧
    t[above.length + front.length - 1]? = some '\r' ↔ front.getLast? = some '\r' := by
  rcases List.eq_nil_or_concat' front with rfl | ⟨front, c, rfl⟩
  · -- In front of the line stands a line feed or nothing.
    simp only [List.length_nil, Nat.add_zero, List.getLast?_nil, reduceCtorEq, iff_false, not_and]
    intro hpos hreturn
    have hlast : above.getLast? = some '\r' := by
      rw [List.getLast?_eq_getElem?, ← hreturn, h.text, List.append_assoc,
        List.getElem?_append_left (by omega)]
    exact absurd (h.above_ends _ hlast) (by decide)
  · have hlast := h.getElem?_above_add (k := front.length) (by simp)
    rw [List.length_append, List.length_singleton, ← Nat.add_assoc, Nat.add_sub_cancel, hlast]
    simp

theorem afterReturn_iff : AfterReturn t (above.length + front.length) ↔
    back = [] ∧ front.getLast? = some '\r' := by
  rw [AfterReturn, ← and_assoc, h.stop_iff, h.return_iff, and_comm]

theorem min_lineLength : min front.length (lineLength t line) =
    if AfterReturn t (above.length + front.length) then front.length - 1 else front.length := by
  rw [h.lineLength_eq]
  split
  · rename_i hreturn
    obtain ⟨rfl, hlast⟩ := h.afterReturn_iff.1 hreturn
    rw [List.append_nil, dropReturn, if_pos hlast, List.length_dropLast,
      min_eq_right (Nat.sub_le _ _)]
  · rename_i hreturn
    refine min_eq_left ?_
    cases back with
    | nil =>
        have hlast : front.getLast? ≠ some '\r' := fun hlast =>
          hreturn (h.afterReturn_iff.2 ⟨rfl, hlast⟩)
        rw [List.append_nil, dropReturn, if_neg hlast]
    | cons c back =>
        -- A carriage return that ends the line is behind the offset.
        rw [dropReturn]
        split
        · simp
        · simp

end IsLine

/-! ## Positions of offsets -/

/-- The position of an offset that is not past the end. -/
def positionIn (t : Text) (o : Nat) : Position := ⟨t.lineAt o, o - t.lineStart (t.lineAt o)⟩

theorem positionAt_eq {offset : Int} (h : 0 ≤ offset) :
    t.positionAt offset = .ok (t.positionIn (min offset.toNat t.length)) := if_neg (not_lt.2 h)

theorem offsetIn_positionIn (h : o ≤ t.length) :
    t.offsetIn (t.positionIn o) = if AfterReturn t o then o - 1 else o := by
  obtain ⟨above, front, back, below, hline, rfl⟩ := exists_isLine_lineAt h
  rw [offsetIn, positionIn, hline.lineStart_eq, Nat.add_sub_cancel_left, hline.min_lineLength]
  split
  · rename_i hreturn
    have hne : front ≠ [] := by
      rintro rfl
      simpa using (hline.afterReturn_iff.1 hreturn).2
    have hpos := List.length_pos_iff.2 hne
    omega
  · rfl

theorem positionIn_offsetIn (h : p.line < t.lineCount) :
    t.positionIn (t.offsetIn p) = ⟨p.line, min p.character (t.lineLength p.line)⟩ := by
  rw [positionIn, lineAt_offsetIn h, offsetIn, Nat.add_sub_cancel_left]

theorem positionIn_mono (t : Text) (h : i ≤ j) : t.positionIn i ≤ t.positionIn j := by
  rw [Position.le_iff]
  rcases (t.lineAt_mono h).lt_or_eq with hlt | heq
  · exact .inl hlt
  · refine .inr ⟨heq, ?_⟩
    simp only [positionIn, heq]
    exact Nat.sub_le_sub_right h _

theorem offsetAt_eq_error_iff {e : PlaceError} :
    t.offsetAt p = .error e ↔ t.lineCount ≤ p.line ∧ e = .lineOutOfRange p.line t.lineCount := by
  by_cases h : t.lineCount ≤ p.line
  · simp [offsetAt_of_le h, h, eq_comm]
  · simp [offsetAt_of_lt (not_le.1 h), h]

theorem positionAt_mono {offset offset' : Int} {p q : Position} (hp : t.positionAt offset = .ok p)
    (hq : t.positionAt offset' = .ok q) (h : offset ≤ offset') : p ≤ q := by
  have hnonneg : 0 ≤ offset := by
    by_contra hneg
    rw [positionAt, if_pos (not_le.1 hneg)] at hp
    cases hp
  rw [positionAt_eq hnonneg, Except.ok.injEq] at hp
  rw [positionAt_eq (hnonneg.trans h), Except.ok.injEq] at hq
  subst hp hq
  exact t.positionIn_mono (min_le_min_right _ (Int.toNat_le_toNat h))

theorem offsetAt_mono {p q : Position} (hp : t.offsetAt p = .ok i) (hq : t.offsetAt q = .ok j)
    (h : p ≤ q) : i ≤ j := by
  have hline : ∀ {r : Position} {k : Nat}, t.offsetAt r = .ok k → r.line < t.lineCount := by
    intro r k hr
    by_contra hge
    rw [offsetAt_of_le (not_lt.1 hge)] at hr
    cases hr
  have hpLine := hline hp
  have hqLine := hline hq
  rw [offsetAt_of_lt hpLine, Except.ok.injEq] at hp
  rw [offsetAt_of_lt hqLine, Except.ok.injEq] at hq
  subst hp hq
  exact offsetIn_mono hpLine hqLine h

/-- Each offset has a position, from which the same offset comes back, or the one before it if a
carriage return that ends a line stands right before it. Each position whose line exists has an
offset, from which the position comes back with its character clamped to the line; a position is
refused exactly if its line does not exist. Both maps keep the order, and offsets past the end are
the end. -/
theorem offsets_positions (t : Text) :
    (∀ o ≤ t.length, ∃ p, t.positionAt o = .ok p ∧
        t.offsetAt p = .ok (if t.AfterReturn o then o - 1 else o)) ∧
      (∀ p : Position, p.line < t.lineCount → ∃ o ≤ t.length, t.offsetAt p = .ok o ∧
        t.positionAt o = .ok ⟨p.line, min p.character (t.lineLength p.line)⟩) ∧
      (∀ p e, t.offsetAt p = .error e ↔
        t.lineCount ≤ p.line ∧ e = .lineOutOfRange p.line t.lineCount) ∧
      (∀ (i j : Int) p q, t.positionAt i = .ok p → t.positionAt j = .ok q → i ≤ j → p ≤ q) ∧
      (∀ p q i j, t.offsetAt p = .ok i → t.offsetAt q = .ok j → p ≤ q → i ≤ j) ∧
      ∀ offset : Int, t.length ≤ offset → t.positionAt offset = t.positionAt t.length := by
  refine ⟨fun o ho => ?_, fun p hp => ?_, fun p e => offsetAt_eq_error_iff,
    fun i j p q => positionAt_mono, fun p q i j => offsetAt_mono, fun offset ho => ?_⟩
  · refine ⟨t.positionIn o, ?_, ?_⟩
    · rw [positionAt_eq (Int.natCast_nonneg o), Int.toNat_natCast, min_eq_left ho]
    · rw [offsetAt_of_lt (t.lineAt_lt_lineCount o), offsetIn_positionIn ho]
  · have hle := offsetIn_le_length hp
    refine ⟨t.offsetIn p, hle, offsetAt_of_lt hp, ?_⟩
    rw [positionAt_eq (Int.natCast_nonneg _), Int.toNat_natCast, min_eq_left hle,
      positionIn_offsetIn hp]
  · rw [positionAt_eq ((Int.natCast_nonneg _).trans ho), positionAt_eq (Int.natCast_nonneg _),
      Int.toNat_natCast, min_self, min_eq_right (by omega)]

/-- An offset between the two characters of a line ending comes back as the one before both, and a
position behind the end of that line as the end of the line. -/
theorem offsets_positions_splitEnding :
    (∃ p, Text.positionAt "a\r\nb".toList 2 = .ok p ∧ Text.offsetAt "a\r\nb".toList p = .ok 1) ∧
      (∃ o ≤ 4, Text.offsetAt "a\r\nb".toList ⟨0, 9⟩ = .ok o ∧
        Text.positionAt "a\r\nb".toList o = .ok ⟨0, 1⟩) ∧
      Text.offsetAt "a\r\nb".toList ⟨2, 0⟩ = .error (.lineOutOfRange 2 2) ∧
      (⟨0, 2⟩ : Position) ≤ ⟨1, 0⟩ := by
  obtain ⟨hoffset, hposition, hrefused, hmono, -⟩ := offsets_positions "a\r\nb".toList
  exact ⟨hoffset 2 (by decide), hposition ⟨0, 9⟩ (by decide), (hrefused _ _).2 (by decide),
    hmono 2 3 _ _ (by decide) (by decide) (by decide)⟩

end CodeReference.Text
