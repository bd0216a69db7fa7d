import Mathlib
import CodeReference.Markup.Locator
import CodeReference.Proofs.Markup.Tag
import CodeReference.Settings.Basic

/-!
The tag found before a place in markup. Its name is the name of a tag, whatever the text is. The tag
is the last one that opens at the place or before it, as far as it can be seen through a window.
-/
namespace CodeReference.Markup
open Text

variable {snippetLength : Int} {t name : Text}

theorem IsName.lineFeed_not_mem (h : IsName name) : '\n' ∉ name := by
  intro hmem
  exact absurd (h.all '\n' hmem) (by decide)

/-! ## Tags seen through a window -/

/-- Whether an opening tag of a name stands at an offset, seen through a window that shows so many
characters: a bracket, blanks, and the name, which goes on as far as there are characters for it. -/
def OpensAt (window : Nat) (t : Text) (offset : Nat) (name : Text) : Prop :=
  ∃ b r, IsName name ∧ (∀ c ∈ b, isAsciiBlank c = true) ∧ (∀ c ∈ r.head?, isNameChar c = false) ∧
    (t.drop offset).take window = '<' :: (b ++ name ++ r)

theorem openingTagName?_eq_some_iff : openingTagName? t = some name ↔
    ∃ b r, IsName name ∧ (∀ c ∈ b, isAsciiBlank c = true) ∧
      (∀ c ∈ r.head?, isNameChar c = false) ∧ t = '<' :: (b ++ name ++ r) := by
  simp only [openingTagName?, bind, Option.bind_eq_some_iff, Prod.exists, dropPrefix?_eq_some_iff,
    tagName?_eq_some_iff, pure, Option.some.injEq]
  constructor
  · rintro ⟨u, rfl, name, r, ⟨hname, hr, hu⟩, rfl⟩
    refine ⟨u.takeWhile isAsciiBlank, r, hname, fun c hc => List.mem_takeWhile_imp hc, hr, ?_⟩
    rw [List.append_assoc, ← hu, List.takeWhile_append_dropWhile]
    rfl
  · rintro ⟨b, r, hname, hb, hr, rfl⟩
    refine ⟨b ++ (name ++ r), by simp, name, r, ⟨hname, hr, ?_⟩, rfl⟩
    refine dropWhile_append_of_stop hb fun c hc => ?_
    obtain ⟨d, hd, hstart⟩ := hname.head
    rw [List.head?_append, Option.mem_def.1 hd, Option.some_or, Option.mem_some_iff] at hc
    have hblank := not_isBlank_of_isNameChar (isNameChar_of_isNameStart hstart)
    rw [hc] at hblank
    exact Bool.eq_false_iff.2 fun hascii => by simp [isBlank_of_isAsciiBlank hascii] at hblank

theorem isName_of_openingTagName? (h : openingTagName? t = some name) : IsName name := by
  obtain ⟨_, _, hname, -⟩ := openingTagName?_eq_some_iff.1 h
  exact hname

theorem isName_of_tagAt? {offset : Nat} (h : tagAt? snippetLength t offset = some name) :
    IsName name := by
  rw [tagAt?, Option.ite_none_right_eq_some] at h
  exact isName_of_openingTagName? h.2

theorem clampBound_natCast (n i : Nat) : clampBound n i = min i n := by
  rw [clampBound, if_neg (not_lt.2 (Int.natCast_nonneg i)), Int.toNat_natCast]

theorem drop_min_length (t : Text) (offset : Nat) : t.drop (min offset t.length) = t.drop offset := by
  rcases le_total offset t.length with h | h
  · rw [min_eq_left h]
  · rw [min_eq_right h, List.drop_length, List.drop_eq_nil_of_le h]

/-- A slice from an offset on shows nothing but what stands there, whatever its end is. -/
theorem slice_isPrefix (t : Text) (offset : Nat) (stop : Int) :
    slice t offset stop <+: t.drop offset := by
  rw [slice, clampBound_natCast, ← drop_min_length t offset]
  exact (List.take_prefix _ t).drop _

theorem slice_window (window : Nat) (t : Text) (offset : Nat) :
    slice t offset (offset + window) = (t.drop offset).take window := by
  rw [slice, ← Nat.cast_add, clampBound_natCast, clampBound_natCast, ← List.take_eq_take_min,
    List.take_drop]
  rcases le_total offset t.length with h | h
  · rw [min_eq_left h]
  · rw [min_eq_right h, List.drop_eq_nil_of_le (List.length_take_le' _ _),
      List.drop_eq_nil_of_le ((List.length_take_le' _ _).trans h)]

theorem OpensAt.bracket {window offset : Nat} (h : OpensAt window t offset name) :
    t[offset]? = some '<' := by
  obtain ⟨b, r, -, -, -, heq⟩ := h
  obtain ⟨rest, hrest⟩ := List.take_prefix window (t.drop offset)
  rw [← List.head?_drop, ← hrest, heq]
  rfl

theorem tagAt?_eq_some_iff {window offset : Nat} :
    tagAt? window t offset = some name ↔ OpensAt window t offset name := by
  rw [tagAt?, slice_window, Option.ite_none_right_eq_some, openingTagName?_eq_some_iff]
  exact and_iff_right_of_imp OpensAt.bracket

theorem tagAt?_eq_none_iff {window offset : Nat} :
    tagAt? window t offset = none ↔ ∀ name, ¬ OpensAt window t offset name := by
  rw [Option.eq_none_iff_forall_ne_some]
  exact forall_congr' fun name => not_congr tagAt?_eq_some_iff

/-! ## The nearest tag -/

/-- What is found last at an offset or before it is not followed by anything up to that offset. -/
theorem lastTag?_eq_some_iff {offset : Nat} : lastTag? snippetLength t offset = some name ↔
    ∃ q ≤ offset, tagAt? snippetLength t q = some name ∧
      ∀ p, q < p → p ≤ offset → tagAt? snippetLength t p = none := by
  induction offset with
  | zero =>
      refine ⟨fun h => ⟨0, le_rfl, h, fun p hp hle => absurd hp (not_lt.2 hle)⟩, ?_⟩
      rintro ⟨q, hq, h, -⟩
      rwa [Nat.le_zero.1 hq] at h
  | succ offset ih =>
      rw [lastTag?]
      cases htag : tagAt? snippetLength t (offset + 1) with
      | none =>
          rw [ih]
          constructor
          · rintro ⟨q, hq, h, hnone⟩
            refine ⟨q, hq.trans (Nat.le_succ offset), h, fun p hp hle => ?_⟩
            rcases Nat.le_succ_iff.1 hle with hle | rfl
            · exact hnone p hp hle
            · exact htag
          · rintro ⟨q, hq, h, hnone⟩
            have hne : q ≠ offset + 1 := by
              rintro rfl
              rw [htag] at h
              cases h
            exact ⟨q, by omega, h, fun p hp hle => hnone p hp (hle.trans (Nat.le_succ offset))⟩
      | some other =>
          constructor
          · intro h
            exact ⟨offset + 1, le_rfl, htag.trans h, fun p hp hle => absurd hp (not_lt.2 hle)⟩
          · rintro ⟨q, hq, h, hnone⟩
            rcases hq.lt_or_eq with hlt | rfl
            · rw [hnone (offset + 1) hlt le_rfl] at htag
              cases htag
            · exact htag.symm.trans h

theorem isName_of_enclosingTag? {offset : Int}
    (h : enclosingTag? snippetLength t offset = some name) : IsName name := by
  rw [enclosingTag?, Option.ite_none_left_eq_some] at h
  obtain ⟨_, -, htag, -⟩ := lastTag?_eq_some_iff.1 h.2
  exact isName_of_tagAt? htag

theorem lastTag?_eq_none_iff {offset : Nat} : lastTag? snippetLength t offset = none ↔
    ∀ q ≤ offset, tagAt? snippetLength t q = none := by
  induction offset with
  | zero => simp [lastTag?]
  | succ offset ih =>
      rw [lastTag?]
      simp only [Nat.le_succ_iff, or_imp, forall_and, forall_eq, ← ih]
      cases tagAt? snippetLength t (offset + 1) <;> simp

theorem tagAt?_of_length_le {offset : Nat} (h : t.length ≤ offset) :
    tagAt? snippetLength t offset = none := by
  rw [tagAt?, List.getElem?_eq_none h, if_neg (by simp)]

/-- Behind the end of a text nothing more is found than at the end. -/
theorem lastTag?_of_length_le {offset : Nat} (h : t.length ≤ offset) :
    lastTag? snippetLength t offset = lastTag? snippetLength t t.length := by
  induction offset, h using Nat.le_induction with
  | base => rfl
  | succ offset h ih => rw [lastTag?, tagAt?_of_length_le (h.trans (Nat.le_succ offset)), ih]

theorem enclosingTag?_of_pos {offset : Nat} (h : 0 < offset) :
    enclosingTag? snippetLength t offset = lastTag? snippetLength t offset := by
  rw [enclosingTag?, if_neg (by omega), Int.toNat_natCast]
  rcases le_total offset t.length with hle | hle
  · rw [min_eq_left hle]
  · rw [min_eq_right hle, lastTag?_of_length_le hle]

/-- Whether an opening tag of a name stands before a bound and no other one between the two. -/
def NearestTag (window : Nat) (t : Text) (bound : Nat) (name : Text) : Prop :=
  ∃ q < bound, OpensAt window t q name ∧
    ∀ p, q < p → p < bound → ∀ other, ¬ OpensAt window t p other

/-- The tag that is found from an offset is the nearest one that stands at the offset itself or
before it. So it is the nearest one before the offset if none stands there, and else the one that
does. -/
theorem enclosingTag?_nearest (window : Nat) (t : Text) {offset : Nat} (h : 0 < offset) :
    (∀ name, enclosingTag? window t offset = some name ↔ NearestTag window t (offset + 1) name) ∧
      (enclosingTag? window t offset = none ↔ ∀ q ≤ offset, ∀ name, ¬ OpensAt window t q name) ∧
      ((∀ name, ¬ OpensAt window t offset name) → ∀ name,
        enclosingTag? window t offset = some name ↔ NearestTag window t offset name) ∧
      ∀ name, OpensAt window t offset name → enclosingTag? window t offset = some name := by
  have hfound : ∀ name, enclosingTag? window t offset = some name ↔
      NearestTag window t (offset + 1) name := by
    intro name
    simp only [enclosingTag?_of_pos h, lastTag?_eq_some_iff, tagAt?_eq_some_iff, tagAt?_eq_none_iff,
      NearestTag, Nat.lt_succ_iff]
  refine ⟨hfound, ?_, fun hnone name => (hfound name).trans ?_, fun name hopens => ?_⟩
  · simp only [enclosingTag?_of_pos h, lastTag?_eq_none_iff, tagAt?_eq_none_iff]
  · constructor
    · rintro ⟨q, hq, hopens, hbetween⟩
      have hne : q ≠ offset := by
        rintro rfl
        exact hnone name hopens
      exact ⟨q, by omega, hopens, fun p hp hlt => hbetween p hp (hlt.trans (Nat.lt_succ_self _))⟩
    · rintro ⟨q, hq, hopens, hbetween⟩
      refine ⟨q, hq.trans (Nat.lt_succ_self _), hopens, fun p hp hlt => ?_⟩
      rcases Nat.lt_succ_iff_lt_or_eq.1 hlt with hlt | rfl
      · exact hbetween p hp hlt
      · exact hnone
  · refine (hfound name).2 ⟨offset, Nat.lt_succ_self _, hopens, fun p hp hlt => ?_⟩
    exact absurd hp (not_lt.2 (Nat.lt_succ_iff.1 hlt))

/-- The place is in the text of the second element, right before its closing tag. -/
theorem enclosingTag?_nearest_closed :
    enclosingTag? 200 "<p>a< b>c</b>".toList 9 = some ['b'] ∧
      NearestTag 200 "<p>a< b>c</b>".toList 10 ['b'] := by
  have hfound : enclosingTag? 200 "<p>a< b>c</b>".toList 9 = some ['b'] := by decide +kernel
  exact ⟨hfound, ((enclosingTag?_nearest 200 _ (by decide)).1 ['b']).1 hfound⟩

/-- The tag that stands right at the place is found, not the one before it. -/
theorem not_enclosingTag?_nearest_before : ¬ ∀ (t : Text) (offset : Nat) (name : Text),
    0 < offset → enclosingTag? ({} : Settings).snippetLength t offset = some name →
      NearestTag 200 t offset name := by
  intro h
  obtain ⟨q, hq, hopens, -⟩ := h "<p>a<b>".toList 4 ['b'] (by decide) (by decide +kernel)
  have hnone : ∀ q < 4, tagAt? 200 "<p>a<b>".toList q ≠ some ['b'] := by decide +kernel
  exact hnone q hq (tagAt?_eq_some_iff.2 hopens)

end CodeReference.Markup
