import Mathlib
import CodeReference.Proofs.Selection
import CodeReference.Proofs.Text.Lines
import CodeReference.Proofs.Text.Scan
import CodeReference.Proofs.Text.Trim

/-!
The same text with the other line ending, a carriage return before each line feed. Lines keep their
number and their length, and no position falls between the two characters of a line ending.
-/
namespace CodeReference.Text

variable {t above content below : Text} {line : Nat} {c : Char} {p : Char → Bool}

/-- The text with a carriage return before each line feed. -/
def crlf (t : Text) : Text := t.flatMap fun c => if c = '\n' then ['\r', '\n'] else [c]

/-! ## Characters -/

@[simp] theorem crlf_nil : crlf [] = [] := rfl

@[simp] theorem crlf_cons_lineFeed (t : Text) : crlf ('\n' :: t) = '\r' :: '\n' :: crlf t := rfl

theorem crlf_cons_of_ne (h : c ≠ '\n') (t : Text) : crlf (c :: t) = c :: crlf t := by
  rw [crlf, List.flatMap_cons, if_neg h]
  rfl

theorem crlf_append (a b : Text) : crlf (a ++ b) = crlf a ++ crlf b := List.flatMap_append

theorem crlf_of_not_mem (h : '\n' ∉ t) : crlf t = t := by
  induction t with
  | nil => rfl
  | cons c t ih =>
      rw [List.mem_cons, not_or] at h
      rw [crlf_cons_of_ne (Ne.symm h.1), ih h.2]

@[simp] theorem crlf_eq_nil_iff : crlf t = [] ↔ t = [] := by
  cases t with
  | nil => simp
  | cons c t =>
      by_cases hc : c = '\n'
      · simp [hc]
      · simp [crlf_cons_of_ne hc]

theorem mem_crlf : c ∈ crlf t ↔ c ∈ t ∨ c = '\r' ∧ '\n' ∈ t := by
  induction t with
  | nil => simp
  | cons d t ih =>
      by_cases hd : d = '\n'
      · simp only [hd, crlf_cons_lineFeed, List.mem_cons, ih]
        tauto
      · simp only [crlf_cons_of_ne hd, List.mem_cons, ih, Ne.symm hd, false_or, or_assoc]

theorem lineFeed_mem_crlf : '\n' ∈ crlf t ↔ '\n' ∈ t := by
  rw [mem_crlf]
  exact or_iff_left fun h => absurd h.1 (by decide)

theorem count_crlf (t : Text) : (crlf t).count '\n' = t.count '\n' := by
  induction t with
  | nil => rfl
  | cons c t ih =>
      by_cases hc : c = '\n'
      · simp [hc, ih]
      · simp [crlf_cons_of_ne hc, hc, ih]

theorem getLast?_crlf (t : Text) : (crlf t).getLast? = t.getLast? := by
  rcases List.eq_nil_or_concat' t with rfl | ⟨t, c, rfl⟩
  · rfl
  · rw [crlf_append, List.getLast?_append, List.getLast?_append]
    by_cases hc : c = '\n'
    · simp [hc]
    · simp [crlf_cons_of_ne hc]

/-! ## What a text starts with and is trimmed of -/

section
variable {keyword : Text} (hreturn : '\r' ∉ keyword) (hfeed : '\n' ∉ keyword)
include hreturn hfeed

theorem dropPrefix?_crlf (t : Text) :
    dropPrefix? keyword (crlf t) = (dropPrefix? keyword t).map crlf := by
  induction keyword generalizing t with
  | nil => cases t <;> rfl
  | cons a keyword ih =>
      rw [List.mem_cons, not_or] at hreturn hfeed
      cases t with
      | nil => rfl
      | cons c t =>
          by_cases hc : c = '\n'
          · subst hc
            rw [crlf_cons_lineFeed, dropPrefix?, dropPrefix?, if_neg (Ne.symm hreturn.1),
              if_neg (Ne.symm hfeed.1)]
            rfl
          · rw [crlf_cons_of_ne hc, dropPrefix?, dropPrefix?, ih hreturn.2 hfeed.2]
            split <;> rfl

theorem startsWith_crlf (t : Text) : startsWith (crlf t) keyword = startsWith t keyword := by
  rw [startsWith, dropPrefix?_crlf hreturn hfeed, Option.isSome_map, startsWith]

end

theorem crlf_eq_takeWhile_append_dropWhile (p : Char → Bool) (t : Text) :
    crlf t = crlf (t.takeWhile p) ++ crlf (t.dropWhile p) := by
  rw [← crlf_append, List.takeWhile_append_dropWhile]

section
variable (hp : p '\r' = p '\n')
include hp

theorem forall_mem_crlf (h : ∀ c ∈ t, p c = true) : ∀ c ∈ crlf t, p c = true := by
  intro c hc
  rcases mem_crlf.1 hc with hc | ⟨rfl, hfeed⟩
  · exact h c hc
  · rw [hp, h '\n' hfeed]

theorem forall_head?_crlf (h : ∀ c ∈ t.head?, p c = false) : ∀ c ∈ (crlf t).head?, p c = false := by
  cases t with
  | nil => exact h
  | cons d t =>
      by_cases hd : d = '\n'
      · intro c hc
        obtain rfl : '\r' = c := by simpa [hd] using hc
        rw [hp, h '\n' (by simp [hd])]
      · rw [crlf_cons_of_ne hd]
        exact h

theorem takeWhile_crlf (t : Text) : (crlf t).takeWhile p = crlf (t.takeWhile p) := by
  rw [crlf_eq_takeWhile_append_dropWhile p t]
  exact takeWhile_append_of_stop (forall_mem_crlf hp fun c hc => List.mem_takeWhile_imp hc)
    (forall_head?_crlf hp (head?_dropWhile_stop p t))

theorem dropWhile_crlf (t : Text) : (crlf t).dropWhile p = crlf (t.dropWhile p) := by
  rw [crlf_eq_takeWhile_append_dropWhile p t]
  exact dropWhile_append_of_stop (forall_mem_crlf hp fun c hc => List.mem_takeWhile_imp hc)
    (forall_head?_crlf hp (head?_dropWhile_stop p t))

end

theorem Blanks.crlf (h : Blanks t) : Blanks (crlf t) := forall_mem_crlf (by decide) h

theorem Trimmed.crlf (h : Trimmed t) : Trimmed (crlf t) where
  left := forall_head?_crlf (by decide) h.1
  right := by
    rw [getLast?_crlf]
    exact h.2

theorem trim_crlf (t : Text) : trim (crlf t) = crlf (trim t) := by
  obtain ⟨a, b, ha, hb, heq⟩ := exists_trim t
  have hcut : crlf t = crlf a ++ crlf (trim t) ++ crlf b := by
    rw [← crlf_append, ← crlf_append, ← heq]
  exact trim_eq_of_eq ha.crlf hb.crlf (trimmed_trim t).crlf hcut

/-! ## Lines -/

theorem lineCount_crlf (t : Text) : lineCount (crlf t) = lineCount t := by
  rw [lineCount_eq, lineCount_eq, count_crlf]

theorem dropReturn_of_not_mem (h : '\r' ∉ t) : dropReturn t = t :=
  if_neg fun hlast => h (List.mem_of_getLast? hlast)

theorem dropReturn_concat (t : Text) : dropReturn (t ++ ['\r']) = t := by
  rw [dropReturn, if_pos List.getLast?_concat, List.dropLast_concat]

namespace IsLine

variable (h : IsLine t line above content below)
include h

/-- A line gets the carriage return of its line feed as its last character, unless it is the last
line. -/
theorem crlf : IsLine t.crlf line above.crlf (if below = [] then content else content ++ ['\r'])
    below.crlf.tail where
  text := by
    rw [h.text, crlf_append, crlf_append, crlf_of_not_mem h.unbroken]
    cases hbelow : below with
    | nil => simp
    | cons c rest =>
        obtain rfl := h.below_begins c (by rw [hbelow]; rfl)
        simp
  number := by rw [count_crlf, h.number]
  above_ends := by rw [getLast?_crlf]; exact h.above_ends
  unbroken := by
    split
    · exact h.unbroken
    · simp [h.unbroken]
  below_begins := by
    cases hbelow : below with
    | nil => simp
    | cons c rest =>
        obtain rfl := h.below_begins c (by rw [hbelow]; rfl)
        simp

theorem not_mem_content (hc : c ∉ t) : c ∉ content := fun hmem => hc (by rw [h.text]; simp [hmem])

theorem lineStart_crlf : lineStart t.crlf line = above.crlf.length := h.crlf.lineStart_eq

variable (hreturn : '\r' ∉ content)
include hreturn

theorem lineLength_of_return_not_mem : lineLength t line = content.length := by
  rw [h.lineLength_eq, dropReturn_of_not_mem hreturn]

theorem lineLength_crlf : lineLength t.crlf line = content.length := by
  rw [h.crlf.lineLength_eq]
  split
  · rw [dropReturn_of_not_mem hreturn]
  · rw [dropReturn_concat]

end IsLine

/-! ## Offsets of positions -/

/-- Where an offset comes to lie when each line feed gets a carriage return before it. -/
def crlfOffset (t : Text) (offset : Nat) : Nat := (crlf (t.take offset)).length

theorem crlf_eq_take_append_drop (t : Text) (offset : Nat) :
    crlf t = crlf (t.take offset) ++ crlf (t.drop offset) := by
  rw [← crlf_append, List.take_append_drop]

theorem take_crlfOffset (t : Text) (offset : Nat) :
    (crlf t).take (t.crlfOffset offset) = crlf (t.take offset) := by
  rw [crlf_eq_take_append_drop t offset]
  exact List.take_left

theorem drop_crlfOffset (t : Text) (offset : Nat) :
    (crlf t).drop (t.crlfOffset offset) = crlf (t.drop offset) := by
  rw [crlf_eq_take_append_drop t offset]
  exact List.drop_left

/-- What stands between two offsets stands between the offsets that they become. -/
theorem drop_take_crlfOffset (t : Text) {first last : Nat} (h : first ≤ last) :
    ((crlf t).take (t.crlfOffset last)).drop (t.crlfOffset first) =
      crlf ((t.take last).drop first) := by
  have hfirst : t.crlfOffset first = crlfOffset (t.take last) first := by
    rw [crlfOffset, crlfOffset, List.take_take, min_eq_left h]
  rw [take_crlfOffset, hfirst, drop_crlfOffset]

/-- A position has the same text before it with either line ending. -/
theorem offsetIn_crlf (hreturn : '\r' ∉ t) {pos : Position} (hpos : pos.line < t.lineCount) :
    (crlf t).offsetIn pos = t.crlfOffset (t.offsetIn pos) := by
  obtain ⟨above, content, below, h⟩ := exists_isLine hpos
  have hcontent : '\r' ∉ content := h.not_mem_content hreturn
  have hle : min pos.character content.length ≤ content.length := min_le_right _ _
  have hunbroken : '\n' ∉ content.take (min pos.character content.length) :=
    fun hmem => h.unbroken (List.mem_of_mem_take hmem)
  have htake : t.take (above.length + min pos.character content.length) =
      above ++ content.take (min pos.character content.length) := by
    rw [h.text, List.append_assoc, List.take_length_add_append, List.take_append_of_le_length hle]
  rw [offsetIn, offsetIn, crlfOffset, h.lineStart_crlf, h.lineStart_eq, h.lineLength_crlf hcontent,
    h.lineLength_of_return_not_mem hcontent, htake, crlf_append, crlf_of_not_mem hunbroken,
    List.length_append, List.length_take_of_le hle]

end CodeReference.Text
