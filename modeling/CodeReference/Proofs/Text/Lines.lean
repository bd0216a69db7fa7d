import Mathlib
import CodeReference.Proofs.Text.Bytes
import CodeReference.Proofs.Text.Split

/-!
Lines of a text. The line of an offset is the number of line feeds before it. A line is cut out of
the text: what is above it ends with a line feed, it holds none itself, and what is below it begins
with one.
-/
namespace CodeReference.Text

variable {t a b above content below : Text} {line : Nat}

/-! ## Line feeds before an offset -/

theorem breaks_append (base : Nat) (a b : Text) :
    breaks base (a ++ b) = breaks base a ++ breaks (base + a.length) b := by
  induction a generalizing base with
  | nil => rfl
  | cons c a ih =>
      have hbase : base + 1 + a.length = base + (a.length + 1) := by omega
      rw [List.cons_append, breaks, breaks, ih, List.length_cons, hbase]
      split <;> rfl

theorem lt_of_mem_breaks {base start : Nat} (h : start ∈ breaks base t) : base < start := by
  induction t generalizing base with
  | nil => cases h
  | cons c t ih =>
      rw [breaks] at h
      split at h
      · rcases List.mem_cons.1 h with rfl | h
        · exact Nat.lt_succ_self base
        · exact (Nat.lt_succ_self base).trans (ih h)
      · exact (Nat.lt_succ_self base).trans (ih h)

theorem length_takeWhile_breaks (base offset : Nat) (t : Text) :
    ((breaks base t).takeWhile (· ≤ base + offset)).length = (t.take offset).count '\n' := by
  induction t generalizing base offset with
  | nil => simp [breaks]
  | cons c t ih =>
      cases offset with
      | zero =>
          have hnone : (breaks base (c :: t)).takeWhile (· ≤ base + 0) = [] := by
            rw [List.takeWhile_eq_nil_iff]
            intro hpos
            have := lt_of_mem_breaks (List.getElem_mem hpos)
            simpa using this
          rw [hnone, List.take_zero, List.count_nil, List.length_nil]
      | succ offset =>
          have hbase : base + (offset + 1) = base + 1 + offset := by omega
          rw [breaks, hbase, List.take_succ_cons, List.count_cons, ← ih (base + 1)]
          split
          · rename_i hc
            rw [List.takeWhile_cons_of_pos (by simp), List.length_cons, if_pos (by simpa using hc)]
          · rename_i hc
            rw [if_neg (by simpa using hc)]
            rfl

theorem lineAt_eq_count (t : Text) (offset : Nat) :
    lineAt t offset = (t.take offset).count '\n' := by
  have h := length_takeWhile_breaks 0 (min offset t.length) t
  simp only [Nat.zero_add] at h
  rw [lineAt, lineStarts, List.takeWhile_cons_of_pos (by simp), List.length_cons, h,
    Nat.add_sub_cancel, ← List.take_eq_take_min]

theorem lineAt_mono (t : Text) {i j : Nat} (h : i ≤ j) : lineAt t i ≤ lineAt t j := by
  rw [lineAt_eq_count, lineAt_eq_count]
  exact (List.take_prefix_take_left h).sublist.count_le _

/-! ## Lines cut out of a text -/

/-- A line of a text: the whole lines above it, its content, and what is below, which begins with
the line feed that ends the line. -/
structure IsLine (t : Text) (line : Nat) (above content below : Text) : Prop where
  text : t = above ++ content ++ below
  number : above.count '\n' = line
  above_ends : ∀ c ∈ above.getLast?, c = '\n'
  unbroken : '\n' ∉ content
  below_begins : ∀ c ∈ below.head?, c = '\n'

theorem isLine_zero (t : Text) :
    IsLine t 0 [] (t.takeWhile (· != '\n')) (t.dropWhile (· != '\n')) where
  text := by rw [List.nil_append, List.takeWhile_append_dropWhile]
  number := rfl
  above_ends := by simp
  unbroken h := by simpa using List.mem_takeWhile_imp h
  below_begins c hc := by
    have h := List.head?_dropWhile_not (· != '\n') t
    rw [hc] at h
    simpa using h

/-- A character in front of a text belongs to what is above each line but the first. -/
theorem IsLine.cons (h : IsLine t line above content below) (c : Char)
    (hc : above ≠ [] ∨ c = '\n') :
    IsLine (c :: t) (line + if c = '\n' then 1 else 0) (c :: above) content below where
  text := by rw [h.text, List.append_assoc, List.append_assoc, List.cons_append]
  number := by rw [List.count_cons, h.number]; simp
  above_ends d hd := by
    cases above with
    | nil => simpa [hc.resolve_left (absurd rfl)] using hd.symm
    | cons e above => exact h.above_ends d (by rwa [List.getLast?_cons_cons] at hd)
  unbroken := h.unbroken
  below_begins := h.below_begins

theorem exists_isLine (h : line < lineCount t) :
    ∃ above content below, IsLine t line above content below := by
  rw [lineCount_eq] at h
  induction t generalizing line with
  | nil =>
      obtain rfl : line = 0 := by simpa using h
      exact ⟨_, _, _, isLine_zero []⟩
  | cons c t ih =>
      cases line with
      | zero => exact ⟨_, _, _, isLine_zero (c :: t)⟩
      | succ line =>
          rw [List.count_cons] at h
          by_cases hc : c = '\n'
          · have hlt : line < t.count '\n' + 1 := by simp [hc] at h; omega
            obtain ⟨above, content, below, hline⟩ := ih hlt
            have := hline.cons c (.inr hc)
            rw [if_pos hc] at this
            exact ⟨_, _, _, this⟩
          · have hlt : line + 1 < t.count '\n' + 1 := by simpa [hc] using h
            obtain ⟨above, content, below, hline⟩ := ih hlt
            have habove : above ≠ [] := by
              rintro rfl
              simpa using hline.number
            have := hline.cons c (.inl habove)
            rw [if_neg hc, Nat.add_zero] at this
            exact ⟨_, _, _, this⟩

/-- Where whole lines end, the next line starts. -/
theorem getElem?_lineStarts (h : ∀ c ∈ a.getLast?, c = '\n') (b : Text) :
    (lineStarts (a ++ b))[a.count '\n']? = some a.length := by
  rcases List.eq_nil_or_concat' a with rfl | ⟨a, c, rfl⟩
  · rfl
  · obtain rfl : c = '\n' := h c (by simp)
    have hlength := length_breaks 0 a
    rw [List.count_append, List.count_singleton_self, lineStarts, List.getElem?_cons_succ,
      breaks_append, breaks_append, List.append_assoc, List.getElem?_append_right hlength.le,
      hlength, Nat.sub_self]
    simp [breaks]

namespace IsLine

variable (h : IsLine t line above content below)
include h

theorem getElem?_lineStarts_self : (lineStarts t)[line]? = some above.length := by
  rw [h.text, ← h.number, List.append_assoc]
  exact Text.getElem?_lineStarts h.above_ends _

theorem lineStart_eq : lineStart t line = above.length := by
  rw [lineStart, List.getD_eq_getElem?_getD, h.getElem?_lineStarts_self, Option.getD_some]

theorem count_content : content.count '\n' = 0 := List.count_eq_zero.2 h.unbroken

theorem below_eq_nil_iff : below = [] ↔ line + 1 = lineCount t := by
  rw [lineCount_eq, h.text, List.count_append, List.count_append, h.number, h.count_content]
  cases below with
  | nil => simp
  | cons c below =>
      obtain rfl := h.below_begins c rfl
      simp

theorem lineStop_eq : lineStop t line = above.length + content.length := by
  cases hbelow : below with
  | nil =>
      have hnone : (lineStarts t)[line + 1]? = none :=
        List.getElem?_eq_none (h.below_eq_nil_iff.1 hbelow).ge
      rw [lineStop, hnone, h.text, hbelow, List.append_nil, List.length_append]
  | cons c rest =>
      obtain rfl : c = '\n' := h.below_begins c (by rw [hbelow]; rfl)
      have hnext := getElem?_lineStarts (a := above ++ content ++ ['\n']) (by simp) rest
      have htext : t = above ++ content ++ ['\n'] ++ rest := by
        rw [h.text, hbelow, List.append_assoc _ ['\n'], List.singleton_append]
      rw [List.count_append, List.count_append, h.number, h.count_content, Nat.add_zero,
        List.count_singleton_self, ← htext] at hnext
      rw [lineStop, hnext]
      simp

theorem getElem?_splitOn : (splitOn '\n' t)[line]? = some content := by
  have hfirst : (splitOn '\n' (content ++ below))[0]? = some content := by
    cases hbelow : below with
    | nil => rw [List.append_nil, splitOn_of_not_mem h.unbroken]; rfl
    | cons c rest =>
        obtain rfl : c = '\n' := h.below_begins c (by rw [hbelow]; rfl)
        rw [splitOn_append_cons, splitOn_of_not_mem h.unbroken]
        rfl
  rw [h.text, ← h.number, List.append_assoc]
  rcases List.eq_nil_or_concat' above with habove | ⟨a, c, habove⟩
  · rwa [habove]
  · obtain rfl : c = '\n' := h.above_ends c (by simp [habove])
    rw [habove, List.append_assoc, List.singleton_append, splitOn_append_cons,
      List.count_append, List.count_singleton_self, ← length_splitOn,
      List.getElem?_append_right le_rfl, Nat.sub_self, hfirst]

theorem lineAt_add {k : Nat} (hk : k ≤ content.length) : lineAt t (above.length + k) = line := by
  rw [lineAt_eq_count, h.text, List.append_assoc, List.take_length_add_append,
    List.take_append_of_le_length hk, List.count_append, h.number]
  exact Nat.add_eq_left.2 (List.count_eq_zero.2 fun hmem => h.unbroken (List.mem_of_mem_take hmem))

end IsLine

/-! ## Lengths of lines -/

/-- A line without the carriage return that ends it. -/
def dropReturn (l : Text) : Text := if l.getLast? = some '\r' then l.dropLast else l

/-- The content of a line, as far as its length is counted. -/
def lineContent (t : Text) (line : Nat) : Text :=
  (t.drop (lineStart t line)).take (lineLength t line)

theorem dropReturn_isPrefix (l : Text) : dropReturn l <+: l := by
  unfold dropReturn
  split
  · exact List.dropLast_prefix l
  · exact List.prefix_rfl

theorem dropReturn_append (l : Text) : dropReturn l = l ∨ dropReturn l ++ ['\r'] = l := by
  unfold dropReturn
  split
  · rename_i h
    exact .inr (List.dropLast_append_getLast? '\r' h)
  · exact .inl rfl

namespace IsLine

variable (h : IsLine t line above content below)
include h

theorem getElem?_above_add {k : Nat} (hk : k < content.length) :
    t[above.length + k]? = content[k]? := by
  rw [h.text, List.append_assoc, List.getElem?_append_right (Nat.le_add_right _ _),
    Nat.add_sub_cancel_left, List.getElem?_append_left hk]

theorem lineLength_eq : lineLength t line = (dropReturn content).length := by
  simp only [lineLength, h.lineStart_eq, h.lineStop_eq, dropReturn]
  rcases List.eq_nil_or_concat' content with rfl | ⟨l, c, rfl⟩
  · simp
  · have hlast := h.getElem?_above_add (k := l.length) (by simp)
    have hstop : above.length + (l ++ [c]).length - 1 = above.length + l.length := by simp
    rw [List.getElem?_concat_length] at hlast
    simp only [hstop, hlast, List.getLast?_concat, List.dropLast_concat]
    by_cases hc : c = '\r'
    · simp [hc]
    · simp [hc]

theorem lineContent_eq : lineContent t line = dropReturn content := by
  have hprefix : dropReturn content <+: content ++ below :=
    (dropReturn_isPrefix content).trans (List.prefix_append content below)
  rw [lineContent, h.lineStart_eq, h.lineLength_eq, h.text, List.append_assoc, List.drop_left]
  exact (List.prefix_iff_eq_take.1 hprefix).symm

end IsLine

section
variable {k : Nat} (h : line < lineCount t) (hk : k ≤ lineLength t line)
include h hk

theorem lineAt_lineStart_add : lineAt t (lineStart t line + k) = line := by
  obtain ⟨above, content, below, hline⟩ := exists_isLine h
  rw [hline.lineLength_eq] at hk
  rw [hline.lineStart_eq, hline.lineAt_add (hk.trans (dropReturn_isPrefix content).length_le)]

theorem lineStart_add_le_length : lineStart t line + k ≤ t.length := by
  obtain ⟨above, content, below, hline⟩ := exists_isLine h
  rw [hline.lineLength_eq] at hk
  have hle := hk.trans (dropReturn_isPrefix content).length_le
  rw [hline.lineStart_eq, hline.text, List.length_append, List.length_append]
  omega

end

end CodeReference.Text
