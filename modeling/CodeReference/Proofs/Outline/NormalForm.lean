import Mathlib
import CodeReference.Outline.SelectedName
import CodeReference.Proofs.Text.Scan
import CodeReference.Proofs.Text.Trim

/-!
The normal form of a selection. No backslash continues a line in it, no blank is next to a dot, and
none is at its ends. Each of the three passes leaves what the passes before it have done, so a
second pass through all of them changes nothing.
-/
namespace CodeReference.Outline
open Text

variable {t a b : Text} {c : Char}

/-- Whether no backslash continues a line: no line feed is among the blanks that follow it. -/
def Uncontinued : Text → Prop
  | [] => True
  | c :: t => (c = '\\' → '\n' ∉ t.takeWhile isBlank) ∧ Uncontinued t

/-- Whether no blank is next to a dot, nor behind other blanks that are. -/
def Tight : Text → Prop
  | [] => True
  | c :: t => (isBlank c = true → (t.dropWhile isBlank).head? ≠ some '.') ∧
      (c = '.' → ∀ d ∈ t.head?, isBlank d = false) ∧ Tight t

structure Normal (t : Text) : Prop where
  uncontinued : Uncontinued t
  tight : Tight t
  trimmed : Trimmed t

theorem takeWhile_eq_nil_of_head (h : ∀ c ∈ t.head?, isBlank c = false) :
    t.takeWhile isBlank = [] := by
  cases t with
  | nil => rfl
  | cons c t => rw [List.takeWhile_cons_of_neg (by simp [h c rfl])]

/-! ## Continued lines -/

theorem head?_joinContinued_true (t : Text) :
    ∀ c ∈ (joinContinued true t).head?, isBlank c = false := by
  induction t with
  | nil => simp [joinContinued]
  | cons d t ih =>
      rw [joinContinued]
      split
      · exact ih
      · rename_i hblank
        split
        · exact ih
        · simpa using hblank

/-- What is joined begins with no other blanks than before. -/
theorem mem_takeWhile_joinContinued (h : c ∈ (joinContinued false t).takeWhile isBlank) :
    c ∈ t.takeWhile isBlank := by
  induction t with
  | nil => exact h
  | cons d t ih =>
      rw [joinContinued, Bool.false_and, if_neg Bool.false_ne_true] at h
      split at h
      · rw [takeWhile_eq_nil_of_head (head?_joinContinued_true t)] at h
        cases h
      · rw [List.takeWhile_cons] at h ⊢
        split at h
        · rename_i hd
          rw [if_pos hd]
          exact (List.mem_cons.1 h).elim (fun hc => hc ▸ List.mem_cons_self)
            fun hmem => List.mem_cons_of_mem d (ih hmem)
        · cases h

theorem uncontinued_joinContinued (joining : Bool) (t : Text) :
    Uncontinued (joinContinued joining t) := by
  induction t generalizing joining with
  | nil => trivial
  | cons d t ih =>
      rw [joinContinued]
      split
      · exact ih true
      · split
        · exact ih true
        · rename_i hcontinues
          refine ⟨fun hd hmem => hcontinues ?_, ih false⟩
          simpa [hd] using mem_takeWhile_joinContinued hmem

theorem joinContinued_of_uncontinued (h : Uncontinued t) : joinContinued false t = t := by
  induction t with
  | nil => rfl
  | cons d t ih =>
      have hcontinues : ¬ (d == '\\' && (t.takeWhile isBlank).contains '\n') = true := by
        simpa using h.1
      rw [joinContinued, Bool.false_and, if_neg Bool.false_ne_true, if_neg hcontinues, ih h.2]

theorem Uncontinued.of_append_left (h : Uncontinued (a ++ t)) : Uncontinued t := by
  induction a with
  | nil => exact h
  | cons c a ih => exact ih h.2

theorem Uncontinued.of_append_right (h : Uncontinued (t ++ b)) : Uncontinued t := by
  induction t with
  | nil => trivial
  | cons c t ih =>
      refine ⟨fun hc hmem => h.1 hc ?_, ih h.2⟩
      have hprefix : t.takeWhile isBlank <+: (t ++ b).takeWhile isBlank := by
        rw [List.takeWhile_append]
        split
        · exact (List.takeWhile_prefix isBlank).trans (List.prefix_append t _)
        · exact List.prefix_rfl
      exact hprefix.subset hmem

/-! ## Dots -/

theorem startsWith_dot_iff : startsWith t ['.'] = true ↔ t.head? = some '.' := by
  rw [startsWith_iff]
  cases t with
  | nil => simp
  | cons c t => simp

theorem head?_closeDots_true (t : Text) : ∀ c ∈ (closeDots true t).head?, isBlank c = false := by
  induction t with
  | nil => simp [closeDots]
  | cons d t ih =>
      rw [closeDots]
      split
      · exact ih
      · rename_i hblank
        simpa using hblank

theorem mem_takeWhile_closeDots {afterDot : Bool}
    (h : c ∈ (closeDots afterDot t).takeWhile isBlank) : c ∈ t.takeWhile isBlank := by
  induction t generalizing afterDot with
  | nil => exact h
  | cons d t ih =>
      rw [closeDots] at h
      split at h
      · rename_i hd
        rw [List.takeWhile_cons_of_pos hd]
        split at h
        · exact List.mem_cons_of_mem d (ih h)
        · rw [List.takeWhile_cons_of_pos hd] at h
          exact (List.mem_cons.1 h).elim (fun hc => hc ▸ List.mem_cons_self)
            fun hmem => List.mem_cons_of_mem d (ih hmem)
      · rename_i hd
        rw [List.takeWhile_cons_of_neg hd] at h
        cases h

/-- Without the blanks around dots, a text begins with the same character behind its blanks. -/
theorem head?_dropWhile_closeDots (afterDot : Bool) (t : Text) :
    ((closeDots afterDot t).dropWhile isBlank).head? = (t.dropWhile isBlank).head? := by
  induction t generalizing afterDot with
  | nil => rfl
  | cons d t ih =>
      rw [closeDots]
      split
      · rename_i hd
        rw [List.dropWhile_cons_of_pos hd]
        split
        · exact ih afterDot
        · rw [List.dropWhile_cons_of_pos hd, ih false]
      · rename_i hd
        rw [List.dropWhile_cons_of_neg hd, List.dropWhile_cons_of_neg hd]
        rfl

theorem Uncontinued.closeDots (h : Uncontinued t) (afterDot : Bool) :
    Uncontinued (closeDots afterDot t) := by
  induction t generalizing afterDot with
  | nil => trivial
  | cons d t ih =>
      rw [Outline.closeDots]
      split
      · split
        · exact ih h.2 afterDot
        · exact ⟨fun hd hmem => h.1 hd (mem_takeWhile_closeDots hmem), ih h.2 false⟩
      · exact ⟨fun hd hmem => h.1 hd (mem_takeWhile_closeDots hmem), ih h.2 _⟩

theorem tight_closeDots (afterDot : Bool) (t : Text) : Tight (closeDots afterDot t) := by
  induction t generalizing afterDot with
  | nil => trivial
  | cons d t ih =>
      rw [closeDots]
      split
      · rename_i hblank
        split
        · exact ih afterDot
        · rename_i hdot
          rw [Bool.or_eq_true, startsWith_dot_iff, not_or] at hdot
          refine ⟨fun _ => ?_, ?_, ih false⟩
          · rw [head?_dropWhile_closeDots]
            exact hdot.2
          · rintro rfl
            exact absurd hblank (by decide)
      · rename_i hblank
        refine ⟨fun hd => absurd hd hblank, ?_, ih _⟩
        rintro rfl
        exact head?_closeDots_true t

theorem closeDots_of_tight {afterDot : Bool} (h : Tight t)
    (hhead : afterDot = true → ∀ c ∈ t.head?, isBlank c = false) : closeDots afterDot t = t := by
  induction t generalizing afterDot with
  | nil => rfl
  | cons d t ih =>
      rw [closeDots]
      split
      · rename_i hblank
        have hafter : afterDot = false := by
          by_contra hafter
          have hsolid := hhead (by simpa using hafter) d rfl
          rw [hsolid] at hblank
          cases hblank
        have hdot : startsWith (t.dropWhile isBlank) ['.'] = false := by
          rw [Bool.eq_false_iff, ne_eq, startsWith_dot_iff]
          exact h.1 hblank
        rw [hafter, hdot, Bool.false_or, if_neg Bool.false_ne_true, ih h.2.2 (by simp)]
      · rw [ih h.2.2 fun hd => h.2.1 (by simpa using hd)]

theorem Tight.of_append_left (h : Tight (a ++ t)) : Tight t := by
  induction a with
  | nil => exact h
  | cons c a ih => exact ih h.2.2

theorem Tight.of_append_right (h : Tight (t ++ b)) : Tight t := by
  induction t with
  | nil => trivial
  | cons c t ih =>
      refine ⟨fun hc hdot => h.1 hc ?_, fun hc d hd => h.2.1 hc d ?_, ih h.2.2⟩
      · show ((t ++ b).dropWhile isBlank).head? = some '.'
        rw [List.dropWhile_append]
        split
        · rename_i hempty
          rw [List.isEmpty_iff.1 hempty] at hdot
          cases hdot
        · rw [List.head?_append, hdot]
          rfl
      · show d ∈ (t ++ b).head?
        rw [List.head?_append, Option.mem_def.1 hd]
        rfl

/-! ## Normal forms -/

theorem normal_normalize (t : Text) : Normal (normalize t) := by
  obtain ⟨a, b, -, -, heq⟩ := exists_trim (closeDots false (joinContinued false t))
  have huncontinued := (uncontinued_joinContinued false t).closeDots false
  have htight := tight_closeDots false (joinContinued false t)
  rw [heq] at huncontinued htight
  exact ⟨huncontinued.of_append_right.of_append_left, htight.of_append_right.of_append_left,
    trimmed_trim _⟩

theorem Normal.normalize_eq (h : Normal t) : normalize t = t := by
  rw [normalize, joinContinued_of_uncontinued h.uncontinued, closeDots_of_tight h.tight (by simp),
    trim_of_trimmed h.trimmed]

theorem normalize_normalize (t : Text) : normalize (normalize t) = normalize t :=
  (normal_normalize t).normalize_eq

theorem normal_of_no_blank (h : ∀ c ∈ t, isBlank c = false) : Normal t where
  uncontinued := by
    induction t with
    | nil => trivial
    | cons c t ih =>
        obtain ⟨-, ht⟩ := List.forall_mem_cons.1 h
        refine ⟨fun _ => ?_, ih ht⟩
        rw [takeWhile_eq_nil_of_head fun d hd => ht d (List.mem_of_head? hd)]
        exact List.not_mem_nil
  tight := by
    induction t with
    | nil => trivial
    | cons c t ih =>
        obtain ⟨hc, ht⟩ := List.forall_mem_cons.1 h
        exact ⟨fun hblank => absurd hblank (by simp [hc]),
          fun _ d hd => ht d (List.mem_of_head? hd), ih ht⟩
  trimmed := ⟨fun c hc => h c (List.mem_of_head? hc), fun c hc => h c (List.mem_of_getLast? hc)⟩

end CodeReference.Outline
