import Mathlib
import CodeReference.Text.Blank

/-!
Trimming cuts a list into a margin, what has none, and a margin again, and this cut is the only one.
Texts are trimmed of blanks.
-/
namespace CodeReference.Text

/-! ## Margins of lists -/

section
variable {α : Type} {p : α → Bool} {l m a b : List α}

def trimBy (p : α → Bool) (l : List α) : List α := (l.dropWhile p).rdropWhile p

def TrimmedBy (p : α → Bool) (l : List α) : Prop :=
  (∀ x ∈ l.head?, p x = false) ∧ ∀ x ∈ l.getLast?, p x = false

theorem trimBy_append_left (ha : ∀ x ∈ a, p x = true) : trimBy p (a ++ l) = trimBy p l := by
  rw [trimBy, trimBy, List.dropWhile_append_of_pos ha]

theorem rdropWhile_append_of_pos (hb : ∀ x ∈ b, p x = true) :
    (l ++ b).rdropWhile p = l.rdropWhile p := by
  induction b using List.reverseRecOn with
  | nil => rw [List.append_nil]
  | append_singleton b x ih =>
      obtain ⟨hb, hx⟩ := List.forall_mem_append.1 hb
      rw [← List.append_assoc, List.rdropWhile_concat_pos p _ x (hx x (by simp)), ih hb]

theorem trimBy_append_right (hb : ∀ x ∈ b, p x = true) : trimBy p (l ++ b) = trimBy p l := by
  rw [trimBy, List.dropWhile_append]
  split
  · rename_i h
    rw [List.isEmpty_iff] at h
    rw [show b.dropWhile p = [] from List.dropWhile_eq_nil_iff.2 hb, trimBy, h]
  · exact rdropWhile_append_of_pos hb

theorem trimBy_of_trimmedBy (h : TrimmedBy p l) : trimBy p l = l := by
  have hstart : l.dropWhile p = l := by
    cases l with
    | nil => rfl
    | cons x l => rw [List.dropWhile_cons_of_neg (by simp [h.1 x rfl])]
  rw [trimBy, hstart, List.rdropWhile_eq_self_iff]
  intro hne
  rw [h.2 _ (List.getLast?_eq_getLast_of_ne_nil hne ▸ rfl)]
  exact Bool.false_ne_true

theorem trimmedBy_trimBy (p : α → Bool) (l : List α) : TrimmedBy p (trimBy p l) := by
  refine ⟨fun x hx => ?_, fun x hx => ?_⟩
  · obtain ⟨r, hr⟩ := List.rdropWhile_prefix p (l.dropWhile p)
    have hhead : (l.dropWhile p).head? = some x := by
      rw [← hr, List.head?_append, show ((l.dropWhile p).rdropWhile p).head? = some x from hx]
      rfl
    have hnot := List.head?_dropWhile_not p l
    simpa [hhead] using hnot
  · rw [trimBy] at hx
    have hne : (l.dropWhile p).rdropWhile p ≠ [] := by
      rintro h
      simp [h] at hx
    have hlast := List.rdropWhile_last_not p _ hne
    rw [List.getLast_of_getLast?_eq_some hx] at hlast
    simpa using hlast

theorem exists_trimBy (p : α → Bool) (l : List α) :
    ∃ a b, (∀ x ∈ a, p x = true) ∧ (∀ x ∈ b, p x = true) ∧ l = a ++ trimBy p l ++ b := by
  refine ⟨l.takeWhile p, (l.dropWhile p).rtakeWhile p, fun x hx => List.mem_takeWhile_imp hx,
    fun x hx => List.mem_rtakeWhile_imp hx, ?_⟩
  rw [List.append_assoc, trimBy, List.rdropWhile_append_rtakeWhile,
    List.takeWhile_append_dropWhile]

/-- What stands between two margins and has none itself is what trimming leaves. -/
theorem trimBy_eq_of_eq (ha : ∀ x ∈ a, p x = true) (hb : ∀ x ∈ b, p x = true)
    (hm : TrimmedBy p m) (h : l = a ++ m ++ b) : trimBy p l = m := by
  rw [h, trimBy_append_right hb, trimBy_append_left ha, trimBy_of_trimmedBy hm]

end

/-! ## Blanks of texts -/

def Blanks (t : Text) : Prop := ∀ c ∈ t, isBlank c = true

def Trimmed (t : Text) : Prop := TrimmedBy isBlank t

variable {t u : Text}

theorem isBlankLine_iff : isBlankLine t = true ↔ Blanks t := List.all_eq_true

theorem Blanks.append (ht : Blanks t) (hu : Blanks u) : Blanks (t ++ u) :=
  List.forall_mem_append.2 ⟨ht, hu⟩

theorem Blanks.cons {c : Char} (hc : isBlank c = true) (ht : Blanks t) : Blanks (c :: t) :=
  List.forall_mem_cons.2 ⟨hc, ht⟩

theorem blanks_nil : Blanks [] := by simp [Blanks]

theorem Blanks.not_mem {c : Char} (ht : Blanks t) (hc : isBlank c = false) : c ∉ t := fun h => by
  rw [ht c h] at hc
  cases hc

theorem Trimmed.between (ht : Trimmed t) (hu : Trimmed u) (htne : t ≠ []) (hune : u ≠ [])
    (m : Text) : Trimmed (t ++ m ++ u) := by
  refine ⟨fun c hc => ht.1 c ?_, fun c hc => hu.2 c ?_⟩
  · cases t with
    | nil => exact absurd rfl htne
    | cons d t => exact hc
  · rwa [List.getLast?_append_of_ne_nil _ hune] at hc

theorem dropEndWhile_eq_rdropWhile (p : Char → Bool) (t : Text) :
    dropEndWhile p t = t.rdropWhile p := by
  have hconcat : ∀ (t : Text) (c : Char),
      dropEndWhile p (t ++ [c]) = if p c then dropEndWhile p t else t ++ [c] := by
    intro t c
    induction t with
    | nil => simp [dropEndWhile]
    | cons a t ih =>
        rw [List.cons_append, dropEndWhile, ih, dropEndWhile]
        by_cases hc : p c = true
        · simp only [if_pos hc]
        · simp only [if_neg hc]
          cases t <;> rfl
  induction t using List.reverseRecOn with
  | nil => rfl
  | append_singleton t c ih => rw [hconcat, List.rdropWhile_concat, ih]

theorem trim_eq_trimBy (t : Text) : trim t = trimBy isBlank t := by
  rw [trim, trimEnd, dropEndWhile_eq_rdropWhile]
  rfl

theorem trim_of_trimmed (h : Trimmed t) : trim t = t := by
  rw [trim_eq_trimBy, trimBy_of_trimmedBy h]

theorem trim_append_left (ht : Blanks t) : trim (t ++ u) = trim u := by
  simp only [trim_eq_trimBy, trimBy_append_left ht]

theorem trim_append_right (hu : Blanks u) : trim (t ++ u) = trim t := by
  simp only [trim_eq_trimBy, trimBy_append_right hu]

theorem trim_of_blanks (ht : Blanks t) : trim t = [] := by
  have h := trim_append_left (u := []) ht
  rwa [List.append_nil] at h

theorem trimmed_trim (t : Text) : Trimmed (trim t) := by
  rw [trim_eq_trimBy]
  exact trimmedBy_trimBy isBlank t

@[simp] theorem trim_trim (t : Text) : trim (trim t) = trim t := trim_of_trimmed (trimmed_trim t)

theorem exists_trim (t : Text) : ∃ a b, Blanks a ∧ Blanks b ∧ t = a ++ trim t ++ b := by
  rw [trim_eq_trimBy]
  exact exists_trimBy isBlank t

theorem trim_eq_nil_iff : trim t = [] ↔ Blanks t := by
  refine ⟨fun h => ?_, trim_of_blanks⟩
  obtain ⟨a, b, ha, hb, heq⟩ := exists_trim t
  rw [heq, h, List.append_nil]
  exact ha.append hb

theorem trim_eq_of_eq {a b : Text} (ha : Blanks a) (hb : Blanks b) (hu : Trimmed u)
    (h : t = a ++ u ++ b) : trim t = u := by
  rw [trim_eq_trimBy, trimBy_eq_of_eq ha hb hu h]

end CodeReference.Text
