import Mathlib
import CodeReference.Markup.Token
import CodeReference.Proofs.Text.Trim

/-!
Texts with each run of blanks as one space. Characters that are not blank stay, and in their order,
so a text can be cut at them before or after its blanks are collapsed.
-/
namespace CodeReference.Markup
open Text

variable {t u : Text}

/-! ## Collapsing blanks -/

theorem collapseBlanks_append_cons (inRun : Bool) (t : Text) {c : Char} (hc : isBlank c = false)
    (u : Text) :
    collapseBlanks inRun (t ++ c :: u) = collapseBlanks inRun t ++ c :: collapseBlanks false u := by
  induction t generalizing inRun with
  | nil => simp [collapseBlanks, hc]
  | cons a t ih =>
      simp only [List.cons_append, collapseBlanks, ih]
      cases isBlank a <;> cases inRun <;> rfl

theorem collapseBlanks_true_of_blanks (ht : Blanks t) (u : Text) :
    collapseBlanks true (t ++ u) = collapseBlanks true u := by
  induction t with
  | nil => rfl
  | cons a t ih =>
      obtain ⟨ha, ht⟩ := List.forall_mem_cons.1 ht
      simp [collapseBlanks, ha, ih ht]

theorem collapseBlanks_of_head {c : Char} (hc : isBlank c = false) (inRun : Bool) (t : Text) :
    collapseBlanks inRun (c :: t) = c :: collapseBlanks false t := by
  simp [collapseBlanks, hc]

theorem blanks_collapseBlanks {inRun : Bool} : Blanks (collapseBlanks inRun t) ↔ Blanks t := by
  induction t generalizing inRun with
  | nil => simp [collapseBlanks]
  | cons a t ih =>
      have hspace : isBlank ' ' = true := by decide
      simp only [collapseBlanks, Blanks, List.forall_mem_cons] at ih ⊢
      by_cases ha : isBlank a = true
      · cases inRun <;> simp [ha, hspace, ih]
      · simp [ha]

theorem collapseBlanks_eq_nil_iff : collapseBlanks false t = [] ↔ t = [] := by
  cases t with
  | nil => simp [collapseBlanks]
  | cons c t => by_cases hc : isBlank c = true <;> simp [collapseBlanks, hc]

theorem collapseBlanks_collapseBlanks (inRun : Bool) (t : Text) :
    collapseBlanks inRun (collapseBlanks inRun t) = collapseBlanks inRun t := by
  induction t generalizing inRun with
  | nil => rfl
  | cons a t ih =>
      have hspace : isBlank ' ' = true := by decide
      by_cases ha : isBlank a = true
      · cases inRun <;> simp [collapseBlanks, ha, hspace, ih]
      · simp [collapseBlanks, ha, ih]

/-- A character that is not blank was there before the blanks were collapsed. -/
theorem eq_append_cons_of_collapseBlanks {inRun : Bool} {c : Char} (hc : isBlank c = false)
    {x y : Text} (h : collapseBlanks inRun t = x ++ c :: y) :
    ∃ a b, t = a ++ c :: b ∧ collapseBlanks inRun a = x ∧ collapseBlanks false b = y := by
  induction t generalizing inRun x with
  | nil => simp [collapseBlanks] at h
  | cons d t ih =>
      by_cases hd : isBlank d = true
      · cases inRun with
        | true =>
            rw [collapseBlanks, if_pos hd, if_pos rfl] at h
            obtain ⟨a, b, rfl, ha, hb⟩ := ih h
            exact ⟨d :: a, b, rfl, by simp [collapseBlanks, hd, ha], hb⟩
        | false =>
            rw [collapseBlanks, if_pos hd, if_neg (by simp)] at h
            cases x with
            | nil =>
                rw [List.nil_append, List.cons.injEq] at h
                rw [← h.1] at hc
                exact absurd hc (by decide)
            | cons e x =>
                rw [List.cons_append, List.cons.injEq] at h
                obtain ⟨rfl, h⟩ := h
                obtain ⟨a, b, rfl, ha, hb⟩ := ih h
                exact ⟨d :: a, b, rfl, by simp [collapseBlanks, hd, ha], hb⟩
      · rw [collapseBlanks, if_neg hd] at h
        cases x with
        | nil =>
            rw [List.nil_append, List.cons.injEq] at h
            exact ⟨[], t, by rw [h.1]; rfl, rfl, h.2⟩
        | cons e x =>
            rw [List.cons_append, List.cons.injEq] at h
            obtain ⟨rfl, h⟩ := h
            obtain ⟨a, b, rfl, ha, hb⟩ := ih h
            exact ⟨d :: a, b, rfl, by simp [collapseBlanks, hd, ha], hb⟩

theorem collapseBlanks_append_of_solid (ht : ∀ c ∈ t, isBlank c = false) (u : Text) :
    collapseBlanks false (t ++ u) = t ++ collapseBlanks false u := by
  induction t with
  | nil => rfl
  | cons c t ih =>
      obtain ⟨hc, ht⟩ := List.forall_mem_cons.1 ht
      rw [List.cons_append, collapseBlanks_of_head hc, ih ht, List.cons_append]

theorem eq_append_of_collapseBlanks {v x : Text} (hv : ∀ c ∈ v, isBlank c = false)
    (h : collapseBlanks false t = v ++ x) : ∃ b, t = v ++ b ∧ collapseBlanks false b = x := by
  induction v generalizing t with
  | nil => exact ⟨t, rfl, h⟩
  | cons c v ih =>
      obtain ⟨hc, hv⟩ := List.forall_mem_cons.1 hv
      obtain ⟨a, b, rfl, ha, hb⟩ := eq_append_cons_of_collapseBlanks hc (x := []) h
      obtain ⟨b', rfl, hb'⟩ := ih hv hb
      rw [collapseBlanks_eq_nil_iff.1 ha]
      exact ⟨b', rfl, hb'⟩

/-- A run of blanks before a text that starts with none is one space. -/
theorem collapseBlanks_run (ht : Blanks t) (hne : t ≠ []) (hu : ∀ c ∈ u.head?, isBlank c = false) :
    collapseBlanks false (t ++ u) = ' ' :: collapseBlanks false u := by
  cases t with
  | nil => exact absurd rfl hne
  | cons c t =>
      obtain ⟨hc, ht⟩ := List.forall_mem_cons.1 ht
      rw [List.cons_append, collapseBlanks, if_pos hc, if_neg (by simp),
        collapseBlanks_true_of_blanks ht]
      cases u with
      | nil => rfl
      | cons d u =>
          have hd := hu d rfl
          rw [collapseBlanks_of_head hd, collapseBlanks_of_head hd]

theorem collapseBlanks_append_of_head (hu : ∀ c ∈ u.head?, isBlank c = false) (hne : u ≠ [])
    (inRun : Bool) (t : Text) :
    collapseBlanks inRun (t ++ u) = collapseBlanks inRun t ++ collapseBlanks false u := by
  cases u with
  | nil => exact absurd rfl hne
  | cons c u =>
      have hc := hu c rfl
      rw [collapseBlanks_append_cons _ _ hc, collapseBlanks_of_head hc]

theorem collapseBlanks_append_of_getLast (ht : ∀ c ∈ t.getLast?, isBlank c = false) (hne : t ≠ [])
    (inRun : Bool) (u : Text) :
    collapseBlanks inRun (t ++ u) = collapseBlanks inRun t ++ collapseBlanks false u := by
  induction t using List.reverseRecOn with
  | nil => exact absurd rfl hne
  | append_singleton t c =>
      have hc := ht c (by simp)
      rw [List.append_assoc, List.singleton_append, collapseBlanks_append_cons _ _ hc,
        collapseBlanks_append_cons _ _ hc]
      simp [collapseBlanks]

theorem trimmed_collapseBlanks (ht : Trimmed t) : Trimmed (collapseBlanks false t) := by
  refine ⟨fun c hc => ?_, fun c hc => ?_⟩
  · cases t with
    | nil => simp [collapseBlanks] at hc
    | cons d t =>
        have hd := ht.1 d rfl
        rw [collapseBlanks_of_head hd, List.head?_cons, Option.mem_some_iff] at hc
        exact hc ▸ hd
  · induction t using List.reverseRecOn with
    | nil => simp [collapseBlanks] at hc
    | append_singleton t d =>
        have hd := ht.2 d (by simp)
        rw [collapseBlanks_append_cons _ _ hd] at hc
        simp only [collapseBlanks, List.getLast?_append, List.getLast?_singleton, Option.some_or,
          Option.mem_some_iff] at hc
        exact hc ▸ hd

/-- Texts in which blanks are spaces, and no two of them stand together. -/
structure SingleSpaced (t : Text) : Prop where
  space : ∀ c ∈ t, isBlank c = true → c = ' '
  single : ¬ [' ', ' '] <:+: t

theorem SingleSpaced.cons {c : Char} (h : SingleSpaced t) (hblank : isBlank c = true → c = ' ')
    (hc : c = ' ' → t.head? ≠ some ' ') : SingleSpaced (c :: t) := by
  refine ⟨List.forall_mem_cons.2 ⟨hblank, h.space⟩, fun hs => ?_⟩
  rcases List.infix_cons_iff.1 hs with hp | hs
  · obtain ⟨v, hv⟩ := hp
    obtain ⟨rfl, rfl⟩ := List.cons.inj hv
    exact hc rfl rfl
  · exact h.single hs

theorem head?_collapseBlanks_true (t : Text) : (collapseBlanks true t).head? ≠ some ' ' := by
  induction t with
  | nil => simp [collapseBlanks]
  | cons c t ih =>
      have hspace : isBlank ' ' = true := by decide
      rw [collapseBlanks]
      split
      · exact ih
      · rename_i hc
        intro heq
        obtain rfl : c = ' ' := by simpa using heq
        exact hc hspace

theorem singleSpaced_collapseBlanks (inRun : Bool) (t : Text) :
    SingleSpaced (collapseBlanks inRun t) := by
  induction t generalizing inRun with
  | nil => exact ⟨by simp [collapseBlanks], by simp [collapseBlanks]⟩
  | cons c t ih =>
      rw [collapseBlanks]
      split
      · split
        · exact ih true
        · exact (ih true).cons (fun _ => rfl) fun _ => head?_collapseBlanks_true t
      · rename_i hc
        refine (ih false).cons (fun hblank => absurd hblank hc) ?_
        rintro rfl
        exact absurd (by decide) hc

/-! ## Attributes -/

/-- Trimming and collapsing can change places. -/
theorem normalizeAttributes_eq (t : Text) :
    normalizeAttributes t = collapseBlanks false (Text.trim t) := by
  obtain ⟨a, b, ha, hb, heq⟩ := exists_trim t
  have htrim := trimmed_trim t
  generalize Text.trim t = core at heq htrim ⊢
  subst heq
  by_cases hne : core = []
  · subst hne
    rw [List.append_nil, normalizeAttributes,
      trim_of_blanks (blanks_collapseBlanks.2 (ha.append hb))]
    rfl
  · rw [List.append_assoc, normalizeAttributes]
    refine trim_eq_of_eq (a := collapseBlanks false a) (b := collapseBlanks false b)
      (blanks_collapseBlanks.2 ha) (blanks_collapseBlanks.2 hb) (trimmed_collapseBlanks htrim) ?_
    have hhead : ∀ c ∈ (core ++ b).head?, isBlank c = false := fun c hc => htrim.1 c (by
      cases core with
      | nil => exact absurd rfl hne
      | cons d core => exact hc)
    rw [collapseBlanks_append_of_head hhead (by simp [hne]),
      collapseBlanks_append_of_getLast htrim.2 hne, List.append_assoc]

theorem normalizeAttributes_trim (t : Text) :
    normalizeAttributes (Text.trim t) = normalizeAttributes t := by
  rw [normalizeAttributes_eq, normalizeAttributes_eq, trim_trim]

theorem trimmed_normalizeAttributes (t : Text) : Trimmed (normalizeAttributes t) :=
  trimmed_trim _

@[simp] theorem normalizeAttributes_normalizeAttributes (t : Text) :
    normalizeAttributes (normalizeAttributes t) = normalizeAttributes t := by
  rw [normalizeAttributes_eq, trim_of_trimmed (trimmed_normalizeAttributes t),
    normalizeAttributes_eq, collapseBlanks_collapseBlanks]

theorem singleSpaced_normalizeAttributes (t : Text) : SingleSpaced (normalizeAttributes t) := by
  rw [normalizeAttributes_eq]
  exact singleSpaced_collapseBlanks false _

theorem normalizeAttributes_append_left (ht : Blanks t) :
    normalizeAttributes (t ++ u) = normalizeAttributes u := by
  rw [normalizeAttributes_eq, normalizeAttributes_eq, trim_append_left ht]

theorem normalizeAttributes_append_right (hu : Blanks u) :
    normalizeAttributes (t ++ u) = normalizeAttributes t := by
  rw [normalizeAttributes_eq, normalizeAttributes_eq, trim_append_right hu]

theorem mem_of_mem_normalizeAttributes {c : Char} (hc : isBlank c = false)
    (h : c ∈ normalizeAttributes t) : c ∈ t := by
  rw [normalizeAttributes_eq] at h
  obtain ⟨x, y, hxy⟩ := List.append_of_mem h
  obtain ⟨a, b, hab, -, -⟩ := eq_append_cons_of_collapseBlanks hc hxy
  obtain ⟨l, r, -, -, heq⟩ := exists_trim t
  rw [heq, hab]
  simp

/-- Two texts with one space between them, unless one of them is empty. -/
def spaced (t u : Text) : Text := if t = [] then u else if u = [] then t else t ++ ' ' :: u

theorem normalizeAttributes_append_cons {c : Char} (hc : isBlank c = true) (t u : Text) :
    normalizeAttributes (t ++ c :: u) = spaced (normalizeAttributes t) (normalizeAttributes u) := by
  by_cases ht : Blanks t
  · have htc : Blanks (t ++ [c]) := ht.append (blanks_nil.cons hc)
    rw [← List.singleton_append, ← List.append_assoc, normalizeAttributes_append_left htc,
      normalizeAttributes_eq t, trim_of_blanks ht]
    rfl
  · by_cases hu : Blanks u
    · rw [normalizeAttributes_append_right (hu.cons hc), normalizeAttributes_eq u,
        trim_of_blanks hu]
      simp [spaced, collapseBlanks]
    · rw [← trim_eq_nil_iff] at ht hu
      obtain ⟨a, b, ha, hb, heq⟩ := exists_trim t
      obtain ⟨a', b', ha', hb', heq'⟩ := exists_trim u
      have htTrim := trimmed_trim t
      have huTrim := trimmed_trim u
      rw [normalizeAttributes_eq t, normalizeAttributes_eq u, normalizeAttributes_eq]
      generalize Text.trim t = core at *
      generalize Text.trim u = core' at *
      have hgap : Blanks (b ++ c :: a') := hb.append (ha'.cons hc)
      have htrim : Text.trim (t ++ c :: u) = core ++ (b ++ c :: a') ++ core' :=
        trim_eq_of_eq ha hb' (htTrim.between huTrim ht hu _) (by simp [heq, heq'])
      rw [htrim, List.append_assoc, collapseBlanks_append_of_getLast htTrim.2 ht,
        collapseBlanks_run hgap (by simp) huTrim.1, spaced,
        if_neg (mt collapseBlanks_eq_nil_iff.1 ht), if_neg (mt collapseBlanks_eq_nil_iff.1 hu)]

end CodeReference.Markup
