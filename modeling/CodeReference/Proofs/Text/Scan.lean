import Mathlib
import CodeReference.Text.Basic

/-!
What a text starts with: a given text, characters of a class, or everything through the first
occurrence of a text. Each is found exactly where it is, whatever follows.
-/
namespace CodeReference.Text

variable {p t u r x : Text}

/-! ## A given text -/

theorem dropPrefix?_append (p r : Text) : dropPrefix? p (p ++ r) = some r := by
  induction p with
  | nil => cases r <;> rfl
  | cons a p ih => simp [dropPrefix?, ih]

theorem dropPrefix?_eq_some_iff : dropPrefix? p t = some r ↔ t = p ++ r :=
  ⟨eq_append_of_dropPrefix?, fun h => h ▸ dropPrefix?_append p r⟩

theorem startsWith_iff : startsWith t p = true ↔ ∃ r, t = p ++ r := by
  simp only [startsWith, Option.isSome_iff_exists, dropPrefix?_eq_some_iff]

theorem dropPrefix?_eq_none_iff : dropPrefix? p t = none ↔ ¬ p <+: t := by
  rw [Option.eq_none_iff_forall_ne_some]
  simp only [ne_eq, dropPrefix?_eq_some_iff]
  exact ⟨fun h ⟨r, hr⟩ => h r hr.symm, fun h r hr => h ⟨r, hr.symm⟩⟩

/-! ## Characters of a class -/

theorem takeWhile_append_of_stop {class? : Char → Bool} (ht : ∀ c ∈ t, class? c = true)
    (hu : ∀ c ∈ u.head?, class? c = false) : (t ++ u).takeWhile class? = t := by
  rw [List.takeWhile_append_of_pos ht]
  cases u with
  | nil => simp
  | cons c u => simp [hu c rfl]

theorem dropWhile_append_of_stop {class? : Char → Bool} (ht : ∀ c ∈ t, class? c = true)
    (hu : ∀ c ∈ u.head?, class? c = false) : (t ++ u).dropWhile class? = u := by
  rw [List.dropWhile_append_of_pos ht]
  cases u with
  | nil => simp
  | cons c u => simp [hu c rfl]

theorem head?_dropWhile_stop (class? : Char → Bool) (t : Text) :
    ∀ c ∈ (t.dropWhile class?).head?, class? c = false := by
  intro c hc
  have h := List.head?_dropWhile_not class? t
  rw [hc] at h
  simpa using h

/-! ## Everything through the first occurrence -/

theorem suffix_of_through? (h : through? p t = some (x, r)) : p <:+ x := by
  induction t generalizing x r with
  | nil =>
      simp only [through?, Option.map_eq_some_iff, Prod.mk.injEq] at h
      obtain ⟨_, _, rfl, _⟩ := h
      exact List.suffix_rfl
  | cons a t ih =>
      rw [through?] at h
      split at h
      · cases h
        exact List.suffix_rfl
      · simp only [Option.map_eq_some_iff, Prod.mk.injEq, Prod.exists] at h
        obtain ⟨y, _, h, rfl, _⟩ := h
        exact (ih h).trans (List.suffix_cons a y)

theorem through?_self (p : Text) : through? p p = some (p, []) := by
  cases p with
  | nil => rfl
  | cons a p =>
      have h := dropPrefix?_append (a :: p) []
      rw [List.append_nil] at h
      rw [through?, h]

/-- What is read through the first occurrence does not depend on what follows. -/
theorem through?_append_of (h : through? p x = some (x, [])) (r : Text) :
    through? p (x ++ r) = some (x, r) := by
  induction x with
  | nil =>
      simp only [through?, Option.map_eq_some_iff, Prod.mk.injEq] at h
      obtain ⟨_, _, rfl, _⟩ := h
      cases r <;> rfl
  | cons a x ih =>
      rw [through?] at h
      rw [List.cons_append, through?]
      split at h
      · rename_i s hs
        cases h
        have := dropPrefix?_append (a :: x) r
        rw [List.cons_append] at this
        rw [this]
      · rename_i hn
        simp only [Option.map_eq_some_iff, Prod.mk.injEq, Prod.exists] at h
        obtain ⟨y, s, h, hy, rfl⟩ := h
        obtain ⟨-, rfl⟩ := List.cons.inj hy
        -- An occurrence that reaches into `r` would be longer than the one that ends `y`.
        have hnone : dropPrefix? p (a :: (y ++ r)) = none := by
          rw [dropPrefix?_eq_none_iff] at hn ⊢
          intro hp
          refine hn (List.prefix_of_prefix_length_le hp ⟨r, rfl⟩ ?_)
          have := (suffix_of_through? h).length_le
          simp only [List.length_cons]
          omega
        rw [hnone, ih h]
        rfl

theorem through?_of_append (h : through? p t = some (x, r)) : through? p x = some (x, []) := by
  induction t generalizing x with
  | nil =>
      simp only [through?, Option.map_eq_some_iff, Prod.mk.injEq] at h
      obtain ⟨_, _, rfl, _⟩ := h
      exact through?_self p
  | cons a t ih =>
      rw [through?] at h
      split at h
      · cases h
        exact through?_self p
      · rename_i hn
        simp only [Option.map_eq_some_iff, Prod.mk.injEq, Prod.exists] at h
        obtain ⟨y, s, h, rfl, rfl⟩ := h
        have hy := through?_append h
        rw [dropPrefix?_eq_none_iff] at hn
        have hnone : dropPrefix? p (a :: y) = none := by
          rw [dropPrefix?_eq_none_iff]
          intro hp
          exact hn (hp.trans (by rw [← hy, ← List.cons_append]; exact List.prefix_append _ _))
        rw [through?, hnone, ih h]
        rfl

theorem through?_eq_none_iff : through? p t = none ↔ ¬ p <:+: t := by
  induction t with
  | nil =>
      rw [through?, Option.map_eq_none_iff, dropPrefix?_eq_none_iff, List.infix_nil,
        List.prefix_nil]
  | cons a t ih =>
      rw [List.infix_cons_iff, not_or, ← dropPrefix?_eq_none_iff, ← ih, through?]
      cases dropPrefix? p (a :: t) <;> simp

/-- No occurrence ends before the first one. -/
theorem length_le_of_through? {a b : Text} (h : through? p t = some (x, r))
    (ht : t = a ++ p ++ b) : x.length ≤ (a ++ p).length := by
  have hself : p.length ≤ (a ++ p).length := (List.suffix_append a p).length_le
  induction t generalizing x a with
  | nil =>
      simp only [through?, Option.map_eq_some_iff, Prod.mk.injEq] at h
      obtain ⟨_, _, rfl, _⟩ := h
      exact hself
  | cons c t ih =>
      rw [through?] at h
      split at h
      · cases h
        exact hself
      · rename_i hn
        simp only [Option.map_eq_some_iff, Prod.mk.injEq, Prod.exists] at h
        obtain ⟨y, s, h, rfl, rfl⟩ := h
        cases a with
        | nil => exact absurd ⟨b, ht.symm⟩ (dropPrefix?_eq_none_iff.1 hn)
        | cons d a =>
            have hy := ih h (List.cons.inj ht).2 (List.suffix_append a p).length_le
            rw [List.cons_append, List.length_cons, List.length_cons]
            omega

/-- Nothing is left behind the first occurrence if none ends before the end. -/
theorem nothing_after_through?_iff : (∀ x r, through? p t = some (x, r) → r = []) ↔
    ∀ a b, t = a ++ p ++ b → b = [] := by
  constructor
  · intro h a b ht
    cases hx : through? p t with
    | none => exact absurd ⟨a, b, ht.symm⟩ (through?_eq_none_iff.1 hx)
    | some xr =>
        obtain ⟨x, r⟩ := xr
        obtain rfl := h x r hx
        have hlength := length_le_of_through? hx ht
        have heq := congrArg List.length ((through?_append hx).trans ht)
        simp only [List.length_append, List.length_nil] at heq hlength
        exact List.length_eq_zero_iff.1 (by omega)
  · intro h x r hx
    obtain ⟨a, rfl⟩ := suffix_of_through? hx
    exact h a r (through?_append hx).symm

end CodeReference.Text
