/-!
A text is the list of its characters, so an offset in it is an index and a cut is `take` or `drop`.
-/
namespace CodeReference

abbrev Text := List Char

namespace Text

def dropPrefix? : (p t : Text) → Option Text
  | [], t => some t
  | _ :: _, [] => none
  | a :: p, b :: t => if a = b then dropPrefix? p t else none

def startsWith (t p : Text) : Bool := (dropPrefix? p t).isSome

theorem eq_append_of_dropPrefix? {p t r : Text} (h : dropPrefix? p t = some r) : t = p ++ r := by
  induction p generalizing t with
  | nil => simpa [dropPrefix?] using h
  | cons a p ih =>
    cases t with
    | nil => simp [dropPrefix?] at h
    | cons b t =>
      by_cases hab : a = b
      · simp only [dropPrefix?, hab, ↓reduceIte] at h
        simp [hab, ih h]
      · simp [dropPrefix?, hab] at h

/-- The text through the first occurrence of `p`, and the text after it. -/
def through? (p : Text) : Text → Option (Text × Text)
  | [] => (dropPrefix? p []).map fun r => (p, r)
  | a :: t =>
    match dropPrefix? p (a :: t) with
    | some r => some (p, r)
    | none => (through? p t).map fun (x, r) => (a :: x, r)

theorem through?_append {p t x r : Text} (h : through? p t = some (x, r)) : x ++ r = t := by
  induction t generalizing x with
  | nil =>
    simp only [through?, Option.map_eq_some_iff, Prod.mk.injEq] at h
    obtain ⟨r', h', rfl, rfl⟩ := h
    exact (eq_append_of_dropPrefix? h').symm
  | cons a t ih =>
    rw [through?] at h
    split at h
    · rename_i r' h'
      cases h
      exact (eq_append_of_dropPrefix? h').symm
    · simp only [Option.map_eq_some_iff, Prod.mk.injEq, Prod.exists] at h
      obtain ⟨x', r', h', rfl, rfl⟩ := h
      simp [ih h']

theorem through?_ne_nil {p t x r : Text} (hp : p ≠ []) (h : through? p t = some (x, r)) :
    x ≠ [] := by
  cases t with
  | nil =>
    simp only [through?, Option.map_eq_some_iff, Prod.mk.injEq] at h
    obtain ⟨_, _, rfl, _⟩ := h
    exact hp
  | cons a t =>
    rw [through?] at h
    split at h
    · cases h
      exact hp
    · simp only [Option.map_eq_some_iff, Prod.mk.injEq, Prod.exists] at h
      obtain ⟨_, _, _, rfl, _⟩ := h
      simp

def join (sep : Text) : List Text → Text
  | [] => []
  | [t] => t
  | t :: u :: r => t ++ sep ++ join sep (u :: r)

/-- The pieces of a text between the occurrences of `c`; there is always at least one. -/
def splitOn (c : Char) : Text → List Text
  | [] => [[]]
  | a :: t =>
    if a = c then [] :: splitOn c t
    else
      match splitOn c t with
      | [] => [[a]]
      | l :: r => (a :: l) :: r

theorem splitOn_ne_nil (c : Char) (t : Text) : splitOn c t ≠ [] := by
  cases t with
  | nil => simp [splitOn]
  | cons a t =>
    rw [splitOn]
    split
    · simp
    · split <;> simp

theorem join_splitOn (c : Char) (t : Text) : join [c] (splitOn c t) = t := by
  induction t with
  | nil => rfl
  | cons a t ih =>
    have hne := splitOn_ne_nil c t
    by_cases h : a = c
    · cases hs : splitOn c t with
      | nil => exact absurd hs hne
      | cons l r => rw [hs] at ih; simp [splitOn, h, hs, join, ih]
    · cases hs : splitOn c t with
      | nil => exact absurd hs hne
      | cons l r =>
        rw [hs] at ih
        cases r with
        | nil => simp_all [splitOn, join]
        | cons m r => simp_all [splitOn, join]

/-- Where a bound falls in a text of `n` characters: a negative one counts from the end, and
all are clamped to the text. -/
def clampBound (n : Nat) (i : Int) : Nat :=
  if i < 0 then (n + i).toNat else min i.toNat n

def slice (t : Text) (a b : Int) : Text :=
  (t.take (clampBound t.length b)).drop (clampBound t.length a)

def times (n : Nat) (t : Text) : Text := (List.replicate n t).flatten

def ofInt (i : Int) : Text := (toString i).toList

end Text
end CodeReference
