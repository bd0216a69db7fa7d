import Mathlib
import CodeReference.Text.Source

/-!
Which sources are texts. A source of characters is the text of these, and of any other source the first
surrogates that stand together are reported.
-/
namespace CodeReference.Source

variable {s rest : Source} {t front : Text} {n : Fin 0x800}

/-- Whether all of a source are characters. -/
def IsText (s : Source) : Prop := ∃ t, s = ofText t

/-- Whether an error is about the first surrogates in a source, all that stand together there. -/
structure EncodeError.IsFirst (e : EncodeError) (s : Source) : Prop where
  exists_cut : ∃ (front : Text) (run rest : Source), s = ofText front ++ run ++ rest ∧
    run.head? = some (.surrogate e.surrogate) ∧ (∀ c ∈ run, c.isSurrogate = true) ∧
    (∀ c ∈ rest.head?, c.isSurrogate = false) ∧
    e.first = front.length ∧ e.last + 1 = front.length + run.length

theorem text_ofText (t : Text) : (ofText t).text = t := by
  rw [text, ofText, List.map_map]
  exact List.map_id t

theorem isText_or_exists_surrogate (s : Source) :
    s.IsText ∨ ∃ front n rest, s = ofText front ++ .surrogate n :: rest := by
  induction s with
  | nil => exact .inl ⟨[], rfl⟩
  | cons c s ih =>
      cases c with
      | surrogate n => exact .inr ⟨[], n, s, rfl⟩
      | char c =>
          rcases ih with ⟨t, rfl⟩ | ⟨front, n, rest, rfl⟩
          · exact .inl ⟨c :: t, rfl⟩
          · exact .inr ⟨c :: front, n, rest, rfl⟩

theorem go_ofText_append (pos : Nat) (t : Text) (rest : Source) :
    toText.go pos (ofText t ++ rest) = (toText.go (pos + t.length) rest).map (t ++ ·) := by
  induction t generalizing pos with
  | nil => cases h : toText.go pos rest <;> simp [ofText, h, Except.map]
  | cons c t ih =>
      have hpos : pos + 1 + t.length = pos + (c :: t).length := by
        rw [List.length_cons]
        omega
      have hgo : toText.go pos (ofText (c :: t) ++ rest) =
          (toText.go (pos + 1) (ofText t ++ rest)).map (c :: ·) := rfl
      rw [hgo, ih, hpos]
      cases toText.go (pos + (c :: t).length) rest <;> rfl

theorem toText_ofText (t : Text) : toText (ofText t) = .ok t := by
  have hgo := go_ofText_append 0 t []
  rw [List.append_nil] at hgo
  rw [toText, hgo, toText.go, Except.map, List.append_nil]

theorem toText_append_surrogate (front : Text) (n : Fin 0x800) (rest : Source) :
    toText (ofText front ++ .surrogate n :: rest) =
      .error ⟨n, front.length, front.length + (rest.takeWhile CodePoint.isSurrogate).length⟩ := by
  rw [toText, go_ofText_append, Nat.zero_add, toText.go]
  rfl

theorem toText_of_isText (h : s.IsText) : s.toText = .ok s.text := by
  obtain ⟨t, rfl⟩ := h
  rw [toText_ofText, text_ofText]

theorem exists_isFirst_of_not_isText (h : ¬ s.IsText) : ∃ e, s.toText = .error e ∧ e.IsFirst s := by
  obtain ⟨front, n, rest, rfl⟩ := (isText_or_exists_surrogate s).resolve_left h
  refine ⟨_, toText_append_surrogate front n rest, ⟨front,
    .surrogate n :: rest.takeWhile CodePoint.isSurrogate, rest.dropWhile CodePoint.isSurrogate,
    ?_, rfl, ?_, fun c hc => ?_, rfl, rfl⟩⟩
  · rw [List.append_assoc, List.cons_append, List.takeWhile_append_dropWhile]
  · intro c hc
    rcases List.mem_cons.1 hc with rfl | hc
    · rfl
    · exact List.mem_takeWhile_imp hc
  · have hnot := List.head?_dropWhile_not CodePoint.isSurrogate rest
    rw [hc] at hnot
    simpa using hnot

example : toText [.char 'a', .surrogate 0, .surrogate 1, .char 'b'] = .error ⟨0, 1, 2⟩ := by decide

theorem toText_eq_ok_iff : s.toText = .ok t ↔ s = ofText t := by
  refine ⟨fun h => ?_, fun h => h ▸ toText_ofText t⟩
  rcases isText_or_exists_surrogate s with ⟨u, rfl⟩ | ⟨front, n, rest, rfl⟩
  · rw [toText_ofText] at h
    cases h
    rfl
  · rw [toText_append_surrogate] at h
    cases h

end CodeReference.Source
