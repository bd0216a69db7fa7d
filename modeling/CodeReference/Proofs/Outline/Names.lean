import Mathlib
import CodeReference.Outline.SelectedName
import CodeReference.Proofs.Outline.Enclosing

/-!
What an outline is labelled with. Whatever a text contains, the labels of its blocks and the name
that a selection stands for are made of ASCII letters, digits, underscores and dots.
-/
namespace CodeReference.Outline

/-- Whether a text has only characters of names and dots. -/
def IsDotted (t : Text) : Prop := ∀ c ∈ t, isNameChar c = true ∨ c = '.'

theorem IsDotted.lineFeed_not_mem {t : Text} (h : IsDotted t) : '\n' ∉ t := by
  intro hmem
  rcases h '\n' hmem with h | h
  · exact absurd h (by decide)
  · exact absurd h (by decide)

theorem isNameChar_of_isNameStart {c : Char} (h : isNameStart c = true) : isNameChar c = true := by
  simp only [isNameStart, isNameChar, Char.isAlphanum, Bool.or_eq_true] at h ⊢
  exact h.imp_left Or.inl

/-! ## Headers -/

theorem isDotted_of_name? {t name rest : Text} (h : name? t = some (name, rest)) :
    IsDotted name := by
  unfold name? at h
  split at h
  · split at h
    · cases h
      exact fun c hc => .inl (List.mem_takeWhile_imp hc)
    · cases h
  · cases h

theorem isDotted_of_nameAfter? {keyword t name rest : Text}
    (h : nameAfter? keyword t = some (name, rest)) : IsDotted name := by
  unfold nameAfter? at h
  split at h
  · split at h
    · exact isDotted_of_name? h
    · cases h
  · cases h

theorem isDotted_of_className? {t name : Text} (h : className? t = some name) : IsDotted name := by
  obtain ⟨⟨name, rest⟩, hfound, rfl⟩ := Option.map_eq_some_iff.1 h
  exact isDotted_of_nameAfter? hfound

theorem isDotted_of_functionName? {t name : Text} (h : functionName? t = some name) :
    IsDotted name := by
  unfold functionName? at h
  split at h
  · rename_i hfound
    split at h
    · cases h
      exact isDotted_of_nameAfter? hfound
    · cases h
  · cases h

theorem isDotted_of_header? {t name : Text} {kind : BlockKind} (h : header? t = some (kind, name)) :
    IsDotted name := by
  unfold header? at h
  split at h
  · rename_i hclass
    cases h
    exact isDotted_of_className? hclass
  · obtain ⟨name, hfunction, heq⟩ := Option.map_eq_some_iff.1 h
    cases heq
    exact isDotted_of_functionName? hfunction

/-! ## Blocks -/

/-- Whether the name and the label of a draft have only characters of names and dots. -/
def Draft.IsDotted (d : Draft) : Prop := Outline.IsDotted d.name ∧ Outline.IsDotted d.label

variable {tabWidth : Int} {drafts : List Draft}

theorem isDotted_qualify {name : Text} (hname : IsDotted name)
    (h : ∀ d ∈ drafts, d.IsDotted) : IsDotted (qualify (owner? drafts) name) := by
  cases howner : owner? drafts with
  | none => exact hname
  | some c =>
      have hc : IsDotted c.name := (h c (List.mem_of_find?_eq_some howner)).1
      intro x hx
      simp only [qualify, List.append_assoc, List.mem_append, List.mem_singleton] at hx
      rcases hx with hx | rfl | hx
      · exact hc x hx
      · exact .inr rfl
      · exact hname x hx

theorem isDotted_labelOver {name : Text} (hname : IsDotted name) (h : ∀ d ∈ drafts, d.IsDotted)
    (kind : BlockKind) : IsDotted (labelOver drafts kind name) := by
  cases kind with
  | classBlock => exact hname
  | defBlock => exact isDotted_qualify hname h

theorem isDotted_map_closeAt (h : ∀ d ∈ drafts, d.IsDotted) (line : Nat) (indent : Int) :
    ∀ d ∈ drafts.map (Draft.closeAt line indent), d.IsDotted := by
  refine List.forall_mem_map.2 fun d hd => ?_
  rw [Draft.IsDotted, Draft.closeAt_name, Draft.closeAt_label]
  exact h d hd

theorem isDotted_scanLine (hstacked : Stacked drafts) (h : ∀ d ∈ drafts, d.IsDotted)
    (entry : Text × Nat) : ∀ d ∈ scanLine tabWidth drafts entry, d.IsDotted := by
  obtain ⟨line, number⟩ := entry
  cases hs : isSignificant (Text.trim line) with
  | false => rwa [scanLine_of_not_significant number hs]
  | true =>
      have hclosed := isDotted_map_closeAt h number (indentOf tabWidth line)
      rw [scanLine_of_significant tabWidth number hstacked hs]
      cases hh : header? (Text.trim line) with
      | none => exact hclosed
      | some found =>
          obtain ⟨kind, name⟩ := found
          have hname := isDotted_of_header? hh
          exact List.forall_mem_cons.2 ⟨⟨hname, isDotted_labelOver hname hclosed kind⟩, hclosed⟩

theorem isDotted_foldl_scanLine (tabWidth : Int) (entries : List (Text × Nat))
    (hstacked : Stacked drafts) (h : ∀ d ∈ drafts, d.IsDotted) :
    ∀ d ∈ entries.foldl (scanLine tabWidth) drafts, d.IsDotted := by
  induction entries generalizing drafts with
  | nil => exact h
  | cons entry entries ih => exact ih (hstacked.scanLine entry) (isDotted_scanLine hstacked h entry)

theorem isDotted_of_mem_blocks {t : Text} {b : Block} (h : b ∈ blocks tabWidth t) :
    IsDotted b.label := by
  obtain ⟨d, hd, rfl⟩ := List.mem_map.1 h
  have hall := isDotted_foldl_scanLine tabWidth (lines t).zipIdx List.Pairwise.nil
    (List.forall_mem_nil _)
  exact (hall d (List.mem_reverse.1 hd)).2

theorem isDotted_of_enclosing? {t : Text} {line : Int} {kind : BlockKind} {b : Block}
    (h : enclosing? (blocks tabWidth t) line kind = some b) : IsDotted b.label :=
  isDotted_of_mem_blocks ((enclosing?_eq_some_iff (pairwise_blocks tabWidth t)).1 h).1

/-! ## Selected names -/

theorem isDotted_of_isNameChain {startsName : Bool} {t : Text}
    (h : isNameChain startsName t = true) : IsDotted t := by
  fun_induction isNameChain startsName t with
  | case1 => exact List.forall_mem_nil _
  | case2 c t ih =>
      rw [Bool.and_eq_true] at h
      exact List.forall_mem_cons.2 ⟨.inl (isNameChar_of_isNameStart h.1), ih h.2⟩
  | case3 t ih => exact List.forall_mem_cons.2 ⟨.inr rfl, ih h⟩
  | case4 c t hc ih =>
      rw [Bool.and_eq_true] at h
      exact List.forall_mem_cons.2 ⟨.inl h.1, ih h.2⟩

theorem isDotted_of_selectedName? {selection name : Text} (h : selectedName? selection = some name) :
    IsDotted name := by
  simp only [selectedName?, Option.ite_none_left_eq_some] at h
  obtain ⟨-, h⟩ := h
  split at h
  · rename_i hchain
    cases h
    exact isDotted_of_isNameChain hchain
  · exact isDotted_of_className? h

end CodeReference.Outline
