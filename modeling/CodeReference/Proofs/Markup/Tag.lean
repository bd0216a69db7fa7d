import Mathlib
import CodeReference.Markup.Segment
import CodeReference.Proofs.Text.Scan

/-!
The parts of a tag, said without the scanner: names, closing brackets, and the two kinds of tags.
-/
namespace CodeReference.Markup
open Text

variable {t r w body : Text} {slash : Bool}

/-! ## Names -/

structure IsName (w : Text) : Prop where
  head : ∃ c ∈ w.head?, isNameStart c = true
  all : ∀ c ∈ w, isNameChar c = true

structure IsLowerName (name : Text) : Prop extends IsName name where
  lower : name.map Char.toLower = name

theorem isNameChar_of_isNameStart {c : Char} (h : isNameStart c = true) : isNameChar c = true := by
  simp only [isNameStart] at h
  simp [isNameChar, Char.isAlphanum, h]

theorem IsName.ne_nil (h : IsName w) : w ≠ [] := by
  rintro rfl
  obtain ⟨c, hc, -⟩ := h.head
  simp at hc

theorem IsName.head?_append_ne (h : IsName w) {c : Char} (hc : isNameStart c = false) (u : Text) :
    (w ++ u).head? ≠ some c := by
  obtain ⟨d, hd, hstart⟩ := h.head
  cases w with
  | nil => simp at hd
  | cons e w =>
      rintro heq
      rw [List.cons_append, List.head?_cons, Option.some.injEq] at heq
      rw [List.head?_cons, Option.mem_some_iff, heq] at hd
      rw [← hd, hc] at hstart
      cases hstart

theorem tagName?_eq_some_iff :
    tagName? t = some (w, r) ↔ IsName w ∧ (∀ c ∈ r.head?, isNameChar c = false) ∧ t = w ++ r := by
  refine ⟨fun h => ?_, ?_⟩
  · unfold tagName? at h
    split at h
    · rename_i c t'
      split at h
      · rename_i hc
        simp only [Option.some.injEq, Prod.mk.injEq] at h
        obtain ⟨rfl, rfl⟩ := h
        refine ⟨⟨⟨c, ?_, hc⟩, fun d hd => List.mem_takeWhile_imp hd⟩, head?_dropWhile_stop _ _,
          List.takeWhile_append_dropWhile.symm⟩
        simp [isNameChar_of_isNameStart hc]
      · cases h
    · cases h
  · rintro ⟨hw, hr, rfl⟩
    obtain ⟨c, hc, hstart⟩ := hw.head
    cases w with
    | nil => simp at hc
    | cons d w =>
        obtain rfl : d = c := by simpa using hc
        rw [List.cons_append, tagName?, if_pos hstart, ← List.cons_append,
          takeWhile_append_of_stop hw.all hr, dropWhile_append_of_stop hw.all hr]

/-! ## Letters of names -/

theorem toNat_lt_of_isNameChar {c : Char} (h : isNameChar c = true) : c.toNat < 128 := by
  have hZ : 'Z'.val.toNat = 90 := by decide
  have hz : 'z'.val.toNat = 122 := by decide
  have h9 : '9'.val.toNat = 57 := by decide
  simp only [isNameChar, Char.isAlphanum, Char.isAlpha, Char.isUpper, Char.isLower, Char.isDigit,
    Bool.or_eq_true, Bool.and_eq_true, decide_eq_true_eq, beq_iff_eq, UInt32.le_iff_toNat_le,
    ge_iff_le] at h
  change c.val.toNat < 128
  rcases h with (((((h | h) | h) | rfl) | rfl) | rfl)
  · omega
  · omega
  · omega
  · decide
  · decide
  · decide

theorem forall_isNameChar {P : Char → Prop} (h : ∀ n < 128, isNameChar (Char.ofNat n) = true →
    P (Char.ofNat n)) {c : Char} (hc : isNameChar c = true) : P c := by
  have := h c.toNat (toNat_lt_of_isNameChar hc)
  rw [Char.ofNat_toNat] at this
  exact this hc

theorem isNameChar_toLower {c : Char} (hc : isNameChar c = true) :
    isNameChar c.toLower = true ∧ c.toLower.toLower = c.toLower :=
  forall_isNameChar (P := fun c => isNameChar c.toLower = true ∧ c.toLower.toLower = c.toLower)
    (by decide) hc

theorem isNameStart_toLower {c : Char} (hc : isNameStart c = true) :
    isNameStart c.toLower = true :=
  forall_isNameChar (P := fun c => isNameStart c = true → isNameStart c.toLower = true)
    (by decide) (isNameChar_of_isNameStart hc) hc

theorem not_isBlank_of_isNameChar {c : Char} (hc : isNameChar c = true) : isBlank c = false :=
  forall_isNameChar (P := fun c => isBlank c = false) (by decide) hc

theorem IsName.isLowerName_map (h : IsName w) : IsLowerName (w.map Char.toLower) := by
  obtain ⟨c, hc, hstart⟩ := h.head
  refine ⟨⟨⟨c.toLower, by simp_all, isNameStart_toLower hstart⟩, ?_⟩, ?_⟩
  · intro d hd
    obtain ⟨e, he, rfl⟩ := List.mem_map.1 hd
    exact (isNameChar_toLower (h.all e he)).1
  · rw [List.map_map]
    exact List.map_congr_left fun e he => (isNameChar_toLower (h.all e he)).2

/-! ## Tags -/

theorem closeBracket?_eq_some_iff {blank : Char → Bool} (hblank : blank '>' = false) :
    closeBracket? blank t = some r ↔ ∃ b, (∀ c ∈ b, blank c = true) ∧ t = b ++ '>' :: r := by
  refine ⟨fun h => ?_, ?_⟩
  · unfold closeBracket? at h
    split at h
    · rename_i r' hr
      cases h
      refine ⟨t.takeWhile blank, fun c hc => List.mem_takeWhile_imp hc, ?_⟩
      rw [← hr, List.takeWhile_append_dropWhile]
    · cases h
  · rintro ⟨b, hb, rfl⟩
    rw [closeBracket?, dropWhile_append_of_stop hb (by simp [hblank])]
    rfl

theorem endTag?_eq_some_iff : endTag? t = some (w, r) ↔
    ∃ b, IsName w ∧ (∀ c ∈ b, isAsciiBlank c = true) ∧ t = '<' :: '/' :: (w ++ b ++ '>' :: r) := by
  have hbracket : isAsciiBlank '>' = false := by decide
  simp only [endTag?, bind, Option.bind_eq_some_iff, Prod.exists, dropPrefix?_eq_some_iff,
    tagName?_eq_some_iff, closeBracket?_eq_some_iff hbracket, pure, Option.some.injEq,
    Prod.mk.injEq]
  constructor
  · rintro ⟨r₁, rfl, w', r₂, ⟨hw, -, rfl⟩, r', ⟨b, hb, rfl⟩, rfl, rfl⟩
    exact ⟨b, hw, hb, by simp⟩
  · rintro ⟨b, hw, hb, rfl⟩
    refine ⟨_, rfl, w, b ++ '>' :: r, ⟨hw, fun c hc => ?_, by simp⟩, r, ⟨b, hb, rfl⟩, rfl, rfl⟩
    have hcase : isBlank c = true ∨ c = '>' := by
      cases b with
      | nil => exact .inr (by simpa using hc.symm)
      | cons d b => exact .inl (by simp_all [isBlank_of_isAsciiBlank])
    rcases hcase with hc | rfl
    · by_contra hname
      rw [not_isBlank_of_isNameChar (by simpa using hname)] at hc
      cases hc
    · decide

/-- What an opening tag consists of: a name, what stands between it and the closing bracket or the
slash before that, and whether there is such a slash. -/
structure IsOpening (w body : Text) (slash : Bool) : Prop where
  name : IsName w
  head : ∀ c ∈ body.head?, isNameChar c = false
  bracket : '>' ∉ body
  last : slash = false → body.getLast? ≠ some '/'

/-- An opening tag as it is written. -/
def opening (w body : Text) (slash : Bool) : Text :=
  '<' :: (w ++ body ++ if slash then ['/', '>'] else ['>'])

theorem startTag?_of_opening (h : IsOpening w body slash) (r : Text) :
    startTag? (opening w body slash ++ r) = some (w, body, slash, r) := by
  have hhead : ∀ (u : Text), (∀ c ∈ u.head?, isNameChar c = false) →
      ∀ c ∈ (body ++ u).head?, isNameChar c = false := by
    intro u hu c hc
    cases body with
    | nil => exact hu c hc
    | cons d body => exact h.head c hc
  have hbracket : ∀ c ∈ body, (c != '>') = true := fun c hc => by
    simpa using ne_of_mem_of_not_mem hc h.bracket
  cases slash with
  | false =>
      have hname : tagName? (w ++ (body ++ '>' :: r)) = some (w, body ++ '>' :: r) :=
        tagName?_eq_some_iff.2 ⟨h.name, hhead _ (by simp; decide), rfl⟩
      have htake := takeWhile_append_of_stop (u := '>' :: r) hbracket (by simp)
      have hdrop := dropWhile_append_of_stop (u := '>' :: r) hbracket (by simp)
      have heq : opening w body false ++ r = ['<'] ++ (w ++ (body ++ '>' :: r)) := by
        simp [opening]
      simp only [heq, startTag?, dropPrefix?_append, bind, Option.bind_some, hname, htake, hdrop,
        if_neg (h.last rfl)]
  | true =>
      have hname : tagName? (w ++ ((body ++ ['/']) ++ '>' :: r)) =
          some (w, (body ++ ['/']) ++ '>' :: r) :=
        tagName?_eq_some_iff.2
          ⟨h.name, by rw [List.append_assoc]; exact hhead _ (by simp; decide), rfl⟩
      have hbracket' : ∀ c ∈ body ++ ['/'], (c != '>') = true :=
        List.forall_mem_append.2 ⟨hbracket, by simp⟩
      have htake := takeWhile_append_of_stop (u := '>' :: r) hbracket' (by simp)
      have hdrop := dropWhile_append_of_stop (u := '>' :: r) hbracket' (by simp)
      have heq : opening w body true ++ r = ['<'] ++ (w ++ ((body ++ ['/']) ++ '>' :: r)) := by
        simp [opening]
      simp only [heq, startTag?, dropPrefix?_append, bind, Option.bind_some, hname, htake, hdrop]
      simp

theorem opening_of_startTag? (h : startTag? t = some (w, body, slash, r)) :
    IsOpening w body slash ∧ t = opening w body slash ++ r := by
  simp only [startTag?, bind, Option.bind_eq_some_iff, Prod.exists, dropPrefix?_eq_some_iff,
    tagName?_eq_some_iff] at h
  obtain ⟨r₁, rfl, w', r₂, ⟨hw, hhead, rfl⟩, h⟩ := h
  have hbracket : '>' ∉ r₂.takeWhile (· != '>') := fun hmem => by
    simpa using List.mem_takeWhile_imp hmem
  have hheadBody : ∀ c ∈ (r₂.takeWhile (· != '>')).head?, isNameChar c = false := by
    intro c hc
    cases r₂ with
    | nil => simp at hc
    | cons d r₂ =>
        rw [List.takeWhile_cons] at hc
        split at hc
        · exact hhead c hc
        · simp at hc
  have hsplit := List.takeWhile_append_dropWhile (p := (· != '>')) (l := r₂)
  have hstop := head?_dropWhile_stop (· != '>') r₂
  generalize r₂.takeWhile (· != '>') = front at *
  split at h
  · cases h
  · rename_i c r₃ hr
    obtain rfl : c = '>' := by
      have := hstop c (by rw [hr]; rfl)
      simpa using this
    rw [hr] at hsplit
    split at h
    · rename_i hlast
      obtain ⟨body', rfl⟩ := List.getLast?_eq_some_iff.1 hlast
      simp only [List.dropLast_concat, Option.some.injEq, Prod.mk.injEq] at h
      obtain ⟨rfl, rfl, rfl, rfl⟩ := h
      refine ⟨⟨hw, fun c hc => hheadBody c ?_, fun hmem => hbracket (by simp [hmem]), by simp⟩, ?_⟩
      · cases body' with
        | nil => simp at hc
        | cons d body' => exact hc
      · rw [← hsplit]
        simp [opening]
    · rename_i hlast
      simp only [Option.some.injEq, Prod.mk.injEq] at h
      obtain ⟨rfl, rfl, rfl, rfl⟩ := h
      refine ⟨⟨hw, hheadBody, hbracket, fun _ => hlast⟩, ?_⟩
      rw [← hsplit]
      simp [opening]

theorem startTag?_eq_some_iff : startTag? t = some (w, body, slash, r) ↔
    IsOpening w body slash ∧ t = opening w body slash ++ r :=
  ⟨opening_of_startTag?, fun ⟨h, heq⟩ => heq ▸ startTag?_of_opening h r⟩

end CodeReference.Markup
