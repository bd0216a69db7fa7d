import Mathlib
import CodeReference.Proofs.Markup.Spacing
import CodeReference.Proofs.Markup.Tag

/-!
Closing tags of raw text. One starts with the only opening bracket in it and ends with the only
closing one, so it can lie across the border between two texts only if nothing at the border tells
them apart; and blanks matter to it only where there are none.
-/
namespace CodeReference.Markup
open Text

variable {name t u v r : Text}

/-- A name in letters of any case. -/
def Spells (name w : Text) : Prop := List.Forall₂ (fun a c => isCaseOf a c = true) name w

def IsClosing (name u : Text) : Prop :=
  ∃ w b, Spells name w ∧ Blanks b ∧ u = '<' :: '/' :: (w ++ b ++ ['>'])

def HasClosing (name t : Text) : Prop := ∃ u, IsClosing name u ∧ u <:+: t

theorem HasClosing.mono (h : HasClosing name t) (ht : t <:+: u) : HasClosing name u := by
  obtain ⟨x, hx, hpart⟩ := h
  exact ⟨x, hx, hpart.trans ht⟩

/-! ## Shape -/

theorem isNameChar_of_isCaseOf {a c : Char} (ha : isNameChar a = true) (h : isCaseOf a c = true) :
    isNameChar c = true ∨ c = '\u017F' ∨ c = '\u0130' ∨ c = '\u0131' := by
  simp only [isCaseOf, Bool.or_eq_true, Bool.and_eq_true, beq_iff_eq] at h
  rcases h with (h | h) | h
  · left
    by_cases hc : c.isUpper = true
    · simp [isNameChar, Char.isAlphanum, Char.isAlpha, hc]
    · have hlow : c.toLower = c := by
        rw [Char.toLower, dif_neg]
        simpa [Char.isUpper] using hc
      rwa [← hlow, h]
  · exact .inr (.inl h.2)
  · exact .inr (.inr h.2)

structure Solid (c : Char) : Prop where
  blank : isBlank c = false
  bracket : c ≠ '<' ∧ c ≠ '>'
  slash : c ≠ '/'

theorem solid_of_isNameChar {c : Char} (hc : isNameChar c = true) : Solid c := by
  refine ⟨not_isBlank_of_isNameChar hc, ⟨?_, ?_⟩, ?_⟩
  all_goals
    rintro rfl
    revert hc
    decide

theorem solid_of_isCaseOf {a c : Char} (ha : isNameChar a = true) (h : isCaseOf a c = true) :
    Solid c := by
  rcases isNameChar_of_isCaseOf ha h with hc | rfl | rfl | rfl
  · exact solid_of_isNameChar hc
  all_goals exact ⟨by decide, ⟨by decide, by decide⟩, by decide⟩

theorem Spells.solid {w : Text} (hn : ∀ a ∈ name, isNameChar a = true) (h : Spells name w) :
    ∀ c ∈ w, Solid c := by
  induction h with
  | nil => simp
  | cons hac _ ih =>
      obtain ⟨ha, hn⟩ := List.forall_mem_cons.1 hn
      exact List.forall_mem_cons.2 ⟨solid_of_isCaseOf ha hac, ih hn⟩

/-- The brackets of a closing tag are its first and its last character. -/
theorem IsClosing.exists_inside (hn : ∀ a ∈ name, isNameChar a = true) (h : IsClosing name u) :
    ∃ m, u = '<' :: '/' :: (m ++ ['>']) ∧ '<' ∉ m ∧ '>' ∉ m := by
  obtain ⟨w, b, hw, hb, rfl⟩ := h
  have hsolid := hw.solid hn
  refine ⟨w ++ b, by simp, ?_, ?_⟩
  · rw [List.mem_append, not_or]
    exact ⟨fun hc => (hsolid _ hc).bracket.1 rfl, hb.not_mem (by decide)⟩
  · rw [List.mem_append, not_or]
    exact ⟨fun hc => (hsolid _ hc).bracket.2 rfl, hb.not_mem (by decide)⟩

/-! ## What the scanner finds -/

theorem dropNameAnyCase?_eq_some_iff :
    dropNameAnyCase? name t = some r ↔ ∃ w, Spells name w ∧ t = w ++ r := by
  constructor
  · intro h
    induction name generalizing t with
    | nil =>
        simp only [dropNameAnyCase?, Option.some.injEq] at h
        exact ⟨[], .nil, h⟩
    | cons a name ih =>
        cases t with
        | nil => simp [dropNameAnyCase?] at h
        | cons c t =>
            rw [dropNameAnyCase?, Option.ite_none_right_eq_some] at h
            obtain ⟨w, hw, rfl⟩ := ih h.2
            exact ⟨c :: w, .cons h.1 hw, rfl⟩
  · rintro ⟨w, hw, rfl⟩
    induction hw with
    | nil => rfl
    | cons hac _ ih => rw [List.cons_append, dropNameAnyCase?, if_pos hac, ih]

theorem rawTextClose?_eq_some_iff :
    rawTextClose? name t = some r ↔ ∃ u, IsClosing name u ∧ t = u ++ r := by
  have hbracket : isBlank '>' = false := by decide
  simp only [rawTextClose?, bind, Option.bind_eq_some_iff, dropPrefix?_eq_some_iff,
    dropNameAnyCase?_eq_some_iff, closeBracket?_eq_some_iff hbracket]
  constructor
  · rintro ⟨r₁, rfl, r₂, ⟨w, hw, rfl⟩, b, hb, rfl⟩
    exact ⟨_, ⟨w, b, hw, hb, rfl⟩, by simp⟩
  · rintro ⟨u, ⟨w, b, hw, hb, rfl⟩, rfl⟩
    exact ⟨w ++ (b ++ '>' :: r), by simp, _, ⟨w, hw, rfl⟩, b, hb, rfl⟩

theorem rawTextClose?_eq_none_iff :
    rawTextClose? name t = none ↔ ∀ u, IsClosing name u → ¬ u <+: t := by
  rw [Option.eq_none_iff_forall_ne_some]
  simp only [ne_eq, rawTextClose?_eq_some_iff, not_exists, not_and]
  exact ⟨fun h u hu ⟨r, hr⟩ => h r u hu hr.symm, fun h r u hu hr => h u hu ⟨r, hr.symm⟩⟩

theorem hasClosing_cons_iff {c : Char} :
    HasClosing name (c :: t) ↔ (∃ u, IsClosing name u ∧ u <+: c :: t) ∨ HasClosing name t := by
  simp only [HasClosing, List.infix_cons_iff]
  exact ⟨fun ⟨u, hu, h⟩ => h.imp (fun h => ⟨u, hu, h⟩) fun h => ⟨u, hu, h⟩,
    fun h => h.elim (fun ⟨u, hu, h⟩ => ⟨u, hu, .inl h⟩) fun ⟨u, hu, h⟩ => ⟨u, hu, .inr h⟩⟩

theorem IsClosing.ne_nil (h : IsClosing name u) : u ≠ [] := by
  obtain ⟨w, b, -, -, rfl⟩ := h
  simp

theorem not_hasClosing_nil : ¬ HasClosing name [] := fun ⟨_, hu, h⟩ =>
  hu.ne_nil (List.eq_nil_of_infix_nil h)

theorem rawTextContent?_eq_none_iff : rawTextContent? name t = none ↔ ¬ HasClosing name t := by
  induction t with
  | nil => simp [rawTextContent?, not_hasClosing_nil]
  | cons c t ih =>
      rw [rawTextContent?, hasClosing_cons_iff, not_or, ← ih, not_exists]
      cases hc : rawTextClose? name (c :: t) with
      | some r =>
          obtain ⟨u, hu, heq⟩ := rawTextClose?_eq_some_iff.1 hc
          simp only [reduceCtorEq, false_iff, not_and]
          exact fun h => absurd ⟨r, heq.symm⟩ (h u hu)
      | none =>
          rw [rawTextClose?_eq_none_iff] at hc
          simp only [Option.map_eq_none_iff, not_and, iff_and_self]
          exact fun _ => hc

/-! ## Borders -/

/-- A closing tag in two texts put together is in one of them, or it lies across the border. -/
theorem HasClosing.of_append (h : HasClosing name (t ++ u)) :
    HasClosing name t ∨ HasClosing name u ∨
      ∃ k l, IsClosing name (k ++ l) ∧ k ≠ [] ∧ l ≠ [] ∧ k <:+ t ∧ l <+: u := by
  obtain ⟨x, hx, a, b, heq⟩ := h
  rw [List.append_assoc] at heq
  rcases List.append_eq_append_iff.1 heq with ⟨m, rfl, hm⟩ | ⟨m, rfl, rfl⟩
  · rcases List.append_eq_append_iff.1 hm with ⟨l, rfl, rfl⟩ | ⟨l, rfl, rfl⟩
    · exact .inl ⟨x, hx, a, l, by simp⟩
    · rcases eq_or_ne m [] with rfl | hmne
      · exact .inr (.inl ⟨l, hx, [], b, rfl⟩)
      · rcases eq_or_ne l [] with rfl | hlne
        · exact .inl ⟨m, by simpa using hx, a, [], by simp⟩
        · exact .inr (.inr ⟨m, l, hx, hmne, hlne, ⟨a, rfl⟩, ⟨b, rfl⟩⟩)
  · exact .inr (.inl ⟨x, hx, m, b, by simp⟩)

/-- What keeps a closing tag from lying across the border between two texts. -/
def Severed (t u : Text) : Prop :=
  '<' ∉ t ∨ '>' ∉ u ∨ t.getLast? = some '>' ∨ u.head? = some '<' ∨ t = ['<'] ∧ u.head? ≠ some '/'

theorem hasClosing_append_iff (hn : ∀ a ∈ name, isNameChar a = true) (hs : Severed t u) :
    HasClosing name (t ++ u) ↔ HasClosing name t ∨ HasClosing name u := by
  refine ⟨fun h => ?_, ?_⟩
  · rcases h.of_append with h | h | ⟨k, l, hkl, hk, hl, hkt, hlu⟩
    · exact .inl h
    · exact .inr h
    · exfalso
      obtain ⟨m, heq, hopen, hclose⟩ := hkl.exists_inside hn
      obtain ⟨c, k, rfl⟩ := List.exists_cons_of_ne_nil hk
      rw [List.cons_append, List.cons.injEq] at heq
      obtain ⟨rfl, heq⟩ := heq
      rcases List.eq_nil_or_concat' l with rfl | ⟨l, d, rfl⟩
      · exact hl rfl
      rw [← List.append_assoc, ← List.cons_append, List.append_singleton_inj] at heq
      obtain ⟨hm, rfl⟩ := heq
      obtain ⟨a, rfl⟩ := hkt
      obtain ⟨b, rfl⟩ := hlu
      have hkm : ∀ c ∈ k, c ∈ '/' :: m := fun c hc => hm ▸ List.mem_append_left l hc
      have hlm : ∀ c ∈ l, c ∈ '/' :: m := fun c hc => hm ▸ List.mem_append_right k hc
      rcases hs with hs | hs | hs | hs | ⟨hs, hu⟩
      · exact hs (by simp)
      · exact hs (by simp)
      · -- The left part would end with the closing bracket, which comes only at the end.
        rw [List.getLast?_append_of_ne_nil _ hk] at hs
        have hmem : '>' ∈ k := by simpa using List.mem_of_getLast? hs
        simpa [hclose] using hkm _ hmem
      · -- The right part would start with the opening bracket, which comes only at the start.
        have hmem : '<' ∈ l := by
          cases l with
          | nil => simp at hs
          | cons e l => simp_all
        simpa [hopen] using hlm _ hmem
      · obtain ⟨rfl, rfl⟩ : a = [] ∧ k = [] := by
          have := congrArg List.length hs
          simp only [List.length_append, List.length_cons, List.length_nil] at this
          exact ⟨List.length_eq_zero_iff.1 (by omega), List.length_eq_zero_iff.1 (by omega)⟩
        rw [List.nil_append] at hm
        simp [hm] at hu
  · rintro (h | h)
    · exact h.mono (List.prefix_append t u).isInfix
    · exact h.mono (List.suffix_append t u).isInfix

/-- A closing tag that starts before another one ends before it. -/
theorem IsClosing.prefix_of_append (hn : ∀ a ∈ name, isNameChar a = true) {c : Char}
    (hu : IsClosing name u) (hv : IsClosing name v) (h : u <+: c :: t ++ (v ++ r)) :
    u <+: c :: t := by
  rcases List.prefix_or_prefix_of_prefix h (List.prefix_append _ _) with h' | ⟨l, rfl⟩
  · exact h'
  · obtain ⟨m, heq, hopen, -⟩ := hu.exists_inside hn
    obtain ⟨m', rfl, -, -⟩ := hv.exists_inside hn
    cases l with
    | nil => rw [List.append_nil]
    | cons d l =>
        obtain ⟨b, hb⟩ := (List.prefix_append_right_inj _).1 h
        rw [List.cons_append, List.cons_append, List.cons.injEq] at hb
        rw [List.cons_append, List.cons.injEq] at heq
        have hmem : '<' ∈ '/' :: (m ++ ['>']) := heq.2 ▸ by simp [hb.1]
        simp [hopen] at hmem

/-- What the scanner takes for the content of a raw text element runs to the first closing tag. -/
theorem rawTextContent?_eq_some_iff {content : Text} (hn : ∀ a ∈ name, isNameChar a = true) :
    rawTextContent? name t = some (content, r) ↔
      ∃ u, IsClosing name u ∧ ¬ HasClosing name content ∧ t = content ++ u ++ r := by
  constructor
  · intro h
    induction t generalizing content with
    | nil => simp [rawTextContent?] at h
    | cons c t ih =>
        rw [rawTextContent?] at h
        split at h
        · rename_i r' hc
          cases h
          obtain ⟨u, hu, heq⟩ := rawTextClose?_eq_some_iff.1 hc
          exact ⟨u, hu, not_hasClosing_nil, by simpa using heq⟩
        · rename_i hc
          simp only [Option.map_eq_some_iff, Prod.mk.injEq, Prod.exists] at h
          obtain ⟨content, r', h, rfl, rfl⟩ := h
          obtain ⟨u, hu, hcontent, rfl⟩ := ih h
          refine ⟨u, hu, ?_, by simp⟩
          rw [rawTextClose?_eq_none_iff] at hc
          rw [hasClosing_cons_iff, not_or]
          refine ⟨?_, hcontent⟩
          rintro ⟨x, hx, hpre⟩
          refine hc x hx (hpre.trans ?_)
          rw [List.append_assoc, ← List.cons_append]
          exact List.prefix_append _ _
  · rintro ⟨u, hu, hcontent, rfl⟩
    induction content with
    | nil =>
        have hc : rawTextClose? name (u ++ r) = some r := rawTextClose?_eq_some_iff.2 ⟨u, hu, rfl⟩
        obtain ⟨c, u, rfl⟩ := List.exists_cons_of_ne_nil hu.ne_nil
        rw [List.nil_append, List.cons_append, rawTextContent?]
        rw [List.cons_append] at hc
        rw [hc]
    | cons c content ih =>
        rw [hasClosing_cons_iff, not_or] at hcontent
        have hc : rawTextClose? name (c :: (content ++ u ++ r)) = none := by
          rw [rawTextClose?_eq_none_iff]
          intro x hx hpre
          rw [List.append_assoc, ← List.cons_append] at hpre
          exact hcontent.1 ⟨x, hx, hx.prefix_of_append hn hu hpre⟩
        rw [List.cons_append, List.cons_append, rawTextContent?, hc, ih hcontent.2]
        rfl

/-! ## Blanks -/

theorem not_hasClosing_of_not_mem (hn : ∀ a ∈ name, isNameChar a = true) (h : '<' ∉ t) :
    ¬ HasClosing name t := by
  rintro ⟨u, hu, hpart⟩
  obtain ⟨m, rfl, -, -⟩ := hu.exists_inside hn
  exact h (hpart.subset List.mem_cons_self)

theorem hasClosing_trim (hn : ∀ a ∈ name, isNameChar a = true) :
    HasClosing name (Text.trim t) ↔ HasClosing name t := by
  obtain ⟨a, b, ha, hb, heq⟩ := exists_trim t
  have hopen : isBlank '<' = false := by decide
  have ha' := ha.not_mem hopen
  have hb' := hb.not_mem hopen
  conv_rhs => rw [heq]
  rw [List.append_assoc, hasClosing_append_iff hn (.inl ha'),
    hasClosing_append_iff hn (.inr (.inl (hb.not_mem (by decide)))),
    iff_false_intro (not_hasClosing_of_not_mem hn ha'),
    iff_false_intro (not_hasClosing_of_not_mem hn hb'), false_or, or_false]

theorem hasClosing_collapseBlanks (hn : ∀ a ∈ name, isNameChar a = true) :
    HasClosing name (collapseBlanks false t) ↔ HasClosing name t := by
  have hopen : isBlank '<' = false := by decide
  have hclose : isBlank '>' = false := by decide
  have hsolid : ∀ {w : Text}, Spells name w → ∀ c ∈ '/' :: w, isBlank c = false := fun hw =>
    List.forall_mem_cons.2 ⟨by decide, fun c hc => (hw.solid hn c hc).blank⟩
  constructor
  · rintro ⟨u, ⟨w, b, hw, hb, rfl⟩, x, y, heq⟩
    have heq : collapseBlanks false t = x ++ '<' :: ('/' :: w ++ b ++ '>' :: y) := by
      rw [← heq]
      simp
    obtain ⟨x', t', rfl, -, ht'⟩ := eq_append_cons_of_collapseBlanks hopen heq
    obtain ⟨m, y', rfl, hm, -⟩ := eq_append_cons_of_collapseBlanks hclose ht'
    obtain ⟨b', rfl, hb'⟩ := eq_append_of_collapseBlanks (hsolid hw) hm
    refine ⟨_, ⟨w, b', hw, blanks_collapseBlanks.1 (hb' ▸ hb), rfl⟩, x', y', ?_⟩
    simp
  · rintro ⟨u, ⟨w, b, hw, hb, rfl⟩, x, y, rfl⟩
    refine ⟨_, ⟨w, collapseBlanks false b, hw, blanks_collapseBlanks.2 hb, rfl⟩,
      collapseBlanks false x, collapseBlanks false y, ?_⟩
    have heq : x ++ '<' :: '/' :: (w ++ b ++ ['>']) ++ y =
        x ++ '<' :: ('/' :: w ++ b ++ '>' :: y) := by
      simp
    rw [heq, collapseBlanks_append_cons _ _ hopen, collapseBlanks_append_cons _ _ hclose,
      collapseBlanks_append_of_solid (hsolid hw)]
    simp

/-- Blanks between words do not matter to closing tags. -/
theorem hasClosing_normalizeAttributes (hn : ∀ a ∈ name, isNameChar a = true) :
    HasClosing name (normalizeAttributes t) ↔ HasClosing name t := by
  rw [normalizeAttributes, hasClosing_trim hn, hasClosing_collapseBlanks hn]

end CodeReference.Markup
