import Mathlib
import CodeReference.Proofs.Markup.Tag
import CodeReference.Proofs.Outline.Names
import CodeReference.Proofs.Outline.NormalForm

/-!
Which names a selection can stand for. A chain of names is recognised however its dots are spaced:
line continuations become blanks next to dots, these are dropped, and the names joined by single
dots are left. Nothing but such a chain is ever recognised.
-/
namespace CodeReference.Outline
open Text

/-- Whether a text is one name. -/
structure IsName (name : Text) : Prop where
  head : ∃ c ∈ name.head?, isNameStart c = true
  all : ∀ c ∈ name, isNameChar c = true

/-- Blanks, and line continuations: backslashes with blanks through a line feed behind them. -/
inductive Spacing : Text → Prop
  | nil : Spacing []
  | blank {c w} : isBlank c = true → Spacing w → Spacing (c :: w)
  | continuation {b w} : Blanks b → Spacing w → Spacing ('\\' :: (b ++ '\n' :: w))

/-- Names with dots between them, and gaps on both sides of each dot. -/
inductive Chained (gap : Text → Prop) : List Text → Text → Prop
  | last {name} : IsName name → Chained gap [name] name
  | dot {name w w' names t} : IsName name → gap w → gap w' → Chained gap names t →
      Chained gap (name :: names) (name ++ w ++ '.' :: (w' ++ t))

variable {t u w r b name : Text} {names : List Text} {gap : Text → Prop}

/-! ## Characters of names -/

/-- What names are made of may also stand in the names of tags. -/
theorem not_isBlank_of_isNameChar {c : Char} (h : isNameChar c = true) : isBlank c = false :=
  Markup.not_isBlank_of_isNameChar (by
    rw [Markup.isNameChar, ← isNameChar, h, Bool.true_or, Bool.true_or])

theorem ne_of_isNameChar {c d : Char} (h : isNameChar c = true) (hd : isNameChar d = false) :
    c ≠ d := by
  rintro rfl
  rw [h] at hd
  cases hd

theorem IsName.head_not_blank (h : IsName name) : ∀ c ∈ name.head?, isBlank c = false :=
  fun c hc => not_isBlank_of_isNameChar (h.all c (List.mem_of_head? hc))

theorem IsName.ne_nil (h : IsName name) : name ≠ [] := by
  rintro rfl
  obtain ⟨c, hc, -⟩ := h.head
  cases hc

theorem Chained.head_not_blank (h : Chained gap names t) : ∀ c ∈ t.head?, isBlank c = false := by
  have hname : ∀ {name u : Text}, IsName name → ∀ c ∈ (name ++ u).head?, isBlank c = false := by
    intro name u h c hc
    obtain ⟨d, hd, -⟩ := h.head
    rw [List.head?_append, Option.mem_def.1 hd] at hc
    exact h.head_not_blank c (by rw [Option.mem_def.1 hd]; exact hc)
  cases h with
  | last hfirst => exact hfirst.head_not_blank
  | dot hfirst => rw [List.append_assoc]; exact hname hfirst

theorem Chained.last_not_blank (h : Chained gap names t) :
    ∃ c ∈ t.getLast?, isBlank c = false := by
  induction h with
  | last hname =>
      refine ⟨_, List.getLast?_eq_getLast_of_ne_nil hname.ne_nil, ?_⟩
      exact not_isBlank_of_isNameChar (hname.all _ (List.getLast_mem _))
  | dot _ _ _ _ ih =>
      obtain ⟨c, hc, hblank⟩ := ih
      refine ⟨c, ?_, hblank⟩
      rw [List.getLast?_append, List.getLast?_cons, List.getLast?_append, Option.mem_def.1 hc]
      rfl

theorem Chained.trimmed (h : Chained gap names t) : Trimmed t := by
  obtain ⟨d, hd, hblank⟩ := h.last_not_blank
  refine ⟨h.head_not_blank, fun c hc => ?_⟩
  rw [Option.mem_def.1 hd, Option.mem_some_iff] at hc
  exact hc ▸ hblank

/-! ## Continued lines -/

theorem joinContinued_append (h : '\\' ∉ u) (r : Text) :
    joinContinued false (u ++ r) = u ++ joinContinued false r := by
  induction u with
  | nil => rfl
  | cons c u ih =>
      rw [List.mem_cons, not_or] at h
      have hc : (c == '\\') = false := by simpa using Ne.symm h.1
      rw [List.cons_append, joinContinued, hc]
      simp [ih h.2]

theorem joinContinued_true_of_head (h : ∀ c ∈ r.head?, isBlank c = false) :
    joinContinued true r = joinContinued false r := by
  cases r with
  | nil => rfl
  | cons c r => simp [joinContinued, h c rfl]

theorem joinContinued_true_append (hb : Blanks b) (r : Text) :
    joinContinued true (b ++ r) = joinContinued true r := by
  induction b with
  | nil => rfl
  | cons c b ih =>
      obtain ⟨hc, hb⟩ := List.forall_mem_cons.1 hb
      rw [List.cons_append, joinContinued, hc, Bool.true_and, if_pos rfl, ih hb]

/-- Of the blanks and continuations in front of a solid character only blanks are left. -/
theorem Spacing.joinContinued (hw : Spacing w) (hr : ∀ c ∈ r.head?, isBlank c = false)
    (joining : Bool) :
    ∃ b, Blanks b ∧ joinContinued joining (w ++ r) = b ++ Outline.joinContinued false r := by
  induction hw generalizing joining with
  | nil =>
      refine ⟨[], blanks_nil, ?_⟩
      cases joining with
      | false => rfl
      | true => exact joinContinued_true_of_head hr
  | @blank c w hc _ ih =>
      cases joining with
      | true =>
          obtain ⟨b, hb, heq⟩ := ih true
          refine ⟨b, hb, ?_⟩
          rw [← heq, List.cons_append, Outline.joinContinued, hc, Bool.true_and, if_pos rfl]
      | false =>
          obtain ⟨b, hb, heq⟩ := ih false
          have hmem : '\\' ∉ [c] := by
            rw [List.mem_singleton]
            rintro rfl
            exact absurd hc (by decide)
          exact ⟨c :: b, hb.cons hc, by
            rw [List.cons_append, ← List.singleton_append, joinContinued_append hmem, heq]; rfl⟩
  | @continuation b w hb _ ih =>
      obtain ⟨b', hb', heq⟩ := ih true
      refine ⟨b', hb', ?_⟩
      have hcontinues : ((b ++ '\n' :: (w ++ r)).takeWhile isBlank).contains '\n' = true := by
        rw [List.takeWhile_append_of_pos hb, List.takeWhile_cons_of_pos (by decide)]
        simp
      have hblank : isBlank '\\' = false := by decide
      have hfeed : Blanks (b ++ ['\n']) := hb.append (blanks_nil.cons (by decide))
      have hjoined := joinContinued_true_append hfeed (w ++ r)
      rw [List.append_assoc, List.singleton_append] at hjoined
      simp only [List.cons_append, List.append_assoc, Outline.joinContinued, hblank, Bool.and_false,
        hcontinues, beq_self_eq_true, Bool.and_self, if_true, Bool.false_eq_true, if_false, hjoined,
        heq]

theorem IsName.not_mem (h : IsName name) {d : Char} (hd : isNameChar d = false) : d ∉ name :=
  fun hmem => ne_of_isNameChar (h.all d hmem) hd rfl

/-- Without continuations a chain has only blanks in its gaps. -/
theorem Chained.joinContinued (h : Chained Spacing names t) :
    Chained Blanks names (joinContinued false t) := by
  induction h with
  | @last name hname =>
      have hjoined := joinContinued_append (hname.not_mem (by decide)) []
      rw [List.append_nil] at hjoined
      rw [hjoined]
      simpa [Outline.joinContinued] using Chained.last hname
  | @dot name w w' names t hname hw hw' hrest ih =>
      obtain ⟨b, hb, heq⟩ := hw.joinContinued (r := '.' :: (w' ++ t)) (by simp; decide) false
      obtain ⟨b', hb', heq'⟩ := hw'.joinContinued hrest.head_not_blank false
      have hdot : Outline.joinContinued false ('.' :: (w' ++ t)) =
          '.' :: Outline.joinContinued false (w' ++ t) :=
        joinContinued_append (u := ['.']) (by decide) _
      rw [List.append_assoc, joinContinued_append (hname.not_mem (by decide)), heq, hdot, heq',
        ← List.append_assoc]
      exact .dot hname hb hb' ih

/-! ## Blanks around dots -/

theorem closeDots_append (h : ∀ c ∈ u, isNameChar c = true) (r : Text) :
    closeDots false (u ++ r) = u ++ closeDots false r := by
  induction u with
  | nil => rfl
  | cons c u ih =>
      obtain ⟨hc, hu⟩ := List.forall_mem_cons.1 h
      have hdot : (c == '.') = false := beq_false_of_ne (ne_of_isNameChar hc (by decide))
      rw [List.cons_append, closeDots, not_isBlank_of_isNameChar hc, if_neg Bool.false_ne_true,
        hdot, ih hu, List.cons_append]

theorem closeDots_blanks_dot (hb : Blanks b) (r : Text) :
    closeDots false (b ++ '.' :: r) = '.' :: closeDots true r := by
  induction b with
  | nil => rfl
  | cons c b ih =>
      obtain ⟨hc, hb⟩ := List.forall_mem_cons.1 hb
      have hskip : (b ++ '.' :: r).dropWhile isBlank = '.' :: r := by
        rw [List.dropWhile_append_of_pos hb, List.dropWhile_cons_of_neg (by decide)]
      have hdot : startsWith ('.' :: r) ['.'] = true := startsWith_iff.2 ⟨r, rfl⟩
      rw [List.cons_append, closeDots, hc, if_pos rfl, hskip, hdot, Bool.or_true, if_pos rfl, ih hb]

theorem closeDots_true_append (hb : Blanks b) (hr : ∀ c ∈ r.head?, isBlank c = false) :
    closeDots true (b ++ r) = closeDots false r := by
  induction b with
  | nil =>
      cases r with
      | nil => rfl
      | cons c r => simp [closeDots, hr c rfl]
  | cons c b ih =>
      obtain ⟨hc, hb⟩ := List.forall_mem_cons.1 hb
      rw [List.cons_append, closeDots, hc, if_pos rfl, Bool.true_or, if_pos rfl, ih hb]

/-- Without the blanks around dots the names of a chain are joined by dots alone. -/
theorem Chained.closeDots (h : Chained Blanks names t) : closeDots false t = join ['.'] names := by
  induction h with
  | @last name hname =>
      have hclosed := closeDots_append hname.all []
      rwa [List.append_nil, Outline.closeDots, List.append_nil] at hclosed
  | @dot name w w' names t hname hw hw' hrest ih =>
      obtain ⟨first, rest, rfl⟩ : ∃ first rest, names = first :: rest := by cases hrest <;> simp
      rw [List.append_assoc, closeDots_append hname.all, closeDots_blanks_dot hw,
        closeDots_true_append hw' hrest.head_not_blank, ih, join, List.append_assoc]
      rfl

/-! ## Chains of names -/

theorem Chained.isNames (h : Chained gap names t) : names ≠ [] ∧ ∀ n ∈ names, IsName n := by
  induction h with
  | last hname => exact ⟨by simp, by simpa using hname⟩
  | dot hname _ _ _ ih => exact ⟨by simp, List.forall_mem_cons.2 ⟨hname, ih.2⟩⟩

theorem isNameChain_append (h : ∀ c ∈ u, isNameChar c = true) (r : Text) :
    isNameChain false (u ++ r) = isNameChain false r := by
  induction u with
  | nil => rfl
  | cons c u ih =>
      obtain ⟨hc, hu⟩ := List.forall_mem_cons.1 h
      rw [List.cons_append, isNameChain, if_neg (ne_of_isNameChar hc (by decide)), hc,
        Bool.true_and, ih hu]

theorem IsName.isNameChain_append (h : IsName name) (r : Text) :
    isNameChain true (name ++ r) = isNameChain false r := by
  obtain ⟨c, hc, hstart⟩ := h.head
  cases name with
  | nil => cases hc
  | cons d name =>
      obtain rfl : d = c := by simpa using hc
      rw [List.cons_append, isNameChain, hstart, Bool.true_and,
        Outline.isNameChain_append (List.forall_mem_cons.1 h.all).2]

theorem isNameChain_join (hne : names ≠ []) (h : ∀ n ∈ names, IsName n) :
    isNameChain true (join ['.'] names) = true := by
  fun_induction join ['.'] names with
  | case1 => exact absurd rfl hne
  | case2 name =>
      have hname := (h name List.mem_cons_self).isNameChain_append []
      rwa [List.append_nil] at hname
  | case3 name next rest ih =>
      obtain ⟨hname, hrest⟩ := List.forall_mem_cons.1 h
      rw [List.append_assoc, hname.isNameChain_append, List.singleton_append, isNameChain,
        if_pos rfl, ih (by simp) hrest]

theorem join_cons_cons (sep : Text) (c : Char) (l : Text) (ls : List Text) :
    join sep ((c :: l) :: ls) = c :: join sep (l :: ls) := by
  cases ls <;> rfl

/-- A chain that is read from inside a name goes on with the rest of that name. -/
theorem exists_names {startsName : Bool} (h : isNameChain startsName t = true) :
    ∃ first rest, t = join ['.'] (first :: rest) ∧ (∀ c ∈ first, isNameChar c = true) ∧
      (startsName = true → IsName first) ∧ ∀ n ∈ rest, IsName n := by
  fun_induction isNameChain startsName t with
  | case1 => exact ⟨[], [], rfl, by simp, by simp_all, by simp⟩
  | case2 c t ih =>
      obtain ⟨hc, ht⟩ := Bool.and_eq_true_iff.1 h
      obtain ⟨first, rest, rfl, hfirst, -, hrest⟩ := ih ht
      have hall : ∀ d ∈ c :: first, isNameChar d = true :=
        List.forall_mem_cons.2 ⟨isNameChar_of_isNameStart hc, hfirst⟩
      exact ⟨c :: first, rest, (join_cons_cons _ _ _ _).symm, hall, fun _ => ⟨⟨c, rfl, hc⟩, hall⟩,
        hrest⟩
  | case3 t ih =>
      obtain ⟨first, rest, rfl, -, hfirst, hrest⟩ := ih h
      exact ⟨[], first :: rest, rfl, by simp, by simp, List.forall_mem_cons.2 ⟨hfirst rfl, hrest⟩⟩
  | case4 c t hc ih =>
      obtain ⟨hc, ht⟩ := Bool.and_eq_true_iff.1 h
      obtain ⟨first, rest, rfl, hfirst, -, hrest⟩ := ih ht
      exact ⟨c :: first, rest, (join_cons_cons _ _ _ _).symm, List.forall_mem_cons.2 ⟨hc, hfirst⟩,
        by simp, hrest⟩

theorem isNameChain_iff : isNameChain true t = true ↔
    ∃ names, names ≠ [] ∧ (∀ n ∈ names, IsName n) ∧ t = join ['.'] names := by
  constructor
  · intro h
    obtain ⟨first, rest, heq, -, hfirst, hrest⟩ := exists_names h
    exact ⟨first :: rest, by simp, List.forall_mem_cons.2 ⟨hfirst rfl, hrest⟩, heq⟩
  · rintro ⟨names, hne, hnames, rfl⟩
    exact isNameChain_join hne hnames

/-! ## Selected names -/

/-- A selection whose normal form is a chain of names stands for that chain. -/
theorem selectedName?_of_normalize (htrim : Trimmed t) (hne : t ≠ [])
    (h : isNameChain true (normalize t) = true) : selectedName? t = some (normalize t) := by
  have hempty : t.isEmpty = false := by simpa using hne
  simp only [selectedName?, trim_of_trimmed htrim, hempty, h, if_true, Bool.false_eq_true, if_false]

theorem normal_of_isNameChain (h : isNameChain true t = true) : Normal t := by
  refine normal_of_no_blank fun c hc => ?_
  rcases isDotted_of_isNameChain h c hc with hname | rfl
  · exact not_isBlank_of_isNameChar hname
  · decide

theorem selectedName?_of_isNameChain (h : isNameChain true t = true) :
    selectedName? t = some t := by
  have hnormal := normal_of_isNameChain h
  have hne : t ≠ [] := by
    rintro rfl
    cases h
  have hfound := selectedName?_of_normalize hnormal.trimmed hne (by rwa [hnormal.normalize_eq])
  rwa [hnormal.normalize_eq] at hfound

theorem selectedName?_trim (t : Text) : selectedName? (trim t) = selectedName? t := by
  rw [selectedName?, trim_trim, selectedName?]

theorem selectedName?_of_chained (h : Chained Spacing names t) {a b : Text} (ha : Blanks a)
    (hb : Blanks b) : selectedName? (a ++ t ++ b) = some (join ['.'] names) := by
  have hne : t ≠ [] := by
    obtain ⟨c, hc, -⟩ := h.last_not_blank
    rintro rfl
    cases hc
  have hchain := isNameChain_join h.isNames.1 h.isNames.2
  have hnormal : normalize t = join ['.'] names := by
    rw [normalize, h.joinContinued.closeDots,
      trim_of_trimmed (normal_of_isNameChain hchain).trimmed]
  rw [← selectedName?_trim, trim_eq_of_eq ha hb h.trimmed rfl,
    selectedName?_of_normalize h.trimmed hne (by rwa [hnormal]), hnormal]

theorem isName_of_name? {rest : Text} (h : name? t = some (name, rest)) : IsName name := by
  unfold name? at h
  split at h
  · rename_i c t
    split at h
    · rename_i hc
      cases h
      refine ⟨⟨c, ?_, hc⟩, fun d hd => List.mem_takeWhile_imp hd⟩
      rw [List.takeWhile_cons_of_pos (isNameChar_of_isNameStart hc)]
      rfl
    · cases h
  · cases h

theorem isName_of_className? (h : className? t = some name) : IsName name := by
  obtain ⟨⟨name, rest⟩, hfound, rfl⟩ := Option.map_eq_some_iff.1 h
  unfold nameAfter? at hfound
  split at hfound
  · split at hfound
    · exact isName_of_name? hfound
    · cases hfound
  · cases hfound

theorem isNameChain_of_selectedName? (h : selectedName? t = some name) :
    isNameChain true name = true := by
  simp only [selectedName?, Option.ite_none_left_eq_some] at h
  obtain ⟨-, h⟩ := h
  split at h
  · rename_i hchain
    cases h
    exact hchain
  · exact isNameChain_iff.2 ⟨[name], by simp, by simpa using isName_of_className? h, rfl⟩

/-- A chain of names is recognised however it is spaced, and stands for its names joined by dots.
Whatever a selection stands for is such a chain, which stands for itself. Putting a selection into
its normal form a second time changes nothing. -/
theorem selectedName?_chained :
    (∀ names t a b, Chained Spacing names t → Blanks a → Blanks b →
        selectedName? (a ++ t ++ b) = some (join ['.'] names)) ∧
      (∀ t name, selectedName? t = some name →
        (∃ names, names ≠ [] ∧ (∀ n ∈ names, IsName n) ∧ name = join ['.'] names) ∧
          selectedName? name = some name) ∧
      ∀ t, normalize (normalize t) = normalize t := by
  refine ⟨fun names t a b h ha hb => selectedName?_of_chained h ha hb, fun t name h => ?_,
    normalize_normalize⟩
  have hchain := isNameChain_of_selectedName? h
  exact ⟨isNameChain_iff.1 hchain, selectedName?_of_isNameChain hchain⟩

/-- Before the dot the line is continued, and behind it stands a no-break space. -/
theorem selectedName?_chained_continued :
    Chained Spacing ["pkg".toList, "attr".toList] "pkg\\ \n  .\u00a0attr".toList ∧
      selectedName? "\tpkg\\ \n  .\u00a0attr\n".toList = some "pkg.attr".toList := by
  have hbefore : Spacing "\\ \n  ".toList :=
    .continuation (b := [' ']) (blanks_nil.cons (by decide))
      (.blank (by decide) (.blank (by decide) .nil))
  have hbehind : Spacing "\u00a0".toList := .blank (by decide) .nil
  have hpkg : IsName "pkg".toList := ⟨⟨'p', rfl, by decide⟩, List.all_eq_true.1 (by decide)⟩
  have hattr : IsName "attr".toList := ⟨⟨'a', rfl, by decide⟩, List.all_eq_true.1 (by decide)⟩
  have hchain : Chained Spacing ["pkg".toList, "attr".toList] "pkg\\ \n  .\u00a0attr".toList :=
    .dot hpkg hbefore hbehind (.last hattr)
  exact ⟨hchain, selectedName?_chained.1 _ _ "\t".toList "\n".toList hchain
    (blanks_nil.cons (by decide)) (blanks_nil.cons (by decide))⟩

end CodeReference.Outline
