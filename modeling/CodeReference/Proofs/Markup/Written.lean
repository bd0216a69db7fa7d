import Mathlib
import CodeReference.Markup.Layout
import CodeReference.Proofs.Markup.Reading

/-!
Tokens as markup again. A written token has a closing tag of raw text in it only if the source it
was read from has one.
-/
namespace CodeReference.Markup
open Text

variable {name n t w body attributes content source r : Text} {slash selfClosing : Bool}

def Token.written : Token → Text
  | .startTag name attributes selfClosing => openTag name attributes selfClosing
  | .endTag name => closeTag name
  | .text content | .comment content | .doctype content => content
  | .rawText name attributes content => openTag name attributes false ++ content ++ closeTag name

/-! ## Tags as they are written -/

/-- What is written between the name of a tag and its closing bracket or the slash before that. -/
def attributeBody (attributes : Text) (selfClosing : Bool) : Text :=
  (if attributes = [] then [] else ' ' :: attributes) ++ if selfClosing then [' '] else []

theorem openTag_eq_opening (name attributes : Text) (selfClosing : Bool) :
    openTag name attributes selfClosing =
      opening name (attributeBody attributes selfClosing) selfClosing := by
  cases attributes <;> cases selfClosing <;> simp [openTag, opening, attributeBody]

theorem normalizeAttributes_attributeBody (h : normalizeAttributes attributes = attributes) :
    normalizeAttributes (attributeBody attributes selfClosing) = attributes := by
  have hspace : Blanks [' '] := blanks_nil.cons (by decide)
  have hfront : normalizeAttributes (if attributes = [] then [] else ' ' :: attributes) =
      attributes := by
    split
    · rename_i hnil
      exact hnil ▸ h
    · rw [← List.singleton_append, normalizeAttributes_append_left hspace, h]
  cases selfClosing with
  | false => rw [attributeBody, if_neg Bool.false_ne_true, List.append_nil, hfront]
  | true => rw [attributeBody, if_pos rfl, normalizeAttributes_append_right hspace, hfront]

theorem isOpening_attributeBody (hname : IsName name) (hbracket : '>' ∉ attributes)
    (hlast : selfClosing = false → attributes.getLast? ≠ some '/') :
    IsOpening name (attributeBody attributes selfClosing) selfClosing := by
  refine ⟨hname, ?_, ?_, ?_⟩
  · intro c hc
    have hspace : c = ' ' := by
      revert hc
      cases attributes <;> cases selfClosing <;> simp [attributeBody, eq_comm]
    rw [hspace]
    decide
  · cases attributes <;> cases selfClosing <;> simp_all [attributeBody]
  · rintro rfl
    have := hlast rfl
    cases attributes <;> simp_all [attributeBody]

theorem isClosing_closeTag (h : IsLowerName name) : IsClosing name (closeTag name) := by
  refine ⟨name, [], ?_, blanks_nil, by simp [closeTag]⟩
  have hself : ∀ c ∈ name, isCaseOf c c = true := fun c hc => by
    have := List.map_inj_left.1 (h.lower.trans (List.map_id name).symm) c hc
    simp_all [isCaseOf]
  exact List.forall₂_same.2 hself

/-! ## Closing tags in tags -/

theorem spells_map_toLower (w : Text) : Spells (w.map Char.toLower) w := by
  refine List.forall₂_map_left_iff.2 (List.forall₂_same.2 fun c _ => ?_)
  simp [isCaseOf]

theorem Spells.eq_of_isLowerName (h : Spells n name) (hname : IsLowerName name) : n = name := by
  have hlower : ∀ c ∈ name, c.toLower = c ∧ isNameChar c = true := fun c hc =>
    ⟨List.map_inj_left.1 (hname.lower.trans (List.map_id name).symm) c hc, hname.all c hc⟩
  clear hname
  induction h with
  | nil => rfl
  | @cons a c n name hac _ ih =>
      obtain ⟨⟨hc, hchar⟩, hlower⟩ := List.forall_mem_cons.1 hlower
      rw [ih hlower]
      simp only [isCaseOf, hc, Bool.or_eq_true, Bool.and_eq_true, beq_iff_eq] at hac
      rcases hac with (rfl | ⟨-, rfl⟩) | ⟨-, rfl | rfl⟩
      · rfl
      all_goals exact absurd hchar (by decide)

theorem not_hasClosing_of_not_mem_close (hn : ∀ a ∈ n, isNameChar a = true) (h : '>' ∉ t) :
    ¬ HasClosing n t := by
  rintro ⟨u, hu, hpart⟩
  obtain ⟨m, rfl, -, -⟩ := hu.exists_inside hn
  exact h (hpart.subset (by simp))

/-- The name of a tag and what stands before it are no part of a closing tag in it. -/
theorem hasClosing_name_append_iff (hn : ∀ a ∈ n, isNameChar a = true) (hname : IsName name)
    (t : Text) : HasClosing n ('<' :: (name ++ t)) ↔ HasClosing n t := by
  have hslash : isNameStart '/' = false := by decide
  have hopen : '<' ∉ name := fun h => (solid_of_isNameChar (hname.all _ h)).bracket.1 rfl
  rw [← List.singleton_append, hasClosing_append_iff hn
      (.inr (.inr (.inr (.inr ⟨rfl, hname.head?_append_ne hslash t⟩)))),
    hasClosing_append_iff hn (.inl hopen),
    iff_false_intro (not_hasClosing_of_not_mem_close hn (t := ['<']) (by decide)),
    iff_false_intro (not_hasClosing_of_not_mem hn hopen), false_or, false_or]

theorem IsName.solid (h : IsName w) : ∀ c ∈ w, Solid c := fun c hc =>
  solid_of_isNameChar (h.all c hc)

theorem eq_of_hasClosing_closeTag (hn : ∀ a ∈ n, isNameChar a = true) (hname : IsLowerName name)
    (h : HasClosing n (closeTag name)) : n = name := by
  obtain ⟨u, ⟨w, b, hw, hb, rfl⟩, hpart⟩ := h
  have hopen : '<' ∉ name := fun h => (hname.toIsName.solid _ h).bracket.1 rfl
  rcases List.infix_cons_iff.1 hpart with hfront | hpart
  · obtain ⟨y, hy⟩ := hfront
    have heq : w ++ b ++ '>' :: y = name ++ '>' :: [] := by simpa [closeTag] using hy
    have hinside : w ++ b = name := by
      have hleft : ∀ c ∈ w ++ b, (c != '>') = true := List.forall_mem_append.2
        ⟨fun c hc => by simpa using (hw.solid hn c hc).bracket.2,
          fun c hc => by simpa using ne_of_mem_of_not_mem hc (hb.not_mem (by decide))⟩
      have hright : ∀ c ∈ name, (c != '>') = true := fun c hc => by
        simpa using (hname.toIsName.solid c hc).bracket.2
      have := congrArg (List.takeWhile (· != '>')) heq
      rwa [takeWhile_append_of_stop hleft (by simp), takeWhile_append_of_stop hright (by simp)]
        at this
    have hb : b = [] := by
      cases b with
      | nil => rfl
      | cons c b =>
          have := (hname.toIsName.solid c (by simp [← hinside])).blank
          rw [hb c (by simp)] at this
          cases this
    rw [hb, List.append_nil] at hinside
    exact (hinside ▸ hw).eq_of_isLowerName hname
  · have := hpart.subset (List.mem_cons_self (a := '<'))
    simp_all

theorem IsClosing.not_slash (hn : ∀ a ∈ n, isNameChar a = true) (hne : n ≠ []) {k : Text} :
    ¬ IsClosing n (k ++ ['/', '>']) := by
  rintro ⟨w, b, hw, hb, heq⟩
  have hwne : w ++ b ≠ [] := by
    cases hw with
    | nil => exact absurd rfl hne
    | cons => simp
  have heq : k ++ ['/'] ++ ['>'] = ['<', '/'] ++ (w ++ b) ++ ['>'] := by simpa using heq
  have hlast := congrArg List.getLast? (List.append_singleton_inj.1 heq).1
  rw [List.getLast?_concat, List.getLast?_append_of_ne_nil _ hwne] at hlast
  rcases List.mem_append.1 (List.mem_of_getLast? hlast.symm) with hmem | hmem
  · exact (hw.solid hn _ hmem).slash rfl
  · exact hb.not_mem (by decide) hmem

theorem not_hasClosing_slash (hn : ∀ a ∈ n, isNameChar a = true) (hne : n ≠ []) (h : '>' ∉ t) :
    ¬ HasClosing n (t ++ ['/', '>']) := by
  intro hc
  rcases hc.of_append with hc | hc | ⟨k, l, hkl, -, hl, -, hlu⟩
  · exact not_hasClosing_of_not_mem_close hn h hc
  · exact not_hasClosing_of_not_mem hn (by decide) hc
  · obtain ⟨m, heq, -, -⟩ := hkl.exists_inside hn
    have hcases : l = ['/'] ∨ l = ['/', '>'] := by
      simp only [List.prefix_cons_iff, List.prefix_nil] at hlu
      rcases hlu with rfl | ⟨l, rfl, rfl | ⟨l, rfl, rfl⟩⟩
      · exact absurd rfl hl
      · exact .inl rfl
      · exact .inr rfl
    rcases hcases with rfl | rfl
    · have hlast := congrArg List.getLast? heq
      rw [List.getLast?_concat, ← List.cons_append, ← List.cons_append, List.getLast?_concat]
        at hlast
      exact absurd hlast (by decide)
    · exact IsClosing.not_slash hn hne hkl

/-- Blanks in front of the bracket of a closing tag do not matter. -/
theorem HasClosing.blanks_append (hn : ∀ a ∈ n, isNameChar a = true) {b : Text} (hb : Blanks b)
    (h : HasClosing n (t ++ ['>'])) : HasClosing n (t ++ b ++ ['>']) := by
  rcases h.of_append with h | h | ⟨k, l, hkl, hk, hl, hkt, hlu⟩
  · rw [List.append_assoc]
    exact h.mono (List.prefix_append ..).isInfix
  · exact absurd h (not_hasClosing_of_not_mem hn (by decide))
  · obtain rfl : l = ['>'] := by
      simp only [List.prefix_cons_iff, List.prefix_nil] at hlu
      rcases hlu with rfl | ⟨l, rfl, rfl⟩
      · exact absurd rfl hl
      · rfl
    obtain ⟨w, b', hw, hb', heq⟩ := hkl
    have heq : k ++ ['>'] = '<' :: '/' :: (w ++ b') ++ ['>'] := heq
    obtain rfl := (List.append_singleton_inj.1 heq).1
    obtain ⟨a, rfl⟩ := hkt
    exact ⟨_, ⟨w, b' ++ b, hw, hb'.append hb, rfl⟩, a, [], by simp⟩

theorem HasClosing.of_normalizeAttributes (hn : ∀ a ∈ n, isNameChar a = true)
    (h : HasClosing n (normalizeAttributes t ++ ['>'])) : HasClosing n (t ++ ['>']) := by
  obtain ⟨a, b, -, hb, heq⟩ := exists_trim t
  have hclose : isBlank '>' = false := by decide
  have hcollapse : normalizeAttributes t ++ ['>'] = collapseBlanks false (Text.trim t ++ ['>']) := by
    rw [normalizeAttributes_eq, collapseBlanks_append_cons _ _ hclose]
    rfl
  rw [hcollapse, hasClosing_collapseBlanks hn] at h
  refine (h.blanks_append hn hb).mono ⟨a, [], ?_⟩
  conv_rhs => rw [heq]
  simp

/-! ## Closing tags in tokens -/

theorem hasClosing_opening_iff (hn : ∀ a ∈ n, isNameChar a = true) (hw : IsName w) :
    HasClosing n (opening w body slash) ↔
      HasClosing n (body ++ if slash then ['/', '>'] else ['>']) := by
  rw [opening, List.append_assoc, hasClosing_name_append_iff hn hw]

theorem getLast?_opening (w body : Text) (slash : Bool) :
    (opening w body slash).getLast? = some '>' := by
  rw [opening, ← List.singleton_append, List.getLast?_append_of_ne_nil _ (by cases slash <;> simp)]
  cases slash <;> simp

theorem hasClosing_openTag_append_iff (hn : ∀ a ∈ n, isNameChar a = true) :
    HasClosing n (openTag name attributes selfClosing ++ t) ↔
      HasClosing n (openTag name attributes selfClosing) ∨ HasClosing n t := by
  rw [openTag_eq_opening]
  exact hasClosing_append_iff hn (.inr (.inr (.inl (getLast?_opening ..))))

theorem hasClosing_append_closeTag_iff (hn : ∀ a ∈ n, isNameChar a = true) :
    HasClosing n (t ++ closeTag name) ↔ HasClosing n t ∨ HasClosing n (closeTag name) :=
  hasClosing_append_iff hn (.inr (.inr (.inr (.inl rfl))))

theorem HasClosing.of_openTag (hn : IsName n) (h : IsOpening w body slash)
    (hc : HasClosing n (openTag (w.map Char.toLower) (normalizeAttributes body)
      (closesItself (w.map Char.toLower) slash))) : HasClosing n (opening w body slash) := by
  have hname := h.name.isLowerName_map
  have hbracket : '>' ∉ normalizeAttributes body := fun hmem =>
    h.bracket (mem_of_mem_normalizeAttributes (by decide) hmem)
  rw [openTag_eq_opening, hasClosing_opening_iff hn.all hname.toIsName] at hc
  rw [hasClosing_opening_iff hn.all h.name]
  generalize hself : closesItself (w.map Char.toLower) slash = selfClosing at hc
  cases selfClosing with
  | true =>
      refine absurd hc (not_hasClosing_slash hn.all hn.ne_nil ?_)
      unfold attributeBody
      split <;> simp_all
  | false =>
      obtain rfl : slash = false := (Bool.or_eq_false_iff.1 hself).1
      refine HasClosing.of_normalizeAttributes hn.all ?_
      simp only [attributeBody, Bool.false_eq_true, if_false, List.append_nil] at hc
      split at hc
      · rename_i hnil
        rwa [hnil]
      · rw [← List.singleton_append, List.append_assoc,
          hasClosing_append_iff hn.all (.inl (by decide))] at hc
        exact hc.resolve_left (not_hasClosing_of_not_mem hn.all (by decide))

/-- Writing a token does not make a closing tag. -/
theorem Reading.hasClosing (hn : IsName n) {k : Token} (h : Reading source (some k) r)
    (hc : HasClosing n k.written) : HasClosing n source := by
  generalize hk : some k = k? at h
  cases h with
  | comment | openComment | doctype | openDoctype | stray | text =>
      cases hk
      exact hc
  | @endTag w b _ hw hb =>
      split at hk
      · cases hk
      · cases hk
        rw [eq_of_hasClosing_closeTag hn.all hw.isLowerName_map hc]
        exact ⟨_, ⟨w, b, spells_map_toLower w, fun c hc => isBlank_of_isAsciiBlank (hb c hc), rfl⟩,
          List.infix_rfl⟩
  | startTag h hraw =>
      cases hk
      exact hc.of_openTag hn h
  | @rawText w body content u _ h hraw hcontent hu =>
      cases hk
      have hself : closesItself (w.map Char.toLower) false = false := not_isVoid_of_isRawText hraw
      rw [Token.written, hasClosing_append_closeTag_iff hn.all,
        hasClosing_openTag_append_iff hn.all] at hc
      rcases hc with (hc | hc) | hc
      · rw [← hself] at hc
        rw [List.append_assoc]
        exact (hc.of_openTag hn h).mono (List.prefix_append ..).isInfix
      · exact hc.mono (List.infix_append ..)
      · rw [eq_of_hasClosing_closeTag hn.all h.name.isLowerName_map hc]
        exact ⟨u, hu, (List.suffix_append ..).isInfix⟩

/-- Markup without a closing tag of an element has tokens that are written without one. -/
theorem not_hasClosing_of_mem_tokens (hn : IsName n) (h : ¬ HasClosing n t) :
    ∀ k ∈ tokens t, ¬ HasClosing n k.written := by
  induction t using reading_induction with
  | nil => simp [tokens_nil]
  | step source k? r hread ih =>
      have hsource : ¬ HasClosing n source := fun hc =>
        h (hc.mono (List.prefix_append source r).isInfix)
      have hrest : ¬ HasClosing n r := fun hc => h (hc.mono (List.suffix_append source r).isInfix)
      rw [hread.tokens_eq]
      cases k? with
      | none => exact ih hrest
      | some k =>
          exact List.forall_mem_cons.2 ⟨fun hc => hsource (hread.hasClosing hn hc), ih hrest⟩

end CodeReference.Markup
