import Mathlib
import CodeReference.Proofs.Lists
import CodeReference.Proofs.Markup.Locator
import CodeReference.Proofs.Markup.Partition

/-!
The opening tag found before a place, and the opening tags among the tokens. Where every opening
bracket begins a tag, a comment or a declaration, looking back from a place sees the same opening
tags as reading from the front, so what is found is the last of them that has begun by then.
-/
namespace CodeReference.Markup
open Text

variable {snippetLength : Int} {t name w body : Text} {slash : Bool} {s : Segment}
  {segs : List Segment} {offset i : Nat}

/-! ## Places of segments -/

/-- Segments with the offsets they begin at, the first of them at a given one. -/
def placedFrom (offset : Nat) : List Segment → List (Nat × Segment)
  | [] => []
  | s :: segs => (offset, s) :: placedFrom (offset + s.source.length) segs

theorem mem_placedFrom_iff : (i, s) ∈ placedFrom offset segs ↔
    ∃ before after, segs = before ++ s :: after ∧ i = offset + (sourceOf before).length := by
  induction segs generalizing offset with
  | nil => simp [placedFrom]
  | cons u segs ih =>
      rw [placedFrom, List.mem_cons, ih]
      constructor
      · rintro (heq | ⟨before, after, rfl, rfl⟩)
        · cases heq
          exact ⟨[], segs, rfl, rfl⟩
        · refine ⟨u :: before, after, rfl, ?_⟩
          rw [sourceOf_cons, List.length_append, Nat.add_assoc]
      · rintro ⟨before, after, heq, rfl⟩
        cases before with
        | nil =>
            cases heq
            exact .inl rfl
        | cons v before =>
            cases heq
            refine .inr ⟨before, after, rfl, ?_⟩
            rw [sourceOf_cons, List.length_append, Nat.add_assoc]

theorem pairwise_placedFrom (h : ∀ s ∈ segs, s.source ≠ []) (offset : Nat) :
    (placedFrom offset segs).Pairwise fun p p' => p.1 < p'.1 := by
  induction segs generalizing offset with
  | nil => exact .nil
  | cons s segs ih =>
      obtain ⟨hs, hsegs⟩ := List.forall_mem_cons.1 h
      refine .cons ?_ (ih hsegs _)
      rintro ⟨i, u⟩ hu
      obtain ⟨before, after, -, rfl⟩ := mem_placedFrom_iff.1 hu
      have hpos := List.length_pos_iff.2 hs
      dsimp only
      omega

/-- The segments of markup with the offsets they begin at. -/
def placed (t : Text) : List (Nat × Segment) := placedFrom 0 (segments t)

theorem pairwise_placed (t : Text) : (placed t).Pairwise fun p p' => p.1 < p'.1 := by
  refine pairwise_placedFrom (fun s hs => ?_) 0
  obtain ⟨before, after, heq⟩ := List.append_of_mem hs
  exact ((segmented_segments t).1.reading heq).source_ne_nil

/-- At the place of a segment stands its source, cut off in front of the rest. -/
theorem reading_of_mem_placed (h : (i, s) ∈ placed t) :
    ∃ rest, Reading s.source s.token? rest ∧ t.drop i = s.source ++ rest := by
  obtain ⟨before, after, heq, rfl⟩ := mem_placedFrom_iff.1 h
  obtain ⟨hseg, hsource⟩ := segmented_segments t
  refine ⟨sourceOf after, hseg.reading heq, ?_⟩
  have ht : t = sourceOf before ++ (s.source ++ sourceOf after) := by
    rw [← hsource, heq, sourceOf, List.flatMap_append, List.flatMap_cons]
    rfl
  rw [Nat.zero_add, ht, List.drop_left]

/-! ## Opening tags among the tokens -/

/-- The offset and the name of a segment that is an opening tag. -/
def openingOf? (p : Nat × Segment) : Option (Nat × Text) :=
  match p.2.token? with
  | some (.startTag name _ _) => some (p.1, name)
  | _ => none

/-- The opening tags among the tokens of markup, in order: the offsets of their brackets, and their
names in small letters. -/
def openings (t : Text) : List (Nat × Text) := (placed t).filterMap openingOf?

/-- Whether a segment is a tag, a comment or a declaration. The closing tags of void elements are
segments without a token. -/
def Segment.isMarkup (s : Segment) : Bool :=
  match s.token? with
  | none => true
  | some (.startTag ..) => true
  | some (.endTag ..) => true
  | some (.comment ..) => true
  | some (.doctype ..) => true
  | some (.text ..) => false
  | some (.rawText ..) => false

/-- Markup in which every opening bracket begins a tag, a comment or a declaration. There is none
in texts, in attributes or within comments, and there is no raw text, which begins with one. -/
def IsPlain (t : Text) : Prop :=
  ∀ offset < t.length, t[offset]? = some '<' →
    ∃ p ∈ placed t, p.1 = offset ∧ p.2.isMarkup = true

instance (t : Text) : Decidable (IsPlain t) :=
  inferInstanceAs (Decidable (∀ offset < t.length, t[offset]? = some '<' →
    ∃ p ∈ placed t, p.1 = offset ∧ p.2.isMarkup = true))

theorem openingOf?_eq_some_iff {p : Nat × Segment} : openingOf? p = some (i, name) ↔
    p.1 = i ∧ ∃ attributes selfClosing, p.2.token? = some (.startTag name attributes selfClosing) := by
  unfold openingOf?
  split
  · rename_i htoken
    simp [htoken]
  · rename_i hother
    simp only [reduceCtorEq, false_iff, not_and, not_exists]
    exact fun _ attributes selfClosing htoken => hother name attributes selfClosing htoken

theorem mem_openings_iff : (i, name) ∈ openings t ↔
    ∃ s attributes selfClosing, (i, s) ∈ placed t ∧
      s.token? = some (.startTag name attributes selfClosing) := by
  rw [openings, List.mem_filterMap]
  constructor
  · rintro ⟨⟨_, s⟩, hs, hopening⟩
    obtain ⟨rfl, attributes, selfClosing, htoken⟩ := openingOf?_eq_some_iff.1 hopening
    exact ⟨s, attributes, selfClosing, hs, htoken⟩
  · rintro ⟨s, attributes, selfClosing, hs, htoken⟩
    exact ⟨(i, s), hs, openingOf?_eq_some_iff.2 ⟨rfl, attributes, selfClosing, htoken⟩⟩

theorem pairwise_openings (t : Text) : (openings t).Pairwise fun p p' => p.1 < p'.1 := by
  rw [openings, List.pairwise_filterMap]
  refine (pairwise_placed t).imp ?_
  rintro p p' hlt ⟨i, name⟩ ho ⟨i', name'⟩ ho'
  obtain ⟨rfl, -⟩ := openingOf?_eq_some_iff.1 ho
  obtain ⟨rfl, -⟩ := openingOf?_eq_some_iff.1 ho'
  exact hlt

/-! ## What is seen looking back -/

theorem openingTagName?_of_isPrefix {c : Char} {u x : Text} (hblank : isAsciiBlank c = false)
    (hname : isNameStart c = false) (h : u <+: '<' :: c :: x) : openingTagName? u = none := by
  rw [Option.eq_none_iff_forall_ne_some]
  intro name hsome
  obtain ⟨b, r, hn, hb, -, rfl⟩ := openingTagName?_eq_some_iff.1 hsome
  obtain ⟨y, hy⟩ := (List.cons_prefix_cons.1 h).2
  cases b with
  | nil =>
      rw [List.nil_append, List.append_assoc] at hy
      exact hn.head?_append_ne hname _ (congrArg List.head? hy)
  | cons d b =>
      obtain rfl : d = c := (List.cons.inj hy).1
      rw [hb d List.mem_cons_self] at hblank
      cases hblank

/-- Closing tags, comments and declarations are not taken for opening tags, however little of them
is seen. -/
theorem tagAt?_of_drop {c : Char} {x : Text} (hblank : isAsciiBlank c = false)
    (hname : isNameStart c = false) (h : t.drop i = '<' :: c :: x) :
    tagAt? snippetLength t i = none := by
  have hprefix := slice_isPrefix t i (i + snippetLength)
  rw [h] at hprefix
  rw [tagAt?, openingTagName?_of_isPrefix hblank hname hprefix, ite_self]

/-- What stands behind the name of an opening tag does not go on with it. -/
theorem IsOpening.exists_behind (h : IsOpening w body slash) (rest : Text) :
    ∃ behind, opening w body slash ++ rest = '<' :: (w ++ behind) ∧
      ∀ c ∈ behind.head?, isNameChar c = false := by
  refine ⟨body ++ (if slash then ['/', '>'] else ['>']) ++ rest, ?_, ?_⟩
  · rw [opening, List.cons_append, List.append_assoc w, List.append_assoc w]
  · cases body with
    | cons c body => exact h.head
    | nil =>
        intro c hc
        cases slash with
        | true =>
            obtain rfl : '/' = c := Option.mem_some_iff.1 hc
            decide
        | false =>
            obtain rfl : '>' = c := Option.mem_some_iff.1 hc
            decide

/-- An opening tag is seen as it is read, if its name is seen as a whole. -/
theorem tagAt?_of_opening {rest : Text} (h : IsOpening w body slash)
    (hlength : (w.length : Int) < snippetLength) (hdrop : t.drop i = opening w body slash ++ rest) :
    tagAt? snippetLength t i = some w := by
  obtain ⟨k, rfl⟩ : ∃ k : Nat, snippetLength = ((w.length + k + 1 : Nat) : Int) :=
    ⟨(snippetLength - w.length - 1).toNat, by omega⟩
  obtain ⟨behind, heq, hstop⟩ := h.exists_behind rest
  refine tagAt?_eq_some_iff.2 ⟨[], behind.take k, h.name, by simp, fun c hc => hstop c ?_, ?_⟩
  · rw [List.head?_take] at hc
    split at hc
    · cases hc
    · exact hc
  · rw [hdrop, heq, List.take_succ_cons, List.nil_append, List.take_length_add_append]

/-- At a tag, a comment or a declaration, looking back sees what reading gives. -/
theorem Reading.map_tagAt? {source rest : Text} {k : Option Token} (h : Reading source k rest)
    (hmarkup : Segment.isMarkup ⟨source, k⟩ = true) (hdrop : t.drop i = source ++ rest)
    (hlength : ∀ p, openingOf? (i, ⟨source, k⟩) = some p → (p.2.length : Int) < snippetLength) :
    (tagAt? snippetLength t i).map (·.map Char.toLower) =
      (openingOf? (i, ⟨source, k⟩)).map Prod.snd := by
  have hblank : isAsciiBlank '!' = false := by decide
  have hname : isNameStart '!' = false := by decide
  cases h with
  | comment => rw [tagAt?_of_drop hblank hname hdrop]; rfl
  | openComment => rw [tagAt?_of_drop hblank hname hdrop]; rfl
  | doctype => rw [tagAt?_of_drop hblank hname hdrop]; rfl
  | openDoctype => rw [tagAt?_of_drop hblank hname hdrop]; rfl
  | @endTag w b _ hw hb =>
      rw [tagAt?_of_drop (by decide) (by decide) hdrop]
      cases isVoid (w.map Char.toLower) with
      | true => rfl
      | false => rfl
  | @startTag w body _ slash hopening _ =>
      have hlength := hlength _ rfl
      rw [List.length_map] at hlength
      rw [tagAt?_of_opening hopening hlength hdrop]
      rfl
  | stray => cases hmarkup
  | rawText => cases hmarkup
  | text => cases hmarkup

/-! ## The last opening tag -/

theorem map_tagAt?_eq_some_iff (hplain : IsPlain t)
    (hlength : ∀ p ∈ openings t, (p.2.length : Int) < snippetLength) :
    (tagAt? snippetLength t i).map (·.map Char.toLower) = some name ↔ (i, name) ∈ openings t := by
  have hseen : ∀ {s : Segment}, (i, s) ∈ placed t → s.isMarkup = true →
      (tagAt? snippetLength t i).map (·.map Char.toLower) =
        (openingOf? (i, s)).map Prod.snd := by
    intro s hs hmarkup
    obtain ⟨rest, hread, hdrop⟩ := reading_of_mem_placed hs
    exact hread.map_tagAt? hmarkup hdrop fun p hp =>
      hlength p (List.mem_filterMap.2 ⟨(i, s), hs, hp⟩)
  constructor
  · intro h
    have hbracket : t[i]? = some '<' := by
      by_contra hne
      rw [tagAt?, if_neg hne] at h
      cases h
    obtain ⟨hi, -⟩ := List.getElem?_eq_some_iff.1 hbracket
    obtain ⟨⟨_, s⟩, hs, rfl, hmarkup⟩ := hplain i hi hbracket
    rw [hseen hs hmarkup, Option.map_eq_some_iff] at h
    obtain ⟨⟨_, _⟩, hopening, rfl⟩ := h
    obtain ⟨rfl, attributes, selfClosing, htoken⟩ := openingOf?_eq_some_iff.1 hopening
    exact mem_openings_iff.2 ⟨s, attributes, selfClosing, hs, htoken⟩
  · intro h
    obtain ⟨s, attributes, selfClosing, hs, htoken⟩ := mem_openings_iff.1 h
    have hmarkup : s.isMarkup = true := by rw [Segment.isMarkup, htoken]
    rw [hseen hs hmarkup, openingOf?_eq_some_iff.2 ⟨rfl, attributes, selfClosing, htoken⟩]
    rfl

theorem map_lastTag?_eq_some_iff (hplain : IsPlain t)
    (hlength : ∀ p ∈ openings t, (p.2.length : Int) < snippetLength) :
    (lastTag? snippetLength t offset).map (·.map Char.toLower) = some name ↔
      ∃ i ≤ offset, (i, name) ∈ openings t ∧ ∀ p ∈ openings t, p.1 ≤ offset → p.1 ≤ i := by
  have hseen : ∀ {i : Nat} {name : Text}, (tagAt? snippetLength t i).map (·.map Char.toLower) =
      some name ↔ (i, name) ∈ openings t := map_tagAt?_eq_some_iff hplain hlength
  rw [Option.map_eq_some_iff]
  constructor
  · rintro ⟨w, hw, rfl⟩
    obtain ⟨i, hi, htag, hnone⟩ := lastTag?_eq_some_iff.1 hw
    refine ⟨i, hi, hseen.1 (by rw [htag]; rfl), ?_⟩
    rintro ⟨j, other⟩ hj hle
    by_contra hlt
    have htag' := hseen.2 hj
    rw [hnone j (not_le.1 hlt) hle] at htag'
    cases htag'
  · rintro ⟨i, hi, hopening, hlast⟩
    obtain ⟨w, htag, rfl⟩ := Option.map_eq_some_iff.1 (hseen.2 hopening)
    refine ⟨w, lastTag?_eq_some_iff.2 ⟨i, hi, htag, fun j hlt hle => ?_⟩, rfl⟩
    cases htag' : tagAt? snippetLength t j with
    | none => rfl
    | some other =>
        have hj : (j, other.map Char.toLower) ∈ openings t := hseen.1 (by rw [htag']; rfl)
        exact absurd (hlast _ hj hle) (not_le.2 hlt)

/-- Where every opening bracket begins a tag, a comment or a declaration, and the window is wide
enough for the name of every opening tag, the tag found from an offset is the last opening tag among
the tokens that begins at the offset or before it. -/
theorem enclosingTag?_eq_last_opening (hplain : IsPlain t)
    (hlength : ∀ p ∈ openings t, (p.2.length : Int) < snippetLength) (h : 0 < offset) :
    (enclosingTag? snippetLength t offset).map (·.map Char.toLower) =
      ((openings t).filter fun p => p.1 ≤ min offset t.length).getLast?.map Prod.snd := by
  have hascending := (pairwise_openings t).filter fun p => p.1 ≤ min offset t.length
  rw [enclosingTag?, if_neg (by omega), Int.toNat_natCast]
  ext name
  rw [map_lastTag?_eq_some_iff hplain hlength, Option.map_eq_some_iff]
  simp only [getLast?_eq_some_iff_of_pairwise hascending, List.mem_filter, decide_eq_true_eq]
  constructor
  · rintro ⟨i, hi, hopening, hlast⟩
    exact ⟨(i, name), ⟨⟨hopening, hi⟩, fun p hp => hlast p hp.1 hp.2⟩, rfl⟩
  · rintro ⟨⟨i, _⟩, ⟨⟨hopening, hi⟩, hlast⟩, rfl⟩
    exact ⟨i, hi, hopening, fun p hp hle => hlast p ⟨hp, hle⟩⟩

/-- The declaration, the comment and the closing tags around the place are passed over. The window
shows one character more than the longest name. -/
theorem enclosingTag?_eq_last_opening_narrow :
    (enclosingTag? 4 "<!doctype html><Div a=1>x<Br></br><!-- p --></DIV >y".toList 50).map
      (·.map Char.toLower) = some "br".toList := by
  have hplain : IsPlain "<!doctype html><Div a=1>x<Br></br><!-- p --></DIV >y".toList := by
    decide +kernel
  exact (enclosingTag?_eq_last_opening hplain (by decide +kernel) (by decide)).trans
    (by decide +kernel)

end CodeReference.Markup
