import Mathlib
import CodeReference.Proofs.Markup.Closing

/-!
One cut of markup, said without the scanner: what is taken, the token it stands for, and what must
follow. Markup is empty or one such source in front of more markup.
-/
namespace CodeReference.Markup
open Text

variable {t r source w body : Text} {slash : Bool} {k : Option Token}

def commentStart : Text := "<!--".toList
def commentStop : Text := "-->".toList
def doctypeStart : Text := "<!".toList
def doctypeStop : Text := ['>']

/-- What follows the name of a tag closes the tag by itself. -/
def closesItself (name : Text) (slash : Bool) : Bool := slash || isVoid name

/-- A source that is cut off in front of a rest, and its token. The rest matters to what only it
brings to an end: unclosed comments, stray brackets, texts and raw text. -/
inductive Reading : (source : Text) → (token? : Option Token) → (rest : Text) → Prop
  | comment {body rest : Text} (h : through? commentStop body = some (body, [])) :
      Reading (commentStart ++ body) (some (.comment (commentStart ++ body))) rest
  | openComment {body : Text} (h : through? commentStop body = none) :
      Reading (commentStart ++ body) (some (.comment (commentStart ++ body))) []
  | doctype {body rest : Text} (hc : ¬ ['-', '-'] <+: body)
      (h : through? doctypeStop body = some (body, [])) :
      Reading (doctypeStart ++ body) (some (.doctype (doctypeStart ++ body))) rest
  | openDoctype {body : Text} (hc : ¬ ['-', '-'] <+: body) (h : through? doctypeStop body = none) :
      Reading (doctypeStart ++ body) (some (.doctype (doctypeStart ++ body))) []
  | endTag {w b rest : Text} (hw : IsName w) (hb : ∀ c ∈ b, isAsciiBlank c = true) :
      Reading ('<' :: '/' :: (w ++ b ++ ['>']))
        (if isVoid (w.map Char.toLower) then none else some (.endTag (w.map Char.toLower))) rest
  | stray {rest : Text} (hb : rest.head? ≠ some '!') (he : endTag? ('<' :: rest) = none)
      (hs : startTag? ('<' :: rest) = none) : Reading ['<'] (some (.text ['<'])) rest
  | startTag {w body rest : Text} {slash : Bool} (h : IsOpening w body slash)
      (hraw : isRawText (w.map Char.toLower) → ¬ closesItself (w.map Char.toLower) slash →
        ¬ HasClosing (w.map Char.toLower) rest) :
      Reading (opening w body slash)
        (some (.startTag (w.map Char.toLower) (normalizeAttributes body)
          (closesItself (w.map Char.toLower) slash))) rest
  | rawText {w body content u rest : Text} (h : IsOpening w body false)
      (hraw : isRawText (w.map Char.toLower)) (hc : ¬ HasClosing (w.map Char.toLower) content)
      (hu : IsClosing (w.map Char.toLower) u) :
      Reading (opening w body false ++ content ++ u)
        (some (.rawText (w.map Char.toLower) (normalizeAttributes body) content)) rest
  | text {t rest : Text} (hne : t ≠ []) (ht : '<' ∉ t) (hr : ∀ c ∈ rest.head?, c = '<') :
      Reading t (some (.text t)) rest

/-! ## The scanner cuts by the relation -/

theorem isRawText_iff {name : Text} : isRawText name = true ↔
    name = ['s', 't', 'y', 'l', 'e'] ∨ name = ['s', 'c', 'r', 'i', 'p', 't'] := by
  simp [isRawText, rawTextElements]

theorem not_isVoid_of_isRawText {name : Text} (h : isRawText name = true) : isVoid name = false := by
  rcases isRawText_iff.1 h with rfl | rfl <;> decide

theorem startsWith_commentStart_of_doctype (hc : ¬ ['-', '-'] <+: body)
    (hr : r = [] ∨ through? doctypeStop body = some (body, [])) :
    (doctypeStart ++ body ++ r).startsWith commentStart = false := by
  rw [Bool.eq_false_iff, Ne, startsWith_iff]
  rintro ⟨x, hx⟩
  have hx : body ++ r = '-' :: '-' :: x := by
    simpa [doctypeStart, commentStart] using hx
  refine hc ?_
  match body, hx, hr with
  | [], hx, hr =>
      -- An empty body has no closing bracket, so it has no rest either.
      rcases hr with rfl | hr
      · simp at hx
      · simpa [doctypeStop] using suffix_of_through? hr
  | [a], hx, hr =>
      rcases hr with rfl | hr
      · simp at hx
      · have hlast := suffix_of_through? hr
        simp only [List.cons_append, List.nil_append, List.cons.injEq] at hx
        rw [hx.1] at hlast
        exact absurd hlast (by decide)
  | a :: b :: body, hx, _ => simp_all

theorem cut_eq_cutComment (h : t.startsWith commentStart = true) : cut t = cutComment t := if_pos h

theorem cut_eq_cutDoctype (hc : t.startsWith commentStart = false)
    (h : t.startsWith doctypeStart = true) : cut t = cutDoctype t :=
  (if_neg (by rw [← commentStart, hc]; exact Bool.false_ne_true)).trans (if_pos h)

theorem cut_of_head (hb : t.head? ≠ some '!') :
    cut ('<' :: t) = match endTag? ('<' :: t) with
      | some (written, r) =>
        ⟨if isVoid (written.map Char.toLower) then none
          else some (.endTag (written.map Char.toLower)), r⟩
      | none => cutStartTag ('<' :: t) := by
  have hno : ∀ p : Text, startsWith ('<' :: t) ('<' :: '!' :: p) = false := by
    intro p
    rw [Bool.eq_false_iff, Ne, startsWith_iff]
    rintro ⟨x, hx⟩
    simp_all
  have hyes : startsWith ('<' :: t) ['<'] = true := startsWith_iff.2 ⟨t, rfl⟩
  have hcomment : startsWith ('<' :: t) "<!--".toList = false := hno ['-', '-']
  have hdoctype : startsWith ('<' :: t) "<!".toList = false := hno []
  rw [cut, hcomment, hdoctype, hyes]
  rfl

theorem cut_of_no_bracket (h : t.head? ≠ some '<') :
    cut t = ⟨some (.text (t.takeWhile (· != '<'))), t.dropWhile (· != '<')⟩ := by
  have hno : ∀ p : Text, startsWith t ('<' :: p) = false := by
    intro p
    rw [Bool.eq_false_iff, Ne, startsWith_iff]
    rintro ⟨x, rfl⟩
    exact h rfl
  have hcomment : startsWith t "<!--".toList = false := hno ['!', '-', '-']
  have hdoctype : startsWith t "<!".toList = false := hno ['!']
  have hend : endTag? t = none := by
    rw [Option.eq_none_iff_forall_ne_some]
    rintro ⟨w, r⟩ heq
    obtain ⟨b, -, -, rfl⟩ := endTag?_eq_some_iff.1 heq
    exact h rfl
  rw [cut, hcomment, hdoctype, hend, hno []]
  rfl

theorem endTag?_of_isOpening (h : IsOpening w body slash) :
    endTag? (opening w body slash ++ r) = none := by
  rw [Option.eq_none_iff_forall_ne_some]
  rintro ⟨w', r'⟩ heq
  obtain ⟨b, -, -, heq⟩ := endTag?_eq_some_iff.1 heq
  simp only [opening, List.append_assoc, List.cons_append, List.cons.injEq, true_and] at heq
  have hslash : isNameStart '/' = false := by decide
  exact h.name.head?_append_ne hslash _ (congrArg List.head? heq)

theorem cut_opening (h : IsOpening w body slash) (r : Text) :
    cut (opening w body slash ++ r) =
      let name := w.map Char.toLower
      let tag := Token.startTag name (normalizeAttributes body) (closesItself name slash)
      if isRawText name && !closesItself name slash then
        match rawTextContent? name r with
        | some (content, r') => ⟨some (.rawText name (normalizeAttributes body) content), r'⟩
        | none => ⟨some tag, r⟩
      else ⟨some tag, r⟩ := by
  have hend := endTag?_of_isOpening (r := r) h
  have hstart := startTag?_of_opening h r
  have hbang : isNameStart '!' = false := by decide
  have hb := h.name.head?_append_ne hbang ((body ++ if slash then ['/', '>'] else ['>']) ++ r)
  rw [← List.append_assoc, ← List.append_assoc] at hb
  rw [opening, List.cons_append] at hend hstart ⊢
  rw [cut_of_head hb, hend]
  simp only [cutStartTag, hstart, closesItself]
  rfl

/-- In front of the rest the relation gives, the scanner cuts off the source. -/
theorem Reading.cut_eq (h : Reading source k r) : cut (source ++ r) = ⟨k, r⟩ := by
  cases h with
  | @comment body _ h =>
      have hdrop : (commentStart ++ body ++ r).drop 4 = body ++ r := rfl
      have hthrough : through? ['-', '-', '>'] (body ++ r) = some (body, r) := through?_append_of h r
      rw [cut_eq_cutComment (startsWith_iff.2 ⟨body ++ r, List.append_assoc ..⟩), cutComment, hdrop,
        hthrough]
      rfl
  | @openComment body h =>
      rw [List.append_nil]
      have hdrop : (commentStart ++ body).drop 4 = body := rfl
      rw [cut_eq_cutComment (startsWith_iff.2 ⟨body, rfl⟩), cutComment, hdrop]
      simp only [show through? ['-', '-', '>'] body = none from h]
  | @doctype body _ hc h =>
      have hthrough : through? ['>'] (doctypeStart ++ body ++ r) =
          some (doctypeStart ++ body, r) := by
        have := through?_append_of h r
        simp_all [doctypeStart, doctypeStop, through?, dropPrefix?]
      rw [cut_eq_cutDoctype (startsWith_commentStart_of_doctype hc (.inr h))
        (startsWith_iff.2 ⟨body ++ r, List.append_assoc ..⟩), cutDoctype, hthrough]
  | @openDoctype body hc h =>
      have hcomment := startsWith_commentStart_of_doctype (r := []) hc (.inl rfl)
      rw [List.append_nil] at hcomment ⊢
      have hthrough : through? ['>'] (doctypeStart ++ body) = none := by
        simp_all [doctypeStart, doctypeStop, through?, dropPrefix?]
      rw [cut_eq_cutDoctype hcomment (startsWith_iff.2 ⟨body, rfl⟩), cutDoctype, hthrough]
  | @endTag w b _ hw hb =>
      have hend : endTag? ('<' :: '/' :: (w ++ b ++ '>' :: r)) = some (w, r) :=
        endTag?_eq_some_iff.2 ⟨b, hw, hb, rfl⟩
      have heq : '<' :: '/' :: (w ++ b ++ ['>']) ++ r = '<' :: '/' :: (w ++ b ++ '>' :: r) := by simp
      rw [heq, cut_of_head (by simp), hend]
  | stray hb he hs =>
      rw [List.singleton_append, cut_of_head hb, he]
      simp only [cutStartTag, hs, List.drop_one, List.tail_cons]
  | @startTag w body _ slash h hraw =>
      rw [cut_opening h]
      dsimp only
      split
      · rename_i hif
        simp only [Bool.and_eq_true, Bool.not_eq_true'] at hif
        rw [rawTextContent?_eq_none_iff.2 (hraw hif.1 (by simp [hif.2]))]
      · rfl
  | @rawText w body content u _ h hraw hc hu =>
      have hcontent : rawTextContent? (w.map Char.toLower) (content ++ u ++ r) = some (content, r) :=
        (rawTextContent?_eq_some_iff h.name.isLowerName_map.all).2 ⟨u, hu, hc, rfl⟩
      have heq : opening w body false ++ content ++ u ++ r =
          opening w body false ++ (content ++ u ++ r) := by simp
      rw [heq, cut_opening h]
      simp only [closesItself, hraw, not_isVoid_of_isRawText hraw, Bool.or_self, Bool.not_false,
        Bool.and_self, if_true, hcontent]
  | @text _ _ hne ht hr =>
      have hbracket : ∀ c ∈ source, (c != '<') = true := fun c hc => by
        simpa using ne_of_mem_of_not_mem hc ht
      have hstop : ∀ c ∈ r.head?, (c != '<') = false := fun c hc => by simp [hr c hc]
      have hhead : (source ++ r).head? ≠ some '<' := by
        cases source with
        | nil => exact absurd rfl hne
        | cons c source => simp_all
      rw [cut_of_no_bracket hhead, takeWhile_append_of_stop hbracket hstop,
        dropWhile_append_of_stop hbracket hstop]

/-- What the scanner cuts off a text is a source that the relation allows. -/
def CutsSource (t : Text) : Prop :=
  ∃ source, Reading source (cut t).token? (cut t).rest ∧ t = source ++ (cut t).rest

theorem cutsSource_comment (body : Text) : CutsSource (commentStart ++ body) := by
  have hcomment : (commentStart ++ body).startsWith commentStart = true :=
    startsWith_iff.2 ⟨body, rfl⟩
  have hdrop : (commentStart ++ body).drop 4 = body := rfl
  rw [CutsSource, cut_eq_cutComment hcomment, cutComment, hdrop]
  split
  · rename_i x r hx
    have heq := through?_append hx
    exact ⟨commentStart ++ x, .comment (through?_of_append hx), by simp [heq]⟩
  · rename_i hx
    exact ⟨commentStart ++ body, .openComment hx, (List.append_nil _).symm⟩

theorem cutsSource_doctype (h : (doctypeStart ++ body).startsWith commentStart = false) :
    CutsSource (doctypeStart ++ body) := by
  have hc : ¬ ['-', '-'] <+: body := by
    rintro ⟨x, rfl⟩
    rw [show startsWith (doctypeStart ++ (['-', '-'] ++ x)) commentStart = true from
      startsWith_iff.2 ⟨x, rfl⟩] at h
    cases h
  have hthrough : through? ['>'] (doctypeStart ++ body) =
      (through? doctypeStop body).map fun xr => (doctypeStart ++ xr.1, xr.2) := by
    simp only [doctypeStart, doctypeStop]
    cases hx : through? ['>'] body <;> simp [through?, dropPrefix?, hx]
  rw [CutsSource, cut_eq_cutDoctype h (startsWith_iff.2 ⟨body, rfl⟩), cutDoctype, hthrough]
  cases hx : through? doctypeStop body with
  | none => exact ⟨doctypeStart ++ body, .openDoctype hc hx, (List.append_nil _).symm⟩
  | some xr =>
      obtain ⟨x, r⟩ := xr
      have heq := through?_append hx
      exact ⟨doctypeStart ++ x, .doctype (fun hp => hc (hp.trans ⟨r, heq⟩))
        (through?_of_append hx), by simp [heq]⟩

theorem cutsSource_opening (h : IsOpening w body slash) (r : Text) :
    CutsSource (opening w body slash ++ r) := by
  have hname := h.name.isLowerName_map.all
  rw [CutsSource, cut_opening h]
  dsimp only
  split
  · rename_i hif
    rw [Bool.and_eq_true, Bool.not_eq_true'] at hif
    cases hcontent : rawTextContent? (w.map Char.toLower) r with
    | none => exact ⟨_, .startTag h fun _ _ => rawTextContent?_eq_none_iff.1 hcontent, rfl⟩
    | some cr =>
        obtain ⟨content, r'⟩ := cr
        obtain ⟨u, hu, hc, rfl⟩ := (rawTextContent?_eq_some_iff hname).1 hcontent
        obtain rfl : slash = false := (Bool.or_eq_false_iff.1 hif.2).1
        exact ⟨_, .rawText h hif.1 hc hu, by simp⟩
  · rename_i hif
    refine ⟨_, .startTag h fun hraw hopen => absurd ?_ hif, rfl⟩
    simp [hraw, hopen]

theorem cutsSource_bracket (hb : t.head? ≠ some '!') : CutsSource ('<' :: t) := by
  cases hend : endTag? ('<' :: t) with
  | some wr =>
      obtain ⟨w, r⟩ := wr
      obtain ⟨b, hw, hblank, heq⟩ := endTag?_eq_some_iff.1 hend
      rw [CutsSource, cut_of_head hb, hend]
      exact ⟨_, .endTag hw hblank, by simp [heq]⟩
  | none =>
      cases hstart : startTag? ('<' :: t) with
      | none =>
          rw [CutsSource, cut_of_head hb, hend]
          simp only [cutStartTag, hstart, List.drop_one, List.tail_cons]
          exact ⟨['<'], .stray hb hend hstart, rfl⟩
      | some parts =>
          obtain ⟨w, body, slash, r⟩ := parts
          obtain ⟨h, heq⟩ := startTag?_eq_some_iff.1 hstart
          exact heq ▸ cutsSource_opening h r

theorem cutsSource_text (h : t ≠ []) (hopen : t.head? ≠ some '<') : CutsSource t := by
  rw [CutsSource, cut_of_no_bracket hopen]
  refine ⟨t.takeWhile (· != '<'), .text ?_ ?_ ?_, List.takeWhile_append_dropWhile.symm⟩
  · cases t with
    | nil => exact absurd rfl h
    | cons c t => simp_all
  · exact fun hmem => by simpa using List.mem_takeWhile_imp hmem
  · exact fun c hc => by simpa using head?_dropWhile_stop _ t c hc

/-- Whatever the scanner cuts off, the relation allows. -/
theorem cutsSource (h : t ≠ []) : CutsSource t := by
  by_cases hcomment : t.startsWith commentStart = true
  · obtain ⟨body, rfl⟩ := startsWith_iff.1 hcomment
    exact cutsSource_comment body
  rw [Bool.not_eq_true] at hcomment
  by_cases hdoctype : t.startsWith doctypeStart = true
  · obtain ⟨body, rfl⟩ := startsWith_iff.1 hdoctype
    exact cutsSource_doctype hcomment
  by_cases hopen : t.head? = some '<'
  · obtain ⟨t, rfl⟩ := List.head?_eq_some_iff.1 hopen
    refine cutsSource_bracket fun heq => hdoctype ?_
    obtain ⟨x, rfl⟩ := List.head?_eq_some_iff.1 heq
    exact startsWith_iff.2 ⟨x, rfl⟩
  · exact cutsSource_text h hopen

/-! ## Segments and tokens -/

theorem Reading.source_ne_nil (h : Reading source k r) : source ≠ [] := by
  cases h with
  | text hne _ _ => exact hne
  | rawText => simp [opening]
  | _ => simp [commentStart, doctypeStart, opening]

theorem Reading.segments_eq (h : Reading source k r) :
    segments (source ++ r) = ⟨source, k⟩ :: segments r := by
  have hcut := h.cut_eq
  obtain ⟨c, t, rfl⟩ := List.exists_cons_of_ne_nil h.source_ne_nil
  rw [List.cons_append] at hcut ⊢
  have hlength : (t ++ r).length + 1 - r.length = (c :: t).length := by
    simp only [List.length_append, List.length_cons]
    omega
  rw [segments, hcut, hlength, ← List.cons_append, List.take_left]

theorem tokens_nil : tokens [] = [] := by
  rw [tokens, segments]
  rfl

theorem Reading.tokens_eq (h : Reading source k r) :
    tokens (source ++ r) = k.toList ++ tokens r := by
  rw [tokens, h.segments_eq, List.filterMap_cons, ← tokens]
  cases k <;> rfl

/-- What holds of the empty text, and of a source in front of a rest if it holds of the rest, holds
of all markup. -/
theorem reading_induction {P : Text → Prop} (nil : P [])
    (step : ∀ source k r, Reading source k r → P r → P (source ++ r)) (t : Text) : P t := by
  induction hn : t.length using Nat.strong_induction_on generalizing t with
  | h n ih =>
      subst hn
      by_cases ht : t = []
      · exact ht ▸ nil
      · obtain ⟨source, hread, heq⟩ := cutsSource ht
        have hpos := List.length_pos_iff.2 hread.source_ne_nil
        have hlt : (cut t).rest.length < t.length := by
          conv_rhs => rw [heq]
          rw [List.length_append]
          omega
        rw [heq]
        exact step _ _ _ hread (ih _ hlt _ rfl)

end CodeReference.Markup
