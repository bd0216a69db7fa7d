import Mathlib
import CodeReference.Proofs.Markup.WellFormed
import CodeReference.Proofs.Markup.Lines

/-!
The tokens of markup that was laid out. What stands between two tags is one text: indentation, and
the text that was written there. These tokens are read as they are written, so they are what the
scanner finds in the layout.
-/
namespace CodeReference.Markup
open Text

variable {s : Style} {n : Nesting} {k : Token} {ks : List Token}
  {name attributes content gap sep t x : Text}

/-! ## Lines as one text -/

/-- The lines of a text, with `sep` in front of the first one. -/
def writeLines (sep : Text) : List Text → Text
  | [] => []
  | l :: ls => sep ++ l ++ writeLines ['\n'] ls

theorem join_eq_writeLines (ls : List Text) : join ['\n'] ls = writeLines [] ls := by
  fun_induction join ['\n'] ls with
  | case1 => rfl
  | case2 t => simp [writeLines]
  | case3 t u ls ih => rw [ih]; simp [writeLines]

theorem writeLines_append {ls : List Text} (hne : ls ≠ []) (sep : Text) (ls' : List Text) :
    writeLines sep (ls ++ ls') = sep ++ join ['\n'] ls ++ writeLines ['\n'] ls' := by
  have happend : ∀ (ls : List Text) (sep : Text), writeLines ['\n'] (ls ++ ls') =
      writeLines ['\n'] ls ++ writeLines ['\n'] ls' := by
    intro ls sep
    induction ls with
    | nil => rfl
    | cons l ls ih => rw [List.cons_append, writeLines, writeLines, ih]; simp
  cases ls with
  | nil => exact absurd rfl hne
  | cons l ls =>
      rw [join_eq_writeLines, List.cons_append, writeLines, writeLines, happend ls sep]
      simp

/-- Lines that are joined first may stand for themselves among others. -/
theorem join_append_join {ls : List Text} (hne : ls ≠ []) (front back : List Text) :
    join ['\n'] (front ++ (ls ++ back)) = join ['\n'] (front ++ join ['\n'] ls :: back) := by
  have hwrite : ∀ sep, writeLines sep (front ++ (ls ++ back)) =
      writeLines sep (front ++ join ['\n'] ls :: back) := by
    induction front with
    | nil =>
        intro sep
        rw [List.nil_append, writeLines_append hne]
        rfl
    | cons l front ih =>
        intro sep
        rw [List.cons_append, writeLines, ih]
        rfl
  rw [join_eq_writeLines, join_eq_writeLines, hwrite]

/-! ## Tokens between tags -/

/-- A text that is not a bracket that opens no tag. -/
def Token.plain? : Token → Option Text
  | .text content => if content = ['<'] then none else some content
  | _ => none

theorem Token.plain?_eq_some_iff : k.plain? = some content ↔ k = .text content ∧ content ≠ ['<'] := by
  cases k with
  | text c =>
      rw [Token.plain?, Option.ite_none_left_eq_some]
      constructor
      · rintro ⟨hne, heq⟩
        cases heq
        exact ⟨rfl, hne⟩
      · rintro ⟨heq, hne⟩
        cases heq
        exact ⟨hne, rfl⟩
  | _ => simp [Token.plain?]

def textOf (t : Text) : List Token := if t = [] then [] else [.text t]

namespace Style

def relaidToken (s : Style) (depth : Nat) : Token → Token
  | .rawText name attributes content => .rawText name attributes (s.relaidContent depth content)
  | k => k

/-- The tokens of tokens laid out, after the text `gap`, where `sep` comes before the next line. -/
def relaid (s : Style) (n : Nesting) (sep gap : Text) : List Token → List Token
  | [] => textOf gap
  | k :: ks =>
    match n.inlined? (k :: ks) with
    | some t =>
      textOf (gap ++ sep ++ s.indentation n.depth) ++ [k, .text t] ++ (ks.drop 1).take 1 ++
        relaid s n ['\n'] [] (ks.drop 2)
    | none =>
      match k.plain? with
      | some content =>
        let t := writtenText (keepsBreaks n.openNames) content
        if t = [] then relaid s n sep gap ks
        else relaid s n ['\n'] (gap ++ sep ++ s.indentation n.depth ++ t) ks
      | none =>
        textOf (gap ++ sep ++ s.indentation (n.lineDepth k)) ++
          s.relaidToken n.depth k :: relaid s (n.after k) ['\n'] [] ks
termination_by ks => ks.length

end Style

theorem relaid_nil : s.relaid n sep gap [] = textOf gap := by
  rw [Style.relaid]

theorem relaid_inline (h : n.inlined? (.startTag name attributes false :: .text content ::
    .endTag name :: ks) = some t) :
    s.relaid n sep gap (.startTag name attributes false :: .text content :: .endTag name :: ks) =
      textOf (gap ++ sep ++ s.indentation n.depth) ++
        .startTag name attributes false :: .text t :: .endTag name :: s.relaid n ['\n'] [] ks := by
  rw [Style.relaid, h]
  simp

theorem relaid_text (hc : content ≠ ['<']) :
    s.relaid n sep gap (.text content :: ks) =
      if writtenText (keepsBreaks n.openNames) content = [] then s.relaid n sep gap ks
      else s.relaid n ['\n'] (gap ++ sep ++ s.indentation n.depth ++
        writtenText (keepsBreaks n.openNames) content) ks := by
  rw [Style.relaid, show n.inlined? (.text content :: ks) = none from rfl,
    Token.plain?_eq_some_iff.2 ⟨rfl, hc⟩]

theorem relaid_cons (h : n.inlined? (k :: ks) = none) (hk : k.plain? = none) :
    s.relaid n sep gap (k :: ks) = textOf (gap ++ sep ++ s.indentation (n.lineDepth k)) ++
      s.relaidToken n.depth k :: s.relaid (n.after k) ['\n'] [] ks := by
  rw [Style.relaid, h, hk]

/-! ## Relaid tokens make up the layout -/

theorem writeAll_append (ks ks' : List Token) :
    writeAll (ks ++ ks') = writeAll ks ++ writeAll ks' := List.flatMap_append

theorem writeAll_cons (k : Token) (ks : List Token) : writeAll (k :: ks) = k.written ++ writeAll ks :=
  List.flatMap_cons

theorem writeAll_textOf (t : Text) : writeAll (textOf t) = t := by
  unfold textOf
  split
  · rename_i h
    rw [h]
    rfl
  · exact List.append_nil t

theorem token_text (s : Style) (n : Nesting) (content : Text) : (s.token n (.text content)).1 =
    if writtenText (keepsBreaks n.openNames) content = [] then []
    else [s.line n.depth (writtenText (keepsBreaks n.openNames) content)] := by
  rw [Style.token]
  simp only [List.isEmpty_iff]

/-- A token that is no plain text takes the line or lines it is laid out on. -/
theorem join_token (hk : k.plain? = none) : (s.token n k).1 ≠ [] ∧
    join ['\n'] (s.token n k).1 =
      s.indentation (n.lineDepth k) ++ (s.relaidToken n.depth k).written := by
  cases k with
  | text content =>
      obtain rfl : content = ['<'] := by
        by_contra hne
        rw [Token.plain?, if_neg hne] at hk
        cases hk
      rw [Style.token, writtenText_bracket]
      exact ⟨by simp, rfl⟩
  | rawText name attributes content =>
      have hjoin : join ['\n'] (s.rawTextLines n.depth name attributes content) = _ :=
        join_rawTextLines
      refine ⟨fun hnil => ?_, hjoin⟩
      rw [Style.token] at hnil
      rw [show s.rawTextLines n.depth name attributes content = [] from hnil] at hjoin
      simp [join, openTag, closeTag] at hjoin
  | _ => exact ⟨by simp [Style.token], rfl⟩

theorem writeAll_relaid (s : Style) (n : Nesting) (sep gap : Text) (ks : List Token) :
    writeAll (s.relaid n sep gap ks) = gap ++ writeLines sep (s.lines n ks) := by
  induction n, ks using lines_induction generalizing sep gap with
  | nil n => rw [relaid_nil, lines_nil, writeAll_textOf, writeLines, List.append_nil]
  | inline n name attributes content ks t h ih =>
      rw [relaid_inline h, lines_inline h, writeAll_append, writeAll_textOf, writeAll_cons,
        writeAll_cons, writeAll_cons, ih, writeLines]
      simp [Token.written, Style.line]
  | cons n k ks h ih =>
      cases hk : k.plain? with
      | some content =>
          obtain ⟨rfl, hc⟩ := Token.plain?_eq_some_iff.1 hk
          rw [relaid_text hc, lines_cons h, token_text]
          split
          · exact ih sep gap
          · rw [show writeAll (s.relaid n _ _ ks) = _ from ih ['\n'] _, List.singleton_append,
              writeLines, Style.line]
            simp
      | none =>
          obtain ⟨hne, hjoin⟩ := join_token (s := s) (n := n) hk
          rw [relaid_cons h hk, lines_cons h, writeAll_append, writeAll_textOf, writeAll_cons, ih,
            writeLines_append hne, hjoin]
          simp

/-! ## Relaid tokens are read as they are written -/

theorem Token.Sound.bracket_not_mem (h : (Token.text content).Sound) (hc : content ≠ ['<']) :
    '<' ∉ content := (h.resolve_left hc).2

theorem mem_textOf (h : k ∈ textOf t) : k = .text t := by
  unfold textOf at h
  split at h
  · cases h
  · exact List.mem_singleton.1 h

theorem Token.Sound.writtenText {keep : Bool} (h : (Token.text content).Sound) :
    Markup.writtenText keep content = ['<'] ∨ '<' ∉ Markup.writtenText keep content := by
  rcases h with rfl | ⟨-, hopen⟩
  · exact .inl (writtenText_bracket keep)
  · exact .inr (not_mem_writtenText hopen)

/-- What a token of the layout is: a text without a tag in it, or a token that was laid out. -/
inductive Style.Relays (s : Style) (ks : List Token) : Token → Prop
  | text {t : Text} (h : t = ['<'] ∨ '<' ∉ t) : Relays s ks (.text t)
  | token (depth : Nat) {k : Token} (h : k ∈ ks) : Relays s ks (s.relaidToken depth k)

theorem Style.Relays.mono {ks' : List Token} (h : s.Relays ks k) (hks : ks ⊆ ks') :
    s.Relays ks' k := by
  cases h with
  | text h => exact .text h
  | token depth h => exact .token depth (hks h)

theorem relays_of_mem_textOf (ht : '<' ∉ t) (hk : k ∈ textOf t) : s.Relays ks k :=
  mem_textOf hk ▸ .text (.inr ht)

theorem Style.PlainIndent.lead_not_mem {depth : Nat} (hs : s.PlainIndent) (hsep : '<' ∉ sep)
    (hgap : '<' ∉ gap) : '<' ∉ gap ++ sep ++ s.indentation depth := by
  simp only [List.mem_append, not_or]
  exact ⟨⟨hgap, hsep⟩, hs.not_mem (by decide) (by decide)⟩

theorem relays_of_mem_relaid (hs : s.PlainIndent) (hks : ∀ k ∈ ks, k.Sound) (hsep : '<' ∉ sep)
    (hgap : '<' ∉ gap) : ∀ k ∈ s.relaid n sep gap ks, s.Relays ks k := by
  have hbreak : '<' ∉ ['\n'] := by decide
  have hnil : '<' ∉ ([] : Text) := by simp
  induction n, ks using lines_induction generalizing sep gap with
  | nil n =>
      rw [relaid_nil]
      exact fun k => relays_of_mem_textOf hgap
  | inline n name attributes content ks t h ih =>
      obtain ⟨_, _, _, _, heq, ht, -⟩ := inlined?_eq_some h
      cases heq
      simp only [List.forall_mem_cons] at hks
      rw [relaid_inline h, List.forall_mem_append, List.forall_mem_cons, List.forall_mem_cons,
        List.forall_mem_cons]
      refine ⟨fun k => relays_of_mem_textOf (hs.lead_not_mem hsep hgap),
        .token 0 (k := .startTag name attributes false) (by simp),
        .text (ht ▸ hks.2.1.writtenText), .token 0 (k := .endTag name) (by simp), fun k hk => ?_⟩
      exact (ih hks.2.2.2 hbreak hnil k hk).mono fun l hl => by simp [hl]
  | cons n l ks h ih =>
      obtain ⟨hl, hrest⟩ := List.forall_mem_cons.1 hks
      have htail : ks ⊆ l :: ks := List.subset_cons_self l ks
      cases hplain : l.plain? with
      | some content =>
          obtain ⟨rfl, hc⟩ := Token.plain?_eq_some_iff.1 hplain
          rw [relaid_text hc]
          split
          · exact fun k hk => (ih hrest hsep hgap k hk).mono htail
          · refine fun k hk => (ih hrest hbreak ?_ k hk).mono htail
            rw [List.mem_append, not_or]
            exact ⟨hs.lead_not_mem hsep hgap, not_mem_writtenText (hl.bracket_not_mem hc)⟩
      | none =>
          rw [relaid_cons h hplain, List.forall_mem_append, List.forall_mem_cons]
          exact ⟨fun k => relays_of_mem_textOf (hs.lead_not_mem hsep hgap),
            .token _ List.mem_cons_self, fun k hk => (ih hrest hbreak hnil k hk).mono htail⟩

theorem hasClosing_relaidToken {depth : Nat} (hn : ∀ c ∈ name, isNameChar c = true)
    (hs : s.PlainIndent) :
    HasClosing name (s.relaidToken depth k).written ↔ HasClosing name k.written := by
  cases k with
  | rawText tag attributes content =>
      rw [Style.relaidToken, Token.written, Token.written, hasClosing_append_closeTag_iff hn,
        hasClosing_append_closeTag_iff hn, hasClosing_openTag_append_iff hn,
        hasClosing_openTag_append_iff hn, hasClosing_relaidContent hn hs]
  | _ => rfl

theorem not_hasClosing_of_mem_relaid (hn : ∀ c ∈ name, isNameChar c = true) (hs : s.PlainIndent)
    (hks : ∀ k ∈ ks, k.Sound) (hsep : '<' ∉ sep) (hgap : '<' ∉ gap)
    (hclose : ∀ k ∈ ks, ¬ HasClosing name k.written) :
    ∀ k ∈ s.relaid n sep gap ks, ¬ HasClosing name k.written := by
  intro k hk
  cases relays_of_mem_relaid hs hks hsep hgap k hk with
  | text ht =>
      rcases ht with rfl | ht
      · exact not_hasClosing_of_not_mem_close hn (by decide)
      · exact not_hasClosing_of_not_mem hn ht
  | token depth hl =>
      rw [hasClosing_relaidToken hn hs]
      exact hclose _ hl

theorem Token.Sound.relaidToken {depth : Nat} (hs : s.PlainIndent) (h : k.Sound) :
    (s.relaidToken depth k).Sound := by
  cases k with
  | rawText name attributes content =>
      obtain ⟨hname, hattributes, hraw, hclose⟩ := h
      exact ⟨hname, hattributes, hraw, by rwa [hasClosing_relaidContent hname.all hs]⟩
  | _ => exact h

theorem plain?_relaidToken {depth : Nat} : (s.relaidToken depth k).plain? = k.plain? := by
  cases k <;> rfl

theorem endsInSlash_relaidToken {depth : Nat} :
    (s.relaidToken depth k).endsInSlash = k.endsInSlash := by
  cases k <;> rfl

/-- All that is no plain text starts with a bracket. -/
theorem Token.Sound.head?_written (h : k.Sound) (hk : k.plain? = none) :
    k.written.head? = some '<' := by
  cases k with
  | startTag name attributes selfClosing => rw [Token.written, openTag_eq_opening]; rfl
  | endTag name => rfl
  | text content =>
      rcases h with rfl | ⟨-, hopen⟩
      · rfl
      · rw [Token.plain?, if_neg (by rintro rfl; simp at hopen)] at hk
        cases hk
  | comment content =>
      obtain ⟨body, rfl, -⟩ := h
      rfl
  | doctype content =>
      obtain ⟨body, rfl, -⟩ := h
      rfl
  | rawText name attributes content =>
      rw [Token.written, openTag_eq_opening]
      rfl

theorem head?_writeAll_cons (h : k.Sound) (hk : k.plain? = none) (ks : List Token) :
    (writeAll (k :: ks)).head? = some '<' := by
  rw [writeAll_cons, List.head?_append, h.head?_written hk]
  rfl

theorem readable_textOf_append (ht : '<' ∉ t) (h : Readable ks)
    (hhead : ∀ c ∈ (writeAll ks).head?, c = '<') : Readable (textOf t ++ ks) := by
  unfold textOf
  split
  · exact h
  · rename_i hne
    exact ⟨.inr ⟨hne, ht⟩, rfl, Token.precedes_text hhead, h⟩

/-- What follows a relaid token leaves it as it is. -/
theorem precedes_relaid {depth : Nat} (hs : s.PlainIndent) (hk : k.plain? = none)
    (h : WellFormed (k :: ks)) (hread : Readable (s.relaid n ['\n'] [] ks)) :
    (s.relaidToken depth k).Precedes (writeAll (s.relaid n ['\n'] [] ks)) := by
  obtain ⟨-, hunclosed, hraw, hks⟩ := h
  refine ⟨fun hu => ?_, fun name ho => ?_, ?_⟩
  · have hnil : ks = [] := hunclosed (by
      cases k with
      | rawText => exact hu.elim
      | _ => exact hu)
    rw [hnil, relaid_nil]
    rfl
  · have hname := (isLowerName_of_isRawText ho.1).all
    have hopens : k.OpensRaw name := by
      cases k with
      | rawText =>
          obtain ⟨-, _, heq⟩ := ho
          cases heq
      | _ => exact ho
    exact not_hasClosing_writeAll hname hread
      (not_hasClosing_of_mem_relaid hname hs hks.sound (by decide) (by simp) (hraw name hopens))
  · rintro content heq c hc
    -- Only a bracket that opens no tag is left, and a line break follows it.
    obtain rfl : content = ['<'] := by
      cases k with
      | text =>
          cases heq
          by_contra hne
          rw [Token.plain?, if_neg hne] at hk
          cases hk
      | _ => cases heq
    refine .inr ⟨rfl, ?_⟩
    rw [writeAll_relaid, List.nil_append] at hc
    cases hlines : s.lines n ks with
    | nil =>
        rw [hlines] at hc
        cases hc
    | cons l ls =>
        rw [hlines] at hc
        cases hc
        decide

theorem readable_relaid (hs : s.PlainIndent) (hks : WellFormed ks)
    (hslash : ∀ k ∈ ks, k.endsInSlash = false) (hsep : '<' ∉ sep) (hgap : '<' ∉ gap) :
    Readable (s.relaid n sep gap ks) := by
  have hbreak : '<' ∉ ['\n'] := by decide
  have hnil : '<' ∉ ([] : Text) := by simp
  induction n, ks using lines_induction generalizing sep gap with
  | nil n =>
      rw [relaid_nil, ← List.append_nil (textOf gap)]
      exact readable_textOf_append hgap trivial (by simp [writeAll])
  | inline n name attributes content ks t h ih =>
      obtain ⟨_, _, _, _, heq, ht, hne, -⟩ := inlined?_eq_some h
      cases heq
      obtain ⟨hstart, -, hraw, htext, -, -, hend, -, -, hks⟩ := hks
      simp only [List.forall_mem_cons] at hslash
      have hrest := ih hks hslash.2.2.2 hbreak hnil
      rw [relaid_inline h]
      refine readable_textOf_append (hs.lead_not_mem hsep hgap) ?_
        (by rw [head?_writeAll_cons hstart rfl]; simp)
      refine ⟨hstart, hslash.1, ⟨False.elim, fun m ho => ?_, by simp⟩, ?_⟩
      · -- The closing tag follows, so the content of the element is not raw text.
        obtain ⟨hm, _, heq⟩ := ho
        cases heq
        exact absurd ⟨_, isClosing_closeTag hend.1, List.infix_rfl⟩
          (hraw name ⟨hm, attributes, rfl⟩ (.endTag name) (by simp))
      · have hsound : (Token.text t).Sound :=
          ht ▸ htext.writtenText.imp_right fun hopen => ⟨ht ▸ hne, hopen⟩
        have hhead : ∀ c ∈ (writeAll (.endTag name :: s.relaid n ['\n'] [] ks)).head?, c = '<' := by
          rw [head?_writeAll_cons hend rfl]
          simp
        exact ⟨hsound, rfl, Token.precedes_text hhead, hend, rfl, Token.precedes_endTag .., hrest⟩
  | cons n k ks h ih =>
      have htail := hks.2.2.2
      obtain ⟨hk, hrest⟩ := List.forall_mem_cons.1 hslash
      cases hplain : k.plain? with
      | some content =>
          obtain ⟨rfl, hc⟩ := Token.plain?_eq_some_iff.1 hplain
          rw [relaid_text hc]
          split
          · exact ih htail hrest hsep hgap
          · refine ih htail hrest hbreak ?_
            rw [List.mem_append, not_or]
            exact ⟨hs.lead_not_mem hsep hgap, not_mem_writtenText (hks.1.bracket_not_mem hc)⟩
      | none =>
          have hsound : (s.relaidToken n.depth k).Sound := hks.1.relaidToken hs
          have hread := ih htail hrest hbreak hnil
          rw [relaid_cons h hplain]
          refine readable_textOf_append (hs.lead_not_mem hsep hgap) ?_ ?_
          · exact ⟨hsound, by rwa [endsInSlash_relaidToken], precedes_relaid hs hplain hks hread,
              hread⟩
          · rw [head?_writeAll_cons hsound (plain?_relaidToken.trans hplain)]
            simp

end CodeReference.Markup
