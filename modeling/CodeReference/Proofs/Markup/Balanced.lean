import Mathlib
import CodeReference.Proofs.Markup.Lines

/-!
Balanced markup is laid out part by part. A layout goes through its tokens step by step, and each
step keeps the depth equal to the number of open elements. Through a balanced list it goes in the
same way whatever follows, and it leaves the list with the nesting it came with.
-/
namespace CodeReference.Markup

/-! ## Steps of a layout -/

/-- One step of a layout, with the lines it writes: an element on one line, or one token. -/
inductive Style.Step (s : Style) : Nesting → List Token → List Text → Nesting → List Token → Prop
  | inline {n : Nesting} {name attributes content t : Text} {ks : List Token}
      (h : n.inlined? (.startTag name attributes false :: .text content :: .endTag name :: ks) =
        some t) :
      Step s n (.startTag name attributes false :: .text content :: .endTag name :: ks)
        [s.line n.depth (openTag name attributes false ++ t ++ closeTag name)] n ks
  | token {n : Nesting} {k : Token} {ks : List Token} (h : n.inlined? (k :: ks) = none) :
      Step s n (k :: ks) (s.token n k).1 (n.after k) ks

/-- Some steps of a layout, with all lines they write. -/
inductive Style.Run (s : Style) : Nesting → List Token → List Text → Nesting → List Token → Prop
  | refl (n : Nesting) (ks : List Token) : Run s n ks [] n ks
  | step {n n' n'' : Nesting} {ks ks' ks'' : List Token} {ls ls' : List Text}
      (h : s.Step n ks ls n' ks') (hs : Run s n' ks' ls' n'' ks'') :
      Run s n ks (ls ++ ls') n'' ks''

/-- Whether a token neither opens nor closes an element. -/
def Token.isFlat : Token → Bool
  | .startTag _ _ selfClosing => selfClosing
  | .endTag _ => false
  | _ => true

/-- Lists in which every element that is opened is closed under its name. -/
inductive Balanced : List Token → Prop
  | nil : Balanced []
  | flat {k : Token} (h : k.isFlat = true) : Balanced [k]
  | element (name attributes : Text) {ks : List Token} (h : Balanced ks) :
      Balanced (.startTag name attributes false :: (ks ++ [.endTag name]))
  | append {ks ls : List Token} (h : Balanced ks) (h' : Balanced ls) : Balanced (ks ++ ls)

variable {s : Style} {n n' n'' : Nesting} {k : Token} {ks ks' ks'' : List Token}
  {ls ls' : List Text} {name attributes content t : Text}

namespace Style

theorem Step.layout_eq (h : s.Step n ks ls n' ks') :
    s.layout n ks = (ls ++ (s.layout n' ks').1, (s.layout n' ks').2) := by
  cases h with
  | inline h => exact layout_inline h
  | token h => exact layout_cons h

theorem Run.layout_eq (h : s.Run n ks ls n' ks') :
    s.layout n ks = (ls ++ (s.layout n' ks').1, (s.layout n' ks').2) := by
  induction h with
  | refl n ks => rfl
  | step h _ ih => rw [h.layout_eq, ih, List.append_assoc]

theorem Run.single (h : s.Step n ks ls n' ks') : s.Run n ks ls n' ks' := by
  have := Run.step h (.refl n' ks')
  rwa [List.append_nil] at this

theorem Run.append (h : s.Run n ks ls n' ks') (h' : s.Run n' ks' ls' n'' ks'') :
    s.Run n ks (ls ++ ls') n'' ks'' := by
  induction h with
  | refl => exact h'
  | step h _ ih =>
      rw [List.append_assoc]
      exact .step h (ih h')

/-- A layout runs to the end of its tokens. -/
theorem run_layout (s : Style) (n : Nesting) (ks : List Token) :
    s.Run n ks (s.layout n ks).1 (s.layout n ks).2 [] := by
  induction n, ks using lines_induction with
  | nil n =>
      rw [layout]
      exact .refl n []
  | inline n name attributes content ks t h ih =>
      rw [layout_inline h]
      exact .step (.inline h) ih
  | cons n k ks h ih =>
      rw [layout_cons h]
      exact .step (.token h) ih

end Style

/-! ## Depth -/

namespace Nesting

/-- Whether the depth is the number of open elements. -/
def Level (n : Nesting) : Prop := n.depth = n.openNames.length

theorem Level.after (h : n.Level) (k : Token) : (n.after k).Level := by
  cases k with
  | startTag name attributes selfClosing =>
      cases selfClosing with
      | true => exact h
      | false => exact congrArg Nat.succ h
  | endTag name =>
      show n.depth - 1 = n.openNames.tail.length
      rw [List.length_tail, h]
  | _ => exact h

end Nesting

theorem Style.Step.level (h : s.Step n ks ls n' ks') (hn : n.Level) : n'.Level := by
  cases h with
  | inline => exact hn
  | token => exact hn.after _

theorem Style.Run.level (h : s.Run n ks ls n' ks') (hn : n.Level) : n'.Level := by
  induction h with
  | refl => exact hn
  | step h _ ih => exact ih (h.level hn)

/-! ## Balanced lists -/

theorem Balanced.head?_ne_endTag (h : Balanced ks) (name : Text) :
    ks.head? ≠ some (.endTag name) := by
  induction h with
  | nil => simp
  | flat h =>
      rw [List.head?_cons]
      rintro ⟨⟩
      cases h
  | element => simp
  | append _ _ ih ih' =>
      rename_i ks ks' _ _
      cases ks with
      | nil => exact ih'
      | cons k ks => exact ih

theorem Balanced.tail_of_isFlat (h : Balanced (k :: ks)) (hk : k.isFlat = true) : Balanced ks := by
  generalize hl : k :: ks = l at h
  induction h generalizing ks with
  | nil => cases hl
  | flat => cases hl; exact .nil
  | element => cases hl; cases hk
  | append h h' ih ih' =>
      rcases List.cons_eq_append_iff.1 hl with ⟨rfl, rfl⟩ | ⟨front, rfl, rfl⟩
      · exact ih' rfl
      · exact (ih rfl).append h'

/-- Whether an element is laid out on one line with what is in it: one text that is written as one
line. -/
def Nesting.Inlines (n : Nesting) (name : Text) (ks : List Token) (t : Text) : Prop :=
  ∃ content, ks = [.text content] ∧
    t = writtenText (keepsBreaks (name :: n.openNames)) content ∧ t ≠ [] ∧ '\n' ∉ t

/-- Whether an element stays on one line depends on what is in it, and not on what follows it. -/
theorem Balanced.inlined?_element_iff (h : Balanced ks) (rest : List Token) :
    n.inlined? (.startTag name attributes false :: (ks ++ .endTag name :: rest)) = some t ↔
      n.Inlines name ks t := by
  constructor
  · intro hinline
    obtain ⟨content, ks', heq, ht⟩ := inlineText?_eq_some hinline
    cases ks with
    | nil => cases heq
    | cons k ks =>
        obtain ⟨rfl, htail⟩ := List.cons.inj heq
        cases ks with
        | nil => exact ⟨content, rfl, ht⟩
        | cons l ks =>
            -- A balanced list does not go on with a closing tag after its first text.
            obtain ⟨rfl, -⟩ := List.cons.inj htail
            exact absurd rfl ((h.tail_of_isFlat rfl).head?_ne_endTag name)
  · rintro ⟨content, rfl, rfl, hne, hbreak⟩
    rw [List.singleton_append, Nesting.inlined?, Style.inlineText?, if_pos]
    exact ⟨rfl, by simpa using hne, by simpa using hbreak⟩

theorem Token.isFlat.after_eq (h : k.isFlat = true) (n : Nesting) : n.after k = n := by
  cases k with
  | startTag name attributes selfClosing => exact if_pos h
  | endTag name => cases h
  | _ => rfl

theorem Token.isFlat.inlined?_eq (h : k.isFlat = true) (n : Nesting) (ks : List Token) :
    n.inlined? (k :: ks) = none := by
  cases k with
  | startTag name attributes selfClosing =>
      obtain rfl : selfClosing = true := h
      rfl
  | endTag name => cases h
  | _ => rfl

/-- An element runs like what is in it, one level deeper. -/
theorem Style.Run.element
    (hinline : n.inlined? (.startTag name attributes false :: (ks ++ .endTag name :: ks')) = none)
    (h : s.Run (n.enter name) (ks ++ .endTag name :: ks') ls (n.enter name) (.endTag name :: ks')) :
    s.Run n (.startTag name attributes false :: (ks ++ .endTag name :: ks'))
      (s.line n.depth (openTag name attributes false) :: (ls ++ [s.line n.depth (closeTag name)]))
      n ks' :=
  .step (.token hinline) (h.append (.single (.token rfl)))

/-- A balanced list runs the same way whatever follows, and the nesting after it is the one before
it. -/
theorem Balanced.exists_run (h : Balanced ks) (s : Style) (n : Nesting) :
    ∃ ls, ∀ rest, s.Run n (ks ++ rest) ls n rest := by
  induction h generalizing n with
  | nil => exact ⟨[], fun rest => .refl n rest⟩
  | flat h =>
      rename_i k
      refine ⟨(s.token n k).1, fun rest => ?_⟩
      have hstep : s.Step n (k :: rest) (s.token n k).1 (n.after k) rest :=
        .token (Token.isFlat.inlined?_eq h n rest)
      rw [Token.isFlat.after_eq h] at hstep
      exact .single hstep
  | element name attributes h ih =>
      rename_i ks
      by_cases hinline : ∃ t, n.Inlines name ks t
      · obtain ⟨t, ht⟩ := hinline
        obtain ⟨content, rfl, -⟩ := id ht
        exact ⟨_, fun rest => .single (.inline ((h.inlined?_element_iff rest).2 ht))⟩
      · obtain ⟨ls, hls⟩ := ih (n.enter name)
        refine ⟨s.line n.depth (openTag name attributes false) ::
          (ls ++ [s.line n.depth (closeTag name)]), fun rest => ?_⟩
        have hnone : n.inlined? (.startTag name attributes false :: (ks ++ .endTag name :: rest)) =
            none := Option.eq_none_iff_forall_ne_some.2 fun t ht =>
          hinline ⟨t, (h.inlined?_element_iff rest).1 ht⟩
        rw [List.cons_append, List.append_assoc]
        exact .element hnone (hls _)
  | append _ _ ih ih' =>
      obtain ⟨ls, hls⟩ := ih n
      obtain ⟨ls', hls'⟩ := ih' n
      refine ⟨ls ++ ls', fun rest => ?_⟩
      rw [List.append_assoc]
      exact (hls _).append (hls' rest)

theorem Balanced.layout_run (h : Balanced ks) (s : Style) (n : Nesting) :
    (∀ rest, s.Run n (ks ++ rest) (s.layout n ks).1 n rest) ∧ (s.layout n ks).2 = n := by
  obtain ⟨ls, hls⟩ := h.exists_run s n
  have hrun : s.Run n ks ls n [] := by simpa using hls []
  have hlayout : s.layout n ks = (ls, n) := by
    rw [hrun.layout_eq, Style.layout, List.append_nil]
  rw [hlayout]
  exact ⟨hls, rfl⟩

theorem Balanced.layout_append (h : Balanced ks) (s : Style) (n : Nesting) (ks' : List Token) :
    s.layout n (ks ++ ks') = ((s.layout n ks).1 ++ (s.layout n ks').1, (s.layout n ks').2) :=
  ((h.layout_run s n).1 ks').layout_eq

theorem Balanced.layout_element (h : Balanced ks) (s : Style) (attributes : Text)
    (hinline : ¬ ∃ t, n.Inlines name ks t) :
    s.layout n (.startTag name attributes false :: (ks ++ [.endTag name])) =
      (s.line n.depth (openTag name attributes false) ::
        ((s.layout (n.enter name) ks).1 ++ [s.line n.depth (closeTag name)]), n) := by
  have hnone : n.inlined? (.startTag name attributes false :: (ks ++ [.endTag name])) = none :=
    Option.eq_none_iff_forall_ne_some.2 fun t ht => hinline ⟨t, (h.inlined?_element_iff []).1 ht⟩
  rw [(Style.Run.element hnone ((h.layout_run s (n.enter name)).1 _)).layout_eq, Style.layout,
    List.append_nil]

/-- Balanced lists are laid out one after the other, each as if nothing followed, and keep the
nesting. An element that does not go on one line is its tags around what is in it, one level deeper.
In a layout of any tokens the depth is the number of open elements after each step. -/
theorem layout_of_balanced (s : Style) :
    (∀ ks, Balanced ks → ∀ n,
        (s.layout n ks).2 = n ∧ ∀ rest, s.Run n (ks ++ rest) (s.layout n ks).1 n rest) ∧
      (∀ ks ks', Balanced ks → Balanced ks' → ∀ n,
        (s.layout n (ks ++ ks')).1 = (s.layout n ks).1 ++ (s.layout n ks').1) ∧
      (∀ ks, Balanced ks → ∀ (n : Nesting) (name attributes : Text),
        (¬ ∃ t, n.Inlines name ks t) →
          (s.layout n (.startTag name attributes false :: (ks ++ [.endTag name]))).1 =
            [s.line n.depth (openTag name attributes false)] ++ (s.layout (n.enter name) ks).1 ++
              [s.line n.depth (closeTag name)]) ∧
      ∀ ks, s.Run {} ks (s.layout {} ks).1 (s.layout {} ks).2 [] ∧
        ∀ ls n rest, s.Run {} ks ls n rest → n.depth = n.openNames.length := by
  refine ⟨fun ks h n => (h.layout_run s n).symm, fun ks ks' h _ n => ?_,
    fun ks h n name attributes hinline => ?_,
    fun ks => ⟨s.run_layout {} ks, fun ls n rest hrun => hrun.level rfl⟩⟩
  · rw [h.layout_append]
  · rw [h.layout_element s attributes hinline]
    rfl

/-- A list in a list, and a text with a line break. -/
theorem layout_of_balanced_sampleList :
    (Style.layout ⟨['\t'], 60⟩ {} ([.startTag "ul".toList [] false, .startTag "li".toList [] false,
        .text ['a'], .endTag "li".toList, .endTag "ul".toList] ++
        [.startTag "pre".toList [] false, .text "b\nc".toList, .endTag "pre".toList])).1 =
      ["<ul>", "\t<li>a</li>", "</ul>", "<pre>", "\tb\nc", "</pre>"].map (·.toList) :=
  have hlist : Balanced [.startTag "ul".toList [] false, .startTag "li".toList [] false,
      .text ['a'], .endTag "li".toList, .endTag "ul".toList] :=
    .element "ul".toList [] (.element "li".toList [] (.flat rfl))
  have htext : Balanced [.startTag "pre".toList [] false, .text "b\nc".toList,
      .endTag "pre".toList] := .element "pre".toList [] (.flat rfl)
  ((layout_of_balanced ⟨['\t'], 60⟩).2.1 _ _ hlist htext {}).trans (by decide +kernel)

end CodeReference.Markup
