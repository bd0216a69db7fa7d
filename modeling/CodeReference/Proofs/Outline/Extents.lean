import Mathlib
import CodeReference.Proofs.Outline.Stack

/-!
Where blocks end, said without the scan: a block lasts until the line before the first later
significant line that is not indented more than its header. From this, two blocks never overlap in
part.
-/
namespace CodeReference.Outline

/-- Whether a line ends the blocks of an indentation. -/
def endsBlock (tabWidth indent : Int) (line : Text) : Bool :=
  isSignificant (Text.trim line) && indentOf tabWidth line ≤ indent

/-- The last line of a block of an indentation, if the lines from `next` on follow its header: the
one before the first of them that ends it, or else the last line of the text. -/
def lastLine (tabWidth : Int) (ls : List Text) (indent : Int) (next : Nat) : Int :=
  match (ls.drop next).findIdx? (endsBlock tabWidth indent) with
  | some k => next + k - 1
  | none => ls.length - 1

def Block.unlabelled (b : Block) : Block := { b with label := [] }

/-- The block that a line opens, without its label, if the line is significant and a header. -/
def opened? (tabWidth : Int) (ls : List Text) (entry : Text × Nat) : Option Block :=
  let (line, number) := entry
  if isSignificant (Text.trim line) then
    (header? (Text.trim line)).map fun (kind, name) =>
      let indent := indentOf tabWidth line
      { kind := kind, name := name, label := [], indent := indent, start := number,
        stop := lastLine tabWidth ls indent (number + 1) }
  else none

variable {tabWidth : Int} {ls : List Text}

/-! ## The last line of a block -/

theorem lastLine_of_length_le {indent : Int} {next : Nat} (h : ls.length ≤ next) :
    lastLine tabWidth ls indent next = ls.length - 1 := by
  simp [lastLine, List.drop_eq_nil_of_le h]

theorem lastLine_of_ends {indent : Int} {next : Nat} {line : Text} (h : ls[next]? = some line)
    (he : endsBlock tabWidth indent line = true) :
    lastLine tabWidth ls indent next = next - 1 := by
  obtain ⟨hlt, rfl⟩ := List.getElem?_eq_some_iff.1 h
  rw [lastLine, List.drop_eq_getElem_cons hlt, List.findIdx?_cons, he]
  simp

theorem lastLine_of_not_ends {indent : Int} {next : Nat} {line : Text} (h : ls[next]? = some line)
    (he : endsBlock tabWidth indent line = false) :
    lastLine tabWidth ls indent next = lastLine tabWidth ls indent (next + 1) := by
  obtain ⟨hlt, rfl⟩ := List.getElem?_eq_some_iff.1 h
  simp only [lastLine, List.drop_eq_getElem_cons hlt, List.findIdx?_cons, he]
  cases (ls.drop (next + 1)).findIdx? (endsBlock tabWidth indent) with
  | none => rfl
  | some k =>
      simp only [Bool.false_eq_true, if_false, Option.map_some]
      omega

theorem le_lastLine (tabWidth indent : Int) {next : Nat} (h : next ≤ ls.length) :
    (next : Int) - 1 ≤ lastLine tabWidth ls indent next := by
  unfold lastLine
  split <;> omega

theorem lastLine_le {indent : Int} {next : Nat} :
    lastLine tabWidth ls indent next ≤ ls.length - 1 := by
  unfold lastLine
  split
  · rename_i k hk
    have := (List.findIdx?_eq_some_iff_getElem.1 hk).1
    rw [List.length_drop] at this
    omega
  · exact le_refl _

/-- What is indented more ends earlier. -/
theorem lastLine_anti {indent indent' : Int} (hi : indent ≤ indent') (next : Nat) :
    lastLine tabWidth ls indent' next ≤ lastLine tabWidth ls indent next := by
  rcases Nat.lt_or_ge next ls.length with hlt | hge
  · have hline := List.getElem?_eq_getElem hlt
    cases he : endsBlock tabWidth indent ls[next] with
    | true =>
        have he' : endsBlock tabWidth indent' ls[next] = true := by
          simp only [endsBlock, Bool.and_eq_true, decide_eq_true_eq] at he ⊢
          exact ⟨he.1, he.2.trans hi⟩
        rw [lastLine_of_ends hline he, lastLine_of_ends hline he']
    | false =>
        rw [lastLine_of_not_ends hline he]
        cases he' : endsBlock tabWidth indent' ls[next] with
        | true =>
            have := le_lastLine tabWidth indent (Nat.succ_le_of_lt hlt)
            rw [lastLine_of_ends hline he']
            rw [Nat.succ_eq_add_one] at this
            omega
        | false =>
            rw [lastLine_of_not_ends hline he']
            exact lastLine_anti hi (next + 1)
  · rw [lastLine_of_length_le hge, lastLine_of_length_le hge]
termination_by ls.length - next

/-- A later significant line either comes after a block or is indented more than its header. -/
theorem lt_or_indent_lt (tabWidth indent : Int) {next number : Nat} {line : Text} (hn : next ≤ number)
    (hl : ls[number]? = some line) (hs : isSignificant (Text.trim line) = true) :
    lastLine tabWidth ls indent next < number ∨
      indent < indentOf tabWidth line ∧
        lastLine tabWidth ls indent next = lastLine tabWidth ls indent (number + 1) := by
  have hlt : next < ls.length := hn.trans_lt (List.getElem?_eq_some_iff.1 hl).1
  have hline := List.getElem?_eq_getElem hlt
  cases he : endsBlock tabWidth indent ls[next] with
  | true =>
      left
      rw [lastLine_of_ends hline he]
      omega
  | false =>
      rw [lastLine_of_not_ends hline he]
      rcases Nat.lt_or_eq_of_le hn with hn | rfl
      · exact lt_or_indent_lt tabWidth indent hn hl hs
      · rw [hline, Option.some.injEq] at hl
        rw [hl, endsBlock, hs, Bool.true_and, decide_eq_false_iff_not] at he
        exact .inr ⟨Int.lt_of_not_ge he, rfl⟩
termination_by number - next

/-! ## The scan -/

/-- The block that a draft becomes if the lines from `next` on are still to be read. -/
def Draft.finishFrom (tabWidth : Int) (ls : List Text) (next : Nat) (d : Draft) : Block :=
  (d.finish (lastLine tabWidth ls d.indent next)).unlabelled

theorem Draft.finishFrom_closeAt {number : Nat} {line : Text} (hl : ls[number]? = some line)
    (hs : isSignificant (Text.trim line) = true) (d : Draft) :
    (d.closeAt number (indentOf tabWidth line)).finishFrom tabWidth ls (number + 1) =
      d.finishFrom tabWidth ls number := by
  obtain ⟨kind, name, label, indent, start, stop?⟩ := d
  cases stop? with
  | some stop => rfl
  | none =>
      simp only [Draft.closeAt, Draft.isOpen, Option.isNone_none, true_and]
      split
      · rename_i hi
        have he : endsBlock tabWidth indent line = true := by simp [endsBlock, hs, hi]
        simp [Draft.finishFrom, Draft.finish, lastLine_of_ends hl he]
      · rename_i hi
        have he : endsBlock tabWidth indent line = false := by simp [endsBlock, hi]
        simp [Draft.finishFrom, lastLine_of_not_ends hl he]

theorem Draft.finishFrom_succ {number : Nat} {line : Text} (hl : ls[number]? = some line)
    (hs : isSignificant (Text.trim line) = false) (d : Draft) :
    d.finishFrom tabWidth ls (number + 1) = d.finishFrom tabWidth ls number := by
  have he : endsBlock tabWidth d.indent line = false := by simp [endsBlock, hs]
  rw [Draft.finishFrom, Draft.finishFrom, lastLine_of_not_ends hl he]

/-- The lines from `number` on end the drafts where the rule says, and open a block each that is a
header. The stack discipline carries the induction. -/
theorem foldl_scanLine (tabWidth : Int) {rest : List Text} {number : Nat} {drafts : List Draft}
    (hr : ls.drop number = rest) (h : Stacked drafts) :
    ((rest.zipIdx number).foldl (scanLine tabWidth) drafts).reverse.map
        (fun d => (d.finish (ls.length - 1)).unlabelled) =
      drafts.reverse.map (Draft.finishFrom tabWidth ls number) ++
        (rest.zipIdx number).filterMap (opened? tabWidth ls) := by
  induction rest generalizing number drafts with
  | nil =>
      have hlast : ∀ d : Draft, (d.finish (ls.length - 1)).unlabelled = d.finishFrom tabWidth ls number :=
        fun d => by
          rw [Draft.finishFrom, lastLine_of_length_le (List.drop_eq_nil_iff.1 hr)]
      simp [hlast]
  | cons line rest ih =>
      have hl : ls[number]? = some line := by rw [← List.head?_drop, hr, List.head?_cons]
      have hr' : ls.drop (number + 1) = rest := by rw [← List.tail_drop, hr, List.tail_cons]
      rw [List.zipIdx_cons, List.foldl_cons, ih hr' (h.scanLine _), List.filterMap_cons]
      cases hs : isSignificant (Text.trim line) with
      | false =>
          rw [scanLine_of_not_significant number hs]
          simp [opened?, hs, Draft.finishFrom_succ hl hs]
      | true =>
          have hold : (drafts.map (Draft.closeAt number (indentOf tabWidth line))).reverse.map
              (Draft.finishFrom tabWidth ls (number + 1)) =
              drafts.reverse.map (Draft.finishFrom tabWidth ls number) := by
            simp [← List.map_reverse, Function.comp_def, Draft.finishFrom_closeAt hl hs]
          rw [scanLine_of_significant tabWidth number h hs, List.reverse_append, List.map_append,
            hold, List.append_assoc]
          cases hh : header? (Text.trim line) with
          | none => simp [opened?, hs, hh]
          | some found =>
              simp [opened?, hs, hh, Draft.finishFrom, Draft.finish, Block.unlabelled]

theorem unlabelled_blocks (tabWidth : Int) (t : Text) :
    (blocks tabWidth t).map Block.unlabelled =
      (lines t).zipIdx.filterMap (opened? tabWidth (lines t)) := by
  have h := foldl_scanLine tabWidth (List.drop_zero (l := lines t)) List.Pairwise.nil
  rw [blocks, List.map_map]
  exact h

/-! ## Order and nesting -/

/-- Of two blocks the second starts behind the first, or it lies inside the first, starts later and
is indented more. -/
def Laminar (b c : Block) : Prop :=
  b.stop < c.start ∨ b.start < c.start ∧ c.stop ≤ b.stop ∧ b.indent < c.indent

theorem opened?_eq_some {line : Text} {number : Nat} {b : Block}
    (h : opened? tabWidth ls (line, number) = some b) :
    isSignificant (Text.trim line) = true ∧ b.indent = indentOf tabWidth line ∧
      b.start = number ∧ b.stop = lastLine tabWidth ls b.indent (number + 1) := by
  rw [opened?, Option.ite_none_right_eq_some, Option.map_eq_some_iff] at h
  obtain ⟨hs, found, -, rfl⟩ := h
  exact ⟨hs, rfl, rfl, rfl⟩

theorem laminar_of_opened? {m n : Nat} (hmn : m < n) {line line' : Text} {b c : Block}
    (hn : ls[n]? = some line') (hb : opened? tabWidth ls (line, m) = some b)
    (hc : opened? tabWidth ls (line', n) = some c) : Laminar b c := by
  obtain ⟨-, -, hbStart, hbStop⟩ := opened?_eq_some hb
  obtain ⟨hs, hcIndent, hcStart, hcStop⟩ := opened?_eq_some hc
  rcases lt_or_indent_lt tabWidth b.indent hmn hn hs with h | ⟨hi, heq⟩
  · left
    rw [hbStop, hcStart]
    exact h
  · right
    rw [← hcIndent] at hi
    refine ⟨by omega, ?_, hi⟩
    rw [hbStop, hcStop]
    exact (lastLine_anti hi.le (n + 1)).trans heq.ge

theorem pairwise_opened? (tabWidth : Int) (ls : List Text) : (ls.zipIdx.filterMap (opened? tabWidth ls)).Pairwise
    fun b c => b.start < c.start ∧ Laminar b c := by
  rw [List.pairwise_filterMap, List.pairwise_iff_getElem]
  intro m n hm hn hmn b hb c hc
  rw [List.getElem_zipIdx, Nat.zero_add] at hb hc
  rw [List.length_zipIdx] at hn
  obtain ⟨-, -, hbStart, -⟩ := opened?_eq_some hb
  obtain ⟨-, -, hcStart, -⟩ := opened?_eq_some hc
  exact ⟨by omega, laminar_of_opened? hmn (List.getElem?_eq_getElem hn) hb hc⟩

theorem bounds_of_mem_opened? {b : Block} (h : b ∈ ls.zipIdx.filterMap (opened? tabWidth ls)) :
    b.start ≤ b.stop ∧ b.stop ≤ ls.length - 1 := by
  obtain ⟨⟨line, number⟩, hmem, hb⟩ := List.mem_filterMap.1 h
  obtain ⟨-, -, hStart, hStop⟩ := opened?_eq_some hb
  have hlt : number < ls.length := (List.mem_zipIdx' hmem).1
  have hle := le_lastLine tabWidth b.indent (Nat.succ_le_of_lt hlt)
  rw [hStart, hStop]
  refine ⟨?_, lastLine_le⟩
  rw [Nat.succ_eq_add_one] at hle
  omega

/-- The blocks of a text are those that its header lines open, one each and in order; each ends
where the rule says, and no two overlap in part. -/
theorem blocks_extents (tabWidth : Int) (t : Text) :
    (blocks tabWidth t).map Block.unlabelled =
        (lines t).zipIdx.filterMap (opened? tabWidth (lines t)) ∧
      (blocks tabWidth t).Pairwise (fun b c => b.start < c.start) ∧
      (∀ b ∈ blocks tabWidth t, b.start ≤ b.stop ∧ b.stop ≤ (lines t).length - 1) ∧
      (blocks tabWidth t).Pairwise Laminar := by
  have heq := unlabelled_blocks tabWidth t
  have hpair := heq ▸ pairwise_opened? tabWidth (lines t)
  rw [List.pairwise_map] at hpair
  refine ⟨heq, hpair.imp And.left, fun b hb => ?_, hpair.imp And.right⟩
  have hmem : b.unlabelled ∈ (blocks tabWidth t).map Block.unlabelled := List.mem_map_of_mem hb
  rw [heq] at hmem
  have hbounds := bounds_of_mem_opened? hmem
  exact hbounds

end CodeReference.Outline
