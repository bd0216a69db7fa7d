import Mathlib
import CodeReference.Proofs.Coordinates
import CodeReference.Proofs.Outline.Enclosing
import CodeReference.Proofs.Text.Trim

/-!
Lines that are not significant do not matter for an outline. If one more such line is put between
the lines of a text, the scan goes through the same drafts as before, only with the lines behind the
new one numbered anew.
-/
namespace CodeReference.Outline

variable {tabWidth : Int} {ls front back : List Text} {z : Text}

/-! ## Joined lines -/

theorem indentOf_concat_return (tabWidth : Int) (l : Text) :
    indentOf tabWidth (l ++ ['\r']) = indentOf tabWidth l := by
  induction l with
  | nil => simp [indentOf]
  | cons c l ih => simp only [List.cons_append, indentOf, ih]

/-- A carriage return at the end of a line changes nothing that is read from it. -/
theorem scanLine_dropReturn (tabWidth : Int) (drafts : List Draft) (l : Text) (number : Nat) :
    scanLine tabWidth drafts (Text.dropReturn l, number) =
      scanLine tabWidth drafts (l, number) := by
  have h := Text.dropReturn_append l
  generalize Text.dropReturn l = m at h
  rcases h with rfl | rfl
  · rfl
  · have htrim : Text.trim (m ++ ['\r']) = Text.trim m :=
      Text.trim_append_right (Text.blanks_nil.cons (by decide))
    simp only [scanLine, htrim, indentOf_concat_return]

theorem foldl_scanLine_dropReturns (tabWidth : Int) (ls : List Text) (number : Nat)
    (drafts : List Draft) :
    ((lines.dropReturns ls).zipIdx number).foldl (scanLine tabWidth) drafts =
      (ls.zipIdx number).foldl (scanLine tabWidth) drafts := by
  fun_induction lines.dropReturns ls generalizing number drafts with
  | case1 => rfl
  | case2 last => rfl
  | case3 l r hr ih =>
      rw [List.zipIdx_cons, List.zipIdx_cons, List.foldl_cons, List.foldl_cons, ih,
        ← Text.dropReturn, scanLine_dropReturn]

/-- The blocks of joined lines are those of a scan of the lines themselves. -/
theorem blocks_join (hne : ls ≠ []) (h : ∀ l ∈ ls, '\n' ∉ l) (tabWidth : Int) :
    blocks tabWidth (Text.join ['\n'] ls) =
      (ls.zipIdx.foldl (scanLine tabWidth) []).reverse.map (Draft.finish (ls.length - 1)) := by
  rw [blocks, lines, Text.splitOn_join hne h, length_dropReturns, foldl_scanLine_dropReturns]

/-! ## Lines numbered anew -/

/-- The number that a line gets when a new line takes the number `k`. -/
def renumber (k line : Nat) : Nat := if k ≤ line then line + 1 else line

/-- A draft with its lines numbered anew. It ends before some line, which may be the new one. -/
def Draft.renumber (k : Nat) (d : Draft) : Draft :=
  { d with
    start := Outline.renumber k d.start
    stop? := d.stop?.map fun stop : Int => if k ≤ stop + 1 then stop + 1 else stop }

/-- A block that starts one line later if the new line is not behind its header, and ends one line
later if the new line is not behind the line after its last. -/
def Block.renumber (k : Nat) (b : Block) : Block :=
  { b with
    start := if k ≤ b.start then b.start + 1 else b.start
    stop := if k ≤ b.stop + 1 then b.stop + 1 else b.stop }

@[simp] theorem Draft.isOpen_renumber (k : Nat) (d : Draft) : (d.renumber k).isOpen = d.isOpen := by
  simp [Draft.isOpen, Draft.renumber]

@[simp] theorem Draft.indent_renumber (k : Nat) (d : Draft) :
    (d.renumber k).indent = d.indent := rfl

@[simp] theorem Draft.kind_renumber (k : Nat) (d : Draft) : (d.renumber k).kind = d.kind := rfl

theorem Draft.finish_renumber {k : Nat} {lastLine : Int} (h : k ≤ lastLine + 1) (d : Draft) :
    (d.renumber k).finish (lastLine + 1) = (d.finish lastLine).renumber k := by
  obtain ⟨kind, name, label, indent, start, stop?⟩ := d
  have hstart : ((Outline.renumber k start : Nat) : Int) =
      if (k : Int) ≤ start then (start : Int) + 1 else start := by
    unfold Outline.renumber
    split <;> split <;> omega
  cases stop? with
  | none => simp [Draft.finish, Draft.renumber, Block.renumber, hstart, h]
  | some stop =>
      rw [Draft.finish, Draft.renumber, hstart]
      rfl

theorem closeBefore_renumber (k number : Nat) (indent : Int) (drafts : List Draft) :
    closeBefore (renumber k number) indent (drafts.map (Draft.renumber k)) =
      (closeBefore number indent drafts).map (Draft.renumber k) := by
  have hstop : ((renumber k number : Nat) : Int) - 1 =
      if (k : Int) ≤ (number : Int) - 1 + 1 then (number : Int) - 1 + 1
      else (number : Int) - 1 := by
    unfold renumber
    split <;> split <;> omega
  induction drafts with
  | nil => rfl
  | cons d ds ih =>
      rw [List.map_cons, closeBefore, closeBefore, ih, Draft.isOpen_renumber,
        Draft.indent_renumber]
      split
      · split
        · rw [List.map_cons, hstop]
          rfl
        · rfl
      · rfl

theorem owner?_renumber (k : Nat) (drafts : List Draft) :
    owner? (drafts.map (Draft.renumber k)) = (owner? drafts).map (Draft.renumber k) := by
  rw [owner?, List.find?_map, owner?]
  congr 2
  funext d
  simp

/-- A line under its new number does to the drafts what it did under its old one. -/
theorem scanLine_renumber (tabWidth : Int) (k : Nat) (drafts : List Draft) (line : Text)
    (number : Nat) :
    scanLine tabWidth (drafts.map (Draft.renumber k)) (line, renumber k number) =
      (scanLine tabWidth drafts (line, number)).map (Draft.renumber k) := by
  have hname : ∀ d : Draft, (d.renumber k).name = d.name := fun _ => rfl
  simp only [scanLine, closeBefore_renumber, owner?_renumber, qualify_map hname]
  split
  · rfl
  · split <;> rfl

theorem foldl_scanLine_renumber (tabWidth : Int) (k : Nat) (entries : List (Text × Nat))
    (drafts : List Draft) :
    (entries.map (Prod.map id (renumber k))).foldl (scanLine tabWidth)
        (drafts.map (Draft.renumber k)) =
      (entries.foldl (scanLine tabWidth) drafts).map (Draft.renumber k) := by
  induction entries generalizing drafts with
  | nil => rfl
  | cons entry entries ih =>
      rw [List.map_cons, List.foldl_cons, List.foldl_cons, ← ih, ← scanLine_renumber]
      rfl

/-! ## A new line -/

theorem zipIdx_renumber_before (ls : List Text) {k number : Nat} (h : number + ls.length ≤ k) :
    (ls.zipIdx number).map (Prod.map id (renumber k)) = ls.zipIdx number := by
  refine (List.map_congr_left fun entry hmem => ?_).trans (List.map_id _)
  have hlt := List.snd_lt_add_of_mem_zipIdx hmem
  exact Prod.ext rfl (if_neg (by omega))

theorem zipIdx_renumber_behind (ls : List Text) {k number : Nat} (h : k ≤ number) :
    (ls.zipIdx number).map (Prod.map id (renumber k)) = ls.zipIdx (number + 1) := by
  rw [Nat.add_comm, ← List.map_snd_add_zipIdx_eq_zipIdx]
  refine List.map_congr_left fun entry hmem => ?_
  have hle := List.le_snd_of_mem_zipIdx hmem
  exact Prod.ext rfl (if_pos (by omega))

/-- A new line that is not significant only numbers the lines behind it anew. -/
theorem foldl_scanLine_insert (tabWidth : Int) (front back : List Text)
    (hz : isSignificant (Text.trim z) = false) :
    (front ++ z :: back).zipIdx.foldl (scanLine tabWidth) [] =
      ((front ++ back).zipIdx.foldl (scanLine tabWidth) []).map (Draft.renumber front.length) := by
  have hfront := zipIdx_renumber_before front (Nat.zero_add front.length).le
  have hback := zipIdx_renumber_behind back (le_refl front.length)
  rw [← foldl_scanLine_renumber, List.zipIdx_append, List.zipIdx_append, List.map_append,
    List.foldl_append, List.foldl_append, List.zipIdx_cons, List.foldl_cons,
    scanLine_of_not_significant _ hz, Nat.zero_add, hfront, hback]
  rfl

theorem insertIdx_length_append (front back : List Text) (z : Text) :
    (front ++ back).insertIdx front.length z = front ++ z :: back := by
  induction front with
  | nil => rfl
  | cons l front ih =>
      rw [List.cons_append, List.length_cons, List.insertIdx_succ_cons, ih, List.cons_append]

theorem not_isSignificant (h : Text.Blanks z ∨ ∃ r, Text.trim z = '#' :: r) :
    isSignificant (Text.trim z) = false := by
  rcases h with h | ⟨r, h⟩
  · rw [Text.trim_of_blanks h]
    rfl
  · rw [h]
    rfl

/-- A new line that is blank or a comment, wherever it is put between the lines of a text, changes
no block but for the numbers of its lines. -/
theorem blocks_insertIdx (tabWidth : Int) (ls : List Text) (hne : ls ≠ [])
    (hls : ∀ l ∈ ls, '\n' ∉ l) (z : Text) (hfeed : '\n' ∉ z)
    (hz : Text.Blanks z ∨ ∃ r, Text.trim z = '#' :: r) (k : Nat) (hk : k ≤ ls.length) :
    blocks tabWidth (Text.join ['\n'] (ls.insertIdx k z)) =
      (blocks tabWidth (Text.join ['\n'] ls)).map (Block.renumber k) := by
  obtain ⟨front, back, rfl, rfl⟩ : ∃ front back, ls = front ++ back ∧ front.length = k :=
    ⟨_, _, (List.take_append_drop k ls).symm, List.length_take_of_le hk⟩
  have hall : ∀ l ∈ front ++ z :: back, '\n' ∉ l := by
    intro l hl
    rcases List.mem_append.1 hl with hl | hl
    · exact hls l (List.mem_append_left back hl)
    · rcases List.mem_cons.1 hl with rfl | hl
      · exact hfeed
      · exact hls l (List.mem_append_right front hl)
  have hlast : ((front ++ z :: back).length : Int) - 1 = (front ++ back).length - 1 + 1 := by
    simp only [List.length_append, List.length_cons]
    omega
  have hle : (front.length : Int) ≤ (front ++ back).length - 1 + 1 := by
    rw [List.length_append]
    omega
  rw [insertIdx_length_append, blocks_join (by simp) hall, blocks_join hne hls,
    foldl_scanLine_insert tabWidth front back (not_isSignificant hz), ← List.map_reverse,
    List.map_map, List.map_map, hlast]
  exact List.map_congr_left fun d _ => Draft.finish_renumber hle d

def sampleMethod : List Text :=
  ["class A:", "\tdef f(self):", "\t\tpass", "x = 1"].map (·.toList)

/-- A comment right behind both blocks becomes their last line, although it is not indented. -/
theorem blocks_insertIdx_sampleMethod :
    blocks 4 (Text.join ['\n'] (sampleMethod.insertIdx 3 "# x".toList)) =
      [⟨.classBlock, ['A'], ['A'], 0, 0, 3⟩, ⟨.defBlock, ['f'], "A.f".toList, 4, 1, 3⟩] := by
  have hcomment : Text.Blanks "# x".toList ∨ ∃ r, Text.trim "# x".toList = '#' :: r :=
    .inr ⟨" x".toList, by decide⟩
  have h := blocks_insertIdx 4 sampleMethod (by decide) (by decide) "# x".toList (by decide)
    hcomment 3 (by decide)
  exact h.trans (by decide +kernel)

end CodeReference.Outline
