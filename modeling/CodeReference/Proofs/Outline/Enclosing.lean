import Mathlib
import CodeReference.Proofs.Lists
import CodeReference.Proofs.Outline.Extents

/-!
Blocks around a line. The narrowest block around a line is the one that starts last, and the class
that a function is labelled with is the one found around its header afterwards: the open drafts in
the middle of the scan are the blocks that reach the current line in the end.
-/
namespace CodeReference.Outline

variable {tabWidth : Int}

/-! ## Looking up a block -/

theorem Laminar.width_lt {b c : Block} {line : Int} (h : Laminar b c)
    (hb : b.contains line = true) (hc : c.contains line = true) : c.width < b.width := by
  simp only [Block.contains, Bool.and_eq_true, decide_eq_true_eq] at hb hc
  simp only [Block.width]
  rcases h with h | ⟨hstart, hstop, -⟩
  · omega
  · omega

theorem Block.contains_of_lt {b : Block} {line : Int} (h : line < b.start) :
    b.contains line = false := by
  rw [Block.contains, decide_eq_false (not_le.2 h), Bool.false_and]

/-- The blocks of a kind around a line, in the order of their headers. -/
def around (bs : List Block) (line : Int) (kind : BlockKind) : List Block :=
  bs.filter fun b => b.kind = kind ∧ b.contains line = true

theorem around_concat (bs : List Block) (b : Block) (line : Int) (kind : BlockKind) :
    around (bs ++ [b]) line kind = around bs line kind ++
      if b.kind = kind ∧ b.contains line = true then [b] else [] := by
  simp only [around, List.filter_append, List.filter_singleton, decide_eq_true_eq,
    Bool.cond_eq_ite]

theorem mem_around {bs : List Block} {line : Int} {kind : BlockKind} {b : Block} :
    b ∈ around bs line kind ↔ b ∈ bs ∧ b.kind = kind ∧ b.contains line = true := by
  simp [around]

theorem enclosing?_concat (bs : List Block) (b : Block) (line : Int) (kind : BlockKind) :
    enclosing? (bs ++ [b]) line kind =
      if b.kind = kind ∧ b.contains line = true then
        match enclosing? bs line kind with
        | some c => if b.width < c.width then some b else some c
        | none => some b
      else enclosing? bs line kind := by
  rw [enclosing?, List.foldl_append, List.foldl_cons, List.foldl_nil, ← enclosing?]
  cases enclosing? bs line kind <;> rfl

/-- Of blocks around one line each is narrower than those before it, so the last one is found. -/
theorem enclosing?_eq_getLast? {bs : List Block} (h : bs.Pairwise Laminar) (line : Int)
    (kind : BlockKind) : enclosing? bs line kind = (around bs line kind).getLast? := by
  induction bs using List.reverseRecOn with
  | nil => rfl
  | append_singleton bs b ih =>
      obtain ⟨hbs, -, hb⟩ := List.pairwise_append.1 h
      rw [enclosing?_concat, ih hbs, around_concat]
      by_cases hmem : b.kind = kind ∧ b.contains line = true
      · rw [if_pos hmem, if_pos hmem, List.getLast?_concat]
        cases hc : (around bs line kind).getLast? with
        | none => rfl
        | some c =>
            -- Both contain the line, so the later one lies inside the other.
            obtain ⟨hcMem, -, hcLine⟩ := mem_around.1 (List.mem_of_getLast? hc)
            exact if_pos ((hb c hcMem b List.mem_cons_self).width_lt hcLine hmem.2)
      · rw [if_neg hmem, if_neg hmem, List.append_nil]

section
variable {bs : List Block} {line : Int} {kind : BlockKind} {b : Block}

theorem enclosing?_eq_some_iff (h : bs.Pairwise fun b c => b.start < c.start ∧ Laminar b c) :
    enclosing? bs line kind = some b ↔ b ∈ bs ∧ b.kind = kind ∧ b.contains line = true ∧
      ∀ c ∈ bs, c.kind = kind → c.contains line = true → c.start ≤ b.start := by
  have hstart : (around bs line kind).Pairwise fun b c => b.start < c.start :=
    (h.imp And.left).filter _
  rw [enclosing?_eq_getLast? (h.imp And.right), getLast?_eq_some_iff_of_pairwise hstart, mem_around]
  simp only [mem_around, and_imp, and_assoc]

theorem enclosing?_eq_none_iff (h : bs.Pairwise Laminar) :
    enclosing? bs line kind = none ↔ ∀ b ∈ bs, b.kind = kind → b.contains line = false := by
  rw [enclosing?_eq_getLast? h, List.getLast?_eq_none_iff, List.eq_nil_iff_forall_not_mem]
  simp only [mem_around, not_and, Bool.not_eq_true]

end

/-! ## Drafts that reach a line -/

/-- Whether a draft is still open or ended at a line or behind it. -/
def Draft.reaches (line : Int) (d : Draft) : Bool := d.stop?.all fun stop => line ≤ stop

/-- The innermost class among drafts that reach a line; the drafts are given newest first. -/
def classReaching? (line : Int) (drafts : List Draft) : Option Draft :=
  drafts.find? fun c => c.reaches line && c.kind == .classBlock

/-- Every function is labelled with the innermost class, among the drafts older than it, that
reaches its header; the drafts are given newest first. -/
def Labelled : List Draft → Prop
  | [] => True
  | d :: older =>
      (d.kind = .defBlock → d.label = qualify (classReaching? d.start older) d.name) ∧
        Labelled older

/-- What a scan keeps while the lines from `next` on are still to be read. -/
structure Scanned (next : Nat) (drafts : List Draft) : Prop where
  stacked : Stacked drafts
  started : ∀ d ∈ drafts, d.start < next
  ended : ∀ d ∈ drafts, ∀ stop ∈ d.stop?, stop < next
  labelled : Labelled drafts

theorem Draft.reaches_closeAt {line number : Nat} (h : line < number) (indent : Int) (d : Draft) :
    (d.closeAt number indent).reaches line = d.reaches line := by
  unfold Draft.closeAt
  split
  · rename_i hopen
    have hstop : d.stop? = none := by simpa [Draft.isOpen] using hopen.1
    -- The draft ends right before `number`, which is not before `line`.
    have hle : (line : Int) ≤ number - 1 := by omega
    simp [Draft.reaches, hstop, hle]
  · rfl

theorem qualify_map {change : Draft → Draft} (h : ∀ c, (change c).name = c.name)
    (owner? : Option Draft) (name : Text) : qualify (owner?.map change) name = qualify owner? name := by
  cases owner? with
  | none => rfl
  | some c => simp [qualify, h]

theorem classReaching?_map_closeAt {line number : Nat} (h : line < number) (indent : Int)
    (drafts : List Draft) :
    classReaching? line (drafts.map (Draft.closeAt number indent)) =
      (classReaching? line drafts).map (Draft.closeAt number indent) := by
  rw [classReaching?, List.find?_map]
  congr 2
  funext c
  simp [Draft.reaches_closeAt h]

/-- Ending drafts does not change what reached the headers above them. -/
theorem Labelled.map_closeAt {number : Nat} (indent : Int) {drafts : List Draft}
    (h : Labelled drafts) (hstart : ∀ d ∈ drafts, d.start < number) :
    Labelled (drafts.map (Draft.closeAt number indent)) := by
  induction drafts with
  | nil => trivial
  | cons d older ih =>
      obtain ⟨hd, holder⟩ := List.forall_mem_cons.1 hstart
      refine ⟨fun hkind => ?_, ih h.2 holder⟩
      rw [Draft.closeAt_kind] at hkind
      rw [Draft.closeAt_label, Draft.closeAt_start, Draft.closeAt_name,
        classReaching?_map_closeAt hd, qualify_map (Draft.closeAt_name number indent)]
      exact h.1 hkind

/-- The open drafts are those that reach the line that is read. -/
theorem owner?_eq_classReaching? {number : Nat} {drafts : List Draft}
    (h : ∀ d ∈ drafts, ∀ stop ∈ d.stop?, stop < number) :
    owner? drafts = classReaching? number drafts := by
  induction drafts with
  | nil => rfl
  | cons d drafts ih =>
      obtain ⟨hd, hdrafts⟩ := List.forall_mem_cons.1 h
      have hopen : d.isOpen = d.reaches number := by
        cases hstop : d.stop? with
        | none => simp [Draft.isOpen, Draft.reaches, hstop]
        | some stop =>
            have hlt := hd stop hstop
            simp [Draft.isOpen, Draft.reaches, hstop, hlt]
      rw [owner?, classReaching?, List.find?_cons, List.find?_cons, hopen, ← owner?,
        ← classReaching?, ih hdrafts]

theorem Scanned.map_closeAt {number : Nat} {drafts : List Draft} (h : Scanned number drafts)
    (indent : Int) : Scanned number (drafts.map (Draft.closeAt number indent)) := by
  refine ⟨h.stacked.map_closeAt number indent, ?_, ?_, h.labelled.map_closeAt indent h.started⟩
  · intro e he
    obtain ⟨d, hd, rfl⟩ := List.mem_map.1 he
    rw [Draft.closeAt_start]
    exact h.started d hd
  · intro e he stop hstop
    obtain ⟨d, hd, rfl⟩ := List.mem_map.1 he
    unfold Draft.closeAt at hstop
    split at hstop
    · rw [Option.mem_some_iff] at hstop
      omega
    · exact h.ended d hd stop hstop

theorem Scanned.next {number : Nat} {drafts : List Draft} (h : Scanned number drafts) :
    Scanned (number + 1) drafts := by
  refine ⟨h.stacked, fun d hd => (h.started d hd).trans (Nat.lt_succ_self number), ?_, h.labelled⟩
  intro d hd stop hstop
  have := h.ended d hd stop hstop
  omega

/-- One more line keeps what a scan keeps. -/
theorem Scanned.scanLine {number : Nat} {drafts : List Draft} (h : Scanned number drafts)
    (tabWidth : Int) (line : Text) :
    Scanned (number + 1) (scanLine tabWidth drafts (line, number)) := by
  cases hs : isSignificant (Text.trim line) with
  | false =>
      rw [scanLine_of_not_significant number hs]
      exact h.next
  | true =>
      have hstacked : Stacked (Outline.scanLine tabWidth drafts (line, number)) :=
        h.stacked.scanLine (line, number)
      have hclosed := h.map_closeAt (indentOf tabWidth line)
      rw [scanLine_of_significant tabWidth number h.stacked hs] at hstacked ⊢
      cases hh : header? (Text.trim line) with
      | none => exact hclosed.next
      | some found =>
          obtain ⟨kind, name⟩ := found
          rw [hh] at hstacked
          refine ⟨hstacked, ?_, ?_, ?_, hclosed.labelled⟩
          · exact List.forall_mem_cons.2 ⟨Nat.lt_succ_self number, hclosed.next.started⟩
          · exact List.forall_mem_cons.2 ⟨by simp, hclosed.next.ended⟩
          · rintro rfl
            exact congrArg (qualify · name) (owner?_eq_classReaching? hclosed.ended)

theorem Scanned.foldl {number : Nat} {drafts : List Draft} (h : Scanned number drafts)
    (tabWidth : Int) (rest : List Text) : Scanned (number + rest.length)
      ((rest.zipIdx number).foldl (Outline.scanLine tabWidth) drafts) := by
  induction rest generalizing number drafts with
  | nil => exact h
  | cons line rest ih =>
      rw [List.zipIdx_cons, List.foldl_cons, List.length_cons, Nat.add_comm rest.length,
        ← Nat.add_assoc]
      exact ih (h.scanLine tabWidth line)

/-! ## The blocks of a text -/

/-- The drafts that are left when all lines of a text are read, newest first. -/
def draftsOf (tabWidth : Int) (t : Text) : List Draft :=
  (lines t).zipIdx.foldl (scanLine tabWidth) []

theorem scanned_draftsOf (tabWidth : Int) (t : Text) :
    Scanned (lines t).length (draftsOf tabWidth t) := by
  have hnil : Scanned 0 [] := ⟨List.Pairwise.nil, by simp, by simp, trivial⟩
  have h := hnil.foldl tabWidth (lines t)
  rwa [Nat.zero_add] at h

theorem blocks_eq (tabWidth : Int) (t : Text) : blocks tabWidth t =
    ((draftsOf tabWidth t).map (Draft.finish ((lines t).length - 1))).reverse := by
  rw [← List.map_reverse]
  rfl

theorem pairwise_blocks (tabWidth : Int) (t : Text) :
    (blocks tabWidth t).Pairwise fun b c => b.start < c.start ∧ Laminar b c := by
  have h := pairwise_opened? tabWidth (lines t)
  rw [← unlabelled_blocks, List.pairwise_map] at h
  exact h

theorem Draft.contains_finish {d : Draft} {line lastLine : Int} (hstart : d.start ≤ line)
    (hlast : line ≤ lastLine) : (d.finish lastLine).contains line = d.reaches line := by
  cases hstop : d.stop? with
  | none => simp [Block.contains, Draft.finish, Draft.reaches, hstop, hstart, hlast]
  | some stop => simp [Block.contains, Draft.finish, Draft.reaches, hstop, hstart]

theorem enclosing?_reverse {bs : List Block} (h : bs.reverse.Pairwise Laminar) (line : Int)
    (kind : BlockKind) :
    enclosing? bs.reverse line kind = bs.find? fun b => b.kind = kind ∧ b.contains line = true := by
  rw [enclosing?_eq_getLast? h, around, List.filter_reverse, List.getLast?_reverse,
    List.head?_filter]

/-- Among finished drafts the class around the header of a function is the innermost class that
reaches it: what is newer starts behind the header. -/
theorem enclosing?_finish {newer older : List Draft} {d : Draft} {lastLine : Int}
    (h : ((newer ++ d :: older).map (Draft.finish lastLine)).reverse.Pairwise
      fun b c => b.start < c.start ∧ Laminar b c)
    (hkind : d.kind = .defBlock) (hlast : d.start ≤ lastLine) :
    enclosing? ((newer ++ d :: older).map (Draft.finish lastLine)).reverse d.start .classBlock =
      (classReaching? d.start older).map (Draft.finish lastLine) := by
  have hstart := List.pairwise_map.1 (List.pairwise_reverse.1 h)
  obtain ⟨-, hd, hnewer⟩ := List.pairwise_append.1 hstart
  have hnew : newer.find? ((fun b : Block => decide
      (b.kind = .classBlock ∧ b.contains d.start = true)) ∘ Draft.finish lastLine) = none := by
    rw [List.find?_eq_none]
    intro c hc
    have hlt : (d.start : Int) < c.start := (hnewer c hc d List.mem_cons_self).1
    simp [Block.contains_of_lt (b := c.finish lastLine) hlt]
  have hself : (d.finish lastLine).kind ≠ .classBlock := by simp [Draft.finish, hkind]
  have hold : older.find? ((fun b : Block => decide
      (b.kind = .classBlock ∧ b.contains d.start = true)) ∘ Draft.finish lastLine) =
      classReaching? d.start older := by
    rw [classReaching?, ← List.head?_filter, ← List.head?_filter]
    refine congrArg List.head? (List.filter_congr fun c hc => ?_)
    have hlt : (c.start : Int) < d.start := ((List.pairwise_cons.1 hd).1 c hc).1
    rw [Function.comp_apply, Draft.contains_finish hlt.le hlast, Bool.eq_iff_iff,
      decide_eq_true_iff, Bool.and_eq_true, beq_iff_eq]
    exact and_comm
  rw [enclosing?_reverse (h.imp And.right), List.find?_map, List.find?_append, hnew,
    List.find?_cons_of_neg (by simp [hself]), hold, Option.none_or]

theorem Labelled.label_eq {drafts newer older : List Draft} {d : Draft} (h : Labelled drafts)
    (heq : drafts = newer ++ d :: older) (hkind : d.kind = .defBlock) :
    d.label = qualify (classReaching? d.start older) d.name := by
  induction newer generalizing drafts with
  | nil => subst heq; exact h.1 hkind
  | cons e newer ih => subst heq; exact ih h.2 rfl

theorem label_of_mem_blocks {t : Text} {b : Block} (hb : b ∈ blocks tabWidth t)
    (hkind : b.kind = .defBlock) :
    b.label = match enclosing? (blocks tabWidth t) b.start .classBlock with
      | some c => c.name ++ ['.'] ++ b.name
      | none => b.name := by
  have hscanned := scanned_draftsOf tabWidth t
  have hpair := pairwise_blocks tabWidth t
  rw [blocks_eq] at hb hpair ⊢
  obtain ⟨d, hd, rfl⟩ := List.mem_map.1 (List.mem_reverse.1 hb)
  have hlast : (d.start : Int) ≤ (lines t).length - 1 := by
    have := hscanned.started d hd
    omega
  obtain ⟨newer, older, heq⟩ := List.append_of_mem hd
  have hlabel := hscanned.labelled.label_eq heq hkind
  rw [heq] at hpair ⊢
  have hfound := enclosing?_finish hpair hkind hlast
  rw [show (d.finish ((lines t).length - 1)).start = d.start from rfl, hfound]
  cases hclass : classReaching? d.start older with
  | none => rw [hclass] at hlabel; exact hlabel
  | some c => rw [hclass] at hlabel; exact hlabel

/-- The class in the label of a function is the class found around its header. The block found
around a line is the one of its kind that starts last among those around the line, and no two
blocks around a line are equally wide. -/
theorem enclosing_blocks (tabWidth : Int) (t : Text) :
    (∀ b ∈ blocks tabWidth t, b.kind = .defBlock →
        b.label = match enclosing? (blocks tabWidth t) b.start .classBlock with
          | some c => c.name ++ ['.'] ++ b.name
          | none => b.name) ∧
      (∀ line kind b, enclosing? (blocks tabWidth t) line kind = some b ↔
        b ∈ blocks tabWidth t ∧ b.kind = kind ∧ b.contains line = true ∧
          ∀ c ∈ blocks tabWidth t, c.kind = kind → c.contains line = true → c.start ≤ b.start) ∧
      (∀ line kind, enclosing? (blocks tabWidth t) line kind = none ↔
        ∀ b ∈ blocks tabWidth t, b.kind = kind → b.contains line = false) ∧
      (blocks tabWidth t).Pairwise fun b c =>
        ∀ line, b.contains line = true → c.contains line = true → b.width ≠ c.width := by
  have hpair := pairwise_blocks tabWidth t
  have hlaminar := hpair.imp And.right
  exact ⟨fun b => label_of_mem_blocks, fun line kind b => enclosing?_eq_some_iff hpair,
    fun line kind => enclosing?_eq_none_iff hlaminar,
    hlaminar.imp fun h line hb hc => (h.width_lt hb hc).ne'⟩

end CodeReference.Outline
