import Mathlib
import CodeReference.Text.Lowercase

/-!
Small letters stay as they are. No character that lower-casing writes is a capital of the table, so
lower-casing a text twice is lower-casing it once.
-/
namespace CodeReference.Text

namespace Lowercase

/-! ## The capitals of the table -/

def capitalsOf : Nat × Nat × Nat × Int → List Nat
  | (first, last, step, _) => (List.range ((last - first) / step + 1)).map fun k => first + k * step

def smallsOf (run : Nat × Nat × Nat × Int) : List Nat :=
  (capitalsOf run).map fun n : Nat => ((n : Int) + run.2.2.2).toNat

theorem mem_capitalsOf {first last step n : Nat} {shift : Int} (hfirst : first ≤ n) (hlast : n ≤ last)
    (hstep : (n - first) % step = 0) : n ∈ capitalsOf (first, last, step, shift) := by
  have hdiv := Nat.div_add_mod (n - first) step
  have hle : (n - first) / step ≤ (last - first) / step := Nat.div_le_div_right (by omega)
  refine List.mem_map.2 ⟨(n - first) / step, List.mem_range.2 (by omega), ?_⟩
  rw [Nat.mul_comm]
  omega

/-- A set of numbers as the bits of one, so that two sets are compared in one step. -/
def bits (ns : List Nat) : Nat := ns.foldr (fun n m => 2 ^ n ||| m) 0

theorem testBit_bits {ns : List Nat} {n : Nat} : (bits ns).testBit n = true ↔ n ∈ ns := by
  induction ns with
  | nil => simp [bits]
  | cons m ns ih =>
      rw [bits, List.foldr_cons, ← bits, Nat.testBit_or, Bool.or_eq_true, ih, Nat.testBit_two_pow,
        decide_eq_true_eq, List.mem_cons, eq_comm]

theorem not_mem_of_land_bits {ns ms : List Nat} (h : bits ns &&& bits ms = 0) {n : Nat}
    (hn : n ∈ ns) : n ∉ ms := by
  intro hm
  have hbit : (bits ns &&& bits ms).testBit n = true := by
    rw [Nat.testBit_and, testBit_bits.2 hn, testBit_bits.2 hm]
    rfl
  simp [h] at hbit

theorem land_bits_runs :
    bits (runs.flatMap smallsOf) &&& bits (0x130 :: runs.flatMap capitalsOf) = 0 := by
  decide +kernel

theorem toLower_of_mem_smallsOf : ∀ n ∈ runs.flatMap smallsOf, n < 0x80 →
    (Char.ofNat n).toLower = Char.ofNat n := by
  decide +kernel

/-! ## Small characters -/

variable {c : Char} {t : Text}

/-- A character that lower-casing leaves as it is. -/
structure IsSmall (c : Char) : Prop where
  sigma : c ≠ '\u03A3'
  dotted : c ≠ '\u0130'
  char : char c = c

theorem isSmall_of_lt (h : c.toNat < 0x80) (hc : c.toLower = c) : IsSmall c := by
  refine ⟨?_, ?_, by rw [char, if_pos h, hc]⟩ <;> rintro rfl <;> exact absurd h (by decide)

theorem char_of_not_mem (h : c.toNat ∉ runs.flatMap capitalsOf) (hc : ¬ c.toNat < 0x80) :
    char c = c := by
  have hnone : runs.find? (fun (first, last, step, _) =>
      first ≤ c.toNat && c.toNat ≤ last && (c.toNat - first) % step = 0) = none := by
    rw [List.find?_eq_none]
    rintro ⟨first, last, step, shift⟩ hrun hfound
    simp only [Bool.and_eq_true, decide_eq_true_eq] at hfound
    exact h (List.mem_flatMap.2 ⟨_, hrun, mem_capitalsOf hfound.1.1 hfound.1.2 hfound.2⟩)
  rw [char, if_neg hc, hnone]

theorem isSmall_ofNat {n : Nat} (h : n ∈ runs.flatMap smallsOf) : IsSmall (Char.ofNat n) := by
  by_cases hvalid : n.isValidChar
  · have hn : (Char.ofNat n).toNat = n := by rw [Char.toNat_ofNat, if_pos hvalid]
    have hcapital := not_mem_of_land_bits land_bits_runs h
    rw [List.mem_cons, not_or] at hcapital
    by_cases hlt : n < 0x80
    · exact isSmall_of_lt (by rwa [hn]) (toLower_of_mem_smallsOf n h hlt)
    · refine ⟨fun hc => hcapital.2 ?_, fun hc => hcapital.1 ?_,
        char_of_not_mem (by rw [hn]; exact hcapital.2) (by rwa [hn])⟩
      · -- The capital sigma is in the table.
        rw [← hn, hc]
        decide +kernel
      · rw [← hn, hc]
        rfl
  · rw [Char.ofNat, dif_neg hvalid]
    exact isSmall_of_lt (by decide) (by decide)

theorem toLower_of_lt : ∀ n < 0x80, (Char.ofNat n).toLower.toNat < 0x80 ∧
    (Char.ofNat n).toLower.toLower = (Char.ofNat n).toLower := by
  decide

theorem char_eq_or_mem (hc : ¬ c.toNat < 0x80) :
    char c = c ∨ ∃ n ∈ runs.flatMap smallsOf, char c = Char.ofNat n := by
  rw [char, if_neg hc]
  split
  · rename_i first last step shift hrun
    have hfound := List.find?_some hrun
    simp only [Bool.and_eq_true, decide_eq_true_eq] at hfound
    have hcapital : c.toNat ∈ capitalsOf (first, last, step, shift) :=
      mem_capitalsOf hfound.1.1 hfound.1.2 hfound.2
    exact .inr ⟨_, List.mem_flatMap.2 ⟨_, List.mem_of_find?_eq_some hrun,
      List.mem_map_of_mem hcapital⟩, rfl⟩
  · exact .inl rfl

theorem isSmall_char (hsigma : c ≠ '\u03A3') (hdotted : c ≠ '\u0130') : IsSmall (char c) := by
  by_cases hlt : c.toNat < 0x80
  · have hlower := toLower_of_lt c.toNat hlt
    rw [Char.ofNat_toNat] at hlower
    rw [char, if_pos hlt]
    exact isSmall_of_lt hlower.1 hlower.2
  · rcases char_eq_or_mem hlt with hself | ⟨n, hn, heq⟩
    · rw [hself]
      exact ⟨hsigma, hdotted, hself⟩
    · rw [heq]
      exact isSmall_ofNat hn

/-! ## Texts -/

theorem isSmall_of_mem_after {before : Text} : ∀ d ∈ after before t, IsSmall d := by
  induction t generalizing before with
  | nil => simp [after]
  | cons c t ih =>
      rw [after, List.forall_mem_append]
      refine ⟨fun d hd => ?_, ih⟩
      split at hd
      · split at hd
        · rw [List.mem_singleton.1 hd]
          exact ⟨by decide, by decide, by decide +kernel⟩
        · rw [List.mem_singleton.1 hd]
          exact ⟨by decide, by decide, by decide +kernel⟩
      · rename_i hsigma
        split at hd
        · simp only [List.mem_cons, List.not_mem_nil, or_false] at hd
          rcases hd with rfl | rfl
          · exact isSmall_of_lt (by decide) (by decide)
          · exact ⟨by decide, by decide, by decide +kernel⟩
        · rename_i hdotted
          rw [List.mem_singleton.1 hd]
          exact isSmall_char hsigma hdotted

theorem after_of_isSmall {before : Text} (h : ∀ c ∈ t, IsSmall c) : after before t = t := by
  induction t generalizing before with
  | nil => rfl
  | cons c t ih =>
      obtain ⟨hc, ht⟩ := List.forall_mem_cons.1 h
      rw [after, ih ht, if_neg hc.sigma, if_neg hc.dotted, hc.char]
      rfl

end Lowercase

/-- Lower-casing a text twice is lower-casing it once. -/
@[simp] theorem lowercase_lowercase (t : Text) : lowercase (lowercase t) = lowercase t :=
  Lowercase.after_of_isSmall Lowercase.isSmall_of_mem_after

end CodeReference.Text
