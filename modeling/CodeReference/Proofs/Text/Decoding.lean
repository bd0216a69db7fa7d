import Mathlib
import CodeReference.Proofs.Text.Encoding

/-!
The encoding of a text is decoded to that text. The first byte of a character tells how many bytes
follow, and the bounds that these must keep leave out no character.
-/
namespace CodeReference.Text

variable {count read bits lo hi n fuel pos v : Nat} {r rest : List UInt8} {c : Char}

/-! ## Bytes of a character -/

theorem trailing_zero (h : bits = n) : trailing 0 read bits lo hi r = .ok (n, r) := by
  subst h
  cases r <;> simp [trailing]

theorem trailing_cons (hlo : lo ≤ n) (hhi : n ≤ hi) (hn : n < 256) :
    trailing (count + 1) read bits lo hi (UInt8.ofNat n :: r) =
      trailing count (read + 1) (bits * 64 + (n - 0x80)) 0x80 0xBF r := by
  have hbyte : (UInt8.ofNat n).toNat = n := UInt8.toNat_ofNat_of_lt' hn
  rw [trailing, hbyte, if_pos ⟨hlo, hhi⟩]

theorem decodeFrom_cons (hn : n < 256) (hlead : leadByte? n = some (count, bits))
    (h : trailing count 1 bits (secondByteBounds n).1 (secondByteBounds n).2 r =
      .ok (c.toNat, rest)) :
    decodeFrom (fuel + 1) pos (UInt8.ofNat n :: r) =
      (decodeFrom fuel (pos + 1 + count) rest).map (c :: ·) := by
  have hbyte : (UInt8.ofNat n).toNat = n := UInt8.toNat_ofNat_of_lt' hn
  rw [decodeFrom, hbyte, hlead]
  dsimp only
  rw [h]
  dsimp only
  rw [Char.ofNat_toNat]

theorem leadByte?_two (hlo : 2 ≤ n) (hhi : n < 32) : leadByte? (n + 192) = some (1, n) := by
  rw [leadByte?, if_neg (by omega), if_pos (by omega), Nat.add_sub_cancel]

theorem leadByte?_three (hhi : n < 16) : leadByte? (n + 224) = some (2, n) := by
  rw [leadByte?, if_neg (by omega), if_neg (by omega), if_pos (by omega), Nat.add_sub_cancel]

theorem leadByte?_four (hhi : n < 5) : leadByte? (n + 240) = some (3, n) := by
  rw [leadByte?, if_neg (by omega), if_neg (by omega), if_neg (by omega), if_pos (by omega),
    Nat.add_sub_cancel]

theorem secondByteBounds_two (hhi : n < 32) : secondByteBounds (n + 192) = (0x80, 0xBF) := by
  rw [secondByteBounds, if_neg (by omega), if_neg (by omega), if_neg (by omega), if_neg (by omega)]

/-- The bounds leave out what fewer bytes can hold, and the surrogates. -/
theorem secondByteBounds_three (hlo : 0x800 ≤ v) (hhi : v < 0x10000)
    (hvalid : v < 0xD800 ∨ 0xDFFF < v) :
    (secondByteBounds (v / 4096 % 16 + 224)).1 ≤ v / 64 % 64 + 128 ∧
      v / 64 % 64 + 128 ≤ (secondByteBounds (v / 4096 % 16 + 224)).2 := by
  unfold secondByteBounds
  split_ifs <;> dsimp only <;> omega

/-- The bounds leave out what fewer bytes can hold, and what is beyond all characters. -/
theorem secondByteBounds_four (hlo : 0x10000 ≤ v) (hhi : v < 0x110000) :
    (secondByteBounds (v / 262144 % 8 + 240)).1 ≤ v / 4096 % 64 + 128 ∧
      v / 4096 % 64 + 128 ≤ (secondByteBounds (v / 262144 % 8 + 240)).2 := by
  unfold secondByteBounds
  split_ifs <;> dsimp only <;> omega

/-! ## Texts -/

theorem decodeFrom_encodeChar (fuel pos : Nat) (c : Char) (r : List UInt8) :
    decodeFrom (fuel + 1) pos (String.utf8EncodeChar c ++ r) =
      (decodeFrom fuel (pos + c.utf8Size) r).map (c :: ·) := by
  have hvalid : c.toNat < 0xD800 ∨ 0xDFFF < c.toNat ∧ c.toNat < 0x110000 := c.valid
  rw [← String.length_utf8EncodeChar, String.utf8EncodeChar, show c.val.toNat = c.toNat from rfl]
  generalize hv : c.toNat = v at hvalid
  by_cases hone : v ≤ 127
  · rw [if_pos hone, List.singleton_append]
    exact decodeFrom_cons (by omega) (if_pos (by omega)) (trailing_zero hv.symm)
  by_cases htwo : v ≤ 2047
  · rw [if_neg hone, if_pos htwo, List.cons_append, List.singleton_append]
    refine decodeFrom_cons (by omega) (leadByte?_two (by omega) (by omega)) ?_
    rw [secondByteBounds_two (by omega), trailing_cons (by omega) (by omega) (by omega), hv]
    exact trailing_zero (by omega)
  by_cases hthree : v ≤ 65535
  · obtain ⟨hlo, hhi⟩ := secondByteBounds_three (v := v) (by omega) (by omega) (by omega)
    rw [if_neg hone, if_neg htwo, if_pos hthree, List.cons_append, List.cons_append,
      List.singleton_append]
    refine decodeFrom_cons (by omega) (leadByte?_three (by omega)) ?_
    rw [trailing_cons hlo hhi (by omega), trailing_cons (by omega) (by omega) (by omega), hv]
    exact trailing_zero (by omega)
  · obtain ⟨hlo, hhi⟩ := secondByteBounds_four (v := v) (by omega) (by omega)
    rw [if_neg hone, if_neg htwo, if_neg hthree, List.cons_append, List.cons_append,
      List.cons_append, List.singleton_append]
    refine decodeFrom_cons (by omega) (leadByte?_four (by omega)) ?_
    rw [trailing_cons hlo hhi (by omega), trailing_cons (by omega) (by omega) (by omega),
      trailing_cons (by omega) (by omega) (by omega), hv]
    exact trailing_zero (by omega)

theorem decodeFrom_encode (pos : Nat) (t : Text) (h : t.length ≤ fuel) :
    decodeFrom fuel pos (encode t) = .ok t := by
  induction t generalizing fuel pos with
  | nil => simp [encode_eq_flatMap, decodeFrom]
  | cons c t ih =>
      cases fuel with
      | zero => simp at h
      | succ fuel =>
          rw [encode_cons, decodeFrom_encodeChar, ih _ (by simpa using h)]
          rfl

theorem length_le_byteWidth (t : Text) : t.length ≤ byteWidth t := by
  induction t with
  | nil => exact Nat.le_refl 0
  | cons c t ih =>
      have hc := c.utf8Size_pos
      rw [byteWidth, List.length_cons]
      omega

theorem decode_encode (t : Text) : decode (encode t) = .ok t :=
  decodeFrom_encode 0 t ((length_le_byteWidth t).trans_eq (length_encode t).symm)

end CodeReference.Text
