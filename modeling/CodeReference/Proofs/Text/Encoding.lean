import Mathlib
import CodeReference.Proofs.Text.Bytes
import CodeReference.Proofs.Text.Lines

/-!
The encoding of a text in bytes. A cut of a text is a cut of its encoding, and only a line feed is
encoded with the byte of a line feed. So the row of a byte is the number of such bytes before it,
and the row of a character is its line.
-/
namespace CodeReference.Text

/-! ## Bytes of a text -/

theorem toList_loop_eq (bytes : ByteArray) (i : Nat) (r : List UInt8) :
    ByteArray.toList.loop bytes i r = r.reverse ++ bytes.data.toList.drop i := by
  fun_induction ByteArray.toList.loop bytes i r with
  | case1 i r h ih =>
      have hlt : i < bytes.data.toList.length := by simpa using h
      have hget : bytes.get! i = bytes.data.toList[i] := by
        show bytes.data[i]! = _
        rw [getElem!_pos bytes.data i h, Array.getElem_toList]
      rw [ih, hget, List.drop_eq_getElem_cons hlt, List.reverse_cons, List.append_assoc,
        List.singleton_append]
  | case2 i r h =>
      rw [List.drop_eq_nil_of_le (by simpa using h), List.append_nil]

theorem encode_eq_flatMap (t : Text) : encode t = t.flatMap String.utf8EncodeChar := by
  rw [encode, String.toUTF8_eq_toByteArray, String.toByteArray_ofList, ByteArray.toList,
    toList_loop_eq, List.reverse_nil, List.nil_append, List.drop_zero, List.utf8Encode,
    List.toList_data_toByteArray]

theorem encode_append (t u : Text) : encode (t ++ u) = encode t ++ encode u := by
  simp only [encode_eq_flatMap, List.flatMap_append]

theorem encode_cons (c : Char) (t : Text) : encode (c :: t) = String.utf8EncodeChar c ++ encode t := by
  simp only [encode_eq_flatMap, List.flatMap_cons]

theorem length_encode (t : Text) : (encode t).length = byteWidth t := by
  induction t with
  | nil => simp [encode_eq_flatMap, byteWidth]
  | cons c t ih => rw [encode_cons, List.length_append, String.length_utf8EncodeChar, ih, byteWidth]

/-- The bytes before a character are the encoding of the text before it. -/
theorem take_encode (t : Text) (offset : Nat) :
    (encode t).take (byteOffset t offset) = encode (t.take offset) := by
  have h : encode t = encode (t.take offset) ++ encode (t.drop offset) := by
    rw [← encode_append, List.take_append_drop]
  rw [byteOffset, ← length_encode, h, List.take_left]

/-! ## Bytes of line feeds -/

/-- The byte that stands for a line feed. -/
def lineFeed : UInt8 := 10

theorem or_ne_lineFeed {x y : UInt8} (hy : 128 ≤ y.toNat) : x ||| y ≠ lineFeed := by
  intro h
  have hle : y.toNat ≤ (x ||| y).toNat := by
    rw [UInt8.toNat_or]
    exact Nat.right_le_or
  rw [h] at hle
  exact absurd (hy.trans hle) (by decide)

theorem encodeChar_lineFeed : String.utf8EncodeChar '\n' = [lineFeed] :=
  String.utf8EncodeChar_eq_singleton (by decide)

theorem lineFeed_not_mem_encodeChar {c : Char} (hc : c ≠ '\n') :
    lineFeed ∉ String.utf8EncodeChar c := by
  rcases Char.utf8Size_eq c with h | h | h | h
  · rw [String.utf8EncodeChar_eq_singleton h, List.mem_singleton]
    rw [Char.utf8Size_eq_one_iff, UInt32.le_iff_toNat_le] at h
    intro heq
    refine hc (Char.toNat_inj.1 ?_)
    have hbyte := congrArg UInt8.toNat heq
    rw [UInt32.toNat_toUInt8, Nat.mod_eq_of_lt (h.trans_lt (by decide))] at hbyte
    exact hbyte.symm
  · rw [String.utf8EncodeChar_eq_cons_cons h]
    simp [(or_ne_lineFeed _).symm]
  · rw [String.utf8EncodeChar_eq_cons_cons_cons h]
    simp [(or_ne_lineFeed _).symm]
  · rw [String.utf8EncodeChar_eq_cons_cons_cons_cons h]
    simp [(or_ne_lineFeed _).symm]

theorem count_encode (t : Text) : (encode t).count lineFeed = t.count '\n' := by
  induction t with
  | nil => simp [encode_eq_flatMap]
  | cons c t ih =>
      rw [encode_cons, List.count_append, ih, List.count_cons, Nat.add_comm]
      by_cases hc : c = '\n'
      · simp [hc, encodeChar_lineFeed]
      · simp [hc, List.count_eq_zero.2 (lineFeed_not_mem_encodeChar hc)]

theorem rowAtByte_go_eq (offset pos : Nat) (t : Text) :
    rowAtByte.go offset pos t = ((encode t).take (offset - pos)).count lineFeed := by
  induction t generalizing pos with
  | nil => simp [rowAtByte.go, encode_eq_flatMap]
  | cons c t ih =>
      rw [rowAtByte.go, encode_cons]
      split
      · rename_i h
        rw [Nat.sub_eq_zero_of_le h, List.take_zero, List.count_nil]
      · rename_i h
        rw [ih, List.take_append, List.count_append, String.length_utf8EncodeChar, Nat.sub_add_eq]
        congr 1
        split
        · rename_i hc
          rw [hc, encodeChar_lineFeed, List.take_of_length_le (by simp; omega)]
          rfl
        · rename_i hc
          exact (List.count_eq_zero.2 fun hmem =>
            lineFeed_not_mem_encodeChar hc (List.mem_of_mem_take hmem)).symm

/-- The row of a byte is the number of line feeds among the bytes before it. -/
theorem rowAtByte_eq_count (t : Text) (offset : Nat) :
    rowAtByte t offset = ((encode t).take offset).count lineFeed := rowAtByte_go_eq offset 0 t

theorem count_take_byteOffset (t : Text) (offset : Nat) :
    ((encode t).take (byteOffset t offset)).count lineFeed = lineAt t offset := by
  rw [take_encode, count_encode, lineAt_eq_count]

/-! ## Rows -/

section
variable {t : Text} {line b : Nat}

theorem rowAtByte_byteOffset (t : Text) (offset : Nat) :
    rowAtByte t (byteOffset t offset) = lineAt t offset :=
  (t.rowAtByte_eq_count _).trans (t.count_take_byteOffset offset)

theorem rowAtByte_mono (t : Text) {a b : Nat} (h : a ≤ b) : rowAtByte t a ≤ rowAtByte t b := by
  rw [rowAtByte_eq_count, rowAtByte_eq_count]
  exact (List.take_prefix_take_left h).sublist.count_le _

/-- The byte before the start of a line is its line feed, which is on the row above. -/
theorem rowAtByte_lt (hline : line < t.lineCount) (hb : b < t.byteOffset (t.lineStart line)) :
    t.rowAtByte b < line := by
  obtain ⟨above, content, below, h⟩ := exists_isLine hline
  rw [h.lineStart_eq] at hb
  rcases List.eq_nil_or_concat' above with rfl | ⟨a, c, rfl⟩
  · simp [byteOffset, byteWidth] at hb
  · obtain rfl : c = '\n' := h.above_ends c (by simp)
    have htake : t.take a.length = a := by
      rw [h.text, List.append_assoc, List.append_assoc, List.take_left]
    have hbyte : t.byteOffset (a ++ ['\n']).length = t.byteOffset a.length + 1 := by
      rw [byteOffset, byteOffset, htake, h.text, List.append_assoc, List.take_left,
        byteWidth_append]
      rfl
    have hrow := t.rowAtByte_mono (Nat.le_of_lt_succ (hbyte ▸ hb))
    have hnumber := h.number
    rw [rowAtByte_byteOffset, lineAt_eq_count, htake] at hrow
    rw [List.count_append, List.count_singleton_self] at hnumber
    omega

end

/-! ## The order of byte offsets -/

variable {t : Text} {i j : Nat}

theorem byteOffset_succ (hi : i < t.length) :
    byteOffset t (i + 1) = byteOffset t i + t[i].utf8Size := by
  rw [byteOffset, byteOffset, List.take_add_one, List.getElem?_eq_getElem hi, byteWidth_append]
  rfl

theorem byteOffset_lt (hij : i < j) (hj : j ≤ t.length) : byteOffset t i < byteOffset t j := by
  have hi : i < t.length := hij.trans_le hj
  have hlt : byteOffset t i < byteOffset t (i + 1) := by
    rw [byteOffset_succ hi]
    exact Nat.lt_add_of_pos_right t[i].utf8Size_pos
  exact hlt.trans_le (byteOffset_mono t hij)

theorem byteOffset_le_iff (hi : i ≤ t.length) : byteOffset t i ≤ byteOffset t j ↔ i ≤ j :=
  ⟨fun h => not_lt.1 fun hlt => (byteOffset_lt hlt hi).not_ge h, byteOffset_mono t⟩

end CodeReference.Text
