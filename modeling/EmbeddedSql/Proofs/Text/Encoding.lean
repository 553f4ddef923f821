import EmbeddedSql.Text.Utf8
import Mathlib.Tactic.SplitIfs

/-!
# Characters as bytes

Every text is read back from its bytes, and the order of texts by their
characters is that of their bytes. A character has one to four bytes according
to its code point. The first byte tells how many there are and bounds the second
one, so that no shorter form and no surrogate is taken for a character.
-/

namespace EmbeddedSql.Text.Utf8

/-! ## Reading back -/

/-- A number that is not above a byte is the number of a byte. -/
theorem toNat_ofNat_of_le {n : Nat} {bound : UInt8} (h : n ≤ bound.toNat) :
    (UInt8.ofNat n).toNat = n := by
  have hbound := bound.toNat_lt
  rw [UInt8.toNat_ofNat']
  omega

/-- A byte within the bounds of a character that waits for it continues it. -/
theorem continues {low high : UInt8} {n : Nat} (hlow : low.toNat ≤ n) (hhigh : n ≤ high.toNat) :
    (low ≤ UInt8.ofNat n && UInt8.ofNat n ≤ high) = true := by
  simp only [Bool.and_eq_true, decide_eq_true_eq, UInt8.le_iff_toNat_le, toNat_ofNat_of_le hhigh]
  exact ⟨hlow, hhigh⟩

/-- A byte in the middle of a character. -/
theorem decodeFrom_middle {bits missing n : Nat} {low high : UInt8} (hlow : low.toNat ≤ n)
    (hhigh : n ≤ high.toNat) (rest : List UInt8) :
    decodeFrom (some ⟨bits, missing + 2, low, high⟩) (UInt8.ofNat n :: rest) =
      decodeFrom (some ⟨bits * 64 + (n - 0x80), missing + 1, 0x80, 0xBF⟩) rest := by
  have hmissing : ¬ missing + 2 ≤ 1 := by omega
  rw [decodeFrom, step]
  simp only [continues hlow hhigh, if_true, if_neg hmissing, toNat_ofNat_of_le hhigh,
    List.nil_append]
  rfl

/-- The last byte of a character. -/
theorem decodeFrom_last {bits n : Nat} {low high : UInt8} (hlow : low.toNat ≤ n)
    (hhigh : n ≤ high.toNat) (rest : List UInt8) :
    decodeFrom (some ⟨bits, 1, low, high⟩) (UInt8.ofNat n :: rest) =
      some (Char.ofNat (bits * 64 + (n - 0x80))) :: decodeFrom none rest := by
  rw [decodeFrom, step]
  simp only [continues hlow hhigh, if_true, Nat.le_refl, toNat_ofNat_of_le hhigh,
    List.singleton_append]

/-- What a first byte gives, by its number. -/
theorem begin_ofNat {n : Nat} (hn : n < 256) :
    begin (UInt8.ofNat n) =
      if n < 0x80 then ([some (Char.ofNat n)], none)
      else if n < 0xC2 then ([none], none)
      else if n < 0xE0 then ([], some ⟨n - 0xC0, 1, 0x80, 0xBF⟩)
      else if n = 0xE0 then ([], some ⟨0, 2, 0xA0, 0xBF⟩)
      else if n = 0xED then ([], some ⟨0xD, 2, 0x80, 0x9F⟩)
      else if n < 0xF0 then ([], some ⟨n - 0xE0, 2, 0x80, 0xBF⟩)
      else if n = 0xF0 then ([], some ⟨0, 3, 0x90, 0xBF⟩)
      else if n < 0xF4 then ([], some ⟨n - 0xF0, 3, 0x80, 0xBF⟩)
      else if n = 0xF4 then ([], some ⟨4, 3, 0x80, 0x8F⟩)
      else ([none], none) := by
  have hb : (UInt8.ofNat n).toNat = n := by
    rw [UInt8.toNat_ofNat']
    omega
  have hlt (b : UInt8) : UInt8.ofNat n < b ↔ n < b.toNat := by
    rw [UInt8.lt_iff_toNat_lt, hb]
  have heq (b : UInt8) : UInt8.ofNat n = b ↔ n = b.toNat := by
    rw [← UInt8.toNat_inj, hb]
  simp only [begin, hlt, heq, hb]
  rfl

/-- The first byte of a character of two bytes. -/
theorem begin_two {n : Nat} (hlow : 0xC2 ≤ n) (hhigh : n < 0xE0) :
    begin (UInt8.ofNat n) = ([], some ⟨n - 0xC0, 1, 0x80, 0xBF⟩) := by
  rw [begin_ofNat (by omega), if_neg (by omega), if_neg (by omega), if_pos hhigh]

/-- The first byte of a character of three bytes bounds the second one. -/
theorem begin_three {code : Nat} (hlow : 0x7FF < code) (hhigh : code ≤ 0xFFFF)
    (hvalid : code < 0xD800 ∨ 0xDFFF < code) :
    ∃ low high : UInt8, low.toNat ≤ code / 64 % 64 + 128 ∧ code / 64 % 64 + 128 ≤ high.toNat ∧
      begin (UInt8.ofNat (code / 4096 % 16 + 224)) = ([], some ⟨code / 4096, 2, low, high⟩) := by
  rw [begin_ofNat (by omega), if_neg (by omega), if_neg (by omega), if_neg (by omega)]
  split
  next h =>
    have hzero : code / 4096 = 0 := by omega
    refine ⟨0xA0, 0xBF, ?_, ?_, by rw [hzero]⟩ <;> simp only [UInt8.reduceToNat] <;> omega
  next =>
    split
    next h =>
      have hd : code / 4096 = 0xD := by omega
      refine ⟨0x80, 0x9F, ?_, ?_, by rw [hd]⟩ <;> simp only [UInt8.reduceToNat] <;> omega
    next =>
      have hbits : code / 4096 % 16 + 224 - 0xE0 = code / 4096 := by omega
      rw [if_pos (by omega), hbits]
      refine ⟨0x80, 0xBF, ?_, ?_, rfl⟩ <;> simp only [UInt8.reduceToNat] <;> omega

/-- The first byte of a character of four bytes bounds the second one. -/
theorem begin_four {code : Nat} (hlow : 0xFFFF < code) (hhigh : code ≤ 0x10FFFF) :
    ∃ low high : UInt8, low.toNat ≤ code / 4096 % 64 + 128 ∧ code / 4096 % 64 + 128 ≤ high.toNat ∧
      begin (UInt8.ofNat (code / 262144 % 8 + 240)) = ([], some ⟨code / 262144, 3, low, high⟩) := by
  rw [begin_ofNat (by omega), if_neg (by omega), if_neg (by omega), if_neg (by omega),
    if_neg (by omega), if_neg (by omega), if_neg (by omega)]
  split
  next h =>
    have hzero : code / 262144 = 0 := by omega
    refine ⟨0x90, 0xBF, ?_, ?_, by rw [hzero]⟩ <;> simp only [UInt8.reduceToNat] <;> omega
  next =>
    split
    next =>
      have hbits : code / 262144 % 8 + 240 - 0xF0 = code / 262144 := by omega
      rw [hbits]
      refine ⟨0x80, 0xBF, ?_, ?_, rfl⟩ <;> simp only [UInt8.reduceToNat] <;> omega
    next =>
      have hfour : code / 262144 = 4 := by omega
      rw [if_pos (by omega), hfour]
      refine ⟨0x80, 0x8F, ?_, ?_, rfl⟩ <;> simp only [UInt8.reduceToNat] <;> omega

/-- The bounds of the bytes behind the first one, in the middle of a character. -/
theorem tail_bounds (n : Nat) :
    (0x80 : UInt8).toNat ≤ n % 64 + 128 ∧ n % 64 + 128 ≤ (0xBF : UInt8).toNat := by
  simp only [UInt8.reduceToNat]
  omega

/-- The bytes of a character, by its code point. -/
def bytesOfCode (code : Nat) : List UInt8 :=
  if code ≤ 0x7F then [UInt8.ofNat code]
  else if code ≤ 0x7FF then
    [UInt8.ofNat (code / 64 % 32 + 192), UInt8.ofNat (code % 64 + 128)]
  else if code ≤ 0xFFFF then
    [UInt8.ofNat (code / 4096 % 16 + 224), UInt8.ofNat (code / 64 % 64 + 128),
      UInt8.ofNat (code % 64 + 128)]
  else
    [UInt8.ofNat (code / 262144 % 8 + 240), UInt8.ofNat (code / 4096 % 64 + 128),
      UInt8.ofNat (code / 64 % 64 + 128), UInt8.ofNat (code % 64 + 128)]

/-- The bytes of a character are those of its code point. -/
theorem utf8EncodeChar_eq (c : Char) : String.utf8EncodeChar c = bytesOfCode c.toNat := rfl

/-- A code point is read back from its bytes. -/
theorem decodeFrom_bytesOfCode {code : Nat}
    (hvalid : code < 0xD800 ∨ 0xDFFF < code ∧ code ≤ 0x10FFFF) (rest : List UInt8) :
    decodeFrom none (bytesOfCode code ++ rest) =
      some (Char.ofNat code) :: decodeFrom none rest := by
  obtain ⟨hlow, hhigh⟩ := tail_bounds code
  unfold bytesOfCode
  split
  next h =>
    rw [List.singleton_append, decodeFrom, step, begin_ofNat (by omega), if_pos (by omega)]
    rfl
  next h =>
    split
    next h' =>
      have hcode : (code / 64 % 32 + 192 - 0xC0) * 64 + (code % 64 + 128 - 0x80) = code := by
        omega
      rw [List.cons_append, decodeFrom, step, begin_two (by omega) (by omega), List.nil_append,
        List.singleton_append, decodeFrom_last hlow hhigh, hcode]
    next h' =>
      split
      next h'' =>
        obtain ⟨low, high, hl, hh, hb⟩ := begin_three (Nat.lt_of_not_le h') h'' (by omega)
        have hcode : (code / 4096 * 64 + (code / 64 % 64 + 128 - 0x80)) * 64 +
            (code % 64 + 128 - 0x80) = code := by omega
        rw [List.cons_append, decodeFrom, step, hb, List.nil_append, List.cons_append,
          decodeFrom_middle hl hh, List.singleton_append, decodeFrom_last hlow hhigh, hcode]
      next h'' =>
        obtain ⟨low, high, hl, hh, hb⟩ := begin_four (Nat.lt_of_not_le h'') (by omega)
        obtain ⟨hlow', hhigh'⟩ := tail_bounds (code / 64)
        have hcode : ((code / 262144 * 64 + (code / 4096 % 64 + 128 - 0x80)) * 64 +
            (code / 64 % 64 + 128 - 0x80)) * 64 + (code % 64 + 128 - 0x80) = code := by omega
        rw [List.cons_append, decodeFrom, step, hb, List.nil_append, List.cons_append,
          decodeFrom_middle hl hh, List.cons_append, decodeFrom_middle hlow' hhigh',
          List.singleton_append, decodeFrom_last hlow hhigh, hcode]

/-- The code point of a character is no surrogate. -/
theorem toNat_valid (c : Char) : c.toNat < 0xD800 ∨ 0xDFFF < c.toNat ∧ c.toNat ≤ 0x10FFFF := by
  have hvalid : c.toNat < 0xD800 ∨ 0xDFFF < c.toNat ∧ c.toNat < 0x110000 := c.valid
  omega

/-- A text is read back from its bytes. -/
theorem decode_encode (text : List Char) : decode (encode text) = text.map some := by
  unfold decode encode
  induction text with
  | nil => rfl
  | cons c rest ih =>
    rw [List.flatMap_cons, utf8EncodeChar_eq, decodeFrom_bytesOfCode (toNat_valid c), ih,
      Char.ofNat_toNat, List.map_cons]

/-! ## Order -/

/-- Bytes are in the order of their numbers. -/
theorem ofNat_lt_ofNat {m n : Nat} (hn : n < 256) (h : m < n) : UInt8.ofNat m < UInt8.ofNat n := by
  rw [UInt8.lt_iff_toNat_lt, UInt8.toNat_ofNat', UInt8.toNat_ofNat']
  omega

/-- Bytes are in order if the first one is smaller, or the same with the others in
order. -/
theorem cons_lt_cons {m n : Nat} {front back : List UInt8} (hn : n < 256) (hle : m ≤ n)
    (h : m = n → front < back) : UInt8.ofNat m :: front < UInt8.ofNat n :: back := by
  rw [List.cons_lt_cons_iff]
  rcases Nat.lt_or_eq_of_le hle with hlt | rfl
  · exact .inl (ofNat_lt_ofNat hn hlt)
  · exact .inr ⟨rfl, h rfl⟩

/-- A code point in front of another one has bytes in front of those of the other. -/
theorem bytesOfCode_lt {code code' : Nat} (h : code < code') (hcode : code' ≤ 0x10FFFF)
    (front back : List UInt8) : bytesOfCode code ++ front < bytesOfCode code' ++ back := by
  simp only [bytesOfCode]
  -- Characters with different numbers of bytes differ in the first one already.
  split_ifs <;> simp only [List.cons_append, List.nil_append]
  · exact cons_lt_cons (by omega) (by omega) (by omega)
  · exact cons_lt_cons (by omega) (by omega) (by omega)
  · exact cons_lt_cons (by omega) (by omega) (by omega)
  · exact cons_lt_cons (by omega) (by omega) (by omega)
  · omega
  · exact cons_lt_cons (by omega) (by omega) fun _ =>
      cons_lt_cons (by omega) (by omega) (by omega)
  · exact cons_lt_cons (by omega) (by omega) (by omega)
  · exact cons_lt_cons (by omega) (by omega) (by omega)
  · omega
  · omega
  · exact cons_lt_cons (by omega) (by omega) fun _ => cons_lt_cons (by omega) (by omega) fun _ =>
      cons_lt_cons (by omega) (by omega) (by omega)
  · exact cons_lt_cons (by omega) (by omega) (by omega)
  · omega
  · omega
  · omega
  · exact cons_lt_cons (by omega) (by omega) fun _ => cons_lt_cons (by omega) (by omega) fun _ =>
      cons_lt_cons (by omega) (by omega) fun _ => cons_lt_cons (by omega) (by omega) (by omega)

/-- Texts in the order of their characters are in the order of their bytes. -/
theorem encode_lt {front back : List Char} (h : front < back) : encode front < encode back := by
  unfold encode
  induction h with
  | @nil c rest =>
    rw [List.flatMap_nil, List.flatMap_cons, utf8EncodeChar_eq, bytesOfCode]
    split_ifs <;> exact List.nil_lt_cons _ _
  | @rel c front d back hc =>
    rw [List.flatMap_cons, List.flatMap_cons, utf8EncodeChar_eq, utf8EncodeChar_eq]
    have hvalid := toNat_valid d
    have hcode : c.toNat < d.toNat := hc
    exact bytesOfCode_lt hcode (by omega) _ _
  | @cons c front back _ ih =>
    rw [List.flatMap_cons, List.flatMap_cons]
    exact List.append_left_lt ih

end EmbeddedSql.Text.Utf8
