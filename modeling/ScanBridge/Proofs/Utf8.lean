import Mathlib.Data.List.TakeWhile
import Mathlib.Data.UInt
import ScanBridge.Text.Utf8

namespace ScanBridge.Text

theorem toNat_char {v : Nat} (h : v < 0xD800 ∨ 0xDFFF < v ∧ v < 0x110000) :
    (Char.ofNat v).val.toNat = v := by
  rw [Char.ofNat, dif_pos h]
  rfl

theorem toNat_byte {v : Nat} (h : v < 256) : (UInt8.ofNat v).toNat = v :=
  UInt8.toNat_ofNat_of_lt' h

theorem enter_eq (b : UInt8) : enter b =
    if b.toNat < 0x80 then ([some (Char.ofNat b.toNat)], .boundary)
    else if 0xC2 ≤ b.toNat ∧ b.toNat ≤ 0xDF then ([], .inside (b.toNat - 0xC0) 0x80 0xBF 0)
    else if b.toNat = 0xE0 then ([], .inside 0 0xA0 0xBF 1)
    else if b.toNat = 0xED then ([], .inside 0xD 0x80 0x9F 1)
    else if 0xE1 ≤ b.toNat ∧ b.toNat ≤ 0xEF then ([], .inside (b.toNat - 0xE0) 0x80 0xBF 1)
    else if b.toNat = 0xF0 then ([], .inside 0 0x90 0xBF 2)
    else if 0xF1 ≤ b.toNat ∧ b.toNat ≤ 0xF3 then ([], .inside (b.toNat - 0xF0) 0x80 0xBF 2)
    else if b.toNat = 0xF4 then ([], .inside 4 0x80 0x8F 2)
    else ([none], .boundary) := by
  simp only [enter, UInt8.lt_iff_toNat_lt, UInt8.le_iff_toNat_le, ← UInt8.toNat_inj]
  rfl

theorem enter_one {v : Nat} (h : v ≤ 0x7F) :
    enter (UInt8.ofNat v) = ([some (Char.ofNat v)], .boundary) := by
  rw [enter_eq, toNat_byte (by omega), if_pos (by omega)]

theorem enter_two {v : Nat} (h : 2 ≤ v) (h' : v < 32) :
    enter (UInt8.ofNat (v + 0xC0)) = ([], .inside v 0x80 0xBF 0) := by
  rw [enter_eq, toNat_byte (by omega), if_neg (by omega), if_pos (by omega), Nat.add_sub_cancel]

/-- The lead byte of three. The second byte keeps overlong forms and surrogates out. -/
theorem enter_three {v : Nat} (h : v < 16) :
    enter (UInt8.ofNat (v + 0xE0)) = ([], .inside v (if v = 0 then 0xA0 else 0x80)
      (if v = 0xD then 0x9F else 0xBF) 1) := by
  rw [enter_eq, toNat_byte (by omega), if_neg (by omega), if_neg (by omega)]
  by_cases hzero : v = 0
  · rw [if_pos (by omega), if_pos hzero, if_neg (by omega), hzero]
  · rw [if_neg (by omega), if_neg hzero]
    by_cases hsurrogate : v = 0xD
    · rw [if_pos (by omega), if_pos hsurrogate, hsurrogate]
    · rw [if_neg (by omega), if_pos (by omega), if_neg hsurrogate, Nat.add_sub_cancel]

/-- The lead byte of four. The second byte keeps overlong forms and values above U+10FFFF out. -/
theorem enter_four {v : Nat} (h : v ≤ 4) :
    enter (UInt8.ofNat (v + 0xF0)) = ([], .inside v (if v = 0 then 0x90 else 0x80)
      (if v = 4 then 0x8F else 0xBF) 2) := by
  rw [enter_eq, toNat_byte (by omega), if_neg (by omega), if_neg (by omega), if_neg (by omega),
    if_neg (by omega), if_neg (by omega)]
  by_cases hzero : v = 0
  · rw [if_pos (by omega), if_pos hzero, if_neg (by omega), hzero]
  · rw [if_neg (by omega), if_neg hzero]
    by_cases hlast : v = 4
    · rw [if_neg (by omega), if_pos (by omega), if_pos hlast, hlast]
    · rw [if_pos (by omega), if_neg hlast, Nat.add_sub_cancel]

theorem advance_inside {code v : Nat} {least greatest : UInt8} (further : Nat) (hv : v < 64)
    (hleast : least.toNat ≤ v + 0x80) (hgreatest : v + 0x80 ≤ greatest.toNat) :
    advance (.inside code least greatest further) (UInt8.ofNat (v + 0x80)) =
      match further with
      | 0 => ([some (Char.ofNat (code * 64 + v))], .boundary)
      | n + 1 => ([], .inside (code * 64 + v) 0x80 0xBF n) := by
  have hbyte : (UInt8.ofNat (v + 0x80)).toNat = v + 0x80 := toNat_byte (by omega)
  have hin : least ≤ UInt8.ofNat (v + 0x80) ∧ UInt8.ofNat (v + 0x80) ≤ greatest := by
    rw [UInt8.le_iff_toNat_le, UInt8.le_iff_toNat_le, hbyte]
    exact ⟨hleast, hgreatest⟩
  cases further <;> simp only [advance, if_pos hin, hbyte, Nat.add_sub_cancel]

theorem advance_tail (code further : Nat) {v : Nat} (hv : v < 64) :
    advance (.inside code 0x80 0xBF further) (UInt8.ofNat (v + 0x80)) =
      match further with
      | 0 => ([some (Char.ofNat (code * 64 + v))], .boundary)
      | n + 1 => ([], .inside (code * 64 + v) 0x80 0xBF n) :=
  advance_inside further hv (Nat.le_add_left _ _) (Nat.add_le_add_right (Nat.le_of_lt_succ hv) _)

theorem piecesFrom_cons (p : Progress) (b : UInt8) (bs : Bytes) :
    piecesFrom p (b :: bs) = (advance p b).1 ++ piecesFrom (advance p b).2 bs := by
  cases p <;> rfl

/-- The encoding of a character is one piece, and the reader is at a boundary behind it. -/
theorem piecesFrom_encodeChar (c : Char) (rest : Bytes) :
    piecesFrom .boundary (String.utf8EncodeChar c ++ rest) =
      some c :: piecesFrom .boundary rest := by
  have hchar : Char.ofNat c.val.toNat = c := Char.ofNat_toNat c
  have hvalid : c.val.toNat < 0xD800 ∨ 0xDFFF < c.val.toNat ∧ c.val.toNat < 0x110000 := c.valid
  unfold String.utf8EncodeChar
  dsimp only
  -- One case for each length of an encoding, in terms of the value of the character alone.
  generalize c.val.toNat = v at hchar hvalid ⊢
  split
  · simp only [List.cons_append, List.nil_append, piecesFrom_cons, advance.eq_1]
    rw [enter_one (by omega), hchar]
    rfl
  split
  · have hlead : v / 64 % 32 = v / 64 := by omega
    have hcode : v / 64 * 64 + v % 64 = v := by omega
    simp only [List.cons_append, List.nil_append, piecesFrom_cons, advance.eq_1]
    rw [hlead, enter_two (by omega) (by omega), advance_tail _ 0 (by omega), hcode, hchar]
    rfl
  split
  · have hlead : v / 4096 % 16 = v / 4096 := by omega
    have hcode : (v / 4096 * 64 + v / 64 % 64) * 64 + v % 64 = v := by omega
    have hleast : (if v / 4096 = 0 then 0xA0 else 0x80 : UInt8).toNat ≤ v / 64 % 64 + 0x80 := by
      split <;> (simp only [UInt8.reduceToNat]; omega)
    have hgreatest :
        v / 64 % 64 + 0x80 ≤ (if v / 4096 = 0xD then 0x9F else 0xBF : UInt8).toNat := by
      split <;> (simp only [UInt8.reduceToNat]; omega)
    simp only [List.cons_append, List.nil_append, piecesFrom_cons, advance.eq_1]
    rw [hlead, enter_three (by omega), advance_inside 1 (by omega) hleast hgreatest,
      advance_tail _ 0 (by omega), hcode, hchar]
    rfl
  · have hlead : v / 262144 % 8 = v / 262144 := by omega
    have hcode : ((v / 262144 * 64 + v / 4096 % 64) * 64 + v / 64 % 64) * 64 + v % 64 = v := by
      omega
    have hleast : (if v / 262144 = 0 then 0x90 else 0x80 : UInt8).toNat ≤ v / 4096 % 64 + 0x80 := by
      split <;> (simp only [UInt8.reduceToNat]; omega)
    have hgreatest :
        v / 4096 % 64 + 0x80 ≤ (if v / 262144 = 4 then 0x8F else 0xBF : UInt8).toNat := by
      split <;> (simp only [UInt8.reduceToNat]; omega)
    simp only [List.cons_append, List.nil_append, piecesFrom_cons, advance.eq_1]
    rw [hlead, enter_four (by omega), advance_inside 2 (by omega) hleast hgreatest,
      advance_tail _ 1 (by omega), advance_tail _ 0 (by omega), hcode, hchar]
    rfl

theorem pieces_encode (s : String) : pieces (encode s) = s.toList.map some := by
  unfold pieces encode
  induction s.toList with
  | nil => rfl
  | cons c cs ih =>
    rw [List.flatMap_cons, piecesFrom_encodeChar, ih, List.map_cons]

theorem decodeLossy_encode (s : String) : decodeLossy (encode s) = s := by
  rw [decodeLossy, pieces_encode, List.map_map]
  change String.ofList (s.toList.map id) = s
  rw [List.map_id, String.ofList_toList]

theorem decode?_encode (s : String) : decode? (encode s) = some s := by
  have hkept : ∀ cs : List Char, (cs.map some).mapM id = some cs := by
    intro cs
    induction cs with
    | nil => rfl
    | cons c cs ih =>
      rw [List.map_cons, List.mapM_cons, ih]
      rfl
  rw [decode?, pieces_encode, hkept, Option.map_some, String.ofList_toList]

theorem encode_eq_toUTF8 (s : String) : encode s = s.toUTF8.data.toList := by
  rw [String.toUTF8_eq_toByteArray, ← String.utf8Encode_toList, List.utf8Encode,
    List.toList_data_toByteArray]
  rfl

theorem zero_mem_encodeChar {c : Char} (h : 0 ∈ String.utf8EncodeChar c) : c = '\x00' := by
  have hzero : ∀ n, n < 256 → 0 = UInt8.ofNat n → n = 0 := by
    intro n hn he
    rw [← toNat_byte hn, ← he]
    rfl
  unfold String.utf8EncodeChar at h
  dsimp only at h
  split at h
  · have hv := hzero _ (by omega) (List.mem_singleton.mp h)
    exact Char.ext (UInt32.toNat_inj.mp hv)
  -- All other bytes have their highest bit set.
  split at h
  · simp only [List.mem_cons, List.not_mem_nil, or_false] at h
    rcases h with h | h
    all_goals
      have := hzero _ (by omega) h
      omega
  split at h
  · simp only [List.mem_cons, List.not_mem_nil, or_false] at h
    rcases h with h | h | h
    all_goals
      have := hzero _ (by omega) h
      omega
  · simp only [List.mem_cons, List.not_mem_nil, or_false] at h
    rcases h with h | h | h | h
    all_goals
      have := hzero _ (by omega) h
      omega

theorem zero_notMem_encode {s : String} (h : '\x00' ∉ s.toList) : 0 ∉ encode s := by
  intro hzero
  obtain ⟨c, hc, hbyte⟩ := List.mem_flatMap.mp hzero
  exact h (zero_mem_encodeChar hbyte ▸ hc)

/-- A text without NUL is read as it was handed out. -/
theorem ofTerminated_toTerminated {s : String} (h : '\x00' ∉ s.toList) :
    ofTerminated (some (toTerminated s)) = s := by
  have hkept : (encode s).takeWhile (· != 0) = encode s := by
    rw [List.takeWhile_eq_self_iff]
    intro b hb
    exact bne_iff_ne.mpr fun he => zero_notMem_encode h (he ▸ hb)
  rw [ofTerminated, toTerminated, if_neg (by simpa using h), hkept, decodeLossy_encode]

end ScanBridge.Text
