import ScanBridge.Proofs.Utf8

namespace ScanBridge.Text

theorem byte_cons_lt {a b : Nat} {xs ys : Bytes} (hle : a ≤ b) (hb : b < 256)
    (hrest : a = b → xs < ys) : UInt8.ofNat a :: xs < UInt8.ofNat b :: ys := by
  rw [List.cons_lt_cons_iff, UInt8.lt_iff_toNat_lt, ← UInt8.toNat_inj, toNat_byte (by omega),
    toNat_byte hb]
  rcases Nat.lt_or_eq_of_le hle with hlt | he
  · exact .inl hlt
  · exact .inr ⟨he, hrest he⟩

theorem byte_lead_lt {a b : Nat} (xs ys : Bytes) (h : a < b) (hb : b < 256) :
    UInt8.ofNat a :: xs < UInt8.ofNat b :: ys :=
  byte_cons_lt (Nat.le_of_lt h) hb fun he => absurd he (Nat.ne_of_lt h)

theorem encodeChar_append_lt {c d : Char} (h : c < d) (u v : Bytes) :
    String.utf8EncodeChar c ++ u < String.utf8EncodeChar d ++ v := by
  have hlt : c.val.toNat < d.val.toNat := h
  have hmax : d.val.toNat < 0x110000 := by
    have hvalid : d.val.toNat < 0xD800 ∨ 0xDFFF < d.val.toNat ∧ d.val.toNat < 0x110000 := d.valid
    omega
  unfold String.utf8EncodeChar
  dsimp only
  generalize c.val.toNat = n, d.val.toNat = m at hlt hmax ⊢
  -- Encodings of different lengths have lead bytes of different ranges.
  split
  · split
    · exact byte_lead_lt _ _ hlt (by omega)
    split
    · exact byte_lead_lt _ _ (by omega) (by omega)
    split
    · exact byte_lead_lt _ _ (by omega) (by omega)
    · exact byte_lead_lt _ _ (by omega) (by omega)
  split
  · rw [if_neg (by omega)]
    split
    · exact byte_cons_lt (by omega) (by omega) fun _ => byte_lead_lt _ _ (by omega) (by omega)
    split
    · exact byte_lead_lt _ _ (by omega) (by omega)
    · exact byte_lead_lt _ _ (by omega) (by omega)
  split
  · rw [if_neg (by omega), if_neg (by omega)]
    split
    · exact byte_cons_lt (by omega) (by omega) fun _ =>
        byte_cons_lt (by omega) (by omega) fun _ => byte_lead_lt _ _ (by omega) (by omega)
    · exact byte_lead_lt _ _ (by omega) (by omega)
  · rw [if_neg (by omega), if_neg (by omega), if_neg (by omega)]
    exact byte_cons_lt (by omega) (by omega) fun _ =>
      byte_cons_lt (by omega) (by omega) fun _ =>
        byte_cons_lt (by omega) (by omega) fun _ => byte_lead_lt _ _ (by omega) (by omega)

/-- Texts are ordered by their characters, and that is the order of their bytes in UTF-8: where two
characters differ their encodings differ in a byte that both have, so what follows does not matter.
-/
theorem encode_lt_encode {s t : String} (h : s < t) : encode s < encode t := by
  have hlex : List.Lex (· < ·) s.toList t.toList := String.lt_iff.mp h
  unfold encode
  generalize s.toList = cs, t.toList = ds at hlex ⊢
  induction hlex with
  | @nil d ds =>
    obtain ⟨b, bs, hd⟩ := List.exists_cons_of_ne_nil (String.utf8EncodeChar_ne_nil (c := d))
    rw [List.flatMap_cons, hd]
    exact List.nil_lt_cons _ _
  | cons _ ih =>
    rw [List.flatMap_cons, List.flatMap_cons]
    exact List.append_left_lt ih
  | rel hcd =>
    rw [List.flatMap_cons, List.flatMap_cons]
    exact encodeChar_append_lt hcd _ _

end ScanBridge.Text
