import Mathlib.Data.List.Infix
import ScanBridge.Proofs.Utf8

namespace ScanBridge.Text

/-- The bytes begin the encoding of a character and do not end it. -/
def Begun (bs : Bytes) : Prop :=
  ∃ c rest, rest ≠ [] ∧ String.utf8EncodeChar c = bs ++ rest

/-- Bytes at the front of which no character is encoded, and those of them that are lost together:
no more than begin an encoding, and a single one if none does. -/
structure Loss (lost rest : Bytes) : Prop where
  malformed : ∀ c, ¬String.utf8EncodeChar c <+: lost ++ rest
  begun : Begun lost ∨ ∃ b, lost = [b]
  nonempty : lost ≠ []
  longest : ∀ more, more ≠ [] → more <+: rest → ¬Begun (lost ++ more)

/-- The pieces that bytes are cut into: the characters encoded there, and the losses between. -/
inductive Cut : Bytes → List (Option Char) → Prop
  | done : Cut [] []
  | kept (c : Char) {rest : Bytes} {ps : List (Option Char)} (behind : Cut rest ps) :
      Cut (String.utf8EncodeChar c ++ rest) (some c :: ps)
  | lost {bad rest : Bytes} {ps : List (Option Char)} (loss : Loss bad rest)
      (behind : Cut rest ps) : Cut (bad ++ rest) (none :: ps)

theorem pieces_encodeChar (c : Char) : pieces (String.utf8EncodeChar c) = [some c] := by
  have hread := piecesFrom_encodeChar c []
  rwa [List.append_nil] at hread

theorem encodeChar_append_inj {c c' : Char} {bs bs' : Bytes}
    (h : String.utf8EncodeChar c ++ bs = String.utf8EncodeChar c' ++ bs') : c = c' ∧ bs = bs' := by
  have hread := congrArg (piecesFrom .boundary) h
  rw [piecesFrom_encodeChar, piecesFrom_encodeChar] at hread
  obtain rfl : c = c' := Option.some.inj (List.cons.inj hread).1
  exact ⟨rfl, List.append_cancel_left h⟩

theorem encodeChar_one {v : Nat} (h : v ≤ 0x7F) :
    String.utf8EncodeChar (Char.ofNat v) = [.ofNat v] := by
  rw [String.utf8EncodeChar, toNat_char (by omega)]
  simp only [if_pos h]

theorem encodeChar_two {v w : Nat} (hv : 2 ≤ v) (hv' : v < 32) (hw : w < 64) :
    String.utf8EncodeChar (Char.ofNat (v * 64 + w)) = [.ofNat (v + 0xC0), .ofNat (w + 0x80)] := by
  rw [String.utf8EncodeChar, toNat_char (by omega)]
  have hlead : (v * 64 + w) / 64 % 32 = v := by omega
  have hlast : (v * 64 + w) % 64 = w := by omega
  simp only [hlead, hlast]
  rw [if_neg (by omega), if_pos (by omega)]

theorem encodeChar_three {v w x : Nat} (hv : v < 16) (hw : w < 64) (hx : x < 64)
    (overlong : v = 0 → 32 ≤ w) (surrogate : v = 0xD → w < 32) :
    String.utf8EncodeChar (Char.ofNat ((v * 64 + w) * 64 + x)) =
      [.ofNat (v + 0xE0), .ofNat (w + 0x80), .ofNat (x + 0x80)] := by
  have hlead : ((v * 64 + w) * 64 + x) / 4096 % 16 = v := by omega
  have hnext : ((v * 64 + w) * 64 + x) / 64 % 64 = w := by omega
  have hlast : ((v * 64 + w) * 64 + x) % 64 = x := by omega
  rw [String.utf8EncodeChar, toNat_char (by omega)]
  simp only [hlead, hnext, hlast]
  rw [if_neg (by omega), if_neg (by omega), if_pos (by omega)]

theorem encodeChar_four {v w x y : Nat} (hv : v ≤ 4) (hw : w < 64) (hx : x < 64) (hy : y < 64)
    (overlong : v = 0 → 16 ≤ w) (beyond : v = 4 → w < 16) :
    String.utf8EncodeChar (Char.ofNat (((v * 64 + w) * 64 + x) * 64 + y)) =
      [.ofNat (v + 0xF0), .ofNat (w + 0x80), .ofNat (x + 0x80), .ofNat (y + 0x80)] := by
  have hlead : (((v * 64 + w) * 64 + x) * 64 + y) / 262144 % 8 = v := by omega
  have hsecond : (((v * 64 + w) * 64 + x) * 64 + y) / 4096 % 64 = w := by omega
  have hthird : (((v * 64 + w) * 64 + x) * 64 + y) / 64 % 64 = x := by omega
  have hlast : (((v * 64 + w) * 64 + x) * 64 + y) % 64 = y := by omega
  rw [String.utf8EncodeChar, toNat_char (by omega)]
  simp only [hlead, hsecond, hthird, hlast]
  rw [if_neg (by omega), if_neg (by omega), if_neg (by omega)]

/-- The bytes read since the last boundary, if there are any, and where the reader stands behind
them. Which byte may come next depends on those read, so that every front of an encoding that goes
on is here and nothing else. -/
inductive Unfinished : Bytes → Progress → Prop
  | ofTwo {v : Nat} (hv : 2 ≤ v) (hv' : v < 32) :
      Unfinished [.ofNat (v + 0xC0)] (.inside v 0x80 0xBF 0)
  | ofThree {v : Nat} (hv : v < 16) :
      Unfinished [.ofNat (v + 0xE0)]
        (.inside v (if v = 0 then 0xA0 else 0x80) (if v = 0xD then 0x9F else 0xBF) 1)
  | twoOfThree {v w : Nat} (hv : v < 16) (hw : w < 64) (overlong : v = 0 → 32 ≤ w)
      (surrogate : v = 0xD → w < 32) :
      Unfinished [.ofNat (v + 0xE0), .ofNat (w + 0x80)] (.inside (v * 64 + w) 0x80 0xBF 0)
  | ofFour {v : Nat} (hv : v ≤ 4) :
      Unfinished [.ofNat (v + 0xF0)]
        (.inside v (if v = 0 then 0x90 else 0x80) (if v = 4 then 0x8F else 0xBF) 2)
  | twoOfFour {v w : Nat} (hv : v ≤ 4) (hw : w < 64) (overlong : v = 0 → 16 ≤ w)
      (beyond : v = 4 → w < 16) :
      Unfinished [.ofNat (v + 0xF0), .ofNat (w + 0x80)] (.inside (v * 64 + w) 0x80 0xBF 1)
  | threeOfFour {v w x : Nat} (hv : v ≤ 4) (hw : w < 64) (hx : x < 64) (overlong : v = 0 → 16 ≤ w)
      (beyond : v = 4 → w < 16) :
      Unfinished [.ofNat (v + 0xF0), .ofNat (w + 0x80), .ofNat (x + 0x80)]
        (.inside ((v * 64 + w) * 64 + x) 0x80 0xBF 0)

theorem advance_cases (code further : Nat) (least greatest : UInt8) (hleast : 0x80 ≤ least.toNat)
    (hgreatest : greatest.toNat ≤ 0xBF) (b : UInt8) :
    (∃ w, w < 64 ∧ b = .ofNat (w + 0x80) ∧ least.toNat ≤ w + 0x80 ∧ w + 0x80 ≤ greatest.toNat ∧
        advance (.inside code least greatest further) b =
          match further with
          | 0 => ([some (Char.ofNat (code * 64 + w))], .boundary)
          | n + 1 => ([], .inside (code * 64 + w) 0x80 0xBF n)) ∨
      advance (.inside code least greatest further) b = (none :: (enter b).1, (enter b).2) := by
  by_cases hin : least ≤ b ∧ b ≤ greatest
  · left
    have hin' := hin
    rw [UInt8.le_iff_toNat_le, UInt8.le_iff_toNat_le] at hin'
    obtain ⟨w, hw⟩ : ∃ w, b.toNat = w + 0x80 := ⟨b.toNat - 0x80, by omega⟩
    obtain rfl : b = .ofNat (w + 0x80) := by rw [← hw, UInt8.ofNat_toNat]
    refine ⟨w, by omega, rfl, by omega, by omega, ?_⟩
    exact advance_inside further (by omega) (by omega) (by omega)
  · right
    simp only [advance, if_neg hin]

namespace Unfinished

variable {seen : Bytes} {p : Progress}

theorem ne_nil (h : Unfinished seen p) : seen ≠ [] := by
  cases h <;> simp

theorem begun (h : Unfinished seen p) : Begun seen := by
  cases h with
  | ofTwo hv hv' =>
    exact ⟨_, [.ofNat (0 + 0x80)], by simp, encodeChar_two hv hv' (by omega)⟩
  | @ofThree v hv =>
    by_cases hzero : v = 0
    · exact ⟨_, [.ofNat (32 + 0x80), .ofNat (0 + 0x80)], by simp,
        encodeChar_three hv (by omega) (by omega) (by omega) (by omega)⟩
    · exact ⟨_, [.ofNat (0 + 0x80), .ofNat (0 + 0x80)], by simp,
        encodeChar_three hv (by omega) (by omega) (by omega) (by omega)⟩
  | twoOfThree hv hw overlong surrogate =>
    exact ⟨_, [.ofNat (0 + 0x80)], by simp, encodeChar_three hv hw (by omega) overlong surrogate⟩
  | @ofFour v hv =>
    by_cases hzero : v = 0
    · exact ⟨_, [.ofNat (16 + 0x80), .ofNat (0 + 0x80), .ofNat (0 + 0x80)], by simp,
        encodeChar_four hv (by omega) (by omega) (by omega) (by omega) (by omega)⟩
    · exact ⟨_, [.ofNat (0 + 0x80), .ofNat (0 + 0x80), .ofNat (0 + 0x80)], by simp,
        encodeChar_four hv (by omega) (by omega) (by omega) (by omega) (by omega)⟩
  | twoOfFour hv hw overlong beyond =>
    exact ⟨_, [.ofNat (0 + 0x80), .ofNat (0 + 0x80)], by simp,
      encodeChar_four hv hw (by omega) (by omega) overlong beyond⟩
  | threeOfFour hv hw hx overlong beyond =>
    exact ⟨_, [.ofNat (0 + 0x80)], by simp, encodeChar_four hv hw hx (by omega) overlong beyond⟩

/-- What a byte does to an encoding that is not over: it completes it, it leads on inside it, or it
is not part of it, which is a loss. -/
theorem advance (h : Unfinished seen p) (b : UInt8) :
    (∃ c, String.utf8EncodeChar c = seen ++ [b] ∧ Text.advance p b = ([some c], .boundary)) ∨
      (∃ p', Unfinished (seen ++ [b]) p' ∧ Text.advance p b = ([], p')) ∨
      Text.advance p b = (none :: (enter b).1, (enter b).2) := by
  cases h with
  | ofTwo hv hv' =>
    rcases advance_cases _ 0 0x80 0xBF (by simp) (by simp) b with ⟨w, hw, rfl, -, -, he⟩ | he
    · exact .inl ⟨_, encodeChar_two hv hv' hw, he⟩
    · exact .inr (.inr he)
  | @ofThree v hv =>
    have hleast : 0x80 ≤ (if v = 0 then 0xA0 else 0x80 : UInt8).toNat := by split <;> simp
    have hgreatest : (if v = 0xD then 0x9F else 0xBF : UInt8).toNat ≤ 0xBF := by split <;> simp
    rcases advance_cases v 1 _ _ hleast hgreatest b with
      ⟨w, hw, rfl, hleast, hgreatest, he⟩ | he
    · refine .inr (.inl ⟨_, .twoOfThree hv hw (fun hzero => ?_) (fun hlast => ?_), he⟩)
      · rw [if_pos hzero] at hleast
        simpa using hleast
      · rw [if_pos hlast] at hgreatest
        simp at hgreatest
        omega
    · exact .inr (.inr he)
  | twoOfThree hv hw overlong surrogate =>
    rcases advance_cases _ 0 0x80 0xBF (by simp) (by simp) b with ⟨x, hx, rfl, -, -, he⟩ | he
    · exact .inl ⟨_, encodeChar_three hv hw hx overlong surrogate, he⟩
    · exact .inr (.inr he)
  | @ofFour v hv =>
    have hleast : 0x80 ≤ (if v = 0 then 0x90 else 0x80 : UInt8).toNat := by split <;> simp
    have hgreatest : (if v = 4 then 0x8F else 0xBF : UInt8).toNat ≤ 0xBF := by split <;> simp
    rcases advance_cases v 2 _ _ hleast hgreatest b with
      ⟨w, hw, rfl, hleast, hgreatest, he⟩ | he
    · refine .inr (.inl ⟨_, .twoOfFour hv hw (fun hzero => ?_) (fun hlast => ?_), he⟩)
      · rw [if_pos hzero] at hleast
        simpa using hleast
      · rw [if_pos hlast] at hgreatest
        simp at hgreatest
        omega
    · exact .inr (.inr he)
  | twoOfFour hv hw overlong beyond =>
    rcases advance_cases _ 1 0x80 0xBF (by simp) (by simp) b with ⟨x, hx, rfl, -, -, he⟩ | he
    · exact .inr (.inl ⟨_, .threeOfFour hv hw hx overlong beyond, he⟩)
    · exact .inr (.inr he)
  | threeOfFour hv hw hx overlong beyond =>
    rcases advance_cases _ 0 0x80 0xBF (by simp) (by simp) b with ⟨y, hy, rfl, -, -, he⟩ | he
    · exact .inl ⟨_, encodeChar_four hv hw hx hy overlong beyond, he⟩
    · exact .inr (.inr he)

end Unfinished

theorem enter_cases (b : UInt8) :
    (∃ c, String.utf8EncodeChar c = [b] ∧ enter b = ([some c], .boundary)) ∨
      (∃ p, Unfinished [b] p ∧ enter b = ([], p)) ∨ enter b = ([none], .boundary) := by
  have hbyte : ∀ {v}, v = b.toNat → b = .ofNat v := by
    rintro v rfl
    exact UInt8.ofNat_toNat.symm
  by_cases hone : b.toNat < 0x80
  · left
    refine ⟨Char.ofNat b.toNat, ?_, by rw [enter_eq, if_pos hone]⟩
    rw [encodeChar_one (by omega), ← hbyte rfl]
  right
  by_cases htwo : 0xC2 ≤ b.toNat ∧ b.toNat ≤ 0xDF
  · left
    obtain ⟨v, hv⟩ : ∃ v, v + 0xC0 = b.toNat := ⟨b.toNat - 0xC0, by omega⟩
    rw [hbyte hv]
    exact ⟨_, .ofTwo (by omega) (by omega), enter_two (by omega) (by omega)⟩
  by_cases hthree : 0xE0 ≤ b.toNat ∧ b.toNat ≤ 0xEF
  · left
    obtain ⟨v, hv⟩ : ∃ v, v + 0xE0 = b.toNat := ⟨b.toNat - 0xE0, by omega⟩
    rw [hbyte hv]
    exact ⟨_, .ofThree (by omega), enter_three (by omega)⟩
  by_cases hfour : 0xF0 ≤ b.toNat ∧ b.toNat ≤ 0xF4
  · left
    obtain ⟨v, hv⟩ : ∃ v, v + 0xF0 = b.toNat := ⟨b.toNat - 0xF0, by omega⟩
    rw [hbyte hv]
    exact ⟨_, .ofFour (by omega), enter_four (by omega)⟩
  · right
    rw [enter_eq, if_neg hone, if_neg htwo, if_neg (by omega), if_neg (by omega),
      if_neg (by omega), if_neg (by omega), if_neg (by omega), if_neg (by omega)]

structure Stands (seen : Bytes) (p : Progress) : Prop where
  place : seen = [] ∧ p = .boundary ∨ Unfinished seen p
  reads : ∀ rest, pieces (seen ++ rest) = piecesFrom p rest

namespace Stands

variable {seen : Bytes} {p : Progress}

theorem boundary : Stands [] .boundary := ⟨.inl ⟨rfl, rfl⟩, fun _ => rfl⟩

theorem further (h : Stands seen p) {b : UInt8} {p' : Progress} (hp' : Unfinished (seen ++ [b]) p')
    (he : advance p b = ([], p')) : Stands (seen ++ [b]) p' where
  place := .inr hp'
  reads rest := by
    rw [List.append_assoc, List.singleton_append, h.reads, piecesFrom_cons, he, List.nil_append]

end Stands

theorem Loss.of_pieces {lost rest : Bytes} (begun : Begun lost ∨ ∃ b, lost = [b])
    (nonempty : lost ≠ []) (whole : ∃ ps, pieces (lost ++ rest) = none :: ps)
    (further : ∀ more, more ≠ [] → more <+: rest → ∀ behind,
      ∃ ps, pieces (lost ++ (more ++ behind)) = none :: ps) : Loss lost rest where
  begun := begun
  nonempty := nonempty
  malformed := by
    rintro c ⟨behind, he⟩
    obtain ⟨ps, hps⟩ := whole
    rw [← he, pieces, piecesFrom_encodeChar] at hps
    cases hps
  longest := by
    rintro more hmore hahead ⟨c, behind, -, he⟩
    obtain ⟨ps, hps⟩ := further more hmore hahead behind
    rw [← List.append_assoc, ← he, pieces_encodeChar] at hps
    cases hps

theorem Unfinished.cut_end {seen : Bytes} {p : Progress} (h : Unfinished seen p)
    (hreads : ∀ rest, pieces (seen ++ rest) = piecesFrom p rest) :
    Cut (seen ++ []) (piecesFrom p []) := by
  have hend : piecesFrom p [] = [none] := by cases h <;> rfl
  rw [hend]
  refine .lost (.of_pieces (.inl h.begun) h.ne_nil ⟨[], ?_⟩ ?_) .done
  · rw [hreads, hend]
  · intro more hmore hahead
    exact absurd (List.prefix_nil.mp hahead) hmore

/-- Where the reader stands, it cuts what it has seen and what is still to come. The byte that ends
a loss is the first one behind it, which is why the boundary comes before the other places. -/
theorem Stands.cut {seen : Bytes} {p : Progress} (bs : Bytes) (h : Stands seen p) :
    Cut (seen ++ bs) (piecesFrom p bs) := by
  induction bs generalizing seen p with
  | nil =>
    rcases h.place with ⟨rfl, rfl⟩ | hp
    · exact .done
    · exact hp.cut_end h.reads
  | cons b bs ih =>
    have hboundary : Cut (b :: bs) (piecesFrom .boundary (b :: bs)) := by
      rw [piecesFrom_cons]
      rcases enter_cases b with ⟨c, hc, he⟩ | ⟨p', hp', he⟩ | he
      · have hkept := Cut.kept c (ih .boundary)
        rw [hc] at hkept
        rw [advance.eq_1, he]
        exact hkept
      · have hcut := ih (Stands.boundary.further hp' he)
        rw [advance.eq_1, he]
        exact hcut
      · have hread : ∀ rest, pieces ([b] ++ rest) = none :: pieces rest := by
          intro rest
          rw [pieces, List.singleton_append, piecesFrom_cons, advance.eq_1, he]
          rfl
        have hloss : Loss [b] bs := .of_pieces (.inr ⟨b, rfl⟩) (by simp) ⟨_, hread bs⟩
          fun more _ _ behind => ⟨_, hread (more ++ behind)⟩
        rw [advance.eq_1, he]
        exact .lost hloss (ih .boundary)
    rcases h.place with ⟨rfl, rfl⟩ | hp
    · exact hboundary
    rcases hp.advance b with ⟨c, hc, he⟩ | ⟨p', hp', he⟩ | he
    · have hkept := Cut.kept c (ih .boundary)
      rw [hc, List.append_assoc] at hkept
      rw [piecesFrom_cons, he]
      exact hkept
    · have hcut := ih (h.further hp' he)
      rw [List.append_assoc] at hcut
      rw [piecesFrom_cons, he]
      exact hcut
    · have hread : ∀ rest, pieces (seen ++ b :: rest) = none :: pieces (b :: rest) := by
        intro rest
        rw [h.reads, piecesFrom_cons, he]
        rfl
      have hloss : Loss seen (b :: bs) := by
        refine .of_pieces (.inl hp.begun) hp.ne_nil ⟨_, hread bs⟩ ?_
        intro more hmore hahead behind
        obtain ⟨b', more, rfl⟩ := List.exists_cons_of_ne_nil hmore
        obtain rfl := (List.cons_prefix_cons.mp hahead).1
        exact ⟨_, hread (more ++ behind)⟩
      have hlost := Cut.lost hloss hboundary
      rw [piecesFrom_cons, he]
      exact hlost

theorem cut_pieces (bs : Bytes) : Cut bs (pieces bs) := Stands.boundary.cut bs

theorem Loss.not_longer {lost rest more : Bytes} (h : Loss lost rest) (hahead : more <+: rest)
    {rest' : Bytes} (h' : Loss (lost ++ more) rest') : more = [] := by
  by_contra hmore
  rcases h'.begun with hbegun | ⟨b, hb⟩
  · exact h.longest more hmore hahead hbegun
  · rcases List.append_eq_singleton_iff.mp hb with ⟨hlost, -⟩ | ⟨-, hnil⟩
    · exact h.nonempty hlost
    · exact hmore hnil

theorem Loss.unique {lost rest lost' rest' : Bytes} (h : Loss lost rest) (h' : Loss lost' rest')
    (he : lost ++ rest = lost' ++ rest') : lost = lost' ∧ rest = rest' := by
  rcases List.append_eq_append_iff.mp he with ⟨more, rfl, rfl⟩ | ⟨more, rfl, rfl⟩
  · obtain rfl := h.not_longer (List.prefix_append ..) h'
    simp
  · obtain rfl := h'.not_longer (List.prefix_append ..) h
    simp

theorem Cut.inv {bs : Bytes} {ps : List (Option Char)} (h : Cut bs ps) :
    (bs = [] ∧ ps = []) ∨
      (∃ c rest qs, bs = String.utf8EncodeChar c ++ rest ∧ ps = some c :: qs ∧ Cut rest qs) ∨
      ∃ bad rest qs, bs = bad ++ rest ∧ ps = none :: qs ∧ Loss bad rest ∧ Cut rest qs := by
  cases h with
  | done => exact .inl ⟨rfl, rfl⟩
  | kept c behind => exact .inr (.inl ⟨c, _, _, rfl, rfl, behind⟩)
  | lost loss behind => exact .inr (.inr ⟨_, _, _, rfl, rfl, loss, behind⟩)

/-- There is one way to cut. -/
theorem Cut.unique {bs : Bytes} {ps ps' : List (Option Char)} (h : Cut bs ps) (h' : Cut bs ps') :
    ps' = ps := by
  induction h generalizing ps' with
  | done =>
    rcases h'.inv with ⟨-, rfl⟩ | ⟨c, rest, qs, he, -, -⟩ | ⟨bad, rest, qs, he, -, hloss, -⟩
    · rfl
    · exact absurd (List.nil_eq_append_iff.mp he).1 String.utf8EncodeChar_ne_nil
    · exact absurd (List.nil_eq_append_iff.mp he).1 hloss.nonempty
  | @kept c rest ps behind ih =>
    rcases h'.inv with ⟨he, -⟩ | ⟨c', rest', qs, he, rfl, hqs⟩ | ⟨bad, rest', qs, he, -, hloss, -⟩
    · exact absurd (List.append_eq_nil_iff.mp he).1 String.utf8EncodeChar_ne_nil
    · obtain ⟨rfl, rfl⟩ := encodeChar_append_inj he
      rw [ih hqs]
    · exact absurd ⟨rest, he⟩ (hloss.malformed c)
  | @lost bad rest ps loss behind ih =>
    rcases h'.inv with ⟨he, -⟩ | ⟨c, rest', qs, he, -, -⟩ | ⟨bad', rest', qs, he, rfl, hloss, hqs⟩
    · exact absurd (List.append_eq_nil_iff.mp he).1 loss.nonempty
    · exact absurd ⟨rest', he.symm⟩ (loss.malformed c)
    · obtain ⟨rfl, rfl⟩ := loss.unique hloss he
      rw [ih hqs]

theorem Cut.encoded {bs : Bytes} {ps : List (Option Char)} (h : Cut bs ps) {c : Char}
    (hc : some c ∈ ps) : String.utf8EncodeChar c <:+: bs := by
  induction h with
  | done => simp at hc
  | kept d behind ih =>
    rcases List.mem_cons.mp hc with hfirst | hc
    · obtain rfl := Option.some.inj hfirst
      exact (List.prefix_append ..).isInfix
    · exact (ih hc).trans (List.suffix_append ..).isInfix
  | lost loss behind ih =>
    have hrest : some c ∈ _ := (List.mem_cons.mp hc).resolve_left (by simp)
    exact (ih hrest).trans (List.suffix_append ..).isInfix

theorem toList_decodeLossy (bs : Bytes) :
    (decodeLossy bs).toList = (pieces bs).map (·.getD '\uFFFD') := by
  rw [decodeLossy, String.toList_ofList]

theorem mem_decodeLossy {bs : Bytes} {c : Char} (h : c ∈ (decodeLossy bs).toList) :
    c = '\uFFFD' ∨ String.utf8EncodeChar c <:+: bs := by
  rw [toList_decodeLossy] at h
  obtain ⟨piece, hpiece, rfl⟩ := List.mem_map.mp h
  cases piece with
  | none => exact .inl rfl
  | some c => exact .inr ((cut_pieces bs).encoded hpiece)

theorem zero_notMem_takeWhile (bs : Bytes) : 0 ∉ bs.takeWhile (· != 0) := by
  intro hzero
  have hne := List.mem_takeWhile_imp hzero
  simp at hne

theorem nul_notMem_ofTerminated (bs : Bytes) : '\x00' ∉ (ofTerminated (some bs)).toList := by
  intro hnul
  rcases mem_decodeLossy hnul with hsame | hencoded
  · simp at hsame
  · apply zero_notMem_takeWhile bs
    apply hencoded.subset
    simp [String.utf8EncodeChar]

/-- Text is read of the bytes before the first NUL, of none where there is no address. These bytes
are cut in the one way there is; the characters encoded in them are kept, in order, and each loss
shows as one replacement. So a character other than the replacement is read only where its own
encoding stands, text that is well-formed is read unchanged, and what was read can be handed out and
read again. -/
theorem terminated_text_exact (bs : Bytes) :
    let before := bs.takeWhile (· != 0)
    let text := ofTerminated (some bs)
    ofTerminated none = "" ∧
      (∀ front behind, 0 ∉ front → bs = front ++ 0 :: behind → before = front) ∧
      (∃ ps, (∀ qs, Cut before qs ↔ qs = ps) ∧ text.toList = ps.map (·.getD '\uFFFD')) ∧
      (∀ c ∈ text.toList, c = '\uFFFD' ∨ String.utf8EncodeChar c <:+: before) ∧
      '\x00' ∉ text.toList ∧
      (∀ s, before = encode s → text = s) ∧
      ofTerminated (some (toTerminated text)) = text := by
  intro before text
  refine ⟨rfl, ?_, ⟨pieces before, ?_, toList_decodeLossy before⟩, ?_, nul_notMem_ofTerminated bs,
    ?_, ofTerminated_toTerminated (nul_notMem_ofTerminated bs)⟩
  · intro front behind hfront hbs
    have hkept : front.takeWhile (· != 0) = front :=
      List.takeWhile_eq_self_iff.mpr fun b hb => bne_iff_ne.mpr fun he => hfront (he ▸ hb)
    simp only [before, hbs, List.takeWhile_append, hkept]
    simp
  · intro qs
    exact ⟨(cut_pieces before).unique, fun h => h ▸ cut_pieces before⟩
  · intro c hc
    exact mem_decodeLossy hc
  · intro s hs
    calc text = decodeLossy before := rfl
      _ = s := by rw [hs, decodeLossy_encode]

/-- An encoding cut short, an overlong form, a surrogate and a number beyond the last character. -/
theorem terminated_text_exact_broken :
    let front : Bytes := [0x41, 0xF0, 0x9F, 0x92, 0x41, 0xC0, 0x80, 0xED, 0xA0, 0x80, 0xF4, 0x90,
      0x80, 0x80, 0xC3, 0xA9, 0xE2, 0x82]
    let bs := front ++ 0 :: [0x42]
    let text := "A\uFFFDA\uFFFD\uFFFD\uFFFD\uFFFD\uFFFD\uFFFD\uFFFD\uFFFD\uFFFDé\uFFFD"
    0 ∉ front ∧ bs.takeWhile (· != 0) = front ∧ ofTerminated (some bs) = text ∧
      ('é' ∈ text.toList ∧ String.utf8EncodeChar 'é' <:+: front) ∧
      ofTerminated (some (toTerminated text)) = text := by
  intro front bs text
  have hfront : 0 ∉ front := by decide
  have htext : ofTerminated (some bs) = text := by decide
  obtain ⟨-, hbefore, -, hencoded, -, -, hagain⟩ := terminated_text_exact bs
  have htaken := hbefore front [0x42] hfront rfl
  rw [htext, htaken] at hencoded
  rw [htext] at hagain
  have hchar : 'é' ∈ text.toList := by decide
  exact ⟨hfront, htaken, htext, ⟨hchar, (hencoded 'é' hchar).resolve_left (by decide)⟩, hagain⟩

end ScanBridge.Text
