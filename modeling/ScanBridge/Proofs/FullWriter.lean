import ScanBridge.Proofs.WrittenRecords

namespace ScanBridge

namespace MatchRecord

def bytes (r : MatchRecord) : Bytes := Text.encode (String.ofList r.toJson.render)

/-- What the text has before a record that these come before. -/
def lead (rs : List MatchRecord) : Bytes := 0x5B :: rs.flatMap fun r => r.bytes ++ [0x2C]

/-- The bytes of the text at their places, and what they belong to. -/
inductive Stands : List MatchRecord → Layer → Nat → UInt8 → Prop
  | opening (rs : List MatchRecord) : Stands rs .array 0 0x5B
  | inside (before : List MatchRecord) {r : MatchRecord} (after : List MatchRecord) {i : Nat}
      {byte : UInt8} (here : r.bytes[i]? = some byte) :
      Stands (before ++ r :: after) .record ((lead before).length + i) byte
  | comma (before : List MatchRecord) (r next : MatchRecord) (after : List MatchRecord) :
      Stands (before ++ r :: next :: after) .array ((lead before).length + r.bytes.length) 0x2C
  | closing (rs : List MatchRecord) :
      Stands rs .array ((Text.encode (text rs)).length - 1) 0x5D

def Piece.owned (p : Piece) : List (Layer × UInt8) := p.bytes.map (p.layer, ·)

@[simp] theorem Piece.length_owned (p : Piece) : p.owned.length = p.bytes.length :=
  List.length_map _

def owned (ps : List Piece) : List (Layer × UInt8) := ps.flatMap Piece.owned

@[simp] theorem owned_nil : owned [] = [] := rfl

@[simp] theorem owned_cons (p : Piece) (ps : List Piece) :
    owned (p :: ps) = p.owned ++ owned ps := List.flatMap_cons

@[simp] theorem owned_append (ps qs : List Piece) : owned (ps ++ qs) = owned ps ++ owned qs :=
  List.flatMap_append

theorem Piece.map_snd_owned (p : Piece) : p.owned.map Prod.snd = p.bytes := by
  rw [owned, List.map_map]
  exact List.map_id _

theorem map_snd_owned (ps : List Piece) : (owned ps).map Prod.snd = ps.flatMap Piece.bytes := by
  rw [owned, List.map_flatMap]
  exact List.flatMap_congr fun p _ => p.map_snd_owned

/-- All that a writer with a limit does is told by the bytes with their layers. -/
theorem writePieces_eq (limit : Nat) (ps : List Piece) :
    writePieces limit ps =
      ⟨((owned ps).take limit).map Prod.snd, (owned ps)[limit]?.map Prod.fst⟩ := by
  induction ps generalizing limit with
  | nil => simp [writePieces]
  | cons p ps ih =>
    rw [writePieces, owned_cons]
    by_cases hfits : p.bytes.length ≤ limit
    · have hwhole : p.owned.length ≤ limit := p.length_owned ▸ hfits
      rw [if_pos hfits, ih, List.take_append, List.take_of_length_le hwhole, List.map_append,
        p.map_snd_owned, List.getElem?_append_right hwhole, p.length_owned]
    · have hcut : limit < p.bytes.length := Nat.lt_of_not_le hfits
      have hshort : limit < p.owned.length := p.length_owned ▸ hcut
      have hlayer : p.owned[limit]?.map Prod.fst = some p.layer := by
        rw [Piece.owned, List.getElem?_map, List.getElem?_eq_getElem hcut]
        rfl
      rw [if_neg hfits, List.take_append_of_le_length hshort.le, List.map_take, p.map_snd_owned,
        List.getElem?_append_left hshort, hlayer]

def following (rs : List MatchRecord) : List Piece :=
  rs.flatMap fun r => [⟨.array, [',']⟩, r.piece]

theorem owned_piece (r : MatchRecord) : r.piece.owned = r.bytes.map (Layer.record, ·) := by
  rw [Piece.owned, bytes, Text.encode, String.toList_ofList]
  rfl

@[simp] theorem owned_opening : Piece.owned ⟨.array, ['[']⟩ = [(.array, 0x5B)] := by decide

@[simp] theorem owned_comma : Piece.owned ⟨.array, [',']⟩ = [(.array, 0x2C)] := by decide

@[simp] theorem owned_closing : Piece.owned ⟨.array, [']']⟩ = [(.array, 0x5D)] := by decide

theorem owned_following_cons (r : MatchRecord) (rs : List MatchRecord) :
    owned (following (r :: rs)) =
      (.array, 0x2C) :: (r.bytes.map (Layer.record, ·) ++ owned (following rs)) := by
  simp [following, owned_piece]

def leading (rs : List MatchRecord) : List Piece :=
  ⟨.array, ['[']⟩ :: rs.flatMap fun r => [r.piece, ⟨.array, [',']⟩]

theorem length_owned_leading (rs : List MatchRecord) :
    (owned (leading rs)).length = (lead rs).length := by
  rw [leading, lead, owned_cons, owned_opening, List.length_append, List.length_cons]
  induction rs with
  | nil => rfl
  | cons r rs ih =>
    simp only [List.flatMap_cons, owned_append, owned_cons, owned_comma, owned_nil, owned_piece,
      List.length_append, List.length_cons, List.length_nil, List.length_map] at ih ⊢
    omega

theorem following_split (before : List MatchRecord) (r : MatchRecord) (after : List MatchRecord) :
    following (before ++ r :: after) =
      ⟨.array, [',']⟩ :: (before.flatMap fun r => [r.piece, ⟨.array, [',']⟩]) ++
        r.piece :: following after := by
  induction before with
  | nil => rfl
  | cons b before ih =>
    rw [following] at ih ⊢
    rw [List.cons_append, List.flatMap_cons, ih]
    rfl

theorem pieces_split (before : List MatchRecord) (r : MatchRecord) (after : List MatchRecord) :
    pieces (before ++ r :: after) =
      leading before ++ (r.piece :: following after ++ [⟨.array, [']']⟩]) := by
  cases before with
  | nil => rfl
  | cons b before =>
    have hfollowing := following_split before r after
    rw [following] at hfollowing
    simp [pieces, separated, hfollowing, leading]

theorem getElem?_owned_pieces (before : List MatchRecord) (r : MatchRecord)
    (after : List MatchRecord) (i : Nat) :
    (owned (pieces (before ++ r :: after)))[(lead before).length + i]? =
      (r.bytes.map (Layer.record, ·) ++ (owned (following after) ++ [(.array, 0x5D)]))[i]? := by
  rw [pieces_split, owned_append, ← length_owned_leading,
    List.getElem?_append_right (Nat.le_add_right _ _), Nat.add_sub_cancel_left]
  simp [owned_piece]

theorem length_owned_pieces (rs : List MatchRecord) :
    (owned (pieces rs)).length = (Text.encode (text rs)).length := by
  rw [← bytes_pieces, ← map_snd_owned, List.length_map]

theorem owned_of_stands {rs : List MatchRecord} {layer : Layer} {i : Nat} {byte : UInt8}
    (h : Stands rs layer i byte) : (owned (pieces rs))[i]? = some (layer, byte) := by
  cases h with
  | opening => simp [pieces]
  | @inside before r after i byte here =>
    have hi : i < (r.bytes.map (Layer.record, ·)).length := by
      rw [List.length_map]
      exact (List.getElem?_eq_some_iff.mp here).1
    rw [getElem?_owned_pieces, List.getElem?_append_left hi, List.getElem?_map, here]
    rfl
  | comma before r next after =>
    rw [getElem?_owned_pieces, owned_following_cons, List.getElem?_append_right (by simp)]
    simp
  | closing =>
    rw [← length_owned_pieces, pieces, owned_append]
    simp

theorem length_lead_snoc (before : List MatchRecord) (r : MatchRecord) :
    (lead (before ++ [r])).length = (lead before).length + r.bytes.length + 1 := by
  simp [lead]
  omega

theorem length_text_snoc (before : List MatchRecord) (r : MatchRecord) :
    (Text.encode (text (before ++ [r]))).length =
      (lead before).length + r.bytes.length + 1 := by
  rw [← length_owned_pieces, pieces_split, owned_append, List.length_append,
    length_owned_leading]
  simp [following, owned_piece, Nat.add_assoc]

theorem exists_stands_from {r : MatchRecord} {after : List MatchRecord} {i : Nat}
    (before : List MatchRecord)
    (h : (lead before).length + i < (Text.encode (text (before ++ r :: after))).length) :
    ∃ layer byte, Stands (before ++ r :: after) layer ((lead before).length + i) byte := by
  -- A place behind the comma is one in the records from the next on, which has one more before it.
  induction after generalizing before r i with
  | nil =>
    have hlength := length_text_snoc before r
    rcases Nat.lt_trichotomy i r.bytes.length with hin | hbound | hbehind
    · exact ⟨_, _, .inside before [] (List.getElem?_eq_getElem hin)⟩
    · have hclosing := Stands.closing (before ++ [r])
      rw [hlength, Nat.add_sub_cancel, ← hbound] at hclosing
      exact ⟨_, _, hclosing⟩
    · omega
  | cons next after ih =>
    rcases Nat.lt_trichotomy i r.bytes.length with hin | hbound | hbehind
    · exact ⟨_, _, .inside before (next :: after) (List.getElem?_eq_getElem hin)⟩
    · have hcomma := Stands.comma before r next after
      rw [← hbound] at hcomma
      exact ⟨_, _, hcomma⟩
    · have hplace : (lead before).length + i =
          (lead (before ++ [r])).length + (i - r.bytes.length - 1) := by
        rw [length_lead_snoc]
        omega
      rw [List.append_cons before r (next :: after), hplace] at h ⊢
      exact ih (before ++ [r]) h

theorem exists_stands {rs : List MatchRecord} {i : Nat}
    (h : i < (Text.encode (text rs)).length) : ∃ layer byte, Stands rs layer i byte := by
  cases i with
  | zero => exact ⟨_, _, .opening rs⟩
  | succ i =>
    cases rs with
    | nil =>
      have hlength : (Text.encode (text [])).length = 2 := by decide
      have hlast : i + 1 = (Text.encode (text [])).length - 1 := by omega
      have hclosing := Stands.closing []
      rw [← hlast] at hclosing
      exact ⟨_, _, hclosing⟩
    | cons r rs =>
      have hplace : i + 1 = (lead []).length + i := Nat.add_comm i 1
      rw [hplace] at h ⊢
      exact exists_stands_from [] h

theorem stands_iff {rs : List MatchRecord} {layer : Layer} {i : Nat} {byte : UInt8} :
    Stands rs layer i byte ↔ (owned (pieces rs))[i]? = some (layer, byte) := by
  refine ⟨owned_of_stands, fun h => ?_⟩
  obtain ⟨hi, -⟩ := List.getElem?_eq_some_iff.mp h
  rw [length_owned_pieces] at hi
  obtain ⟨layer', byte', hstands⟩ := exists_stands hi
  have hsame := owned_of_stands hstands
  rw [h, Option.some.injEq, Prod.mk.injEq] at hsame
  obtain ⟨rfl, rfl⟩ := hsame
  exact hstands

/-- A writer that accepts a number of bytes and then refuses has accepted that many bytes of the
text, or all of it. Writing succeeds where the limit is not below the length of the text, and what
is refused is the layer that the first byte beyond the limit belongs to. Other writes of the same
bytes, each for its own layer, end the same. -/
theorem full_writer_refuses (rs : List MatchRecord) (limit : Nat) :
    let full := Text.encode (text rs)
    (write rs limit).accepted = full.take (min limit full.length) ∧
      ((write rs limit).refused = none ↔ full.length ≤ limit) ∧
      (∀ layer, (write rs limit).refused = some layer ↔ ∃ byte, Stands rs layer limit byte) ∧
      (∀ layer i byte, Stands rs layer i byte → full[i]? = some byte) ∧
      ∀ writes, owned writes = owned (pieces rs) →
        writePieces limit writes = write rs limit := by
  intro full
  have hfull : (owned (pieces rs)).map Prod.snd = full := by rw [map_snd_owned, bytes_pieces]
  have hwrite : write rs limit =
      ⟨full.take limit, (owned (pieces rs))[limit]?.map Prod.fst⟩ := by
    rw [write, writePieces_eq, List.map_take, hfull]
  refine ⟨?_, ?_, ?_, ?_, ?_⟩
  · rw [hwrite, List.take_eq_take_min]
  · rw [hwrite, Option.map_eq_none_iff, List.getElem?_eq_none_iff, length_owned_pieces]
  · intro layer
    simp [hwrite, stands_iff]
  · intro layer i byte hstands
    rw [← hfull, List.getElem?_map, stands_iff.mp hstands]
    rfl
  · intro writes hsame
    rw [write, writePieces_eq, writePieces_eq, hsame]

def Piece.characters (p : Piece) : List Piece := p.text.map fun c => ⟨p.layer, [c]⟩

/-- A comma within a record, and the one between two records. -/
theorem full_writer_refuses_odd :
    let writes := (pieces odd).flatMap Piece.characters
    owned writes = owned (pieces odd) ∧ (writePieces 41 writes).refused = some .record ∧
      (writePieces 235 writes).refused = some .array ∧ ∃ byte, Stands odd .array 235 byte := by
  intro writes
  have hwrites : owned writes = owned (pieces odd) := by decide +kernel
  obtain ⟨_, _, _, _, hwithin⟩ := full_writer_refuses odd 41
  obtain ⟨_, _, hrefused, _, hbetween⟩ := full_writer_refuses odd 235
  have hlayer : (write odd 235).refused = some .array := by decide +kernel
  rw [hwithin writes hwrites, hbetween writes hwrites]
  exact ⟨hwrites, by decide +kernel, hlayer, (hrefused .array).mp hlayer⟩

end MatchRecord

end ScanBridge
