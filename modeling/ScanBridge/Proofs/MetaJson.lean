import ScanBridge.Proofs.JsonSpelled
import ScanBridge.Proofs.WrittenRecords

namespace ScanBridge.MetaValue

open Json (Blank CharText FourDigits CharsText Spells TextOf escapeLetters)

theorem ofJson?_eq_some_iff {j : Json.Value} {m : MetaValue} :
    ofJson? j = some m ↔ j = m.toJson := by
  constructor
  · intro h
    cases j with
    | integer n =>
      simp only [ofJson?] at h
      split at h
      · rename_i hn
        rw [← Option.some.inj h, toJson, Int64.toInt_ofInt_of_le hn.1 (Int.lt_add_one_of_le hn.2)]
      · cases h
    | boolean b => exact Option.some.inj h ▸ rfl
    | string s => exact Option.some.inj h ▸ rfl
    | null => cases h
    | real literal => cases h
    | array items => cases h
    | object members => cases h
  · rintro rfl
    exact m.ofJson?_toJson

theorem ne_toJson {j : Json.Value} (h : ofJson? j = none) (m : MetaValue) : j ≠ m.toJson := by
  intro hm
  rw [ofJson?_eq_some_iff.mpr hm] at h
  cases h

theorem ofJsonText_scalar {text : String} {j : Json.Value}
    (h : Json.tokens text.toList = [.scalar j]) {m : MetaValue} :
    ofJsonText text = .ok m ↔ j = m.toJson := by
  have hread : Json.readValue text = .ok (j, []) := by
    rw [Json.readValue, h]
    rfl
  rw [ofJsonText, hread, ← ofJson?_eq_some_iff]
  cases hj : ofJson? j <;> simp [hj]

theorem ofJsonText_broken {text : String} {inText : Bool} {fault : Json.Fault}
    (h : Json.tokens text.toList = [.broken inText fault]) :
    ofJsonText text = .error (.json fault) := by
  have hread : Json.readValue text = .error fault := by
    rw [Json.readValue, h]
    rfl
  rw [ofJsonText, hread]

theorem ofJsonText_other {text : String} {cs : List Char} (hcs : Json.literalInteger? cs = none)
    (h : Json.tokens text.toList = [Json.numberToken cs.reverse]) (m : MetaValue) :
    ofJsonText text ≠ .ok m := by
  intro hm
  obtain ⟨literal, htoken⟩ | htoken := Json.numberToken_other hcs
  · rw [htoken] at h
    exact ne_toJson rfl m ((ofJsonText_scalar h).mp hm)
  · rw [htoken] at h
    rw [ofJsonText_broken h] at hm
    cases hm

theorem ofJsonText_open {c : Char} (hc : c = '[' ∨ c = '{') {text : String}
    {ws more : List Char} (htext : text.toList = ws ++ c :: more) (hws : Blank ws) (m : MetaValue) :
    ofJsonText text ≠ .ok m := by
  intro hm
  rw [ofJsonText] at hm
  split at hm
  · cases hm
  · rename_i j rest hread
    have hcompound := Json.readValue_open hc htext hws hread
    have hnone : ofJson? j = none := by
      cases j <;> first | rfl | cases hcompound
    rw [hnone] at hm
    cases hm

theorem toJson_eq_integer_iff {n : Int} :
    (∃ m : MetaValue, .integer n = m.toJson) ↔ -2 ^ 63 ≤ n ∧ n ≤ 2 ^ 63 - 1 := by
  constructor
  · rintro ⟨m, hm⟩
    cases m with
    | integer i =>
      obtain rfl := Json.Value.integer.inj hm
      exact ⟨i.le_toInt, Int.le_sub_one_of_lt i.toInt_lt⟩
    | boolean b => cases hm
    | string s => cases hm
  · rintro ⟨hleast, hgreatest⟩
    refine ⟨.integer (.ofInt n), ?_⟩
    rw [toJson, Int64.toInt_ofInt_of_le hleast (Int.lt_of_le_sub_one hgreatest)]

/-- The text of a JSON value is read as the metadata value that is written so, if there is one. -/
theorem ofJsonText_iff {j : Json.Value} {text : String} (h : TextOf j text) (m : MetaValue) :
    ofJsonText text = .ok m ↔ j = m.toJson := by
  obtain @⟨ws, cs, ws', parts, before, spelled, after⟩ := h
  have htext : Json.tokens text.toList = Json.tokensFrom .between (cs ++ ws') := by
    rw [parts, Json.tokens, Json.leads_blank before]
  have hword : ∀ v, Json.tokensFrom .between (cs ++ ws') =
      .scalar v :: Json.tokensFrom .between ws' → Json.tokens text.toList = [.scalar v] := by
    intro v hv
    rw [htext, hv, Json.tokensFrom_blank after]
  have hnumber : (∃ part : Json.NumberPart, part.complete = true ∧
      Json.Leads .between cs (.number part cs.reverse)) →
        Json.tokens text.toList = [Json.numberToken cs.reverse] := by
    rintro ⟨part, hpart, hleads⟩
    rw [htext, hleads, Json.tokensFrom_complete hpart _ after]
  cases spelled with
  | null => exact ofJsonText_scalar (hword _ rfl)
  | true => exact ofJsonText_scalar (hword _ rfl)
  | false => exact ofJsonText_scalar (hword _ rfl)
  | string literal => exact ofJsonText_scalar (hword _ (Json.tokens_string literal ws'))
  | @integer n cs literal =>
    have htoken := hnumber (Json.leads_integer literal)
    by_cases hn : -2 ^ 63 ≤ n ∧ n < 2 ^ 64
    · rw [Json.numberToken_integer literal hn] at htoken
      exact ofJsonText_scalar htoken
    · have hnone : Json.literalInteger? cs = none := by
        rw [Json.literalInteger?_integer literal, if_neg hn]
      refine iff_of_false (ofJsonText_other hnone htoken m) fun hm => hn ?_
      obtain ⟨hleast, hgreatest⟩ := toJson_eq_integer_iff.mp ⟨m, hm⟩
      omega
  | real literal =>
    exact iff_of_false (ofJsonText_other (Json.literalInteger?_real literal)
      (hnumber (Json.leads_real literal)) m) (ne_toJson rfl m)
  | array items =>
    rw [List.cons_append] at parts
    exact iff_of_false (ofJsonText_open (.inl rfl) parts before m) (ne_toJson rfl m)
  | object members =>
    rw [List.cons_append] at parts
    exact iff_of_false (ofJsonText_open (.inr rfl) parts before m) (ne_toJson rfl m)

/-- Nothing is read as a value but the JSON texts of it. -/
theorem textOf_ofJsonText {text : String} {m : MetaValue} (h : ofJsonText text = .ok m) :
    TextOf m.toJson text := by
  unfold ofJsonText at h
  split at h
  · cases h
  rename_i j rest hread
  split at h
  · cases h
  rename_i m' hm
  split at h
  · rename_i hrest
    obtain rfl := Except.ok.inj h
    obtain rfl := ofJson?_eq_some_iff.mp hm
    rw [List.isEmpty_iff.mp hrest] at hread
    apply Json.textOf_readValue hread
    · cases m' <;> rfl
    · cases m' <;> simp [toJson]
  · cases h

theorem ofJsonText_jsonText (v : MetaValue) : ofJsonText v.jsonText = .ok v := by
  have hlex := (v.toJson_exact 0).lexes [] trivial
  have htokens : Json.tokens v.jsonText.toList = [.scalar v.toJson] := by
    rw [List.append_nil] at hlex
    rw [jsonText, String.toList_ofList, Json.tokens, hlex]
    cases v <;> rfl
  exact (ofJsonText_scalar htokens).mpr rfl

/-- The type of a value shows in its text. What was written of a value is read as that value, so
that no two values have a text in common, and a text is read as a value only if it is a JSON text of
it. Of all JSON texts, those of booleans, of strings and of integers of 64 bits with a sign are
read, each as the very value it is the text of; any other, of a larger integer or a number of
another kind, is refused. -/
theorem json_unambiguous :
    (∀ v : MetaValue, ofJsonText v.jsonText = .ok v) ∧
      (∀ v v' : MetaValue, v.jsonText = v'.jsonText → v = v') ∧
      (∀ (text : String) (m : MetaValue), ofJsonText text = .ok m ↔ TextOf m.toJson text) ∧
      ∀ (j : Json.Value) (text : String), TextOf j text →
        (∀ m, ofJsonText text = .ok m ↔ j = m.toJson) ∧
        ((∃ m, ofJsonText text = .ok m) ↔
          (∃ b, j = .boolean b) ∨ (∃ s, j = .string s) ∨
            ∃ n : Int, j = .integer n ∧ -2 ^ 63 ≤ n ∧ n ≤ 2 ^ 63 - 1) := by
  refine ⟨ofJsonText_jsonText, fun v v' he => ?_,
    fun text m => ⟨textOf_ofJsonText, fun h => (ofJsonText_iff h m).mpr rfl⟩,
    fun j text h => ⟨ofJsonText_iff h, ?_⟩⟩
  · have hread := ofJsonText_jsonText v
    rw [he, ofJsonText_jsonText v'] at hread
    exact (Except.ok.inj hread).symm
  · simp only [ofJsonText_iff h]
    constructor
    · rintro ⟨m, rfl⟩
      cases m with
      | integer i => exact .inr (.inr ⟨_, rfl, toJson_eq_integer_iff.mp ⟨.integer i, rfl⟩⟩)
      | boolean b => exact .inl ⟨b, rfl⟩
      | string s => exact .inr (.inl ⟨s, rfl⟩)
    · rintro (⟨b, rfl⟩ | ⟨s, rfl⟩ | ⟨n, rfl, hn⟩)
      · exact ⟨.boolean b, rfl⟩
      · exact ⟨.string s, rfl⟩
      · exact toJson_eq_integer_iff.mpr hn

/-- The texts below are those of the greatest integer, of the one above it, and of a string that
holds a quote, a letter by its number and a pair of surrogates. -/
theorem json_unambiguous_border :
    ofJsonText " 9223372036854775807" = .ok (.integer Int64.maxValue) ∧
      (∀ m, ofJsonText "9223372036854775808\n" ≠ .ok m) ∧
      ofJsonText "\"\\\"\\u0041\\uD83D\\ude00\"" = .ok (.string "\"A😀") := by
  have hnatural : ∀ (c : Char) (cs : List Char), c ≠ '0' → (c :: cs).all Char.isDigit = true →
      Spells (.integer (Nat.ofDigitChars 10 (c :: cs) 0)) (c :: cs) := fun c cs hc hall =>
    .integer (.natural (.digits hc ⟨List.cons_ne_nil c cs, List.all_eq_true.mp hall⟩))
  have hgreatest : TextOf (.integer 9223372036854775807) " 9223372036854775807" :=
    @TextOf.padded _ _ [' '] _ [] rfl (by simp [Blank])
      (hnatural '9' "223372036854775807".toList (by decide) rfl) (List.forall_mem_nil _)
  have habove : TextOf (.integer 9223372036854775808) "9223372036854775808\n" :=
    @TextOf.padded _ _ [] _ ['\n'] rfl (List.forall_mem_nil _)
      (hnatural '9' "223372036854775808".toList (by decide) rfl) (by simp [Blank])
  have hquote : CharText '"' ['\\', '"'] := .letter (by simp [escapeLetters])
  have hnumber : CharText 'A' ['\\', 'u', '0', '0', '4', '1'] :=
    .unit (@FourDigits.digits '0' '0' '4' '1' 0 0 4 1 rfl rfl rfl rfl)
  have hpair : CharText '😀' ['\\', 'u', 'D', '8', '3', 'D', '\\', 'u', 'd', 'e', '0', '0'] :=
    @CharText.pair '😀' ['D', '8', '3', 'D'] ['d', 'e', '0', '0'] (by decide)
      (@FourDigits.digits 'D' '8' '3' 'D' 13 8 3 13 rfl rfl rfl rfl)
      (@FourDigits.digits 'd' 'e' '0' '0' 13 14 0 0 rfl rfl rfl rfl)
  have hchars := CharsText.cons hquote (.cons hnumber (.cons hpair .nil))
  have hescaped : TextOf (.string "\"A😀") "\"\\\"\\u0041\\uD83D\\ude00\"" :=
    @TextOf.padded _ _ [] _ [] rfl (List.forall_mem_nil _) (.string (.quoted hchars))
      (List.forall_mem_nil _)
  refine ⟨?_, fun m hm => ?_, ?_⟩
  · exact ((json_unambiguous.2.2.2 _ _ hgreatest).1 _).mpr rfl
  · have hinteger := ((json_unambiguous.2.2.2 _ _ habove).1 m).mp hm
    have hn := toJson_eq_integer_iff.mp ⟨m, hinteger⟩
    omega
  · exact ((json_unambiguous.2.2.2 _ _ hescaped).1 _).mpr rfl

end ScanBridge.MetaValue
