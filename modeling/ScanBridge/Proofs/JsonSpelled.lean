import ScanBridge.Proofs.JsonGrammar
import ScanBridge.Proofs.Utf8

namespace ScanBridge.Json

/-- A step inside of a token that does not complete it, whether the text goes on being JSON or
stops. -/
inductive Step.Silent : Step → Prop
  | into {next : Reading} (inside : next ≠ .between) : Silent (.into next)
  | stop (inText : Bool) (fault : Fault) : Silent (.stop inText fault)

theorem Step.into_inj {state next : Reading} : Step.into state = Step.into next ↔ state = next := by
  simp [Step.into]

section Spelled

variable {state : Reading} {c : Char} {cs done : List Char} {v : Value} {ts : List Token}

theorem Step.Silent.leads (hstep : (state.step c cs).Silent)
    (h : tokensFrom state (c :: cs) = .scalar v :: ts) :
    ∃ next, state.step c cs = .into next ∧ tokensFrom next cs = .scalar v :: ts := by
  generalize hs : state.step c cs = step at hstep
  cases hstep with
  | @into next inside => exact ⟨next, rfl, by rwa [tokensFrom_into next hs] at h⟩
  | stop inText fault => simp [tokensFrom, hs, Step.stop] at h

theorem hexValue?_lt {d : Nat} (h : Text.hexValue? c = some d) : d < 16 := by
  unfold Text.hexValue? at h
  split at h
  · rename_i hc
    have hlast : c.toNat ≤ 57 := (Char.isDigit_iff_toNat.mp hc).2
    have hfirst : '0'.toNat = 48 := rfl
    obtain rfl := Option.some.inj h
    omega
  split at h
  · rename_i hc
    have hlast : c.toNat ≤ 102 := hc.2
    have hfirst : 'a'.toNat = 97 := rfl
    obtain rfl := Option.some.inj h
    omega
  split at h
  · rename_i hc
    have hlast : c.toNat ≤ 70 := hc.2
    have hfirst : 'A'.toNat = 65 := rfl
    obtain rfl := Option.some.inj h
    omega
  · cases h

theorem FourDigits.lt {n : Nat} (h : FourDigits n cs) : n < 0x10000 := by
  obtain ⟨ha, hb, hc, hd⟩ := h
  have ha := hexValue?_lt ha
  have hb := hexValue?_lt hb
  have hc := hexValue?_lt hc
  have hd := hexValue?_lt hd
  omega

theorem closeUnit_silent (done : List Char) (high : Option Nat) (value : Nat) :
    (closeUnit done high value).Silent := by
  unfold closeUnit
  split
  · split
    · exact .stop _ _
    · split <;> exact .into (by simp)
  · split
    · exact .into (by simp)
    · exact .stop _ _

theorem digit_spelled {high : Option Nat} {value count : Nat}
    (h : tokensFrom (.unit done high value count) cs = .scalar v :: ts) :
    ∃ c d rest next, cs = c :: rest ∧ Text.hexValue? c = some d ∧
      (if count = 3 then closeUnit done high (16 * value + d)
        else .into (.unit done high (16 * value + d) (count + 1))) = .into next ∧
      tokensFrom next rest = .scalar v :: ts := by
  cases cs with
  | nil => cases h
  | cons c rest =>
    have hsilent : ((Reading.unit done high value count).step c rest).Silent := by
      simp only [Reading.step]
      split
      · split
        · exact closeUnit_silent _ _ _
        · exact .into (by simp)
      · exact .stop _ _
    obtain ⟨next, hnext, h⟩ := hsilent.leads h
    simp only [Reading.step] at hnext
    split at hnext
    · rename_i d hd
      exact ⟨c, d, rest, next, rfl, hd, hnext, h⟩
    · cases hnext

theorem fourDigits_spelled {high : Option Nat}
    (h : tokensFrom (.unit done high 0 0) cs = .scalar v :: ts) :
    ∃ n ds rest next, FourDigits n ds ∧ cs = ds ++ rest ∧ closeUnit done high n = .into next ∧
      tokensFrom next rest = .scalar v :: ts := by
  obtain ⟨a, i, rest, next, rfl, ha, hnext, h⟩ := digit_spelled h
  rw [if_neg (by decide), Step.into_inj] at hnext
  subst hnext
  obtain ⟨b, j, rest, next, rfl, hb, hnext, h⟩ := digit_spelled h
  rw [if_neg (by decide), Step.into_inj] at hnext
  subst hnext
  obtain ⟨c, k, rest, next, rfl, hc, hnext, h⟩ := digit_spelled h
  rw [if_neg (by decide), Step.into_inj] at hnext
  subst hnext
  obtain ⟨d, l, rest, next, rfl, hd, hnext, h⟩ := digit_spelled h
  rw [if_pos rfl] at hnext
  refine ⟨_, [a, b, c, d], rest, next, .digits ha hb hc hd, rfl, ?_, h⟩
  simpa using hnext

theorem unescape?_eq_some {l c : Char} (h : unescape? l = some c) : (l, c) ∈ escapeLetters := by
  unfold unescape? at h
  split at h
  case h_9 => cases h
  all_goals
    obtain rfl := Option.some.inj h
    simp [escapeLetters]

theorem lead_spelled {x : Char} {next : Reading} {inText : Bool}
    (hfinish : state.finish ≠ .scalar v :: ts)
    (hstep : ∀ c cs, state.step c cs = if c = x then .into next else .stop inText .malformed)
    (h : tokensFrom state cs = .scalar v :: ts) :
    ∃ rest, cs = x :: rest ∧ tokensFrom next rest = .scalar v :: ts := by
  cases cs with
  | nil => exact absurd h hfinish
  | cons c cs =>
    have hc := hstep c cs
    split at hc
    · rename_i hx
      rw [tokensFrom_into next hc] at h
      exact ⟨cs, by rw [hx], h⟩
    · simp [tokensFrom, hc, Step.stop] at h

theorem pair_spelled {n : Nat} {ds : List Char} (hn : FourDigits n ds) (hleast : 0xD800 ≤ n)
    (hgreatest : n ≤ 0xDBFF) (h : tokensFrom (.pair done n) cs = .scalar v :: ts) :
    ∃ c text rest, CharText c ('\\' :: 'u' :: (ds ++ text)) ∧ cs = text ++ rest ∧
      tokensFrom (.text (c :: done)) rest = .scalar v :: ts := by
  obtain ⟨rest, rfl, hslash⟩ := lead_spelled (by simp [Reading.finish]) (fun _ _ => rfl) h
  obtain ⟨rest, rfl, hletter⟩ := lead_spelled (by simp [Reading.finish]) (fun _ _ => rfl) hslash
  obtain ⟨m, es, rest, next, hm, rfl, hclose, hrest⟩ := fourDigits_spelled hletter
  simp only [closeUnit] at hclose
  split at hclose
  · rename_i hlow
    rw [Step.into_inj] at hclose
    subst hclose
    have hnumber : (Char.ofNat (0x10000 + (n - 0xD800) * 0x400 + (m - 0xDC00))).toNat =
        0x10000 + (n - 0xD800) * 0x400 + (m - 0xDC00) := Text.toNat_char (by omega)
    refine ⟨_, '\\' :: 'u' :: es, rest, .pair ?_ ?_ ?_, rfl, hrest⟩
    · omega
    · rw [hnumber]
      convert hn using 1
      omega
    · rw [hnumber]
      convert hm using 1
      omega
  · cases hclose

theorem escape_spelled (h : tokensFrom (.escape done) cs = .scalar v :: ts) :
    ∃ c text rest, CharText c ('\\' :: text) ∧ cs = text ++ rest ∧
      tokensFrom (.text (c :: done)) rest = .scalar v :: ts := by
  cases cs with
  | nil => cases h
  | cons l cs =>
    have hsilent : ((Reading.escape done).step l cs).Silent := by
      simp only [Reading.step]
      split
      · exact .into (by simp)
      · split
        · exact .into (by simp)
        · exact .stop _ _
    obtain ⟨next, hnext, h⟩ := hsilent.leads h
    simp only [Reading.step] at hnext
    split at hnext
    · rename_i hl
      subst hl
      rw [Step.into_inj] at hnext
      subst hnext
      obtain ⟨n, ds, rest, next, hn, rfl, hclose, h⟩ := fourDigits_spelled h
      have hlt := hn.lt
      simp only [closeUnit] at hclose
      split at hclose
      · cases hclose
      rename_i hlow
      split at hclose
      · rename_i hhigh
        rw [Step.into_inj] at hclose
        subst hclose
        obtain ⟨c, text, more, hc, rfl, hmore⟩ := pair_spelled hn hhigh.1 hhigh.2 h
        exact ⟨c, 'u' :: (ds ++ text), more, hc, by simp, hmore⟩
      · rename_i hhigh
        rw [Step.into_inj] at hclose
        subst hclose
        have hnumber : (Char.ofNat n).toNat = n := Text.toNat_char (by omega)
        rw [← hnumber] at hn
        exact ⟨Char.ofNat n, 'u' :: ds, rest, .unit hn, rfl, h⟩
    · split at hnext
      · rename_i c hc
        rw [Step.into_inj] at hnext
        subst hnext
        exact ⟨c, [l], cs, .letter (unescape?_eq_some hc), rfl, h⟩
      · cases hnext

theorem char_spelled (h : tokensFrom (.text done) cs = .scalar v :: ts) :
    (∃ rest, cs = '"' :: rest ∧ v = .string (String.ofList done.reverse) ∧
        tokensFrom .between rest = ts) ∨
      ∃ c text rest, CharText c text ∧ text ≠ [] ∧ cs = text ++ rest ∧
        tokensFrom (.text (c :: done)) rest = .scalar v :: ts := by
  cases cs with
  | nil => cases h
  | cons c cs =>
    by_cases hquote : c = '"'
    · subst hquote
      rw [tokensFrom_token (t := .scalar (.string (String.ofList done.reverse)))
        (by simp [Reading.step])] at h
      simp only [List.cons.injEq, Token.scalar.injEq] at h
      exact .inl ⟨cs, rfl, h.1.symm, h.2⟩
    right
    have hsilent : ((Reading.text done).step c cs).Silent := by
      simp only [Reading.step, if_neg hquote]
      split
      · exact .into (by simp)
      · split
        · exact .stop _ _
        · exact .into (by simp)
    obtain ⟨next, hnext, h⟩ := hsilent.leads h
    simp only [Reading.step, if_neg hquote] at hnext
    split at hnext
    · rename_i hbackslash
      subst hbackslash
      rw [Step.into_inj] at hnext
      subst hnext
      obtain ⟨c, text, rest, hc, rfl, hrest⟩ := escape_spelled h
      exact ⟨c, '\\' :: text, rest, hc, List.cons_ne_nil _ _, rfl, hrest⟩
    · rename_i hbackslash
      split at hnext
      · cases hnext
      · rename_i hvisible
        rw [Step.into_inj] at hnext
        subst hnext
        exact ⟨c, [c], cs, .itself (by omega) hquote hbackslash, List.cons_ne_nil _ _, rfl, h⟩

theorem text_spelled (h : tokensFrom (.text done) cs = .scalar v :: ts) :
    ∃ chars text rest, CharsText chars text ∧ cs = text ++ '"' :: rest ∧
      v = .string (String.ofList (done.reverse ++ chars)) ∧ tokensFrom .between rest = ts := by
  induction hn : cs.length using Nat.strongRecOn generalizing cs done with
  | ind n ih =>
    rcases char_spelled h with ⟨rest, hcs, hv, hrest⟩ | ⟨c, text, rest, hc, htext, hcs, hrest⟩
    · exact ⟨[], [], rest, .nil, hcs, by rwa [List.append_nil], hrest⟩
    · have hless : rest.length < n := by
        have hpos := List.length_pos_iff.mpr htext
        rw [← hn, hcs, List.length_append]
        omega
      obtain ⟨chars, texts, more, hchars, hrest', hv, hmore⟩ := ih _ hless hrest rfl
      refine ⟨c :: chars, text ++ texts, more, .cons hc hchars, ?_, ?_, hmore⟩
      · rw [hcs, hrest', List.append_assoc]
      · rw [hv, List.reverse_cons, List.append_assoc, List.singleton_append]

theorem word_spelled {word : List Char} {w : Value} (hword : word ≠ [])
    (h : tokensFrom (.word word w) cs = .scalar v :: ts) :
    v = w ∧ ∃ rest, cs = word ++ rest ∧ tokensFrom .between rest = ts := by
  induction word generalizing cs with
  | nil => exact absurd rfl hword
  | cons d more ih =>
    cases more with
    | nil =>
      cases cs with
      | nil => cases h
      | cons c cs =>
        have hstep : (Reading.word [d] w).step c cs =
            if c = d then .token (.scalar w) else .stop false .malformed := rfl
        split at hstep
        · rename_i hc
          rw [tokensFrom_token hstep] at h
          obtain ⟨hv, hts⟩ := List.cons.inj h
          exact ⟨(Token.scalar.inj hv).symm, cs, by rw [hc]; rfl, hts⟩
        · simp [tokensFrom, hstep, Step.stop] at h
    | cons e more =>
      obtain ⟨rest, rfl, hrest⟩ := lead_spelled (by simp [Reading.finish]) (fun _ _ => rfl) h
      obtain ⟨hv, rest, rfl, hts⟩ := ih (List.cons_ne_nil e more) hrest
      exact ⟨hv, rest, rfl, hts⟩

/-- A literal up to where the lexer stands in it. Of one that is no integer any more only a
character that shows it is kept. -/
inductive Partial : NumberPart → List Char → Prop
  | sign : Partial .sign ['-']
  | zero {sign : List Char} (hsign : sign ∈ [[], ['-']]) : Partial .zero (sign ++ ['0'])
  | whole {sign : List Char} {c : Char} {cs : List Char} (hsign : sign ∈ [[], ['-']])
      (nonzero : c ≠ '0') (all : Digits (c :: cs)) : Partial .whole (sign ++ c :: cs)
  | other {part : NumberPart} {c : Char} {cs : List Char}
      (hpart : part ∉ [.sign, .zero, .whole]) (hmem : c ∈ cs) (hsign : c ≠ '-')
      (hdigit : c.isDigit = false) : Partial part cs

/-- The ways to go on within a number: into zero, over the digits of its whole part, or where it is
no integer any more. -/
theorem NumberPart.within_cases {part next : NumberPart} (h : part.step c = .within next) :
    (part = .sign ∧ c = '0' ∧ next = .zero) ∨
      (c.isDigit = true ∧ (part = .sign ∧ c ≠ '0' ∨ part = .whole) ∧ next = .whole) ∨
      next ∉ [.sign, .zero, .whole] ∧
        (part ∉ [.sign, .zero, .whole] ∨ c = '.' ∨ isMark c = true) := by
  cases part <;> simp only [NumberPart.step] at h <;> split_ifs at h <;> cases h <;> simp_all

theorem Partial.within {part next : NumberPart} {literal : List Char} (h : Partial part literal)
    (hstep : part.step c = .within next) : Partial next (literal ++ [c]) := by
  rcases NumberPart.within_cases hstep with ⟨rfl, rfl, rfl⟩ | ⟨hc, hpart, rfl⟩ | ⟨hnext, hshown⟩
  · cases h with
    | sign => exact @zero ['-'] (by simp)
    | other hpart => simp at hpart
  · rcases hpart with ⟨rfl, hzero⟩ | rfl
    · cases h with
      | sign => exact @whole ['-'] c [] (by simp) hzero ⟨by simp, by simpa using hc⟩
      | other hpart => simp at hpart
    · cases h with
      | @whole sign d cs hsign nonzero all =>
        rw [List.append_assoc, List.cons_append]
        refine .whole hsign nonzero ⟨by simp, fun x hx => ?_⟩
        rw [← List.cons_append, List.mem_append] at hx
        rcases hx with hx | hx
        · exact all.2 x hx
        · rwa [List.mem_singleton.mp hx]
      | other hpart => simp at hpart
  · rcases hshown with hpart | hc
    · cases h with
      | other hpart hmem hsign hdigit =>
        exact .other hnext (List.mem_append_left _ hmem) hsign hdigit
      | _ => simp at hpart
    · refine .other hnext (List.mem_append_right _ (List.mem_singleton.mpr rfl)) ?_ ?_
      · rintro rfl
        simp [isMark] at hc
      · simp only [isMark, Bool.or_eq_true, decide_eq_true_eq] at hc
        rcases hc with rfl | rfl | rfl <;> rfl

theorem Partial.integer {part : NumberPart} {literal : List Char} {n : Int}
    (h : Partial part literal) (hpart : part.complete = true)
    (hn : literalInteger? literal = some n) : IntegerText n literal := by
  have hvalue : ∀ k, IntegerText k literal → IntegerText n literal := by
    intro k hk
    rw [literalInteger?_integer hk] at hn
    split at hn
    · exact Option.some.inj hn ▸ hk
    · cases hn
  cases h with
  | sign => cases hpart
  | zero hsign =>
    simp only [List.mem_cons, List.not_mem_nil, or_false] at hsign
    rcases hsign with rfl | rfl
    · exact hvalue _ (.natural .zero)
    · cases hn
  | whole hsign nonzero all =>
    simp only [List.mem_cons, List.not_mem_nil, or_false] at hsign
    rcases hsign with rfl | rfl
    · exact hvalue _ (.natural (.digits nonzero all))
    · exact hvalue _ (.negative (.digits nonzero all) (by simp [nonzero]))
  | other _ hmem hsign hdigit =>
    rw [literalInteger?_eq_none hmem hsign hdigit] at hn
    cases hn

theorem NumberPart.complete_of_beyond {part : NumberPart} (h : part.step c = .beyond) :
    part.complete = true := by
  cases part <;> simp only [NumberPart.step] at h <;> split_ifs at h <;> rfl

theorem tokensFrom_beyond {part : NumberPart} (literal : List Char) (h : part.step c = .beyond) :
    tokensFrom (.number part literal) (c :: cs) =
      numberToken literal :: tokensFrom .between (c :: cs) := by
  cases hnext : (begin c).next <;> simp [tokensFrom, Reading.step, h, hnext]

theorem number_spelled {part : NumberPart} {literal : List Char} (hp : Partial part literal.reverse)
    (h : tokensFrom (.number part literal) cs = .scalar v :: ts) :
    ∃ text rest last, cs = text ++ rest ∧ Partial last (literal.reverse ++ text) ∧
      last.complete = true ∧ numberToken (literal.reverse ++ text).reverse = .scalar v ∧
      tokensFrom .between rest = ts := by
  -- The literal grows from character to character, and `Partial` says of it where the lexer stands.
  induction cs generalizing part literal with
  | nil =>
    by_cases hpart : part.complete = true
    · simp only [tokensFrom, Reading.finish, hpart, if_true, List.cons.injEq] at h
      refine ⟨[], [], part, rfl, by rwa [List.append_nil], hpart, ?_, h.2⟩
      rw [List.append_nil, List.reverse_reverse]
      exact h.1
    · simp [tokensFrom, Reading.finish, hpart] at h
  | cons c cs ih =>
    cases hstep : part.step c with
    | within next =>
      rw [tokensFrom_into (.number next (c :: literal)) (by simp [Reading.step, hstep])] at h
      have hp' : Partial next (c :: literal).reverse := by
        rw [List.reverse_cons]
        exact hp.within hstep
      obtain ⟨text, rest, last, rfl, hlast, hcomplete, htoken, hts⟩ := ih hp' h
      rw [List.reverse_cons, List.append_assoc, List.singleton_append] at hlast htoken
      exact ⟨c :: text, rest, last, rfl, hlast, hcomplete, htoken, hts⟩
    | beyond =>
      rw [tokensFrom_beyond literal hstep, List.cons.injEq] at h
      refine ⟨[], c :: cs, part, rfl, by rwa [List.append_nil],
        NumberPart.complete_of_beyond hstep, ?_, h.2⟩
      rw [List.append_nil, List.reverse_reverse]
      exact h.1
    | refused => simp [tokensFrom, Reading.step, hstep, Step.stop] at h

theorem numberToken_cases (h : numberToken cs.reverse = .scalar v) :
    (∃ n, literalInteger? cs = some n ∧ v = .integer n) ∨ ∃ literal, v = .real literal := by
  rw [numberToken, List.reverse_reverse, literalValue?] at h
  split at h
  · rename_i w hw
    obtain rfl := Token.scalar.inj h
    split at hw
    · rename_i n hn
      exact .inl ⟨n, hn, (Option.some.inj hw).symm⟩
    · split at hw
      · cases hw
      · exact .inr ⟨_, (Option.some.inj hw).symm⟩
  · cases h

/-- A token goes back to a text of its value with only blanks before it. Numbers of other kinds than
integer are left aside. -/
theorem scalar_spelled (h : tokensFrom .between cs = .scalar v :: ts) :
    (∃ literal, v = .real literal) ∨ ∃ ws text rest, Blank ws ∧ Spells v text ∧
      cs = ws ++ (text ++ rest) ∧ tokensFrom .between rest = ts := by
  -- The induction is on the blanks before the token; any other character decides what it is.
  induction cs with
  | nil => cases h
  | cons c cs ih =>
    have hword : ∀ {d : Char} {word : List Char} {w : Value}, Spells w (d :: word) → word ≠ [] →
        c = d → tokensFrom (.word word w) cs = .scalar v :: ts →
          ∃ ws text rest, Blank ws ∧ Spells v text ∧ c :: cs = ws ++ (text ++ rest) ∧
            tokensFrom .between rest = ts := by
      rintro d word w hspells hne rfl hread
      obtain ⟨rfl, rest, rfl, hts⟩ := word_spelled hne hread
      exact ⟨[], c :: word, rest, List.forall_mem_nil _, hspells, rfl, hts⟩
    have hnumber : ∀ {part : NumberPart}, Partial part [c] →
        tokensFrom (.number part [c]) cs = .scalar v :: ts →
          (∃ literal, v = .real literal) ∨ ∃ ws text rest, Blank ws ∧ Spells v text ∧
            c :: cs = ws ++ (text ++ rest) ∧ tokensFrom .between rest = ts := by
      intro part hp hread
      obtain ⟨text, rest, last, rfl, hlast, hcomplete, htoken, hts⟩ := number_spelled hp hread
      rcases numberToken_cases htoken with ⟨n, hn, rfl⟩ | hreal
      · exact .inr ⟨[], c :: text, rest, List.forall_mem_nil _,
          .integer (hlast.integer hcomplete hn), rfl, hts⟩
      · exact .inl hreal
    have hstep : Reading.between.step c cs = begin c := rfl
    unfold begin at hstep
    split at hstep
    · rename_i hblank
      rw [tokensFrom_into _ hstep] at h
      refine (ih h).imp_right ?_
      rintro ⟨ws, text, rest, hws, hspells, rfl, hts⟩
      exact ⟨c :: ws, text, rest, blank_cons.mpr ⟨hblank, hws⟩, hspells, rfl, hts⟩
    split at hstep
    · rw [tokensFrom_token hstep] at h
      cases h
    split at hstep
    · rename_i hquote
      rw [tokensFrom_into _ hstep] at h
      obtain ⟨chars, text, rest, hchars, rfl, rfl, hts⟩ := text_spelled h
      refine .inr ⟨[], '"' :: (text ++ ['"']), rest, List.forall_mem_nil _,
        .string (.quoted ?_), by simp [hquote], hts⟩
      simpa using hchars
    split at hstep
    · rename_i hc
      rw [tokensFrom_into _ hstep] at h
      exact .inr (hword .true (List.cons_ne_nil _ _) hc h)
    split at hstep
    · rename_i hc
      rw [tokensFrom_into _ hstep] at h
      exact .inr (hword .false (List.cons_ne_nil _ _) hc h)
    split at hstep
    · rename_i hc
      rw [tokensFrom_into _ hstep] at h
      exact .inr (hword .null (List.cons_ne_nil _ _) hc h)
    split at hstep
    · rename_i hc
      rw [tokensFrom_into _ hstep] at h
      exact hnumber (hc ▸ .sign) h
    split at hstep
    · rename_i hc
      rw [tokensFrom_into _ hstep] at h
      exact hnumber (hc ▸ @Partial.zero [] (by simp)) h
    rename_i hzero
    split at hstep
    · rename_i hc
      rw [tokensFrom_into _ hstep] at h
      exact hnumber (@Partial.whole [] c [] (by simp) hzero ⟨by simp, by simpa using hc⟩) h
    · simp [tokensFrom, hstep, Step.stop] at h

/-- A step that completes a token or leads inside of one. -/
inductive Step.Tells : Step → Prop
  | into {next : Reading} (h : next ≠ .between) : Tells (.into next)
  | makes {step : Step} (h : step.tokens ≠ []) : Tells step

theorem Step.Tells.token (t : Token) : (Step.token t).Tells := .makes (List.cons_ne_nil _ _)

theorem Step.Tells.stop (inText : Bool) (fault : Fault) : (Step.stop inText fault).Tells :=
  .makes (List.cons_ne_nil _ _)

theorem Step.Silent.tells {step : Step} (h : step.Silent) : step.Tells := by
  cases h with
  | into inside => exact .into inside
  | stop inText fault => exact .stop inText fault

theorem begin_tells (h : isBlank c = false) : (begin c).Tells := by
  unfold begin
  rw [if_neg (by simp [h])]
  split
  · exact .token _
  split
  · exact .into (by simp)
  split
  · exact .into (by simp)
  split
  · exact .into (by simp)
  split
  · exact .into (by simp)
  split
  · exact .into (by simp)
  split
  · exact .into (by simp)
  split
  · exact .into (by simp)
  · exact .stop _ _

/-- Inside of a token every character tells something. -/
theorem step_tells (h : state ≠ .between) (c : Char) (cs : List Char) :
    (state.step c cs).Tells := by
  unfold Reading.step
  split
  case h_1 => exact absurd rfl h
  -- Inside of a string, and behind a backslash in one.
  case h_2 =>
    split
    · exact .token _
    split
    · exact .into (by simp)
    split
    · exact .stop _ _
    · exact .into (by simp)
  case h_3 =>
    split
    · exact .into (by simp)
    split
    · exact .into (by simp)
    · exact .stop _ _
  -- The four digits of a unit.
  case h_4 =>
    split
    · split
      · exact (closeUnit_silent _ _ _).tells
      · exact .into (by simp)
    · exact .stop _ _
  -- Inside of a word.
  case h_7 => exact .stop _ _
  case h_8 =>
    split
    · exact .token _
    · exact .stop _ _
  -- Inside of a number.
  case h_10 =>
    split
    · exact .into (by simp)
    · exact .stop _ _
    · exact .makes (List.cons_ne_nil _ _)
  -- Where one character leads on.
  all_goals
    split
    · exact .into (by simp)
    · exact .stop _ _

theorem Step.Tells.tokensFrom_ne_nil (h : (state.step c cs).Tells)
    (hmore : ∀ next, next ≠ .between → tokensFrom next cs ≠ []) :
    tokensFrom state (c :: cs) ≠ [] := by
  generalize hs : state.step c cs = step at h
  cases h with
  | @into next hnext =>
    rw [tokensFrom_into next hs]
    exact hmore next hnext
  | makes h =>
    rw [tokensFrom, hs]
    cases step.next <;> simp [h]

theorem tokensFrom_ne_nil (h : state ≠ .between) : tokensFrom state cs ≠ [] := by
  induction cs generalizing state with
  | nil =>
    cases state with
    | between => exact absurd rfl h
    | number part literal =>
      by_cases hpart : part.complete = true <;> simp [tokensFrom, Reading.finish, hpart]
    | _ => simp [tokensFrom, Reading.finish]
  | cons c cs ih => exact (step_tells h c cs).tokensFrom_ne_nil fun next hnext => ih hnext

theorem blank_of_tokensFrom (h : tokensFrom .between cs = []) : Blank cs := by
  induction cs with
  | nil => exact List.forall_mem_nil _
  | cons c cs ih =>
    by_cases hblank : isBlank c = true
    · rw [tokensFrom_into .between (by simp [Reading.step, begin, hblank])] at h
      exact blank_cons.mpr ⟨hblank, ih h⟩
    · have htells : (Reading.between.step c cs).Tells :=
        begin_tells (Bool.eq_false_iff.mpr hblank)
      exact absurd h (htells.tokensFrom_ne_nil fun next hnext => tokensFrom_ne_nil hnext)

/-- What is read of a whole text is a text of the value, unless it is a number of another kind than
integer, or an array or object. -/
theorem textOf_readValue {text : String} (h : readValue text = .ok (v, []))
    (hscalar : v.isCompound = false) (hreal : ∀ literal, v ≠ .real literal) : TextOf v text := by
  rcases readFrom_value h with hcompound | htokens
  · rw [hscalar] at hcompound
    cases hcompound
  · rcases scalar_spelled htokens with ⟨literal, hv⟩ | ⟨ws, cs, rest, hws, hspells, hparts, hrest⟩
    · exact absurd hv (hreal literal)
    · exact .padded hparts hws hspells (blank_of_tokensFrom hrest)

end Spelled

end ScanBridge.Json
