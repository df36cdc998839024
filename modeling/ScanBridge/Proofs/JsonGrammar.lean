import Mathlib.Tactic.Common
import ScanBridge.Proofs.JsonText

namespace ScanBridge.Json

def Blank (cs : List Char) : Prop := ∀ c ∈ cs, c ∈ [' ', '\t', '\n', '\r']

def Digits (cs : List Char) : Prop := cs ≠ [] ∧ ∀ c ∈ cs, c.isDigit = true

inductive Whole : List Char → Prop
  | zero : Whole ['0']
  | digits {c : Char} {cs : List Char} (nonzero : c ≠ '0') (all : Digits (c :: cs)) :
      Whole (c :: cs)

inductive Fraction : List Char → Prop
  | missing : Fraction []
  | digits {cs : List Char} (all : Digits cs) : Fraction ('.' :: cs)

inductive Power : List Char → Prop
  | missing : Power []
  | digits {mark : Char} {sign cs : List Char} (hmark : mark = 'e' ∨ mark = 'E')
      (hsign : sign ∈ [[], ['+'], ['-']]) (all : Digits cs) : Power (mark :: (sign ++ cs))

/-- An integer of any length. There is no negative zero among them. -/
inductive IntegerText : Int → List Char → Prop
  | natural {cs : List Char} (whole : Whole cs) : IntegerText (Nat.ofDigitChars 10 cs 0) cs
  | negative {cs : List Char} (whole : Whole cs) (nonzero : cs ≠ ['0']) :
      IntegerText (-(Nat.ofDigitChars 10 cs 0 : Int)) ('-' :: cs)

/-- A number that is no integer: negative zero, or one with a fraction or a power of ten. -/
inductive RealText : List Char → Prop
  | negativeZero : RealText ['-', '0']
  | real {sign cs fs ps : List Char} (hsign : sign ∈ [[], ['-']]) (whole : Whole cs)
      (fraction : Fraction fs) (power : Power ps) (present : fs ++ ps ≠ []) :
      RealText (sign ++ (cs ++ (fs ++ ps)))

inductive FourDigits : Nat → List Char → Prop
  | digits {a b c d : Char} {i j k l : Nat} (first : Text.hexValue? a = some i)
      (second : Text.hexValue? b = some j) (third : Text.hexValue? c = some k)
      (fourth : Text.hexValue? d = some l) :
      FourDigits (16 * (16 * (16 * i + j) + k) + l) [a, b, c, d]

def escapeLetters : List (Char × Char) :=
  [('"', '"'), ('\\', '\\'), ('/', '/'), ('b', '\x08'), ('f', '\x0c'), ('n', '\n'), ('r', '\r'),
    ('t', '\t')]

/-- The ways to write a character inside a string. Surrogates stand for a character in pairs only,
and no character has the number of one. -/
inductive CharText : Char → List Char → Prop
  | itself {c : Char} (visible : 0x20 ≤ c.toNat) (quote : c ≠ '"') (backslash : c ≠ '\\') :
      CharText c [c]
  | letter {l c : Char} (short : (l, c) ∈ escapeLetters) : CharText c ['\\', l]
  | unit {c : Char} {cs : List Char} (number : FourDigits c.toNat cs) :
      CharText c ('\\' :: 'u' :: cs)
  | pair {c : Char} {cs ds : List Char} (beyond : 0xFFFF < c.toNat)
      (high : FourDigits (0xD800 + (c.toNat - 0x10000) / 0x400) cs)
      (low : FourDigits (0xDC00 + (c.toNat - 0x10000) % 0x400) ds) :
      CharText c ('\\' :: 'u' :: (cs ++ '\\' :: 'u' :: ds))

inductive CharsText : List Char → List Char → Prop
  | nil : CharsText [] []
  | cons {c : Char} {cs text texts : List Char} (first : CharText c text)
      (rest : CharsText cs texts) : CharsText (c :: cs) (text ++ texts)

inductive StringText : String → List Char → Prop
  | quoted {s : String} {text : List Char} (chars : CharsText s.toList text) :
      StringText s ('"' :: (text ++ ['"']))

mutual

/-- The texts of a value, without blanks around it. -/
inductive Spells : Value → List Char → Prop
  | null : Spells .null ['n', 'u', 'l', 'l']
  | true : Spells (.boolean true) ['t', 'r', 'u', 'e']
  | false : Spells (.boolean false) ['f', 'a', 'l', 's', 'e']
  | integer {n : Int} {cs : List Char} (literal : IntegerText n cs) : Spells (.integer n) cs
  | real {cs : List Char} (literal : RealText cs) : Spells (.real (String.ofList cs)) cs
  | string {s : String} {cs : List Char} (literal : StringText s cs) : Spells (.string s) cs
  | array {vs : List Value} {cs : List Char} (items : SpellsItems vs cs) :
      Spells (.array vs) ('[' :: (cs ++ [']']))
  | object {ms : List (String × Value)} {cs : List Char} (members : SpellsMembers ms cs) :
      Spells (.object ms) ('{' :: (cs ++ ['}']))

inductive SpellsItems : List Value → List Char → Prop
  | none {ws : List Char} (blank : Blank ws) : SpellsItems [] ws
  | last {v : Value} {cs ws ws' : List Char} (item : Spells v cs) (before : Blank ws)
      (after : Blank ws') : SpellsItems [v] (ws ++ (cs ++ ws'))
  | more {v w : Value} {vs : List Value} {cs ds ws ws' : List Char} (item : Spells v cs)
      (before : Blank ws) (after : Blank ws') (others : SpellsItems (w :: vs) ds) :
      SpellsItems (v :: w :: vs) (ws ++ (cs ++ (ws' ++ ',' :: ds)))

inductive SpellsMembers : List (String × Value) → List Char → Prop
  | none {ws : List Char} (blank : Blank ws) : SpellsMembers [] ws
  | last {k : String} {v : Value} {ks cs ws ws' vs vs' : List Char} (key : StringText k ks)
      (item : Spells v cs) (beforeKey : Blank ws) (afterKey : Blank ws') (before : Blank vs)
      (after : Blank vs') :
      SpellsMembers [(k, v)] (ws ++ (ks ++ (ws' ++ ':' :: (vs ++ (cs ++ vs')))))
  | more {k : String} {v : Value} {m : String × Value} {ms : List (String × Value)}
      {ks cs ds ws ws' vs vs' : List Char} (key : StringText k ks) (item : Spells v cs)
      (beforeKey : Blank ws) (afterKey : Blank ws') (before : Blank vs) (after : Blank vs')
      (others : SpellsMembers (m :: ms) ds) :
      SpellsMembers ((k, v) :: m :: ms)
        (ws ++ (ks ++ (ws' ++ ':' :: (vs ++ (cs ++ (vs' ++ ',' :: ds))))))

end

/-- A JSON text: a value with blanks around it. -/
inductive TextOf (v : Value) (text : String) : Prop
  | padded {ws cs ws' : List Char} (parts : text.toList = ws ++ (cs ++ ws')) (before : Blank ws)
      (spelled : Spells v cs) (after : Blank ws') : TextOf v text

/-- The lexer goes from one state to another behind these characters and completes no token,
whatever comes behind them, so that the parts of a literal are put together one after the other. -/
def Leads (state : Reading) (cs : List Char) (next : Reading) : Prop :=
  ∀ rest, tokensFrom state (cs ++ rest) = tokensFrom next rest

namespace Leads

variable {state next last : Reading} {c : Char} {cs ds : List Char}

theorem nil (state : Reading) : Leads state [] state := fun _ => rfl

theorem append (h : Leads state cs next) (h' : Leads next ds last) :
    Leads state (cs ++ ds) last := by
  intro rest
  rw [List.append_assoc, h, h']

theorem cons (next : Reading) (h : ∀ rest, state.step c rest = .into next)
    (h' : Leads next cs last) : Leads state (c :: cs) last := by
  intro rest
  rw [List.cons_append, tokensFrom_into next (h _), h']

theorem single (h : ∀ rest, state.step c rest = .into next) : Leads state [c] next :=
  .cons next h (.nil next)

end Leads

theorem isBlank_iff {c : Char} : isBlank c = true ↔ c ∈ [' ', '\t', '\n', '\r'] := by
  simp only [isBlank, Bool.or_eq_true, decide_eq_true_eq, List.mem_cons, List.not_mem_nil,
    or_false]
  tauto

theorem blank_cons {c : Char} {ws : List Char} :
    Blank (c :: ws) ↔ isBlank c = true ∧ Blank ws := by
  rw [isBlank_iff]
  exact List.forall_mem_cons

theorem leads_blank {ws : List Char} (h : Blank ws) : Leads .between ws .between := by
  induction ws with
  | nil => exact .nil _
  | cons c ws ih =>
    obtain ⟨hc, hws⟩ := blank_cons.mp h
    apply Leads.cons .between _ (ih hws)
    intro rest
    simp [Reading.step, begin, hc]

theorem leads_fourDigits {n : Nat} {cs : List Char} (h : FourDigits n cs) {done : List Char}
    {high : Option Nat} {next : Reading} (hclose : closeUnit done high n = .into next) :
    Leads (.unit done high 0 0) cs next := by
  obtain ⟨ha, hb, hc, hd⟩ := h
  apply Leads.cons (.unit done high _ 1)
  · intro rest
    simp only [Reading.step, ha]
    rfl
  apply Leads.cons (.unit done high _ 2)
  · intro rest
    simp only [Reading.step, hb]
    rfl
  apply Leads.cons (.unit done high _ 3)
  · intro rest
    simp only [Reading.step, hc]
    rfl
  apply Leads.single
  intro rest
  simp only [Reading.step, hd, if_true]
  simpa using hclose

theorem leads_char {c : Char} {text : List Char} (h : CharText c text) (done : List Char) :
    Leads (.text done) text (.text (c :: done)) := by
  have hescape : ∀ rest, (Reading.text done).step '\\' rest = .into (.escape done) := by
    intro rest
    simp [Reading.step]
  have hunit : ∀ rest, (Reading.escape done).step 'u' rest = .into (.unit done none 0 0) := by
    intro rest
    simp [Reading.step]
  cases h with
  | itself visible quote backslash =>
    refine .single fun rest => ?_
    have hvisible : ¬c.toNat < 0x20 := by omega
    simp [Reading.step, quote, backslash, hvisible]
  | @letter l c short =>
    refine .cons _ hescape (.single fun rest => ?_)
    simp only [escapeLetters, List.mem_cons, Prod.mk.injEq, List.not_mem_nil, or_false] at short
    rcases short with ⟨rfl, rfl⟩ | ⟨rfl, rfl⟩ | ⟨rfl, rfl⟩ | ⟨rfl, rfl⟩ | ⟨rfl, rfl⟩ | ⟨rfl, rfl⟩ |
      ⟨rfl, rfl⟩ | ⟨rfl, rfl⟩ <;> simp [Reading.step, unescape?]
  | unit number =>
    refine .cons _ hescape (.cons _ hunit (leads_fourDigits number ?_))
    have hvalid : c.toNat < 0xD800 ∨ 0xDFFF < c.toNat ∧ c.toNat < 0x110000 := c.valid
    simp only [closeUnit]
    rw [if_neg (by omega), if_neg (by omega), Char.ofNat_toNat]
  | @pair c cs ds beyond high low =>
    have hvalid : c.toNat < 0xD800 ∨ 0xDFFF < c.toNat ∧ c.toNat < 0x110000 := c.valid
    have hhigh : closeUnit done none (0xD800 + (c.toNat - 0x10000) / 0x400) =
        .into (.pair done (0xD800 + (c.toNat - 0x10000) / 0x400)) := by
      simp only [closeUnit]
      rw [if_neg (by omega), if_pos (by omega)]
    have hlow : closeUnit done (some (0xD800 + (c.toNat - 0x10000) / 0x400))
        (0xDC00 + (c.toNat - 0x10000) % 0x400) = .into (.text (c :: done)) := by
      have hnumber : 0x10000 + (0xD800 + (c.toNat - 0x10000) / 0x400 - 0xD800) * 0x400 +
          (0xDC00 + (c.toNat - 0x10000) % 0x400 - 0xDC00) = c.toNat := by omega
      simp only [closeUnit]
      rw [if_pos (by omega), hnumber, Char.ofNat_toNat]
    refine .cons _ hescape (.cons _ hunit ((leads_fourDigits high hhigh).append ?_))
    refine .cons (.pairUnit done (0xD800 + (c.toNat - 0x10000) / 0x400)) ?_ (.cons _ ?_
      (leads_fourDigits low hlow))
    · intro rest
      simp [Reading.step]
    · intro rest
      simp [Reading.step]

theorem leads_chars {cs text : List Char} (h : CharsText cs text) (done : List Char) :
    Leads (.text done) text (.text (cs.reverse ++ done)) := by
  induction h generalizing done with
  | nil => exact .nil _
  | @cons c cs text texts first rest ih =>
    rw [List.reverse_cons, List.append_assoc, List.singleton_append]
    exact (leads_char first done).append (ih (c :: done))

theorem tokens_string {s : String} {cs : List Char} (h : StringText s cs) (rest : List Char) :
    tokensFrom .between (cs ++ rest) = .scalar (.string s) :: tokensFrom .between rest := by
  obtain ⟨chars⟩ := h
  have hread := leads_chars chars [] ('"' :: rest)
  have hclose : tokensFrom (.text s.toList.reverse) ('"' :: rest) =
      .scalar (.string s) :: tokensFrom .between rest :=
    tokensFrom_token (by simp [Reading.step])
  rw [List.append_nil, hclose] at hread
  rw [List.cons_append, List.append_assoc, List.singleton_append,
    tokensFrom_into (.text []) (by rfl), hread]

theorem NumberPart.isWhole_iff {part : NumberPart} :
    part.isWhole = true ↔ part = .zero ∨ part = .whole := by
  simp [isWhole]

theorem NumberPart.complete_of_isWhole {part : NumberPart} (h : part.isWhole = true) :
    part.complete = true := by
  rcases isWhole_iff.mp h with rfl | rfl <;> rfl

theorem leads_digits {part next : NumberPart}
    (hfirst : ∀ c, c.isDigit = true → part.step c = .within next)
    (hmore : ∀ c, c.isDigit = true → next.step c = .within next) {cs : List Char} (h : Digits cs)
    (literal : List Char) :
    Leads (.number part literal) cs (.number next (cs.reverse ++ literal)) := by
  obtain ⟨hne, hall⟩ := h
  induction cs generalizing part literal with
  | nil => exact absurd rfl hne
  | cons c cs ih =>
    obtain ⟨hc, hcs⟩ := List.forall_mem_cons.mp hall
    have hread : ∀ rest, (Reading.number part literal).step c rest =
        .into (.number next (c :: literal)) := by
      intro rest
      simp [Reading.step, hfirst c hc]
    rw [List.reverse_cons, List.append_assoc, List.singleton_append]
    by_cases hnil : cs = []
    · subst hnil
      exact .single hread
    · exact .cons _ hread (ih hmore (c :: literal) hnil hcs)

theorem leads_whole {cs : List Char} (h : Whole cs) :
    ∃ part : NumberPart, part.isWhole = true ∧ Leads .between cs (.number part cs.reverse) ∧
      ∀ literal, Leads (.number .sign literal) cs (.number part (cs.reverse ++ literal)) := by
  cases h with
  | zero => exact ⟨.zero, rfl, .single fun _ => rfl, fun literal => .single fun _ => rfl⟩
  | @digits c cs nonzero all =>
    obtain ⟨hc, hcs⟩ := List.forall_mem_cons.mp all.2
    have hmore : ∀ literal,
        Leads (.number .whole literal) cs (.number .whole (cs.reverse ++ literal)) := by
      intro literal
      by_cases hnil : cs = []
      · subst hnil
        exact .nil _
      · exact leads_digits (fun d hd => by simp [NumberPart.step, hd])
          (fun d hd => by simp [NumberPart.step, hd]) ⟨hnil, hcs⟩ literal
    refine ⟨.whole, rfl, ?_, fun literal => ?_⟩
    · rw [List.reverse_cons]
      exact .cons _ (fun _ => begin_digit hc nonzero) (hmore [c])
    · rw [List.reverse_cons, List.append_assoc, List.singleton_append]
      exact .cons _ (fun _ => by simp [Reading.step, NumberPart.step, nonzero, hc]) (hmore _)

theorem leads_signed {sign cs : List Char} (hsign : sign ∈ [[], ['-']]) (h : Whole cs) :
    ∃ part : NumberPart, part.isWhole = true ∧
      Leads .between (sign ++ cs) (.number part (sign ++ cs).reverse) := by
  obtain ⟨part, hpart, hplain, hnegative⟩ := leads_whole h
  simp only [List.mem_cons, List.not_mem_nil, or_false] at hsign
  rcases hsign with rfl | rfl
  · exact ⟨part, hpart, hplain⟩
  · rw [List.reverse_append]
    exact ⟨part, hpart, .cons _ (fun _ => rfl) (hnegative ['-'])⟩

theorem leads_fraction {part : NumberPart} (hpart : part.isWhole = true) {fs : List Char}
    (h : Fraction fs) (literal : List Char) :
    ∃ next : NumberPart, (next.isWhole = true ∨ next = .fraction) ∧
      Leads (.number part literal) fs (.number next (fs.reverse ++ literal)) := by
  cases h with
  | missing => exact ⟨part, .inl hpart, .nil _⟩
  | @digits cs all =>
    have hpoint : ∀ rest, (Reading.number part literal).step '.' rest =
        .into (.number .point ('.' :: literal)) := by
      intro rest
      rcases NumberPart.isWhole_iff.mp hpart with rfl | rfl <;> rfl
    have hdigits : Leads (.number .point ('.' :: literal)) cs
        (.number .fraction (cs.reverse ++ '.' :: literal)) :=
      leads_digits (fun d hd => by simp [NumberPart.step, hd])
        (fun d hd => by simp [NumberPart.step, hd]) all _
    rw [List.reverse_cons, List.append_assoc, List.singleton_append]
    exact ⟨.fraction, .inr rfl, .cons _ hpoint hdigits⟩

theorem leads_power {part : NumberPart} (hpart : part.isWhole = true ∨ part = .fraction)
    {ps : List Char} (h : Power ps) (literal : List Char) :
    ∃ next : NumberPart, next.complete = true ∧
      Leads (.number part literal) ps (.number next (ps.reverse ++ literal)) := by
  cases h with
  | missing =>
    refine ⟨part, ?_, .nil _⟩
    rcases hpart with hpart | rfl
    · exact NumberPart.complete_of_isWhole hpart
    · rfl
  | @digits mark sign cs hmark hsign all =>
    have hread : ∀ rest, (Reading.number part literal).step mark rest =
        .into (.number .mark (mark :: literal)) := by
      intro rest
      rw [NumberPart.isWhole_iff] at hpart
      rcases hpart with (rfl | rfl) | rfl <;> rcases hmark with rfl | rfl <;> rfl
    have hmore : ∀ d, d.isDigit = true → NumberPart.exponent.step d = .within .exponent :=
      fun d hd => by simp [NumberPart.step, hd]
    have hsigned : ∀ s, s = '+' ∨ s = '-' →
        Leads (.number .mark (mark :: literal)) (s :: cs)
          (.number .exponent ((s :: cs).reverse ++ mark :: literal)) := by
      intro s hs
      rw [List.reverse_cons, List.append_assoc, List.singleton_append]
      refine .cons (.number .markSign (s :: mark :: literal)) (fun rest => ?_)
        (leads_digits (fun d hd => by simp [NumberPart.step, hd]) hmore all _)
      rcases hs with rfl | rfl <;> rfl
    have hpower : Leads (.number .mark (mark :: literal)) (sign ++ cs)
        (.number .exponent ((sign ++ cs).reverse ++ mark :: literal)) := by
      simp only [List.mem_cons, List.not_mem_nil, or_false] at hsign
      rcases hsign with rfl | rfl | rfl
      · exact leads_digits (fun d hd => by simp [NumberPart.step, hd]) hmore all _
      · exact hsigned '+' (.inl rfl)
      · exact hsigned '-' (.inr rfl)
    rw [List.reverse_cons, List.append_assoc, List.singleton_append]
    exact ⟨.exponent, rfl, .cons _ hread hpower⟩

theorem leads_integer {n : Int} {cs : List Char} (h : IntegerText n cs) :
    ∃ part : NumberPart, part.complete = true ∧ Leads .between cs (.number part cs.reverse) := by
  have hsigned : ∃ part : NumberPart, part.isWhole = true ∧
      Leads .between cs (.number part cs.reverse) := by
    cases h with
    | natural whole => exact @leads_signed [] cs (by simp) whole
    | @negative cs whole nonzero => exact @leads_signed ['-'] cs (by simp) whole
  obtain ⟨part, hpart, hleads⟩ := hsigned
  exact ⟨part, NumberPart.complete_of_isWhole hpart, hleads⟩

theorem leads_real {cs : List Char} (h : RealText cs) :
    ∃ part : NumberPart, part.complete = true ∧ Leads .between cs (.number part cs.reverse) := by
  cases h with
  | negativeZero => exact ⟨.zero, rfl, .cons _ (fun _ => rfl) (.single fun _ => rfl)⟩
  | @real sign cs fs ps hsign whole fraction power present =>
    obtain ⟨part, hpart, hwhole⟩ := leads_signed hsign whole
    obtain ⟨next, hnext, hfraction⟩ := leads_fraction hpart fraction (sign ++ cs).reverse
    obtain ⟨last, hlast, hpower⟩ := leads_power hnext power (fs.reverse ++ (sign ++ cs).reverse)
    refine ⟨last, hlast, ?_⟩
    have hall := (hwhole.append hfraction).append hpower
    simpa only [List.append_assoc, List.reverse_append] using hall

theorem Whole.value_ne_zero {cs : List Char} (h : Whole cs) (hne : cs ≠ ['0']) :
    Nat.ofDigitChars 10 cs 0 ≠ 0 := by
  cases h with
  | zero => exact absurd rfl hne
  | @digits c cs nonzero all =>
    have hc : c.toNat ≠ '0'.toNat := fun he => nonzero (Char.toNat_inj.mp he)
    have hdigit := Char.isDigit_iff_toNat.mp (List.forall_mem_cons.mp all.2).1
    rw [Nat.ofDigitChars_cons, Nat.ofDigitChars_eq_ofDigitChars_zero]
    have hpow : 0 < 10 ^ cs.length := Nat.pow_pos (by decide)
    have hfirst : 0 < 10 ^ cs.length * (10 * 0 + (c.toNat - '0'.toNat)) :=
      Nat.mul_pos hpow (by omega)
    omega

theorem Whole.isDigit {cs : List Char} (h : Whole cs) : cs.all Char.isDigit = true := by
  rw [List.all_eq_true]
  cases h with
  | zero => simp
  | digits nonzero all => exact all.2

theorem literalInteger?_integer {n : Int} {cs : List Char} (h : IntegerText n cs) :
    literalInteger? cs = if -2 ^ 63 ≤ n ∧ n < 2 ^ 64 then some n else none := by
  have hvalue : ∀ cs, digitsValue cs = Nat.ofDigitChars 10 cs 0 :=
    fun cs => Nat.ofDigitChars_eq_foldl.symm
  cases h with
  | natural whole =>
    have hsign : ∀ ds, cs ≠ '-' :: ds := by
      rintro ds rfl
      have hall := whole.isDigit
      simp at hall
    have hrange : Nat.ofDigitChars 10 cs 0 < Nat.pow 2 64 ↔
        -2 ^ 63 ≤ (Nat.ofDigitChars 10 cs 0 : Int) ∧ (Nat.ofDigitChars 10 cs 0 : Int) < 2 ^ 64 := by
      rw [Nat.pow_eq]
      omega
    rw [literalInteger?.eq_2 _ hsign, whole.isDigit, hvalue]
    simp only [Bool.true_and, decide_eq_true_eq, hrange]
  | @negative cs whole nonzero =>
    have hne := whole.value_ne_zero nonzero
    have hrange : Nat.ofDigitChars 10 cs 0 ≤ Nat.pow 2 63 ↔
        -2 ^ 63 ≤ -(Nat.ofDigitChars 10 cs 0 : Int) ∧
          -(Nat.ofDigitChars 10 cs 0 : Int) < 2 ^ 64 := by
      rw [Nat.pow_eq]
      omega
    rw [literalInteger?, whole.isDigit, hvalue]
    simp only [Bool.true_and, Bool.and_eq_true, decide_eq_true_eq, ne_eq, hne, not_false_eq_true,
      true_and, hrange]

theorem literalInteger?_eq_none {c : Char} {cs : List Char} (hmem : c ∈ cs) (hsign : c ≠ '-')
    (hdigit : c.isDigit = false) : literalInteger? cs = none := by
  have hall : ∀ ds : List Char, c ∈ ds → ds.all Char.isDigit = false := by
    intro ds hc
    rw [List.all_eq_false]
    exact ⟨c, hc, by simp [hdigit]⟩
  unfold literalInteger?
  split
  · rename_i ds
    have hds : c ∈ ds := (List.mem_cons.mp hmem).resolve_left hsign
    simp [hall ds hds]
  · simp [hall cs hmem]

theorem literalInteger?_real {cs : List Char} (h : RealText cs) : literalInteger? cs = none := by
  cases h with
  | negativeZero => rfl
  | @real sign cs fs ps hsign whole fraction power present =>
    have hmark : ∃ c ∈ fs ++ ps, c ≠ '-' ∧ c.isDigit = false := by
      cases fraction with
      | digits all => exact ⟨'.', by simp⟩
      | missing =>
        cases power with
        | missing => exact absurd rfl present
        | @digits mark sign cs hmark hsign all =>
          refine ⟨mark, by simp, ?_⟩
          rcases hmark with rfl | rfl <;> exact ⟨by decide, rfl⟩
    obtain ⟨c, hc, hne, hdigit⟩ := hmark
    exact literalInteger?_eq_none (List.mem_append_right _ (List.mem_append_right _ hc)) hne hdigit

theorem tokensFrom_blank {ws : List Char} (h : Blank ws) : tokensFrom .between ws = [] := by
  have hread := leads_blank h []
  rwa [List.append_nil] at hread

theorem tokensFrom_complete {part : NumberPart} (hpart : part.complete = true)
    (literal : List Char) {ws : List Char} (h : Blank ws) :
    tokensFrom (.number part literal) ws = [numberToken literal] := by
  cases ws with
  | nil => simp [tokensFrom, Reading.finish, hpart]
  | cons c ws =>
    obtain ⟨hc, hws⟩ := blank_cons.mp h
    have hbeyond : part.step c = .beyond := by
      simp only [isBlank, Bool.or_eq_true, decide_eq_true_eq] at hc
      rcases hc with ((rfl | rfl) | rfl) | rfl <;> cases part <;> first | rfl | cases hpart
    have hbegin : begin c = .into .between := by
      simp [begin, hc]
    simp [tokensFrom, Reading.step, hbeyond, hbegin, Step.into, tokensFrom_blank hws]

theorem numberToken_integer {n : Int} {cs : List Char} (h : IntegerText n cs)
    (hn : -2 ^ 63 ≤ n ∧ n < 2 ^ 64) : numberToken cs.reverse = .scalar (.integer n) := by
  rw [numberToken, List.reverse_reverse, literalValue?, literalInteger?_integer h, if_pos hn]

theorem numberToken_other {cs : List Char} (h : literalInteger? cs = none) :
    (∃ s, numberToken cs.reverse = .scalar (.real s)) ∨
      numberToken cs.reverse = .broken false .malformed := by
  rw [numberToken, List.reverse_reverse, literalValue?, h]
  by_cases hlarge : literalOverflows cs = true
  · exact .inr (by simp [hlarge])
  · exact .inl ⟨String.ofList cs, by simp [hlarge]⟩

def Value.isCompound : Value → Bool
  | .array _ | .object _ => true
  | _ => false

theorem place_ne_nil (v : Value) {stack : List Frame} (h : stack ≠ []) : place v stack ≠ [] := by
  cases stack with
  | nil => exact absurd rfl h
  | cons frame outer => cases frame <;> exact List.cons_ne_nil _ _

/-- Inside an array or object, a token closes it or leaves something open. -/
theorem consume_open {stack : List Frame} (hstack : stack ≠ []) {awaited : Awaited} {t : Token}
    {r : Value ⊕ (List Frame × Awaited)} (h : consume stack awaited t = .ok r) :
    (∃ v : Value, v.isCompound = true ∧ r = .inl v) ∨
      ∃ next awaited, next ≠ [] ∧ r = .inr (next, awaited) := by
  unfold consume at h
  extract_lets close start at h
  have hinner : ∀ (v : Value) (outer : List Frame), outer ≠ [] →
      close v outer = .inr (place v outer, .commaOrEnd) := by
    intro v outer houter
    cases outer with
    | nil => exact absurd rfl houter
    | cons frame outer => rfl
  have hclose : ∀ (v : Value) (outer : List Frame), v.isCompound = true → close v outer = r →
      (∃ v : Value, v.isCompound = true ∧ r = .inl v) ∨
        ∃ next awaited, next ≠ [] ∧ r = .inr (next, awaited) := by
    intro v outer hv hr
    by_cases houter : outer = []
    · subst houter
      exact .inl ⟨v, hv, hr.symm⟩
    · exact .inr ⟨_, _, place_ne_nil v houter, hr.symm.trans (hinner v outer houter)⟩
  have hstart : start = .ok r → ∃ next awaited, next ≠ [] ∧ r = .inr (next, awaited) := by
    intro hr
    simp only [start] at hr
    split at hr
    · exact ⟨_, _, place_ne_nil _ hstack, (Except.ok.inj hr).symm.trans (hinner _ _ hstack)⟩
    · split at hr
      · exact ⟨_, _, List.cons_ne_nil _ _, (Except.ok.inj hr).symm⟩
      · cases hr
    · split at hr
      · exact ⟨_, _, List.cons_ne_nil _ _, (Except.ok.inj hr).symm⟩
      · cases hr
    · cases hr
  clear_value close start
  split at h
  -- A value, or its start, wherever one may come.
  case h_1 | h_3 => exact .inr (hstart h)
  -- The end of an array or object, empty or not.
  case h_2 | h_4 | h_10 | h_11 => exact hclose _ _ rfl (Except.ok.inj h)
  -- A key.
  case h_5 | h_6 => exact .inr ⟨_, _, List.cons_ne_nil _ _, (Except.ok.inj h).symm⟩
  -- A colon or comma.
  case h_7 | h_8 | h_9 => exact .inr ⟨_, _, hstack, (Except.ok.inj h).symm⟩
  case h_12 => cases h

/-- What is read to its end inside of an array or object is an array or object. -/
theorem readFrom_open {stack : List Frame} (hstack : stack ≠ []) {awaited : Awaited}
    {ts rest : List Token} {v : Value} (h : readFrom stack awaited ts = .ok (v, rest)) :
    v.isCompound = true := by
  induction ts generalizing stack awaited with
  | nil => cases h
  | cons t ts ih =>
    unfold readFrom at h
    split at h
    · cases h
    · cases h
    · rename_i heq
      obtain ⟨rfl, rfl⟩ := List.cons.inj heq
      split at h
      · cases h
      · rename_i hread
        obtain ⟨w, hw, hr⟩ | ⟨_, _, _, hr⟩ := consume_open hstack hread
        · cases hr
          cases h
          exact hw
        · cases hr
      · rename_i hread
        obtain ⟨w, hw, hr⟩ | ⟨_, _, hnext, hr⟩ := consume_open hstack hread
        · cases hr
        · cases hr
          exact ih hnext h

theorem readFrom_value {ts rest : List Token} {v : Value}
    (h : readFrom [] .value ts = .ok (v, rest)) :
    v.isCompound = true ∨ ts = .scalar v :: rest := by
  cases ts with
  | nil => cases h
  | cons t ts =>
    cases t with
    | broken inText fault => cases h
    | scalar w =>
      cases h
      exact .inr rfl
    | mark c =>
      by_cases hc : c = '[' ∨ c = '{'
      · rcases hc with rfl | rfl
        · change readFrom [.array []] .valueOrEnd _ = _ at h
          exact .inl (readFrom_open (List.cons_ne_nil _ _) h)
        · change readFrom [.object [] ""] (.keyOrEnd []) _ = _ at h
          exact .inl (readFrom_open (List.cons_ne_nil _ _) h)
      · simp only [not_or] at hc
        simp [readFrom, consume, hc.1, hc.2] at h

theorem readValue_open {c : Char} (hc : c = '[' ∨ c = '{') {text : String} {ws more : List Char}
    (htext : text.toList = ws ++ c :: more) (hws : Blank ws) {v : Value} {rest : List Token}
    (h : readValue text = .ok (v, rest)) : v.isCompound = true := by
  have hmark : isStructural c = true := by rcases hc with rfl | rfl <;> rfl
  rw [readValue, htext, tokens, leads_blank hws, tokensFrom_mark hmark] at h
  rcases readFrom_value h with hcompound | hscalar
  · exact hcompound
  · cases hscalar

end ScanBridge.Json
