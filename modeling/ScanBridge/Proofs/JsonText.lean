import Mathlib.Algebra.Ring.Int.Defs
import ScanBridge.Json.Printer
import ScanBridge.Json.Reader

namespace ScanBridge.Json

/-- A value that its text stands for exactly, with at most `d` arrays and objects inside each other:
its integers are of 64 bits and it holds no numbers of other kinds. -/
inductive Exact : Nat → Value → Prop
  | null (d : Nat) : Exact d .null
  | boolean (d : Nat) (b : Bool) : Exact d (.boolean b)
  | integer (d : Nat) (n : Int) (least : -2 ^ 63 ≤ n) (greatest : n < 2 ^ 64) :
      Exact d (.integer n)
  | string (d : Nat) (s : String) : Exact d (.string s)
  | array {d : Nat} {items : List Value} (within : ∀ v ∈ items, Exact d v) :
      Exact (d + 1) (.array items)
  | object {d : Nat} {members : List (String × Value)} (within : ∀ m ∈ members, Exact d m.2) :
      Exact (d + 1) (.object members)

mutual

def Value.tokens : Value → List Token
  | .array items => .mark '[' :: itemTokens items ++ [.mark ']']
  | .object members => .mark '{' :: memberTokens members ++ [.mark '}']
  | v => [.scalar v]

def itemTokens : List Value → List Token
  | [] => []
  | [v] => v.tokens
  | v :: w :: vs => v.tokens ++ .mark ',' :: itemTokens (w :: vs)

def memberTokens : List (String × Value) → List Token
  | [] => []
  | [(k, v)] => .scalar (.string k) :: .mark ':' :: v.tokens
  | (k, v) :: m :: ms =>
    .scalar (.string k) :: .mark ':' :: v.tokens ++ .mark ',' :: memberTokens (m :: ms)

end

theorem tokensFrom_into {state : Reading} (next : Reading) {c : Char} {cs : List Char}
    (h : state.step c cs = .into next) : tokensFrom state (c :: cs) = tokensFrom next cs := by
  simp [tokensFrom, h, Step.into]

theorem tokensFrom_token {state : Reading} {c : Char} {cs : List Char} {t : Token}
    (h : state.step c cs = .token t) :
    tokensFrom state (c :: cs) = t :: tokensFrom .between cs := by
  simp [tokensFrom, h, Step.token]

theorem hexValue?_hexDigit (n : Nat) : Text.hexValue? (hexDigit n) = some (n % 16) := by
  have hdigit : ∀ d : Fin 16, Text.hexValue? (Nat.digitChar d) = some d.val := by decide
  exact hdigit ⟨n % 16, Nat.mod_lt _ (by decide)⟩

theorem tokensFrom_unit (done rest : List Char) {c : Char} (h : c.toNat < 0x20) :
    tokensFrom (.text done)
        ('\\' :: 'u' :: '0' :: '0' :: hexDigit (c.toNat / 16) :: hexDigit c.toNat :: rest) =
      tokensFrom (.text (c :: done)) rest := by
  have hzero : Text.hexValue? '0' = some 0 := by decide
  have hvalue : 16 * (c.toNat / 16 % 16) + c.toNat % 16 = c.toNat := by omega
  rw [tokensFrom_into (.escape done) (by simp [Reading.step]),
    tokensFrom_into (.unit done none 0 0) (by simp [Reading.step]),
    tokensFrom_into (.unit done none 0 1) (by simp [Reading.step, hzero]),
    tokensFrom_into (.unit done none 0 2) (by simp [Reading.step, hzero]),
    tokensFrom_into (.unit done none (c.toNat / 16 % 16) 3)
      (by simp [Reading.step, hexValue?_hexDigit])]
  apply tokensFrom_into _
  simp only [Reading.step, hexValue?_hexDigit, if_true, closeUnit, hvalue]
  rw [if_neg (by omega), if_neg (by omega), Char.ofNat_toNat]

theorem tokensFrom_escapeChar (done rest : List Char) (c : Char) :
    tokensFrom (.text done) (escapeChar c ++ rest) = tokensFrom (.text (c :: done)) rest := by
  have hletter : ∀ l, l ≠ 'u' → unescape? l = some c →
      tokensFrom (.text done) ('\\' :: l :: rest) = tokensFrom (.text (c :: done)) rest := by
    intro l hl hc
    rw [tokensFrom_into (.escape done) (by simp [Reading.step])]
    exact tokensFrom_into _ (by simp [Reading.step, hl, hc])
  unfold escapeChar
  split
  · rename_i hc
    exact hletter '"' (by decide) (by rw [hc]; rfl)
  rename_i hquote
  split
  · rename_i hc
    exact hletter '\\' (by decide) (by rw [hc]; rfl)
  rename_i hbackslash
  split
  · rename_i hc
    exact hletter 'b' (by decide) (by rw [hc]; rfl)
  split
  · rename_i hc
    exact hletter 'f' (by decide) (by rw [hc]; rfl)
  split
  · rename_i hc
    exact hletter 'n' (by decide) (by rw [hc]; rfl)
  split
  · rename_i hc
    exact hletter 'r' (by decide) (by rw [hc]; rfl)
  split
  · rename_i hc
    exact hletter 't' (by decide) (by rw [hc]; rfl)
  split
  · rename_i hc
    exact tokensFrom_unit done rest hc
  · rename_i hc
    exact tokensFrom_into _ (by simp [Reading.step, hquote, hbackslash, hc])

theorem tokensFrom_text (cs done rest : List Char) :
    tokensFrom (.text done) (cs.flatMap escapeChar ++ '"' :: rest) =
      .scalar (.string (String.ofList (done.reverse ++ cs))) :: tokensFrom .between rest := by
  induction cs generalizing done with
  | nil =>
    rw [List.append_nil]
    exact tokensFrom_token (by simp [Reading.step])
  | cons c cs ih =>
    rw [List.flatMap_cons, List.append_assoc, tokensFrom_escapeChar, ih, List.reverse_cons,
      List.append_assoc]
    rfl

theorem tokensFrom_string (s : String) (rest : List Char) :
    tokensFrom .between (renderString s ++ rest) =
      .scalar (.string s) :: tokensFrom .between rest := by
  have hread := tokensFrom_text s.toList [] rest
  rw [List.reverse_nil, List.nil_append, String.ofList_toList] at hread
  rw [renderString, List.append_assoc, List.cons_append, ← hread]
  exact tokensFrom_into _ rfl

/-- A text at which a number ends: it is over, or goes on with a structural character. -/
def Ends : List Char → Prop
  | [] => True
  | c :: _ => isStructural c = true

def NumberPart.isWhole (part : NumberPart) : Bool := part = .zero || part = .whole

theorem ne_of_isDigit {c d : Char} (hc : c.isDigit = true) (hd : d.isDigit = false) : c ≠ d := by
  rintro rfl
  rw [hc] at hd
  cases hd

/-- Whatever ends a number is no part of it, and is read as if nothing stood before it. -/
theorem tokensFrom_number {part : NumberPart} (hpart : part.isWhole = true) (literal : List Char)
    {rest : List Char} (hrest : Ends rest) :
    tokensFrom (.number part literal) rest = numberToken literal :: tokensFrom .between rest := by
  have hcomplete : part.complete = true := by
    cases part <;> simp [NumberPart.isWhole] at hpart <;> rfl
  cases rest with
  | nil => simp [tokensFrom, Reading.finish, hcomplete]
  | cons c cs =>
    have hbeyond : part.step c = .beyond := by
      simp only [Ends, isStructural, Bool.or_eq_true, decide_eq_true_eq] at hrest
      rcases hrest with ((((rfl | rfl) | rfl) | rfl) | rfl) | rfl
      all_goals cases part <;> simp [NumberPart.isWhole] at hpart <;> rfl
    have hbegin : (begin c).next = some .between := by
      simp only [Ends] at hrest
      unfold begin
      split
      · rfl
      · simp [Step.token]
    simp [tokensFrom, Reading.step, hbeyond, hbegin]

theorem tokensFrom_digits {cs : List Char} (hcs : ∀ c ∈ cs, c.isDigit = true)
    (literal : List Char) {rest : List Char} (hrest : Ends rest) :
    tokensFrom (.number .whole literal) (cs ++ rest) =
      numberToken (cs.reverse ++ literal) :: tokensFrom .between rest := by
  induction cs generalizing literal with
  | nil => exact tokensFrom_number rfl literal hrest
  | cons c cs ih =>
    obtain ⟨hc, hcs⟩ := List.forall_mem_cons.mp hcs
    rw [List.cons_append, tokensFrom_into (.number .whole (c :: literal))
      (by simp [Reading.step, NumberPart.step, hc, Step.into]), ih hcs, List.reverse_cons,
      List.append_assoc]
    rfl

theorem toDigits_eq_cons {n : Nat} (h : n ≠ 0) :
    ∃ c cs, Nat.toDigits 10 n = c :: cs ∧ c ≠ '0' := by
  induction n using Nat.strongRecOn with
  | ind n ih =>
    rw [Nat.toDigits_eq_if (by decide)]
    split
    · rename_i hn
      refine ⟨_, _, rfl, ?_⟩
      rw [ne_eq, Nat.digitChar_eq_zero]
      exact h
    · obtain ⟨c, cs, hcs, hc⟩ := ih (n / 10) (by omega) (by omega)
      exact ⟨c, _, by rw [hcs]; rfl, hc⟩

theorem isDigit_of_mem {n : Nat} : ∀ c ∈ Nat.toDigits 10 n, c.isDigit = true :=
  fun _ hc => Nat.isDigit_of_mem_toDigits (by decide) (by decide) hc

theorem digitsValue_toDigits (n : Nat) : digitsValue (Nat.toDigits 10 n) = n := by
  have hread := Nat.ofDigitChars_ten_toDigits (n := n)
  rw [Nat.ofDigitChars_eq_foldl] at hread
  exact hread

theorem begin_digit {c : Char} (hc : c.isDigit = true) (hzero : c ≠ '0') :
    begin c = .into (.number .whole [c]) := by
  have hne : ∀ d : Char, d.isDigit = false → c ≠ d := fun d => ne_of_isDigit hc
  simp [begin, isBlank, isStructural, hne, hzero, hc]

theorem tokensFrom_natural (n : Nat) {rest : List Char} (hrest : Ends rest) :
    tokensFrom .between (Nat.toDigits 10 n ++ rest) =
      numberToken (Nat.toDigits 10 n).reverse :: tokensFrom .between rest := by
  by_cases hn : n = 0
  · rw [hn]
    have hzero : tokensFrom .between ('0' :: rest) = tokensFrom (.number .zero ['0']) rest :=
      tokensFrom_into _ rfl
    exact hzero.trans (tokensFrom_number rfl ['0'] hrest)
  · obtain ⟨c, cs, hdigits, hzero⟩ := toDigits_eq_cons hn
    obtain ⟨hc, hcs⟩ := List.forall_mem_cons.mp (hdigits ▸ isDigit_of_mem (n := n))
    have hfirst : tokensFrom .between (c :: (cs ++ rest)) =
        tokensFrom (.number .whole [c]) (cs ++ rest) := tokensFrom_into _ (begin_digit hc hzero)
    rw [hdigits, List.cons_append, hfirst, tokensFrom_digits hcs [c] hrest, List.reverse_cons]

theorem literalInteger?_renderInt {n : Int} (hleast : -2 ^ 63 ≤ n) (hgreatest : n < 2 ^ 64) :
    literalInteger? (renderInt n) = some n := by
  have hall : (Nat.toDigits 10 n.natAbs).all Char.isDigit = true := by
    rw [List.all_eq_true]
    exact isDigit_of_mem
  unfold renderInt
  split
  · simp only [literalInteger?, hall, digitsValue_toDigits, Nat.pow_eq]
    rw [if_pos (by simp only [Bool.true_and, Bool.and_eq_true, decide_eq_true_eq]; omega)]
    congr 1
    omega
  · have hsign : ∀ cs, Nat.toDigits 10 n.natAbs ≠ '-' :: cs := by
      intro cs hcs
      have hminus := isDigit_of_mem (n := n.natAbs) '-' (by rw [hcs]; exact List.mem_cons_self)
      exact absurd hminus (by decide)
    rw [literalInteger?]
    · simp only [hall, digitsValue_toDigits, Nat.pow_eq]
      rw [if_pos (by simp only [Bool.true_and, decide_eq_true_eq]; omega)]
      congr 1
      omega
    · exact hsign

theorem tokensFrom_integer {n : Int} (hleast : -2 ^ 63 ≤ n) (hgreatest : n < 2 ^ 64)
    {rest : List Char} (hrest : Ends rest) :
    tokensFrom .between (renderInt n ++ rest) =
      .scalar (.integer n) :: tokensFrom .between rest := by
  have htoken : numberToken (renderInt n).reverse = .scalar (.integer n) := by
    rw [numberToken, List.reverse_reverse, literalValue?,
      literalInteger?_renderInt hleast hgreatest]
  rw [← htoken]
  unfold renderInt
  split
  · have hn : n.natAbs ≠ 0 := by omega
    obtain ⟨c, cs, hdigits, hzero⟩ := toDigits_eq_cons hn
    obtain ⟨hc, hcs⟩ := List.forall_mem_cons.mp (hdigits ▸ isDigit_of_mem (n := n.natAbs))
    rw [hdigits, List.cons_append, List.cons_append,
      tokensFrom_into (.number .sign ['-']) rfl,
      tokensFrom_into (.number .whole [c, '-'])
        (by simp [Reading.step, NumberPart.step, hzero, hc, Step.into]),
      tokensFrom_digits hcs [c, '-'] hrest]
    simp
  · exact tokensFrom_natural n.natAbs hrest

theorem tokensFrom_mark {c : Char} (h : isStructural c = true) (rest : List Char) :
    tokensFrom .between (c :: rest) = .mark c :: tokensFrom .between rest := by
  have hblank : isBlank c = false := by
    simp only [isStructural, Bool.or_eq_true, decide_eq_true_eq] at h
    rcases h with ((((rfl | rfl) | rfl) | rfl) | rfl) | rfl
    all_goals rfl
  exact tokensFrom_token (by simp [Reading.step, begin, hblank, h])

/-- The text of a value makes the tokens of the value, whatever follows it. -/
def Lexes (v : Value) : Prop :=
  ∀ rest, Ends rest →
    tokensFrom .between (v.render ++ rest) = v.tokens ++ tokensFrom .between rest

theorem tokensFrom_items {items : List Value} (h : ∀ v ∈ items, Lexes v) {rest : List Char}
    (hrest : Ends rest) :
    tokensFrom .between (renderItems items ++ rest) =
      itemTokens items ++ tokensFrom .between rest := by
  induction items with
  | nil => rfl
  | cons v items ih =>
    obtain ⟨hv, hitems⟩ := List.forall_mem_cons.mp h
    cases items with
    | nil => exact hv rest hrest
    | cons w items =>
      rw [renderItems, itemTokens, List.append_assoc, List.append_assoc, List.cons_append,
        List.cons_append, hv (',' :: _) rfl, tokensFrom_mark rfl, ih hitems]

theorem tokensFrom_members {members : List (String × Value)} (h : ∀ m ∈ members, Lexes m.2)
    {rest : List Char} (hrest : Ends rest) :
    tokensFrom .between (renderMembers members ++ rest) =
      memberTokens members ++ tokensFrom .between rest := by
  induction members with
  | nil => rfl
  | cons m members ih =>
    obtain ⟨k, v⟩ := m
    obtain ⟨hv, hmembers⟩ := List.forall_mem_cons.mp h
    cases members with
    | nil =>
      rw [renderMembers, memberTokens, List.append_assoc, List.cons_append, tokensFrom_string,
        tokensFrom_mark rfl, hv _ hrest]
      rfl
    | cons m members =>
      simp only [renderMembers, memberTokens, List.append_assoc, List.cons_append]
      rw [tokensFrom_string, tokensFrom_mark rfl, hv (',' :: _) rfl, tokensFrom_mark rfl,
        ih hmembers]

theorem Exact.lexes {d : Nat} {v : Value} (h : Exact d v) : Lexes v := by
  induction h with
  | null d => intro rest hrest; rfl
  | boolean d b => intro rest hrest; cases b <;> rfl
  | integer d n hleast hgreatest =>
    intro rest hrest
    exact tokensFrom_integer hleast hgreatest hrest
  | string d s => intro rest hrest; exact tokensFrom_string s rest
  | @array d items within ih =>
    intro rest hrest
    have hitems : tokensFrom .between (renderItems items ++ ']' :: rest) =
        itemTokens items ++ tokensFrom .between (']' :: rest) := tokensFrom_items ih rfl
    simp only [Value.render, Value.tokens, List.cons_append, List.append_assoc, List.nil_append]
    rw [tokensFrom_mark rfl, hitems, tokensFrom_mark rfl]
  | @object d members within ih =>
    intro rest hrest
    have hmembers : tokensFrom .between (renderMembers members ++ '}' :: rest) =
        memberTokens members ++ tokensFrom .between ('}' :: rest) := tokensFrom_members ih rfl
    simp only [Value.render, Value.tokens, List.cons_append, List.append_assoc, List.nil_append]
    rw [tokensFrom_mark rfl, hmembers, tokensFrom_mark rfl]

def resume (v : Value) (stack : List Frame) (ts : List Token) :
    Except Fault (Value × List Token) :=
  match stack with
  | [] => .ok (v, ts)
  | _ => readFrom (place v stack) .commaOrEnd ts

/-- The reader takes the tokens of a value for the value, inside of whatever is open. -/
def Reads (d : Nat) (v : Value) : Prop :=
  ∀ stack : List Frame, stack.length + d ≤ depthLimit → ∀ ts,
    readFrom stack .value (v.tokens ++ ts) = resume v stack ts

theorem readFrom_scalar {v : Value} (h : v.tokens = [.scalar v]) (d : Nat) : Reads d v := by
  intro stack hdepth ts
  rw [h]
  cases stack <;> simp [readFrom, consume, resume]

theorem readFrom_valueOrEnd (v : Value) (stack : List Frame) (ts : List Token) :
    readFrom stack .valueOrEnd (v.tokens ++ ts) = readFrom stack .value (v.tokens ++ ts) := by
  cases v <;> simp [Value.tokens, readFrom, consume]

theorem resume_array (v : Value) (done : List Value) (outer : List Frame) (ts : List Token) :
    resume v (.array done :: outer) (.mark ',' :: ts) =
        readFrom (.array (v :: done) :: outer) .value ts ∧
      resume v (.array done :: outer) (.mark ']' :: ts) =
        resume (.array (done.reverse ++ [v])) outer ts := by
  refine ⟨rfl, ?_⟩
  cases outer <;> simp [resume, place, readFrom, consume]

theorem resume_object (v : Value) (done : List (String × Value)) (key : String)
    (outer : List Frame) (ts : List Token) :
    resume v (.object done key :: outer) (.mark ',' :: ts) =
        readFrom (.object ((key, v) :: done) key :: outer) (.key ((key, v) :: done)) ts ∧
      resume v (.object done key :: outer) (.mark '}' :: ts) =
        resume (.object (done.reverse ++ [(key, v)])) outer ts := by
  refine ⟨rfl, ?_⟩
  cases outer <;> simp [resume, place, readFrom, consume]

theorem readFrom_items {d : Nat} {items : List Value} (h : ∀ v ∈ items, Reads d v) {v : Value}
    (hv : Reads d v) (done : List Value) (outer : List Frame)
    (hdepth : outer.length + 1 + d ≤ depthLimit) (ts : List Token) :
    readFrom (.array done :: outer) .value (itemTokens (v :: items) ++ .mark ']' :: ts) =
      resume (.array (done.reverse ++ v :: items)) outer ts := by
  induction items generalizing v done with
  | nil =>
    rw [itemTokens, hv (.array done :: outer) hdepth]
    exact (resume_array v done outer ts).2
  | cons w items ih =>
    obtain ⟨hw, hitems⟩ := List.forall_mem_cons.mp h
    rw [itemTokens, List.append_assoc, List.cons_append, hv (.array done :: outer) hdepth,
      (resume_array v done outer _).1, ih hitems hw (v :: done), List.reverse_cons,
      List.append_assoc]
    rfl

theorem readFrom_key (k key : String) (done : List (String × Value)) (outer : List Frame)
    (ts : List Token) :
    readFrom (.object done key :: outer) (.key done) (.scalar (.string k) :: .mark ':' :: ts) =
      readFrom (.object done k :: outer) .value ts := rfl

theorem readFrom_members {d : Nat} {members : List (String × Value)}
    (h : ∀ m ∈ members, Reads d m.2) {m : String × Value} (hm : Reads d m.2)
    (done : List (String × Value)) (key : String) (outer : List Frame)
    (hdepth : outer.length + 1 + d ≤ depthLimit) (ts : List Token) :
    readFrom (.object done key :: outer) (.key done)
        (memberTokens (m :: members) ++ .mark '}' :: ts) =
      resume (.object (done.reverse ++ m :: members)) outer ts := by
  induction members generalizing m done key with
  | nil =>
    rw [memberTokens, List.cons_append, List.cons_append, readFrom_key,
      hm (.object done m.1 :: outer) hdepth]
    exact (resume_object m.2 done m.1 outer ts).2
  | cons n members ih =>
    obtain ⟨hn, hmembers⟩ := List.forall_mem_cons.mp h
    rw [memberTokens, List.append_assoc, List.cons_append, List.cons_append, List.cons_append,
      readFrom_key, hm (.object done m.1 :: outer) hdepth, (resume_object m.2 done m.1 outer _).1,
      ih hmembers hn ((m.1, m.2) :: done), List.reverse_cons, List.append_assoc]
    rfl

theorem itemTokens_cons (v : Value) (items : List Value) :
    ∃ more, itemTokens (v :: items) = v.tokens ++ more := by
  cases items with
  | nil => exact ⟨[], (List.append_nil _).symm⟩
  | cons w items => exact ⟨_, rfl⟩

theorem memberTokens_cons (m : String × Value) (members : List (String × Value)) :
    ∃ more, memberTokens (m :: members) = .scalar (.string m.1) :: more := by
  cases members <;> exact ⟨_, rfl⟩

theorem Exact.reads {d : Nat} {v : Value} (h : Exact d v) : Reads d v := by
  induction h with
  | null d => exact readFrom_scalar rfl d
  | boolean d b => exact readFrom_scalar rfl d
  | integer d n => exact readFrom_scalar rfl d
  | string d s => exact readFrom_scalar rfl d
  | @array d items within ih =>
    intro stack hdepth ts
    have hopen : stack.length < depthLimit := by omega
    have hstart : readFrom stack .value ((Value.array items).tokens ++ ts) =
        readFrom (.array [] :: stack) .valueOrEnd (itemTokens items ++ .mark ']' :: ts) := by
      simp [Value.tokens, readFrom, consume, hopen]
    rw [hstart]
    cases items with
    | nil => cases stack <;> simp [itemTokens, readFrom, consume, resume]
    | cons v items =>
      obtain ⟨hv, hitems⟩ := List.forall_mem_cons.mp ih
      -- The first item shows that the array does not end at once.
      obtain ⟨more, hmore⟩ := itemTokens_cons v items
      have hread := readFrom_items hitems hv [] stack (by omega) ts
      rw [hmore, List.append_assoc] at hread ⊢
      rw [readFrom_valueOrEnd]
      exact hread
  | @object d members within ih =>
    intro stack hdepth ts
    have hopen : stack.length < depthLimit := by omega
    have hstart : readFrom stack .value ((Value.object members).tokens ++ ts) =
        readFrom (.object [] "" :: stack) (.keyOrEnd [])
          (memberTokens members ++ .mark '}' :: ts) := by
      simp [Value.tokens, readFrom, consume, hopen]
    rw [hstart]
    cases members with
    | nil => cases stack <;> simp [memberTokens, readFrom, consume, resume]
    | cons m members =>
      obtain ⟨hm, hmembers⟩ := List.forall_mem_cons.mp ih
      obtain ⟨more, hmore⟩ := memberTokens_cons m members
      have hread := readFrom_members hmembers hm [] "" stack (by omega) ts
      rw [hmore] at hread ⊢
      exact hread

/-- What was written of a value reads back as the value. -/
theorem parse_render {d : Nat} (hd : d ≤ depthLimit) {v : Value} (h : Exact d v) :
    parse (String.ofList v.render) = .ok v := by
  have htokens : tokens v.render = v.tokens := by
    have hlex := h.lexes [] trivial
    rw [List.append_nil] at hlex
    rw [tokens, hlex]
    simp [tokensFrom, Reading.finish]
  have hread := h.reads [] (by simpa using hd) []
  rw [List.append_nil] at hread
  simp [parse, readValue, htokens, hread, resume]

end ScanBridge.Json
