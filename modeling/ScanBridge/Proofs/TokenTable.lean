import Mathlib.Data.List.Nodup
import Mathlib.Data.List.Range
import ScanBridge.Proofs.Conduct

namespace ScanBridge.Registry

variable {τ : Type}

/-- A step on the table, with what whoever takes it gets to see. -/
inductive Step (τ : Type)
  | registered (token : Token) (entry : τ)
  | resolved (token : Token) (found : Option τ)
  | released (token : Token)
  deriving DecidableEq, Repr

inductive Takes : Registry τ → Step τ → Registry τ → Prop
  | register (r : Registry τ) (entry : τ) :
      Takes r (.registered r.nextToken entry) (r.register entry)
  | resolve (r : Registry τ) (token : Token) : Takes r (.resolved token (r.resolve token)) r
  | release (r : Registry τ) (token : Token) : Takes r (.released token) (r.release token)

/-- The steps taken since the table was new, and the table now. Nothing is said of who takes a step,
so every interleaving of scans is covered. -/
inductive History : List (Step τ) → Registry τ → Prop
  | start : History [] {}
  | step {log : List (Step τ)} {s : Step τ} {r r' : Registry τ} (before : History log r)
      (takes : Takes r s r') : History (log ++ [s]) r'

namespace Step

def issued? : Step τ → Option Token
  | .registered token _ => some token
  | _ => none

def releases (token : Token) : Step τ → Bool
  | .released other => other = token
  | _ => false

end Step

def issued (log : List (Step τ)) : List Token := log.filterMap Step.issued?

/-- The registrations of a log that no later step in it takes back. -/
def standing : List (Step τ) → List (Token × τ)
  | [] => []
  | .registered token entry :: later =>
    if later.any (Step.releases token) then standing later else (token, entry) :: standing later
  | _ :: later => standing later

theorem nextToken_ne_zero (r : Registry τ) : r.nextToken ≠ 0 := by
  unfold nextToken
  split
  · decide
  · assumption

theorem resolve_register (r : Registry τ) (entry : τ) :
    (r.register entry).resolve r.nextToken = some entry := by
  simp [resolve, register, r.nextToken_ne_zero]

theorem live_release_register (r : Registry τ) (entry : τ) :
    ((r.register entry).release r.nextToken).live = r.live.filter (·.1 ≠ r.nextToken) := by
  simp [release, register]

/-- Each live token stands for one entry, and zero for none. -/
structure Sound (r : Registry τ) : Prop where
  distinct : (r.live.map Prod.fst).Nodup
  nonzero : ∀ x ∈ r.live, x.1 ≠ 0

theorem Sound.release {r : Registry τ} (hr : r.Sound) (token : Token) : (r.release token).Sound :=
  ⟨hr.distinct.sublist (List.filter_sublist.map Prod.fst),
    fun x hx => hr.nonzero x (List.mem_filter.mp hx).1⟩

theorem Sound.register {r : Registry τ} (hr : r.Sound) (entry : τ) : (r.register entry).Sound := by
  have hleft := hr.release r.nextToken
  refine ⟨List.nodup_cons.mpr ⟨?_, hleft.distinct⟩, ?_⟩
  · intro hm
    obtain ⟨x, hx, he⟩ := List.mem_map.mp hm
    simpa [he] using (List.mem_filter.mp hx).2
  · intro x hx
    rcases List.mem_cons.mp hx with rfl | hx
    · exact r.nextToken_ne_zero
    · exact hleft.nonzero x hx

theorem Sound.takes {r r' : Registry τ} {s : Step τ} (hr : r.Sound) (h : Takes r s r') :
    r'.Sound := by
  cases h with
  | register entry => exact hr.register entry
  | resolve => exact hr
  | release token => exact hr.release token

theorem Sound.resolve_eq_some_iff {r : Registry τ} (hr : r.Sound) {token : Token} {entry : τ} :
    r.resolve token = some entry ↔ (token, entry) ∈ r.live := by
  unfold resolve
  by_cases hzero : token = 0
  · rw [if_pos hzero]
    exact iff_of_false (by simp) fun hm => hr.nonzero _ hm hzero
  · rw [if_neg hzero, Option.map_eq_some_iff]
    simp only [find?_key_iff hr.distinct]
    constructor
    · rintro ⟨x, ⟨hx, rfl⟩, rfl⟩
      exact hx
    · intro hm
      exact ⟨_, ⟨hm, rfl⟩, rfl⟩

theorem resolve_release (r : Registry τ) (token other : Token) :
    (r.release token).resolve other = if other = token then none else r.resolve other := by
  unfold resolve release
  split
  · simp
  · rw [List.find?_filter]
    split
    · rename_i he
      subst he
      rw [List.find?_eq_none.mpr (by simp)]
      rfl
    · rename_i he
      congr 2
      funext x
      by_cases hx : x.1 = other <;> simp [hx, he]

theorem release_release (r : Registry τ) (token : Token) :
    (r.release token).release token = r.release token := by
  simp [release]

theorem issued_append (log more : List (Step τ)) :
    issued (log ++ more) = issued log ++ issued more :=
  List.filterMap_append

theorem standing_append (log more : List (Step τ)) :
    standing (log ++ more) =
      (standing log).filter (fun x => !more.any (Step.releases x.1)) ++ standing more := by
  induction log with
  | nil => rfl
  | cons s log ih =>
    cases s with
    | registered token entry =>
      simp only [List.cons_append, standing, List.any_append, ih]
      cases log.any (Step.releases token) <;> cases hm : more.any (Step.releases token) <;>
        simp [hm]
    | _ => exact ih

theorem mem_issued_of_standing {log : List (Step τ)} {x : Token × τ} (h : x ∈ standing log) :
    x.1 ∈ issued log := by
  induction log with
  | nil => cases h
  | cons s log ih =>
    cases s with
    | registered token entry =>
      simp only [standing] at h
      change x.1 ∈ token :: issued log
      split at h
      · exact List.mem_cons_of_mem _ (ih h)
      · rcases List.mem_cons.mp h with rfl | h
        · exact List.mem_cons_self
        · exact List.mem_cons_of_mem _ (ih h)
    | _ => exact ih h

/-- What a log says of the table it leads to, as long as the counter has not run out. -/
structure Tells (log : List (Step τ)) (r : Registry τ) : Prop where
  counter : r.counter.toNat = (issued log).length + 1
  tokens : (issued log).map UInt64.toNat = List.range' 1 (issued log).length
  live : r.live.Perm (standing log)

namespace Tells

variable {log : List (Step τ)} {r : Registry τ}

theorem nextToken (h : Tells log r) : r.nextToken = r.counter := by
  have hne : r.counter ≠ 0 := by
    intro he
    have := h.counter
    rw [he, UInt64.toNat_zero] at this
    omega
  simp [Registry.nextToken, hne]

theorem bounds (h : Tells log r) {token : Token} (hm : token ∈ issued log) :
    1 ≤ token.toNat ∧ token.toNat ≤ (issued log).length := by
  have hrange : token.toNat ∈ List.range' 1 (issued log).length :=
    h.tokens ▸ List.mem_map_of_mem hm
  rw [List.mem_range'_1] at hrange
  omega

theorem distinct (h : Tells log r) : (issued log).Nodup :=
  List.Nodup.of_map UInt64.toNat (h.tokens ▸ List.nodup_range')

theorem nonzero (h : Tells log r) : 0 ∉ issued log := by
  intro hm
  have := (h.bounds hm).1
  rw [UInt64.toNat_zero] at this
  omega

theorem nextToken_notMem (h : Tells log r) : r.nextToken ∉ issued log := by
  intro hm
  have := (h.bounds hm).2
  rw [h.nextToken, h.counter] at this
  omega

theorem takes {s : Step τ} {r' : Registry τ} (h : Tells log r) (htakes : Takes r s r')
    (hroom : (issued (log ++ [s])).length < 2 ^ 64 - 1) : Tells (log ++ [s]) r' := by
  cases htakes with
  | register entry =>
    have hissued : issued (log ++ [.registered r.nextToken entry]) = issued log ++ [r.nextToken] :=
      issued_append ..
    -- The next token is none of those given out, so no live registration is overwritten.
    have hlive : r.live.filter (·.1 ≠ r.nextToken) = r.live := by
      apply List.filter_eq_self.mpr
      intro x hx
      refine decide_eq_true fun he => h.nextToken_notMem ?_
      exact he ▸ mem_issued_of_standing (h.live.mem_iff.mp hx)
    have hstanding : standing (log ++ [.registered r.nextToken entry]) =
        standing log ++ [(r.nextToken, entry)] := by
      simp [standing_append, standing, Step.releases]
    rw [hissued, List.length_append, List.length_singleton] at hroom
    refine ⟨?_, ?_, ?_⟩
    · change (r.counter + 1).toNat = _
      rw [hissued, List.length_append, List.length_singleton, UInt64.toNat_add, h.counter,
        UInt64.toNat_one]
      omega
    · rw [hissued, List.map_append, h.tokens, List.length_append, List.length_singleton,
        List.range'_concat, List.map_singleton, h.nextToken, h.counter]
      congr 2
      omega
    · rw [hstanding, register, hlive]
      exact (h.live.cons _).trans (List.perm_append_singleton _ _).symm
  | resolve token =>
    have hissued : issued (log ++ [.resolved token (r.resolve token)]) = issued log :=
      (issued_append ..).trans (List.append_nil _)
    have hstanding : standing (log ++ [.resolved token (r.resolve token)]) = standing log := by
      simp [standing_append, standing, Step.releases]
    exact ⟨hissued ▸ h.counter, hissued ▸ h.tokens, hstanding ▸ h.live⟩
  | release token =>
    have hissued : issued (log ++ [.released token]) = issued log :=
      (issued_append ..).trans (List.append_nil _)
    have hstanding : standing (log ++ [.released token]) =
        (standing log).filter (·.1 ≠ token) := by
      simp [standing_append, standing, Step.releases, eq_comm]
    exact ⟨hissued ▸ h.counter, hissued ▸ h.tokens, hstanding ▸ h.live.filter _⟩

end Tells

namespace History

variable {log : List (Step τ)} {r : Registry τ}

theorem sound (h : History log r) : r.Sound := by
  induction h with
  | start => exact ⟨List.nodup_nil, by simp⟩
  | step before takes ih => exact ih.takes takes

theorem tells (h : History log r) (hroom : (issued log).length < 2 ^ 64 - 1) : Tells log r := by
  induction h with
  | start => exact ⟨rfl, rfl, .refl _⟩
  | @step log s r r' before takes ih =>
    have hle : (issued log).length ≤ (issued (log ++ [s])).length := by
      rw [issued_append, List.length_append]
      exact Nat.le_add_right _ _
    exact (ih (Nat.lt_of_le_of_lt hle hroom)).takes takes hroom

theorem split (h : History log r) {pre post : List (Step τ)} {s : Step τ}
    (hlog : log = pre ++ s :: post) : ∃ r₁ r₂, History pre r₁ ∧ Takes r₁ s r₂ := by
  induction h generalizing post with
  | start => simp at hlog
  | step before takes ih =>
    rcases concat_eq_append_cons hlog with ⟨rfl, rfl, _⟩ | ⟨inner, hbefore, _⟩
    · exact ⟨_, _, before, takes⟩
    · exact ih hbefore

theorem released_notMem (h : History log r) (hroom : (issued log).length < 2 ^ 64 - 1)
    {pre post : List (Step τ)} {token : Token} (hlog : log = pre ++ .released token :: post)
    (hissued : token ∈ issued pre) (entry : τ) : (token, entry) ∉ standing log := by
  have hdistinct := (h.tells hroom).distinct
  rw [hlog] at hdistinct ⊢
  rw [issued_append] at hdistinct
  rw [standing_append]
  intro hm
  rcases List.mem_append.mp hm with hm | hm
  · simp [Step.releases] at hm
  · have hlater : token ∈ issued (.released token :: post) := mem_issued_of_standing hm
    exact (List.nodup_append.mp hdistinct).2.2 _ hissued _ hlater rfl

end History

/-- What holds of a table after the steps of a log. -/
structure Safe (log : List (Step τ)) (r : Registry τ) : Prop where
  distinct : (issued log).Nodup
  nonzero : 0 ∉ issued log
  live : r.live.Perm (standing log)
  size : r.size = (standing log).length
  resolves : ∀ token entry, r.resolve token = some entry ↔ (token, entry) ∈ standing log
  null : r.resolve 0 = none
  unissued : ∀ token, token ∉ issued log → r.resolve token = none
  stale : ∀ pre token post, log = pre ++ .released token :: post → token ∈ issued pre →
    r.resolve token = none
  release_only : ∀ token other,
    (r.release token).resolve other = if other = token then none else r.resolve other
  release_again : ∀ token, (r.release token).release token = r.release token

theorem History.safe {log : List (Step τ)} {r : Registry τ} (h : History log r)
    (hroom : (issued log).length < 2 ^ 64 - 1) : Safe log r := by
  have htells := h.tells hroom
  have hresolves : ∀ token entry, r.resolve token = some entry ↔ (token, entry) ∈ standing log :=
    fun _ _ => h.sound.resolve_eq_some_iff.trans htells.live.mem_iff
  refine ⟨htells.distinct, htells.nonzero, htells.live, htells.live.length_eq, hresolves, rfl, ?_,
    ?_, r.resolve_release, r.release_release⟩
  · intro token hm
    apply Option.eq_none_iff_forall_ne_some.mpr
    intro entry he
    exact hm (mem_issued_of_standing ((hresolves token entry).mp he))
  · intro pre token post hlog hissued
    apply Option.eq_none_iff_forall_ne_some.mpr
    intro entry he
    exact h.released_notMem hroom hlog hissued entry ((hresolves token entry).mp he)

theorem resolve_eq_none {r : Registry τ} {token : Token} (h : ∀ x ∈ r.live, x.1 ≠ token) :
    r.resolve token = none := by
  have hfind : r.live.find? (·.1 = token) = none := List.find?_eq_none.mpr (by simpa using h)
  simp [resolve, hfind]

end ScanBridge.Registry

namespace ScanBridge

open Registry

/-- On the table of tokens, whatever is done with bundles comes down to steps that can be logged. -/
theorem Dealing.history {hs hs' : List Holding} {w w' : World} (h : Dealing hs w hs' w')
    {log : List (Step BundleId)} (hlog : History log w.registry) :
    ∃ more, History (log ++ more) w'.registry ∧
      w.registrations + (issued more).length ≤ w'.registrations := by
  induction h generalizing log with
  | andThen first second ih₁ ih₂ =>
    obtain ⟨more₁, h₁, hle₁⟩ := ih₁ hlog
    obtain ⟨more₂, h₂, hle₂⟩ := ih₂ h₁
    refine ⟨more₁ ++ more₂, List.append_assoc .. ▸ h₂, ?_⟩
    rw [issued_append, List.length_append]
    omega
  | frame before after inner ih => exact ih hlog
  | notify n w =>
    exact ⟨[], (List.append_nil log).symm ▸ hlog, World.registrations_le_notify w n⟩
  | close x w | drop x w =>
    refine ⟨[], ?_, Nat.le_of_eq (World.registrations_release w _).symm⟩
    rw [List.append_nil, World.release_registry]
    exact hlog
  -- A scan is its registration, what is done during it, and its release.
  | @scan id hs hs' w w' inner ih =>
    have henrolled : History (log ++ [.registered w.registry.nextToken id])
        (w.enrolled id).registry := hlog.step (.register w.registry id)
    obtain ⟨more, hmore, hle⟩ := ih henrolled
    have hleft := hmore.step (.release w'.registry w.registry.nextToken)
    refine ⟨.registered w.registry.nextToken id ::
      (more ++ [.released w.registry.nextToken]), ?_, ?_⟩
    · simpa [Bundle.withdraw, World.notify] using hleft
    · rw [World.registrations_enrolled] at hle
      rw [World.registrations_withdraw]
      simp only [issued, List.filterMap_cons, List.filterMap_append, Step.issued?,
        List.filterMap_nil, List.append_nil, List.length_cons] at hle ⊢
      omega
  | rest | reorder | elsewhere | make | keep =>
    exact ⟨[], (List.append_nil log).symm ▸ hlog, Nat.le_refl _⟩

/-- The table of tokens under any interleaving of scans. At every step of a log, and after it, no
token was given out twice and the table holds what was registered and not released since. An event
whose token is not live is answered with an error and nothing else is done about it, whichever
bundle is being scanned; and all that is ever done with bundles are such steps. -/
theorem token_table_safe {τ : Type} {log : List (Step τ)} {r : Registry τ} (h : History log r)
    (hroom : (issued log).length < 2 ^ 64 - 1) :
    Safe log r ∧
      (∀ pre s post, log = pre ++ s :: post →
        ∃ r₁ r₂, History pre r₁ ∧ Safe pre r₁ ∧ Takes r₁ s r₂) ∧
      (∀ (names : τ → BundleId) (w : World), w.registry.live = r.live.map (Prod.map id names) →
        ∀ e : Event, (∀ entry, (e.token, entry) ∉ standing log) →
          (∀ {σ : Type} [ScanCallback σ] (b : Bundle σ), b.answer e w =
            ⟨⟨Verdict.error.code, e.data.slot⟩, b, w.notify (.unroutable e.code)⟩) ∧
          answerUnattended e () w =
            ⟨⟨Verdict.error.code, e.data.slot⟩, (), w.notify (.unroutable e.code)⟩) ∧
      ∀ {hs hs' : List Holding} {w w' : World}, Conduct hs w hs' w' →
        ∀ {before : List (Step BundleId)}, History before w.registry →
          ∃ more, History (before ++ more) w'.registry ∧
            w.registrations + (issued more).length ≤ w'.registrations := by
  have hsafe := h.safe hroom
  refine ⟨hsafe, ?_, ?_, fun hconduct _ hbefore => hconduct.dealing.history hbefore⟩
  · intro pre s post hlog
    obtain ⟨r₁, r₂, hpre, htakes⟩ := h.split hlog
    have hroom₁ : (issued pre).length < 2 ^ 64 - 1 := by
      rw [hlog, issued_append, List.length_append] at hroom
      omega
    exact ⟨r₁, r₂, hpre, hpre.safe hroom₁, htakes⟩
  · intro names w hlive e hstale
    have hnone : w.registry.resolve e.token = none := by
      apply resolve_eq_none
      rw [hlive]
      intro x hx he
      obtain ⟨y, hy, rfl⟩ := List.mem_map.mp hx
      exact hstale y.2 (he ▸ hsafe.live.mem_iff.mp hy)
    refine ⟨fun b => ?_, ?_⟩
    · rw [Bundle.answer, hnone]
      rfl
    · rw [answerUnattended, hnone]
      rfl

/-- Two scans take turns, and one of them looks for the other after it is over. -/
def Registry.turns : List (Step String) :=
  [.registered 1 "a", .registered 2 "b", .resolved 1 (some "a"), .released 1, .resolved 1 none,
    .resolved 2 (some "b"), .released 1, .registered 3 "c"]

theorem token_table_safe_turns :
    ∃ r : Registry String, History Registry.turns r ∧ (issued Registry.turns).length < 2 ^ 64 - 1 ∧
      r.size = 2 ∧ r.resolve 2 = some "b" ∧ r.resolve 3 = some "c" ∧ r.resolve 1 = none := by
  have history : ∃ r : Registry String, History Registry.turns r :=
    ⟨_, History.start |>.step (.register _ "a") |>.step (.register _ "b") |>.step (.resolve _ 1)
      |>.step (.release _ 1) |>.step (.resolve _ 1) |>.step (.resolve _ 2) |>.step (.release _ 1)
      |>.step (.register _ "c")⟩
  obtain ⟨r, h⟩ := history
  have hroom : (issued Registry.turns).length < 2 ^ 64 - 1 := by decide
  obtain ⟨hsafe, _⟩ := token_table_safe h hroom
  refine ⟨r, h, hroom, hsafe.size, ?_, ?_, ?_⟩
  · exact (hsafe.resolves 2 "b").mpr (by decide)
  · exact (hsafe.resolves 3 "c").mpr (by decide)
  · exact hsafe.stale [.registered 1 "a", .registered 2 "b", .resolved 1 (some "a")] 1 _ rfl
      (by decide)

end ScanBridge
