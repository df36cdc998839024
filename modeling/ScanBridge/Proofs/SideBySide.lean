import ScanBridge.Proofs.Agreement
import ScanBridge.Proofs.AlikeRuns

namespace ScanBridge

variable {σ : Type} [ScanCallback σ]

/-- The world later on, when no scan that was begun since is still running. -/
structure World.Onward (w w' : World) : Prop where
  live : w'.registry.live ⊆ w.registry.live
  nextBundle : w.nextBundle ≤ w'.nextBundle

/-- Calls of a callback do the same in all worlds with alike memory. What the callback keeps may
differ as far as the worlds do, in the addresses of buffers, say, and in the ids of bundles that it
has made: `alike` tells which of its states are the same but for that, each in its world. -/
structure Unaware (good : σ → Prop) (alike : Pairs → σ → World → σ → World → Prop) : Prop where
  onward : ∀ {pairs more : Pairs} {s s' : σ} {w w₁ w' w₁' : World}, alike pairs s w s' w' →
    pairs ⊆ more → w.Onward w₁ → w'.Onward w₁' → alike more s w₁ s' w₁'
  offers : ∀ {pairs : Pairs} {s s' : σ} {w w' : World} (kind : EventKind), alike pairs s w s' w' →
    (ScanCallback.offers s' kind).1 = (ScanCallback.offers s kind).1 ∧
      alike pairs (ScanCallback.offers s kind).2 w (ScanCallback.offers s' kind).2 w'
  call : ∀ {pairs : Pairs} {s s' : σ} {w w' : World} (call : Call), good s → good s' →
    w.InOrder → w'.InOrder → alike pairs s w s' w' → w.heap.Alike pairs w'.heap →
    (ScanCallback.call s call w).world.registrations < 2 ^ 64 - 1 →
    (ScanCallback.call s' call w').world.registrations < 2 ^ 64 - 1 →
    (ScanCallback.call s' call w').outcome = (ScanCallback.call s call w).outcome ∧
      ∃ more, pairs ⊆ more ∧
        alike more (ScanCallback.call s call w).state (ScanCallback.call s call w).world
          (ScanCallback.call s' call w').state (ScanCallback.call s' call w').world ∧
        (ScanCallback.call s call w).world.heap.Alike more
          (ScanCallback.call s' call w').world.heap

theorem World.Onward.refl (w : World) : w.Onward w := ⟨List.Subset.refl _, Nat.le_refl _⟩

theorem World.Onward.of_eq {w w' : World} (hregistry : w'.registry = w.registry)
    (hnext : w'.nextBundle = w.nextBundle) : w.Onward w' :=
  ⟨hregistry ▸ List.Subset.refl _, Nat.le_of_eq hnext.symm⟩

theorem World.foldl_notify_onward (ns : List Notice) (w : World) :
    w.Onward (ns.foldl notify w) := by
  induction ns generalizing w with
  | nil => exact .refl w
  | cons n ns ih => exact ⟨(ih (w.notify n)).live, (ih (w.notify n)).nextBundle⟩

theorem World.registrations_le_foldl_notify (ns : List Notice) (w : World) :
    w.registrations ≤ (ns.foldl notify w).registrations := by
  induction ns generalizing w with
  | nil => exact Nat.le_refl _
  | cons n ns ih => exact Nat.le_trans (registrations_le_notify w n) (ih (w.notify n))

namespace Bundle

def left (b : Bundle σ) (e : Event) (w : World) : World :=
  ((b.reaction? e w).map Reaction.world).getD w

def supplied (supply : Option (String × Bytes)) (w : World) : World :=
  match supply with
  | none => w
  | some (_, payload) => { w with heap := w.heap.alloc .bundle payload }

omit [ScanCallback σ] in
theorem inject_world {b : Bundle σ} (hopen : b.isClosed = false) (module : String)
    (payload : Bytes) (slot : Slot) (w : World) :
    ∃ ns : List Notice, (b.inject module payload slot w).world =
      ns.foldl World.notify
        (supplied ((some (module, payload)).filter fun supply => b.admits supply.2) w) := by
  rw [Option.filter_some]
  cases ha : b.admits payload with
  | true =>
    rw [inject_admitted module slot w ha]
    exact ⟨[.injected module payload.length], rfl⟩
  | false =>
    obtain ⟨w', hi, hw⟩ := inject_refused module slot w hopen ha
    rw [hi]
    rcases hw with rfl | ⟨n, rfl⟩
    · exact ⟨[], rfl⟩
    · exact ⟨[n], rfl⟩

omit [ScanCallback σ] in
theorem settle_notices (b : Bundle σ) (outcome : Except BridgeError Control) (w : World) :
    ∃ ns : List Notice, (b.settle outcome w).2 = ns.foldl World.notify w := by
  rcases b.settle_world outcome w with hw | ⟨n, hw⟩
  · exact ⟨[], hw⟩
  · exact ⟨[n], hw⟩

theorem invoke_world {b : Bundle σ} (hopen : b.isClosed = false) {e : Event} {call : Call}
    (hf : e.fate b.capabilities = .delivered call.kind) (hcall : e.call? call.kind = some call)
    (w : World) :
    ∃ ns : List Notice, (b.invoke call e.data.slot w).world =
      ns.foldl World.notify (supplied (b.satisfied? e w) (b.left e w)) := by
  cases ho : (ScanCallback.offers b.callback call.kind).1 with
  | false =>
    rw [invoke_unheard b call e.data.slot w ho]
    exact ⟨[], by simp [left, supplied, satisfied?, reaction?, heard?, hf, ho]⟩
  | true =>
    have hheard : b.heard? e = some call := by simp [heard?, hf, ho, hcall]
    rw [invoke_heard b call e.data.slot w ho, left, satisfied?, reaction?, hheard]
    simp only [Option.bind_some, Option.map_some, Option.getD_some]
    split
    · rename_i module payload hsupply
      have hopen' : (b.called call w).isClosed = false := hopen
      have hinject := inject_world hopen' module payload e.data.slot
        (ScanCallback.call (ScanCallback.offers b.callback call.kind).2 call w).world
      rw [hsupply]
      exact hinject
    · rename_i hsupply
      rw [hsupply]
      exact ⟨[], rfl⟩

/-- After the call for an event the bundle takes at most one buffer and gives notices. -/
theorem handle_world {b : Bundle σ} (hopen : b.isClosed = false) (e : Event) (w : World) :
    ∃ ns : List Notice, (b.handle e w).world =
      ns.foldl World.notify (supplied (b.satisfied? e w) (b.left e w)) := by
  cases hf : e.fate b.capabilities with
  | unknown =>
    rw [handle_unknown w hf]
    exact ⟨[.unknownEvent e.code], by simp [left, supplied, satisfied?, reaction?, heard?, hf]⟩
  | skipped =>
    rw [handle_skipped w hf]
    exact ⟨[], by simp [left, supplied, satisfied?, reaction?, heard?, hf]⟩
  | incomplete kind =>
    obtain ⟨ns, hns⟩ := settle_notices b (.error (.missingEventData kind)) w
    rw [handle_incomplete w hf]
    refine ⟨ns ++ [.dispatched kind .error], ?_⟩
    rw [List.foldl_append, left, satisfied?, reaction?, heard?, hf]
    exact congrArg (World.notify · _) hns
  | delivered kind =>
    obtain ⟨_, _, call, hcall, rfl⟩ := Event.fate_delivered hf
    obtain ⟨ns, hns⟩ := invoke_world hopen hf hcall w
    obtain ⟨ms, hms⟩ := settle_notices (b.invoke call e.data.slot w).bundle
      (b.invoke call e.data.slot w).outcome (b.invoke call e.data.slot w).world
    rw [handle_delivered w hf hcall]
    refine ⟨ns ++ ms ++ [.dispatched call.kind
      (Verdict.ofOutcome (b.invoke call e.data.slot w).outcome)], ?_⟩
    rw [List.foldl_append, List.foldl_append, ← hns, ← hms]
    rfl

theorem handle_heap {b : Bundle σ} (hopen : b.isClosed = false) (e : Event) (w : World) :
    (b.handle e w).world.heap = (supplied (b.satisfied? e w) (b.left e w)).heap := by
  obtain ⟨ns, hns⟩ := handle_world hopen e w
  rw [hns, World.heap_foldl_notify]

theorem left_onward {b : Bundle σ} (hopen : b.isClosed = false) (e : Event) (w : World) :
    (b.left e w).Onward (b.handle e w).world := by
  obtain ⟨ns, hns⟩ := handle_world hopen e w
  have hsupplied : (b.left e w).Onward (supplied (b.satisfied? e w) (b.left e w)) := by
    unfold supplied
    split <;> exact .of_eq rfl rfl
  have htold := World.foldl_notify_onward ns (supplied (b.satisfied? e w) (b.left e w))
  rw [hns]
  exact ⟨List.Subset.trans htold.live hsupplied.live,
    Nat.le_trans hsupplied.nextBundle htold.nextBundle⟩

theorem registrations_left_le {b : Bundle σ} (hopen : b.isClosed = false) (e : Event)
    (w : World) : (b.left e w).registrations ≤ (b.handle e w).world.registrations := by
  obtain ⟨ns, hns⟩ := handle_world hopen e w
  have hsupplied : (supplied (b.satisfied? e w) (b.left e w)).registrations =
      (b.left e w).registrations := by
    unfold supplied
    split <;> rfl
  rw [hns, ← hsupplied]
  exact World.registrations_le_foldl_notify ns _

theorem handle_callback (b : Bundle σ) (e : Event) (w : World) :
    (b.handle e w).state.callback =
      match e.fate b.capabilities, (b.reaction? e w).map Reaction.state with
      | .delivered _, some state => state
      | .delivered kind, none => (ScanCallback.offers b.callback kind).2
      | _, _ => b.callback := by
  have hcallback := congrArg Bundle.callback (handle_account b e w).2
  refine hcallback.trans ?_
  change (b.account e w).callback = _
  unfold account
  cases e.fate b.capabilities <;> cases b.reaction? e w <;> rfl

theorem world_unrouted {b : Bundle σ} {e : Event} {w : World}
    (h : w.registry.resolve e.token ≠ some b.id) :
    (b.answer e w).world.heap = w.heap ∧ w.Onward (b.answer e w).world := by
  unfold answer
  split
  · exact ⟨rfl, .of_eq rfl rfl⟩
  · rename_i id hid
    have hne : id ≠ b.id := fun he => h (he ▸ hid)
    rw [if_neg hne]
    exact ⟨rfl, .refl w⟩

/-- A bundle in the middle of a scan under the token `t`. The tokens of `outside` were live before,
and stand for others. -/
structure Underway (good : σ → Prop) (t : Token) (outside : List (Token × BundleId))
    (b : Bundle σ) (w : World) : Prop where
  fit : b.Fit good
  inOrder : w.InOrder
  live : w.registry.live = (t, b.id) :: outside
  nonzero : t ≠ 0
  idle : ∀ r ∈ outside, r.2 ≠ b.id

namespace Underway

variable {own : σ → List Holding} {good : σ → Prop} {t : Token}
  {outside : List (Token × BundleId)} {b : Bundle σ} {w : World}

omit [ScanCallback σ] in
theorem routed_iff (h : b.Underway good t outside w) (token : Token) :
    w.registry.resolve token = some b.id ↔ token = t := by
  constructor
  · intro hr
    by_contra hne
    have hmiss : ¬ t = token := fun he => hne he.symm
    unfold Registry.resolve at hr
    split at hr
    · cases hr
    · rw [h.live, List.find?_cons_of_neg (by simpa using hmiss)] at hr
      obtain ⟨r, hfind, hid⟩ := Option.map_eq_some_iff.mp hr
      exact h.idle r (List.mem_of_find?_eq_some hfind) hid
  · rintro rfl
    simp [Registry.resolve, h.live, h.nonzero]

theorem answer (hc : Confined Dealing own good) (h : b.Underway good t outside w) (e : Event)
    (hroom : (b.answer e w).world.registrations < 2 ^ 64 - 1) :
    (b.answer e w).state.Underway good t outside (b.answer e w).world := by
  obtain ⟨hanswer, hfit⟩ := answer_dealing hc h.fit e w
  obtain ⟨hw, hlive⟩ := hanswer.registry h.inOrder hroom
  have hid := (answer_alike b e w).id
  refine ⟨hfit, hw, ?_, h.nonzero, ?_⟩
  · rw [hlive, h.live, hid]
  · rw [hid]
    exact h.idle

omit [ScanCallback σ] in
theorem notify (h : b.Underway good t outside w) (n : Notice) :
    b.Underway good t outside (w.notify n) :=
  { h with
    inOrder := h.inOrder.of_subset rfl (List.Subset.refl _) (World.registrations_le_notify w n) }

omit [ScanCallback σ] in
theorem begin (hb : good b.callback) (hopen : b.isClosed = false) (hw : w.InOrder)
    (hroom : w.registrations < 2 ^ 64 - 2) (hidle : ∀ r ∈ w.registry.live, r.2 ≠ b.id) :
    b.cleared.Underway good w.registry.nextToken w.registry.live (b.enrol w) := by
  obtain ⟨henrolled, hlive⟩ := hw.enrolled b.id hroom
  refine ⟨⟨hopen, hb⟩, henrolled, hlive, ?_, hidle⟩
  rw [hw.nextToken]
  exact hw.counter_ne_zero

end Underway

/-- Two scans at the same place. The bundles agree, and their callbacks and the memory of both
worlds are alike. -/
structure Twins (good : σ → Prop) (alike : Pairs → σ → World → σ → World → Prop) (t t' : Token)
    (outside outside' : List (Token × BundleId)) (pairs : Pairs) (b : Bundle σ) (w : World)
    (b' : Bundle σ) (w' : World) : Prop where
  underway : b.Underway good t outside w
  underway' : b'.Underway good t' outside' w'
  agrees : b.Agrees b'
  callback : alike pairs b.callback w b'.callback w'
  heaps : w.heap.Alike pairs w'.heap

end Bundle

theorem Event.Alike.same {t t' : Token} {pairs : Pairs} {e e' : Event}
    (h : e.Alike t t' pairs e') : e.Same e' := by
  refine ⟨h.code, fun kind => ?_⟩
  obtain ⟨token, code, ctx, data⟩ := e
  obtain ⟨token', code', ctx', data'⟩ := e'
  obtain ⟨_, _, hctx, hdata⟩ := h
  dsimp only at hctx hdata
  subst hctx
  cases hdata <;> cases kind <;> rfl

/-- What can be seen of an exchange from both sides: the code, the verdict, the call that the
callback heard and the module data that was handed out. -/
structure Shown where
  code : Int32
  verdict : Int32
  heard : Option Call
  supply : Option (String × Bytes)

def Exchange.shown (x : Exchange (Bundle σ)) : Shown where
  code := x.event.code
  verdict := x.answered.reply.verdict
  heard := if x.routed then x.heard? else none
  supply := x.taken?

namespace Bundle.Twins

variable {own : σ → List Holding} {good : σ → Prop} {alike : Pairs → σ → World → σ → World → Prop}
  {t t' : Token} {outside outside' : List (Token × BundleId)} {pairs : Pairs} {b b' : Bundle σ}
  {w w' : World} {e e' : Event}

theorem heard? (hu : Unaware good alike)
    (h : Twins good alike t t' outside outside' pairs b w b' w') (he : e.Same e') :
    b'.heard? e' = b.heard? e := by
  simp only [Bundle.heard?, he.fate, h.agrees.capabilities, he.call, hu.offers _ h.callback]

theorem reaction (hc : Confined Dealing own good) (hu : Unaware good alike)
    (h : Twins good alike t t' outside outside' pairs b w b' w') (he : e.Same e')
    (hroom : (b.left e w).registrations < 2 ^ 64 - 1)
    (hroom' : (b'.left e' w').registrations < 2 ^ 64 - 1) :
    b'.returned? e' w' = b.returned? e w ∧ ∃ more, pairs ⊆ more ∧
      alike more (b.handle e w).state.callback (b.left e w) (b'.handle e' w').state.callback
        (b'.left e' w') ∧
      (b.left e w).heap.Alike more (b'.left e' w').heap := by
  have hheard := h.heard? hu he
  rw [handle_callback, handle_callback, he.fate, h.agrees.capabilities]
  unfold left at hroom hroom' ⊢
  unfold returned?
  unfold reaction? at hroom hroom' ⊢
  rw [hheard] at hroom' ⊢
  cases hcall : b.heard? e with
  | none =>
    refine ⟨rfl, pairs, List.Subset.refl _, ?_, h.heaps⟩
    cases e.fate b.capabilities with
    | delivered kind => exact (hu.offers kind h.callback).2
    | _ => exact h.callback
  | some call =>
    obtain ⟨kind, hf, _⟩ := heard?_eq_some hcall
    rw [hcall] at hroom hroom'
    have hgood := hc.offers_good b.callback call.kind h.underway.fit.callback
    have hgood' := hc.offers_good b'.callback call.kind h.underway'.fit.callback
    obtain ⟨houtcome, hleft⟩ := hu.call call hgood hgood' h.underway.inOrder h.underway'.inOrder
      (hu.offers call.kind h.callback).2 h.heaps hroom hroom'
    rw [hf]
    exact ⟨congrArg some houtcome, hleft⟩

theorem handle (hc : Confined Dealing own good) (hu : Unaware good alike)
    (h : Twins good alike t t' outside outside' pairs b w b' w') (he : e.Alike t t' pairs e')
    (hroom : (b.handle e w).world.registrations < 2 ^ 64 - 1)
    (hroom' : (b'.handle e' w').world.registrations < 2 ^ 64 - 1) :
    b'.satisfied? e' w' = b.satisfied? e w ∧ (b.handle e w).state.Agrees (b'.handle e' w').state ∧
      ∃ more, pairs ⊆ more ∧
        alike more (b.handle e w).state.callback (b.handle e w).world
          (b'.handle e' w').state.callback (b'.handle e' w').world ∧
        (b.handle e w).reply.Alike more (b'.handle e' w').reply ∧
        (b.handle e w).world.heap.Alike more (b'.handle e' w').world.heap := by
  have hopen := h.underway.fit.isOpen
  have hopen' := h.underway'.fit.isOpen
  obtain ⟨hreturned, more, hle, hcallback, hleft⟩ := h.reaction hc hu he.same
    (Nat.lt_of_le_of_lt (registrations_left_le hopen e w) hroom)
    (Nat.lt_of_le_of_lt (registrations_left_le hopen' e' w') hroom')
  obtain ⟨hverdict, hagrees⟩ := handle_agrees h.agrees hopen he.same hreturned
  have hsatisfied := h.agrees.satisfied? he.same hreturned
  have honward := left_onward hopen e w
  have honward' := left_onward hopen' e' w'
  refine ⟨hsatisfied, hagrees, ?_⟩
  have hslot := handle_satisfied hopen e w
  have hslot' := handle_satisfied hopen' e' w'
  rw [hsatisfied] at hslot'
  rw [handle_heap hopen, handle_heap hopen', hsatisfied]
  cases hs : b.satisfied? e w with
  | none =>
    rw [hs] at hslot hslot'
    refine ⟨more, hle, hu.onward hcallback (List.Subset.refl _) honward honward',
      ⟨hverdict, ?_⟩, hleft⟩
    rw [hslot.2.1, hslot'.2.1]
    exact he.data.slot.mono hle
  | some supply =>
    obtain ⟨module, payload⟩ := supply
    rw [hs] at hslot hslot'
    obtain ⟨reaction, hreaction, _, hdata, _⟩ := hslot
    obtain ⟨reaction', hreaction', _, hdata', _⟩ := hslot'
    -- The blocks for the module data are taken at the same time in both worlds.
    have halloc := hleft.alloc .bundle payload
    have hgrown := List.subset_cons_self ((b.left e w).heap.next, (b'.left e' w').heap.next) more
    refine ⟨_, List.Subset.trans hle hgrown, hu.onward hcallback hgrown honward honward',
      ⟨hverdict, ?_⟩, halloc⟩
    rw [hdata, hdata']
    simp only [left, hreaction, hreaction', Option.map_some, Option.getD_some]
    exact ⟨.some (.heap List.mem_cons_self), rfl⟩

/-- One exchange: both sides see the same, and the scans are still at the same place after it. -/
theorem answer (hc : Confined Dealing own good) (hu : Unaware good alike)
    (h : Twins good alike t t' outside outside' pairs b w b' w') (he : e.Alike t t' pairs e')
    (hroom : (b.answer e w).world.registrations < 2 ^ 64 - 1)
    (hroom' : (b'.answer e' w').world.registrations < 2 ^ 64 - 1) :
    Exchange.shown ⟨e', b', w', b'.answer e' w'⟩ = Exchange.shown ⟨e, b, w, b.answer e w⟩ ∧
      ∃ more, pairs ⊆ more ∧ (b.answer e w).reply.Alike more (b'.answer e' w').reply ∧
        Twins good alike t t' outside outside' more (b.answer e w).state (b.answer e w).world
          (b'.answer e' w').state (b'.answer e' w').world := by
  have hunderway := h.underway.answer hc e hroom
  have hunderway' := h.underway'.answer hc e' hroom'
  have hheard := h.heard? hu he.same
  by_cases htoken : e.token = t
  · have hr : w.registry.resolve e.token = some b.id := (h.underway.routed_iff _).mpr htoken
    have hr' : w'.registry.resolve e'.token = some b'.id :=
      (h.underway'.routed_iff _).mpr (he.token.mp htoken)
    rw [answer_routed hr] at hroom hunderway ⊢
    rw [answer_routed hr'] at hroom' hunderway' ⊢
    obtain ⟨hsatisfied, hagrees, more, hle, hcallback, hreply, hheaps⟩ :=
      h.handle hc hu he hroom hroom'
    refine ⟨?_, more, hle, hreply, hunderway, hunderway', hagrees, hcallback, hheaps⟩
    simp only [Exchange.shown, Exchange.taken?, Exchange.routed, Exchange.heard?, hr, hr',
      decide_true, if_true, hheard, hsatisfied, he.code, hreply.verdict]
  · have hr : w.registry.resolve e.token ≠ some b.id := fun hr =>
      htoken ((h.underway.routed_iff _).mp hr)
    have hr' : w'.registry.resolve e'.token ≠ some b'.id := fun hr' =>
      htoken (he.token.mpr ((h.underway'.routed_iff _).mp hr'))
    obtain ⟨hreply, hstate⟩ := answer_unrouted hr
    obtain ⟨hreply', hstate'⟩ := answer_unrouted hr'
    obtain ⟨hheap, honward⟩ := world_unrouted hr
    obtain ⟨hheap', honward'⟩ := world_unrouted hr'
    refine ⟨?_, pairs, List.Subset.refl _, ?_, hunderway, hunderway', ?_, ?_, ?_⟩
    · simp only [Exchange.shown, Exchange.taken?, Exchange.routed, hr, hr', decide_false, if_false,
        Bool.false_eq_true, he.code, hreply, hreply']
    · rw [hreply, hreply']
      exact ⟨rfl, he.data.slot⟩
    · rw [hstate, hstate']
      exact h.agrees
    · rw [hstate, hstate']
      exact hu.onward h.callback (List.Subset.refl _) honward honward'
    · rw [hheap, hheap']
      exact h.heaps

theorem notify (hu : Unaware good alike)
    (h : Twins good alike t t' outside outside' pairs b w b' w') (n : Notice) :
    Twins good alike t t' outside outside' pairs b (w.notify n) b' (w'.notify n) :=
  { h with
    underway := h.underway.notify n
    underway' := h.underway'.notify n
    callback := hu.onward h.callback (List.Subset.refl _) (.of_eq rfl rfl) (.of_eq rfl rfl) }

end Bundle.Twins

namespace Bundle

variable {own : σ → List Holding} {good : σ → Prop}
  {alike : Pairs → σ → World → σ → World → Prop}

theorem registrations_drive_le {α : Type} (hc : Confined Dealing own good) {b : Bundle σ}
    (hb : b.Fit good) (run : Run α) (w : World) :
    w.registrations ≤ (run.drive answer b w).world.registrations :=
  (chain_dealing hc (run.chain answer b w) hb).1.registrations_le

theorem Twins.drive {α : Type} (hc : Confined Dealing own good) (hu : Unaware good alike)
    {t t' : Token} {outside outside' : List (Token × BundleId)} {pairs : Pairs} {run run' : Run α}
    (halike : run.Alike t t' pairs run') {b b' : Bundle σ} {w w' : World}
    (h : Twins good alike t t' outside outside' pairs b w b' w')
    (hroom : (run.drive Bundle.answer b w).world.registrations < 2 ^ 64 - 1)
    (hroom' : (run'.drive Bundle.answer b' w').world.registrations < 2 ^ 64 - 1) :
    (run'.drive Bundle.answer b' w').ending = (run.drive Bundle.answer b w).ending ∧
      (run'.drive Bundle.answer b' w').engine = (run.drive Bundle.answer b w).engine ∧
      (run'.exchanges Bundle.answer b' w').map Exchange.shown =
        (run.exchanges Bundle.answer b w).map Exchange.shown ∧
      ∃ more, pairs ⊆ more ∧
        Twins good alike t t' outside outside' more (run.drive Bundle.answer b w).state
          (run.drive Bundle.answer b w).world (run'.drive Bundle.answer b' w').state
          (run'.drive Bundle.answer b' w').world := by
  -- By the run of the engine, for any two scans at one place: an exchange leaves two scans at one
  -- place.
  induction halike generalizing b b' w w' with
  | finish pairs status left => exact ⟨rfl, rfl, rfl, pairs, List.Subset.refl _, h⟩
  | panic pairs left => exact ⟨rfl, rfl, rfl, pairs, List.Subset.refl _, h⟩
  | notify n rest ih => exact ih (h.notify hu n) hroom hroom'
  | look seen ih => exact ih w w' h.heaps h hroom hroom'
  | @emit pairs e e' k k' event told ih =>
    have hfit := (answer_dealing hc h.underway.fit e w).2
    have hfit' := (answer_dealing hc h.underway'.fit e' w').2
    obtain ⟨hshown, more, hle, hreply, hnext⟩ := h.answer hc hu event
      (Nat.lt_of_le_of_lt (registrations_drive_le hc hfit _ _) hroom)
      (Nat.lt_of_le_of_lt (registrations_drive_le hc hfit' _ _) hroom')
    obtain ⟨hending, hengine, hrest, most, hle', hend⟩ :=
      ih more _ _ hle hreply hnext hroom hroom'
    refine ⟨hending, hengine, ?_, most, List.Subset.trans hle hle', hend⟩
    exact congrArg₂ List.cons hshown hrest

end Bundle

end ScanBridge
