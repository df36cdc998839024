import ScanBridge.Proofs.Routed

namespace ScanBridge

variable {σ : Type} [ScanCallback σ]

namespace Exchange

def ruling (x : Exchange (Bundle σ)) : Except BridgeError Control := x.state.ruling x.event x.world

omit [ScanCallback σ] in
def fate (x : Exchange (Bundle σ)) : Fate := x.event.fate x.state.capabilities

def heard? (x : Exchange (Bundle σ)) : Option Call := x.state.heard? x.event

end Exchange

theorem foldl_or_eq {α β : Type} (f : α → Option β) (xs : List α) (first : Option β) :
    xs.foldl (fun e x => e.or (f x)) first = first.or (xs.findSome? f) := by
  induction xs generalizing first with
  | nil => simp
  | cons x xs ih =>
    simp only [List.foldl_cons, List.findSome?_cons, ih]
    cases first <;> cases f x <;> rfl

theorem foldl_any_eq {α : Type} (p : α → Bool) (xs : List α) (start : Bool) :
    xs.foldl (fun a x => a || p x) start = (start || xs.any p) := by
  induction xs generalizing start with
  | nil => simp
  | cons x xs ih => simp only [List.foldl_cons, List.any_cons, ih, Bool.or_assoc]

theorem foldl_count_eq {α : Type} (p : α → Prop) [DecidablePred p] (xs : List α) (start : Nat) :
    xs.foldl (fun n x => n + if p x then 1 else 0) start = start + xs.countP p := by
  induction xs generalizing start with
  | nil => simp
  | cons x xs ih =>
    simp only [List.foldl_cons, List.countP_cons, ih, decide_eq_true_eq]
    omega

namespace Stats

theorem of_tally (s : Stats) (fate : Fate) (kind : EventKind) :
    (s.tally fate).of kind = s.of kind + if fate = .delivered kind then 1 else 0 := by
  cases fate with
  | delivered other => cases other <;> cases kind <;> rfl
  | _ => rfl

theorem skipped_tally (s : Stats) (fate : Fate) :
    (s.tally fate).skipped = s.skipped + if fate = .skipped then 1 else 0 := by
  cases fate with
  | delivered kind => cases kind <;> rfl
  | _ => rfl

theorem unknown_tally (s : Stats) (fate : Fate) :
    (s.tally fate).unknown = s.unknown + if fate = .unknown then 1 else 0 := by
  cases fate with
  | delivered kind => cases kind <;> rfl
  | _ => rfl

theorem of_ofEvents (s : Stats) (kind : EventKind) : s.ofEvents.of kind = s.of kind := by
  cases kind <;> rfl

theorem delivered_eq_sum (s : Stats) : s.delivered = (EventKind.all.map s.of).sum := by
  simp [delivered, EventKind.all, of]
  omega

end Stats

namespace Bundle

variable {b b' : Bundle σ} {w w' : World} {xs : List (Exchange (Bundle σ))}

theorem chain_verdict (h : Chain answer b w xs b' w') {x : Exchange (Bundle σ)} (hx : x ∈ xs)
    (hr : x.routed = true) :
    x.answered.reply.verdict = (Verdict.ofOutcome x.ruling).code := by
  rw [h.answered hx, answer_routed (by simpa [Exchange.routed] using hr)]
  exact (handle_account x.state x.event x.world).1

/-- What each event for the bundle changes in its own way is folded over these events. -/
theorem chain_fold {β : Type} (f : Bundle σ → β) (g : β → Exchange (Bundle σ) → β)
    (hstep : ∀ (e : Event) (b : Bundle σ) (w : World) (a : Answered (Bundle σ)),
      f (b.handle e w).state = g (f b) ⟨e, b, w, a⟩)
    (h : Chain answer b w xs b' w') :
    f b' = (xs.filter (·.routed)).foldl g (f b) := by
  induction h with
  | done b w => rfl
  | notice n rest ih => exact ih
  | @event e b b' w w' xs rest ih =>
    rw [ih]
    by_cases hr : w.registry.resolve e.token = some b.id
    · rw [List.filter_cons_of_pos (by simpa [Exchange.routed] using hr), List.foldl_cons,
        answer_routed hr, hstep e b w]
    · rw [List.filter_cons_of_neg (by simpa [Exchange.routed] using hr), (answer_unrouted hr).2]

theorem chain_error (h : Chain answer b w xs b' w') :
    b'.error = b.error.or ((xs.filter (·.routed)).findSome? fun x => raised? x.ruling) := by
  rw [← foldl_or_eq]
  refine chain_fold Bundle.error _ ?_ h
  intro e b w a
  have hs := congrArg Bundle.error (handle_account b e w).2
  exact hs

theorem chain_aborted (h : Chain answer b w xs b' w') :
    b'.aborted = (b.aborted ||
      (xs.filter (·.routed)).any fun x => Verdict.ofOutcome x.ruling = .abort) := by
  rw [← foldl_any_eq]
  refine chain_fold Bundle.aborted _ ?_ h
  intro e b w a
  have hs := congrArg Bundle.aborted (handle_account b e w).2
  exact hs

theorem handle_stats (b : Bundle σ) (e : Event) (w : World) :
    (b.handle e w).state.stats.ofEvents = (b.stats.tally (e.fate b.capabilities)).ofEvents :=
  congrArg Bundle.stats (handle_account b e w).2

theorem chain_of (h : Chain answer b w xs b' w') (kind : EventKind) :
    b'.stats.of kind = b.stats.of kind +
      (xs.filter (·.routed)).countP fun x => x.fate = .delivered kind := by
  rw [← foldl_count_eq]
  refine chain_fold (fun b => b.stats.of kind) _ ?_ h
  intro e b w a
  have hs := congrArg (Stats.of · kind) (handle_stats b e w)
  simp only [Stats.of_ofEvents] at hs
  exact hs.trans (Stats.of_tally _ _ _)

theorem chain_skipped (h : Chain answer b w xs b' w') :
    b'.stats.skipped = b.stats.skipped +
      (xs.filter (·.routed)).countP fun x => x.fate = .skipped := by
  rw [← foldl_count_eq]
  refine chain_fold (fun b => b.stats.skipped) _ ?_ h
  intro e b w a
  have hs := congrArg Stats.skipped (handle_stats b e w)
  exact hs.trans (Stats.skipped_tally _ _)

theorem chain_unknown (h : Chain answer b w xs b' w') :
    b'.stats.unknown = b.stats.unknown +
      (xs.filter (·.routed)).countP fun x => x.fate = .unknown := by
  rw [← foldl_count_eq]
  refine chain_fold (fun b => b.stats.unknown) _ ?_ h
  intro e b w a
  have hs := congrArg Stats.unknown (handle_stats b e w)
  exact hs.trans (Stats.unknown_tally _ _)

end Bundle

end ScanBridge
