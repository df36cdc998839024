import ScanBridge.Proofs.ImportBuffers

namespace ScanBridge

variable {σ τ : Type}

/-- Events that a bundle cannot tell apart before it is asked for module data. -/
structure Event.Same (e e' : Event) : Prop where
  code : e'.code = e.code
  call : ∀ kind, e'.call? kind = e.call? kind

theorem Event.Same.refl (e : Event) : e.Same e := ⟨rfl, fun _ => rfl⟩

theorem Event.Same.fate {e e' : Event} (h : e.Same e') (probed : Capabilities) :
    e'.fate probed = e.fate probed := by
  have hsuits : ∀ kind, e'.data.suits kind = e.data.suits kind := by
    intro kind
    rw [← Event.isSome_call?, ← Event.isSome_call?, h.call]
  simp only [Event.fate, h.code, hsuits]

theorem Stats.eq_of_parts {s s' : Stats} (hevents : s'.ofEvents = s.ofEvents)
    (himports : s'.imports = s.imports) : s' = s := by
  cases s
  cases s'
  simp only [ofEvents, imports, Stats.mk.injEq, Prod.mk.injEq] at hevents himports ⊢
  tauto

namespace Bundle

/-- Bundles with the same account of the scan, the same capabilities and the same limits. Their
callbacks, ids and import buffers may differ. -/
structure Agrees (b : Bundle σ) (b' : Bundle τ) : Prop where
  capabilities : b'.capabilities = b.capabilities
  options : b'.options = b.options
  isClosed : b'.isClosed = b.isClosed
  stats : b'.stats = b.stats
  aborted : b'.aborted = b.aborted
  error : b'.error = b.error

theorem Agrees.admits {b : Bundle σ} {b' : Bundle τ} (h : b.Agrees b') (payload : Bytes) :
    b'.admits payload = b.admits payload := by
  simp only [Bundle.admits, h.options, h.isClosed]

variable [ScanCallback σ] [ScanCallback τ]

def returned? (b : Bundle σ) (e : Event) (w : World) : Option Outcome :=
  (b.reaction? e w).map Reaction.outcome

theorem ruling_of_returned (b : Bundle σ) (e : Event) (w : World) :
    b.ruling e w = match e.fate b.capabilities, b.returned? e w with
      | .incomplete kind, _ => .error (.missingEventData kind)
      | .delivered kind, some outcome => outcome.ruling kind
      | _, _ => .ok .continue := by
  unfold ruling returned?
  cases e.fate b.capabilities <;> cases b.reaction? e w <;> rfl

theorem satisfied?_of_returned (b : Bundle σ) (e : Event) (w : World) :
    b.satisfied? e w = (b.heard? e).bind fun call =>
      (b.returned? e w).bind fun outcome =>
        (outcome.supply? call).filter fun supply => b.admits supply.2 := by
  unfold satisfied? returned? reaction?
  cases b.heard? e <;> rfl

theorem isSome_returned? (b : Bundle σ) (e : Event) (w : World) :
    (b.returned? e w).isSome = (b.heard? e).isSome := by
  rw [returned?, reaction?, Option.isSome_map, Option.isSome_map]

theorem heard?_eq_some {b : Bundle σ} {e : Event} {call : Call} (h : b.heard? e = some call) :
    ∃ kind, e.fate b.capabilities = .delivered kind ∧ e.call? kind = some call := by
  unfold heard? at h
  split at h
  · rename_i kind hf
    split at h
    · exact ⟨kind, hf, h⟩
    · cases h
  · cases h

variable {b : Bundle σ} {b' : Bundle τ} {e e' : Event} {w w' : World}

theorem Agrees.heard? (h : b.Agrees b') (he : e.Same e')
    (hreturned : b'.returned? e' w' = b.returned? e w) : b'.heard? e' = b.heard? e := by
  have hsome : (b'.heard? e').isSome = (b.heard? e).isSome := by
    rw [← isSome_returned? b' e' w', hreturned, isSome_returned?]
  cases hb : b.heard? e with
  | none =>
    rw [hb] at hsome
    exact Option.isNone_iff_eq_none.mp (by simpa using hsome)
  | some call =>
    rw [hb] at hsome
    obtain ⟨call', hb'⟩ := Option.isSome_iff_exists.mp hsome
    obtain ⟨kind, hf, hc⟩ := heard?_eq_some hb
    obtain ⟨kind', hf', hc'⟩ := heard?_eq_some hb'
    rw [h.capabilities, he.fate, hf] at hf'
    cases hf'
    rw [he.call, hc] at hc'
    rw [hb', hc']

theorem Agrees.ruling (h : b.Agrees b') (he : e.Same e')
    (hreturned : b'.returned? e' w' = b.returned? e w) : b'.ruling e' w' = b.ruling e w := by
  rw [ruling_of_returned, ruling_of_returned, h.capabilities, he.fate, hreturned]

theorem Agrees.satisfied? (h : b.Agrees b') (he : e.Same e')
    (hreturned : b'.returned? e' w' = b.returned? e w) :
    b'.satisfied? e' w' = b.satisfied? e w := by
  rw [satisfied?_of_returned, satisfied?_of_returned, h.heard? he hreturned, hreturned]
  simp only [h.admits]

theorem handle_imports (hopen : b.isClosed = false) (e : Event) (w : World) :
    (b.handle e w).state.isClosed = false ∧
      (b.handle e w).state.pending = b.pending + (b.satisfied? e w).toList.length ∧
      (b.handle e w).state.stats.imports =
        (b.stats.importBuffers + (b.satisfied? e w).toList.length,
          b.stats.importBytes + ((b.satisfied? e w).toList.map (·.2.length)).sum) := by
  have hsatisfied := handle_satisfied hopen e w
  split at hsatisfied
  · rename_i hnone
    obtain ⟨htracker, _, himports⟩ := hsatisfied
    rw [hnone, isClosed, pending, htracker]
    exact ⟨hopen, rfl, himports⟩
  · rename_i module payload hsome
    obtain ⟨reaction, _, htracker, _, _, himports⟩ := hsatisfied
    rw [hsome, isClosed, pending, htracker]
    exact ⟨rfl, List.length_append, himports⟩

theorem handle_rest (b : Bundle σ) (e : Event) (w : World) :
    (b.handle e w).state.capabilities = b.capabilities ∧
      (b.handle e w).state.options = b.options ∧
      (b.handle e w).state.aborted =
        (b.aborted || Verdict.ofOutcome (b.ruling e w) = .abort) ∧
      (b.handle e w).state.error = b.error.or (raised? (b.ruling e w)) := by
  have haccount := (handle_account b e w).2
  have hcapabilities := congrArg Bundle.capabilities haccount
  have hoptions := congrArg Bundle.options haccount
  have haborted := congrArg Bundle.aborted haccount
  have herror := congrArg Bundle.error haccount
  exact ⟨hcapabilities, hoptions, haborted, herror⟩

/-- What a bundle makes of an event depends on its own account and on what its callback returns, and
on nothing else: not on the world, nor on what the callback did before it returned, nor even on what
sort of callback it is. -/
theorem handle_agrees (h : b.Agrees b') (hopen : b.isClosed = false) (he : e.Same e')
    (hreturned : b'.returned? e' w' = b.returned? e w) :
    (b'.handle e' w').reply.verdict = (b.handle e w).reply.verdict ∧
      (b.handle e w).state.Agrees (b'.handle e' w').state := by
  have hruling := h.ruling he hreturned
  obtain ⟨hopen₁, _, himports⟩ := handle_imports hopen e w
  obtain ⟨hopen₁', _, himports'⟩ := handle_imports (h.isClosed.trans hopen) e' w'
  obtain ⟨hcapabilities, hoptions, haborted, herror⟩ := handle_rest b e w
  obtain ⟨hcapabilities', hoptions', haborted', herror'⟩ := handle_rest b' e' w'
  refine ⟨?_, ?_, ?_, ?_, ?_, ?_, ?_⟩
  · rw [(handle_account b e w).1, (handle_account b' e' w').1, hruling]
  · rw [hcapabilities, hcapabilities', h.capabilities]
  · rw [hoptions, hoptions', h.options]
  · rw [hopen₁, hopen₁']
  · apply Stats.eq_of_parts
    · rw [handle_stats, handle_stats, h.stats, h.capabilities, he.fate]
    · rw [himports, himports', h.stats, h.satisfied? he hreturned]
  · rw [haborted, haborted', h.aborted, hruling]
  · rw [herror, herror', h.error, hruling]

theorem answer_agrees (h : b.Agrees b') (hopen : b.isClosed = false) (he : e.Same e')
    (hrouted : w.registry.resolve e.token = some b.id)
    (hrouted' : w'.registry.resolve e'.token = some b'.id)
    (hreturned : b'.returned? e' w' = b.returned? e w) :
    (b'.answer e' w').reply.verdict = (b.answer e w).reply.verdict ∧
      (b.answer e w).state.Agrees (b'.answer e' w').state ∧
      (b'.answer e' w').state.pending + b.pending = (b.answer e w).state.pending + b'.pending := by
  obtain ⟨hverdict, hstate⟩ := handle_agrees h hopen he hreturned
  obtain ⟨_, hpending, _⟩ := handle_imports hopen e w
  obtain ⟨_, hpending', _⟩ := handle_imports (h.isClosed.trans hopen) e' w'
  rw [answer_routed hrouted, answer_routed hrouted']
  refine ⟨hverdict, hstate, ?_⟩
  rw [hpending, hpending', h.satisfied? he hreturned]
  omega

end Bundle

end ScanBridge
