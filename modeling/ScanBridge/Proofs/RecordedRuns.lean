import ScanBridge.Proofs.CollectedMatches

namespace ScanBridge

variable {σ ε : Type}

def EventData.rule? : EventData → Option Layout.Rule
  | .rule r => some r
  | _ => none

namespace Event

/-- What a recorder keeps of an event in a scan with a token. -/
def record? (token : Token) (e : Event) : Option MatchRecord :=
  if e.token = token ∧ e.code = 1 then e.data.rule?.map (MatchRecord.capture e.ctx) else none

def recorderVerdict (token : Token) (e : Event) : Verdict :=
  if e.token = token ∧ (e.code = 1 → e.data.rule?.isSome) then .continue else .error

end Event

theorem Registry.resolve_register_of_ne {τ : Type} {r : Registry τ} {entry : τ} {token : Token}
    (h : token ≠ r.nextToken) : (r.register entry).resolve token = r.resolve token := by
  have hkept := r.resolve_release r.nextToken token
  rw [if_neg h] at hkept
  rw [← hkept, resolve, resolve, register, release,
    List.find?_cons_of_neg (by simpa using h.symm)]

structure Sent (σ : Type) extends Exchange (Bundle σ) where
  scan : Token

namespace Bundle

/-- No token stands for the bundle, since no scan of it is running. -/
def AtRest (b : Bundle σ) (w : World) : Prop := ∀ token, w.registry.resolve token ≠ some b.id

variable [ScanCallback σ]

def sent [Engine ε] (b : Bundle σ) (engine : ε) (w : World) : List (Sent σ) :=
  if b.isClosed then [] else (b.transcript engine w).map (.mk · w.registry.nextToken)

/-- Scans of one bundle after another, each with any engine and in any world, with all that is sent
during them. -/
inductive Successive : Bundle σ → List (Sent σ) → Bundle σ → Prop
  | done (b : Bundle σ) : Successive b [] b
  | scan {ε : Type} [Engine ε] {b b' : Bundle σ} {xs : List (Sent σ)}
      (engine : ε) {w : World} (rest : b.AtRest w)
      (more : Successive (b.scan engine w).bundle xs b') : Successive b (b.sent engine w ++ xs) b'

/-- A bundle that takes no buffers is reached, during its scan, by the token of the scan alone. -/
theorem watching_routed_iff [Engine ε] (hcall : Watches σ) {b : Bundle σ}
    (hprobed : b.capabilities.importModule = false) {engine : ε} {w : World} (hrest : b.AtRest w)
    {x : Exchange (Bundle σ)} (hx : x ∈ b.transcript engine w) :
    x.world.registry.resolve x.event.token = some x.state.id ↔
      x.event.token = w.registry.nextToken := by
  have hid : x.state.id = b.id := ((chain_alike (b.transcript_chain engine w)).1 x hx).id
  -- Since the bundle was registered, its callback and the engine have only given notices.
  have hregistry : x.world.registry = w.registry.register b.id :=
    ((scan_told hcall hprobed engine w).1 x hx).1.registry
  rw [hregistry, hid]
  constructor
  · intro hresolve
    by_contra hother
    rw [Registry.resolve_register_of_ne hother] at hresolve
    exact hrest _ hresolve
  · intro htoken
    rw [htoken]
    exact w.registry.resolve_register b.id

end Bundle

namespace MatchRecorder

open ScanBridge.Bundle

variable {b b' : Bundle MatchRecorder} {w w' : World}

theorem fate_probed (e : Event) :
    e.fate probed =
      if e.code = 1 then
        if e.data.rule?.isSome then .delivered .ruleMatching else .incomplete .ruleMatching
      else if EventKind.ofCode? e.code = none then .unknown else .skipped := by
  have hdata : e.data.suits .ruleMatching = e.data.rule?.isSome := by cases e.data <;> rfl
  unfold Event.fate
  cases hcode : EventKind.ofCode? e.code with
  | none =>
    have hne : e.code ≠ 1 := by
      intro hone
      rw [hone] at hcode
      cases hcode.symm.trans (EventKind.ofCode?_code .ruleMatching)
    rw [if_neg hne, if_pos rfl]
  | some kind =>
    rw [EventKind.ofCode?_eq_some_iff] at hcode
    cases kind <;> simp [hcode, EventKind.code, probed, Capabilities.ofList, hdata]

theorem heard_probed (hb : b.capabilities = probed) (e : Event) :
    b.heard? e = if e.code = 1 then e.data.rule?.map (.ruleMatching e.ctx) else none := by
  have hcall : e.call? .ruleMatching = e.data.rule?.map (.ruleMatching e.ctx) := by
    cases hd : e.data <;> simp [Event.call?, EventData.rule?, hd]
  rw [heard?, hb, fate_probed]
  by_cases hcode : e.code = 1
  · rw [if_pos hcode, if_pos hcode, ← hcall]
    cases hr : e.data.rule? with
    | none => simp [hcall, hr]
    | some r => simp [ScanCallback.offers]
  · rw [if_neg hcode, if_neg hcode]
    cases EventKind.ofCode? e.code <;> rfl

theorem ruling_probed (hb : b.capabilities = probed) (e : Event) (w : World) :
    b.ruling e w =
      if e.code = 1 → e.data.rule?.isSome then .ok .continue
      else .error (.missingEventData .ruleMatching) := by
  rw [ruling_eq, hb, fate_probed]
  by_cases hcode : e.code = 1
  · by_cases hr : e.data.rule?.isSome
    · simp [hcode, hr]
    · simp [hcode, hr]
  · rw [if_neg hcode, if_pos fun h => absurd h hcode]
    cases EventKind.ofCode? e.code <;> rfl

theorem answer_records (hb : b.capabilities = probed) {e : Event} {token : Token}
    (hrouted : w.registry.resolve e.token = some b.id ↔ e.token = token) :
    (b.answer e w).state.callback.records = b.callback.records ++ (e.record? token).toList ∧
      (b.answer e w).reply.verdict = (e.recorderVerdict token).code := by
  by_cases htoken : e.token = token
  · have hrecords := handle_notes MatchRecorder.records note (fun _ _ => rfl) call_records b e w
    rw [answer_routed (hrouted.mpr htoken), (handle_account b e w).1, hrecords, heard_probed hb,
      ruling_probed hb]
    constructor
    · simp only [Event.record?, htoken, true_and]
      split
      · cases e.data.rule? <;> rfl
      · rfl
    · simp only [Event.recorderVerdict, htoken, true_and]
      split <;> rfl
  · obtain ⟨hreply, hstate⟩ := answer_unrouted (mt hrouted.mp htoken)
    rw [hreply, hstate]
    simp [Event.record?, Event.recorderVerdict, htoken]

def recordsOf (xs : List (Sent MatchRecorder)) : List MatchRecord :=
  xs.filterMap fun x => x.event.record? x.scan

@[simp] theorem recordsOf_nil : recordsOf [] = [] := rfl

@[simp] theorem recordsOf_cons (x : Sent MatchRecorder) (xs : List (Sent MatchRecorder)) :
    recordsOf (x :: xs) = (x.event.record? x.scan).toList ++ recordsOf xs := by
  unfold recordsOf
  cases h : x.event.record? x.scan <;> simp [h]

/-- Exchanges of which each met the recorder with the records so far and added its own to them. -/
inductive Accrued : List MatchRecord → List (Sent MatchRecorder) → Prop
  | nil (rs : List MatchRecord) : Accrued rs []
  | cons {rs : List MatchRecord} {x : Sent MatchRecorder} {xs : List (Sent MatchRecorder)}
      (met : x.state.callback.records = rs)
      (left : x.answered.state.callback.records = rs ++ (x.event.record? x.scan).toList)
      (verdict : x.answered.reply.verdict = (x.event.recorderVerdict x.scan).code)
      (rest : Accrued (rs ++ (x.event.record? x.scan).toList) xs) : Accrued rs (x :: xs)

theorem Accrued.append {rs : List MatchRecord} {xs ys : List (Sent MatchRecorder)}
    (h : Accrued rs xs) (h' : Accrued (rs ++ recordsOf xs) ys) : Accrued rs (xs ++ ys) := by
  induction h with
  | nil rs => simpa using h'
  | cons met left verdict rest ih =>
    rw [recordsOf_cons, ← List.append_assoc] at h'
    exact .cons met left verdict (ih h')

theorem Accrued.split {rs : List MatchRecord} {pre post : List (Sent MatchRecorder)}
    {x : Sent MatchRecorder} (h : Accrued rs (pre ++ x :: post)) :
    x.state.callback.records = rs ++ recordsOf pre ∧
      x.answered.state.callback.records = rs ++ recordsOf (pre ++ [x]) ∧
      x.answered.reply.verdict = (x.event.recorderVerdict x.scan).code := by
  induction pre generalizing rs with
  | nil =>
    cases h with
    | cons met left verdict rest => exact ⟨by simpa using met, by simpa using left, verdict⟩
  | cons y pre ih =>
    cases h with
    | cons met left verdict rest => simpa using ih rest

theorem chain_accrued {token : Token} {xs : List (Exchange (Bundle MatchRecorder))}
    (hb : b.capabilities = probed) (h : Chain Bundle.answer b w xs b' w')
    (hrouted : ∀ x ∈ xs, x.world.registry.resolve x.event.token = some x.state.id ↔
      x.event.token = token) :
    Accrued b.callback.records (xs.map (.mk · token)) ∧
      b'.callback.records = b.callback.records ++ recordsOf (xs.map (.mk · token)) := by
  induction h with
  | done b w => exact ⟨.nil _, by simp⟩
  | notice n rest ih => exact ih hb hrouted
  | @event e b b' w w' xs rest ih =>
    obtain ⟨hfirst, hlater⟩ := List.forall_mem_cons.mp hrouted
    obtain ⟨hleft, hverdict⟩ := answer_records hb hfirst
    have hb' := (answer_alike b e w).capabilities.trans hb
    obtain ⟨haccrued, hrecords⟩ := ih hb' hlater
    rw [hleft] at haccrued hrecords
    refine ⟨.cons rfl hleft hverdict haccrued, ?_⟩
    rw [List.map_cons, recordsOf_cons, ← List.append_assoc]
    exact hrecords

theorem scan_accrued [Engine ε] (hb : b.capabilities = probed) (engine : ε)
    (hrest : b.AtRest w) :
    Accrued b.callback.records (b.sent engine w) ∧
      (b.scan engine w).bundle.callback.records =
        b.callback.records ++ recordsOf (b.sent engine w) ∧
      (b.scan engine w).bundle.capabilities = probed := by
  cases hclosed : b.isClosed with
  | true =>
    rw [scan_closed engine w hclosed, sent, if_pos hclosed]
    exact ⟨.nil _, by simp, hb⟩
  | false =>
    have hchain := b.transcript_chain engine w
    have himports : b.capabilities.importModule = false := hb ▸ rfl
    obtain ⟨haccrued, hrecords⟩ := chain_accrued (b := b.cleared) hb hchain
      fun x hx => watching_routed_iff watches himports hrest hx
    obtain ⟨⟨error, hbundle⟩, _⟩ := scan_left engine w hclosed
    rw [hbundle, sent, if_neg (by simp [hclosed])]
    exact ⟨haccrued, hrecords, (chain_alike hchain).2.capabilities.trans hb⟩

theorem successive_accrued {xs : List (Sent MatchRecorder)}
    (hb : b.capabilities = probed) (h : b.Successive xs b') :
    Accrued b.callback.records xs ∧
      b'.callback.records = b.callback.records ++ recordsOf xs := by
  induction h with
  | done b => exact ⟨.nil _, by simp⟩
  | @scan ε _ b b' xs engine w rest more ih =>
    obtain ⟨haccrued, hrecords, hb'⟩ := scan_accrued hb engine rest
    obtain ⟨hmore, hend⟩ := ih hb'
    rw [hrecords] at hmore hend
    refine ⟨haccrued.append hmore, ?_⟩
    rw [hend]
    simp [recordsOf]

/-- However many scans there are, with whatever engines and however each of them ends, a recorder
has the records from before and one for each event of a matching rule that came with the token of
its scan and with its rule, in the order of the events. It had them so at each event, so that no
record was changed once it was there, and it failed on nothing but such events without a rule. -/
theorem records_only_added {xs : List (Sent MatchRecorder)}
    (hb : b.capabilities = probed) (h : b.Successive xs b') :
    b'.callback.records = b.callback.records ++ recordsOf xs ∧
      ∀ pre x post, xs = pre ++ x :: post →
        x.state.callback.records = b.callback.records ++ recordsOf pre ∧
        x.answered.state.callback.records = b.callback.records ++ recordsOf (pre ++ [x]) ∧
        x.answered.reply.verdict = (x.event.recorderVerdict x.scan).code := by
  obtain ⟨haccrued, hrecords⟩ := successive_accrued hb h
  refine ⟨hrecords, ?_⟩
  rintro pre x post rfl
  exact haccrued.split

end MatchRecorder

/-- Goes on after an event without its rule and after one for nobody, and breaks off in the end. -/
def ListedEngine.rough : ListedEngine where
  events := [
    { code := 1, data := .rule { identifier := some [0x61] } },
    { code := 1 },
    { code := 1, token := .greatest, data := .rule { identifier := some [0x62] } },
    { code := 2, data := .rule { identifier := some [0x63] } },
    { code := 1, data := .rule { identifier := some [0x64] } }]
  persistent := true
  panics := true

def ListedEngine.brief : ListedEngine where
  events := [{ code := 1, data := .rule { identifier := some [0x65] } }]
  status := some 7

def Bundle.used : Bundle MatchRecorder :=
  (Bundle.new ⟨[.capture none { identifier := some [0x30] }]⟩ {} {}).1

theorem MatchRecorder.records_only_added_rough :
    let once := (Bundle.used.scan ListedEngine.rough {}).bundle
    let twice := (once.scan ListedEngine.brief {}).bundle
    Bundle.used.capabilities = probed ∧
      Bundle.used.Successive
        (Bundle.used.sent ListedEngine.rough {} ++ (once.sent ListedEngine.brief {} ++ []))
        twice ∧
      twice.callback.records.map MatchRecord.rule = ["0", "a", "d", "e"] := by
  intro once twice
  have hrest : ∀ b : Bundle MatchRecorder, b.AtRest {} := by
    intro b token
    simp [Registry.resolve]
  have hscans := Bundle.Successive.scan ListedEngine.rough (hrest Bundle.used)
    (.scan ListedEngine.brief (hrest once) (.done twice))
  obtain ⟨hrecords, _⟩ := records_only_added rfl hscans
  refine ⟨rfl, hscans, ?_⟩
  rw [hrecords]
  decide

end ScanBridge
