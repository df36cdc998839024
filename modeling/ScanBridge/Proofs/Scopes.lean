import ScanBridge.Proofs.OutsideMemory

namespace ScanBridge

section Named

variable {α : Type} {xs : List (String × α)}

def InNameOrder (xs : List (String × α)) : Prop := xs.Pairwise (·.1 < ·.1)

theorem eraseNamed_absent {name : String} (h : ∀ x ∈ xs, x.1 ≠ name) :
    eraseNamed name xs = xs :=
  List.filter_eq_self.mpr fun x hx => decide_eq_true (h x hx)

theorem eraseNamed_cons_self {name : String} {x : α} (h : InNameOrder ((name, x) :: xs)) :
    eraseNamed name ((name, x) :: xs) = xs := by
  have hne : ∀ y ∈ xs, y.1 ≠ name := fun y hy he =>
    String.lt_irrefl name (he ▸ (List.pairwise_cons.mp h).1 y hy)
  rw [eraseNamed, List.filter_cons_of_neg (by simp)]
  exact eraseNamed_absent hne

theorem eraseNamed_cons_ne {name n : String} {x : α} (h : n ≠ name) :
    eraseNamed name ((n, x) :: xs) = (n, x) :: eraseNamed name xs :=
  List.filter_cons_of_pos (by simpa using h)

theorem InNameOrder.eraseNamed (h : InNameOrder xs) (name : String) :
    InNameOrder (eraseNamed name xs) :=
  h.sublist List.filter_sublist

theorem getNamed_perm (h : InNameOrder xs) {name : String} {x : α}
    (hx : getNamed? name xs = some x) : xs.Perm ((name, x) :: eraseNamed name xs) := by
  induction xs with
  | nil => simp [getNamed?] at hx
  | cons y xs ih =>
    obtain ⟨n, y⟩ := y
    by_cases hn : n = name
    · subst hn
      have hxy : y = x := by simpa [getNamed?] using hx
      rw [eraseNamed_cons_self h, hxy]
    · have hx' : getNamed? name xs = some x := by simpa [getNamed?, hn] using hx
      rw [eraseNamed_cons_ne hn]
      exact ((ih (List.pairwise_cons.mp h).2 hx').cons _).trans (.swap _ _ _)

theorem getNamed_absent {name : String} (hx : getNamed? name xs = none) :
    eraseNamed name xs = xs := by
  apply eraseNamed_absent
  simpa [getNamed?] using hx

theorem putNamed_perm (h : InNameOrder xs) (name : String) (x : α) :
    (putNamed name x xs).Perm ((name, x) :: eraseNamed name xs) := by
  induction xs with
  | nil => exact .refl _
  | cons y xs ih =>
    obtain ⟨n, y⟩ := y
    unfold putNamed
    split
    · rename_i hn
      subst hn
      rw [eraseNamed_cons_self h]
    · rename_i hn
      split
      · rename_i hlt
        rw [eraseNamed_absent]
        intro z hz he
        rcases List.mem_cons.mp hz with rfl | hz
        · exact hn he
        · have hgt := (List.pairwise_cons.mp h).1 z hz
          exact String.lt_irrefl name (String.lt_trans hlt (he ▸ hgt))
      · rw [eraseNamed_cons_ne hn]
        exact ((ih (List.pairwise_cons.mp h).2).cons _).trans (.swap _ _ _)

theorem InNameOrder.putNamed (h : InNameOrder xs) (name : String) (x : α) :
    InNameOrder (putNamed name x xs) := by
  induction xs with
  | nil => exact List.pairwise_singleton _ _
  | cons y xs ih =>
    obtain ⟨n, y⟩ := y
    obtain ⟨hfirst, hrest⟩ := List.pairwise_cons.mp h
    unfold ScanBridge.putNamed
    split
    · rename_i hn
      subst hn
      exact List.pairwise_cons.mpr ⟨hfirst, hrest⟩
    · rename_i hn
      split
      · rename_i hlt
        refine List.pairwise_cons.mpr ⟨fun z hz => ?_, h⟩
        rcases List.mem_cons.mp hz with rfl | hz
        · exact hlt
        · exact String.lt_trans hlt (hfirst z hz)
      · rename_i hge
        refine List.pairwise_cons.mpr ⟨fun z hz => ?_, ih hrest⟩
        rcases List.mem_cons.mp ((putNamed_perm hrest name x).mem_iff.mp hz) with rfl | hz
        · exact Decidable.byContradiction fun hle =>
            hn (String.le_antisymm (String.not_lt.mp hge) (String.not_lt.mp hle))
        · exact hfirst z (List.mem_filter.mp hz).1

end Named

def Step.directives {ν : Type} : Step ν → List (Directive ν)
  | .bundle _ _ _ _ directives => directives
  | .set _ _ (some directives) => directives
  | _ => []

def Step.Good (step : Step (World → Inner)) : Prop := ∀ d ∈ step.directives, d.Good

namespace Scope

variable {s : Scope} {w w' : World}

def holdings (s : Scope) : List Holding := s.bundles.map (·.2.holding)

structure Good (s : Scope) : Prop where
  ordered : InNameOrder s.bundles
  guests : ∀ b ∈ s.bundles, b.2.callback.Good

theorem Good.guest (hs : s.Good) {name : String} {b : Bundle Guest}
    (hb : getNamed? name s.bundles = some b) : b.callback.Good :=
  hs.guests (name, b) ((getNamed_perm hs.ordered hb).mem_iff.mpr List.mem_cons_self)

theorem Good.put (hs : s.Good) (name : String) {b : Bundle Guest} (hb : b.callback.Good) :
    (s.putBundle name b).Good := by
  refine ⟨hs.ordered.putNamed name b, ?_⟩
  intro x hx
  rcases List.mem_cons.mp ((putNamed_perm hs.ordered name b).mem_iff.mp hx) with rfl | hx
  · exact hb
  · exact hs.guests x (List.mem_filter.mp hx).1

theorem Good.erase (hs : s.Good) (name : String) :
    ({ s with bundles := eraseNamed name s.bundles } : Scope).Good :=
  ⟨hs.ordered.eraseNamed name, fun x hx => hs.guests x (List.mem_filter.mp hx).1⟩

theorem holdings_put (hs : s.Good) (name : String) (b : Bundle Guest) :
    (s.putBundle name b).holdings.Perm
      (b.holding :: (eraseNamed name s.bundles).map (·.2.holding)) :=
  (putNamed_perm hs.ordered name b).map _

theorem holdings_named (hs : s.Good) {name : String} {b : Bundle Guest}
    (hb : getNamed? name s.bundles = some b) :
    s.holdings.Perm (b.holding :: (eraseNamed name s.bundles).map (·.2.holding)) :=
  (getNamed_perm hs.ordered hb).map _

theorem put_conduct (hs : s.Good) {name : String} {b b' : Bundle Guest}
    (hb : getNamed? name s.bundles = some b) (h : Conduct [b.holding] w [b'.holding] w') :
    Conduct s.holdings w (s.putBundle name b').holdings w' :=
  h.within _ (holdings_named hs hb) (holdings_put hs name b')

theorem erase_conduct (hs : s.Good) {name : String} {b : Bundle Guest}
    (hb : getNamed? name s.bundles = some b) :
    Conduct s.holdings w
      ({ s with bundles := eraseNamed name s.bundles } : Scope).holdings (b.discard w) :=
  (Conduct.discard b w).within _ (holdings_named hs hb) (.refl _)

/-- What a step of a session comes to for the owner of the scope, who owns the bundles that it has
names for. -/
def Conducted (s : Scope) (w : World) (done : Stepped) : Prop :=
  done.scope.Good ∧ Conduct s.holdings w done.scope.holdings done.world

theorem put_conducted (hs : s.Good) {name : String} {b : Bundle Guest}
    (hb : getNamed? name s.bundles = some b) (b' : Bundle Guest) (hg : b'.callback.Good)
    (h : Conduct [b.holding] w [b'.holding] w') (answer : Answer (CallNote Report))
    (engines : List (String × AnyEngine)) :
    s.Conducted w ⟨answer, { s.putBundle name b' with engines }, w'⟩ :=
  ⟨⟨(hs.put name hg).ordered, (hs.put name hg).guests⟩, put_conduct hs hb h⟩

theorem beside_conducted (hs : s.Good) (h : Conduct [] w [] w') (answer : Answer (CallNote Report))
    (engines : List (String × AnyEngine)) :
    s.Conducted w ⟨answer, { s with engines }, w'⟩ :=
  ⟨⟨hs.ordered, hs.guests⟩, h.within s.holdings (.refl _) (.refl _)⟩

theorem unchanged_conducted (hs : s.Good) (answer : Answer (CallNote Report)) :
    s.Conducted w ⟨answer, s, w⟩ :=
  ⟨hs, .rest _ w⟩

theorem withBundle_conducted (hs : s.Good) {name : String} {f : Bundle Guest → Stepped}
    (h : ∀ b, getNamed? name s.bundles = some b → s.Conducted w (f b)) :
    s.Conducted w (s.withBundle w name f) := by
  unfold withBundle
  split
  · exact unchanged_conducted hs _
  · exact h _ ‹_›

theorem withEngine_conducted (hs : s.Good) {name : String} {f : AnyEngine → Stepped}
    (h : ∀ e, s.Conducted w (f e)) : s.Conducted w (s.withEngine w name f) := by
  unfold withEngine
  split
  · exact unchanged_conducted hs _
  · exact h _

theorem makeBundle_conducted (hs : s.Good) (guest : Guest) (hg : guest.Good) (name : String)
    (limit : Option Nat) : s.Conducted w (s.makeBundle w name guest limit) := by
  have hgood : (Bundle.new guest ⟨limit⟩ w).1.callback.Good := Guest.confined.probe_good hg
  have hmake := Conduct.make guest ⟨limit⟩ w
  refine ⟨hs.put name hgood, ?_⟩
  unfold makeBundle
  cases hb : getNamed? name s.bundles with
  | none =>
    apply hmake.within s.holdings (.refl _)
    have hput := holdings_put hs name (Bundle.new guest ⟨limit⟩ w).1
    rw [getNamed_absent hb] at hput
    exact hput
  | some old =>
    have hreplace : Conduct [old.holding] w [(Bundle.new guest ⟨limit⟩ w).1.holding]
        (old.discard (Bundle.new guest ⟨limit⟩ w).2) :=
      (hmake.frame [] [old.holding]).andThen
        ((Conduct.discard old _).frame [(Bundle.new guest ⟨limit⟩ w).1.holding] [])
    exact put_conduct hs hb hreplace

theorem makeEngine_conducted (hs : s.Good) (name : String) (source : EngineSource) :
    s.Conducted w (s.makeEngine w name source) := by
  have hengine : ∀ (answer : Answer (CallNote Report)) (e : AnyEngine),
      s.Conducted w ⟨answer, s.putEngine name e, w⟩ :=
    fun answer e => beside_conducted hs (.rest [] w) answer _
  unfold makeEngine
  dsimp only
  repeat' split
  all_goals first | exact hengine _ _ | exact unchanged_conducted hs _

theorem scan_conducted (hs : s.Good) (bundle engine : String) :
    s.Conducted w (s.scan w bundle engine) := by
  refine withBundle_conducted hs fun b hb => withEngine_conducted hs fun e => ?_
  have hgood := Guest.confined.scan_good b (hs.guest hb) e w
  have htaken : ∀ g : Guest, g.Good → g.takeCalls.2.Good := by
    intro g hg
    cases g <;> exact hg
  have hscan := Guest.confined.scan b (hs.guest hb) e w
  exact put_conducted hs hb { (b.scan e w).bundle with
    callback := (b.scan e w).bundle.callback.takeCalls.2 } (htaken _ hgood) hscan _ _

/-- The bundle that collects matches is gone when they are collected. -/
theorem scanMatches_conduct {ε : Type} [Engine ε] (engine : ε) (w : World) :
    Conduct [] w [] (ScanBridge.scanMatches engine w).2.2 := by
  have hmake := Conduct.make ({} : MatchRecorder) {} w
  have hscan := MatchRecorder.confined.scan (Bundle.new ({} : MatchRecorder) {} w).1 trivial engine
    (Bundle.new ({} : MatchRecorder) {} w).2
  have hgone := (hmake.andThen hscan).andThen (.discard _ _)
  unfold ScanBridge.scanMatches
  dsimp only
  split
  · exact hgone.andThen (.told [] _ _)
  · exact hgone
  · exact hgone

theorem scanMatches_conducted (hs : s.Good) (engine : String) :
    s.Conducted w (s.scanMatches w engine) :=
  withEngine_conducted hs fun e => beside_conducted hs (scanMatches_conduct e w) _ _

/-- Where no bundle is scanned, events come to nothing but notices. -/
theorem unattended_conduct {α : Type} (run : Run α) (w : World) :
    Conduct [] w [] (run.drive answerUnattended () w).world := by
  refine ((run.chain answerUnattended () w).invariant (P := fun _ w' => Conduct [] w [] w')
    ?_ ?_ (.rest [] w)).2
  · exact fun _ w' n h => h.andThen (.told [] n w')
  · intro e _ w' h
    unfold answerUnattended
    split
    · exact h.andThen (.told [] _ w')
    · exact h

theorem unrouted_conducted (hs : s.Good) (engine : String) (token : StrayToken) :
    s.Conducted w (s.unrouted w engine token) :=
  withEngine_conducted hs fun _ => beside_conducted hs (unattended_conduct _ w) _ _

theorem direct_conducted (hs : s.Good) (engine : String) (replies : List PreparedReply) :
    s.Conducted w (s.direct w engine replies) := by
  apply withEngine_conducted hs
  intro e
  cases e with
  | listed e => exact unchanged_conducted hs _
  | scripted e =>
    exact beside_conducted hs (ReplyList.conduct (Engine.run e 0) { replies } rfl w) _ _

theorem close_conducted (hs : s.Good) (bundle : String) :
    s.Conducted w (s.close w bundle) :=
  withBundle_conducted hs fun b hb => by
    have hguest := hs.guest hb
    exact put_conducted hs hb (b.close w).bundle hguest (.close b w) _ _

theorem drop_conducted (hs : s.Good) (bundle : String) : s.Conducted w (s.drop w bundle) := by
  unfold drop
  split
  · exact unchanged_conducted hs _
  · exact ⟨hs.erase bundle, erase_conduct hs ‹_›⟩

theorem intoInner_conducted (hs : s.Good) (bundle : String) :
    s.Conducted w (s.intoInner w bundle) :=
  withBundle_conducted hs fun _ hb => ⟨hs.erase bundle, erase_conduct hs hb⟩

theorem set_conducted (hs : s.Good) (bundle : String) (change : ProfileChange)
    {directives : Option (List (Directive (World → Inner)))}
    (hd : ∀ ds, directives = some ds → ∀ d ∈ ds, d.Good) :
    s.Conducted w (s.set w bundle change directives) := by
  apply withBundle_conducted hs
  intro b hb
  have hguest := hs.guest hb
  have hjournal : ∀ j : Journal, j.Good → ∀ d ∈ directives.getD j.directives, d.Good := by
    intro j hj
    cases directives with
    | none => exact hj
    | some ds => exact hd ds rfl
  cases hc : b.callback with
  | journal j =>
    rw [hc] at hguest
    exact put_conducted hs hb { b with callback := .journal { j with
      offered := change.offered.getD j.offered
      modules := change.modules.getD j.modules
      lookup := change.lookup.getD j.lookup
      directives := directives.getD j.directives } } (hjournal j hguest) (.rest _ w) _ _
  | recorder r =>
    exact put_conducted hs hb { b with callback := .recorder r } trivial (.rest _ w) _ _
  | inert =>
    exact put_conducted hs hb { b with callback := .inert } trivial (.rest _ w) _ _

theorem records_conducted (hs : s.Good) (bundle : String) (clear : Bool) :
    s.Conducted w (s.records w bundle clear) := by
  unfold records
  split
  · rename_i b hb
    split
    · rename_i r _
      exact put_conducted hs hb { b with
        callback := .recorder ⟨if clear then [] else r.records⟩ } trivial (.rest _ w) _ _
    · exact unchanged_conducted hs _
  · exact unchanged_conducted hs _

theorem step_conducted (hs : s.Good) {step : Step (World → Inner)} (hstep : step.Good) :
    s.Conducted w (s.step w step) := by
  cases step with
  | bundle name type limit p directives =>
    cases type with
    | journal =>
      let j : Journal :=
        { offered := p.offered, modules := p.modules, lookup := p.lookup, directives }
      exact makeBundle_conducted hs (.journal j) hstep name limit
    | recorder => exact makeBundle_conducted hs (.recorder {}) trivial name limit
    | inert => exact makeBundle_conducted hs .inert trivial name limit
  | engine name source => exact makeEngine_conducted hs name source
  | scan bundle engine => exact scan_conducted hs bundle engine
  | scanMatches engine => exact scanMatches_conducted hs engine
  | unrouted engine token => exact unrouted_conducted hs engine token
  | direct engine replies => exact direct_conducted hs engine replies
  | close bundle => exact close_conducted hs bundle
  | drop bundle => exact drop_conducted hs bundle
  | intoInner bundle => exact intoInner_conducted hs bundle
  | set bundle change directives =>
    apply set_conducted hs bundle change
    intro ds hds
    subst hds
    exact hstep
  | records bundle clear => exact records_conducted hs bundle clear
  | unknown => exact unchanged_conducted hs _

end Scope

end ScanBridge
