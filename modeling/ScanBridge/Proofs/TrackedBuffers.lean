import ScanBridge.Proofs.BufferCustody

namespace ScanBridge

namespace Custody

variable {c : Custody} {h : Heap} {t : Tracker}

theorem steps_offering {a : Nat} (own : a ∈ c.others) :
    Steps c (offering c.tracker a) (c.tracked a) := by
  obtain ⟨t, h, leaving⟩ := c
  have hoffer := Steps.single (.offer _ own)
  cases t with
  | active held => exact hoffer
  | sealed =>
    have hfree : Step (Custody.offer ⟨.sealed, h, leaving⟩ a) (.freed a) _ :=
      .free _ List.mem_cons_self
    have hleft : (a :: leaving).erase a = leaving := List.erase_cons_head ..
    have hboth := hoffer.andThen hfree
    simp only [Custody.free, Custody.offer, Tracker.track, Bool.false_eq_true, if_false, hleft]
      at hboth
    exact hboth

theorem steps_freeing {as rest : List Nat} (hleaving : c.leaving = as ++ rest) :
    Steps c (as.map .freed) { c with heap := c.heap.freeAll .bundle as, leaving := rest } := by
  induction as generalizing c with
  | nil =>
    rw [List.nil_append] at hleaving
    rw [← hleaving]
    exact .rest c
  | cons a as ih =>
    have hmem : a ∈ c.leaving := by simp [hleaving]
    have hleft : (c.free a).leaving = as ++ rest := by simp [free, hleaving]
    exact .cons (.free c hmem) (ih hleft)

theorem steps_releasing (c : Custody) :
    let released := c.tracker.releaseAll c.heap
    Steps c (releasing c.tracker)
      { c with tracker := released.tracker, heap := released.heap } :=
  .cons (.empty c) (steps_freeing (c := c.empty) rfl)

/-- However many calls are in progress, they come to an end, and a last call that seals the tracker
then leaves nothing behind. -/
theorem steps_dropping (c : Custody) :
    Steps c (c.leaving.map .freed ++ releasing c.tracker)
      (idle .sealed (c.tracker.releaseAll (c.heap.freeAll .bundle c.leaving)).heap) := by
  have hfinished : Steps c (c.leaving.map .freed)
      (idle c.tracker (c.heap.freeAll .bundle c.leaving)) :=
    steps_freeing (List.append_nil _).symm
  exact hfinished.append (steps_releasing _)

theorem mem_others_idle {a : Nat} :
    a ∈ (idle t h).others ↔ a ∈ h.importAddresses ∧ a ∉ t.held := by
  simp [mem_others, mine, idle]

theorem steps_givingUp {as rest : List Nat} (ha : h.Accounts (as ++ rest)) (ht : t.held ⊆ rest) :
    Steps (idle t h) (as.map .gaveUp) (idle t (h.freeAll .bundle as)) := by
  induction as generalizing h with
  | nil => exact .rest _
  | cons a as ih =>
    have hnot : a ∉ t.held := fun hm =>
      (List.nodup_cons.mp ha.nodup).1 (List.mem_append_right _ (ht hm))
    have hlive : a ∈ h.importAddresses := ha.imports.mem_iff.mpr List.mem_cons_self
    exact .cons (.giveUp (idle t h) (mem_others_idle.mpr ⟨hlive, hnot⟩)) (ih ha.free)

theorem steps_keeping {others : List Nat} (ha : h.Accounts (t.held ++ others)) (bytes : Bytes) :
    let offered := t.track h.next (h.alloc .bundle bytes)
    Steps (idle t h) (.took h.next :: offering t h.next) (idle offered.tracker offered.heap) := by
  have hnot : h.next ∉ t.held := fun hm =>
    Nat.lt_irrefl _ (ha.lt_next (List.mem_append_left others hm))
  have hlive : h.next ∈ (h.alloc .bundle bytes).importAddresses :=
    Heap.mem_importAddresses_alloc.mpr (.inr rfl)
  exact .cons (.take (idle t h) bytes)
    (steps_offering (c := idle t (h.alloc .bundle bytes)) (mem_others_idle.mpr ⟨hlive, hnot⟩))

/-- The calls on a tracker, each from the moment it is called until it returns. -/
structure Calls (c : Custody) : Prop where
  offer : ∀ a ∈ c.others, Steps c (offering c.tracker a) (c.tracked a)
  release :
    let released := c.tracker.releaseAll c.heap
    Steps c (releasing c.tracker) { c with tracker := released.tracker, heap := released.heap } ∧
      released.tracker = .sealed ∧ returnedIn (releasing c.tracker) = [released.count]
  /-- However many calls are in progress, they come to an end, and a last one that releases
  everything leaves nothing behind. -/
  drop : Steps c (c.leaving.map .freed ++ releasing c.tracker)
    (idle .sealed (c.tracker.releaseAll (c.heap.freeAll .bundle c.leaving)).heap)

theorem returnedIn_releasing (t : Tracker) : returnedIn (releasing t) = [t.pending] := by
  have hnone : returnedIn (t.held.map .freed) = [] := by
    simp [returnedIn, Act.returned?]
  exact congrArg (t.pending :: ·) hnone

theorem calls (c : Custody) : c.Calls :=
  ⟨fun _ own => steps_offering own,
    ⟨steps_releasing c, rfl, returnedIn_releasing c.tracker⟩, steps_dropping c⟩

end Custody

open Custody

namespace Bundle

variable {σ : Type}

theorem inject_track (b : Bundle σ) (module : String) (payload : Bytes) (slot : Slot) (w : World) :
    let injected := b.inject module payload slot w
    let offered := b.tracker.track w.heap.next (w.heap.alloc .bundle payload)
    (injected.bundle.tracker = b.tracker ∧ injected.world.heap = w.heap) ∨
      (injected.bundle.tracker = offered.tracker ∧ injected.world.heap = offered.heap) := by
  dsimp only
  unfold inject
  dsimp only
  split
  · exact .inl ⟨rfl, rfl⟩
  · exact .inl ⟨rfl, rfl⟩
  · cases ht : b.tracker with
    | active held => exact .inr ⟨rfl, rfl⟩
    | sealed => exact .inr ⟨ht, rfl⟩

/-- What a bundle does with its tracker, which no call is in progress on. -/
structure Tracks (b : Bundle σ) (w : World) : Prop where
  inject : ∀ (module : String) (payload : Bytes) (slot : Slot),
    let injected := b.inject module payload slot w
    (injected.bundle.tracker = b.tracker ∧ injected.world.heap = w.heap) ∨
      Steps (idle b.tracker w.heap) (.took w.heap.next :: offering b.tracker w.heap.next)
        (idle injected.bundle.tracker injected.world.heap)
  close : Steps (idle b.tracker w.heap) (releasing b.tracker)
    (idle (b.close w).bundle.tracker (b.close w).world.heap)
  discard : Steps (idle b.tracker w.heap) (releasing b.tracker) (idle .sealed (b.discard w).heap)

theorem tracks {b : Bundle σ} {w : World} {others : List Nat}
    (ha : w.heap.Accounts (b.tracker.held ++ others)) : b.Tracks w := by
  have hreleasing := steps_releasing (idle b.tracker w.heap)
  refine ⟨?_, hreleasing, hreleasing⟩
  intro module payload slot
  refine (b.inject_track module payload slot w).imp_right ?_
  rintro ⟨htracker, hheap⟩
  rw [htracker, hheap]
  exact steps_keeping ha payload

end Bundle

namespace Dealing

variable {hs hs' : List Holding} {w w' : World} {others : List Nat}

theorem bystander (hd : Dealing hs w hs' w') (ha : w.heap.Accounts (addresses hs ++ others))
    {t : Tracker} (ht : t.held ⊆ others) :
    ∃ log, Steps (idle t w.heap) log (idle t w'.heap) := by
  induction hd generalizing others with
  | andThen first second ih₁ ih₂ =>
    obtain ⟨log, hfirst⟩ := ih₁ ha ht
    obtain ⟨more, hsecond⟩ := ih₂ (first.accounts others ha).1 ht
    exact ⟨log ++ more, hfirst.append hsecond⟩
  | frame before after inner ih =>
    exact ih (ha.perm (addresses_frame before _ after others))
      fun a hm => List.mem_append_right _ (ht hm)
  | elsewhere w heap same => exact ⟨_, .single (.elsewhere (idle t w.heap) heap same)⟩
  | keep id held payload w => exact ⟨_, .single (.take (idle t w.heap) payload)⟩
  | close x w | drop x w =>
    rw [World.release_heap]
    simp only [addresses, List.flatMap_cons, List.flatMap_nil, List.append_nil] at ha
    exact ⟨_, steps_givingUp ha ht⟩
  | scan id inner ih => exact ih ha ht
  | rest | reorder | notify | make => exact ⟨[], .rest _⟩

/-- The tracker of each bundle that an owner had goes through such steps, whatever the owner does,
and if the bundle is gone then the tracker ended sealed. -/
theorem custody (hd : Dealing hs w hs' w') (ha : w.heap.Accounts (addresses hs ++ others))
    {x : Holding} (hx : x ∈ hs) :
    ∃ t log, Steps (idle x.tracker w.heap) log (idle t w'.heap) ∧
      (⟨x.id, t⟩ ∈ hs' ∨ t = .sealed) := by
  induction hd generalizing others x with
  | rest hs w => exact ⟨x.tracker, [], .rest _, .inl hx⟩
  | reorder w same => exact ⟨x.tracker, [], .rest _, .inl (same.mem_iff.mp hx)⟩
  | andThen first second ih₁ ih₂ =>
    have ha₁ := (first.accounts others ha).1
    obtain ⟨t, log, hfirst, hm | rfl⟩ := ih₁ ha hx
    · obtain ⟨t', more, hsecond, hout⟩ := ih₂ ha₁ hm
      exact ⟨t', log ++ more, hfirst.append hsecond, hout⟩
    -- A tracker that is gone after the first part stays sealed, whatever the second part does.
    · obtain ⟨more, hsecond⟩ := second.bystander (t := .sealed) ha₁ (List.nil_subset _)
      exact ⟨.sealed, log ++ more, hfirst.append hsecond, .inr rfl⟩
  | @frame before after hs hs' w w' inner ih =>
    have hinner := ha.perm (addresses_frame before hs after others)
    -- What is done inside of a frame is done by others to a bundle that stands around it.
    have haside : x ∈ before ++ after →
        ∃ log, Steps (idle x.tracker w.heap) log (idle x.tracker w'.heap) := by
      intro hm
      refine inner.bystander hinner fun a ha => List.mem_append_left _ ?_
      rw [← addresses_append]
      exact List.mem_flatMap.mpr ⟨x, hm, ha⟩
    simp only [List.mem_append] at hx haside ⊢
    rcases hx with (hx | hx) | hx
    · obtain ⟨log, hsteps⟩ := haside (.inl hx)
      exact ⟨x.tracker, log, hsteps, .inl (.inl (.inl hx))⟩
    · obtain ⟨t, log, hsteps, hout⟩ := ih hinner hx
      exact ⟨t, log, hsteps, hout.imp_left fun hm => .inl (.inr hm)⟩
    · obtain ⟨log, hsteps⟩ := haside (.inr hx)
      exact ⟨x.tracker, log, hsteps, .inl (.inr hx)⟩
  | notify | elsewhere | make => cases hx
  | keep id held payload w =>
    rw [List.mem_singleton.mp hx]
    have hheld : w.heap.Accounts (held ++ others) := by
      simpa [addresses, Tracker.held] using ha
    exact ⟨_, _, steps_keeping (t := .active held) hheld payload, .inl List.mem_cons_self⟩
  | close y w =>
    rw [List.mem_singleton.mp hx, World.release_heap]
    exact ⟨.sealed, _, steps_releasing (idle y.tracker w.heap), .inl List.mem_cons_self⟩
  | drop y w =>
    rw [List.mem_singleton.mp hx, World.release_heap]
    exact ⟨.sealed, _, steps_releasing (idle y.tracker w.heap), .inr rfl⟩
  | scan id inner ih => exact ih ha hx

end Dealing

/-- A tracker under any number of callers. Whatever steps were taken, the tracker holds what it
accepted and has not given out yet, and once it is sealed it holds nothing and refuses everything.
When it is gone, each buffer that was ever offered is released exactly once, and no others are
released on its account. All that is ever done with the tracker of a bundle are such steps. -/
theorem tracked_buffers_released_once {h : Heap} (hs : h.Sound) {log : List Act} {c : Custody}
    (steps : Steps (idle (.active []) h) log c) :
    Safe h log c ∧
      (∀ pre act post, log = pre ++ act :: post →
        ∃ c₁ c₂, Steps (idle (.active []) h) pre c₁ ∧ Safe h pre c₁ ∧ Custody.Step c₁ act c₂ ∧
          Steps c₂ post c ∧ ∀ a, act.released? = some a →
            a ∈ c₁.heap.importAddresses ∧
              c₂.heap.importBuffers + 1 = c₁.heap.importBuffers) ∧
      (c.tracker.isSealed = true → c.leaving = [] → Settled h log c) ∧
      c.Calls ∧
      Settled h (log ++ (c.leaving.map .freed ++ releasing c.tracker))
        (idle .sealed (c.tracker.releaseAll (c.heap.freeAll .bundle c.leaving)).heap) ∧
      (∀ {σ : Type} (b : Bundle σ) (w : World) (others : List Nat),
        w.heap.Accounts (b.tracker.held ++ others) → b.Tracks w) ∧
      ∀ {hs hs' : List Holding} {w w' : World} (others : List Nat),
        w.heap.Accounts (addresses hs ++ others) → Conduct hs w hs' w' →
        ∀ x ∈ hs, ∃ t log, Steps (idle x.tracker w.heap) log (idle t w'.heap) ∧
          (⟨x.id, t⟩ ∈ hs' ∨ t = .sealed) := by
  have hsafe := steps.safe hs
  have hdropped := (steps.append (steps_dropping c)).safe hs
  refine ⟨hsafe, ?_, hsafe.settled, c.calls, hdropped.settled rfl rfl,
    fun b w others ha => Bundle.tracks ha,
    fun others ha hconduct x hx => hconduct.dealing.custody ha hx⟩
  intro pre act post hlog
  obtain ⟨c₁, c₂, hpre, hstep, hpost⟩ := steps.split hlog
  obtain ⟨_, hsound, _⟩ := hpre.keeps_new hs
  exact ⟨c₁, c₂, hpre, hpre.safe hs, hstep, hpost,
    fun a ha => hstep.released hsound ha⟩

/-- Three buffers, of which one comes too late, while those accepted are being released. -/
def Custody.tardy : List Act :=
  [.took 0, .took 1, .took 2, .offered 0 true, .offered 1 true, .emptied [0, 1], .freed 0,
    .offered 2 false, .freed 2, .emptied [], .freed 1]

theorem tracked_buffers_released_once_tardy :
    ({} : Heap).Sound ∧ ∃ c, Steps (idle (.active []) {}) tardy c ∧
      c.tracker.isSealed = true ∧ c.leaving = [] ∧
      (∀ a ∈ [0, 1, 2], (releasedIn tardy).count a = 1) ∧ c.heap.importBuffers = 0 := by
  have hs : ({} : Heap).Sound := Heap.accounts_new.sound
  have hsteps : ∃ c, Steps (idle (.active []) {}) tardy c ∧
      c.tracker.isSealed = true ∧ c.leaving = [] :=
    ⟨_, Steps.rest _ |>.andThen (.take _ [1]) |>.andThen (.take _ [2]) |>.andThen (.take _ [3])
      |>.andThen (.offer _ (a := 0) (by decide)) |>.andThen (.offer _ (a := 1) (by decide))
      |>.andThen (.empty _) |>.andThen (.free _ (a := 0) (by decide))
      |>.andThen (.offer _ (a := 2) (by decide)) |>.andThen (.free _ (a := 2) (by decide))
      |>.andThen (.empty _) |>.andThen (.free _ (a := 1) (by decide)), rfl, rfl⟩
  obtain ⟨c, hsteps, hsealed, hidle⟩ := hsteps
  obtain ⟨_, _, hsettled, _⟩ := tracked_buffers_released_once hs hsteps
  have h := hsettled hsealed hidle
  have hlive : c.heap.importBuffers + 3 + 0 = 0 + 3 := h.live
  exact ⟨hs, c, hsteps, hsealed, hidle, h.once, by omega⟩

end ScanBridge
