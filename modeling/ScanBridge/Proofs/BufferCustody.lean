import ScanBridge.Proofs.Conduct

namespace ScanBridge

namespace Heap

def importAddresses (h : Heap) : List Nat := h.importBlocks.map Block.address

theorem Sound.lt_next {h : Heap} (hs : h.Sound) {a : Nat} (ha : a ∈ h.importAddresses) :
    a < h.next := by
  obtain ⟨block, hblock, rfl⟩ := List.mem_map.mp ha
  exact hs.below block (mem_importBlocks.mp hblock).1

theorem mem_importAddresses_alloc {h : Heap} {bytes : Bytes} {a : Nat} :
    a ∈ (h.alloc .bundle bytes).importAddresses ↔ a ∈ h.importAddresses ∨ a = h.next := by
  simp [importAddresses, importBlocks_alloc]

theorem mem_importAddresses_free {h : Heap} {a b : Nat} :
    b ∈ (h.free .bundle a).importAddresses ↔ b ∈ h.importAddresses ∧ b ≠ a := by
  simp only [importAddresses, importBlocks_free, List.mem_map, List.mem_filter, decide_eq_true_eq]
  constructor
  · rintro ⟨block, ⟨hblock, hne⟩, rfl⟩
    exact ⟨⟨block, hblock, rfl⟩, hne⟩
  · rintro ⟨⟨block, hblock, rfl⟩, hne⟩
    exact ⟨block, ⟨hblock, hne⟩, rfl⟩

end Heap

/-- A tracker with the calls on it that are not over, and the heap that it shares with everybody
else. What a call does under the lock is one step; what it has to release then is in its own hands,
and it releases that buffer by buffer while others go on. -/
structure Custody where
  tracker : Tracker
  heap : Heap
  /-- Buffers that calls have in hand to release them: refused ones, and those taken out of the
  tracker. -/
  leaving : List Nat := []

namespace Custody

/-- Something that is done, with what whoever does it gets to see. -/
inductive Act
  | took (address : Nat)
  | offered (address : Nat) (accepted : Bool)
  /-- A call seals the tracker and takes out what it holds. It will return the number of these. -/
  | emptied (held : List Nat)
  | freed (address : Nat)
  /-- Somebody releases a buffer of their own. -/
  | gaveUp (address : Nat)
  /-- Memory that is no import buffer is taken, changed or given back. -/
  | elsewhere
  deriving DecidableEq, Repr

namespace Act

def taken? : Act → Option Nat
  | .took a => some a
  | _ => none

def offered? : Act → Option Nat
  | .offered a _ => some a
  | _ => none

def accepts : Act → Bool
  | .offered _ accepted => accepted
  | _ => false

def returned? : Act → Option Nat
  | .emptied held => some held.length
  | _ => none

def freed? : Act → Option Nat
  | .freed a => some a
  | _ => none

def gaveUp? : Act → Option Nat
  | .gaveUp a => some a
  | _ => none

def released? : Act → Option Nat
  | .freed a => some a
  | .gaveUp a => some a
  | _ => none

end Act

def takenIn (log : List Act) : List Nat := log.filterMap Act.taken?

def offeredIn (log : List Act) : List Nat := log.filterMap Act.offered?

def acceptedIn (log : List Act) : Nat := log.countP Act.accepts

def returnedIn (log : List Act) : List Nat := log.filterMap Act.returned?

def freedIn (log : List Act) : List Nat := log.filterMap Act.freed?

def gaveUpIn (log : List Act) : List Nat := log.filterMap Act.gaveUp?

def releasedIn (log : List Act) : List Nat := log.filterMap Act.released?

theorem filterMap_concat {α β : Type} (f : α → Option β) (l : List α) (x : α) :
    (l ++ [x]).filterMap f = l.filterMap f ++ (f x).toList := by
  rw [List.filterMap_append]
  cases hx : f x <;> simp [hx]

section

variable (log : List Act) (act : Act)

theorem takenIn_concat : takenIn (log ++ [act]) = takenIn log ++ act.taken?.toList :=
  filterMap_concat ..

theorem offeredIn_concat : offeredIn (log ++ [act]) = offeredIn log ++ act.offered?.toList :=
  filterMap_concat ..

theorem acceptedIn_concat :
    acceptedIn (log ++ [act]) = acceptedIn log + act.accepts.toNat := by
  rw [acceptedIn, List.countP_append, List.countP_singleton, acceptedIn]
  cases act.accepts <;> rfl

theorem returnedIn_concat : returnedIn (log ++ [act]) = returnedIn log ++ act.returned?.toList :=
  filterMap_concat ..

theorem freedIn_concat : freedIn (log ++ [act]) = freedIn log ++ act.freed?.toList :=
  filterMap_concat ..

theorem releasedIn_concat : releasedIn (log ++ [act]) = releasedIn log ++ act.released?.toList :=
  filterMap_concat ..

end

theorem releasedIn_perm (log : List Act) : (releasedIn log).Perm (freedIn log ++ gaveUpIn log) := by
  induction log with
  | nil => exact .nil
  | cons act log ih =>
    cases act with
    | freed a => exact ih.cons a
    | gaveUp a => exact (ih.cons a).trans List.perm_middle.symm
    | _ => exact ih

theorem releasedIn_of_freedIn {log : List Act} {a : Nat} (h : a ∈ freedIn log) :
    a ∈ releasedIn log :=
  (releasedIn_perm log).mem_iff.mpr (List.mem_append_left _ h)

/-- The acts that a call consists of which offers a buffer. -/
def offering (t : Tracker) (a : Nat) : List Act :=
  if t.isSealed then [.offered a false, .freed a] else [.offered a true]

def releasing (t : Tracker) : List Act := .emptied t.drain.1 :: t.drain.1.map .freed

def idle (t : Tracker) (h : Heap) : Custody := { tracker := t, heap := h }

/-- The buffers that were offered and are not yet released. -/
def mine (c : Custody) : List Nat := c.tracker.held ++ c.leaving

/-- The import buffers of everybody else. -/
def others (c : Custody) : List Nat := c.heap.importAddresses.filter (· ∉ c.mine)

/-- A buffer is offered. A refused one stays with the call, which has to release it. -/
def offer (c : Custody) (a : Nat) : Custody :=
  let offered := c.tracker.track a c.heap
  { c with
    tracker := offered.tracker
    leaving := if offered.accepted then c.leaving else a :: c.leaving }

def empty (c : Custody) : Custody :=
  let drained := c.tracker.drain
  { c with tracker := drained.2, leaving := drained.1 ++ c.leaving }

def free (c : Custody) (a : Nat) : Custody :=
  { c with heap := c.heap.free .bundle a, leaving := c.leaving.erase a }

def tracked (c : Custody) (a : Nat) : Custody :=
  let offered := c.tracker.track a c.heap
  { c with tracker := offered.tracker, heap := offered.heap }

/-- A single act. Who offers or releases a buffer has it. -/
inductive Step : Custody → Act → Custody → Prop
  | take (c : Custody) (bytes : Bytes) :
      Step c (.took c.heap.next) { c with heap := c.heap.alloc .bundle bytes }
  | offer (c : Custody) {a : Nat} (own : a ∈ c.others) :
      Step c (.offered a (c.tracker.track a c.heap).accepted) (c.offer a)
  | empty (c : Custody) : Step c (.emptied c.tracker.drain.1) c.empty
  | free (c : Custody) {a : Nat} (own : a ∈ c.leaving) : Step c (.freed a) (c.free a)
  | giveUp (c : Custody) {a : Nat} (own : a ∈ c.others) :
      Step c (.gaveUp a) { c with heap := c.heap.free .bundle a }
  | elsewhere (c : Custody) (heap : Heap) (same : c.heap.SameImports heap) :
      Step c .elsewhere { c with heap }

/-- Acts one after another, in whatever order the callers come to them. -/
inductive Steps : Custody → List Act → Custody → Prop
  | rest (c : Custody) : Steps c [] c
  | andThen {c c₁ c₂ : Custody} {log : List Act} {act : Act} (before : Steps c log c₁)
      (next : Step c₁ act c₂) : Steps c (log ++ [act]) c₂

namespace Steps

variable {c c₁ c₂ : Custody} {log more : List Act}

theorem single {act : Act} (h : Step c act c₁) : Steps c [act] c₁ := .andThen (.rest c) h

theorem append (h : Steps c log c₁) (h' : Steps c₁ more c₂) : Steps c (log ++ more) c₂ := by
  induction h' with
  | rest => rwa [List.append_nil]
  | andThen before next ih => exact List.append_assoc .. ▸ ih.andThen next

theorem cons {act : Act} (h : Step c act c₁) (h' : Steps c₁ log c₂) : Steps c (act :: log) c₂ :=
  (single h).append h'

theorem split (h : Steps c log c₁) {pre post : List Act} {act : Act}
    (hlog : log = pre ++ act :: post) :
    ∃ c₂ c₃, Steps c pre c₂ ∧ Step c₂ act c₃ ∧ Steps c₃ post c₁ := by
  induction h generalizing post with
  | rest => simp at hlog
  | andThen before next ih =>
    rcases concat_eq_append_cons hlog with ⟨rfl, rfl, rfl⟩ | ⟨inner, hbefore, rfl⟩
    · exact ⟨_, _, before, next, .rest _⟩
    · obtain ⟨c₂, c₃, hpre, hstep, hpost⟩ := ih hbefore
      exact ⟨c₂, c₃, hpre, hstep, hpost.andThen next⟩

end Steps

variable {c c' : Custody} {log : List Act}

theorem track_accepted (t : Tracker) (a : Nat) (h : Heap) :
    (t.track a h).accepted = !t.isSealed := by
  cases t <;> rfl

theorem isSealed_track (t : Tracker) (a : Nat) (h : Heap) :
    (t.track a h).tracker.isSealed = t.isSealed := by
  cases t <;> rfl

theorem pending_track (t : Tracker) (a : Nat) (h : Heap) :
    (t.track a h).tracker.pending = t.pending + (t.track a h).accepted.toNat := by
  cases t <;> simp [Tracker.track, Tracker.pending, Tracker.held]

theorem mine_offer (c : Custody) (a : Nat) : (c.offer a).mine.Perm (a :: c.mine) := by
  cases ht : c.tracker with
  | active held =>
    have hmine : (c.offer a).mine = held ++ a :: c.leaving := by
      simp [mine, offer, Tracker.track, Tracker.held, ht]
    rw [hmine, mine, ht]
    exact List.perm_middle
  | sealed =>
    have hmine : (c.offer a).mine = a :: c.mine := by
      simp [mine, offer, Tracker.track, Tracker.held, ht]
    rw [hmine]

theorem mine_empty (c : Custody) : c.empty.mine = c.mine := rfl

theorem mine_free {a : Nat} (h : a ∈ c.leaving) : c.mine.Perm (a :: (c.free a).mine) :=
  ((List.perm_cons_erase h).append_left _).trans List.perm_middle

/-- What a log tells of the tracker, whoever did what. -/
structure Counts (log : List Act) (c : Custody) : Prop where
  isSealed : c.tracker.isSealed = (returnedIn log != [])
  accepted : acceptedIn log = c.tracker.pending + (returnedIn log).sum
  moved : (offeredIn log).Perm (c.mine ++ freedIn log)

theorem Counts.beside {act : Act} (h : Counts log c) (htracker : c'.tracker = c.tracker)
    (hleaving : c'.leaving = c.leaving) (hoffered : act.offered? = none)
    (haccepts : act.accepts = false) (hreturned : act.returned? = none)
    (hfreed : act.freed? = none) : Counts (log ++ [act]) c' := by
  refine ⟨?_, ?_, ?_⟩
  · simpa [returnedIn_concat, hreturned, htracker] using h.isSealed
  · simpa [acceptedIn_concat, returnedIn_concat, haccepts, hreturned, htracker] using h.accepted
  · simpa [offeredIn_concat, freedIn_concat, hoffered, hfreed, mine, htracker, hleaving]
      using h.moved

theorem Counts.step {act : Act} (h : Counts log c) (next : Step c act c') :
    Counts (log ++ [act]) c' := by
  cases next with
  | take bytes => exact h.beside rfl rfl rfl rfl rfl rfl
  | @offer a own =>
    refine ⟨?_, ?_, ?_⟩
    · simpa [returnedIn_concat, Act.returned?, offer, isSealed_track] using h.isSealed
    · have hpending := pending_track c.tracker a c.heap
      have haccepted := h.accepted
      simp only [acceptedIn_concat, returnedIn_concat, Act.returned?, Act.accepts, offer,
        Option.toList_none, List.append_nil]
      omega
    · simp only [offeredIn_concat, freedIn_concat, Act.offered?, Act.freed?, Option.toList_some,
        Option.toList_none, List.append_nil]
      exact (List.perm_append_singleton _ _).trans
        ((h.moved.cons a).trans ((c.mine_offer a).symm.append_right _))
  | empty =>
    refine ⟨?_, ?_, ?_⟩
    · simp [returnedIn_concat, Act.returned?, empty, Tracker.drain, Tracker.isSealed]
    · simp [acceptedIn_concat, returnedIn_concat, Act.returned?, Act.accepts, empty, h.accepted,
        Tracker.drain, Tracker.pending, Tracker.held, Nat.add_comm]
    · simpa [offeredIn_concat, freedIn_concat, Act.offered?, Act.freed?, mine_empty] using h.moved
  | @free a own =>
    refine ⟨?_, ?_, ?_⟩
    · simpa [returnedIn_concat, Act.returned?, free] using h.isSealed
    · simpa [acceptedIn_concat, returnedIn_concat, Act.returned?, Act.accepts, free]
        using h.accepted
    · simp only [offeredIn_concat, freedIn_concat, Act.offered?, Act.freed?, Option.toList_some,
        Option.toList_none, List.append_nil]
      refine h.moved.trans (((mine_free own).append_right _).trans ?_)
      rw [← List.append_assoc]
      exact (List.perm_append_singleton a _).symm
  | giveUp own => exact h.beside rfl rfl rfl rfl rfl rfl
  | elsewhere heap same => exact h.beside rfl rfl rfl rfl rfl rfl

/-- The buffers of the tracker and of its calls are there, each of them once. -/
structure Sound (c : Custody) : Prop where
  distinct : c.mine.Nodup
  live : ∀ a ∈ c.mine, a ∈ c.heap.importAddresses

theorem mem_others {a : Nat} : a ∈ c.others ↔ a ∈ c.heap.importAddresses ∧ a ∉ c.mine := by
  simp [others]

theorem Sound.step {act : Act} (h : c.Sound) (hs : c.heap.Sound) (next : Step c act c') :
    c'.Sound := by
  cases next with
  | take bytes =>
    exact ⟨h.distinct, fun a ha => Heap.mem_importAddresses_alloc.mpr (.inl (h.live a ha))⟩
  | @offer a own =>
    obtain ⟨hlive, hnot⟩ := mem_others.mp own
    have hperm := c.mine_offer a
    refine ⟨hperm.nodup_iff.mpr (List.nodup_cons.mpr ⟨hnot, h.distinct⟩), ?_⟩
    intro b hb
    rcases List.mem_cons.mp (hperm.mem_iff.mp hb) with rfl | hb
    · exact hlive
    · exact h.live b hb
  | empty => exact ⟨h.distinct, h.live⟩
  | @free a own =>
    have hperm := mine_free own
    obtain ⟨hnot, hdistinct⟩ := List.nodup_cons.mp (hperm.nodup_iff.mp h.distinct)
    refine ⟨hdistinct, fun b hb => Heap.mem_importAddresses_free.mpr ⟨?_, ?_⟩⟩
    · exact h.live b (hperm.mem_iff.mpr (List.mem_cons_of_mem a hb))
    · rintro rfl
      exact hnot hb
  | @giveUp a own =>
    refine ⟨h.distinct, fun b hb => Heap.mem_importAddresses_free.mpr ⟨h.live b hb, ?_⟩⟩
    rintro rfl
    exact (mem_others.mp own).2 hb
  | elsewhere heap same =>
    refine ⟨h.distinct, fun a ha => ?_⟩
    rw [Heap.importAddresses, (same hs).2.2.1]
    exact h.live a ha

structure Receipts (start : Heap) (log : List Act) (h : Heap) : Prop where
  sound : h.Sound
  once : (releasedIn log).Nodup
  gone : ∀ a ∈ releasedIn log, a < h.next ∧ a ∉ h.importAddresses
  counted : h.importBuffers + (releasedIn log).length =
    start.importBuffers + (takenIn log).length

section

variable {start h : Heap} {act : Act}

theorem Receipts.take (hr : Receipts start log h) (bytes : Bytes) :
    Receipts start (log ++ [.took h.next]) (h.alloc .bundle bytes) := by
  have hreleased : releasedIn (log ++ [.took h.next]) = releasedIn log := by
    simp [releasedIn_concat, Act.released?]
  refine ⟨hr.sound.alloc .bundle bytes, hreleased ▸ hr.once, ?_, ?_⟩
  · intro a ha
    obtain ⟨hlt, hgone⟩ := hr.gone a (hreleased ▸ ha)
    refine ⟨Nat.lt_succ_of_lt hlt, fun hm => ?_⟩
    rcases Heap.mem_importAddresses_alloc.mp hm with hm | rfl
    · exact hgone hm
    · exact Nat.lt_irrefl _ hlt
  · have hcounted := hr.counted
    have htaken : (h.alloc .bundle bytes).importBuffers = h.importBuffers + 1 := rfl
    simp only [hreleased, takenIn_concat, Act.taken?, htaken, Option.toList_some,
      List.length_append, List.length_singleton]
    omega

theorem Receipts.release (hr : Receipts start log h) {a : Nat} (ha : a ∈ h.importAddresses)
    (hreleased : act.released? = some a) (htaken : act.taken? = none) :
    Receipts start (log ++ [act]) (h.free .bundle a) := by
  have hnot : a ∉ releasedIn log := fun hm => (hr.gone a hm).2 ha
  have hlog : (releasedIn (log ++ [act])).Perm (a :: releasedIn log) := by
    rw [releasedIn_concat, hreleased]
    exact List.perm_append_singleton a _
  refine ⟨hr.sound.free .bundle a, hlog.nodup_iff.mpr (List.nodup_cons.mpr ⟨hnot, hr.once⟩), ?_, ?_⟩
  · intro b hb
    rcases List.mem_cons.mp (hlog.mem_iff.mp hb) with rfl | hb
    · exact ⟨hr.sound.lt_next ha, fun hm => (Heap.mem_importAddresses_free.mp hm).2 rfl⟩
    · obtain ⟨hlt, hgone⟩ := hr.gone b hb
      exact ⟨hlt, fun hm => hgone (Heap.mem_importAddresses_free.mp hm).1⟩
  · have hcounted := hr.counted
    have hfree : (h.free .bundle a).importBuffers = h.importBuffers - 1 := rfl
    rw [hlog.length_eq, List.length_cons, takenIn_concat, htaken, Option.toList_none,
      List.append_nil]
    omega

theorem Receipts.beside (hr : Receipts start log h) {h' : Heap} (same : h.SameImports h')
    (hreleased : act.released? = none) (htaken : act.taken? = none) :
    Receipts start (log ++ [act]) h' := by
  obtain ⟨hsound, hnext, hblocks, hcounted⟩ := same hr.sound
  have haddresses : h'.importAddresses = h.importAddresses := by
    rw [Heap.importAddresses, hblocks, Heap.importAddresses]
  have hlog : releasedIn (log ++ [act]) = releasedIn log := by
    simp [releasedIn_concat, hreleased]
  refine ⟨hsound, hlog ▸ hr.once, ?_, ?_⟩
  · rw [hlog, haddresses]
    exact fun a ha => ⟨Nat.lt_of_lt_of_le (hr.gone a ha).1 hnext, (hr.gone a ha).2⟩
  · rw [hlog, takenIn_concat, htaken, Option.toList_none, List.append_nil, hcounted]
    exact hr.counted

end

theorem Receipts.step {start : Heap} {act : Act} (hr : Receipts start log c.heap) (h : c.Sound)
    (next : Step c act c') : Receipts start (log ++ [act]) c'.heap := by
  have hsame : c.heap.SameImports c.heap := fun hs => ⟨hs, Nat.le_refl _, rfl, rfl⟩
  cases next with
  | take bytes => exact hr.take bytes
  | offer own => exact hr.beside hsame rfl rfl
  | empty => exact hr.beside hsame rfl rfl
  | free own => exact hr.release (h.live _ (List.mem_append_right _ own)) rfl rfl
  | giveUp own => exact hr.release (mem_others.mp own).1 rfl rfl
  | elsewhere heap same => exact hr.beside same rfl rfl

/-- What is released is there to be released, and one buffer less is live then. -/
theorem Step.released {act : Act} (next : Step c act c') (h : c.Sound) {a : Nat}
    (ha : act.released? = some a) :
    a ∈ c.heap.importAddresses ∧ c'.heap.importBuffers + 1 = c.heap.importBuffers := by
  cases next with
  | free own =>
    cases ha
    exact ⟨h.live a (List.mem_append_right _ own), Int.sub_add_cancel ..⟩
  | giveUp own =>
    cases ha
    exact ⟨(mem_others.mp own).1, Int.sub_add_cancel ..⟩
  | _ => cases ha

theorem Steps.keeps {start : Heap} {c₀ : Custody} (steps : Steps c₀ log c) (hcounts : Counts [] c₀)
    (hsound : c₀.Sound) (hreceipts : Receipts start [] c₀.heap) :
    Counts log c ∧ c.Sound ∧ Receipts start log c.heap := by
  induction steps with
  | rest => exact ⟨hcounts, hsound, hreceipts⟩
  | andThen before next ih =>
    obtain ⟨hcounts, hsound, hreceipts⟩ := ih
    exact ⟨hcounts.step next, hsound.step hreceipts.sound next, hreceipts.step hsound next⟩

theorem Steps.keeps_new {start : Heap} (hs : start.Sound)
    (steps : Steps (idle (.active []) start) log c) :
    Counts log c ∧ c.Sound ∧ Receipts start log c.heap := by
  refine steps.keeps ⟨rfl, rfl, .nil⟩ ⟨.nil, ?_⟩ ⟨hs, .nil, ?_, rfl⟩
  · simp [mine, idle, Tracker.held]
  · simp [releasedIn]

theorem returnedIn_eq_nil_iff : returnedIn log = [] ↔ ∀ held, .emptied held ∉ log := by
  rw [returnedIn, List.filterMap_eq_nil_iff]
  constructor
  · intro h held hm
    cases h _ hm
  · intro h act hact
    cases act with
    | emptied held => exact absurd hact (h held)
    | _ => rfl

theorem Counts.isSealed_iff (h : Counts log c) :
    c.tracker.isSealed = true ↔ ∃ held, .emptied held ∈ log := by
  rw [h.isSealed, bne_iff_ne, Ne, returnedIn_eq_nil_iff]
  simp

theorem held_of_sealed (h : c.tracker.isSealed = true) : c.tracker.held = [] := by
  cases ht : c.tracker with
  | active held => simp [ht, Tracker.isSealed] at h
  | sealed => rfl

/-- What holds of a tracker and of the heap after the acts of a log. -/
structure Safe (start : Heap) (log : List Act) (c : Custody) : Prop where
  sealed_iff : c.tracker.isSealed = true ↔ ∃ held, .emptied held ∈ log
  sealed_holds : c.tracker.isSealed = true → c.tracker.pending = 0
  accepted_iff : ∀ pre a accepted post, log = pre ++ .offered a accepted :: post →
    (accepted = true ↔ ∀ held, .emptied held ∉ pre)
  refused : ∀ a, .offered a false ∈ log → a ∉ c.tracker.held
  accepted : acceptedIn log = c.tracker.pending + (returnedIn log).sum
  /-- Only the first call that empties the tracker can find something in it. -/
  emptied_again : ∀ pre held post, log = pre ++ .emptied held :: post →
    ∀ earlier, .emptied earlier ∈ pre → held = []
  moved : (offeredIn log).Perm (c.tracker.held ++ c.leaving ++ freedIn log)
  once : (releasedIn log).Nodup
  gone : ∀ a ∈ releasedIn log, a ∉ c.heap.importAddresses
  others : ∀ a ∈ c.others, a ∉ offeredIn log
  counted : c.heap.importBuffers + (releasedIn log).length =
    start.importBuffers + (takenIn log).length
  /-- But for what the tracker holds and its calls have in hand, as many buffers are live as if none
  of those offered had ever been taken. -/
  live : c.heap.importBuffers + (offeredIn log).length + (gaveUpIn log).length =
    start.importBuffers + (takenIn log).length + (c.tracker.pending + c.leaving.length)

theorem Steps.safe {start : Heap} (hs : start.Sound)
    (steps : Steps (idle (.active []) start) log c) :
    Safe start log c := by
  obtain ⟨hcounts, hsound, hreceipts⟩ := steps.keeps_new hs
  -- How an offer was answered shows what the tracker was after the acts before it.
  have haccepted : ∀ pre a accepted post, log = pre ++ .offered a accepted :: post →
      (accepted = true ↔ ∀ held, .emptied held ∉ pre) := by
    intro pre a accepted post hlog
    obtain ⟨c₁, _, hpre, hstep, _⟩ := steps.split hlog
    cases hstep with
    | offer own =>
      have hsealed := (hpre.keeps_new hs).1.isSealed_iff
      rw [track_accepted, Bool.not_eq_true', ← Bool.not_eq_true, hsealed, not_exists]
  refine ⟨hcounts.isSealed_iff, ?_, haccepted, ?_, hcounts.accepted, ?_, hcounts.moved,
    hreceipts.once, fun a ha => (hreceipts.gone a ha).2, ?_, hreceipts.counted, ?_⟩
  · intro hsealed
    rw [Tracker.pending, held_of_sealed hsealed, List.length_nil]
  · intro a ha
    obtain ⟨pre, post, hlog⟩ := List.mem_iff_append.mp ha
    have hbefore : ∃ held, .emptied held ∈ pre := by
      have := mt (haccepted pre a false post hlog).mpr Bool.false_ne_true
      simpa using this
    obtain ⟨held, hheld⟩ := hbefore
    have hsealed := hcounts.isSealed_iff.mpr ⟨held, hlog ▸ List.mem_append_left _ hheld⟩
    rw [held_of_sealed hsealed]
    exact List.not_mem_nil
  · intro pre held post hlog earlier hearlier
    obtain ⟨c₁, _, hpre, hstep, _⟩ := steps.split hlog
    cases hstep with
    | empty => exact held_of_sealed ((hpre.keeps_new hs).1.isSealed_iff.mpr ⟨earlier, hearlier⟩)
  · intro a ha hoffered
    obtain ⟨hlive, hmine⟩ := mem_others.mp ha
    rcases List.mem_append.mp (hcounts.moved.mem_iff.mp hoffered) with hm | hfreed
    · exact hmine hm
    · exact (hreceipts.gone a (releasedIn_of_freedIn hfreed)).2 hlive
  · have hcounted := hreceipts.counted
    have hmoved := hcounts.moved.length_eq
    have hreleased := (releasedIn_perm log).length_eq
    simp only [mine, List.length_append] at hmoved hreleased
    rw [Tracker.pending]
    omega

/-- Nothing is left of what was offered, and the count of live buffers is what it is without it. -/
structure Settled (start : Heap) (log : List Act) (c : Custody) : Prop where
  once : ∀ a ∈ offeredIn log, (releasedIn log).count a = 1
  live : c.heap.importBuffers + (offeredIn log).length + (gaveUpIn log).length =
    start.importBuffers + (takenIn log).length

theorem Safe.settled {start : Heap} (h : Safe start log c) (hsealed : c.tracker.isSealed = true)
    (hidle : c.leaving = []) : Settled start log c := by
  have hheld := held_of_sealed hsealed
  refine ⟨fun a ha => ?_, ?_⟩
  · have hfreed : a ∈ freedIn log := by simpa [hheld, hidle] using h.moved.mem_iff.mp ha
    exact List.count_eq_one_of_mem h.once (releasedIn_of_freedIn hfreed)
  · simpa [Tracker.pending, hheld, hidle] using h.live

end Custody

end ScanBridge
