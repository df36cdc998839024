import ScanBridge.Proofs.Dealings

namespace ScanBridge

namespace World

@[simp] theorem release_heap (w : World) (t : Tracker) :
    (w.release t).heap = w.heap.freeAll .bundle t.held := rfl

@[simp] theorem release_registry (w : World) (t : Tracker) :
    (w.release t).registry = w.registry := by
  unfold release releaseAll
  dsimp only
  split <;> rfl

@[simp] theorem release_nextBundle (w : World) (t : Tracker) :
    (w.release t).nextBundle = w.nextBundle := by
  unfold release releaseAll
  dsimp only
  split <;> rfl

end World

theorem addresses_append (hs hs' : List Holding) :
    addresses (hs ++ hs') = addresses hs ++ addresses hs' :=
  List.flatMap_append

theorem addresses_frame (before hs after : List Holding) (others : List Nat) :
    (addresses (before ++ hs ++ after) ++ others).Perm
      (addresses hs ++ (addresses before ++ addresses after ++ others)) := by
  simp only [addresses_append, List.perm_iff_count, List.count_append]
  intro a
  omega

theorem length_addresses (hs : List Holding) :
    (addresses hs).length = (hs.map Holding.pending).sum :=
  List.length_flatMap

namespace Dealing

variable {hs hs' : List Holding} {w w' : World}

/-- The heap holds exactly the import buffers of the owner and those of `others`, whatever the
owner does, and buffers that stay keep their bytes. -/
theorem accounts (h : Dealing hs w hs' w') (others : List Nat)
    (ha : w.heap.Accounts (addresses hs ++ others)) :
    w'.heap.Accounts (addresses hs' ++ others) ∧ w.heap.Later w'.heap := by
  -- Inside of a frame the bundles around it are others too, so the induction is for any `others`.
  induction h generalizing others with
  | rest hs w => exact ⟨ha, .refl _⟩
  | andThen first second ih₁ ih₂ =>
    obtain ⟨ha₁, hl₁⟩ := ih₁ others ha
    obtain ⟨ha₂, hl₂⟩ := ih₂ others ha₁
    exact ⟨ha₂, hl₁.trans hl₂⟩
  | frame before after inner ih =>
    obtain ⟨ha', hl⟩ := ih _ (ha.perm (addresses_frame before _ after others))
    exact ⟨ha'.perm (addresses_frame before _ after others).symm, hl⟩
  | reorder w same =>
    exact ⟨ha.perm ((same.flatMap_right _).append_right others), .refl _⟩
  | notify n w => exact ⟨ha, .refl _⟩
  | elsewhere w heap same =>
    exact ⟨ha.sameImports same, same.later ha.sound⟩
  | make w => exact ⟨ha, .refl _⟩
  | keep id held payload w =>
    refine ⟨(ha.alloc payload).perm ?_, .alloc _ _⟩
    simp only [addresses, Tracker.held, List.flatMap_cons, List.flatMap_nil, List.append_nil,
      List.append_assoc]
    exact List.perm_middle.symm
  | close x w | drop x w =>
    rw [World.release_heap]
    refine ⟨?_, .freeAll ..⟩
    simp only [addresses, List.flatMap_cons, List.flatMap_nil, List.append_nil] at ha
    exact ha.freeAll
  | scan id inner ih => exact ih others ha

theorem buffers (h : Dealing hs w hs' w') (others : List Nat)
    (ha : w.heap.Accounts (addresses hs ++ others)) :
    w'.live.buffers + (hs.map Holding.pending).sum =
      w.live.buffers + (hs'.map Holding.pending).sum := by
  have hw := ha.counted
  have hw' := (h.accounts others ha).1.counted
  simp only [List.length_append, length_addresses] at hw hw'
  simp only [World.live]
  omega

end Dealing

/-- A tracker takes buffers until it is sealed. -/
def Tracker.Becomes (t t' : Tracker) : Prop :=
  t' = .sealed ∨ ∃ held more, t = .active held ∧ t' = .active (held ++ more)

theorem Tracker.Becomes.refl (t : Tracker) : t.Becomes t := by
  cases t with
  | active held => exact .inr ⟨held, [], rfl, by simp⟩
  | sealed => exact .inl rfl

theorem Tracker.Becomes.trans {t t' t'' : Tracker} (h : t.Becomes t') (h' : t'.Becomes t'') :
    t.Becomes t'' := by
  rcases h' with rfl | ⟨held', more', rfl, rfl⟩
  · exact .inl rfl
  · rcases h with h | ⟨held, more, rfl, he⟩
    · cases h
    · cases he
      exact .inr ⟨held, more ++ more', rfl, by simp⟩

namespace Dealing

variable {hs hs' : List Holding} {w w' : World}

theorem nextBundle_le (h : Dealing hs w hs' w') : w.nextBundle ≤ w'.nextBundle := by
  induction h with
  | andThen _ _ ih₁ ih₂ => exact Nat.le_trans ih₁ ih₂
  | frame _ _ _ ih => exact ih
  | make w => exact Nat.le_succ _
  | scan id _ ih => exact ih
  | close x w | drop x w => exact Nat.le_of_eq (World.release_nextBundle w _).symm
  | rest | reorder | notify | elsewhere | keep => exact Nat.le_refl _

theorem becomes (h : Dealing hs w hs' w') {x' : Holding} (hx : x' ∈ hs')
    (hold : x'.id < w.nextBundle) :
    ∃ x ∈ hs, x.id = x'.id ∧ x.tracker.Becomes x'.tracker := by
  induction h generalizing x' with
  | rest hs w => exact ⟨x', hx, rfl, .refl _⟩
  | andThen first second ih₁ ih₂ =>
    obtain ⟨x₁, hx₁, hid₁, hb₁⟩ := ih₂ hx (Nat.lt_of_lt_of_le hold first.nextBundle_le)
    obtain ⟨x, hx, hid, hb⟩ := ih₁ hx₁ (hid₁ ▸ hold)
    exact ⟨x, hx, hid.trans hid₁, hb.trans hb₁⟩
  | frame before after inner ih =>
    rcases List.mem_append.mp hx with hx | hx
    · rcases List.mem_append.mp hx with hx | hx
      · exact ⟨x', by simp [hx], rfl, .refl _⟩
      · obtain ⟨x, hx, hid, hb⟩ := ih hx hold
        exact ⟨x, by simp [hx], hid, hb⟩
    · exact ⟨x', by simp [hx], rfl, .refl _⟩
  | reorder w same => exact ⟨x', same.mem_iff.mpr hx, rfl, .refl _⟩
  | notify n w => simp at hx
  | elsewhere w heap same => simp at hx
  | make w =>
    rw [List.mem_singleton.mp hx] at hold
    exact absurd hold (Nat.lt_irrefl _)
  | keep id held payload w =>
    rw [List.mem_singleton.mp hx]
    exact ⟨_, List.mem_singleton.mpr rfl, rfl, .inr ⟨held, _, rfl, rfl⟩⟩
  | close x w =>
    rw [List.mem_singleton.mp hx]
    exact ⟨x, List.mem_singleton.mpr rfl, rfl, .inl rfl⟩
  | drop x w => simp at hx
  | scan id inner ih => exact ih hx hold

theorem distinct (h : Dealing hs w hs' w') (hold : ∀ x ∈ hs, x.id < w.nextBundle)
    (hd : (hs.map Holding.id).Nodup) :
    (∀ x ∈ hs', x.id < w'.nextBundle) ∧ (hs'.map Holding.id).Nodup := by
  induction h with
  | rest hs w => exact ⟨hold, hd⟩
  | andThen first second ih₁ ih₂ =>
    obtain ⟨hold₁, hd₁⟩ := ih₁ hold hd
    exact ih₂ hold₁ hd₁
  | @frame before after hs hs' w w' inner ih =>
    have hle := inner.nextBundle_le
    simp only [List.mem_append, or_imp, forall_and] at hold
    simp only [List.map_append, List.nodup_append, List.mem_append] at hd
    obtain ⟨⟨hb, hi⟩, ha⟩ := hold
    obtain ⟨⟨hdb, hdi, hbi⟩, hda, hbia⟩ := hd
    obtain ⟨hold', hd'⟩ := ih hi hdi
    -- An id inside is new, and then it is none of the ids outside, or it was inside before.
    have hout : ∀ a ∈ hs'.map Holding.id, ∀ c : Holding, c.id < w.nextBundle →
        c.id ∉ hs.map Holding.id → a ≠ c.id := by
      intro a ha c hc hnot he
      obtain ⟨x', hx', rfl⟩ := List.mem_map.mp ha
      obtain ⟨x, hx, hid, _⟩ := inner.becomes hx' (he ▸ hc)
      exact hnot (he ▸ hid ▸ List.mem_map_of_mem hx)
    refine ⟨?_, ?_⟩
    · intro x hx
      simp only [List.mem_append] at hx
      rcases hx with (hx | hx) | hx
      · exact Nat.lt_of_lt_of_le (hb x hx) hle
      · exact hold' x hx
      · exact Nat.lt_of_lt_of_le (ha x hx) hle
    · simp only [List.map_append, List.nodup_append, List.mem_append]
      refine ⟨⟨hdb, hd', ?_⟩, hda, ?_⟩
      · intro a hm c hc he
        obtain ⟨y, hy, rfl⟩ := List.mem_map.mp hm
        have hnot : y.id ∉ hs.map Holding.id := fun hin => hbi _ hm _ hin rfl
        exact hout c hc y (hb y hy) hnot he.symm
      · intro a hm c hc he
        obtain ⟨y, hy, rfl⟩ := List.mem_map.mp hc
        rcases hm with hm | hm
        · exact hbia a (.inl hm) _ hc he
        · have hnot : y.id ∉ hs.map Holding.id := fun hin => hbia _ (.inr hin) _ hc rfl
          exact hout a hm y (ha y hy) hnot he
  | reorder w same =>
    exact ⟨fun x hx => hold x (same.mem_iff.mpr hx), (same.map _).nodup_iff.mp hd⟩
  | notify n w => exact ⟨hold, hd⟩
  | elsewhere w heap same => exact ⟨hold, hd⟩
  | make w => simp
  | keep id held payload w => exact ⟨by simpa using hold, by simp⟩
  | close x w => exact ⟨by simpa using hold, by simp⟩
  | drop x w => simp
  | scan id inner ih => exact ih hold hd

end Dealing

namespace World

/-- The scans that were ever registered, by the notices given of them. -/
def registrations (w : World) : Nat := w.notices.count .registered

/-- Tokens were given out in the order of their values, and the counter has not come round. -/
structure InOrder (w : World) : Prop where
  started : 0 < w.registry.counter.toNat
  counted : w.registry.counter.toNat ≤ w.registrations + 1
  below : ∀ x ∈ w.registry.live, x.1 ≠ 0 ∧ x.1.toNat < w.registry.counter.toNat

theorem inOrder_new : ({} : World).InOrder := by
  constructor <;> simp

theorem registrations_notify (w : World) (n : Notice) :
    (w.notify n).registrations = w.registrations + if n = .registered then 1 else 0 := by
  simp [registrations, notify, Array.count_push]

theorem heap_foldl_notify (ns : List Notice) (w : World) :
    (ns.foldl notify w).heap = w.heap := by
  induction ns generalizing w with
  | nil => rfl
  | cons n ns ih => exact ih (w.notify n)

theorem registrations_le_notify (w : World) (n : Notice) :
    w.registrations ≤ (w.notify n).registrations := by
  rw [registrations_notify]
  omega

@[simp] theorem registrations_release (w : World) (t : Tracker) :
    (w.release t).registrations = w.registrations := by
  unfold release releaseAll
  dsimp only
  split
  · rfl
  · change (w.notify _).registrations = _
    simp [registrations_notify]

theorem registrations_enrolled (w : World) (id : BundleId) :
    (w.enrolled id).registrations = w.registrations + 1 :=
  (registrations_notify _ _).trans rfl

theorem registrations_withdraw (w : World) (token : Token) :
    (Bundle.withdraw token w).registrations = w.registrations :=
  (registrations_notify _ _).trans rfl

theorem InOrder.of_subset {w w' : World} (h : w.InOrder)
    (hcounter : w'.registry.counter = w.registry.counter)
    (hlive : w'.registry.live ⊆ w.registry.live) (hle : w.registrations ≤ w'.registrations) :
    w'.InOrder := by
  refine ⟨hcounter ▸ h.started, ?_, ?_⟩
  · have := h.counted
    rw [hcounter]
    omega
  · rw [hcounter]
    exact fun x hx => h.below x (hlive hx)

theorem InOrder.counter_ne_zero {w : World} (h : w.InOrder) : w.registry.counter ≠ 0 := by
  intro he
  have := h.started
  rw [he] at this
  exact Nat.lt_irrefl 0 this

theorem InOrder.nextToken {w : World} (h : w.InOrder) :
    w.registry.nextToken = w.registry.counter := by
  simp [Registry.nextToken, h.counter_ne_zero]

theorem InOrder.live_without_next {w : World} (h : w.InOrder) :
    w.registry.live.filter (·.1 ≠ w.registry.nextToken) = w.registry.live := by
  apply List.filter_eq_self.mpr
  intro x hx
  have hlt := (h.below x hx).2
  rw [h.nextToken]
  refine decide_eq_true fun he => ?_
  rw [he] at hlt
  exact Nat.lt_irrefl _ hlt

theorem InOrder.enrolled {w : World} (h : w.InOrder) (id : BundleId)
    (hroom : w.registrations < 2 ^ 64 - 2) :
    (w.enrolled id).InOrder ∧
      (w.enrolled id).registry.live = (w.registry.nextToken, id) :: w.registry.live := by
  have hcount : (w.enrolled id).registry.counter.toNat = w.registry.counter.toNat + 1 := by
    have := h.counted
    change (w.registry.counter + 1).toNat = _
    rw [UInt64.toNat_add]
    simp only [UInt64.toNat_one]
    omega
  have hlive : (w.enrolled id).registry.live = (w.registry.nextToken, id) :: w.registry.live :=
    congrArg _ h.live_without_next
  refine ⟨⟨?_, ?_, ?_⟩, hlive⟩
  · omega
  · rw [hcount, registrations_enrolled]
    exact Nat.succ_le_succ h.counted
  · rw [hlive, hcount, h.nextToken]
    intro x hx
    rcases List.mem_cons.mp hx with rfl | hx
    · exact ⟨h.counter_ne_zero, Nat.lt_succ_self _⟩
    · exact ⟨(h.below x hx).1, Nat.lt_succ_of_lt (h.below x hx).2⟩

end World

namespace Dealing

variable {hs hs' : List Holding} {w w' : World}

theorem registrations_le (h : Dealing hs w hs' w') : w.registrations ≤ w'.registrations := by
  induction h with
  | andThen _ _ ih₁ ih₂ => exact Nat.le_trans ih₁ ih₂
  | frame _ _ _ ih => exact ih
  | notify n w => exact World.registrations_le_notify w n
  | close x w | drop x w => exact Nat.le_of_eq (World.registrations_release w _).symm
  | scan id _ ih =>
    rw [World.registrations_enrolled] at ih
    rw [World.registrations_withdraw]
    omega
  | rest | reorder | elsewhere | make | keep => exact Nat.le_refl _

/-- Whoever deals with the world leaves the table of tokens as it was, so long as no token is given
out twice. -/
theorem registry (h : Dealing hs w hs' w') (hw : w.InOrder)
    (hroom : w'.registrations < 2 ^ 64 - 1) :
    w'.InOrder ∧ w'.registry.live = w.registry.live := by
  induction h with
  | andThen first second ih₁ ih₂ =>
    obtain ⟨hw₁, hl₁⟩ := ih₁ hw (Nat.lt_of_le_of_lt second.registrations_le hroom)
    obtain ⟨hw₂, hl₂⟩ := ih₂ hw₁ hroom
    exact ⟨hw₂, hl₂.trans hl₁⟩
  | frame _ _ _ ih => exact ih hw hroom
  | notify n w =>
    exact ⟨hw.of_subset rfl (List.Subset.refl _) (World.registrations_le_notify w n), rfl⟩
  | close x w | drop x w =>
    have hr := World.release_registry w x.tracker
    refine ⟨hw.of_subset (by rw [hr]) (by rw [hr]; exact List.Subset.refl _) ?_, by rw [hr]⟩
    exact Nat.le_of_eq (World.registrations_release w _).symm
  -- The token of the scan stands first in the table while it lasts, and goes with its release.
  | @scan id hs hs' w w' inner ih =>
    have hle := inner.registrations_le
    rw [World.registrations_enrolled] at hle
    rw [World.registrations_withdraw] at hroom
    obtain ⟨henrolled, hlive⟩ := hw.enrolled id (by omega)
    obtain ⟨hw', hl⟩ := ih henrolled hroom
    refine ⟨hw'.of_subset rfl (List.filter_sublist.subset) ?_, ?_⟩
    · exact Nat.le_of_eq (World.registrations_withdraw w' _).symm
    · change w'.registry.live.filter _ = _
      rw [hl, hlive, List.filter_cons_of_neg (by simp)]
      exact hw.live_without_next
  | make w => exact ⟨hw.of_subset rfl (List.Subset.refl _) (Nat.le_refl _), rfl⟩
  | keep | elsewhere => exact ⟨hw.of_subset rfl (List.Subset.refl _) (Nat.le_refl _), rfl⟩
  | rest | reorder => exact ⟨hw, rfl⟩

end Dealing

end ScanBridge
