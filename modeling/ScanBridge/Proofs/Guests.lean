import ScanBridge.Proofs.Conduct
import ScanBridge.Session.Scope

namespace ScanBridge

theorem Conduct.told (hs : List Holding) (n : Notice) (w : World) :
    Conduct hs w hs (w.notify n) := by
  simpa using (Conduct.notify n w).frame [] hs

theorem Conduct.toldAll (hs : List Holding) (ns : List Notice) (w : World) :
    Conduct hs w hs (ns.foldl World.notify w) := by
  induction ns generalizing w with
  | nil => exact .rest hs w
  | cons n ns ih => exact (Conduct.told hs n w).andThen (ih _)

theorem Conduct.toldMetas (hs : List Holding) (r : Layout.Rule) (w : World) :
    Conduct hs w hs (w.notifyUnknownMetas r) := by
  have hall := Conduct.toldAll hs (r.unknownMetas.map fun m => .unknownMeta m.1 m.2) w
  rw [List.foldl_map] at hall
  exact hall

def Directive.Good (d : Directive (World → Inner)) : Prop :=
  ∀ plan, d.nested = some plan → ∀ w, Conduct [] w [] (plan w).world

namespace Journal

def Good (j : Journal) : Prop := ∀ d ∈ j.directives, d.Good

theorem afterReadings_conduct (r : Layout.Rule) (n : Nat) (w : World) :
    Conduct [] w [] (afterReadings r n w) := by
  induction n generalizing w with
  | zero => exact .rest [] w
  | succ n ih => exact (Conduct.toldMetas [] r w).andThen (ih _)

/-- A call reads the metadata of its rule, and then runs the plan of the directive it follows. -/
theorem react_world (j : Journal) (c : Call) (w : World) : ∃ n,
    let read := match c.rule? with
      | none => w
      | some r => afterReadings r.2 n w
    (j.react c w).world = read ∨
      ∃ d ∈ j.directives, ∃ plan,
        d.nested = some plan ∧ (j.react c w).world = (plan read).world := by
  unfold react
  dsimp only
  generalize hf : j.directives.find? _ = found
  cases found with
  | none => exact ⟨_, .inl rfl⟩
  | some d =>
    cases hn : d.nested with
    | none =>
      simp only [Option.getD_some, hn, Option.map_none, Option.getD_none]
      exact ⟨_, .inl rfl⟩
    | some plan =>
      simp only [Option.getD_some, hn, Option.map_some]
      exact ⟨_, .inr ⟨d, List.mem_of_find?_eq_some hf, plan, hn, rfl⟩⟩

/-- A journal owns no bundles between its calls. What it runs inside a call may own some, and has
let go of them when the call ends. -/
theorem react_conduct {j : Journal} (hj : j.Good) (c : Call) (w : World) :
    Conduct [] w [] (j.react c w).world := by
  obtain ⟨n, hworld⟩ := j.react_world c w
  have hread : Conduct [] w [] (match c.rule? with
      | none => w
      | some r => afterReadings r.2 n w) := by
    split
    · exact .rest [] w
    · exact afterReadings_conduct _ n w
  rcases hworld with hw | ⟨d, hd, plan, hplan, hw⟩
  · rw [hw]
    exact hread
  · rw [hw]
    exact hread.andThen (hj d hd plan hplan _)

theorem confined : Confined Conduct (fun _ : Journal => []) Good where
  offers_good _ _ hj := hj
  offers_own _ _ _ := rfl
  call_good _ _ _ hj := hj
  call _ c w hj := react_conduct hj c w

end Journal

namespace MatchRecorder

theorem confined : Confined Conduct (fun _ : MatchRecorder => []) fun _ => True where
  offers_good _ _ _ := trivial
  offers_own _ _ _ := rfl
  call_good _ _ _ _ := trivial
  call r c w _ := by
    cases c with
    | ruleMatching ctx rule => exact .toldMetas [] rule w
    | _ => exact .rest [] w

end MatchRecorder

namespace Guest

def Good : Guest → Prop
  | .journal j => j.Good
  | _ => True

theorem confined : Confined Conduct (fun _ : Guest => []) Good where
  offers_good g _ hg := by cases g <;> exact hg
  offers_own _ _ _ := rfl
  call_good g _ _ hg := by cases g <;> exact hg
  call g c w hg := by
    cases g with
    | journal j => exact Journal.confined.call j c w hg
    | recorder r => exact MatchRecorder.confined.call r c w trivial
    | inert => exact .rest [] w

end Guest

end ScanBridge
