import Mathlib.Algebra.Ring.Nat
import ScanBridge.Engine.Run

namespace ScanBridge

variable {α σ : Type} {answer : Event → σ → World → Answered σ}

theorem concat_eq_append_cons {l pre post : List α} {last x : α}
    (h : l ++ [last] = pre ++ x :: post) :
    (l = pre ∧ last = x ∧ post = []) ∨ ∃ inner, l = pre ++ x :: inner ∧ post = inner ++ [last] := by
  rcases List.eq_nil_or_concat post with rfl | ⟨inner, y, rfl⟩
  · obtain ⟨hl, hx⟩ := List.append_inj' h rfl
    exact .inl ⟨hl, List.singleton_inj.mp hx, rfl⟩
  · rw [List.concat_eq_append, ← List.cons_append, ← List.append_assoc] at h
    obtain ⟨hl, hy⟩ := List.append_inj' h rfl
    exact .inr ⟨inner, hl, by rw [List.concat_eq_append, hy]⟩

/-- One event of a run: what it met, and what answering it left behind. -/
structure Exchange (σ : Type) where
  event : Event
  state : σ
  world : World
  answered : Answered σ

def Run.exchanges (answer : Event → σ → World → Answered σ) :
    Run α → σ → World → List (Exchange σ)
  | .finish .., _, _ => []
  | .panic _, _, _ => []
  | .notify n rest, s, w => rest.exchanges answer s (w.notify n)
  | .look k, s, w => (k w).exchanges answer s w
  | .emit e k, s, w =>
    ⟨e, s, w, answer e s w⟩ ::
      (k (answer e s w).reply).exchanges answer (answer e s w).state (answer e s w).world

/-- Exchanges that follow one another from a state and a world to others, each from what the one
before it left, but for notices that the engine gives in between. What the engine does with the
replies plays no part here, so that every engine is covered. -/
inductive Chain (answer : Event → σ → World → Answered σ) :
    σ → World → List (Exchange σ) → σ → World → Prop
  | done (s : σ) (w : World) : Chain answer s w [] s w
  | notice (n : Notice) {s s' : σ} {w w' : World} {xs : List (Exchange σ)}
      (rest : Chain answer s (w.notify n) xs s' w') : Chain answer s w xs s' w'
  | event (e : Event) {s s' : σ} {w w' : World} {xs : List (Exchange σ)}
      (rest : Chain answer (answer e s w).state (answer e s w).world xs s' w') :
      Chain answer s w (⟨e, s, w, answer e s w⟩ :: xs) s' w'

theorem Run.chain (answer : Event → σ → World → Answered σ) (run : Run α) (s : σ) (w : World) :
    Chain answer s w (run.exchanges answer s w) (run.drive answer s w).state
      (run.drive answer s w).world := by
  induction run generalizing s w with
  | finish status left => exact .done s w
  | panic left => exact .done s w
  | notify n rest ih => exact .notice n (ih s (w.notify n))
  | look k ih => exact ih w s w
  | emit e k ih => exact .event e (ih _ _ _)

theorem Chain.split {s s' : σ} {w w' : World} {xs pre post : List (Exchange σ)} {x : Exchange σ}
    (h : Chain answer s w xs s' w') (hx : xs = pre ++ x :: post) :
    Chain answer s w pre x.state x.world ∧ x.answered = answer x.event x.state x.world ∧
      Chain answer x.answered.state x.answered.world post s' w' := by
  induction h generalizing pre with
  | done s w => simp at hx
  | notice n rest ih =>
    obtain ⟨hpre, ha, hpost⟩ := ih hx
    exact ⟨.notice n hpre, ha, hpost⟩
  | event e rest ih =>
    cases pre with
    | nil =>
      obtain ⟨rfl, rfl⟩ := List.cons.inj hx
      exact ⟨.done _ _, rfl, rest⟩
    | cons y pre =>
      obtain ⟨rfl, hxs⟩ := List.cons.inj hx
      obtain ⟨hpre, ha, hpost⟩ := ih hxs
      exact ⟨.event e hpre, ha, hpost⟩

theorem Chain.answered {s s' : σ} {w w' : World} {xs : List (Exchange σ)}
    (h : Chain answer s w xs s' w') {x : Exchange σ} (hx : x ∈ xs) :
    x.answered = answer x.event x.state x.world := by
  obtain ⟨pre, post, hxs⟩ := List.mem_iff_append.mp hx
  exact (h.split hxs).2.1

/-- What every answer and every notice keeps holds at each exchange and at the end. -/
theorem Chain.invariant {P : σ → World → Prop} {s s' : σ} {w w' : World}
    {xs : List (Exchange σ)} (h : Chain answer s w xs s' w')
    (hnotice : ∀ s w n, P s w → P s (w.notify n))
    (hanswer : ∀ e s w, P s w → P (answer e s w).state (answer e s w).world) (hs : P s w) :
    (∀ x ∈ xs, P x.state x.world) ∧ P s' w' := by
  induction h with
  | done s w => exact ⟨by simp, hs⟩
  | notice n rest ih => exact ih (hnotice _ _ n hs)
  | event e rest ih =>
    obtain ⟨hxs, hend⟩ := ih (hanswer e _ _ hs)
    refine ⟨?_, hend⟩
    intro x hx
    rcases List.mem_cons.mp hx with rfl | hx
    · exact hs
    · exact hxs x hx

end ScanBridge
