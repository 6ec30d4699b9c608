import Mathlib

/-!
# A conveyor with three places

Items enter a conveyor one after the other. Each is first on its way, then in a
queue, then in the hand of the one who delivers it. While the conveyor is being
emptied, items are also lost: the one on its way, those in the queue or the one
in the hand.
-/

@[ext] structure Conveyor (α : Type*) where
  entered : List α
  pending : List α
  queued : List α
  hand : List α
  delivered : List α

namespace Conveyor

variable {α : Type*} {emptying : Prop} {p q : Conveyor α}

def inside (p : Conveyor α) : List α := p.hand ++ p.queued ++ p.pending

def line (p : Conveyor α) : List α := p.delivered ++ p.inside

def InOrder (p : Conveyor α) : Prop := p.line.Sublist p.entered

/-- One step of the conveyor; `emptying` says whether items may be lost. -/
inductive Move (emptying : Prop) : Conveyor α → Conveyor α → Prop where
  | same (p : Conveyor α) : Move emptying p p
  | enter (p : Conveyor α) (a : α) (h : p.pending = []) :
      Move emptying p { p with entered := p.entered ++ [a], pending := [a] }
  | enqueue (p : Conveyor α) :
      Move emptying p { p with queued := p.queued ++ p.pending, pending := [] }
  | take (p : Conveyor α) (a : α) (rest : List α) (hhand : p.hand = [])
      (hqueued : p.queued = a :: rest) :
      Move emptying p { p with queued := rest, hand := [a] }
  | deliver (p : Conveyor α) :
      Move emptying p { p with delivered := p.delivered ++ p.hand, hand := [] }
  | giveUp (p : Conveyor α) (h : emptying) : Move emptying p { p with pending := [] }
  | clear (p : Conveyor α) (h : emptying) : Move emptying p { p with queued := [] }
  | discard (p : Conveyor α) (h : emptying) : Move emptying p { p with hand := [] }

theorem Move.of_eq {r : Conveyor α} (h : Move emptying p r) (heq : q = r) : Move emptying p q :=
  heq ▸ h

/-- While nothing is lost, the line only grows at its end. -/
theorem Move.line_eq (h : Move emptying p q) (hkeeps : ¬ emptying) :
    ∃ new, q.line = p.line ++ new := by
  cases h with
  | same => exact ⟨[], (List.append_nil _).symm⟩
  | enter a hpending =>
    refine ⟨[a], ?_⟩
    simp [line, inside, hpending]
  | enqueue | deliver => exact ⟨[], by simp [line, inside]⟩
  | take a rest hhand hqueued => exact ⟨[], by simp [line, inside, hhand, hqueued]⟩
  | giveUp hlost | clear hlost | discard hlost => exact absurd hlost hkeeps

theorem Move.delivered_prefix (h : Move emptying p q) : p.delivered <+: q.delivered := by
  cases h with
  | deliver => exact List.prefix_append _ _
  | _ => exact List.prefix_rfl

/-- **The order is kept.** -/
theorem Move.inOrder (h : Move emptying p q) (hp : p.InOrder) : q.InOrder := by
  unfold InOrder at hp ⊢
  cases h with
  | same => exact hp
  | enter a hpending =>
    have hline : p.line ++ [a] = p.delivered ++ (p.hand ++ p.queued ++ [a]) := by
      simp [line, inside, hpending]
    show (p.delivered ++ (p.hand ++ p.queued ++ [a])).Sublist (p.entered ++ [a])
    exact hline ▸ hp.append (List.Sublist.refl [a])
  | enqueue | deliver => simpa [line, inside] using hp
  | take a rest hhand hqueued => simpa [line, inside, hhand, hqueued] using hp
  | giveUp | clear | discard =>
    refine List.Sublist.trans ?_ hp
    simp [line, inside]

/-- A property of the items inside is kept when every item has it as it enters. -/
theorem Move.forall_inside {P : α → Prop} (h : Move emptying p q) (hp : ∀ a ∈ p.inside, P a)
    (henter : ∀ a, q.entered = p.entered ++ [a] → P a) : ∀ a ∈ q.inside, P a := by
  intro b hb
  cases h with
  | enter a hpending =>
    simp only [inside, List.mem_append, List.mem_singleton] at hb
    rcases hb with hb | rfl
    · exact hp b (List.mem_append_left _ (List.mem_append.mpr hb))
    · exact henter _ rfl
  | take a rest hhand hqueued =>
    refine hp b ?_
    simp only [inside, hhand, hqueued, List.nil_append] at hb ⊢
    exact hb
  | _ =>
    refine hp b ?_
    simp only [inside, List.mem_append, List.append_nil, List.nil_append] at hb ⊢
    tauto

/-- An item has place `n` in the line, and none of those to be delivered before it is `bad`. -/
structure WaitsAt (bad : α → Prop) (n : Nat) (a : α) (p : Conveyor α) : Prop where
  place : p.line[n]? = some a
  ahead : ∀ i b, p.delivered.length ≤ i → i < n → p.line[i]? = some b → ¬ bad b

namespace WaitsAt

variable {bad : α → Prop} {n : Nat} {a : α}

theorem lt_length (h : WaitsAt bad n a p) : n < p.line.length :=
  (List.getElem?_eq_some_iff.mp h.place).1

/-- A place that has been passed is that of a delivered item. -/
theorem delivered (h : WaitsAt bad n a p) (hn : n < p.delivered.length) :
    p.delivered[n]? = some a := by
  have hplace := h.place
  rwa [line, List.getElem?_append_left hn] at hplace

theorem move (h : WaitsAt bad n a p) (hmove : Move emptying p q) (hkeeps : ¬ emptying) :
    WaitsAt bad n a q := by
  obtain ⟨new, hline⟩ := hmove.line_eq hkeeps
  have hsame : ∀ i ≤ n, q.line[i]? = p.line[i]? := by
    intro i hi
    rw [hline, List.getElem?_append_left (hi.trans_lt h.lt_length)]
  refine ⟨(hsame n (Nat.le_refl n)).trans h.place, fun i b hi hin hb => ?_⟩
  exact h.ahead i b (hmove.delivered_prefix.length_le.trans hi) hin (hsame i hin.le ▸ hb)

/-- What is delivered before it is not `bad`. -/
theorem next_not_bad (h : WaitsAt bad n a p) (hmove : Move emptying p q) (hkeeps : ¬ emptying)
    {b : α} (hnext : q.delivered = p.delivered ++ [b]) (hn : q.delivered.length ≤ n) : ¬ bad b := by
  obtain ⟨new, hline⟩ := hmove.line_eq hkeeps
  rw [hnext, List.length_append, List.length_singleton] at hn
  refine h.ahead p.delivered.length b (Nat.le_refl _) hn ?_
  rw [← List.getElem?_append_left (Nat.lt_trans hn h.lt_length), ← hline, line, hnext,
    List.append_assoc, List.getElem?_append_right (Nat.le_refl _), Nat.sub_self]
  rfl

end WaitsAt

end Conveyor
