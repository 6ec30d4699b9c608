import Mathlib

/-!
# Calls on a queue of fields

A message is a queue of fields. A call on it may fail, and what it has done to
the queue until then stays done, unless it rewinds. `Puts` and `Takes` say of a
call that it always does the same to the end or to the front of the queue;
their rules follow the sequence of a program, so that a writer and a reader
are compared piece by piece.
-/

namespace Wire

variable {φ α β : Type}

/-- A call on a queue of fields; no result is a failure. -/
def Call (φ α : Type) : Type := List φ → Option α × List φ

namespace Call

def fail : Call φ α := fun p => (none, p)

/-- The rest is not called after a failure. -/
def bind (m : Call φ α) (k : α → Call φ β) : Call φ β := fun p =>
  match m p with
  | (some a, p) => k a p
  | (none, p) => (none, p)

instance : Monad (Call φ) where
  pure a := fun p => (some a, p)
  bind := bind

theorem bind_some {m : Call φ α} {k : α → Call φ β} {p q : List φ} {a : α}
    (h : m p = (some a, q)) : (m >>= k) p = k a q := by
  show Call.bind m k p = k a q
  rw [Call.bind, h]

theorem bind_none {m : Call φ α} {k : α → Call φ β} {p q : List φ} (h : m p = (none, q)) :
    (m >>= k) p = (none, q) := by
  show Call.bind m k p = (none, q)
  rw [Call.bind, h]

/-- A sequence that succeeds is its first call, and then the rest. -/
theorem bind_eq_some {m : Call φ α} {k : α → Call φ β} {p q : List φ} {b : β} :
    (m >>= k) p = (some b, q) ↔ ∃ a p', m p = (some a, p') ∧ k a p' = (some b, q) := by
  show Call.bind m k p = (some b, q) ↔ _
  unfold Call.bind
  constructor
  · intro h
    split at h
    next a p' ha => exact ⟨a, p', ha, h⟩
    · cases h
  · rintro ⟨a, p', ha, h⟩
    rw [ha]
    exact h

theorem bind_assoc {γ : Type} (m : Call φ α) (k : α → Call φ β) (l : β → Call φ γ) :
    m >>= k >>= l = m >>= fun a => k a >>= l := by
  funext p
  cases hm : m p with
  | mk r q =>
    cases r with
    | none => rw [bind_none hm, bind_none (bind_none hm)]
    | some a =>
      rw [bind_some hm]
      show Call.bind (m >>= k) l p = Call.bind (k a) l q
      unfold Call.bind
      rw [bind_some hm]

def put (f : φ) : Call φ Unit := fun p => (some (), p ++ [f])

def take (select : φ → Option α) : Call φ α
  | [] => (none, [])
  | f :: p => match select f with
    | some a => (some a, p)
    | none => (none, f :: p)

/-- Likewise, with a default instead of a failure. -/
def takeD (select : φ → Option α) (default : α) : Call φ α := fun p =>
  match take select p with
  | (some a, p) => (some a, p)
  | (none, p) => (some default, p)

/-- A call with a default does not fail. -/
theorem takeD_some (select : φ → Option α) (default : α) (p : List φ) :
    ∃ a q, takeD select default p = (some a, q) := by
  unfold takeD
  split
  next a q _ => exact ⟨a, q, rfl⟩
  next q _ => exact ⟨default, q, rfl⟩

/-- A failure leaves the queue as it was. -/
def rewinding (m : Call φ α) : Call φ α := fun p =>
  match m p with
  | (some a, p) => (some a, p)
  | (none, _) => (none, p)

theorem rewinding_some {m : Call φ α} {p q : List φ} {a : α} (h : m p = (some a, q)) :
    m.rewinding p = (some a, q) := by
  unfold rewinding
  rw [h]

theorem rewinding_none {m : Call φ α} {p : List φ} (h : (m p).1 = none) :
    m.rewinding p = (none, p) := by
  unfold rewinding
  split
  next heq => rw [heq] at h; cases h
  · rfl

end Call

/-- The call appends these fields. -/
def Puts (m : Call φ Unit) (fs : List φ) : Prop := ∀ p, m p = (some (), p ++ fs)

/-- The call removes these fields from the front, and returns this value. -/
def Takes (m : Call φ α) (fs : List φ) (a : α) : Prop := ∀ p, m (fs ++ p) = (some a, p)

def Fails (m : Call φ α) : Prop := ∀ p, (m p).1 = none

-- Appending

section Puts

variable {m m' : Call φ Unit} {fs gs : List φ}

theorem Puts.pure : Puts (pure () : Call φ Unit) [] := fun p => by
  rw [List.append_nil]
  rfl

theorem Puts.put (f : φ) : Puts (Call.put f) [f] := fun _ => rfl

theorem Puts.bind (h : Puts m fs) (h' : Puts m' gs) : Puts (m >>= fun _ => m') (fs ++ gs) := by
  intro p
  rw [Call.bind_some (h p), h' (p ++ fs), List.append_assoc]

theorem Puts.rewinding (h : Puts m fs) : Puts m.rewinding fs := fun p => by
  rw [Call.rewinding, h p]

end Puts

-- Removing

section Takes

variable {m : Call φ α} {k : α → Call φ β} {fs gs : List φ} {a : α} {b : β}

theorem Takes.pure (a : α) : Takes (pure a : Call φ α) [] a := fun _ => rfl

theorem Takes.take {select : φ → Option α} {f : φ} (h : select f = some a) :
    Takes (Call.take select) [f] a := by
  intro p
  rw [List.singleton_append, Call.take, h]

theorem Takes.takeD {select : φ → Option α} {f : φ} {default : α} (h : select f = some a) :
    Takes (Call.takeD select default) [f] a := by
  intro p
  rw [Call.takeD, Takes.take h p]

theorem Takes.bind (h : Takes m fs a) (h' : Takes (k a) gs b) : Takes (m >>= k) (fs ++ gs) b := by
  intro p
  rw [List.append_assoc, Call.bind_some (h (gs ++ p)), h' p]

/-- One field, and then the rest. -/
theorem Takes.cons {f : φ} (h : Takes m [f] a) (h' : Takes (k a) gs b) :
    Takes (m >>= k) (f :: gs) b :=
  h.bind h'

theorem Takes.last {f : φ} (h : Takes m [f] a) (h' : Takes (k a) [] b) : Takes (m >>= k) [f] b :=
  h.bind h'

end Takes

-- Failing

section Fails

variable {m : Call φ α} {k : α → Call φ β}

theorem Fails.bind (h : Fails m) : Fails (m >>= k) := fun p => by
  rw [Call.bind_none (Prod.ext (h p) rfl)]

theorem Fails.of_rest (h : ∀ a, Fails (k a)) : Fails (m >>= k) := by
  intro p
  cases hm : m p with
  | mk r q =>
    cases r with
    | none => rw [Call.bind_none hm]
    | some a => rw [Call.bind_some hm, h a q]

theorem Fails.rewinding (h : Fails m) (p : List φ) : m.rewinding p = (none, p) := by
  have hp := h p
  unfold Call.rewinding
  split
  next a q hq => rw [hq] at hp; cases hp
  · rfl

end Fails

-- Never failing

def Yields (m : Call φ α) (P : α → Prop) : Prop := ∀ p, ∃ a q, m p = (some a, q) ∧ P a

section Yields

variable {m : Call φ α} {k : α → Call φ β} {P : α → Prop} {Q : β → Prop}

theorem Yields.pure {a : α} (h : P a) : Yields (pure a : Call φ α) P := fun p => ⟨a, p, rfl, h⟩

theorem Yields.takeD (select : φ → Option α) (default : α) :
    Yields (Call.takeD select default) fun _ => True := by
  intro p
  obtain ⟨a, q, h⟩ := Call.takeD_some select default p
  exact ⟨a, q, h, trivial⟩

theorem Yields.bind (h : Yields m P) (h' : ∀ a, P a → Yields (k a) Q) : Yields (m >>= k) Q := by
  intro p
  obtain ⟨a, q, ha, hP⟩ := h p
  rw [Call.bind_some ha]
  exact h' a hP q

end Yields

-- Sending

/-- What `w` puts into the queue, `r` takes out of it, and returns this value. -/
def Carries (w : Call φ Unit) (r : Call φ α) (a : α) : Prop := ∃ fs, Puts w fs ∧ Takes r fs a

section Carries

variable {w w' : Call φ Unit} {r : Call φ α} {k : α → Call φ β} {a : α} {b : β} {f : φ}
  {select : φ → Option α}

theorem Carries.pure (a : α) : Carries (pure () : Call φ Unit) (pure a) a :=
  ⟨[], .pure, .pure a⟩

theorem Carries.take (h : select f = some a) : Carries (Call.put f) (Call.take select) a :=
  ⟨[f], .put f, .take h⟩

theorem Carries.takeD {default : α} (h : select f = some a) :
    Carries (Call.put f) (Call.takeD select default) a :=
  ⟨[f], .put f, .takeD h⟩

/-- **What is put first is taken first.** -/
theorem Carries.bind (h : Carries w r a) (h' : Carries w' (k a) b) :
    Carries (w >>= fun _ => w') (r >>= k) b := by
  obtain ⟨fs, hput, htake⟩ := h
  obtain ⟨gs, hput', htake'⟩ := h'
  exact ⟨fs ++ gs, hput.bind hput', htake.bind htake'⟩

theorem Carries.last (h : Carries w r a) (hk : k a = Pure.pure b) : Carries w (r >>= k) b := by
  obtain ⟨fs, hput, htake⟩ := h
  have hlast : Takes (k a) [] b := hk ▸ .pure b
  refine ⟨fs, hput, ?_⟩
  have htakes := htake.bind hlast
  rwa [List.append_nil] at htakes

theorem Carries.rewinding (h : Carries w r a) : Carries w.rewinding r a := by
  obtain ⟨fs, hput, htake⟩ := h
  exact ⟨fs, hput.rewinding, htake⟩

end Carries

end Wire
