import MediaFoundation.Lib.Runs
import MediaFoundation.Lib.Words
import MediaFoundation.Osal.RingBuffer

/-!
# The window of RingBuffer

`head ≤ tail ≤ head + bufferSize` between the calls, and the arithmetic and
the copies of every call under it. `SetHead` checks its argument against both
ends of the window, `SetTail` only against the head: `step_safe_iff` says
exactly which steps keep the window and compute without wrapping.
-/

namespace MediaFoundation.Osal

open Words

/-! ## What is to be kept -/

def Arith.Exact : Arith → Prop
  | .sum a b => a.toNat + b.toNat < 2 ^ 64
  | .diff a b => b.toNat ≤ a.toNat

def Copy.Inside (c : Copy) (bufferSize : UInt64) : Prop :=
  c.offset.toNat + c.count.toNat ≤ bufferSize.toNat

namespace RingBuffer

structure Window (r : RingBuffer) : Prop where
  head_le : r.head.toNat ≤ r.tail.toNat
  tail_le : r.tail.toNat ≤ r.head.toNat + r.bufferSize.toNat

theorem Window.getSize_eq {r : RingBuffer} (h : Window r) :
    r.getSize.toNat = r.tail.toNat - r.head.toNat :=
  toNat_diff h.head_le

theorem Window.getSize_le {r : RingBuffer} (h : Window r) :
    r.getSize.toNat ≤ r.bufferSize.toNat := by
  have := h.tail_le
  rw [h.getSize_eq]
  omega

theorem Window.getFreeSize_eq {r : RingBuffer} (h : Window r) :
    r.getFreeSize.toNat = r.bufferSize.toNat - r.getSize.toNat :=
  toNat_diff h.getSize_le

theorem Window.readable_eq {r : RingBuffer} (h : Window r) (readSize : UInt64) :
    (r.readable readSize).toNat = min readSize.toNat (r.tail.toNat - r.head.toNat) := by
  have hsize := h.getSize_eq
  unfold getSize at hsize
  unfold readable
  simp only [UInt64.lt_iff_toNat_lt]
  split <;> omega

end RingBuffer

structure Outcome.Safe (o : Outcome) : Prop where
  arith : ∀ a ∈ o.arith, a.Exact
  copies : ∀ c ∈ o.copies, c.Inside o.ring.bufferSize
  window : o.ring.Window

namespace RingBuffer

variable {r : RingBuffer}

theorem Window.safe (h : Window r) {reply : Reply} {arith : List Arith}
    (harith : ∀ a ∈ arith, a.Exact) : Outcome.Safe { ring := r, reply, arith } :=
  ⟨harith, nofun, h⟩

/-! ## The calls -/

theorem readCopy_safe_iff (h : Window r) (hN : 0 < r.bufferSize.toNat) {n : UInt64}
    (hn : n.toNat ≤ r.tail.toNat - r.head.toNat) :
    (r.readCopy n).Safe ↔ r.mediaOffset.toNat + n.toNat < 2 ^ 64 := by
  have hhead := h.head_le
  have htail := h.tail_le
  have hlt := r.tail.toNat_lt
  have hindex : (r.head % r.bufferSize).toNat = r.head.toNat % r.bufferSize.toNat :=
    UInt64.toNat_mod ..
  have hmod := Nat.mod_lt r.head.toNat hN
  have hle := Nat.mod_le r.head.toNat r.bufferSize.toNat
  have hsum : (r.head % r.bufferSize + n).toNat = (r.head % r.bufferSize).toNat + n.toNat :=
    toNat_sum (by omega)
  have hnext : (r.head + n).toNat = r.head.toNat + n.toNat := toNat_sum (by omega)
  constructor
  · intro hsafe
    refine hsafe.arith (.sum r.mediaOffset n) ?_
    unfold readCopy
    simp only
    split <;> simp
  · intro hoffset
    unfold readCopy
    simp only [UInt64.lt_iff_toNat_lt, hsum]
    split
    next hfit =>
      refine ⟨?_, ?_, ⟨?_, ?_⟩⟩
      · simp only [List.forall_mem_cons, Arith.Exact, List.not_mem_nil, false_implies, implies_true,
          and_true]
        omega
      · simp only [List.forall_mem_cons, Copy.Inside, List.not_mem_nil, false_implies, implies_true,
          and_true]
        omega
      · simp only [hnext]
        omega
      · simp only [hnext]
        omega
    next hfit =>
      have hroom : (r.bufferSize - r.head % r.bufferSize).toNat =
          r.bufferSize.toNat - (r.head % r.bufferSize).toNat :=
        toNat_diff (by omega)
      have hrest : (n - (r.bufferSize - r.head % r.bufferSize)).toNat =
          n.toNat - (r.bufferSize - r.head % r.bufferSize).toNat :=
        toNat_diff (by omega)
      refine ⟨?_, ?_, ⟨?_, ?_⟩⟩
      · simp only [List.forall_mem_cons, List.cons_append, List.nil_append, Arith.Exact,
          List.not_mem_nil, false_implies, implies_true, and_true]
        omega
      · simp only [List.forall_mem_cons, Copy.Inside, List.not_mem_nil, false_implies, implies_true,
          and_true, UInt64.toNat_zero]
        omega
      · simp only [hnext]
        omega
      · simp only [hnext]
        omega

theorem readBuffer_safe_iff (h : Window r) (hN : 0 < r.bufferSize.toNat) (ptr : Bool)
    (readSize : UInt64) (waitTimes : Int32) :
    (r.readBuffer ptr readSize waitTimes).Safe ↔
      (r.isActive → r.isReadBlockingAllowed → ptr →
        r.mediaOffset.toNat + (r.readable readSize).toNat < 2 ^ 64) := by
  have hdiff : ∀ a ∈ [Arith.diff r.tail r.head], a.Exact := by
    simp only [List.forall_mem_singleton]
    exact h.head_le
  have hmedia := r.mediaOffset.toNat_lt
  unfold readBuffer
  simp only
  split
  next hoff =>
    refine iff_of_true (h.safe nofun) fun hactive hallowed => ?_
    exact absurd hoff (by simp [hactive, hallowed])
  next hon =>
    split
    next hwaits =>
      -- nothing to read, so nothing is taken
      refine iff_of_true (h.safe hdiff) fun _ _ _ => ?_
      have hsize : r.tail.toNat - r.head.toNat = 0 := by
        rw [← toNat_diff h.head_le, hwaits.2]
        rfl
      rw [h.readable_eq, hsize]
      omega
    next hready =>
      split
      next hnull => exact iff_of_true (h.safe hdiff) fun _ _ hptr => absurd hptr hnull
      next hptr =>
        have hn : (r.readable readSize).toNat ≤ r.tail.toNat - r.head.toNat := by
          rw [h.readable_eq]
          omega
        rw [not_or, not_not, not_not] at hon
        rw [not_not] at hptr
        simp only [hon.1, hon.2, hptr, forall_const, ← readCopy_safe_iff h hN hn]
        constructor
        · exact fun hsafe => ⟨fun a ha => hsafe.arith a (List.mem_append_right _ ha), hsafe.copies,
            hsafe.window⟩
        · refine fun hsafe => ⟨fun a ha => ?_, hsafe.copies, hsafe.window⟩
          exact (List.mem_append.mp ha).elim (hdiff a) (hsafe.arith a)

theorem writeCopy_safe (h : Window r) (hN : 0 < r.bufferSize.toNat) {w : Write}
    (hsum : r.tail.toNat + w.writeSize.toNat < 2 ^ 64)
    (hfits : r.tail.toNat + w.writeSize.toNat ≤ r.head.toNat + r.bufferSize.toNat) :
    (r.writeCopy w).Safe := by
  have hhead := h.head_le
  have hindex : (r.tail % r.bufferSize).toNat = r.tail.toNat % r.bufferSize.toNat :=
    UInt64.toNat_mod ..
  have hmod := Nat.mod_lt r.tail.toNat hN
  have hle := Nat.mod_le r.tail.toNat r.bufferSize.toNat
  have hend : (r.tail % r.bufferSize + w.writeSize).toNat =
      (r.tail % r.bufferSize).toNat + w.writeSize.toNat := toNat_sum (by omega)
  have hnext : (r.tail + w.writeSize).toNat = r.tail.toNat + w.writeSize.toNat := toNat_sum hsum
  unfold writeCopy
  split
  · exact h.safe nofun
  · simp only [UInt64.lt_iff_toNat_lt, hend]
    split
    next hfit =>
      refine ⟨?_, ?_, ⟨?_, ?_⟩⟩
      · simp only [List.forall_mem_cons, Arith.Exact, List.not_mem_nil, false_implies, implies_true,
          and_true]
        omega
      · simp only [List.forall_mem_cons, Copy.Inside, List.not_mem_nil, false_implies, implies_true,
          and_true]
        omega
      · simp only [hnext]
        omega
      · simp only [hnext]
        omega
    next hfit =>
      have hroom : (r.bufferSize - r.tail % r.bufferSize).toNat =
          r.bufferSize.toNat - (r.tail % r.bufferSize).toNat := toNat_diff (by omega)
      have hrest : (w.writeSize - (r.bufferSize - r.tail % r.bufferSize)).toNat =
          w.writeSize.toNat - (r.bufferSize - r.tail % r.bufferSize).toNat :=
        toNat_diff (by omega)
      refine ⟨?_, ?_, ⟨?_, ?_⟩⟩
      · simp only [List.forall_mem_cons, List.cons_append, List.nil_append, Arith.Exact,
          List.not_mem_nil, false_implies, implies_true, and_true]
        omega
      · simp only [List.forall_mem_cons, Copy.Inside, List.not_mem_nil, false_implies, implies_true,
          and_true, UInt64.toNat_zero]
        omega
      · simp only [hnext]
        omega
      · simp only [hnext]
        omega

theorem writeLoop_safe_iff (h : Window r) (hN : 0 < r.bufferSize.toNat) (w : Write) :
    (r.writeLoop w).Safe ↔ w.writeSize.toNat + r.tail.toNat < 2 ^ 64 ∧
      r.head.toNat + r.bufferSize.toNat < 2 ^ 64 := by
  constructor
  · intro hsafe
    have hmem : ∀ a ∈ [Arith.sum w.writeSize r.tail, .sum r.head r.bufferSize],
        a ∈ (r.writeLoop w).arith := by
      intro a ha
      unfold writeLoop
      simp only
      split
      · exact ha
      · exact List.mem_append_left _ ha
    exact ⟨hsafe.arith _ (hmem _ (List.mem_cons_self ..)),
      hsafe.arith _ (hmem _ (List.mem_cons_of_mem _ (List.mem_cons_self ..)))⟩
  · rintro ⟨hsum, hroom⟩
    have harith : ∀ a ∈ [Arith.sum w.writeSize r.tail, .sum r.head r.bufferSize], a.Exact := by
      simp only [List.forall_mem_cons, List.not_mem_nil, false_implies, implies_true, and_true]
      exact ⟨hsum, hroom⟩
    unfold writeLoop
    simp only [UInt64.lt_iff_toNat_lt, toNat_sum hsum, toNat_sum hroom]
    split
    · exact h.safe harith
    next hfits =>
      have hsafe := writeCopy_safe (w := w) h hN (by omega) (by omega)
      refine ⟨fun a ha => ?_, hsafe.copies, hsafe.window⟩
      exact (List.mem_append.mp ha).elim (harith a) (hsafe.arith a)

theorem writeBuffer_safe_iff (h : Window r) (hN : 0 < r.bufferSize.toNat) (w : Write) :
    (r.writeBuffer w).Safe ↔ (r.isActive → w.writeSize ≤ sizeMax - r.tail →
      r.head.toNat + r.bufferSize.toNat < 2 ^ 64) := by
  have hmax : sizeMax.toNat = 2 ^ 64 - 1 := rfl
  have htail := r.tail.toNat_lt
  have hrest : (sizeMax - r.tail).toNat = sizeMax.toNat - r.tail.toNat := toNat_diff (by omega)
  have harith : ∀ a ∈ [Arith.diff sizeMax r.tail], a.Exact := by
    simp only [List.forall_mem_singleton, Arith.Exact]
    omega
  unfold writeBuffer
  split
  next hoff => exact iff_of_true (h.safe nofun) fun hactive => absurd hactive hoff
  next hon =>
    rw [not_not] at hon
    simp only [hon, forall_const, UInt64.lt_iff_toNat_lt, UInt64.le_iff_toNat_le]
    split
    next hover => exact iff_of_true (h.safe harith) fun hle => absurd hle (by omega)
    next hfits =>
      have hle : w.writeSize.toNat ≤ (sizeMax - r.tail).toNat := by omega
      have hsum : w.writeSize.toNat + r.tail.toNat < 2 ^ 64 := by omega
      have hloop := writeLoop_safe_iff h hN w
      simp only [hsum, true_and] at hloop
      simp only [hle, forall_const, ← hloop]
      constructor
      · exact fun hsafe => ⟨fun a ha => hsafe.arith a (List.mem_append_right _ ha), hsafe.copies,
          hsafe.window⟩
      · refine fun hsafe => ⟨fun a ha => ?_, hsafe.copies, hsafe.window⟩
        exact (List.mem_append.mp ha).elim (harith a) (hsafe.arith a)

theorem resumeWrite_safe_iff (h : Window r) (hN : 0 < r.bufferSize.toNat) (w : Write) :
    (r.resumeWrite w).Safe ↔ (r.isActive → w.writeSize.toNat + r.tail.toNat < 2 ^ 64 ∧
      r.head.toNat + r.bufferSize.toNat < 2 ^ 64) := by
  unfold resumeWrite
  split
  next hoff => exact iff_of_true (h.safe nofun) fun hactive => absurd hactive hoff
  next hon =>
    rw [not_not] at hon
    simp only [hon, forall_const, writeLoop_safe_iff h hN w]

theorem seek_safe (h : Window r) (offset : UInt64) : (r.seek offset).Safe := by
  have hhead := h.head_le
  have htail := h.tail_le
  have hlt := r.tail.toNat_lt
  have hsize := h.getSize_eq
  have hfree := toNat_diff h.getSize_le
  unfold seek
  simp only [UInt64.le_iff_toNat_le, UInt64.lt_iff_toNat_lt]
  split
  next hforward =>
    have hdelta := toNat_diff hforward
    split
    next hin =>
      have hnext : (r.head + (offset - r.mediaOffset)).toNat =
          r.head.toNat + (offset - r.mediaOffset).toNat := toNat_sum (by omega)
      refine ⟨?_, nofun, ⟨?_, ?_⟩⟩
      · simp only [List.forall_mem_cons, List.cons_append, List.nil_append, Arith.Exact,
          List.not_mem_nil, false_implies, implies_true, and_true]
        omega
      · simp only [hnext]
        omega
      · simp only [hnext]
        omega
    next hout =>
      refine h.safe ?_
      simp only [List.forall_mem_cons, Arith.Exact, List.not_mem_nil, false_implies, implies_true,
        and_true]
      omega
  next hback =>
    have hbase : ∀ a ∈ [Arith.diff r.mediaOffset offset, .diff r.tail r.head,
        .diff r.bufferSize r.getSize], a.Exact := by
      simp only [List.forall_mem_cons, Arith.Exact, List.not_mem_nil, false_implies, implies_true,
        and_true]
      omega
    split
    next hnear =>
      have hmin : r.minPosition.toNat = r.tail.toNat - r.bufferSize.toNat := by
        unfold minPosition
        simp only [UInt64.lt_iff_toNat_lt]
        split
        · exact toNat_diff (by omega)
        · rw [UInt64.toNat_zero]
          omega
      have hinterval : (r.mediaOffset - offset).toNat = r.mediaOffset.toNat - offset.toNat :=
        toNat_diff (by omega)
      have hmax : (r.head - r.minPosition).toNat = r.head.toNat - r.minPosition.toNat :=
        toNat_diff (by omega)
      have htwo : ∀ a ∈ [Arith.diff r.head r.minPosition, .diff r.mediaOffset offset],
          a.Exact := by
        simp only [List.forall_mem_cons, Arith.Exact, List.not_mem_nil, false_implies,
          implies_true, and_true]
        omega
      have harith : ∀ a ∈ (if r.bufferSize < r.tail then [Arith.diff r.tail r.bufferSize] else []) ++
          [.diff r.head r.minPosition, .diff r.mediaOffset offset], a.Exact := by
        intro a ha
        rcases List.mem_append.mp ha with ha | ha
        · split at ha
          next hwrap =>
            rw [List.mem_singleton.mp ha]
            exact (UInt64.lt_iff_toNat_lt.mp hwrap).le
          · cases ha
        · exact htwo a ha
      have hsafe : (r.seekBackward offset).Safe := by
        unfold seekBackward
        simp only [UInt64.le_iff_toNat_le]
        split
        next hin =>
          have hnext : (r.head - (r.mediaOffset - offset)).toNat =
              r.head.toNat - (r.mediaOffset - offset).toNat := toNat_diff (by omega)
          refine ⟨fun a ha => ?_, nofun, ⟨?_, ?_⟩⟩
          · refine (List.mem_append.mp ha).elim (harith a) fun ha => ?_
            rw [List.mem_singleton.mp ha, Arith.Exact]
            omega
          · simp only [hnext]
            omega
          · simp only [hnext]
            omega
        next hout => exact h.safe harith
      refine ⟨fun a ha => ?_, hsafe.copies, hsafe.window⟩
      exact (List.mem_append.mp ha).elim (hbase a) (hsafe.arith a)
    next hfar => exact h.safe hbase

theorem setHead_safe_iff (h : Window r) (newHead : UInt64) :
    (r.setHead newHead).Safe ↔ (r.head ≤ newHead → newHead ≤ r.tail →
      r.mediaOffset.toNat + (newHead - r.head).toNat < 2 ^ 64) := by
  have htail := h.tail_le
  unfold setHead
  split
  next hin =>
    simp only [hin.1, hin.2, forall_const]
    constructor
    · exact fun hsafe => hsafe.arith (.sum r.mediaOffset (newHead - r.head)) (by simp)
    · intro hsum
      simp only [UInt64.le_iff_toNat_le] at hin
      refine ⟨?_, nofun, ⟨hin.2, ?_⟩⟩
      · simp only [List.forall_mem_cons, Arith.Exact, List.not_mem_nil, false_implies, implies_true,
          and_true]
        exact ⟨hin.1, hsum⟩
      · simp only
        omega
  next hout => exact iff_of_true (h.safe nofun) fun hge hle => absurd ⟨hge, hle⟩ hout

theorem setTail_window_iff (h : Window r) (newTail : UInt64) :
    Window (r.setTail newTail) ↔
      (newTail < r.head ∨ newTail.toNat ≤ r.head.toNat + r.bufferSize.toNat) := by
  unfold setTail
  split
  next hge =>
    simp only [UInt64.le_iff_toNat_le] at hge
    simp only [UInt64.lt_iff_toNat_lt]
    constructor
    · exact fun hw => .inr hw.tail_le
    · exact fun hle => ⟨hge, hle.resolve_left (by omega)⟩
  next hlt =>
    simp only [UInt64.le_iff_toNat_le] at hlt
    exact iff_of_true h (.inl (UInt64.lt_iff_toNat_lt.mpr (by omega)))

/-! ### The size of the buffer -/

theorem readBuffer_bufferSize (ptr : Bool) (readSize : UInt64) (waitTimes : Int32) :
    (r.readBuffer ptr readSize waitTimes).ring.bufferSize = r.bufferSize := by
  have hcopy : ∀ n, (r.readCopy n).ring.bufferSize = r.bufferSize := fun n => by
    unfold readCopy
    simp only
    split <;> rfl
  unfold readBuffer
  simp only
  split
  · rfl
  · split
    · rfl
    · split
      · rfl
      · exact hcopy _

theorem writeLoop_bufferSize (w : Write) : (r.writeLoop w).ring.bufferSize = r.bufferSize := by
  have hcopy : (r.writeCopy w).ring.bufferSize = r.bufferSize := by
    unfold writeCopy
    split
    · rfl
    · simp only
      split <;> rfl
  unfold writeLoop
  simp only
  split
  · rfl
  · exact hcopy

theorem writeBuffer_bufferSize (w : Write) : (r.writeBuffer w).ring.bufferSize = r.bufferSize := by
  unfold writeBuffer
  simp only
  split
  · rfl
  · split
    · rfl
    · exact writeLoop_bufferSize w

theorem resumeWrite_bufferSize (w : Write) : (r.resumeWrite w).ring.bufferSize = r.bufferSize := by
  unfold resumeWrite
  split
  · rfl
  · exact writeLoop_bufferSize w

theorem seek_bufferSize (offset : UInt64) : (r.seek offset).ring.bufferSize = r.bufferSize := by
  have hback : (r.seekBackward offset).ring.bufferSize = r.bufferSize := by
    unfold seekBackward
    simp only
    split <;> rfl
  unfold seek
  simp only
  split
  · split <;> rfl
  · split
    · exact hback
    · rfl

theorem setHead_bufferSize (newHead : UInt64) :
    (r.setHead newHead).ring.bufferSize = r.bufferSize := by
  unfold setHead
  split <;> rfl

theorem setTail_bufferSize (newTail : UInt64) : (r.setTail newTail).bufferSize = r.bufferSize := by
  unfold setTail
  split <;> rfl

theorem setActive_cases (active cleanData : Bool) :
    r.setActive active cleanData = { r with isActive := active } ∨
      (active = false ∧ cleanData = true ∧
        r.setActive active cleanData = { r with isActive := active, head := 0, tail := 0 }) := by
  unfold setActive
  simp only
  split
  next h => exact .inr ⟨Bool.eq_false_iff.mpr h.1, h.2, rfl⟩
  · exact .inl rfl

theorem perform_bufferSize (action : Action) :
    (r.perform action).ring.bufferSize = r.bufferSize := by
  cases action with
  | readBuffer ptr readSize waitTimes => exact readBuffer_bufferSize ptr readSize waitTimes
  | setActive active cleanData =>
    rcases setActive_cases (r := r) active cleanData with h | ⟨-, -, h⟩
    · rw [perform, h]
    · rw [perform, h]
  | setTail newTail => exact setTail_bufferSize newTail
  | seek offset => exact seek_bufferSize offset
  | setHead newHead => exact setHead_bufferSize newHead
  | _ => rfl

theorem window_zero (h : r.head = 0) (h' : r.tail = 0) : Window r := by
  refine ⟨?_, ?_⟩
  · rw [h, h']
  · rw [h', UInt64.toNat_zero]
    exact Nat.zero_le _

end RingBuffer

open RingBuffer

/-! ## The window over runs -/

/-- The call leaves the window in place and computes without wrapping: `SetTail`
does not go past the room, and the sums that no check covers stay below `2^64`. -/
def KeepsWindow (s : System) (l : Label) : Prop :=
  match s.writers l.thread, l.action with
  | some w, .resumeWrite =>
    s.ring.isActive → w.writeSize.toNat + s.ring.tail.toNat < 2 ^ 64 ∧
      s.ring.head.toNat + s.ring.bufferSize.toNat < 2 ^ 64
  | none, .writeBuffer w =>
    s.ring.isActive → w.writeSize ≤ sizeMax - s.ring.tail →
      s.ring.head.toNat + s.ring.bufferSize.toNat < 2 ^ 64
  | none, .readBuffer ptr readSize _ =>
    s.ring.isActive → s.ring.isReadBlockingAllowed → ptr →
      s.ring.mediaOffset.toNat + (s.ring.readable readSize).toNat < 2 ^ 64
  | none, .setTail newTail =>
    newTail < s.ring.head ∨ newTail.toNat ≤ s.ring.head.toNat + s.ring.bufferSize.toNat
  | none, .setHead newHead =>
    s.ring.head ≤ newHead → newHead ≤ s.ring.tail →
      s.ring.mediaOffset.toNat + (newHead - s.ring.head).toNat < 2 ^ 64
  | _, _ => True

theorem exec_ring {s t : System} {l : Label} {o : Outcome} (hs : exec s l = some (t, o)) :
    t.ring = o.ring ∧ o.ring.bufferSize = s.ring.bufferSize := by
  unfold exec at hs
  split at hs
  · obtain ⟨rfl, rfl⟩ := Prod.mk.inj (Option.some.inj hs)
    exact ⟨rfl, resumeWrite_bufferSize _⟩
  · cases hs
  · cases hs
  · obtain ⟨rfl, rfl⟩ := Prod.mk.inj (Option.some.inj hs)
    exact ⟨rfl, writeBuffer_bufferSize _⟩
  · obtain ⟨rfl, rfl⟩ := Prod.mk.inj (Option.some.inj hs)
    exact ⟨rfl, perform_bufferSize _⟩

/-- **Which steps are safe**, in any state with a window. -/
theorem step_safe_iff {s t : System} {l : Label} {o : Outcome} (h : s.ring.Window)
    (hN : 0 < s.ring.bufferSize.toNat) (hs : exec s l = some (t, o)) :
    o.Safe ↔ KeepsWindow s l := by
  unfold exec at hs
  unfold KeepsWindow
  split at hs
  next w hw ha =>
    obtain ⟨rfl, rfl⟩ := Prod.mk.inj (Option.some.inj hs)
    rw [hw, ha]
    exact resumeWrite_safe_iff h hN w
  · cases hs
  · cases hs
  next w hw ha =>
    obtain ⟨rfl, rfl⟩ := Prod.mk.inj (Option.some.inj hs)
    rw [hw, ha]
    exact writeBuffer_safe_iff h hN w
  next action hw hresume hwrite =>
    obtain ⟨rfl, rfl⟩ := Prod.mk.inj (Option.some.inj hs)
    rw [hw]
    have hsame : ∀ {r : RingBuffer} {reply arith}, r.Window → (∀ a ∈ arith, a.Exact) →
        (Outcome.Safe { ring := r, reply, arith } ↔ True) :=
      fun hr harith => iff_of_true (hr.safe harith) trivial
    cases haction : l.action with
    | readBuffer ptr readSize waitTimes => exact readBuffer_safe_iff h hN ptr readSize waitTimes
    | writeBuffer w => exact absurd haction (hwrite w)
    | resumeWrite => exact absurd haction hresume
    | setActive active cleanData =>
      refine hsame ?_ nofun
      rcases setActive_cases (r := s.ring) active cleanData with heq | ⟨-, -, heq⟩
      · rw [heq]
        exact ⟨h.head_le, h.tail_le⟩
      · rw [heq]
        exact window_zero rfl rfl
    | setReadBlocking allowed | setMediaOffset offset => exact hsame ⟨h.head_le, h.tail_le⟩ nofun
    | clear => exact hsame (window_zero rfl rfl) nofun
    | setTail newTail =>
      refine Iff.trans ?_ (setTail_window_iff h newTail)
      exact ⟨fun hsafe => hsafe.window, fun hwindow => hwindow.safe nofun⟩
    | seek offset => exact iff_of_true (seek_safe h offset) trivial
    | setHead newHead => exact setHead_safe_iff h newHead
    | getSize =>
      refine hsame h ?_
      simp only [List.forall_mem_singleton]
      exact h.head_le
    | getFreeSize =>
      refine hsame h ?_
      simp only [List.forall_mem_cons, List.not_mem_nil, false_implies, implies_true, and_true]
      exact ⟨h.head_le, h.getSize_le⟩

/-- **The window invariant.** In every state of a run whose calls leave the
window in place, `head ≤ tail ≤ head + bufferSize`, the reported sizes are the
true ones, and the next call is safe exactly when it leaves the window in place. -/
theorem window_invariant {bufferSize : UInt64} (hN : 0 < bufferSize) {ls : List Label} {s : System}
    (hgood : Runs.Along step KeepsWindow (.init bufferSize) ls)
    (hrun : Runs.run step (.init bufferSize) ls = some s) :
    s.ring.bufferSize = bufferSize ∧ s.ring.Window ∧
      s.ring.getSize.toNat ≤ bufferSize.toNat ∧
      s.ring.getFreeSize.toNat = bufferSize.toNat - s.ring.getSize.toNat ∧
      ∀ l t o, exec s l = some (t, o) → (o.Safe ↔ KeepsWindow s l) := by
  have hN : 0 < bufferSize.toNat := UInt64.lt_iff_toNat_lt.mp hN
  obtain ⟨hsize, h⟩ : s.ring.bufferSize = bufferSize ∧ s.ring.Window := by
    refine Runs.run_invariant (I := fun s : System => s.ring.bufferSize = bufferSize ∧
      s.ring.Window) ?_ ⟨rfl, window_zero rfl rfl⟩ hgood hrun
    rintro s l t ⟨hsize, h⟩ hk hs
    obtain ⟨⟨t, o⟩, hexec, rfl⟩ := Option.map_eq_some_iff.mp hs
    obtain ⟨hring, hsame⟩ := exec_ring hexec
    have hsafe := (step_safe_iff h (hsize ▸ hN) hexec).mpr hk
    exact ⟨by rw [hring, hsame, hsize], by rw [hring]; exact hsafe.window⟩
  refine ⟨hsize, h, hsize ▸ h.getSize_le, ?_, fun l t o => step_safe_iff h (hsize ▸ hN)⟩
  rw [h.getFreeSize_eq, hsize]

def call (action : Action) : Label := ⟨0, action⟩

def writeThreeReadTwo : List Label :=
  [call (.writeBuffer ⟨some fun i => .ofNat (i + 1), 3⟩), call (.readBuffer true 2 0)]

theorem window_invariant_writeThreeReadTwo :
    ∃ s, Runs.run step (.init 4) writeThreeReadTwo = some s ∧
      s.ring.bufferSize = 4 ∧ s.ring.Window ∧ s.ring.getSize.toNat ≤ (4 : UInt64).toNat ∧
      s.ring.getFreeSize.toNat = (4 : UInt64).toNat - s.ring.getSize.toNat ∧
      ∀ l t o, exec s l = some (t, o) → (o.Safe ↔ KeepsWindow s l) :=
  ⟨_, rfl, @window_invariant 4 (by decide) writeThreeReadTwo _
    (.cons (fun _ _ => by decide) rfl (.cons (fun _ _ _ => by decide) rfl trivial)) rfl⟩

/-- `SetTail` past the room: the sizes are wrong, and a read goes past the buffer. -/
theorem setTail_leaves_window :
    ∃ s, Runs.run step (.init 4) [call (.setTail 10)] = some s ∧ ¬ s.ring.Window ∧
      s.ring.getFreeSize.toNat = 2 ^ 64 - 6 ∧
      ∃ t o, exec s (call (.readBuffer true 10 0)) = some (t, o) ∧
        ∃ c ∈ o.copies, ¬ c.Inside 4 :=
  ⟨_, rfl, fun h => absurd h.tail_le (by decide), by decide, _, _, rfl, ⟨0, 6⟩,
    .tail _ (.head _), by rw [Copy.Inside]; decide⟩

end MediaFoundation.Osal
