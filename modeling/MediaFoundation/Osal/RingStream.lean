import MediaFoundation.Osal.RingWindow

/-!
# The stream behind RingBuffer

What `WriteBuffer` was given is kept beside a run as a `Stream`: the byte last
written at each position since the positions were last reset, and `high`, the
end of what was written. The buffer holds the last `bufferSize` positions below
`high`, whatever `SetTail` and `Seek` do to the window.

Two calls look at the window only, and not at `high`:

* `SetTail` moves the tail forward over positions that nobody has written;
* `Seek` goes back up to `bufferSize` before the tail, also when `SetTail` has
  moved the tail back and the slots there belong to later positions.

`delivers_stream` excludes both, and a waiting `WriteBuffer` whose size check
no longer holds when it goes on.
-/

namespace MediaFoundation.Osal

open RingBuffer Words

/-! ## The stream -/

structure Stream where
  written : Nat → Option UInt8 := fun _ => none
  high : Nat := 0

def Action.resets : Action → Bool
  | .clear | .setActive false true => true
  | _ => false

/-- The bytes that the step writes when it ends with success. -/
def pendingWrite (s : System) (l : Label) : Option Write :=
  match s.writers l.thread, l.action with
  | some w, .resumeWrite => some w
  | none, .writeBuffer w => some w
  | _, _ => none

def Stream.write (g : Stream) (tail : UInt64) (w : Write) : Stream :=
  match w.ptr with
  | none => g
  | some ptr =>
    { written := Ring.overwrite g.written tail.toNat w.writeSize.toNat ptr
      high := max g.high (tail.toNat + w.writeSize.toNat) }

def Stream.record (g : Stream) (s : System) (l : Label) (_ : System) : Stream :=
  match exec s l, pendingWrite s l with
  | some (_, o), some w => if o.reply = .bool true then g.write s.ring.tail w else g
  | some _, none => if l.action.resets then {} else g
  | none, _ => g

def stepWithStream : System × Stream → Label → Option (System × Stream) :=
  Runs.withGhost step Stream.record

/-! ## The condition -/

/-- `SetTail` exposes no unwritten position, a `Seek` that goes back goes back
to a position that is still in the buffer, and a waiting `WriteBuffer` goes on
with a size that does not overflow. -/
def KeepsStream (x : System × Stream) (l : Label) : Prop :=
  let r := x.1.ring
  match x.1.writers l.thread, l.action with
  | some w, .resumeWrite => r.isActive → w.writeSize.toNat + r.tail.toNat < 2 ^ 64
  | none, .setTail newTail => newTail < r.head ∨ newTail.toNat ≤ x.2.high
  | none, .seek offset =>
    offset < r.mediaOffset → r.mediaOffset - offset ≤ r.bufferSize - r.getSize →
      r.mediaOffset - offset ≤ r.head - r.minPosition →
      x.2.high + (r.mediaOffset - offset).toNat ≤ r.head.toNat + r.bufferSize.toNat
  | _, _ => True

/-! ## The invariant -/

/-- **The buffer holds the stream**, for the `bufferSize` positions below `high`. -/
structure Served (r : RingBuffer) (g : Stream) : Prop where
  head_le : r.head.toNat ≤ r.tail.toNat
  tail_le : r.tail.toNat ≤ g.high
  high_le : g.high ≤ r.head.toNat + r.bufferSize.toNat
  holds : Ring.Holds r.bufferSize.toNat r.buffer g.written (g.high - r.bufferSize.toNat) g.high

namespace Served

variable {r r' : RingBuffer} {g : Stream}

theorem window (h : Served r g) : Window r := ⟨h.head_le, h.tail_le.trans h.high_le⟩

theorem zero (hhead : r.head = 0) (htail : r.tail = 0) : Served r {} where
  head_le := by rw [hhead, htail]
  tail_le := by rw [htail]; exact Nat.le_refl _
  high_le := Nat.zero_le _
  holds := fun p _ hp => absurd hp (Nat.not_lt_zero p)

theorem move (h : Served r g) (hsize : r'.bufferSize = r.bufferSize) (hbuf : r'.buffer = r.buffer)
    (hhead : r'.head.toNat ≤ r'.tail.toNat) (htail : r'.tail.toNat ≤ g.high)
    (hhigh : g.high ≤ r'.head.toNat + r.bufferSize.toNat) : Served r' g :=
  ⟨hhead, htail, by rw [hsize]; exact hhigh, by rw [hsize, hbuf]; exact h.holds⟩

/-! ### Reading -/

/-- The arithmetic of a copy that starts at `counter` and may go on at the start of the buffer. -/
theorem copy_index {size counter n : UInt64} (hN : 0 < size.toNat)
    (hn : counter.toNat + n.toNat < 2 ^ 64) :
    (counter % size + n).toNat = counter.toNat % size.toNat + n.toNat ∧
      (size - counter % size).toNat = size.toNat - counter.toNat % size.toNat ∧
      (size.toNat ≤ counter.toNat % size.toNat + n.toNat →
        (n - (size - counter % size)).toNat =
          n.toNat - (size.toNat - counter.toNat % size.toNat)) := by
  have hindex : (counter % size).toNat = counter.toNat % size.toNat := UInt64.toNat_mod ..
  have hmod := Nat.mod_lt counter.toNat hN
  have hle := Nat.mod_le counter.toNat size.toNat
  have hroom : (size - counter % size).toNat = size.toNat - counter.toNat % size.toNat := by
    rw [toNat_diff (by omega), hindex]
  refine ⟨?_, hroom, fun hwrap => ?_⟩
  · rw [toNat_sum (by omega), hindex]
  · rw [toNat_diff (by omega), hroom]

theorem readCopy_bytes (h : Served r g) (hN : 0 < r.bufferSize.toNat) {n : UInt64}
    (hn : n.toNat ≤ r.tail.toNat - r.head.toNat) :
    (r.readCopy n).bytes =
      Ring.ringLoad r.bufferSize.toNat r.buffer (r.head.toNat % r.bufferSize.toNat) n.toNat := by
  have hhead := h.head_le
  have hlt := r.tail.toNat_lt
  have hindex : (r.head % r.bufferSize).toNat = r.head.toNat % r.bufferSize.toNat :=
    UInt64.toNat_mod ..
  obtain ⟨hsum, hroom, hrest⟩ := @copy_index _ r.head n hN (by omega)
  unfold readCopy Ring.ringLoad
  simp only [UInt64.lt_iff_toNat_lt, hsum, hindex]
  split
  · rfl
  next hfit => simp only [hroom, hrest (Nat.le_of_not_lt hfit)]

structure Delivers (r : RingBuffer) (g : Stream) (o : Outcome) : Prop where
  bytes : ∀ i b, o.bytes[i]? = some b →
    r.head.toNat + i < r.tail.toNat ∧ g.written (r.head.toNat + i) = some b
  size : ∀ n, o.reply = .size n → o.bytes.length = n.toNat

theorem readCopy_delivers (h : Served r g) (hN : 0 < r.bufferSize.toNat) {n : UInt64}
    (hn : n.toNat ≤ r.tail.toNat - r.head.toNat) : Delivers r g (r.readCopy n) := by
  have hhead := h.head_le
  have hwindow := h.window.tail_le
  have htail := h.tail_le
  have hhigh := h.high_le
  have hlo : g.high - r.bufferSize.toNat ≤ r.head.toNat := by omega
  have hhi : r.head.toNat + n.toNat ≤ g.high := by omega
  have hload := h.holds.load hN hlo hhi (by omega)
  rw [← h.readCopy_bytes hN hn] at hload
  have hlength : (r.readCopy n).bytes.length = n.toNat := by
    have := congrArg List.length hload
    rwa [List.length_map, List.length_map, List.length_range] at this
  refine ⟨fun i b hb => ?_, fun m hm => ?_⟩
  · have hi : i < n.toNat := hlength ▸ (List.getElem?_eq_some_iff.mp hb).1
    have hget := congrArg (·[i]?) hload
    simp only [List.getElem?_map, hb, Option.map_some, List.getElem?_range hi] at hget
    exact ⟨by omega, (Option.some.inj hget).symm⟩
  · have hreply : (r.readCopy n).reply = .size n := by
      unfold readCopy
      simp only
      split <;> rfl
    rw [hlength]
    rw [hreply] at hm
    rw [Reply.size.inj hm]

theorem readBuffer_delivers (h : Served r g) (hN : 0 < r.bufferSize.toNat) (ptr : Bool)
    (readSize : UInt64) (waitTimes : Int32) :
    Delivers r g (r.readBuffer ptr readSize waitTimes) := by
  have hnone : ∀ {arith}, Delivers r g { ring := r, reply := .size 0, arith } := fun {_} =>
    ⟨nofun, fun n hn => by rw [← Reply.size.inj hn]; rfl⟩
  unfold readBuffer
  simp only
  split
  · exact hnone
  · split
    · exact ⟨nofun, nofun⟩
    · split
      · exact hnone
      · have hn : (r.readable readSize).toNat ≤ r.tail.toNat - r.head.toNat := by
          rw [h.window.readable_eq]
          omega
        have hread := h.readCopy_delivers hN hn
        exact ⟨hread.bytes, hread.size⟩

/-! ### Writing -/

theorem writeCopy_ring (hN : 0 < r.bufferSize.toNat) {ptr : Nat → UInt8}
    {n : UInt64} (hsum : r.tail.toNat + n.toNat < 2 ^ 64) :
    (r.writeCopy ⟨some ptr, n⟩).ring =
      { r with
        buffer := Ring.ringStore r.bufferSize.toNat r.buffer
          (r.tail.toNat % r.bufferSize.toNat) n.toNat ptr
        tail := r.tail + n } := by
  have hindex : (r.tail % r.bufferSize).toNat = r.tail.toNat % r.bufferSize.toNat :=
    UInt64.toNat_mod ..
  obtain ⟨hend, hroom, hrest⟩ := @copy_index _ r.tail n hN hsum
  unfold writeCopy Ring.ringStore
  simp only [UInt64.lt_iff_toNat_lt, hend, hindex]
  split
  · rfl
  next hfit => simp only [hroom, hrest (Nat.le_of_not_lt hfit)]

theorem write (h : Served r g) (hN : 0 < r.bufferSize.toNat) {w : Write}
    (hsum : r.tail.toNat + w.writeSize.toNat < 2 ^ 64)
    (hfits : r.tail.toNat + w.writeSize.toNat ≤ r.head.toNat + r.bufferSize.toNat) :
    Served (r.writeCopy w).ring (g.write r.tail w) := by
  have hhead := h.head_le
  have htail := h.tail_le
  have hhigh := h.high_le
  obtain ⟨_ | ptr, n⟩ := w
  · exact h
  · have hnext : (r.tail + n).toNat = r.tail.toNat + n.toNat := toNat_sum hsum
    rw [writeCopy_ring hN hsum]
    simp only at hfits
    have hlo : g.high - r.bufferSize.toNat ≤
      max g.high (r.tail.toNat + n.toNat) - r.bufferSize.toNat := by omega
    have hpos : max g.high (r.tail.toNat + n.toNat) - r.bufferSize.toNat ≤ r.tail.toNat := by
      omega
    have hend : max g.high (r.tail.toNat + n.toNat) ≤
        max g.high (r.tail.toNat + n.toNat) - r.bufferSize.toNat + r.bufferSize.toNat := by omega
    refine ⟨?_, ?_, ?_, h.holds.write hN hlo hpos htail hend⟩
    · simp only [hnext]
      omega
    · simp only [hnext, Stream.write]
      omega
    · simp only [Stream.write]
      omega

theorem writeLoop (h : Served r g) (hN : 0 < r.bufferSize.toNat) {w : Write}
    (hsum : w.writeSize.toNat + r.tail.toNat < 2 ^ 64) :
    Served (r.writeLoop w).ring
      (if (r.writeLoop w).reply = .bool true then g.write r.tail w else g) := by
  have hhead := h.head_le
  have hbuf := r.bufferSize.toNat_lt
  unfold RingBuffer.writeLoop
  simp only [UInt64.lt_iff_toNat_lt, toNat_sum hsum]
  split
  · exact h
  next hroom =>
    -- a sum `head + bufferSize` that wraps is below the head, so below the tail
    rw [UInt64.toNat_add] at hroom
    have hwrite := h.write (w := w) hN (by omega) (by omega)
    obtain ⟨_ | ptr, n⟩ := w
    · exact h
    · have hreply : (r.writeCopy ⟨some ptr, n⟩).reply = .bool true := by
        unfold writeCopy
        simp only
        split <;> rfl
      rw [if_pos hreply]
      exact hwrite

theorem writeBuffer (h : Served r g) (hN : 0 < r.bufferSize.toNat) (w : Write) :
    Served (r.writeBuffer w).ring
      (if (r.writeBuffer w).reply = .bool true then g.write r.tail w else g) := by
  have hmax : sizeMax.toNat = 2 ^ 64 - 1 := rfl
  have htail := r.tail.toNat_lt
  have hrest : (sizeMax - r.tail).toNat = sizeMax.toNat - r.tail.toNat := toNat_diff (by omega)
  unfold RingBuffer.writeBuffer
  simp only [UInt64.lt_iff_toNat_lt]
  split
  · exact h
  · split
    · exact h
    · exact h.writeLoop hN (by omega)

theorem resumeWrite (h : Served r g) (hN : 0 < r.bufferSize.toNat) {w : Write}
    (hsum : r.isActive → w.writeSize.toNat + r.tail.toNat < 2 ^ 64) :
    Served (r.resumeWrite w).ring
      (if (r.resumeWrite w).reply = .bool true then g.write r.tail w else g) := by
  unfold RingBuffer.resumeWrite
  split
  · exact h
  next hon => exact h.writeLoop hN (hsum (by simpa using hon))

/-! ### Moving the window -/

theorem readBuffer (h : Served r g) (ptr : Bool) (readSize : UInt64) (waitTimes : Int32) :
    Served (r.readBuffer ptr readSize waitTimes).ring g := by
  have hhead := h.head_le
  have htail := h.tail_le
  have hhigh := h.high_le
  have hlt := r.tail.toNat_lt
  unfold RingBuffer.readBuffer
  simp only
  split
  · exact h
  · split
    · exact h
    · split
      · exact h
      · have hn := h.window.readable_eq readSize
        have hnext : (r.head + r.readable readSize).toNat =
            r.head.toNat + (r.readable readSize).toNat := toNat_sum (by omega)
        unfold readCopy
        simp only
        split
        · exact h.move rfl rfl (by simp only [hnext]; omega) htail (by simp only [hnext]; omega)
        · exact h.move rfl rfl (by simp only [hnext]; omega) htail (by simp only [hnext]; omega)

theorem setTail (h : Served r g) {newTail : UInt64}
    (hk : newTail < r.head ∨ newTail.toNat ≤ g.high) : Served (r.setTail newTail) g := by
  unfold RingBuffer.setTail
  simp only [UInt64.le_iff_toNat_le]
  rw [UInt64.lt_iff_toNat_lt] at hk
  split
  next hge => exact h.move rfl rfl hge (hk.resolve_left (by omega)) h.high_le
  next hlt => exact h

theorem setHead (h : Served r g) (newHead : UInt64) : Served (r.setHead newHead).ring g := by
  have hhigh := h.high_le
  unfold RingBuffer.setHead
  simp only [UInt64.le_iff_toNat_le]
  split
  next hin => exact h.move rfl rfl hin.2 h.tail_le (by simp only; omega)
  next hout => exact h

theorem seek (h : Served r g) {offset : UInt64}
    (hk : offset < r.mediaOffset → r.mediaOffset - offset ≤ r.bufferSize - r.getSize →
      r.mediaOffset - offset ≤ r.head - r.minPosition →
      g.high + (r.mediaOffset - offset).toNat ≤ r.head.toNat + r.bufferSize.toNat) :
    Served (r.seek offset).ring g := by
  have hhead := h.head_le
  have htail := h.tail_le
  have hhigh := h.high_le
  have hlt := r.tail.toNat_lt
  have hsize := h.window.getSize_eq
  unfold RingBuffer.seek
  simp only
  split
  next hforward =>
    split
    next hin =>
      rw [UInt64.lt_iff_toNat_lt] at hin
      have hnext : (r.head + (offset - r.mediaOffset)).toNat =
          r.head.toNat + (offset - r.mediaOffset).toNat := toNat_sum (by omega)
      exact h.move rfl rfl (by simp only [hnext]; omega) htail (by simp only [hnext]; omega)
    next hout => exact h
  next hback =>
    split
    next hnear =>
      unfold seekBackward
      simp only
      split
      next hin =>
        have hkeep := hk (UInt64.not_le.mp hback) hnear hin
        have hmin : r.minPosition.toNat ≤ r.head.toNat := by
          have hwindow := h.window.tail_le
          unfold minPosition
          split
          next hwrap =>
            rw [toNat_diff (UInt64.lt_iff_toNat_lt.mp hwrap).le]
            omega
          · rw [UInt64.toNat_zero]
            omega
        rw [UInt64.le_iff_toNat_le, toNat_diff hmin] at hin
        have hnext : (r.head - (r.mediaOffset - offset)).toNat =
            r.head.toNat - (r.mediaOffset - offset).toNat := toNat_diff (by omega)
        exact h.move rfl rfl (by simp only [hnext]; omega) htail (by simp only [hnext]; omega)
      next hout => exact h
    next hfar => exact h

end Served

/-! ## The stream over runs -/

theorem served_step {s t : System} {g : Stream} {l : Label} (h : Served s.ring g)
    (hN : 0 < s.ring.bufferSize.toNat) (hk : KeepsStream (s, g) l) (hs : step s l = some t) :
    Served t.ring (g.record s l t) := by
  obtain ⟨⟨t, o⟩, hexec, rfl⟩ := Option.map_eq_some_iff.mp hs
  unfold Stream.record
  rw [hexec]
  unfold KeepsStream at hk
  unfold pendingWrite
  unfold exec at hexec
  simp only
  split at hexec
  next w hw ha =>
    obtain ⟨rfl, rfl⟩ := Prod.mk.inj (Option.some.inj hexec)
    rw [hw, ha] at hk ⊢
    exact h.resumeWrite hN hk
  · cases hexec
  · cases hexec
  next w hw ha =>
    obtain ⟨rfl, rfl⟩ := Prod.mk.inj (Option.some.inj hexec)
    rw [hw, ha]
    exact h.writeBuffer hN w
  next action hw hresume hwrite =>
    obtain ⟨rfl, rfl⟩ := Prod.mk.inj (Option.some.inj hexec)
    rw [hw] at hk ⊢
    cases haction : l.action with
    | readBuffer ptr readSize waitTimes => exact h.readBuffer ptr readSize waitTimes
    | writeBuffer w => exact absurd haction (hwrite w)
    | resumeWrite => exact absurd haction hresume
    | setActive active cleanData =>
      cases active <;> cases cleanData
      · exact h.move rfl rfl h.head_le h.tail_le h.high_le
      · exact .zero rfl rfl
      · exact h.move rfl rfl h.head_le h.tail_le h.high_le
      · exact h.move rfl rfl h.head_le h.tail_le h.high_le
    | setReadBlocking allowed => exact h.move rfl rfl h.head_le h.tail_le h.high_le
    | setMediaOffset offset => exact h.move rfl rfl h.head_le h.tail_le h.high_le
    | clear => exact .zero rfl rfl
    | setTail newTail => rw [haction] at hk; exact h.setTail hk
    | seek offset => rw [haction] at hk; exact h.seek hk
    | setHead newHead => exact h.setHead newHead
    | getSize | getFreeSize => exact h

/-- **RingBuffer delivers the stream.** In every state of a run whose `SetTail`
and `Seek` calls keep to what is written and still held, each byte that a
`ReadBuffer` returns is the byte last written at its position. -/
theorem delivers_stream {bufferSize : UInt64} (hN : 0 < bufferSize) {ls : List Label}
    {s : System} {g : Stream}
    (hgood : Runs.Along stepWithStream KeepsStream (.init bufferSize, {}) ls)
    (hrun : Runs.run stepWithStream (.init bufferSize, {}) ls = some (s, g)) :
    ∀ ptr readSize waitTimes,
      Served.Delivers s.ring g (s.ring.readBuffer ptr readSize waitTimes) := by
  have hN : 0 < bufferSize.toNat := UInt64.lt_iff_toNat_lt.mp hN
  obtain ⟨hsize, h⟩ : s.ring.bufferSize = bufferSize ∧ Served s.ring g := by
    refine Runs.run_invariant (I := fun x : System × Stream => x.1.ring.bufferSize = bufferSize ∧
      Served x.1.ring x.2) ?_ ⟨rfl, .zero rfl rfl⟩ hgood hrun
    rintro ⟨s, g⟩ l ⟨t, g'⟩ ⟨hsize, h⟩ hk hs
    obtain ⟨hs, hg⟩ := Runs.withGhost_some.mp hs
    have hserved := served_step h (hsize ▸ hN) hk hs
    obtain ⟨⟨u, o⟩, hexec, rfl⟩ := Option.map_eq_some_iff.mp hs
    obtain ⟨hring, hsame⟩ := exec_ring hexec
    exact ⟨by rw [hring, hsame, hsize], hg ▸ hserved⟩
  intro ptr readSize waitTimes
  exact h.readBuffer_delivers (hsize ▸ hN) ptr readSize waitTimes

def writeFour (first : Nat) : Label := call (.writeBuffer ⟨some fun i => .ofNat (first + i), 4⟩)

/-- The tail moves back by one, and the head back to a byte that is read again. -/
def readAgain : List Label :=
  [writeFour 1, call (.readBuffer true 2 0), call (.setTail 3), call (.seek 1)]

theorem delivers_stream_readAgain :
    ∃ s g, Runs.run stepWithStream (.init 4, {}) readAgain = some (s, g) ∧
      ∀ ptr readSize waitTimes,
        Served.Delivers s.ring g (s.ring.readBuffer ptr readSize waitTimes) :=
  ⟨_, _, rfl, @delivers_stream 4 (by decide) readAgain _ _
    (.cons trivial rfl (.cons trivial rfl (.cons (.inr (by decide)) rfl
      (.cons (fun _ _ _ => by decide) rfl trivial)))) rfl⟩

/-- `SetTail` back to 5 and `Seek` back to 1, where position 5 has taken the slot. -/
def seekToOverwritten : List Label :=
  [writeFour 1, call (.readBuffer true 4 0), writeFour 5, call (.setTail 5), call (.seek 1)]

/-- The read at position 1 returns 6, and not the 2 that was written there. -/
theorem seek_exposes_overwritten :
    ∃ s g, Runs.run stepWithStream (.init 4, {}) seekToOverwritten = some (s, g) ∧
      s.ring.head = 1 ∧ (s.ring.readBuffer true 1 0).bytes = [6] ∧ g.written 1 = some 2 :=
  ⟨_, _, rfl, by decide, by decide, by decide⟩

end MediaFoundation.Osal
