import MediaFoundation.Demux.LivePlay

/-!
# What IsDataAvailable promises

`IsDataAvailable` tests the offset against `size_` and the range against the
sizes of the buffers. While `size_` counts the queue the two tests agree: the
answer says whether the range is cached, and where the next data has to start.
-/

namespace MediaFoundation.Demux

open DataPacker Segments Words

-- The promise

section Promise

variable (p q : DataPacker) (offset : UInt64) (size : UInt32)

/-- The offset is in the cached data, or at its end. -/
def Inside : Prop :=
  p.mediaOffset.toNat ≤ offset.toNat ∧ offset.toNat ≤ p.mediaOffset.toNat + p.size.toNat

def Cached : Prop :=
  p.que ≠ [] ∧ p.mediaOffset.toNat ≤ offset.toNat ∧
    offset.toNat + size.toNat ≤ p.mediaOffset.toNat + p.size.toNat

def SameCache : Prop := q.que = p.que ∧ q.mediaOffset = p.mediaOffset ∧ q.size = p.size

def EndsAt (cur : UInt64) : Prop := cur.toNat = p.mediaOffset.toNat + p.size.toNat

/-- `IsDataAvailable` finds exactly the cached ranges. Otherwise it keeps the cache and reports
its end, or drops it and reports the offset, and data pushed from there joins the cache. -/
def AvailabilityExact : Prop :=
  ∃ q result cur, p.isDataAvailable offset size = (q, .available result cur) ∧
    (result = true ↔ Cached p offset size) ∧
    (result = false → Inside p offset →
      SameCache p q ∧ (p.que ≠ [] → q = p) ∧ ∃ c, cur = some c ∧ EndsAt p c) ∧
    (¬ Inside p offset → result = false ∧ q.que = [] ∧ q.size = 0 ∧ cur = some offset) ∧
    (result = false → ∃ c, cur = some c ∧ (q.que ≠ [] → EndsAt q c))

end Promise

-- The answer

section Answer

variable {p : DataPacker} {offset : UInt64} {size : UInt32}

theorem availableLoop_iff {offsetEnd prev : UInt64} {bs : List Buffer}
    (hfit : prev.toNat + total (bs.map Buffer.segment) < 2 ^ 64) :
    ((availableLoop offsetEnd prev bs).1 = true ↔
        offsetEnd.toNat ≤ prev.toNat + total (bs.map Buffer.segment)) ∧
      ((availableLoop offsetEnd prev bs).1 = false →
        ∃ c, (availableLoop offsetEnd prev bs).2 = some c ∧
          c.toNat = prev.toNat + total (bs.map Buffer.segment)) := by
  have htrue := @availableLoop_true prev bs offsetEnd hfit
  rcases availableLoop_spec offsetEnd prev bs hfit with h | ⟨c, h, hc, hlt⟩
  · rw [h] at htrue ⊢
    exact ⟨⟨fun _ => htrue rfl, fun _ => rfl⟩, fun hfalse => Bool.noConfusion hfalse⟩
  · rw [h]
    refine ⟨⟨fun hfalse => Bool.noConfusion hfalse, fun hle => ?_⟩, fun _ => ⟨c, rfl, hc⟩⟩
    rw [UInt64.lt_iff_toNat_lt] at hlt
    omega

theorem AvailabilityExact.of_hit {result : Bool} {cur : Option UInt64} (hne : p.que ≠ [])
    (hin : Inside p offset) (h : p.isDataAvailable offset size = (p, .available result cur))
    (hresult : result = true ↔
      offset.toNat + size.toNat ≤ p.mediaOffset.toNat + p.size.toNat)
    (hcur : result = false → ∃ c, cur = some c ∧ EndsAt p c) :
    AvailabilityExact p offset size := by
  refine ⟨p, result, cur, h, ?_, fun hfalse _ => ⟨⟨rfl, rfl, rfl⟩, fun _ => rfl, hcur hfalse⟩,
    fun hout => absurd hin hout, fun hfalse => ?_⟩
  · exact ⟨fun hr => ⟨hne, hin.1, hresult.mp hr⟩, fun hc => hresult.mpr hc.2.2⟩
  · obtain ⟨c, hc, hends⟩ := hcur hfalse
    exact ⟨c, hc, fun _ => hends⟩

/-- **The answer in one state.** -/
theorem Counts.answer_exact (h : Counts p) (hempty : p.que = [] → p.mediaOffset = 0)
    (hend : offset.toNat + size.toNat < 2 ^ 64) : AvailabilityExact p offset size := by
  have hfit := h.end_lt
  have hsize := h.size_eq
  have hsum : (offset + size.toUInt64).toNat = offset.toNat + size.toNat := by
    rw [toNat_sum (by rwa [UInt32.toNat_toUInt64]), UInt32.toNat_toUInt64]
  have hcached : (p.mediaOffset + p.size.toUInt64).toNat =
      p.mediaOffset.toNat + p.size.toNat := by
    rw [toNat_sum (by rw [UInt32.toNat_toUInt64]; omega), UInt32.toNat_toUInt64]
  cases hque : p.que with
  | nil =>
    have hzero : p.size.toNat = 0 := by
      rw [hsize, DataPacker.segments, hque]
      rfl
    have hstart : p.mediaOffset.toNat = 0 := by
      rw [hempty hque]
      rfl
    refine ⟨{}, false, some offset, ?_, ?_, fun _ hin => ⟨⟨hque.symm, (hempty hque).symm, ?_⟩,
      fun hne => absurd hque hne, offset, rfl, ?_⟩, fun _ => ⟨rfl, rfl, rfl, rfl⟩,
      fun _ => ⟨offset, rfl, fun hne => absurd rfl hne⟩⟩
    · unfold DataPacker.isDataAvailable
      rw [hque]
      rfl
    · exact ⟨fun hfalse => Bool.noConfusion hfalse, fun hc => absurd hque hc.1⟩
    · exact (UInt32.toNat_inj.mp hzero).symm
    · have hle := hin.2
      show offset.toNat = _
      omega
  | cons front rest =>
    have hne : p.que ≠ [] := hque ▸ List.cons_ne_nil _ _
    have htotal := Packs.total_eq hque
    have hfront : (p.mediaOffset + getBufferSize front).toNat =
        p.mediaOffset.toNat + front.memory.size.toNat :=
      toNat_sum (by show _ + front.memory.size.toNat < _; omega)
    by_cases hin : Inside p offset
    · have hhit : ¬ (offset < p.mediaOffset ∨ p.mediaOffset + p.size.toUInt64 < offset) := by
        rw [not_or, UInt64.not_lt, UInt64.not_lt, UInt64.le_iff_toNat_le, UInt64.le_iff_toNat_le,
          hcached]
        exact hin
      cases rest with
      | nil =>
        rw [List.map_nil, total] at htotal
        have hanswer : p.isDataAvailable offset size = (p, .available
            (decide (offset + size.toUInt64 ≤ p.mediaOffset + getBufferSize front))
            (some (p.mediaOffset + getBufferSize front))) := by
          unfold DataPacker.isDataAvailable
          simp only [hque, if_neg hhit]
          rfl
        refine .of_hit hne hin hanswer ?_ fun _ => ⟨_, rfl, ?_⟩
        · rw [decide_eq_true_iff, UInt64.le_iff_toNat_le, hsum, hfront]
          omega
        · show (p.mediaOffset + getBufferSize front).toNat = _
          omega
      | cons next rest =>
        obtain ⟨hiff, hcur⟩ := @availableLoop_iff (offset + size.toUInt64)
          (p.mediaOffset + getBufferSize front) (next :: rest) (by omega)
        have hanswer : p.isDataAvailable offset size = (p, .available
            (availableLoop (offset + size.toUInt64) (p.mediaOffset + getBufferSize front)
              (next :: rest)).1
            (availableLoop (offset + size.toUInt64) (p.mediaOffset + getBufferSize front)
              (next :: rest)).2) := by
          unfold DataPacker.isDataAvailable
          simp only [hque, if_neg hhit]
          rfl
        refine .of_hit hne hin hanswer (hiff.trans ?_) fun hfalse => ?_
        · rw [hsum, hfront]
          omega
        · obtain ⟨c, hc, hends⟩ := hcur hfalse
          exact ⟨c, hc, by show c.toNat = _; omega⟩
    · have hmiss : offset < p.mediaOffset ∨ p.mediaOffset + p.size.toUInt64 < offset := by
        rw [UInt64.lt_iff_toNat_lt, UInt64.lt_iff_toNat_lt, hcached]
        unfold Inside at hin
        omega
      refine ⟨{}, false, some offset, ?_, ?_, fun _ hin' => absurd hin' hin,
        fun _ => ⟨rfl, rfl, rfl, rfl⟩, fun _ => ⟨offset, rfl, fun hne => absurd rfl hne⟩⟩
      · unfold DataPacker.isDataAvailable
        simp only [hque, if_pos hmiss]
        rfl
      · refine ⟨fun hfalse => Bool.noConfusion hfalse, fun hc => ?_⟩
        have hlo := hc.2.1
        have hhi := hc.2.2
        unfold Inside at hin
        omega

end Answer

-- The packer over runs

/-- An empty cache starts at 0. -/
def Settled (p : DataPacker) : Prop := p.que = [] → p.mediaOffset = 0

namespace Settled

variable {p p' : DataPacker}

theorem removeOldData (position : Position) : Settled (p.removeOldData position) := by
  unfold Settled DataPacker.removeOldData
  simp only
  split
  · exact fun _ => rfl
  next front rest hque => exact fun hnil => absurd (hque.symm.trans hnil) (List.cons_ne_nil _ _)

theorem pushData (h : Settled p) (b : Buffer) (offset : UInt64) :
    Settled (p.pushData b offset).1 := by
  unfold DataPacker.pushData
  split
  · exact h
  split
  · exact h
  · intro hnil
    exact absurd hnil (List.append_ne_nil_of_right_ne_nil _ (List.cons_ne_nil _ _))

theorem isDataAvailable (h : Settled p) (offset : UInt64) (size : UInt32) :
    Settled (p.isDataAvailable offset size).1 := by
  unfold DataPacker.isDataAvailable
  simp only
  split
  · exact fun _ => rfl
  split
  · exact fun _ => rfl
  split
  · exact h
  · exact h

theorem getRange (h : Settled p) (offset : UInt64) (size : UInt32) (out : Buffer) :
    Settled (p.getRange offset size out).1 := by
  unfold DataPacker.getRange
  split
  · exact h
  split
  · exact h
  simp only
  split
  · exact h
  split
  · exact fun _ => rfl
  split
  · exact removeOldData _
  · exact h

theorem step (h : Settled p) {c : LiveCall} (hs : liveStep p c = some p') : Settled p' := by
  cases c with
  | liveGetRange size out =>
    obtain ⟨⟨q, r⟩, hr, rfl⟩ := Option.map_eq_some_iff.mp hs
    rcases liveGetRange_cases hr with rfl | ⟨position, rfl⟩
    · exact h
    · exact removeOldData position
  | call c =>
    cases hs
    cases c with
    | pushData b offset => exact h.pushData b offset
    | isDataAvailable offset size => exact h.isDataAvailable offset size
    | peekRange offset size out =>
      show Settled (p.peekRange offset size out).1
      unfold DataPacker.peekRange
      split
      · exact h
      · exact h
    | getRange offset size out => exact h.getRange offset size out
    | flush => exact fun _ => rfl
    | setEos => exact h

end Settled

/-- **IsDataAvailable is exact.** After every run whose pushes leave the cached
data below 4 GiB and its end below the last media offset, it finds exactly the
cached ranges, and what it reports otherwise keeps the cache contiguous. -/
theorem availability_exact {calls : List LiveCall} {p : DataPacker} {offset : UInt64}
    {size : UInt32} (hgood : Runs.Along liveStep KeepsCount {} calls)
    (hrun : Runs.run liveStep {} calls = some p)
    (hend : offset.toNat + size.toNat < 2 ^ 64) : AvailabilityExact p offset size := by
  have hstart : Counts {} ∧ Settled {} := ⟨.empty rfl rfl, fun _ => rfl⟩
  obtain ⟨hc, hempty⟩ := Runs.run_invariant (I := fun p => Counts p ∧ Settled p)
    (fun _ _ _ h hk hs => ⟨h.1.step hk hs, h.2.step hs⟩) hstart hgood hrun
  exact hc.answer_exact hempty hend

/-- Three bytes at 10, in two buffers, of which a live read takes one. -/
def pushAndRead : List LiveCall :=
  [.call (.pushData (bufferFrom 1 2) 10), .call (.pushData (bufferFrom 3 1) 12),
    .liveGetRange 1 (bufferFrom 0 4)]

theorem availability_exact_pushAndRead :
    ∃ p, Runs.run liveStep {} pushAndRead = some p ∧ p.mediaOffset = 11 ∧
      AvailabilityExact p 11 2 :=
  ⟨_, rfl, by decide, @availability_exact pushAndRead _ 11 2
    (.cons (fun _ => ⟨by decide, by decide⟩) rfl
      (.cons (fun _ => ⟨by decide, by decide⟩) rfl (.cons trivial rfl trivial)))
    rfl (by decide)⟩

def pushFourGiB : List LiveCall :=
  [.call (.pushData (bufferFrom 0 (2 ^ 31)) 0), .call (.pushData (bufferFrom 0 (2 ^ 31)) (2 ^ 31))]

/-- `size_` wraps to 0, and a byte that is cached lies outside the range that it gives. -/
theorem available_past_size :
    ∃ p cur, Runs.run liveStep {} pushFourGiB = some p ∧ p.size = 0 ∧
      p.isDataAvailable 0 1 = (p, .available true cur) ∧ ¬ AvailabilityExact p 0 1 := by
  refine ⟨_, _, rfl, by decide, rfl, ?_⟩
  rintro ⟨q, result, cur, h, hiff, -⟩
  have hresult : result = true := by
    injection h with _ h
    injection h with h _
    exact h.symm
  exact absurd (hiff.mp hresult).2.2 (by decide)

end MediaFoundation.Demux
