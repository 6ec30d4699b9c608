import MediaFoundation.Codec.AudioEncoderFilter
import MediaFoundation.Lib.Words

/-!
# Repacking a stream into frames

`PushData` writes a whole buffer into the ring before it reads a frame, so a
buffer that does not fit beside what is left over waits for room that nobody
makes. The plug-in takes frames of one size only, so the frame that remains at
the end of the stream is refused, unless it happens to have that size.
-/

namespace MediaFoundation.AudioEncoder

open Words

-- The ring

structure Holding (r : RingBuffer) (bytes : List UInt8) : Prop where
  active : r.isActive = true
  length_le : bytes.length ≤ r.bufferSize.toNat
  tail_eq : r.tail.toNat = r.head.toNat + bytes.length
  holds : Ring.Holds r.bufferSize.toNat r.buffer (fun p => bytes[p - r.head.toNat]?)
    r.head.toNat r.tail.toNat

section Rings

variable {r : RingBuffer} {bytes more : List UInt8}

theorem Holding.getSize_eq (h : Holding r bytes) : r.getSize.toNat = bytes.length := by
  have htail := h.tail_eq
  rw [RingBuffer.getSize, toNat_diff (by omega)]
  omega

theorem length_toUInt64 {n : Nat} (h : n < 2 ^ 64) : n.toUInt64.toNat = n := by
  show (UInt64.ofNat n).toNat = n
  rw [UInt64.toNat_ofNat', Nat.mod_eq_of_lt h]

theorem Holding.write (h : Holding r bytes) (hN : 0 < r.bufferSize.toNat)
    (hfit : r.tail.toNat + more.length + r.bufferSize.toNat < 2 ^ 64)
    (hroom : bytes.length + more.length ≤ r.bufferSize.toNat) :
    ∃ q, r.writeBuffer more = some (q, true) ∧ Holding q (bytes ++ more) ∧
      q.bufferSize = r.bufferSize ∧ q.tail.toNat = r.tail.toNat + more.length := by
  have htail := h.tail_eq
  have hsize : more.length.toUInt64.toNat = more.length := length_toUInt64 (by omega)
  have hcap : (r.head + r.bufferSize).toNat = r.head.toNat + r.bufferSize.toNat :=
    toNat_sum (by omega)
  have hneed : (more.length.toUInt64 + r.tail).toNat = more.length + r.tail.toNat := by
    rw [toNat_sum (by omega), hsize]
  have hnew : (r.tail + more.length.toUInt64).toNat = r.tail.toNat + more.length := by
    rw [toNat_sum (by omega), hsize]
  have hgo : ¬ r.head + r.bufferSize < more.length.toUInt64 + r.tail := by
    rw [UInt64.lt_iff_toNat_lt, hcap, hneed]
    omega
  unfold RingBuffer.writeBuffer
  simp only [h.active, not_true_eq_false, if_false, if_neg hgo]
  refine ⟨_, rfl, ⟨rfl, ?_, ?_, ?_⟩, rfl, hnew⟩
  · rw [List.length_append]
    exact hroom
  · show (r.tail + more.length.toUInt64).toNat = r.head.toNat + (bytes ++ more).length
    rw [List.length_append, hnew]
    omega
  · have hwrite := @Ring.Holds.write _ _ _ (fun i => more.getD i 0) _ _ _ _ r.tail.toNat
      more.length h.holds hN (Nat.le_refl _) (by omega) (Nat.le_refl _) (by omega)
    show Ring.Holds r.bufferSize.toNat (Ring.ringStore r.bufferSize.toNat r.buffer
      (r.tail % r.bufferSize).toNat more.length.toUInt64.toNat _) _ r.head.toNat
      (r.tail + more.length.toUInt64).toNat
    rw [hsize, hnew, UInt64.toNat_mod]
    rw [Nat.max_eq_right (by omega)] at hwrite
    intro p hp hp'
    rw [← hwrite p hp hp', Ring.overwrite]
    show (bytes ++ more)[p - r.head.toNat]? = _
    split
    next hin =>
      rw [List.getElem?_append_right (by omega), List.getD_eq_getElem?_getD]
      have hlt : p - r.tail.toNat < more.length := by omega
      rw [List.getElem?_eq_getElem hlt, Option.getD_some, ← List.getElem?_eq_getElem hlt]
      congr 1
      omega
    next hout => rw [List.getElem?_append_left (by omega)]

theorem Holding.write_waits (h : Holding r bytes)
    (hfit : r.tail.toNat + more.length + r.bufferSize.toNat < 2 ^ 64)
    (hroom : r.bufferSize.toNat < bytes.length + more.length) : r.writeBuffer more = none := by
  have htail := h.tail_eq
  have hsize : more.length.toUInt64.toNat = more.length := length_toUInt64 (by omega)
  have hwaits : r.head + r.bufferSize < more.length.toUInt64 + r.tail := by
    rw [UInt64.lt_iff_toNat_lt, toNat_sum (by omega), toNat_sum (by omega), hsize]
    omega
  unfold RingBuffer.writeBuffer
  simp only [h.active, not_true_eq_false, if_false, if_pos hwaits]

theorem Holding.read (h : Holding r (bytes ++ more)) (hN : 0 < r.bufferSize.toNat) {n : UInt64}
    (hn : n.toNat = bytes.length) :
    ∃ q, r.readBuffer n = (q, bytes) ∧ Holding q more ∧ q.bufferSize = r.bufferSize ∧
      q.tail = r.tail := by
  have htail := h.tail_eq
  have hlength := h.length_le
  rw [List.length_append] at htail hlength
  have hall : (r.tail - r.head).toNat = bytes.length + more.length := by
    rw [toNat_diff (by omega)]
    omega
  have havailable : (if n < r.tail - r.head then n else r.tail - r.head).toNat = bytes.length := by
    split
    next => exact hn
    next hge =>
      rw [UInt64.lt_iff_toNat_lt, hall] at hge
      omega
  have hhead : (r.head + if n < r.tail - r.head then n else r.tail - r.head).toNat =
      r.head.toNat + bytes.length := by
    have hlt := r.tail.toNat_lt
    rw [toNat_sum (by omega), havailable]
  have hload := @Ring.Holds.load _ _ _ _ _ _ r.head.toNat bytes.length h.holds hN
    (Nat.le_refl _) (by omega) (by omega)
  have hbytes : Ring.ringLoad r.bufferSize.toNat r.buffer (r.head.toNat % r.bufferSize.toNat)
      bytes.length = bytes := by
    refine List.map_injective_iff.mpr (Option.some_injective _) (hload.trans ?_)
    refine List.ext_getElem? fun i => ?_
    rw [List.getElem?_map, List.getElem?_map]
    by_cases hi : i < bytes.length
    · rw [List.getElem?_range hi, Option.map_some, Nat.add_sub_cancel_left,
        List.getElem?_append_left hi, List.getElem?_eq_getElem hi, Option.map_some]
    · rw [List.getElem?_eq_none (by rw [List.length_range]; omega),
        List.getElem?_eq_none (Nat.not_lt.mp hi), Option.map_none, Option.map_none]
  unfold RingBuffer.readBuffer
  simp only [h.active, not_true_eq_false, if_false]
  rw [UInt64.toNat_mod, havailable, hbytes]
  refine ⟨_, rfl, ⟨rfl, ?_, ?_, ?_⟩, rfl, rfl⟩
  · show more.length ≤ r.bufferSize.toNat
    omega
  · show r.tail.toNat = _
    rw [hhead]
    omega
  · intro p hp hp'
    rw [hhead] at hp
    have hsame := h.holds p (by omega) hp'
    rw [← hsame, hhead]
    show more[_]? = (bytes ++ more)[p - r.head.toNat]?
    rw [List.getElem?_append_right (by omega)]
    congr 1
    omega

end Rings

-- The encoder

/-- What is documented of the encoding library, on the states in which the end has not been asked
for: it gives its packets when it is asked for them, and refuses a frame only while it has some.
No packet is larger than a frame. -/
structure Encoder.Documented {ε : Type} (E : Encoder ε) (isOpen : ε → Prop) (frameSize : UInt64) :
    Prop where
  receive_some : ∀ e, 0 < E.output e → ∃ size, (E.receive e).2 = .packet size ∧
    size ≤ frameSize ∧ E.output (E.receive e).1 + 1 = E.output e
  receive_none : ∀ e, E.output e = 0 → (∀ size, (E.receive e).2 ≠ .packet size) ∧
    E.output (E.receive e).1 = 0
  receive_open : ∀ e, isOpen e → isOpen (E.receive e).1
  send_cases : ∀ e frame, isOpen e → (E.send e frame).2 = .ok ∨
    ((E.send e frame).2 = .again ∧ 0 < E.output e ∧ isOpen (E.send e frame).1)
  send_open : ∀ e bytes, isOpen e → isOpen (E.send e (some bytes)).1

section Frames

variable {ε : Type} {E : Encoder ε} {isOpen : ε → Prop} {f g : AudioEncoderFilter ε} {b : Buffer}

structure SameStream (f g : AudioEncoderFilter ε) : Prop where
  frameSize : g.frameSize = f.frameSize
  rb : g.rb = f.rb
  offered : g.offered = f.offered
  size : g.plugin.fullInputFrameSize = f.plugin.fullInputFrameSize
  accepted : g.plugin.accepted = f.plugin.accepted

theorem SameStream.trans {h : AudioEncoderFilter ε} (hf : SameStream f g) (hg : SameStream g h) :
    SameStream f h :=
  ⟨hg.frameSize.trans hf.frameSize, hg.rb.trans hf.rb, hg.offered.trans hf.offered,
    hg.size.trans hf.size, hg.accepted.trans hf.accepted⟩

theorem finishFrame_spec (hE : E.Documented isOpen f.frameSize) :
    SameStream f (f.finishFrame E).1 ∧
      (isOpen f.plugin.context → isOpen (f.finishFrame E).1.plugin.context) ∧
      ((f.finishFrame E).2 = .success ↔ 0 < E.output f.plugin.context) ∧
      E.output (f.finishFrame E).1.plugin.context = E.output f.plugin.context - 1 := by
  have hopen := hE.receive_open f.plugin.context
  unfold AudioEncoderFilter.finishFrame Plugin.queueOutputBuffer
  by_cases hsome : 0 < E.output f.plugin.context
  · obtain ⟨size, hpacket, hfits, hleft⟩ := hE.receive_some f.plugin.context hsome
    generalize E.receive f.plugin.context = r at *
    obtain ⟨context, result⟩ := r
    cases hpacket
    simp only [if_pos hfits, translatePluginStatus]
    have hleft : E.output context + 1 = E.output f.plugin.context := hleft
    exact ⟨⟨rfl, rfl, rfl, rfl, rfl⟩, hopen, ⟨fun _ => hsome, fun _ => trivial⟩, by omega⟩
  · obtain ⟨hnone, hleft⟩ := hE.receive_none f.plugin.context (by omega)
    generalize E.receive f.plugin.context = r at *
    obtain ⟨context, result⟩ := r
    have hzero : E.output context = E.output f.plugin.context - 1 := by
      simp only at hleft
      omega
    cases result with
    | packet size => exact absurd rfl (hnone size)
    | eof | again | error => exact ⟨⟨rfl, rfl, rfl, rfl, rfl⟩, hopen,
        ⟨fun h => ErrorCode.noConfusion h, fun h => absurd h hsome⟩, hzero⟩

/-- The loop around it takes all packets. -/
theorem finishFrames_spec {fuel : Nat} (hE : E.Documented isOpen f.frameSize)
    (hfuel : E.output f.plugin.context < fuel) :
    SameStream f (f.finishFrames E fuel) ∧
      (isOpen f.plugin.context → isOpen (f.finishFrames E fuel).plugin.context) ∧
      E.output (f.finishFrames E fuel).plugin.context = 0 := by
  induction fuel generalizing f with
  | zero => exact absurd hfuel (Nat.not_lt_zero _)
  | succ fuel ih =>
    obtain ⟨hsame, hopen, hsuccess, hleft⟩ := finishFrame_spec hE
    unfold AudioEncoderFilter.finishFrames
    generalize f.finishFrame E = r at *
    obtain ⟨g, result⟩ := r
    by_cases hmore : 0 < E.output f.plugin.context
    · have hresult : result = .success := hsuccess.mpr hmore
      subst hresult
      have hleft : E.output g.plugin.context = E.output f.plugin.context - 1 := hleft
      obtain ⟨hsame', hopen', hzero⟩ := @ih g (hsame.frameSize ▸ hE) (by omega)
      exact ⟨hsame.trans hsame', fun h => hopen' (hopen h), hzero⟩
    · have hzero : E.output g.plugin.context = 0 := by
        have hleft : E.output g.plugin.context = E.output f.plugin.context - 1 := hleft
        omega
      cases result with
      | success => exact absurd (hsuccess.mp rfl) hmore
      | _ => exact ⟨hsame, hopen, hzero⟩

/-- The plug-in takes frames of its size, and the end of the stream. -/
def accepts (size : UInt32) (b : Buffer) : Bool :=
  b.eos || decide (b.payload.length = size.toNat)

def AudioEncoderFilter.noting (f : AudioEncoderFilter ε) (b : Buffer) : AudioEncoderFilter ε :=
  { f with plugin := { f.plugin with
    accepted := f.plugin.accepted ++ [b].filter (accepts f.plugin.fullInputFrameSize) } }

theorem handleFrame_spec (hE : E.Documented isOpen f.frameSize) (ho : isOpen f.plugin.context)
    (b : Buffer) :
    (accepts f.plugin.fullInputFrameSize b = false ∧
        f.handleFrame E b = (f, .errorUnknown)) ∨
      (accepts f.plugin.fullInputFrameSize b = true ∧ ∃ context,
        f.handleFrame E b = ({ f with plugin :=
          { f.plugin with context, accepted := f.plugin.accepted ++ [b] } }, .success) ∧
        (b.eos = false → isOpen context)) ∨
      (accepts f.plugin.fullInputFrameSize b = true ∧ 0 < E.output f.plugin.context ∧ ∃ context,
        f.handleFrame E b = ({ f with plugin := { f.plugin with context } }, .errorAgain) ∧
        isOpen context) := by
  have hsends := hE.send_cases f.plugin.context (if b.eos then none else some b.payload) ho
  have hopen : b.eos = false →
      isOpen (E.send f.plugin.context (if b.eos then none else some b.payload)).1 := fun heos => by
    rw [heos]
    exact hE.send_open _ _ ho
  unfold AudioEncoderFilter.handleFrame Plugin.sendBuffer
  by_cases hsize : b.eos = false ∧ b.payload.length ≠ f.plugin.fullInputFrameSize.toNat
  · refine .inl ⟨?_, ?_⟩
    · rw [accepts, hsize.1, Bool.false_or, decide_eq_false hsize.2]
    · rw [if_pos hsize]
      rfl
  · have haccepts : accepts f.plugin.fullInputFrameSize b = true := by
      rw [accepts, Bool.or_eq_true, decide_eq_true_iff]
      by_cases heos : b.eos = true
      · exact .inl heos
      · exact .inr (by
          by_contra hne
          exact hsize ⟨Bool.not_eq_true _ ▸ heos, hne⟩)
    rw [if_neg hsize]
    generalize E.send f.plugin.context (if b.eos then none else some b.payload) = r at *
    obtain ⟨context, result⟩ := r
    rcases hsends with hok | ⟨hagain, hsome, hstill⟩
    · cases hok
      exact .inr (.inl ⟨haccepts, context, rfl, hopen⟩)
    · cases hagain
      exact .inr (.inr ⟨haccepts, hsome, context, rfl, hstill⟩)

theorem attempt_settled (hE : E.Documented isOpen f.frameSize) (ho : isOpen f.plugin.context)
    (hsettled : (f.handleFrame E b).2 ≠ .errorAgain) (tries : Nat) :
    SameStream (f.noting b) (f.attempt E b (tries + 1)) ∧
      (b.eos = false → isOpen (f.attempt E b (tries + 1)).plugin.context) := by
  rcases handleFrame_spec hE ho b with ⟨hno, h⟩ | ⟨hyes, context, h, hopen⟩ | ⟨-, -, context, h, -⟩
  · obtain ⟨hsame, hstill, -⟩ := finishFrames_spec hE (Nat.lt_succ_self (E.output f.plugin.context))
    have hnoted : SameStream (f.noting b) f := by
      refine ⟨rfl, rfl, rfl, rfl, ?_⟩
      simp only [AudioEncoderFilter.noting, List.filter_cons, hno, List.filter_nil,
        List.append_nil, Bool.false_eq_true, if_false]
    unfold AudioEncoderFilter.attempt
    rw [h]
    exact ⟨hnoted.trans hsame, fun _ => hstill ho⟩
  · have hnoted : SameStream (f.noting b) { f with plugin :=
        { f.plugin with context, accepted := f.plugin.accepted ++ [b] } } := by
      refine ⟨rfl, rfl, rfl, rfl, ?_⟩
      simp only [AudioEncoderFilter.noting, List.filter_cons, hyes, List.filter_nil, if_true]
    obtain ⟨hsame, hstill, -⟩ := @finishFrames_spec _ E isOpen { f with plugin :=
      { f.plugin with context, accepted := f.plugin.accepted ++ [b] } } _ hE
      (Nat.lt_succ_self (E.output context))
    unfold AudioEncoderFilter.attempt
    rw [h]
    exact ⟨hnoted.trans hsame, fun heos => hstill (hopen heos)⟩
  · exact absurd (congrArg Prod.snd h) hsettled

theorem SameStream.noting (h : SameStream f g) : SameStream (f.noting b) (g.noting b) := by
  refine ⟨h.frameSize, h.rb, h.offered, h.size, ?_⟩
  simp only [AudioEncoderFilter.noting, h.accepted, h.size]

/-- **Two attempts suffice**: before the second one all packets were taken. -/
theorem attempt_spec (hE : E.Documented isOpen f.frameSize) (ho : isOpen f.plugin.context)
    (b : Buffer) (tries : Nat) :
    SameStream (f.noting b) (f.attempt E b (tries + 2)) ∧
      (b.eos = false → isOpen (f.attempt E b (tries + 2)).plugin.context) := by
  by_cases hsettled : (f.handleFrame E b).2 ≠ .errorAgain
  · exact attempt_settled hE ho hsettled (tries + 1)
  · rcases handleFrame_spec hE ho b with ⟨-, h⟩ | ⟨-, context, h, -⟩ | ⟨-, -, context, h, hopen⟩
    · exact absurd ((congrArg Prod.snd h).trans_ne ErrorCode.noConfusion) hsettled
    · exact absurd ((congrArg Prod.snd h).trans_ne ErrorCode.noConfusion) hsettled
    · obtain ⟨hsame, hstill, hzero⟩ := @finishFrames_spec _ E isOpen
        { f with plugin := { f.plugin with context } } _ hE (Nat.lt_succ_self (E.output context))
      unfold AudioEncoderFilter.attempt
      rw [h]
      simp only [or_true, if_true]
      generalize AudioEncoderFilter.finishFrames E
        { f with plugin := { f.plugin with context } } (E.output context + 1) = g at *
      have hE' : E.Documented isOpen g.frameSize := hsame.frameSize ▸ hE
      have hagain : (g.handleFrame E b).2 ≠ .errorAgain := by
        rcases handleFrame_spec hE' (hstill hopen) b with ⟨-, h⟩ | ⟨-, _, h, -⟩ | ⟨-, hsome, -⟩
        · exact (congrArg Prod.snd h).trans_ne ErrorCode.noConfusion
        · exact (congrArg Prod.snd h).trans_ne ErrorCode.noConfusion
        · exact absurd hzero hsome.ne'
      obtain ⟨hsame', hstill'⟩ := attempt_settled hE' (hstill hopen) hagain tries
      have hnoted : SameStream (f.noting b) (g.noting b) := by
        have hstart : SameStream f { f with plugin := { f.plugin with context } } :=
          ⟨rfl, rfl, rfl, rfl, rfl⟩
        exact (hstart.trans hsame).noting
      exact ⟨hnoted.trans hsame', hstill'⟩

-- One push

def dataBuffer (bytes : List UInt8) : Buffer := { memory := some bytes, eos := false }

def eosBuffer : Buffer := { memory := some [], eos := true }

/-- These buffers were offered, and those of them taken that the plug-in accepts. -/
structure Took (f g : AudioEncoderFilter ε) (bs : List Buffer) : Prop where
  frameSize : g.frameSize = f.frameSize
  size : g.plugin.fullInputFrameSize = f.plugin.fullInputFrameSize
  offered : g.offered = f.offered ++ bs
  accepted : g.plugin.accepted =
    f.plugin.accepted ++ bs.filter (accepts f.plugin.fullInputFrameSize)

theorem Took.nil : Took f f [] := ⟨rfl, rfl, (List.append_nil _).symm, (List.append_nil _).symm⟩

theorem Took.trans {h : AudioEncoderFilter ε} {bs cs : List Buffer} (hf : Took f g bs)
    (hg : Took g h cs) : Took f h (bs ++ cs) := by
  refine ⟨hg.frameSize.trans hf.frameSize, hg.size.trans hf.size, ?_, ?_⟩
  · rw [hg.offered, hf.offered, List.append_assoc]
  · rw [hg.accepted, hf.accepted, hf.size, List.filter_append, List.append_assoc]

theorem offer_spec (hE : E.Documented isOpen f.frameSize) (ho : isOpen f.plugin.context)
    (b : Buffer) :
    Took f (f.offer E b) [b] ∧ (f.offer E b).rb = f.rb ∧
      (b.eos = false → isOpen (f.offer E b).plugin.context) := by
  obtain ⟨hsame, hopen⟩ := @attempt_spec _ E isOpen { f with offered := f.offered ++ [b] } hE ho b 1
  exact ⟨⟨hsame.frameSize, hsame.size, hsame.offered, hsame.accepted⟩, hsame.rb, hopen⟩

/-- The filter between two steps of the loop, with what the ring holds. -/
structure Ready (E : Encoder ε) (isOpen : ε → Prop) (f : AudioEncoderFilter ε)
    (bytes : List UInt8) : Prop where
  documented : E.Documented isOpen f.frameSize
  isOpen : isOpen f.plugin.context
  holding : Holding f.rb bytes
  frameSize_pos : 0 < f.frameSize.toNat
  ring_pos : 0 < f.rb.bufferSize.toNat

/-- **One frame**: as much as there is, up to a full one. -/
theorem drain_step {front rest : List UInt8} {shouldDrainRb : Bool} (steps : Nat)
    (h : Ready E isOpen f (front ++ rest)) (hfront : 0 < front.length)
    (hmin : front.length = min (front ++ rest).length f.frameSize.toNat)
    (hgoes : f.frameSize.toNat ≤ (front ++ rest).length ∨ shouldDrainRb = true) :
    ∃ g, f.drain E shouldDrainRb (steps + 1) = g.drain E shouldDrainRb steps ∧
      Took f g [dataBuffer front] ∧ Ready E isOpen g rest ∧
      g.rb.bufferSize = f.rb.bufferSize ∧ g.rb.tail = f.rb.tail := by
  have hsize := h.holding.getSize_eq
  have hencode : (min f.rb.getSize f.frameSize).toNat = front.length := by
    rw [toNat_min, hsize, hmin]
  obtain ⟨q, hq, hholding, hbuffer, htail⟩ := h.holding.read h.ring_pos hencode
  have hgo : ¬ ¬ (f.frameSize ≤ f.rb.getSize ∨ shouldDrainRb = true) := by
    rw [not_not, UInt64.le_iff_toNat_le, hsize]
    exact hgoes
  have hsome : 0 < min f.rb.getSize f.frameSize := by
    rw [UInt64.lt_iff_toNat_lt, hencode]
    exact hfront
  obtain ⟨htook, hrb, hopen⟩ := @offer_spec _ E isOpen { f with rb := q } h.documented h.isOpen
    (dataBuffer front)
  refine ⟨_, ?_, ⟨htook.frameSize, htook.size, htook.offered, htook.accepted⟩,
    ⟨?_, hopen rfl, ?_, ?_, ?_⟩, ?_, ?_⟩
  · simp only [AudioEncoderFilter.drain, if_neg hgo, if_pos hsome, hq, hencode, ne_eq,
      not_true_eq_false, if_false]
    rfl
  · rw [htook.frameSize]
    exact h.documented
  · rw [hrb]
    exact hholding
  · rw [htook.frameSize]
    exact h.frameSize_pos
  · rw [hrb, hbuffer]
    exact h.ring_pos
  · rw [hrb, hbuffer]
  · rw [hrb, htail]

/-- **All full frames**, one after the other. -/
theorem drain_fulls {fulls : List (List UInt8)} {rest : List UInt8} {shouldDrainRb : Bool}
    (steps : Nat) (h : Ready E isOpen f (fulls.flatten ++ rest))
    (hfulls : ∀ full ∈ fulls, full.length = f.frameSize.toNat) :
    ∃ g, f.drain E shouldDrainRb (steps + fulls.length) = g.drain E shouldDrainRb steps ∧
      Took f g (fulls.map dataBuffer) ∧ Ready E isOpen g rest ∧
      g.rb.bufferSize = f.rb.bufferSize ∧ g.rb.tail = f.rb.tail := by
  induction fulls generalizing f with
  | nil => exact ⟨f, rfl, .nil, h, rfl, rfl⟩
  | cons full fulls ih =>
    have hlength := hfulls full List.mem_cons_self
    have hpos := h.frameSize_pos
    rw [List.flatten_cons, List.append_assoc] at h
    obtain ⟨g, hg, htook, hready, hbuffer, htail⟩ := @drain_step _ E isOpen f full
      (fulls.flatten ++ rest) shouldDrainRb (steps + fulls.length) h (by omega)
      (by rw [List.length_append]; omega) (.inl (by rw [List.length_append]; omega))
    obtain ⟨g', hg', htook', hready', hbuffer', htail'⟩ := ih hready fun full' hfull' => by
      rw [htook.frameSize]
      exact hfulls full' (List.mem_cons_of_mem _ hfull')
    exact ⟨g', hg.trans hg', htook.trans htook', hready', hbuffer'.trans hbuffer,
      htail'.trans htail⟩

theorem exists_fulls {n : Nat} (hn : 0 < n) (bytes : List UInt8) :
    ∃ (fulls : List (List UInt8)) (rest : List UInt8), bytes = fulls.flatten ++ rest ∧
      (∀ full ∈ fulls, full.length = n) ∧ rest.length < n := by
  induction hlength : bytes.length using Nat.strong_induction_on generalizing bytes with
  | _ length ih =>
    by_cases hless : bytes.length < n
    · exact ⟨[], bytes, rfl, fun full hfull => absurd hfull List.not_mem_nil, hless⟩
    · obtain ⟨fulls, rest, hsplit, hfulls, hrest⟩ :=
        ih (bytes.drop n).length (by rw [List.length_drop]; omega) (bytes.drop n) rfl
      refine ⟨bytes.take n :: fulls, rest, ?_, fun full hfull => ?_, hrest⟩
      · rw [List.flatten_cons, List.append_assoc, ← hsplit, List.take_append_drop]
      · rcases List.mem_cons.mp hfull with rfl | hfull
        · rw [List.length_take]
          omega
        · exact hfulls full hfull

theorem flatten_length {n : Nat} {fulls : List (List UInt8)}
    (h : ∀ full ∈ fulls, full.length = n) : fulls.flatten.length = fulls.length * n := by
  induction fulls with
  | nil => exact (Nat.zero_mul n).symm
  | cons full fulls ih =>
    rw [List.flatten_cons, List.length_append, h full List.mem_cons_self,
      ih fun full' hfull' => h full' (List.mem_cons_of_mem _ hfull'), List.length_cons, Nat.succ_mul,
      Nat.add_comm]

theorem length_fulls_le {n : Nat} {fulls : List (List UInt8)} {bytes rest : List UInt8}
    (hn : 0 < n) (hsplit : bytes = fulls.flatten ++ rest)
    (h : ∀ full ∈ fulls, full.length = n) : fulls.length ≤ bytes.length := by
  have hle := Nat.le_mul_of_pos_right fulls.length hn
  rw [hsplit, List.length_append, flatten_length h]
  omega

/-- The frame after the full ones, if there is one, and the end of the stream. -/
def lastBuffers (rest : List UInt8) : List Buffer :=
  (if rest = [] then [] else [dataBuffer rest]) ++ [eosBuffer]

/-- Without the end of the stream, the loop stops before the frame that is not full. -/
theorem drain_stops {rest : List UInt8} (steps : Nat) (h : Ready E isOpen f rest)
    (hrest : rest.length < f.frameSize.toNat) :
    f.drain E false (steps + 1) = some (f, .success) := by
  have hstop : ¬ (f.frameSize ≤ f.rb.getSize ∨ false = true) := by
    rw [UInt64.le_iff_toNat_le, h.holding.getSize_eq]
    simp only [Bool.false_eq_true, or_false]
    omega
  simp only [AudioEncoderFilter.drain, if_pos hstop]

theorem drain_eos (steps : Nat) (h : Ready E isOpen f []) :
    ∃ g, f.drain E true (steps + 1) = some (g, .success) ∧ Took f g [eosBuffer] := by
  have hsize : f.rb.getSize.toNat = 0 := h.holding.getSize_eq
  have hnone : ¬ 0 < min f.rb.getSize f.frameSize := by
    rw [UInt64.lt_iff_toNat_lt, toNat_min, hsize]
    exact Nat.not_lt.mpr (Nat.min_le_left _ _)
  obtain ⟨htook, -, -⟩ := offer_spec h.documented h.isOpen eosBuffer
  refine ⟨_, ?_, htook⟩
  simp only [AudioEncoderFilter.drain, or_true, not_true_eq_false, if_false, if_neg hnone]
  rfl

/-- **The last push** offers the rest and the end of the stream. -/
theorem drain_last {rest : List UInt8} (steps : Nat) (h : Ready E isOpen f rest)
    (hrest : rest.length < f.frameSize.toNat) :
    ∃ g, f.drain E true (steps + 2) = some (g, .success) ∧ Took f g (lastBuffers rest) := by
  unfold lastBuffers
  split
  next hnil =>
    subst hnil
    exact drain_eos (steps + 1) h
  next hsome =>
    have hpos := List.length_pos_of_ne_nil hsome
    rw [← List.append_nil rest] at h
    obtain ⟨g, hg, htook, hready, -, -⟩ := @drain_step _ E isOpen f rest [] true (steps + 1) h hpos
      (by rw [List.append_nil]; omega) (.inr rfl)
    obtain ⟨g', hg', htook'⟩ := drain_eos steps hready
    exact ⟨g', hg.trans hg', htook.trans htook'⟩

theorem write_spec {left : List UInt8} (h : Ready E isOpen f left)
    (hfit : f.rb.tail.toNat + b.payload.length + f.rb.bufferSize.toNat < 2 ^ 64)
    (hroom : left.length + b.payload.length ≤ f.rb.bufferSize.toNat) :
    ∃ q done, (if 0 < b.payload.length then f.rb.writeBuffer b.payload else some (f.rb, true)) =
        some (q, done) ∧ Ready E isOpen { f with rb := q } (left ++ b.payload) ∧
      q.bufferSize = f.rb.bufferSize ∧ q.tail.toNat = f.rb.tail.toNat + b.payload.length := by
  split
  next hsome =>
    obtain ⟨q, hq, hholding, hbuffer, htail⟩ := h.holding.write h.ring_pos hfit hroom
    exact ⟨q, true, hq, ⟨h.documented, h.isOpen, hholding, h.frameSize_pos, hbuffer ▸ h.ring_pos⟩,
      hbuffer, htail⟩
  next hnone =>
    have hnil : b.payload = [] := List.length_eq_zero_iff.mp (Nat.eq_zero_of_not_pos hnone)
    refine ⟨f.rb, true, rfl, ?_, rfl, ?_⟩
    · rw [hnil, List.append_nil]
      exact h
    · rw [hnil]
      rfl

/-- What all pushes so far have offered, and what is left over. -/
structure Packed (E : Encoder ε) (isOpen : ε → Prop) (start f : AudioEncoderFilter ε)
    (fulls : List (List UInt8)) (left : List UInt8) : Prop where
  ready : Ready E isOpen f left
  left_lt : left.length < f.frameSize.toNat
  fulls_length : ∀ full ∈ fulls, full.length = f.frameSize.toNat
  took : Took start f (fulls.map dataBuffer)

variable {start : AudioEncoderFilter ε} {fulls : List (List UInt8)} {left : List UInt8}

theorem Packed.offers (h : Packed E isOpen start f fulls left)
    (hfit : f.rb.tail.toNat + b.payload.length + f.rb.bufferSize.toNat < 2 ^ 64)
    (hroom : left.length + b.payload.length ≤ f.rb.bufferSize.toNat) :
    ∃ g fulls' left' steps, f.pushData E b = g.drain E b.eos (steps + 2) ∧
      Packed E isOpen start g (fulls ++ fulls') left' ∧
      left ++ b.payload = fulls'.flatten ++ left' ∧ g.frameSize = f.frameSize ∧
      g.rb.bufferSize = f.rb.bufferSize ∧
      g.rb.tail.toNat = f.rb.tail.toNat + b.payload.length := by
  obtain ⟨q, done, hwrite, hready, hbuffer, htail⟩ := write_spec h.ready hfit hroom
  obtain ⟨fulls', left', hsplit, hfulls, hleft⟩ :=
    exists_fulls h.ready.frameSize_pos (left ++ b.payload)
  have hsteps := length_fulls_le h.ready.frameSize_pos hsplit hfulls
  have hsize := hready.holding.getSize_eq
  rw [hsplit] at hready
  obtain ⟨g, hg, htook, hready', hbuffer', htail'⟩ := @drain_fulls _ E isOpen { f with rb := q }
    fulls' left' b.eos ((left ++ b.payload).length - fulls'.length + 2) hready hfulls
  refine ⟨g, fulls', left', (left ++ b.payload).length - fulls'.length, ?_, ⟨hready', ?_, ?_, ?_⟩,
    hsplit, htook.frameSize, hbuffer'.trans hbuffer, ?_⟩
  · unfold AudioEncoderFilter.pushData
    simp only [hwrite, Option.bind_some]
    have hall : q.getSize.toNat + 2 =
        (left ++ b.payload).length - fulls'.length + 2 + fulls'.length := by
      rw [show q.getSize.toNat = (left ++ b.payload).length from hsize]
      omega
    rw [hall]
    exact hg
  · rw [htook.frameSize]
    exact hleft
  · intro full hfull
    rw [htook.frameSize]
    rcases List.mem_append.mp hfull with hfull | hfull
    · exact h.fulls_length full hfull
    · exact hfulls full hfull
  · rw [List.map_append]
    exact h.took.trans ⟨htook.frameSize, htook.size, htook.offered, htook.accepted⟩
  · rw [htail', htail]

/-- **A push that has room** in the middle of the stream. -/
theorem Packed.push (h : Packed E isOpen start f fulls left) (heos : b.eos = false)
    (hfit : f.rb.tail.toNat + b.payload.length + f.rb.bufferSize.toNat < 2 ^ 64)
    (hroom : left.length + b.payload.length ≤ f.rb.bufferSize.toNat) :
    ∃ g fulls' left', f.pushData E b = some (g, .success) ∧
      Packed E isOpen start g (fulls ++ fulls') left' ∧
      left ++ b.payload = fulls'.flatten ++ left' ∧
      g.rb.bufferSize = f.rb.bufferSize ∧
      g.rb.tail.toNat = f.rb.tail.toNat + b.payload.length := by
  obtain ⟨g, fulls', left', steps, hpush, hpacked, hsplit, -, hring⟩ := h.offers hfit hroom
  refine ⟨g, fulls', left', ?_, hpacked, hsplit, hring⟩
  rw [hpush, heos]
  exact drain_stops (steps + 1) hpacked.ready hpacked.left_lt

/-- **The last push**, if it has room. -/
theorem Packed.pushLast (h : Packed E isOpen start f fulls left) (heos : b.eos = true)
    (hfit : f.rb.tail.toNat + b.payload.length + f.rb.bufferSize.toNat < 2 ^ 64)
    (hroom : left.length + b.payload.length ≤ f.rb.bufferSize.toNat) :
    ∃ g fulls' left', f.pushData E b = some (g, .success) ∧
      Took start g ((fulls ++ fulls').map dataBuffer ++ lastBuffers left') ∧
      left ++ b.payload = fulls'.flatten ++ left' ∧
      (∀ full ∈ fulls ++ fulls', full.length = f.frameSize.toNat) ∧
      left'.length < f.frameSize.toNat := by
  obtain ⟨g, fulls', left', steps, hpush, hpacked, hsplit, hframe, -⟩ := h.offers hfit hroom
  obtain ⟨g', hlast, htook⟩ := drain_last steps hpacked.ready hpacked.left_lt
  refine ⟨g', fulls', left', ?_, hpacked.took.trans htook, hsplit, ?_, ?_⟩
  · rw [hpush, heos]
    exact hlast
  · exact fun full hfull => hframe ▸ hpacked.fulls_length full hfull
  · exact hframe ▸ hpacked.left_lt

theorem Packed.push_waits (h : Packed E isOpen start f fulls left)
    (hfit : f.rb.tail.toNat + b.payload.length + f.rb.bufferSize.toNat < 2 ^ 64)
    (hframe : f.frameSize.toNat ≤ f.rb.bufferSize.toNat)
    (hroom : f.rb.bufferSize.toNat < left.length + b.payload.length) : f.pushData E b = none := by
  have hleft := h.left_lt
  have hsome : 0 < b.payload.length := by omega
  unfold AudioEncoderFilter.pushData
  rw [if_pos hsome, h.ready.holding.write_waits hfit hroom]
  rfl

-- The stream

/-- Each push finds room beside what the pushes before it have left over. -/
def Fits (frameSize bufferSize : Nat) : Nat → List Buffer → Prop
  | _, [] => True
  | left, b :: bs =>
    left + b.payload.length ≤ bufferSize ∧
      Fits frameSize bufferSize ((left + b.payload.length) % frameSize) bs

def payloads (bs : List Buffer) : List UInt8 := bs.flatMap Buffer.payload

structure Cut (frameSize : Nat) (bytes : List UInt8) (fulls : List (List UInt8))
    (left : List UInt8) : Prop where
  flatten : bytes = fulls.flatten ++ left
  fulls_length : ∀ full ∈ fulls, full.length = frameSize
  left_lt : left.length < frameSize

/-- **All pushes**, up to the end of the stream. -/
theorem Packed.pushAll (h : Packed E isOpen start f fulls left) {init : List Buffer} {last : Buffer}
    (hinit : ∀ b ∈ init, b.eos = false) (hlast : last.eos = true)
    (hframe : f.frameSize.toNat ≤ f.rb.bufferSize.toNat)
    (hfit : f.rb.tail.toNat + (payloads (init ++ [last])).length + f.rb.bufferSize.toNat < 2 ^ 64) :
    (Fits f.frameSize.toNat f.rb.bufferSize.toNat left.length (init ++ [last]) →
      ∃ g fulls' left', f.pushAll E (init ++ [last]) = some g ∧
        Cut f.frameSize.toNat (fulls.flatten ++ left ++ payloads (init ++ [last])) fulls' left' ∧
        Took start g (fulls'.map dataBuffer ++ lastBuffers left')) ∧
    (¬ Fits f.frameSize.toNat f.rb.bufferSize.toNat left.length (init ++ [last]) →
      f.pushAll E (init ++ [last]) = none) := by
  induction init generalizing f fulls left with
  | nil =>
    have hbytes : payloads ([] ++ [last]) = last.payload := List.append_nil _
    rw [hbytes] at hfit ⊢
    constructor
    · rintro ⟨hroom, -⟩
      obtain ⟨g, fulls', left', hg, htook, hsplit, hfulls, hleft⟩ := h.pushLast hlast hfit hroom
      refine ⟨g, fulls ++ fulls', left', ?_, ⟨?_, hfulls, hleft⟩, htook⟩
      · rw [List.nil_append, AudioEncoderFilter.pushAll, hg]
        rfl
      · rw [List.flatten_append, List.append_assoc, List.append_assoc, hsplit]
    · intro hfull
      have hroom : f.rb.bufferSize.toNat < left.length + last.payload.length := by
        by_contra hle
        exact hfull ⟨Nat.not_lt.mp hle, trivial⟩
      rw [List.nil_append, AudioEncoderFilter.pushAll, h.push_waits hfit hframe hroom]
      rfl
  | cons b init ih =>
    have hbytes : payloads (b :: init ++ [last]) = b.payload ++ payloads (init ++ [last]) := rfl
    rw [hbytes, List.length_append] at hfit
    rw [hbytes]
    have heos := hinit b List.mem_cons_self
    by_cases hroom : left.length + b.payload.length ≤ f.rb.bufferSize.toNat
    · obtain ⟨g, fulls', left', hg, hpacked, hsplit, hbuffer, htail⟩ :=
        h.push heos (by omega) hroom
      have hframe' : g.frameSize = f.frameSize := by
        rw [hpacked.took.frameSize, h.took.frameSize]
      have hmod : left'.length = (left.length + b.payload.length) % f.frameSize.toNat := by
        have hlength := congrArg List.length hsplit
        have hfulls : ∀ full ∈ fulls', full.length = f.frameSize.toNat := fun full hfull =>
          hframe' ▸ hpacked.fulls_length full (List.mem_append_right _ hfull)
        have hlt : left'.length < f.frameSize.toNat := hframe' ▸ hpacked.left_lt
        rw [List.length_append, List.length_append, flatten_length hfulls] at hlength
        rw [hlength, Nat.add_comm, Nat.add_mul_mod_self_right, Nat.mod_eq_of_lt hlt]
      have hrun : f.pushAll E (b :: init ++ [last]) = g.pushAll E (init ++ [last]) := by
        rw [List.cons_append, AudioEncoderFilter.pushAll, hg]
        rfl
      have hall : fulls.flatten ++ left ++ (b.payload ++ payloads (init ++ [last])) =
          (fulls ++ fulls').flatten ++ left' ++ payloads (init ++ [last]) := by
        rw [List.flatten_append, List.append_assoc fulls.flatten, ← List.append_assoc left, hsplit]
        simp only [List.append_assoc]
      obtain ⟨hfits, hwaits⟩ := ih hpacked (fun c hc => hinit c (List.mem_cons_of_mem _ hc))
        (by rw [hframe', hbuffer]; exact hframe) (by rw [htail, hbuffer]; omega)
      rw [hframe', hbuffer, hmod] at hfits hwaits
      rw [hrun, hall]
      constructor
      · rintro ⟨-, hrest⟩
        exact hfits hrest
      · exact fun hfull => hwaits fun hrest => hfull ⟨hroom, hrest⟩
    · constructor
      · rintro ⟨hroom', -⟩
        exact absurd hroom' hroom
      · intro _
        rw [List.cons_append, AudioEncoderFilter.pushAll,
          h.push_waits (by omega) hframe (Nat.not_le.mp hroom)]
        rfl

-- What is accepted

theorem payloads_append (bs cs : List Buffer) : payloads (bs ++ cs) = payloads bs ++ payloads cs :=
  List.flatMap_append

theorem payloads_map (fulls : List (List UInt8)) :
    payloads (fulls.map dataBuffer) = fulls.flatten := by
  rw [payloads, List.flatMap_map]
  exact List.flatMap_id'

theorem payloads_lastBuffers (rest : List UInt8) : payloads (lastBuffers rest) = rest := by
  unfold lastBuffers
  split
  next hnil =>
    subst hnil
    rfl
  next hsome => exact List.append_nil rest

theorem payloads_filter_eq {keep : Buffer → Bool} (bs : List Buffer) :
    payloads (bs.filter keep) = payloads bs ↔
      ∀ b ∈ bs, b.payload ≠ [] → keep b = true := by
  have hle : ∀ cs : List Buffer, (payloads (cs.filter keep)).length ≤ (payloads cs).length := by
    intro cs
    induction cs with
    | nil => exact Nat.le_refl _
    | cons c cs ih =>
      rw [List.filter_cons]
      split
      · simp only [payloads, List.flatMap_cons, List.length_append] at ih ⊢
        omega
      · simp only [payloads, List.flatMap_cons, List.length_append] at ih ⊢
        omega
  induction bs with
  | nil => exact ⟨fun _ b hb => absurd hb List.not_mem_nil, fun _ => rfl⟩
  | cons b bs ih =>
    rw [List.filter_cons, List.forall_mem_cons]
    split
    next hkeep =>
      have hcons : ∀ cs, payloads (b :: cs) = b.payload ++ payloads cs := fun cs => rfl
      rw [hcons, hcons, List.append_cancel_left_eq]
      exact ⟨fun h => ⟨fun _ => hkeep, ih.mp h⟩, fun h => ih.mpr h.2⟩
    next hdrop =>
      constructor
      · intro h
        have hlength := congrArg List.length h
        have hrest := hle bs
        have hcons : (payloads (b :: bs)).length = b.payload.length + (payloads bs).length :=
          List.length_append
        have hnil : b.payload = [] := List.length_eq_zero_iff.mp (by omega)
        have hcons : payloads (b :: bs) = payloads bs := by
          show b.payload ++ payloads bs = _
          rw [hnil, List.nil_append]
        exact ⟨fun hne => absurd hnil hne, ih.mp (h.trans hcons)⟩
      · rintro ⟨hb, hrest⟩
        have hnil : b.payload = [] := by
          by_contra hne
          exact hdrop (hb hne)
        have hcons : payloads (b :: bs) = payloads bs := by
          show b.payload ++ payloads bs = _
          rw [hnil, List.nil_append]
        rw [hcons]
        exact ih.mpr hrest

/-- A stream of this length is cut into frames that the plug-in takes. -/
def FrameSized (frameSize size total : Nat) : Prop :=
  (frameSize ≤ total → size = frameSize) ∧ (total % frameSize ≠ 0 → size = total % frameSize)

theorem Cut.left_length {n : Nat} {bytes : List UInt8} (h : Cut n bytes fulls left) :
    bytes.length % n = left.length ∧ (n ≤ bytes.length ↔ fulls ≠ []) := by
  have hlength := congrArg List.length h.flatten
  have hlt := h.left_lt
  rw [List.length_append, flatten_length h.fulls_length] at hlength
  constructor
  · rw [hlength, Nat.add_comm, Nat.add_mul_mod_self_right, Nat.mod_eq_of_lt hlt]
  · constructor
    · rintro hle rfl
      rw [List.length_nil, Nat.zero_mul] at hlength
      omega
    · intro hne
      have hpos := List.length_pos_of_ne_nil hne
      have hmul := Nat.le_mul_of_pos_left n hpos
      omega

/-- **All bytes are accepted** exactly when every frame that is cut has the size of the plug-in. -/
theorem Cut.accepts_all {n : Nat} {size : UInt32} {bytes : List UInt8}
    (h : Cut n bytes fulls left) (hn : 0 < n) :
    payloads ((fulls.map dataBuffer ++ lastBuffers left).filter (accepts size)) = bytes ↔
      FrameSized n size.toNat bytes.length := by
  have hbytes : payloads (fulls.map dataBuffer ++ lastBuffers left) = bytes := by
    rw [payloads_append, payloads_map, payloads_lastBuffers, h.flatten]
  have hdata : ∀ bytes : List UInt8, accepts size (dataBuffer bytes) = true ↔
      bytes.length = size.toNat := fun bytes => by
    rw [accepts, Bool.or_eq_true, decide_eq_true_iff]
    exact or_iff_right Bool.false_ne_true
  obtain ⟨hmod, hsome⟩ := h.left_length
  have hiff := @payloads_filter_eq (accepts size) (fulls.map dataBuffer ++ lastBuffers left)
  rw [hbytes] at hiff
  refine hiff.trans ⟨fun hall => ⟨fun hle => ?_, fun hne => ?_⟩, ?_⟩
  · obtain ⟨full, hfull⟩ := List.exists_mem_of_ne_nil fulls (hsome.mp hle)
    have hlength := h.fulls_length full hfull
    have htaken := hall (dataBuffer full)
      (List.mem_append_left _ (List.mem_map.mpr ⟨full, hfull, rfl⟩))
      (List.ne_nil_of_length_pos (by show 0 < full.length; omega))
    exact ((hdata full).mp htaken).symm.trans hlength
  · rw [hmod] at hne ⊢
    have hleft : left ≠ [] := fun hnil => hne (by rw [hnil]; rfl)
    have hlast : dataBuffer left ∈ lastBuffers left := by
      unfold lastBuffers
      rw [if_neg hleft]
      exact List.mem_cons_self
    exact ((hdata left).mp (hall _ (List.mem_append_right _ hlast) hleft)).symm
  · rintro ⟨hfull, hlast⟩ b hb hne
    rcases List.mem_append.mp hb with hb | hb
    · obtain ⟨full, hmem, rfl⟩ := List.mem_map.mp hb
      rw [hdata, h.fulls_length full hmem, hfull (hsome.mpr (List.ne_nil_of_mem hmem))]
    · unfold lastBuffers at hb
      rcases List.mem_append.mp hb with hb | hb
      · split at hb
        next hnil => exact absurd hb List.not_mem_nil
        next hleft =>
          rw [List.mem_singleton.mp hb, hdata,
            hlast (by rw [hmod]; exact mt List.length_eq_zero_iff.mp hleft),
            hmod]
      · rw [List.mem_singleton.mp hb]
        rfl

end Frames

-- Every stream

section Streams

variable {ε : Type} {E : Encoder ε} {isOpen : ε → Prop} {calculated : UInt32} {plugin : Plugin ε}

/-- Every push returns; the plug-in is offered full frames, at most one that is not, and the end of
the stream; and it accepts every byte once, in order. -/
def Repacks (E : Encoder ε) (start : AudioEncoderFilter ε) (bs : List Buffer) : Prop :=
  ∃ g, start.pushAll E bs = some g ∧
    (∃ fulls short : List (List UInt8),
      g.offered = fulls.map dataBuffer ++ short.map dataBuffer ++ [eosBuffer] ∧
      (∀ full ∈ fulls, full.length = start.frameSize.toNat) ∧ short.length ≤ 1 ∧
      ∀ frame ∈ short, frame ≠ [] ∧ frame.length < start.frameSize.toNat) ∧
    payloads g.plugin.accepted = payloads bs

theorem configure_sizes :
    0 < (configure calculated plugin).frameSize.toNat ∧
      (configure calculated plugin).rb.bufferSize.toNat =
        10 * (configure calculated plugin).frameSize.toNat := by
  unfold configure
  simp only
  split
  · decide
  next hne =>
    have hlt := calculated.toNat_lt
    have hpos : 0 < calculated.toNat :=
      Nat.pos_of_ne_zero fun hzero => hne (UInt32.toNat_inj.mp hzero)
    rw [UInt64.toNat_mul, UInt32.toNat_toUInt64]
    show 0 < calculated.toNat ∧ calculated.toNat * 10 % 2 ^ 64 = _
    omega

/-- The configured filter, before the first push. -/
theorem Packed.start (hE : E.Documented isOpen (configure calculated plugin).frameSize)
    (ho : isOpen plugin.context) :
    Packed E isOpen (configure calculated plugin) (configure calculated plugin) [] [] := by
  obtain ⟨hpos, hbuffer⟩ := @configure_sizes _ calculated plugin
  refine ⟨⟨hE, ho, ⟨rfl, Nat.zero_le _, rfl, fun p hp hp' => ?_⟩, hpos, by omega⟩, hpos,
    fun full hfull => absurd hfull List.not_mem_nil, .nil⟩
  exact absurd hp' (Nat.not_lt_zero p)

/-- **The stream is repacked without loss** exactly when every push finds room
beside what is left over, and every frame that is cut has the size that the
plug-in takes. The library is as documented, and the ring positions do not wrap. -/
theorem repacks_stream {init : List Buffer} {last : Buffer}
    (hE : E.Documented isOpen (configure calculated plugin).frameSize)
    (ho : isOpen plugin.context) (hfresh : plugin.accepted = [])
    (hinit : ∀ b ∈ init, b.eos = false) (hlast : last.eos = true)
    (hfit : (payloads (init ++ [last])).length +
      10 * (configure calculated plugin).frameSize.toNat < 2 ^ 64) :
    Repacks E (configure calculated plugin) (init ++ [last]) ↔
      Fits (configure calculated plugin).frameSize.toNat
          (10 * (configure calculated plugin).frameSize.toNat) 0 (init ++ [last]) ∧
        FrameSized (configure calculated plugin).frameSize.toNat plugin.fullInputFrameSize.toNat
          (payloads (init ++ [last])).length := by
  obtain ⟨hpos, hbuffer⟩ := @configure_sizes _ calculated plugin
  have htail : (configure calculated plugin).rb.tail.toNat = 0 := rfl
  obtain ⟨hfits, hwaits⟩ := (Packed.start hE ho).pushAll hinit hlast (by omega) (by omega)
  rw [hbuffer] at hfits hwaits
  have hall : ([] : List (List UInt8)).flatten ++ [] ++ payloads (init ++ [last]) =
      payloads (init ++ [last]) := rfl
  by_cases hroom : Fits (configure calculated plugin).frameSize.toNat
      (10 * (configure calculated plugin).frameSize.toNat) 0 (init ++ [last])
  · obtain ⟨g, fulls, left, hg, hcut, htook⟩ := hfits hroom
    rw [hall] at hcut
    have haccepted : payloads g.plugin.accepted = payloads (init ++ [last]) ↔
        FrameSized (configure calculated plugin).frameSize.toNat plugin.fullInputFrameSize.toNat
          (payloads (init ++ [last])).length := by
      rw [htook.accepted, show (configure calculated plugin).plugin.accepted = [] from hfresh,
        List.nil_append]
      exact hcut.accepts_all hpos
    constructor
    · rintro ⟨g', hg', -, hsame⟩
      rw [Option.some.inj (hg'.symm.trans hg)] at hsame
      exact ⟨hroom, haccepted.mp hsame⟩
    · rintro ⟨-, hsized⟩
      refine ⟨g, hg, ⟨fulls, if left = [] then [] else [left], ?_, hcut.fulls_length, ?_, ?_⟩,
        haccepted.mpr hsized⟩
      · rw [htook.offered, lastBuffers, List.append_assoc]
        show [] ++ (_ ++ _) = _
        rw [List.nil_append]
        split
        · rfl
        · rfl
      · split
        · exact Nat.zero_le _
        · exact Nat.le_refl _
      · intro frame hframe
        split at hframe
        · exact absurd hframe List.not_mem_nil
        next hne =>
          rw [List.mem_singleton.mp hframe]
          exact ⟨hne, hcut.left_lt⟩
  · constructor
    · rintro ⟨g, hg, -⟩
      exact absurd (hg.symm.trans (hwaits hroom)) (Option.some_ne_none g)
    · rintro ⟨hroom', -⟩
      exact absurd hroom' hroom

end Streams

/-- An encoder that holds at most one packet of one byte, and whether the end was asked for. -/
def onePacket : Encoder (Nat × Bool) where
  send
    | (held, ended), frame =>
      if ended then ((held, ended), .eof)
      else if 0 < held then ((held, ended), .again)
      else ((1, frame.isNone), .ok)
  receive
    | (0, ended) => ((0, ended), if ended then .eof else .again)
    | (held + 1, ended) => ((held, ended), .packet 1)
  output := Prod.fst

theorem onePacket_documented {frameSize : UInt64} (h : 1 ≤ frameSize) :
    onePacket.Documented (fun s => s.2 = false) frameSize where
  receive_some
    | (held + 1, _), _ => ⟨1, rfl, h, rfl⟩
  receive_none
    | (0, ended), _ => ⟨fun size => by cases ended <;> exact ReceiveResult.noConfusion, rfl⟩
  receive_open
    | (0, _), ho => ho
    | (_ + 1, _), ho => ho
  send_cases
    | (0, false), _, _ => .inl rfl
    | (held + 1, false), _, _ => .inr ⟨rfl, Nat.succ_pos held, rfl⟩
  send_open
    | (0, false), _, _ => rfl
    | (_ + 1, false), _, _ => rfl

/-- A plug-in whose encoder takes frames of two bytes, if the samples have to be converted. -/
def twoBytes (needReformat : Bool) : Plugin (Nat × Bool) where
  context := (0, false)
  fullInputFrameSize :=
    fullInputFrameSize (fun srcFmt => if srcFmt = .none then -22 else 2) needReformat

theorem repacks_stream_fourBytes :
    Repacks onePacket (configure 2 (twoBytes true))
      ([dataBuffer [1], dataBuffer [2, 3, 4]] ++ [{ memory := none, eos := true }]) :=
  (repacks_stream (onePacket_documented (by decide)) rfl rfl (by decide) rfl (by decide)).mpr
    ⟨⟨by decide, by decide, by decide, trivial⟩, by decide, by decide⟩

/-- The last of three bytes is refused, since it is no frame of two. -/
theorem short_frame_lost :
    ((configure 2 (twoBytes true)).pushAll onePacket
        [{ memory := some [1, 2, 3], eos := true }]).map (fun g => payloads g.plugin.accepted) =
      some [1, 2] ∧
      ¬ Repacks onePacket (configure 2 (twoBytes true))
        [{ memory := some [1, 2, 3], eos := true }] := by
  have htaken : ((configure 2 (twoBytes true)).pushAll onePacket
      [{ memory := some [1, 2, 3], eos := true }]).map (fun g => payloads g.plugin.accepted) =
      some [1, 2] := by decide
  refine ⟨htaken, ?_⟩
  rintro ⟨g, hg, -, hsame⟩
  rw [hg, Option.map_some, hsame] at htaken
  exact absurd htaken (by decide)

end MediaFoundation.AudioEncoder
