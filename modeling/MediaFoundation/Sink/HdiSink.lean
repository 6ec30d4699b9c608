import Mathlib

/-!
# The HDI sink

`hos_au_sink.cpp`. The device takes the channels one after another, so an interleaved buffer is
first put into `cacheData_`, whose size is that of one period.

Conventions:

* An access out of bounds, and a vector that is longer than it can be: no result.
* There is a render, and `processing_` stays true. The device answers no other error.
-/

namespace MediaFoundation.HdiAuSink

def pcmChanCnt : Nat := 2

inductive AudioFormat where
  | pcm8Bit
  | pcm16Bit
  | pcm24Bit
  | pcm32Bit
deriving DecidableEq

def getPcmBytes : AudioFormat → UInt32
  | .pcm8Bit => 1
  | .pcm16Bit => 2
  | .pcm24Bit => 3
  | .pcm32Bit => 4

structure AudioSampleAttributes where
  format : AudioFormat
  channelCount : UInt32
  /-- Samples of a channel. -/
  period : UInt32
  frameSize : UInt32 := 0
deriving DecidableEq

structure HdiSink where
  sampleAttributes_ : AudioSampleAttributes
  isInputInterleaved_ : Bool
  usingDefaultInCaps_ : Bool := true
  cacheData_ : List UInt8 := []
deriving DecidableEq

/-- An `int32_t`; a negative one is too long. -/
def calculateBufferSize (a : AudioSampleAttributes) : Option Nat :=
  let size := (a.frameSize * a.period).toNat
  if size < 2 ^ 31 then some size else none

namespace HdiSink

/-- The condition of `Prepare` and of `HandleInterleaveData`. -/
def deinterleaves (s : HdiSink) : Bool :=
  s.sampleAttributes_.channelCount.toNat = pcmChanCnt && s.usingDefaultInCaps_ &&
    s.isInputInterleaved_

def prepare (s : HdiSink) : Option HdiSink :=
  let a := s.sampleAttributes_
  let a := { a with frameSize := getPcmBytes a.format * a.channelCount }
  if s.deinterleaves then
    (calculateBufferSize a).map fun n =>
      { s with
        sampleAttributes_ := a
        cacheData_ := s.cacheData_.take n ++ List.replicate (n - s.cacheData_.length) 0 }
  else some { s with sampleAttributes_ := a }

end HdiSink

-- Deinterleave

section Deinterleave

variable {α : Type*}

def assign (inData outData : List α) (dst src : Nat) : Option (List α) :=
  inData[src]?.bind fun x => if dst < outData.length then some (outData.set dst x) else none

def deinterleave (inData outData : List α) (frameCnt : Nat) : Option (List α) :=
  let frameSize := frameCnt / pcmChanCnt
  (List.range pcmChanCnt).foldlM
    (fun out i => (List.range frameSize).foldlM
      (fun out j => assign inData out (i * frameSize + j) (j * pcmChanCnt + i)) out) outData

/-- Two by two; an odd one at the end is left out. -/
def pairs : List α → List (α × α)
  | a :: b :: l => (a, b) :: pairs l
  | _ => []

def unpair (l : List (α × α)) : List α := l.flatMap fun x => [x.1, x.2]

theorem unpair_pairs : ∀ l : List α, 2 ∣ l.length → unpair (pairs l) = l := by
  intro l
  induction l using pairs.induct with
  | case1 a b l ih =>
    intro h
    have ih := ih (by simp only [List.length_cons] at h; omega)
    simpa [pairs, unpair] using ih
  | case2 l hl =>
    intro h
    rcases l with _ | ⟨a, _ | ⟨b, l⟩⟩
    · simp [pairs, unpair]
    · simp at h
    · exact absurd rfl (hl a b l)

theorem length_unpair (l : List (α × α)) : (unpair l).length = 2 * l.length := by
  simp [unpair, List.length_flatMap, Nat.mul_comm]

theorem length_pairs (l : List α) (h : 2 ∣ l.length) : 2 * (pairs l).length = l.length := by
  rw [← length_unpair, unpair_pairs l h]

theorem unpair_append (l m : List (α × α)) : unpair (l ++ m) = unpair l ++ unpair m := by
  simp [unpair]

theorem unpair_get (l : List (α × α)) (j : Nat) (h : j < l.length) :
    (unpair l)[j * 2 + 0]? = some l[j].1 ∧ (unpair l)[j * 2 + 1]? = some l[j].2 := by
  induction l generalizing j with
  | nil => simp at h
  | cons x l ih =>
    rcases j with _ | j
    · simp [unpair]
    · have ih := ih j (by simpa using h)
      rw [show (j + 1) * 2 + 0 = (j * 2 + 0) + 2 by omega,
        show (j + 1) * 2 + 1 = (j * 2 + 1) + 2 by omega]
      simpa [unpair] using ih

theorem assign_channel {inData : List α} {frames : List (α × α)} {proj : α × α → α} {i : Nat}
    (hin : ∀ j (h : j < frames.length), inData[j * pcmChanCnt + i]? = some (proj frames[j]))
    {pre rest : List α} : ∀ n, n ≤ frames.length → n ≤ rest.length →
    (List.range n).foldlM
        (fun out j => assign inData out (pre.length + j) (j * pcmChanCnt + i)) (pre ++ rest) =
      some (pre ++ ((frames.take n).map proj ++ rest.drop n)) := by
  intro n
  induction n with
  | zero => simp
  | succ n ih =>
    intro hframes hrest
    rw [List.range_succ, List.foldlM_append, ih (by omega) (by omega)]
    have hdrop := List.drop_eq_getElem_cons (show n < rest.length by omega)
    have htake : frames.take (n + 1) = frames.take n ++ [frames[n]] := by
      rw [List.take_add_one, List.getElem?_eq_getElem (by omega)]
      rfl
    have hlen : ((frames.take n).map proj).length = n := by
      simp
      omega
    simp only [List.foldlM_cons, List.foldlM_nil, Option.bind_eq_bind, Option.bind_some, assign,
      hin n (by omega)]
    rw [if_pos (by simp; omega), Option.bind_some, List.set_append_right _ _ (by omega),
      Nat.add_sub_cancel_left, List.set_append_right _ _ (by omega), hlen, Nat.sub_self, hdrop,
      htake]
    simp only [List.set_cons_zero, List.map_append, List.map_cons, List.map_nil, List.append_assoc,
      List.cons_append, List.nil_append]
    rfl

theorem deinterleave_eq {frames : List (α × α)} {out : List α}
    (h : 2 * frames.length ≤ out.length) :
    deinterleave (unpair frames) out (2 * frames.length) =
      some (frames.map Prod.fst ++ frames.map Prod.snd ++ out.drop (2 * frames.length)) := by
  have hfirst := @assign_channel _ _ frames Prod.fst 0 (fun j hj => (unpair_get frames j hj).1)
    [] out frames.length le_rfl (by omega)
  have hsecond := @assign_channel _ _ frames Prod.snd 1 (fun j hj => (unpair_get frames j hj).2)
    (frames.map Prod.fst) (out.drop frames.length) frames.length le_rfl (by simp; omega)
  rw [List.length_map, List.take_length, List.drop_drop, ← Nat.two_mul] at hsecond
  rw [List.length_nil, List.nil_append, List.nil_append, List.take_length] at hfirst
  rw [deinterleave, show 2 * frames.length / pcmChanCnt = frames.length by simp [pcmChanCnt]]
  show (List.foldlM _ out [0, 1]) = _
  simp only [List.foldlM_cons, List.foldlM_nil, Option.bind_eq_bind, Nat.zero_mul, Nat.one_mul]
  rw [hfirst, Option.bind_some, hsecond]
  simp

theorem length_foldlM {ι : Type*} {f : List α → ι → Option (List α)}
    (hf : ∀ out i out', f out i = some out' → out'.length = out.length) :
    ∀ (l : List ι) {out out' : List α}, l.foldlM f out = some out' → out'.length = out.length := by
  intro l
  induction l with
  | nil =>
    intro out out' h
    simp at h
    rw [h]
  | cons i l ih =>
    intro out out' h
    rw [List.foldlM_cons] at h
    obtain ⟨mid, hmid, h⟩ := Option.bind_eq_some_iff.mp h
    rw [ih h, hf out i mid hmid]

theorem length_deinterleave {inData out out' : List α} {n : Nat}
    (h : deinterleave inData out n = some out') : out'.length = out.length := by
  refine length_foldlM (fun out i out' h => length_foldlM ?_ _ h) _ h
  intro out j out' h
  obtain ⟨x, -, h⟩ := Option.bind_eq_some_iff.mp h
  split at h
  · rw [← Option.some.inj h, List.length_set]
  · simp at h

end Deinterleave

-- RenderFrame

/-- What the device does with the bytes that it is handed. -/
inductive Answer where
  | accepted (renderSize : Nat)
  | bufFull

def Answer.renderSize (remainingBytes : Nat) : Answer → Nat
  | .accepted renderSize => min renderSize remainingBytes
  | .bufFull => 0

/-- The loop of `RenderFrame`. -/
structure Rendering where
  sink : HdiSink
  dataInterleaved : Bool := false
  /-- Counted from the start of the buffer, or of `cacheData_`. -/
  frame : Nat := 0
  remainingBytes : Nat
  /-- What the device has accepted. -/
  rendered : List UInt8 := []

namespace HdiSink

def deinterleave16 (s : HdiSink) (inData : List UInt8) (frameCnt : Nat) : Option HdiSink :=
  (deinterleave (pairs inData) (pairs s.cacheData_) frameCnt).map fun out =>
    { s with cacheData_ := unpair out }

/-- The sink, and whether the data were handled. `frameCnt` becomes an `int32_t`. -/
def handleInterleaveData (s : HdiSink) (origData : List UInt8) (frameCnt : Nat) :
    Option (HdiSink × Bool) :=
  if s.deinterleaves && s.sampleAttributes_.format = .pcm16Bit then
    (s.deinterleave16 origData (frameCnt % 2 ^ 32)).map fun s => (s, true)
  else some (s, false)

end HdiSink

def Rendering.region (r : Rendering) (data : List UInt8) : List UInt8 :=
  if r.dataInterleaved then r.sink.cacheData_ else data

def Rendering.handle (r : Rendering) (data : List UInt8) : Option Rendering :=
  if r.dataInterleaved then some r
  else (r.sink.handleInterleaveData (data.drop r.frame) (r.remainingBytes / pcmChanCnt)).map
    fun x => if x.2 then { r with sink := x.1, frame := 0, dataInterleaved := true } else r

def Rendering.render (r : Rendering) (data : List UInt8) (a : Answer) : Option Rendering :=
  if (r.region data).length < r.frame + r.remainingBytes then none
  else
    let renderSize := a.renderSize r.remainingBytes
    some
      { r with
        frame := r.frame + renderSize
        remainingBytes := r.remainingBytes - renderSize
        rendered := r.rendered ++ ((r.region data).drop r.frame).take renderSize }

def round (data : List UInt8) (r : Rendering) (a : Answer) : Option Rendering :=
  if r.remainingBytes = 0 then some r
  else (r.handle data).bind fun r => r.render data a

def HdiSink.renderFrame (s : HdiSink) (data : List UInt8) (answers : List Answer) :
    Option Rendering :=
  answers.foldlM (round data) { sink := s, remainingBytes := data.length }

def HdiSink.write (s : HdiSink) (data : List UInt8) (answers : List Answer) : Option Rendering :=
  if data.isEmpty then some { sink := s, remainingBytes := 0 } else s.renderFrame data answers

/-- All samples of the first channel, then all of the second. -/
def byChannel (data : List UInt8) : List UInt8 :=
  let frames := pairs (pairs data)
  unpair (frames.map Prod.fst ++ frames.map Prod.snd)

def HdiSink.wanted (s : HdiSink) (data : List UInt8) : List UInt8 :=
  if s.isInputInterleaved_ then byChannel data else data

/-- Buffers are written one after another, each with the answers of the device. The device has
accepted as much of what is wanted as does not remain. -/
def Rendered (s : HdiSink) : List (List UInt8 × List Answer) → Prop
  | [] => True
  | (data, answers) :: ws => ∃ r, s.write data answers = some r ∧
      r.remainingBytes ≤ data.length ∧
      r.rendered = (s.wanted data).take (data.length - r.remainingBytes) ∧ Rendered r.sink ws

/-- 16-bit stereo with the default capabilities; `cacheData_` holds frames. -/
structure Stereo (s : HdiSink) : Prop where
  format : s.sampleAttributes_.format = .pcm16Bit
  channels : s.sampleAttributes_.channelCount = 2
  caps : s.usingDefaultInCaps_ = true
  cache : s.isInputInterleaved_ = true → 2 ∣ s.cacheData_.length ∧ s.cacheData_.length < 2 ^ 31

theorem Stereo.deinterleaves {s : HdiSink} (hs : Stereo s) :
    s.deinterleaves = s.isInputInterleaved_ := by
  simp [HdiSink.deinterleaves, hs.channels, hs.caps, pcmChanCnt]

/-- A step of the loop after which nothing is to be de-interleaved. -/
structure Midway (data wanted : List UInt8) (r : Rendering) : Prop where
  handled : r.dataInterleaved = r.sink.isInputInterleaved_
  region : wanted <+: r.region data
  length : wanted.length = data.length
  frame : r.frame + r.remainingBytes = data.length
  rendered : r.rendered = wanted.take r.frame

theorem Midway.render {data wanted : List UInt8} {r : Rendering} (h : Midway data wanted r)
    (a : Answer) : ∃ r', r.render data a = some r' ∧ r'.sink = r.sink ∧ Midway data wanted r' := by
  have hle := h.region.length_le
  have hframe := h.frame
  have hlength := h.length
  have hsize : a.renderSize r.remainingBytes ≤ r.remainingBytes := by
    rcases a with n | _ <;> simp [Answer.renderSize]
  rw [Rendering.render, if_neg (by omega)]
  refine ⟨_, rfl, rfl, h.handled, h.region, h.length, by simp only; omega, ?_⟩
  obtain ⟨rest, hrest⟩ := h.region
  rw [h.rendered, List.take_add, ← hrest, List.drop_append_of_le_length (by omega),
    List.take_append_of_le_length (by simp; omega)]

theorem Midway.rounds {data wanted : List UInt8} : ∀ (answers : List Answer) {r : Rendering},
    Stereo r.sink → Midway data wanted r →
    ∃ r', answers.foldlM (round data) r = some r' ∧ r'.sink = r.sink ∧ Midway data wanted r' := by
  intro answers
  induction answers with
  | nil => exact fun _ h => ⟨_, rfl, rfl, h⟩
  | cons a answers ih =>
    intro r hr h
    have hround : ∃ r', round data r a = some r' ∧ r'.sink = r.sink ∧ Midway data wanted r' := by
      rw [round]
      by_cases hend : r.remainingBytes = 0
      · exact ⟨r, by rw [if_pos hend], rfl, h⟩
      have hhandle : r.handle data = some r := by
        rw [Rendering.handle]
        by_cases hdone : r.dataInterleaved = true
        · rw [if_pos hdone]
        · have hnot : r.sink.deinterleaves = false := by
            rw [hr.deinterleaves, ← h.handled]
            simpa using hdone
          simp [hdone, HdiSink.handleInterleaveData, hnot]
      rw [if_neg hend, hhandle]
      exact h.render a
    obtain ⟨r', hr', hsink, h'⟩ := hround
    obtain ⟨r'', hr'', hsink', h''⟩ := ih (hsink ▸ hr) h'
    exact ⟨r'', by rw [List.foldlM_cons, hr']; exact hr'', hsink'.trans hsink, h''⟩

-- Write

structure Same (s s' : HdiSink) : Prop where
  attributes : s'.sampleAttributes_ = s.sampleAttributes_
  interleaved : s'.isInputInterleaved_ = s.isInputInterleaved_
  caps : s'.usingDefaultInCaps_ = s.usingDefaultInCaps_
  cache : s'.cacheData_.length = s.cacheData_.length

theorem Same.stereo {s s' : HdiSink} (h : Same s s') (hs : Stereo s) : Stereo s' := by
  refine ⟨?_, ?_, ?_, ?_⟩
  · rw [h.attributes, hs.format]
  · rw [h.attributes, hs.channels]
  · rw [h.caps, hs.caps]
  · rw [h.interleaved, h.cache]
    exact hs.cache

theorem length_byChannel {data : List UInt8} (h : 4 ∣ data.length) :
    (byChannel data).length = data.length := by
  have hsamples := length_pairs data (by omega)
  have hframes := length_pairs (pairs data) (by omega)
  rw [byChannel, length_unpair, List.length_append, List.length_map, List.length_map]
  omega

section First

variable {s : HdiSink} {data : List UInt8}

theorem handle_first (hs : Stereo s) (hi : s.isInputInterleaved_ = true) {remaining : Nat} :
    Rendering.handle { sink := s, remainingBytes := remaining } data =
      (s.deinterleave16 data (remaining / 2 % 2 ^ 32)).map fun s' =>
        { sink := s', dataInterleaved := true, remainingBytes := remaining } := by
  rw [Rendering.handle, if_neg Bool.false_ne_true, HdiSink.handleInterleaveData, if_pos]
  · rw [Option.map_map]
    rfl
  · simp [hs.deinterleaves, hi, hs.format]

theorem Same.of_deinterleave16 (hs : Stereo s) (hi : s.isInputInterleaved_ = true) {n : Nat}
    {s' : HdiSink} (h : s.deinterleave16 data n = some s') : Same s s' := by
  obtain ⟨out, hout, rfl⟩ := Option.map_eq_some_iff.mp h
  refine ⟨rfl, rfl, rfl, ?_⟩
  rw [length_unpair, length_deinterleave hout, length_pairs _ (hs.cache hi).1]

theorem deinterleave16_fits (hs : Stereo s) (hi : s.isInputInterleaved_ = true)
    (h4 : 4 ∣ data.length) (hfits : data.length ≤ s.cacheData_.length) :
    ∃ s', s.deinterleave16 data (data.length / 2 % 2 ^ 32) = some s' ∧ Same s s' ∧
      byChannel data <+: s'.cacheData_ := by
  obtain ⟨heven, hlt⟩ := hs.cache hi
  have hsamples := length_pairs data (by omega)
  have hframes := length_pairs (pairs data) (by omega)
  have hcache := length_pairs s.cacheData_ heven
  have hcount : data.length / 2 % 2 ^ 32 = 2 * (pairs (pairs data)).length := by omega
  have hout := @deinterleave_eq _ (pairs (pairs data)) (pairs s.cacheData_) (by omega)
  rw [unpair_pairs _ (by omega), ← hcount] at hout
  have hsome := congrArg (Option.map fun out => { s with cacheData_ := unpair out }) hout
  refine ⟨_, hsome, .of_deinterleave16 hs hi hsome, ?_⟩
  show byChannel data <+: unpair _
  rw [unpair_append]
  exact List.prefix_append _ _

end First

/-- A buffer for which the device is called has to fit, if it is interleaved. -/
def Fits (s : HdiSink) (w : List UInt8 × List Answer) : Prop :=
  w.2 ≠ [] → s.isInputInterleaved_ = true → w.1.length ≤ s.cacheData_.length

theorem Midway.written {s : HdiSink} {data : List UInt8} {r : Rendering}
    (h : Midway data (s.wanted data) r) :
    r.remainingBytes ≤ data.length ∧
      r.rendered = (s.wanted data).take (data.length - r.remainingBytes) := by
  have hframe := h.frame
  refine ⟨by omega, ?_⟩
  rw [h.rendered, ← hframe, Nat.add_sub_cancel]

theorem write_fits {s : HdiSink} {data : List UInt8} (hs : Stereo s) (h4 : 4 ∣ data.length)
    (answers : List Answer) (hfits : Fits s (data, answers)) :
    ∃ r, s.write data answers = some r ∧ (r.remainingBytes ≤ data.length ∧
      r.rendered = (s.wanted data).take (data.length - r.remainingBytes)) ∧ Same s r.sink := by
  rw [HdiSink.write]
  split
  · next hempty =>
    have hnil := List.isEmpty_iff.mp hempty
    exact ⟨_, rfl, by simp [hnil], rfl, rfl, rfl, rfl⟩
  next hdata =>
  have hpos : data.length ≠ 0 := by simpa using hdata
  by_cases hi : s.isInputInterleaved_ = true
  · rcases answers with _ | ⟨a, answers⟩
    · exact ⟨_, rfl, by simp, rfl, rfl, rfl, rfl⟩
    have hwanted : s.wanted data = byChannel data := by rw [HdiSink.wanted, if_pos hi]
    obtain ⟨s', hs', hsame, hprefix⟩ := deinterleave16_fits hs hi h4 (hfits (by simp) hi)
    have hmid : Midway data (s.wanted data)
        { sink := s', dataInterleaved := true, remainingBytes := data.length } := by
      rw [hwanted]
      exact ⟨by rw [hsame.interleaved, hi], hprefix, length_byChannel h4, by simp, by simp⟩
    obtain ⟨r, hr, hsink, hmid⟩ := hmid.render a
    obtain ⟨r', hr', hsink', hmid⟩ := hmid.rounds answers (hsink ▸ hsame.stereo hs)
    refine ⟨r', ?_, hmid.written, by rw [hsink', hsink]; exact hsame⟩
    rw [HdiSink.renderFrame, List.foldlM_cons, round, if_neg hpos, handle_first hs hi, hs',
      Option.map_some, Option.bind_some, hr]
    exact hr'
  · have hwanted : s.wanted data = data := by rw [HdiSink.wanted, if_neg hi]
    have hmid : Midway data (s.wanted data) { sink := s, remainingBytes := data.length } := by
      rw [hwanted]
      exact ⟨by simpa using hi, List.prefix_refl _, rfl, by simp, by simp⟩
    obtain ⟨r, hr, hsink, hmid⟩ := hmid.rounds answers hs
    exact ⟨r, hr, hmid.written, by rw [hsink]; exact ⟨rfl, rfl, rfl, rfl⟩⟩

theorem write_beyond {s : HdiSink} {data : List UInt8} (hs : Stereo s) (answers : List Answer)
    (hnot : ¬ Fits s (data, answers)) : s.write data answers = none := by
  simp only [Fits, Classical.not_imp, not_le] at hnot
  obtain ⟨hanswers, hi, hlt⟩ := hnot
  rcases answers with _ | ⟨a, answers⟩
  · exact absurd rfl hanswers
  have hpos : data.length ≠ 0 := by omega
  have hround : round data { sink := s, remainingBytes := data.length } a = none := by
    rw [round, if_neg hpos, handle_first hs hi]
    rcases hs' : s.deinterleave16 data (data.length / 2 % 2 ^ 32) with _ | s'
    · rfl
    · have hcache := (Same.of_deinterleave16 hs hi hs').cache
      rw [Option.map_some, Option.bind_some, Rendering.render, if_pos]
      show s'.cacheData_.length < 0 + data.length
      omega
  rw [HdiSink.write, if_neg (by simpa using hpos), HdiSink.renderFrame, List.foldlM_cons, hround]
  rfl

theorem rendered_iff_fits : ∀ (ws : List (List UInt8 × List Answer)) {s : HdiSink}, Stereo s →
    (∀ w ∈ ws, 4 ∣ w.1.length) → (Rendered s ws ↔ ∀ w ∈ ws, Fits s w) := by
  intro ws
  induction ws with
  | nil => simp [Rendered]
  | cons w ws ih =>
    intro s hs h4
    rw [List.forall_mem_cons] at h4 ⊢
    by_cases hfits : Fits s w
    · obtain ⟨r, hr, hright, hsame⟩ := write_fits hs h4.1 w.2 hfits
      have hrest : ∀ w, Fits r.sink w ↔ Fits s w := by
        intro w
        rw [Fits, Fits, hsame.interleaved, hsame.cache]
      have ih := ih (hsame.stereo hs) h4.2
      simp only [hrest] at ih
      rw [Rendered, hr]
      simp [hright, ih, hfits]
    · have hnone := write_beyond hs w.2 hfits
      rw [Rendered, hnone]
      simp [hfits]

theorem Stereo.of_prepare {s₀ s : HdiSink} (hformat : s₀.sampleAttributes_.format = .pcm16Bit)
    (hchannels : s₀.sampleAttributes_.channelCount = 2) (hcaps : s₀.usingDefaultInCaps_ = true)
    (h : s₀.prepare = some s) : Stereo s ∧ s.isInputInterleaved_ = s₀.isInputInterleaved_ ∧
      (s.isInputInterleaved_ = true →
        s.cacheData_.length = (4 * s₀.sampleAttributes_.period).toNat) := by
  have hbytes : getPcmBytes .pcm16Bit * 2 = 4 := by decide
  simp only [HdiSink.prepare, HdiSink.deinterleaves, hformat, hchannels, hcaps, hbytes,
    calculateBufferSize] at h
  by_cases hi : s₀.isInputInterleaved_ = true
  · rw [if_pos (by simp [hi, pcmChanCnt])] at h
    obtain ⟨n, hn, rfl⟩ := Option.map_eq_some_iff.mp h
    split at hn
    · next hlt =>
      have hn := Option.some.inj hn
      have hlen : ∀ l : List UInt8, (l.take n ++ List.replicate (n - l.length) 0).length = n := by
        intro l
        simp
        omega
      refine ⟨⟨rfl, rfl, rfl, fun _ => ?_⟩, rfl, fun _ => ?_⟩
      · rw [hlen, ← hn]
        refine ⟨?_, hlt⟩
        rw [UInt32.toNat_mul]
        simp
        omega
      · rw [hlen, hn]
    · simp at hn
  · rw [if_neg (by simp [hi])] at h
    cases h
    exact ⟨⟨rfl, rfl, rfl, fun h => absurd h hi⟩, rfl, fun h => absurd h hi⟩

/-- Every sample of every buffer is rendered once, and nothing is out of bounds, exactly when the
interleaved buffers for which the device is called are not longer than one period. -/
theorem rendered_iff {s₀ s : HdiSink} (hformat : s₀.sampleAttributes_.format = .pcm16Bit)
    (hchannels : s₀.sampleAttributes_.channelCount = 2) (hcaps : s₀.usingDefaultInCaps_ = true)
    (hprepare : s₀.prepare = some s) (ws : List (List UInt8 × List Answer))
    (h4 : ∀ w ∈ ws, 4 ∣ w.1.length) :
    Rendered s ws ↔ ∀ w ∈ ws, w.2 ≠ [] → s₀.isInputInterleaved_ = true →
      w.1.length ≤ (4 * s₀.sampleAttributes_.period).toNat := by
  obtain ⟨hs, hinterleaved, hlength⟩ := Stereo.of_prepare hformat hchannels hcaps hprepare
  rw [rendered_iff_fits ws hs h4]
  refine forall₂_congr fun w _ => forall_congr' fun _ => ?_
  rw [hinterleaved]
  refine forall_congr' fun hi => ?_
  rw [hlength (hinterleaved.trans hi)]

/-- An interleaved sink with periods of one sample, and two samples for it. -/
def oneSample : HdiSink :=
  { sampleAttributes_ := ⟨.pcm16Bit, 2, 1, 0⟩, isInputInterleaved_ := true }

def oneSamplePrepared : HdiSink :=
  { oneSample with
    sampleAttributes_ := ⟨.pcm16Bit, 2, 1, 4⟩
    cacheData_ := [0, 0, 0, 0] }

def twoSamples : List (List UInt8 × List Answer) :=
  [([1, 0, 2, 0, 3, 0, 4, 0], [.accepted 3, .bufFull, .accepted 9])]

/-- A sample at a time; the second one is accepted in two parts. -/
def sampleAtATime : List (List UInt8 × List Answer) :=
  [([1, 0, 2, 0], [.accepted 9]), ([3, 0, 4, 0], [.accepted 1, .bufFull, .accepted 9])]

theorem rendered_iff_one_sample : Rendered oneSamplePrepared sampleAtATime :=
  (@rendered_iff oneSample oneSamplePrepared rfl rfl rfl (by decide) sampleAtATime
    (by decide)).mpr (by decide)

/-- The second sample does not fit. -/
theorem beyond_cache : ¬ ∀ s₀ s : HdiSink, s₀.sampleAttributes_.format = .pcm16Bit →
    s₀.sampleAttributes_.channelCount = 2 → s₀.usingDefaultInCaps_ = true →
    s₀.prepare = some s → ∀ ws : List (List UInt8 × List Answer), (∀ w ∈ ws, 4 ∣ w.1.length) →
    Rendered s ws := by
  intro h
  obtain ⟨r, hr, -⟩ := h oneSample oneSamplePrepared rfl rfl rfl (by decide) twoSamples (by decide)
  have hnone : oneSamplePrepared.write [1, 0, 2, 0, 3, 0, 4, 0]
      [.accepted 3, .bufFull, .accepted 9] = none := by decide
  rw [hnone] at hr
  simp at hr

end MediaFoundation.HdiAuSink
