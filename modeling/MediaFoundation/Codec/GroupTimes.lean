import MediaFoundation.Pipeline.PtsCalibration

/-!
# The time stamps inside a buffer group

`ReceiveBufferLocked` of `audio_ffmpeg_decoder_plugin.cpp`. A group of frames has one time stamp,
that of its first frame; the others are interpolated from the distance of the last two groups and
the largest group seen.

Conventions:

* A signed overflow and a division by zero are undefined: no result.
* Output buffers have room for a frame.
-/

namespace MediaFoundation.GroupTimes

open PtsCalibration (checked distance distance_some)

structure AudioFfmpegDecoderPlugin where
  preBufferGroupPts_ : Int := 0
  curBufferGroupPts_ : Int := 0
  bufferNum_ : Int := 1
  bufferIndex_ : Int := 1
  bufferGroupPtsDistance : Int := 0

namespace AudioFfmpegDecoderPlugin

/-- A frame with a time stamp. -/
def startGroup (d : AudioFfmpegDecoderPlugin) (pts : Int) : Option AudioFfmpegDecoderPlugin :=
  let dist :=
    if d.bufferGroupPtsDistance = 0 then distance pts d.curBufferGroupPts_
    else some d.bufferGroupPtsDistance
  dist.map fun dist =>
    { preBufferGroupPts_ := d.curBufferGroupPts_
      curBufferGroupPts_ := pts
      bufferNum_ := if d.bufferNum_ ≤ d.bufferIndex_ then d.bufferIndex_ else d.bufferNum_
      bufferIndex_ := 1
      bufferGroupPtsDistance := dist }

/-- A frame without one. -/
def continueGroup (d : AudioFfmpegDecoderPlugin) : Option (AudioFfmpegDecoderPlugin × Int) :=
  if 2 ^ 31 ≤ d.bufferIndex_ + 1 then none
  else (distance d.curBufferGroupPts_ d.preBufferGroupPts_).bind fun dist =>
    let d := { d with bufferIndex_ := d.bufferIndex_ + 1 }
    if d.bufferGroupPtsDistance < dist then
      some ({ d with preBufferGroupPts_ := d.curBufferGroupPts_ }, d.curBufferGroupPts_)
    else (checked (dist * (d.bufferIndex_ - 1))).bind fun n =>
      if d.bufferNum_ = 0 then none
      else (checked (d.curBufferGroupPts_ + n.tdiv d.bufferNum_)).map fun pts => (d, pts)

/-- `ReceiveBufferLocked`, for a frame of the decoder: the time stamp that it leaves with. -/
def receive (d : AudioFfmpegDecoderPlugin) : Option Int → Option (AudioFfmpegDecoderPlugin × Int)
  | some pts => (d.startGroup pts).map fun d => (d, pts)
  | none => d.continueGroup

def flush (d : AudioFfmpegDecoderPlugin) : AudioFfmpegDecoderPlugin := d

end AudioFfmpegDecoderPlugin

open AudioFfmpegDecoderPlugin

inductive Event where
  | frame (pts : Option Int)
  | flush

def receiveAll (d : AudioFfmpegDecoderPlugin) : List Event → Option (List Int)
  | [] => some []
  | .flush :: es => receiveAll d.flush es
  | .frame pts :: es => (d.receive pts).bind fun x => (receiveAll x.1 es).map (x.2 :: ·)

-- What is expected

def nextGroup : List Event → Option Int
  | .frame (some pts) :: _ => some pts
  | .frame none :: es => nextGroup es
  | _ => none

/-- Groups start later and later, anew from each flush on. -/
def Grouped : Option Int → List Event → Prop
  | _, [] => True
  | _, .flush :: es => Grouped none es
  | last, .frame (some pts) :: es =>
      0 ≤ pts ∧ pts < 2 ^ 63 ∧ (∀ q ∈ last, q < pts) ∧ Grouped (some pts) es
  | last, .frame none :: es => last.isSome ∧ Grouped last es

/-- `prev` is the time stamp of the frame before. -/
def Inside : Int → List Event → List Int → Prop
  | _, [], outs => outs = []
  | prev, .flush :: es, outs => Inside prev es outs
  | _, .frame (some pts) :: es, out :: outs => out = pts ∧ Inside out es outs
  | prev, .frame none :: es, out :: outs =>
      prev ≤ out ∧ (∀ p ∈ nextGroup es, out < p) ∧ Inside out es outs
  | _, .frame _ :: _, [] => False

/-- The frame has its own time stamp, or the two last groups lie further apart than the first
ones did, or the guess is small enough. -/
def Foreseen (d : AudioFfmpegDecoderPlugin) (next : Option Int) : Option Int → Prop
  | some _ => True
  | none =>
      let dist := |d.curBufferGroupPts_ - d.preBufferGroupPts_|
      d.bufferIndex_ + 1 < 2 ^ 31 ∧
        (dist ≤ d.bufferGroupPtsDistance →
          dist * d.bufferIndex_ < 2 ^ 63 ∧
          d.curBufferGroupPts_ + dist * d.bufferIndex_ / d.bufferNum_ < 2 ^ 63 ∧
          ∀ p ∈ next, dist * d.bufferIndex_ < (p - d.curBufferGroupPts_) * d.bufferNum_)

def AllForeseen (d : AudioFfmpegDecoderPlugin) : List Event → Prop
  | [] => True
  | .flush :: es => AllForeseen d.flush es
  | .frame pts :: es =>
      Foreseen d (nextGroup es) pts ∧ ∀ x, d.receive pts = some x → AllForeseen x.1 es

theorem nextGroup_later {last : Int} : ∀ {es : List Event}, Grouped (some last) es →
    ∀ p ∈ nextGroup es, last < p := by
  intro es
  induction es with
  | nil => simp [nextGroup]
  | cons e es ih =>
    intro h
    rcases e with (_ | pts) | _
    · exact ih h.2
    · simpa [nextGroup] using h.2.2.1 last rfl
    · simp [nextGroup]

-- One frame

/-- `prev` is what the guess would be for the frame before. -/
structure Sound (d : AudioFfmpegDecoderPlugin) (last : Option Int) (prev : Int) : Prop where
  num : 1 ≤ d.bufferNum_
  index : 1 ≤ d.bufferIndex_
  cur : 0 ≤ d.curBufferGroupPts_ ∧ d.curBufferGroupPts_ < 2 ^ 63
  pre : 0 ≤ d.preBufferGroupPts_ ∧ d.preBufferGroupPts_ < 2 ^ 63
  group : ∀ q ∈ last, q = d.curBufferGroupPts_ ∧
    (d.bufferGroupPtsDistance < |d.curBufferGroupPts_ - d.preBufferGroupPts_| → prev = q) ∧
    prev ≤ q + |d.curBufferGroupPts_ - d.preBufferGroupPts_| * (d.bufferIndex_ - 1) / d.bufferNum_

theorem distance_of_nonneg {a b : Int} (ha : 0 ≤ a ∧ a < 2 ^ 63) (hb : 0 ≤ b ∧ b < 2 ^ 63) :
    distance a b = some |a - b| :=
  distance_some (by rw [abs_lt]; omega)

section OneFrame

variable {d : AudioFfmpegDecoderPlugin} {last : Option Int} {prev pts : Int}

theorem Sound.start (hd : Sound d last prev) (h0 : 0 ≤ pts) (h1 : pts < 2 ^ 63) :
    ∃ d', d.receive (some pts) = some (d', pts) ∧ Sound d' (some pts) pts := by
  have hdist : ∃ dist, (if d.bufferGroupPtsDistance = 0 then distance pts d.curBufferGroupPts_
      else some d.bufferGroupPtsDistance) = some dist := by
    rw [distance_of_nonneg ⟨h0, h1⟩ hd.cur]
    split <;> simp
  obtain ⟨dist, hdist⟩ := hdist
  refine ⟨_, by rw [receive, startGroup, hdist]; rfl, ?_, le_rfl, ⟨h0, h1⟩, hd.cur, ?_⟩
  · have hnum := hd.num
    have hindex := hd.index
    show 1 ≤ if d.bufferNum_ ≤ d.bufferIndex_ then d.bufferIndex_ else d.bufferNum_
    split <;> assumption
  · intro q hq
    have hq : pts = q := by simpa using hq
    simp [hq]

/-- The groups lie further apart than the first ones did: the time stamp of the group. -/
theorem Sound.repeated (hd : Sound d last prev) (hindex : d.bufferIndex_ + 1 < 2 ^ 31)
    (hfar : d.bufferGroupPtsDistance < |d.curBufferGroupPts_ - d.preBufferGroupPts_|) :
    ∃ d', d.receive none = some (d', d.curBufferGroupPts_) ∧
      Sound d' last d.curBufferGroupPts_ := by
  refine ⟨{ d with
    bufferIndex_ := d.bufferIndex_ + 1
    preBufferGroupPts_ := d.curBufferGroupPts_ }, ?_, ?_⟩
  · rw [receive, continueGroup, if_neg (by omega), distance_of_nonneg hd.cur hd.pre,
      Option.bind_some, if_pos hfar]
  · have hpos := hd.index
    refine ⟨hd.num, by show 1 ≤ d.bufferIndex_ + 1; omega, hd.cur, hd.cur, ?_⟩
    intro q hq
    have hcur := (hd.group q hq).1
    simp [hcur]

theorem Sound.guessed (hd : Sound d last prev)
    (hnear : |d.curBufferGroupPts_ - d.preBufferGroupPts_| ≤ d.bufferGroupPtsDistance) :
    let n := |d.curBufferGroupPts_ - d.preBufferGroupPts_| * d.bufferIndex_
    let guess := d.curBufferGroupPts_ + n / d.bufferNum_
    (d.bufferIndex_ + 1 < 2 ^ 31 ∧ n < 2 ^ 63 ∧ guess < 2 ^ 63 →
      ∃ d', d.receive none = some (d', guess) ∧ Sound d' last guess) ∧
    (¬ (d.bufferIndex_ + 1 < 2 ^ 31 ∧ n < 2 ^ 63 ∧ guess < 2 ^ 63) → d.receive none = none) := by
  intro n guess
  have hnum := hd.num
  have hindex := hd.index
  have hcur := hd.cur
  have hn : 0 ≤ n := mul_nonneg (abs_nonneg _) (by omega)
  have hguess : 0 ≤ n / d.bufferNum_ := Int.ediv_nonneg hn (by omega)
  have hdiv : n.tdiv d.bufferNum_ = n / d.bufferNum_ := Int.tdiv_eq_ediv_of_nonneg hn
  have hreceive : d.receive none = if 2 ^ 31 ≤ d.bufferIndex_ + 1 then none else
      (checked n).bind fun n => (checked (d.curBufferGroupPts_ + n.tdiv d.bufferNum_)).map
        fun pts => ({ d with bufferIndex_ := d.bufferIndex_ + 1 }, pts) := by
    rw [receive, continueGroup, distance_of_nonneg hd.cur hd.pre]
    simp only [Option.bind_some, if_neg (not_lt.mpr hnear), add_sub_cancel_right,
      if_neg (show d.bufferNum_ ≠ 0 by omega)]
    rfl
  constructor
  · rintro ⟨h31, hfits, hsum⟩
    refine ⟨{ d with bufferIndex_ := d.bufferIndex_ + 1 }, ?_, hnum, ?_, hcur, hd.pre, ?_⟩
    · rw [hreceive, if_neg (by omega), checked, if_pos (by omega), Option.bind_some, hdiv,
        checked, if_pos (by omega)]
      rfl
    · show 1 ≤ d.bufferIndex_ + 1
      omega
    · intro q hq
      refine ⟨(hd.group q hq).1, fun hfar => absurd hfar (not_lt.mpr hnear), ?_⟩
      rw [(hd.group q hq).1]
      simp [guess, n]
  · intro h
    rw [hreceive]
    by_cases h31 : 2 ^ 31 ≤ d.bufferIndex_ + 1
    · rw [if_pos h31]
    by_cases hfits : n < 2 ^ 63
    · rw [if_neg h31, checked, if_pos (by omega), Option.bind_some, hdiv, checked,
        if_neg (by omega)]
      rfl
    · rw [if_neg h31, checked, if_neg (by omega)]
      rfl

end OneFrame

-- All frames

section AllFrames

variable {d : AudioFfmpegDecoderPlugin} {prev : Int} {es : List Event}
  {x : AudioFfmpegDecoderPlugin × Int}

theorem inside_some {pts : Int} (hx : d.receive (some pts) = some x) :
    (∃ outs, receiveAll d (.frame (some pts) :: es) = some outs ∧
        Inside prev (.frame (some pts) :: es) outs) ↔
      x.2 = pts ∧ ∃ outs, receiveAll x.1 es = some outs ∧ Inside x.2 es outs := by
  rw [receiveAll, hx, Option.bind_some]
  simp [Inside, and_left_comm]

theorem inside_none (hx : d.receive none = some x) :
    (∃ outs, receiveAll d (.frame none :: es) = some outs ∧
        Inside prev (.frame none :: es) outs) ↔
      prev ≤ x.2 ∧ (∀ p ∈ nextGroup es, x.2 < p) ∧
        ∃ outs, receiveAll x.1 es = some outs ∧ Inside x.2 es outs := by
  rw [receiveAll, hx, Option.bind_some]
  simp only [Option.map_eq_some_iff]
  constructor
  · rintro ⟨_, ⟨outs, hreceived, rfl⟩, hprev, hnext, hinside⟩
    exact ⟨hprev, hnext, outs, hreceived, hinside⟩
  · rintro ⟨hprev, hnext, outs, hreceived, hinside⟩
    exact ⟨_, ⟨outs, hreceived, rfl⟩, hprev, hnext, hinside⟩

theorem not_inside_none (hx : d.receive none = none) :
    ¬ ∃ outs, receiveAll d (.frame none :: es) = some outs ∧
      Inside prev (.frame none :: es) outs := by
  rw [receiveAll, hx]
  simp

theorem allForeseen_none (hx : d.receive none = some x) :
    AllForeseen d (.frame none :: es) ↔ Foreseen d (nextGroup es) none ∧ AllForeseen x.1 es := by
  rw [AllForeseen, hx]
  simp

/-- A guess is never before the last one, and it is before the next group if it is foreseen. -/
theorem Sound.guess_inside (hd : Sound d (some d.curBufferGroupPts_) prev) (p : Int) :
    let n := |d.curBufferGroupPts_ - d.preBufferGroupPts_| * d.bufferIndex_
    prev ≤ d.curBufferGroupPts_ + n / d.bufferNum_ ∧
      (d.curBufferGroupPts_ + n / d.bufferNum_ < p ↔
        n < (p - d.curBufferGroupPts_) * d.bufferNum_) := by
  intro n
  have hnum := hd.num
  obtain ⟨-, -, hprev⟩ := hd.group _ rfl
  constructor
  · refine hprev.trans (Int.add_le_add_left (Int.ediv_le_ediv (by omega) ?_) _)
    exact mul_le_mul_of_nonneg_left (by omega) (abs_nonneg _)
  · rw [← Int.ediv_lt_iff_lt_mul (by omega)]
    omega

end AllFrames

theorem inside_iff_of_sound : ∀ (es : List Event) {d : AudioFfmpegDecoderPlugin}
    {last : Option Int} {prev : Int}, Sound d last prev → Grouped last es →
    ((∃ outs, receiveAll d es = some outs ∧ Inside prev es outs) ↔ AllForeseen d es) := by
  intro es
  induction es with
  | nil =>
    intro d last prev hd hes
    simp [receiveAll, Inside, AllForeseen]
  | cons e es ih =>
    intro d last prev hd hes
    rcases e with (_ | pts) | _
    · obtain ⟨q, rfl⟩ := Option.isSome_iff_exists.mp hes.1
      obtain ⟨rfl, hfar, -⟩ := hd.group q rfl
      by_cases hnear : |d.curBufferGroupPts_ - d.preBufferGroupPts_| ≤ d.bufferGroupPtsDistance
      · obtain ⟨hfits, hnone⟩ := hd.guessed hnear
        by_cases hin : d.bufferIndex_ + 1 < 2 ^ 31 ∧
            |d.curBufferGroupPts_ - d.preBufferGroupPts_| * d.bufferIndex_ < 2 ^ 63 ∧
            d.curBufferGroupPts_ +
              |d.curBufferGroupPts_ - d.preBufferGroupPts_| * d.bufferIndex_ / d.bufferNum_ < 2 ^ 63
        · obtain ⟨d', hreceive, hd'⟩ := hfits hin
          rw [inside_none hreceive, allForeseen_none hreceive, ← ih hd' hes.2, ← and_assoc]
          refine and_congr_left' ⟨fun h => ⟨hin.1, fun _ => ⟨hin.2.1, hin.2.2, ?_⟩⟩,
            fun h => ⟨?_, ?_⟩⟩
          · exact fun p hp => (hd.guess_inside p).2.mp (h.2 p hp)
          · exact (hd.guess_inside 0).1
          · exact fun p hp => (hd.guess_inside p).2.mpr ((h.2 hnear).2.2 p hp)
        · refine iff_of_false (not_inside_none (hnone hin)) ?_
          intro h
          exact hin ⟨h.1.1, (h.1.2 hnear).1, (h.1.2 hnear).2.1⟩
      · by_cases hin : d.bufferIndex_ + 1 < 2 ^ 31
        · obtain ⟨d', hreceive, hd'⟩ := hd.repeated hin (not_le.mp hnear)
          rw [inside_none hreceive, allForeseen_none hreceive, ← ih hd' hes.2, ← and_assoc]
          refine and_congr_left' ⟨fun _ => ⟨hin, fun h => absurd h hnear⟩, fun _ => ⟨?_, ?_⟩⟩
          · exact (hfar (not_le.mp hnear)).le
          · exact nextGroup_later hes.2
        · have hnot : d.receive none = none := by
            rw [receive, continueGroup, if_pos (by omega)]
          exact iff_of_false (not_inside_none hnot) fun h => hin h.1.1
    · obtain ⟨d', hreceive, hd'⟩ := hd.start hes.1 hes.2.1
      rw [inside_some hreceive, AllForeseen, ih hd' hes.2.2.2]
      simp [hreceive, Foreseen]
    · exact ih { hd with group := by simp } hes

theorem sound_init (prev : Int) : Sound {} none prev :=
  { num := le_rfl, index := le_rfl, cur := by decide, pre := by decide, group := by simp }

/-- The interpolated time stamps stay inside their groups, whatever groups there are between the
flushes, exactly when every one of them is foreseen. -/
theorem inside_iff (es : List Event) (hes : Grouped none es) :
    (∃ outs, receiveAll {} es = some outs ∧ Inside 0 es outs) ↔ AllForeseen {} es :=
  inside_iff_of_sound es (sound_init 0) hes

theorem inside_iff_two_groups :
    (∃ outs, receiveAll {} [.frame (some 0), .frame none, .frame (some 20), .frame none] =
      some outs ∧ Inside 0 [.frame (some 0), .frame none, .frame (some 20), .frame none] outs) ↔
    AllForeseen {} [.frame (some 0), .frame none, .frame (some 20), .frame none] :=
  inside_iff _ (by simp [Grouped])

/-- The first group starts at 100, so the second frame is put at 200; the next group starts at
150. -/
theorem guess_beyond_next_group :
    ¬ ∀ es, Grouped none es → ∃ outs, receiveAll {} es = some outs ∧ Inside 0 es outs := by
  intro h
  obtain ⟨outs, hreceived, hinside⟩ :=
    h [.frame (some 100), .frame none, .frame (some 150)] (by simp [Grouped])
  have houts : receiveAll {} [.frame (some 100), .frame none, .frame (some 150)] =
      some [100, 200, 150] := by decide
  obtain rfl := Option.some.inj (houts.symm.trans hreceived)
  simp [Inside, nextGroup] at hinside

end MediaFoundation.GroupTimes
