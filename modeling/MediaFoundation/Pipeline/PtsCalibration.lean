import MediaFoundation.Lib.Runs

/-!
# The calibration of time stamps

`buffer_calibration/strict_monotonic_pts_cal.h` and `pts_calibration_strategy.h`. The time stamp of
a buffer is compared with the one that the buffer before it predicts. A time stamp that is near the
prediction stays, also where it lies before the last one; and nothing is predicted from a time
stamp that is not positive.

Conventions:

* Times are 64-bit numbers. A sum or a difference beyond 63 bits, and the absolute value of the
  least number, are undefined: no result.
* The buffers of one session are corrected in order, with the start time and the thresholds that
  were set before.
-/

namespace MediaFoundation.PtsCalibration

def hstTimeNone : Int := -1

def hstMsecond : Int := 1000000

structure AVBuffer where
  pts : Int
  dts : Int
  duration : Int

structure StrictMonotonicPtsCal where
  startTime_ : Int := hstTimeNone
  startTimeDiffThreshold_ : Int := 5 * hstMsecond
  ptsDiffThreshold_ : Int := 10 * hstMsecond
  firstSeenBuffer_ : Bool := true
  lastPts_ : Int := hstTimeNone
  lastDuration_ : Int := 0

-- 64-bit arithmetic

def checked (n : Int) : Option Int := if -2 ^ 63 ≤ n ∧ n < 2 ^ 63 then some n else none

def distance (a b : Int) : Option Int := (checked (a - b)).bind fun d => checked |d|

theorem distance_some {a b : Int} (h : |a - b| < 2 ^ 63) : distance a b = some |a - b| := by
  have habs := abs_lt.mp h
  have hpos := abs_nonneg (a - b)
  have hdiff : checked (a - b) = some (a - b) := by
    rw [checked, if_pos]
    omega
  rw [distance, hdiff, Option.bind_some, checked, if_pos]
  omega

theorem distance_none {a b : Int} (h : ¬ |a - b| < 2 ^ 63) : distance a b = none := by
  rw [distance]
  by_cases hdiff : -2 ^ 63 ≤ a - b ∧ a - b < 2 ^ 63
  · rw [checked, if_pos hdiff, Option.bind_some, checked, if_neg]
    exact fun hin => h hin.2
  · rw [checked, if_neg hdiff]
    rfl

-- CorrectPts

namespace StrictMonotonicPtsCal

def startPts (cal : StrictMonotonicPtsCal) (ptr : AVBuffer) : Option Int :=
  if cal.startTime_ ≠ hstTimeNone then
    (distance ptr.pts cal.startTime_).map fun diff =>
      if cal.startTimeDiffThreshold_ < diff ∨ ptr.pts < 0 then cal.startTime_ else ptr.pts
  else some ptr.pts

def nextPts (cal : StrictMonotonicPtsCal) (ptr : AVBuffer) : Option Int :=
  (checked (cal.lastPts_ + cal.lastDuration_)).bind fun predictedPts =>
    (distance predictedPts ptr.pts).bind fun diff =>
      if diff < cal.ptsDiffThreshold_ ∧ 0 < ptr.pts then some ptr.pts
      else (distance predictedPts ptr.dts).map fun diff =>
        if diff < cal.ptsDiffThreshold_ ∧ 0 < ptr.dts then ptr.dts else predictedPts

def correctPts (cal : StrictMonotonicPtsCal) (ptr : AVBuffer) :
    Option (AVBuffer × StrictMonotonicPtsCal) :=
  let pts :=
    if cal.firstSeenBuffer_ then cal.startPts ptr
    else if 0 < cal.lastPts_ then cal.nextPts ptr
    else some ptr.pts
  pts.map fun pts =>
    ({ ptr with pts },
      { cal with firstSeenBuffer_ := false, lastPts_ := pts, lastDuration_ := ptr.duration })

end StrictMonotonicPtsCal

-- A session

/-- The calibration, and the buffers as it has left them. -/
structure Session where
  cal : StrictMonotonicPtsCal
  corrected : List AVBuffer := []

def step (s : Session) (ptr : AVBuffer) : Option Session :=
  (s.cal.correctPts ptr).map fun x => ⟨x.2, s.corrected ++ [x.1]⟩

def opened (startTime startTimeDiffThreshold ptsDiffThreshold : Int) : Session :=
  { cal :=
      { startTime_ := startTime
        startTimeDiffThreshold_ := startTimeDiffThreshold
        ptsDiffThreshold_ := ptsDiffThreshold } }

/-- What is wanted of a buffer behind another one; whether it has to be later is given. -/
def Follows (threshold : Int) (later : Prop) (a b : AVBuffer) : Prop :=
  |b.pts - (a.pts + a.duration)| < threshold ∧ (later → a.pts < b.pts)

/-- Each time stamp is near the one that is predicted, and they are strictly increasing, from the
first buffer on or from the one after it. -/
def StrictlyMonotonic (threshold : Int) (fromFirst : Bool) (bufs : List AVBuffer) : Prop :=
  ∀ i a b, bufs[i]? = some a → bufs[i + 1]? = some b →
    Follows threshold (fromFirst = true ∨ 0 < i) a b

theorem strictlyMonotonic_concat {threshold : Int} {fromFirst : Bool} {bufs : List AVBuffer}
    {b : AVBuffer} :
    StrictlyMonotonic threshold fromFirst (bufs ++ [b]) ↔
      StrictlyMonotonic threshold fromFirst bufs ∧
        ∀ a, bufs.getLast? = some a →
          Follows threshold (fromFirst = true ∨ 1 < bufs.length) a b := by
  constructor
  · refine fun h => ⟨fun i a c ha hc => ?_, fun a ha => ?_⟩
    · have hi := (List.getElem?_eq_some_iff.mp hc).1
      refine h i a c ?_ ?_
      · rw [List.getElem?_append_left (by omega), ha]
      · rw [List.getElem?_append_left hi, hc]
    · rw [List.getLast?_eq_getElem?] at ha
      have hi := (List.getElem?_eq_some_iff.mp ha).1
      have hfollows := h (bufs.length - 1) a b
        (by rw [List.getElem?_append_left hi, ha])
        (by rw [Nat.sub_add_cancel (by omega), List.getElem?_concat_length])
      exact ⟨hfollows.1, fun hlater => hfollows.2 (hlater.imp_right fun h => by omega)⟩
  · rintro ⟨h, hlast⟩ i a c ha hc
    have hi := (List.getElem?_eq_some_iff.mp hc).1
    rw [List.length_append, List.length_singleton] at hi
    rw [List.getElem?_append_left (by omega)] at ha
    rcases Nat.lt_or_ge (i + 1) bufs.length with hin | hend
    · rw [List.getElem?_append_left hin] at hc
      exact h i a c ha hc
    · have hlength : bufs.length = i + 1 := by omega
      rw [← hlength, List.getElem?_concat_length] at hc
      cases hc
      have hgetLast : bufs.getLast? = some a := by
        rw [List.getLast?_eq_getElem?, hlength, Nat.add_sub_cancel, ha]
      obtain ⟨hnear, hmore⟩ := hlast a hgetLast
      exact ⟨hnear, fun hlater => hmore (hlater.imp_right fun h => by omega)⟩

-- One buffer

/-- The time stamp is defined, and what is accepted of the buffer is later if it has to be. -/
def FitsPrediction (cal : StrictMonotonicPtsCal) (later : Prop) (ptr : AVBuffer) : Prop :=
  cal.lastPts_ + cal.lastDuration_ < 2 ^ 63 ∧
    |cal.lastPts_ + cal.lastDuration_ - ptr.pts| < 2 ^ 63 ∧
    if |cal.lastPts_ + cal.lastDuration_ - ptr.pts| < cal.ptsDiffThreshold_ ∧ 0 < ptr.pts then
      later → cal.lastPts_ < ptr.pts
    else
      |cal.lastPts_ + cal.lastDuration_ - ptr.dts| < 2 ^ 63 ∧
        (|cal.lastPts_ + cal.lastDuration_ - ptr.dts| < cal.ptsDiffThreshold_ ∧ 0 < ptr.dts →
          later → cal.lastPts_ < ptr.dts)

/-- The buffer comes out right: the first one when its distance from the start time is defined, and
one for which nothing is predicted when it is right as it is. -/
def Fits (fromFirst : Bool) (s : Session) (ptr : AVBuffer) : Prop :=
  let later := fromFirst = true ∨ 1 < s.corrected.length
  if s.cal.firstSeenBuffer_ then
    s.cal.startTime_ ≠ hstTimeNone → |ptr.pts - s.cal.startTime_| < 2 ^ 63
  else if 0 < s.cal.lastPts_ then FitsPrediction s.cal later ptr
  else
    |ptr.pts - (s.cal.lastPts_ + s.cal.lastDuration_)| < s.cal.ptsDiffThreshold_ ∧
      (later → s.cal.lastPts_ < ptr.pts)

instance (cal : StrictMonotonicPtsCal) (later : Prop) [Decidable later] (ptr : AVBuffer) :
    Decidable (FitsPrediction cal later ptr) := by
  unfold FitsPrediction
  infer_instance

instance (fromFirst : Bool) (s : Session) (ptr : AVBuffer) : Decidable (Fits fromFirst s ptr) := by
  unfold Fits
  infer_instance

variable {cal : StrictMonotonicPtsCal} {ptr : AVBuffer} {later : Prop}

/-- **One prediction.** -/
theorem nextPts_fits (hlast : 0 < cal.lastPts_) (hduration : 0 < cal.lastDuration_)
    (hthreshold : 0 < cal.ptsDiffThreshold_) :
    (∃ pts, cal.nextPts ptr = some pts ∧
      |pts - (cal.lastPts_ + cal.lastDuration_)| < cal.ptsDiffThreshold_ ∧
        (later → cal.lastPts_ < pts)) ↔ FitsPrediction cal later ptr := by
  unfold StrictMonotonicPtsCal.nextPts FitsPrediction
  by_cases hsum : cal.lastPts_ + cal.lastDuration_ < 2 ^ 63
  · have hchecked : checked (cal.lastPts_ + cal.lastDuration_) =
        some (cal.lastPts_ + cal.lastDuration_) := by
      rw [checked, if_pos]
      omega
    obtain ⟨predicted, hpredicted⟩ :
        ∃ predicted, cal.lastPts_ + cal.lastDuration_ = predicted := ⟨_, rfl⟩
    rw [hchecked, Option.bind_some, hpredicted]
    by_cases hpts : |predicted - ptr.pts| < 2 ^ 63
    · rw [distance_some hpts, Option.bind_some]
      split
      next hnear =>
        -- the time stamp stays
        rw [abs_sub_comm] at hnear
        constructor
        · rintro ⟨pts, hsome, -, hmore⟩
          cases hsome
          exact ⟨hpredicted ▸ hsum, hpts, hmore⟩
        · rintro ⟨-, -, hmore⟩
          exact ⟨ptr.pts, rfl, hnear.1, hmore⟩
      next =>
        by_cases hdts : |predicted - ptr.dts| < 2 ^ 63
        · rw [distance_some hdts, Option.map_some]
          split
          next hnear =>
            -- the decoding time stamp is taken
            have hnear' := hnear.1
            rw [abs_sub_comm] at hnear'
            constructor
            · rintro ⟨pts, hsome, -, hmore⟩
              cases hsome
              exact ⟨hpredicted ▸ hsum, hpts, hdts, fun _ => hmore⟩
            · rintro ⟨-, -, -, hmore⟩
              exact ⟨ptr.dts, rfl, hnear', hmore hnear⟩
          next hfar =>
            -- the prediction is taken
            refine ⟨fun _ => ⟨hpredicted ▸ hsum, hpts, hdts, fun hnear => absurd hnear hfar⟩,
              fun _ => ⟨predicted, rfl, ?_, fun _ => by omega⟩⟩
            rw [sub_self, abs_zero]
            exact hthreshold
        · rw [distance_none hdts, Option.map_none]
          exact ⟨fun ⟨_, hnone, _⟩ => (nomatch hnone), fun h => absurd h.2.2.1 hdts⟩
    · rw [distance_none hpts, Option.bind_none]
      exact ⟨fun ⟨_, hnone, _⟩ => (nomatch hnone), fun h => absurd h.2.1 hpts⟩
  · have hchecked : checked (cal.lastPts_ + cal.lastDuration_) = none := by
      rw [checked, if_neg]
      omega
    rw [hchecked, Option.bind_none]
    exact ⟨fun ⟨_, hnone, _⟩ => (nomatch hnone), fun h => absurd h.1 hsum⟩

/-- The calibration keeps what it has left in the last buffer. -/
structure Linked (threshold : Int) (s : Session) : Prop where
  threshold : s.cal.ptsDiffThreshold_ = threshold
  seen : s.cal.firstSeenBuffer_ = s.corrected.isEmpty
  last : ∀ a, s.corrected.getLast? = some a →
    s.cal.lastPts_ = a.pts ∧ s.cal.lastDuration_ = a.duration ∧ 0 < a.duration

variable {threshold : Int} {fromFirst : Bool} {s t : Session}

theorem step_some (h : step s ptr = some t) : ∃ pts, t =
    ⟨{ s.cal with firstSeenBuffer_ := false, lastPts_ := pts, lastDuration_ := ptr.duration },
      s.corrected ++ [{ ptr with pts }]⟩ := by
  obtain ⟨x, hx, rfl⟩ := Option.map_eq_some_iff.mp h
  obtain ⟨pts, -, rfl⟩ := Option.map_eq_some_iff.mp hx
  exact ⟨pts, rfl⟩

theorem Linked.step (h : Linked threshold s) (hduration : 0 < ptr.duration)
    (hstep : step s ptr = some t) : Linked threshold t := by
  obtain ⟨pts, rfl⟩ := step_some hstep
  refine ⟨h.threshold, ?_, fun a ha => ?_⟩
  · show false = (s.corrected ++ _).isEmpty
    cases s.corrected <;> rfl
  · rw [List.getLast?_concat] at ha
    cases ha
    exact ⟨rfl, rfl, hduration⟩

/-- **One buffer** keeps what is wanted when it fits, and only then. -/
theorem step_fits (hthreshold : 0 < threshold) (h : Linked threshold s)
    (hmonotonic : StrictlyMonotonic threshold fromFirst s.corrected) :
    (∃ t, step s ptr = some t ∧ StrictlyMonotonic threshold fromFirst t.corrected) ↔
      Fits fromFirst s ptr := by
  have hstep : (∃ t, step s ptr = some t ∧ StrictlyMonotonic threshold fromFirst t.corrected) ↔
      ∃ pts, (if s.cal.firstSeenBuffer_ then s.cal.startPts ptr
        else if 0 < s.cal.lastPts_ then s.cal.nextPts ptr else some ptr.pts) = some pts ∧
        ∀ a, s.corrected.getLast? = some a →
          |pts - (a.pts + a.duration)| < threshold ∧
            (fromFirst = true ∨ 1 < s.corrected.length → a.pts < pts) := by
    constructor
    · rintro ⟨t, ht, hright⟩
      obtain ⟨x, hx, rfl⟩ := Option.map_eq_some_iff.mp ht
      obtain ⟨pts, hpts, rfl⟩ := Option.map_eq_some_iff.mp hx
      exact ⟨pts, hpts, (strictlyMonotonic_concat.mp hright).2⟩
    · rintro ⟨pts, hpts, hright⟩
      have hnext : step s ptr = some
          ⟨{ s.cal with firstSeenBuffer_ := false, lastPts_ := pts, lastDuration_ := ptr.duration },
            s.corrected ++ [{ ptr with pts }]⟩ := by
        rw [step, StrictMonotonicPtsCal.correctPts, hpts]
        rfl
      exact ⟨_, hnext, strictlyMonotonic_concat.mpr ⟨hmonotonic, hright⟩⟩
  rw [hstep, Fits, h.seen]
  cases hlast : s.corrected.getLast? with
  | none =>
    rw [List.getLast?_eq_none_iff.mp hlast]
    show (∃ pts, s.cal.startPts ptr = some pts ∧ _) ↔
      (s.cal.startTime_ ≠ hstTimeNone → |ptr.pts - s.cal.startTime_| < 2 ^ 63)
    unfold StrictMonotonicPtsCal.startPts
    split
    next hstart =>
      by_cases hdistance : |ptr.pts - s.cal.startTime_| < 2 ^ 63
      · rw [distance_some hdistance]
        exact ⟨fun _ _ => hdistance, fun _ => ⟨_, rfl, nofun⟩⟩
      · rw [distance_none hdistance]
        exact ⟨fun ⟨_, hnone, _⟩ => (nomatch hnone), fun h => absurd (h hstart) hdistance⟩
    next hstart => exact ⟨fun _ h => absurd h hstart, fun _ => ⟨_, rfl, nofun⟩⟩
  | some a =>
    obtain ⟨hpts, hduration, hpos⟩ := h.last a hlast
    have hempty : s.corrected.isEmpty = false := by
      cases hc : s.corrected with
      | nil => rw [hc] at hlast; cases hlast
      | cons b bufs => rfl
    have hall : ∀ {P : AVBuffer → Prop}, (∀ b, some a = some b → P b) ↔ P a :=
      ⟨fun hP => hP a rfl, fun hP b hb => Option.some.inj hb ▸ hP⟩
    simp only [hempty, Bool.false_eq_true, if_false, hall, ← hpts, ← hduration, ← h.threshold]
    split
    next hlast =>
      exact nextPts_fits hlast (by rw [hduration]; exact hpos) (by rw [h.threshold]; exact hthreshold)
    next =>
      constructor
      · rintro ⟨pts, hsome, hright⟩
        cases hsome
        exact hright
      · exact fun hright => ⟨ptr.pts, rfl, hright⟩

-- All buffers

/-- What has come out wrong stays so. -/
theorem strictlyMonotonic_of_run {bufs : List AVBuffer} (hrun : Runs.run step s bufs = some t)
    (h : StrictlyMonotonic threshold fromFirst t.corrected) :
    StrictlyMonotonic threshold fromFirst s.corrected := by
  induction bufs generalizing s with
  | nil =>
    cases hrun
    exact h
  | cons ptr bufs ih =>
    obtain ⟨u, hu, hrun⟩ := Runs.run_cons_some.mp hrun
    obtain ⟨pts, rfl⟩ := step_some hu
    exact (strictlyMonotonic_concat.mp (ih hrun)).1

theorem run_fits (hthreshold : 0 < threshold) {bufs : List AVBuffer}
    (hdurations : ∀ ptr ∈ bufs, 0 < ptr.duration) (h : Linked threshold s)
    (hmonotonic : StrictlyMonotonic threshold fromFirst s.corrected) :
    (∃ t, Runs.run step s bufs = some t ∧ StrictlyMonotonic threshold fromFirst t.corrected) ↔
      Runs.Along step (Fits fromFirst) s bufs := by
  induction bufs generalizing s with
  | nil => exact ⟨fun _ => trivial, fun _ => ⟨s, rfl, hmonotonic⟩⟩
  | cons ptr bufs ih =>
    obtain ⟨hduration, hdurations⟩ := List.forall_mem_cons.mp hdurations
    constructor
    · rintro ⟨t, hrun, hright⟩
      obtain ⟨u, hu, hrun⟩ := Runs.run_cons_some.mp hrun
      have hu' := strictlyMonotonic_of_run hrun hright
      refine .cons ((step_fits hthreshold h hmonotonic).mp ⟨u, hu, hu'⟩) hu ?_
      exact (ih hdurations (h.step hduration hu) hu').mp ⟨t, hrun, hright⟩
    · intro halong
      obtain ⟨u, hu, hu'⟩ := (step_fits hthreshold h hmonotonic).mpr halong.1
      obtain ⟨t, hrun, hright⟩ := (ih hdurations (h.step hduration hu) hu').mpr
        (Runs.along_tail halong hu)
      exact ⟨t, Runs.run_cons_some.mpr ⟨u, hu, hrun⟩, hright⟩

/-- **The corrected time stamps are strictly monotonic** exactly when every buffer fits. -/
theorem corrects_iff (startTime startTimeDiffThreshold ptsDiffThreshold : Int) (fromFirst : Bool)
    {bufs : List AVBuffer} (hthreshold : 0 < ptsDiffThreshold)
    (hdurations : ∀ ptr ∈ bufs, 0 < ptr.duration) :
    (∃ t, Runs.run step (opened startTime startTimeDiffThreshold ptsDiffThreshold) bufs = some t ∧
      StrictlyMonotonic ptsDiffThreshold fromFirst t.corrected) ↔
      Runs.Along step (Fits fromFirst)
        (opened startTime startTimeDiffThreshold ptsDiffThreshold) bufs :=
  run_fits hthreshold hdurations ⟨rfl, rfl, nofun⟩ nofun

/-- Three buffers of 5 ms, the second of them 12 ms late and the third with a time stamp. -/
def lateBuffers : List AVBuffer :=
  [⟨1000000, 0, 5000000⟩, ⟨18000000, 0, 5000000⟩, ⟨12000000, 0, 5000000⟩]

theorem corrects_iff_lateBuffers :
    (∃ t, Runs.run step (opened hstTimeNone 0 (10 * hstMsecond)) lateBuffers = some t ∧
      StrictlyMonotonic (10 * hstMsecond) true t.corrected) :=
  (corrects_iff hstTimeNone 0 (10 * hstMsecond) true (by decide) (by decide)).mpr (by decide)

/-- A time stamp before the last one that is near the prediction; and time stamps behind zero. -/
theorem pts_not_monotonic :
    (∃ t, Runs.run step (opened hstTimeNone 0 (10 * hstMsecond))
        [⟨20000000, 0, 5000000⟩, ⟨25000000, 0, 5000000⟩, ⟨24000000, 0, 5000000⟩] = some t ∧
      t.corrected.map AVBuffer.pts = [20000000, 25000000, 24000000] ∧
      ¬ StrictlyMonotonic (10 * hstMsecond) false t.corrected) ∧
    ∃ t, Runs.run step (opened hstTimeNone 0 (10 * hstMsecond))
        [⟨0, 0, 5000000⟩, ⟨-5000000, 0, 5000000⟩, ⟨-20000000, 0, 5000000⟩] = some t ∧
      t.corrected.map AVBuffer.pts = [0, -5000000, -20000000] ∧
      ¬ StrictlyMonotonic (10 * hstMsecond) false t.corrected :=
  ⟨⟨_, rfl, by decide, fun h => absurd ((h 1 _ _ rfl rfl).2 (Or.inr Nat.one_pos)) (by decide)⟩,
    ⟨_, rfl, by decide, fun h => absurd ((h 1 _ _ rfl rfl).2 (Or.inr Nat.one_pos)) (by decide)⟩⟩

end MediaFoundation.PtsCalibration
