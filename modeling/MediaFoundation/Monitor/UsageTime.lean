import MediaFoundation.Monitor.OpenUsages
import MediaFoundation.Lib.Runs

/-!
# Usage time

An event is followed by all three vectors at once, and so is every sequence of
events that the open beans follow: every episode of more than thirty seconds is
handed over once, when it ends.
-/

namespace MediaFoundation.MediaMonitor

open Episodes

-- Events

section Events

variable {s : EventAggregate} {event : Event} {cur : Usage → Stream → Current Condition}
  {last : Nat} {isBluetooth : Int32 → Bool} {u : Usage} {systemVol : Int32}

def FollowsEvent (u : Usage) (v : List EventBean) (handed : List Handed)
    (cur : Stream → Current Condition) (systemVol : Int32) (event : Event) : Prop :=
  Follows u v handed cur event.stream
    ⟨event.time.toNat, u.after event.stream systemVol event ((cur event.stream).map Prod.fst)⟩

theorem Follows.retold {v : List EventBean} {handed handed' : List Handed}
    {cur : Stream → Current Condition} {x : Stream} {o : Obs Condition}
    (h : Follows u v handed cur x o) (htold : ∀ y, MediaMonitor.told u y handed' =
      MediaMonitor.told u y handed) : Follows u v handed' cur x o where
  tracks := h.tracks
  told := (htold x).trans h.told
  others y hy := (htold y).trans (h.others y hy)

theorem after_concerned (h : u.concerns event.stream = true) (old : Option Condition) :
    u.after event.stream systemVol event old = u.next systemVol event old := by
  unfold Usage.after
  rw [h]
  exact if_pos (by simp)

theorem followsEvent_unchanged {v : List EventBean} {handed : List Handed}
    {cur : Stream → Current Condition} (hT : Tracks u v cur last)
    (hle : last ≤ event.time.toNat) (hsilent : Silent u handed)
    (hsame : u.concerns event.stream = true →
      u.next systemVol event ((cur event.stream).map Prod.fst) =
        (cur event.stream).map Prod.fst) :
    FollowsEvent u v handed cur systemVol event := by
  refine (follows_unchanged hT hle ?_).retold hsilent
  unfold Usage.after
  split
  case isTrue h =>
    rw [Bool.and_eq_true] at h
    exact (hsame h.1).symm
  case isFalse => rfl

theorem followsEvent_of_next {v : List EventBean} {handed : List Handed}
    {cur : Stream → Current Condition} {value : Option Condition}
    (hconcerns : u.concerns event.stream = true)
    (hnext : u.next systemVol event ((cur event.stream).map Prod.fst) = value)
    (h : Follows u v handed cur event.stream ⟨event.time.toNat, value⟩) :
    FollowsEvent u v handed cur systemVol event := by
  unfold FollowsEvent
  rw [after_concerned hconcerns, hnext]
  exact h

theorem concerns_muted : Usage.muted.concerns event.stream = true ↔
    event.bean.getIntValue .ISOUTPUT = 0 := by
  show (!(event.bean.getIntValue .ISOUTPUT != 0)) = true ↔ _
  rw [Bool.not_eq_true', bne_eq_false_iff_eq]

theorem concerns_volume : Usage.volume.concerns event.stream = true ↔
    event.bean.getIntValue .ISOUTPUT ≠ 0 := bne_iff_ne

/-- A handler of the usage `w` follows the event for `w`, and neither changes nor hands over
anything of the others. -/
structure Handles (w : Usage) (s : EventAggregate) (r : EventAggregate × List Handed)
    (cur : Usage → Stream → Current Condition) (systemVol : Int32) (event : Event) : Prop where
  follows : FollowsEvent w (w.vector r.1) r.2 (cur w) systemVol event
  frame : ∀ u ≠ w, u.vector r.1 = u.vector s
  silent : ∀ u ≠ w, Silent u r.2

namespace Handles

variable {w : Usage} {r r₁ r₂ r₃ : EventAggregate × List Handed}

theorem of_next {value : Option Condition} (hT : Tracks w (w.vector s) (cur w) last)
    (hle : last ≤ event.time.toNat) (hframe : ∀ u ≠ w, u.vector r.1 = u.vector s)
    (hsilent : ∀ u ≠ w, Silent u r.2) (hskip : ¬ w.concerns event.stream = true → r = (s, []))
    (hnext : w.next systemVol event ((cur w event.stream).map Prod.fst) = value)
    (h : w.concerns event.stream = true →
      Follows w (w.vector r.1) r.2 (cur w) event.stream ⟨event.time.toNat, value⟩) :
    Handles w s r cur systemVol event := by
  refine ⟨?_, hframe, hsilent⟩
  by_cases hconcerns : w.concerns event.stream = true
  · exact followsEvent_of_next hconcerns hnext (h hconcerns)
  · rw [hskip hconcerns]
    exact followsEvent_unchanged hT hle silent_nil fun h => absurd h hconcerns

theorem only (h : Handles w s r cur systemVol event)
    (hT : ∀ u, Tracks u (u.vector s) (cur u) last) (hle : last ≤ event.time.toNat)
    (hsame : ∀ u ≠ w, ∀ old, Usage.next u systemVol event old = old) (u : Usage) :
    FollowsEvent u (u.vector r.1) r.2 (cur u) systemVol event := by
  by_cases hu : u = w
  · rw [hu]
    exact h.follows
  · rw [h.frame u hu]
    exact followsEvent_unchanged (hT u) hle (h.silent u hu) fun _ => hsame u hu _

theorem all (hdevice : Handles .device s r₁ cur systemVol event)
    (hmuted : Handles .muted r₁.1 r₂ cur systemVol event)
    (hvolume : Handles .volume r₂.1 r₃ cur systemVol event) (u : Usage) :
    FollowsEvent u (u.vector r₃.1) (r₁.2 ++ r₂.2 ++ r₃.2) (cur u) systemVol event := by
  cases u with
  | device =>
    rw [hvolume.frame .device (by decide), hmuted.frame .device (by decide)]
    refine hdevice.follows.retold fun y => ?_
    rw [told_append, told_append, hmuted.silent _ (by decide) y, hvolume.silent _ (by decide) y,
      List.append_nil, List.append_nil]
  | muted =>
    rw [hvolume.frame .muted (by decide)]
    refine hmuted.follows.retold fun y => ?_
    rw [told_append, told_append, hdevice.silent _ (by decide) y,
      hvolume.silent _ (by decide) y, List.nil_append, List.append_nil]
  | volume =>
    refine hvolume.follows.retold fun y => ?_
    rw [told_append, told_append, hdevice.silent _ (by decide) y, hmuted.silent _ (by decide) y,
      List.nil_append, List.nil_append]

end Handles

theorem skips_muted (h : ¬ Usage.muted.concerns event.stream = true) :
    event.bean.getIntValue .ISOUTPUT ≠ 0 := fun hin => h (concerns_muted.mpr hin)

theorem skips_volume (h : ¬ Usage.volume.concerns event.stream = true) :
    event.bean.getIntValue .ISOUTPUT = 0 := not_not.mp fun hout => h (concerns_volume.mpr hout)

-- what a handler leaves alone
theorem addToCaptureMuteUsage_frame (bean : EventBean) (now : UInt64) (s : EventAggregate) :
    (∀ u ≠ Usage.muted, u.vector (addToCaptureMuteUsage bean now s) = u.vector s) ∧
    (addToCaptureMuteUsage bean now s).systemVol = s.systemVol := by
  unfold addToCaptureMuteUsage
  split
  · exact ⟨fun _ _ => rfl, rfl⟩
  · split
    · exact ⟨fun _ _ => rfl, rfl⟩
    · exact ⟨fun u hu => by cases u <;> first | rfl | exact absurd rfl hu, rfl⟩

theorem addToVolumeVector_frame (bean : EventBean) (now : UInt64) (s : EventAggregate) :
    (∀ u ≠ Usage.volume, u.vector (addToVolumeVector bean now s) = u.vector s) ∧
    (addToVolumeVector bean now s).systemVol = s.systemVol := by
  unfold addToVolumeVector
  split
  · exact ⟨fun _ _ => rfl, rfl⟩
  · exact ⟨fun u hu => by cases u <;> first | rfl | exact absurd rfl hu, rfl⟩

theorem handleCaptureMuted_frame (bean : EventBean) (now : UInt64) (s : EventAggregate) :
    (∀ u ≠ Usage.muted, u.vector (handleCaptureMuted bean now s).1 = u.vector s) ∧
    (handleCaptureMuted bean now s).1.systemVol = s.systemVol := by
  unfold handleCaptureMuted
  split
  · exact ⟨fun _ _ => rfl, rfl⟩
  · exact ⟨fun u hu => by cases u <;> first | rfl | exact absurd rfl hu, rfl⟩

theorem handleDeviceChangeForCaptureMuted_frame (bean : EventBean) (now : UInt64)
    (s : EventAggregate) :
    (∀ u ≠ Usage.muted, u.vector (handleDeviceChangeForCaptureMuted bean now s).1 = u.vector s) ∧
    (handleDeviceChangeForCaptureMuted bean now s).1.systemVol = s.systemVol := by
  unfold handleDeviceChangeForCaptureMuted
  split
  · exact ⟨fun _ _ => rfl, rfl⟩
  · exact ⟨fun u hu => by cases u <;> first | rfl | exact absurd rfl hu, rfl⟩

theorem handleDeviceChangeForVolume_frame (bean : EventBean) (now : UInt64)
    (s : EventAggregate) :
    (∀ u ≠ Usage.volume, u.vector (handleDeviceChangeForVolume bean now s).1 = u.vector s) ∧
    (handleDeviceChangeForVolume bean now s).1.systemVol = s.systemVol := by
  unfold handleDeviceChangeForVolume
  split
  · exact ⟨fun _ _ => rfl, rfl⟩
  · exact ⟨fun u hu => by cases u <;> first | rfl | exact absurd rfl hu, rfl⟩

theorem silent_handleCaptureMuted (bean : EventBean) (now : UInt64) (s : EventAggregate)
    (u : Usage) (hu : u ≠ .muted) : Silent u (handleCaptureMuted bean now s).2 := by
  unfold handleCaptureMuted
  split
  · exact silent_nil
  · exact silent_endUsage (fun _ => silent_of_usage rfl hu.symm) _ _ _ _

theorem silent_handleDeviceChangeForCaptureMuted (bean : EventBean) (now : UInt64)
    (s : EventAggregate) (u : Usage) (hu : u ≠ .muted) :
    Silent u (handleDeviceChangeForCaptureMuted bean now s).2 := by
  unfold handleDeviceChangeForCaptureMuted
  split
  · exact silent_nil
  · exact silent_moveUsage (fun _ => silent_of_usage rfl hu.symm) _ _ _ _ _

theorem silent_handleDeviceChangeForVolume (bean : EventBean) (now : UInt64)
    (s : EventAggregate) (u : Usage) (hu : u ≠ .volume) :
    Silent u (handleDeviceChangeForVolume bean now s).2 := by
  unfold handleDeviceChangeForVolume
  split
  · exact silent_nil
  · exact silent_moveUsage (fun _ => silent_of_usage rfl hu.symm) _ _ _ _ _

theorem silent_handleVolumeChange (bean : EventBean) (now : UInt64) (s : EventAggregate)
    (u : Usage) (hu : u ≠ .volume) : Silent u (handleVolumeChange bean now s).2 := by
  unfold handleVolumeChange
  split
  · exact silent_nil
  · dsimp only
    split
    · exact silent_nil
    · split
      · exact silent_of_usage rfl hu.symm
      · exact silent_nil

theorem device_frame {t : EventAggregate} (hmuted : t.captureMutedVector = s.captureMutedVector)
    (hvolume : t.volumeVector = s.volumeVector) (u : Usage) (hu : u ≠ .device) :
    u.vector t = u.vector s := by
  cases u with
  | device => exact absurd rfl hu
  | muted => exact hmuted
  | volume => exact hvolume

theorem started_follows (hid : event.bean.eventId = .STREAM_CHANGE)
    (hstate : event.bean.getIntValue .STATE = RUNNING)
    (hT : ∀ u, Tracks u (u.vector s) (cur u) last) (hle : last ≤ event.time.toNat)
    (hF : StartFollowed s event) (u : Usage) :
    FollowsEvent u (u.vector (addToVolumeVector event.bean event.time
      (addToCaptureMuteUsage event.bean event.time
        (addToDeviceUsage isBluetooth event.bean event.time s)))) [] (cur u) s.systemVol event := by
  have hnext : ∀ u old, Usage.next u s.systemVol event old = u.started s.systemVol event old := by
    intro u old
    unfold Usage.next
    rw [hid]
    exact if_pos hstate
  set device := addToDeviceUsage isBluetooth event.bean event.time s
  set muted := addToCaptureMuteUsage event.bean event.time device with hmutedDef
  obtain ⟨hframeM, hvol⟩ := addToCaptureMuteUsage_frame event.bean event.time device
  have hvolumeV : muted.volumeVector = s.volumeVector := hframeM .volume (by decide)
  obtain ⟨hFdevice, hFmuted, hFvolume⟩ := hF
  have hdevice : Handles .device s (device, []) cur s.systemVol event :=
    .of_next (hT .device) hle (device_frame rfl rfl) (fun _ _ => silent_nil)
      (fun h => absurd rfl h) (hnext .device _) fun h =>
        addToDeviceUsage_follows isBluetooth (hT .device) hle (hFdevice h)
  have hmuted : Handles .muted device (muted, []) cur s.systemVol event :=
    .of_next (hT .muted) hle hframeM (fun _ _ => silent_nil)
      (fun h => congrArg (·, []) (if_pos (skips_muted h))) (hnext .muted _) fun h =>
        addToCaptureMuteUsage_follows (s := device) (hT .muted) hle (concerns_muted.mp h)
          (hFmuted h)
  have hTv : Tracks .volume muted.volumeVector (cur .volume) last := by
    rw [hvolumeV]
    exact hT .volume
  have hvolume : Handles .volume muted (addToVolumeVector event.bean event.time muted, []) cur
      s.systemVol event := by
    refine .of_next hTv hle (addToVolumeVector_frame _ _ _).1 (fun _ _ => silent_nil)
      (fun h => congrArg (·, []) (if_pos (skips_volume h))) (hnext .volume _) fun h => ?_
    have hadd := addToVolumeVector_follows hTv hle (concerns_volume.mp h) (by
      rw [hvolumeV]
      exact hFvolume h)
    rw [hvol] at hadd
    exact hadd
  exact hdevice.all hmuted hvolume u

theorem stopped_follows (hid : event.bean.eventId = .STREAM_CHANGE)
    (hrunning : event.bean.getIntValue .STATE ≠ RUNNING)
    (hstate : event.bean.getIntValue .STATE = STOPPED ∨ event.bean.getIntValue .STATE = PAUSED ∨
      event.bean.getIntValue .STATE = RELEASED)
    (hT : ∀ u, Tracks u (u.vector s) (cur u) last) (hle : last ≤ event.time.toNat)
    (hnow : event.time.toNat < 2 ^ 63) (hF : EndFollowed s event) (u : Usage) :
    let device := handleDeviceUsage isBluetooth event.bean event.time s
    let muted := handleCaptureMuted event.bean event.time device.1
    let volume := handleStreamChangeForVolume event.bean event.time muted.1
    FollowsEvent u (u.vector volume.1) (device.2 ++ muted.2 ++ volume.2) (cur u) systemVol event := by
  intro device muted volume
  have hnext : ∀ u old, Usage.next u systemVol event old = none := by
    intro u old
    unfold Usage.next
    rw [hid]
    exact (if_neg hrunning).trans (if_pos hstate)
  have hframeM := (handleCaptureMuted_frame event.bean event.time device.1).1
  have hvolumeV : muted.1.volumeVector = s.volumeVector := hframeM .volume (by decide)
  obtain ⟨hFdevice, hFmuted, hFvolume⟩ := hF
  have hdevice : Handles .device s device cur systemVol event :=
    .of_next (hT .device) hle (device_frame rfl rfl)
      (fun _ hu => silent_endUsage (silent_handDeviceUsage isBluetooth hu) _ _ _ _)
      (fun h => absurd rfl h) (hnext .device _) fun h =>
        handleDeviceUsage_follows isBluetooth (hT .device) hle hnow (hFdevice h)
  have hmuted : Handles .muted device.1 muted cur systemVol event :=
    .of_next (hT .muted) hle hframeM (silent_handleCaptureMuted _ _ _)
      (fun h => if_pos (skips_muted h)) (hnext .muted _) fun h =>
        handleCaptureMuted_follows (s := device.1) (hT .muted) hle hnow (concerns_muted.mp h)
          (hFmuted h)
  have hTv : Tracks .volume muted.1.volumeVector (cur .volume) last := by
    rw [hvolumeV]
    exact hT .volume
  have hvolume : Handles .volume muted.1 volume cur systemVol event := by
    refine .of_next hTv hle (fun u hu => ?_)
      (fun _ hu => silent_endUsage (fun _ => silent_of_usage rfl hu.symm) _ _ _ _)
      (fun h => handleStreamChangeForVolume_capture (skips_volume h)) (hnext .volume _)
      fun h => handleStreamChangeForVolume_follows hTv hle hnow (concerns_volume.mp h) ?_
    · cases u <;> first | rfl | exact absurd rfl hu
    · rw [hvolumeV]
      exact hFvolume h
  exact hdevice.all hmuted hvolume u

theorem moved_follows (hid : event.bean.eventId = .DEVICE_CHANGE)
    (hT : ∀ u, Tracks u (u.vector s) (cur u) last) (hle : last ≤ event.time.toNat)
    (hnow : event.time.toNat < 2 ^ 63) (hF : MoveFollowed s event) (u : Usage) :
    FollowsEvent u (u.vector (handleDeviceChangeEvent event.bean event.time s).1)
      (handleDeviceChangeEvent event.bean event.time s).2 (cur u) systemVol event := by
  have hnext : ∀ u old, Usage.next u systemVol event old =
      old.map fun c => c.onDevice (event.bean.getIntValue .DEVICETYPE) := by
    intro u old
    unfold Usage.next
    rw [hid]
  set device := handleDeviceChangeForDeviceUsage event.bean event.time s with hdeviceDef
  set muted := handleDeviceChangeForCaptureMuted event.bean event.time device.1 with hmutedDef
  set volume := handleDeviceChangeForVolume event.bean event.time muted.1 with hvolumeDef
  have hframeM := (handleDeviceChangeForCaptureMuted_frame event.bean event.time device.1).1
  have hvolumeV : muted.1.volumeVector = s.volumeVector := hframeM .volume (by decide)
  obtain ⟨hFdevice, hFmuted, hFvolume⟩ := hF
  have hdevice : Handles .device s device cur systemVol event :=
    .of_next (hT .device) hle (device_frame rfl rfl)
      (fun _ hu => silent_moveUsage (fun _ => silent_of_usage rfl hu.symm) _ _ _ _ _)
      (fun h => absurd rfl h) (hnext .device _) fun h =>
        handleDeviceChangeForDeviceUsage_follows (hT .device) hle hnow (hFdevice h)
  have hmuted : Handles .muted device.1 muted cur systemVol event :=
    .of_next (hT .muted) hle hframeM (silent_handleDeviceChangeForCaptureMuted _ _ _)
      (fun h => if_pos (skips_muted h)) (hnext .muted _) fun h =>
        handleDeviceChangeForCaptureMuted_follows (s := device.1) (hT .muted) hle hnow
          (concerns_muted.mp h) (hFmuted h)
  have hTv : Tracks .volume muted.1.volumeVector (cur .volume) last := by
    rw [hvolumeV]
    exact hT .volume
  have hvolume : Handles .volume muted.1 volume cur systemVol event := by
    refine .of_next hTv hle (handleDeviceChangeForVolume_frame _ _ _).1
      (silent_handleDeviceChangeForVolume _ _ _) (fun h => if_pos (skips_volume h))
      (hnext .volume _)
      fun h => handleDeviceChangeForVolume_follows hTv hle hnow (concerns_volume.mp h) ?_
    rw [hvolumeV]
    exact hFvolume h
  exact hdevice.all hmuted hvolume u

theorem muted_follows (hid : event.bean.eventId = .CAPTURE_MUTE_STATUS_CHANGE)
    (hT : ∀ u, Tracks u (u.vector s) (cur u) last) (hle : last ≤ event.time.toNat)
    (hnow : event.time.toNat < 2 ^ 63) (hF : MuteFollowed s event) (u : Usage) :
    FollowsEvent u (u.vector (handleCaptureMutedStatusChange event.bean event.time s).1)
      (handleCaptureMutedStatusChange event.bean event.time s).2 (cur u) systemVol event := by
  have hnext : ∀ u old, Usage.next u systemVol event old =
      if u = .muted then u.started systemVol event old else old := by
    intro u old
    unfold Usage.next
    rw [hid]
  have hother : ∀ u ≠ Usage.muted, ∀ old, Usage.next u systemVol event old = old := fun u hu old =>
    (hnext u old).trans (if_neg hu)
  unfold handleCaptureMutedStatusChange
  by_cases hmuted : event.bean.getIntValue .MUTED = 0
  · rw [if_pos hmuted]
    refine Handles.only (w := .muted) (.of_next (hT .muted) hle (handleCaptureMuted_frame _ _ _).1
      (silent_handleCaptureMuted _ _ _) (fun h => if_pos (skips_muted h)) (hnext .muted _)
      fun h => ?_) hT hle hother u
    rw [if_pos rfl, Usage.started, if_pos hmuted]
    exact handleCaptureMuted_follows (hT .muted) hle hnow (concerns_muted.mp h) fun e he hex =>
      ⟨(hF h e he hex).1, (hF h e he hex).2 hmuted⟩
  · rw [if_neg hmuted]
    refine Handles.only (w := .muted) (.of_next (hT .muted) hle
      (addToCaptureMuteUsage_frame _ _ _).1 (fun _ _ => silent_nil)
      (fun h => congrArg (·, []) (if_pos (skips_muted h))) (hnext .muted _) fun h => ?_)
      hT hle hother u
    exact addToCaptureMuteUsage_follows (hT .muted) hle (concerns_muted.mp h) fun e he hex =>
      ⟨hmuted, (hF h e he hex).1⟩

theorem leveled_follows (hid : event.bean.eventId = .VOLUME_CHANGE)
    (hT : ∀ u, Tracks u (u.vector s) (cur u) last) (hle : last ≤ event.time.toNat)
    (hnow : event.time.toNat < 2 ^ 63) (hF : LevelFollowed s event) (u : Usage) :
    FollowsEvent u (u.vector (handleVolumeChange event.bean event.time s).1)
      (handleVolumeChange event.bean event.time s).2 (cur u) systemVol event := by
  have hnext : ∀ u old, Usage.next u systemVol event old = if u = .volume then
      old.map fun c => c.atLevel (event.bean.getIntValue .SYSVOLUME) else old := by
    intro u old
    unfold Usage.next
    rw [hid]
  have hother : ∀ u ≠ Usage.volume, ∀ old, Usage.next u systemVol event old = old := fun u hu old =>
    (hnext u old).trans (if_neg hu)
  by_cases hout : event.bean.getIntValue .ISOUTPUT = 0
  · have hsame : handleVolumeChange event.bean event.time s = (s, []) := if_pos hout
    rw [hsame]
    refine followsEvent_unchanged (hT u) hle silent_nil fun h => hother u ?_ _
    rintro rfl
    exact concerns_volume.mp h hout
  · have hframe : ∀ u ≠ Usage.volume,
        u.vector (handleVolumeChange event.bean event.time s).1 = u.vector s := by
      intro u hu
      unfold handleVolumeChange
      rw [if_neg hout]
      cases u <;> first | rfl | exact absurd rfl hu
    exact Handles.only (.of_next (hT .volume) hle hframe (silent_handleVolumeChange _ _ _)
      (fun h => absurd (skips_volume h) hout) (hnext .volume _) fun h =>
        handleVolumeChange_follows (hT .volume) hle hnow hout (stream_of_volume hout) (hF h))
      hT hle hother u

/-- One event keeps the beans and the episodes together, and what is handed over is what the
event ends. -/
theorem event_follows (isBluetooth : Int32 → Bool)
    (hT : ∀ u, Tracks u (u.vector s) (cur u) last)
    (hle : last ≤ event.time.toNat) (hF : Followed s event) (u : Usage) :
    FollowsEvent u (u.vector (updateAggregateEventList isBluetooth event s).1)
      (updateAggregateEventList isBluetooth event s).2 (cur u) s.systemVol event := by
  obtain ⟨hnow, hF⟩ := hF
  unfold updateAggregateEventList
  cases hid : event.bean.eventId with
  | DEVICE_CHANGE =>
    rw [hid] at hF
    exact moved_follows hid hT hle hnow hF u
  | CAPTURE_MUTE_STATUS_CHANGE =>
    rw [hid] at hF
    exact muted_follows hid hT hle hnow hF u
  | VOLUME_CHANGE =>
    rw [hid] at hF
    exact leveled_follows hid hT hle hnow hF u
  | STREAM_CHANGE =>
    rw [hid] at hF
    dsimp only at hF ⊢
    unfold handleStreamChangeEvent
    dsimp only
    split
    case isTrue hrunning => exact started_follows hid hrunning hT hle (hF.1 hrunning) u
    case isFalse hrunning =>
      split
      case isTrue hstate => exact stopped_follows hid hrunning hstate hT hle hnow (hF.2 hstate) u
      case isFalse hstate =>
        refine followsEvent_unchanged (hT u) hle silent_nil fun _ => ?_
        unfold Usage.next
        rw [hid]
        exact (if_neg hrunning).trans (if_neg hstate)
  | _ =>
    refine followsEvent_unchanged (hT u) hle silent_nil fun _ => ?_
    unfold Usage.next
    rw [hid]

theorem systemVol_after : (updateAggregateEventList isBluetooth event s).1.systemVol =
    volumeAfter s.systemVol event := by
  unfold updateAggregateEventList volumeAfter
  cases hid : event.bean.eventId with
  | VOLUME_CHANGE =>
    dsimp only
    unfold handleVolumeChange
    by_cases hout : event.bean.getIntValue .ISOUTPUT = 0
    · rw [if_pos hout, if_neg fun h => stream_playback.mp h.2 hout]
    · rw [if_neg hout, if_pos ⟨rfl, stream_playback.mpr hout⟩]
  | STREAM_CHANGE =>
    rw [if_neg fun h => nomatch h.1]
    dsimp only [handleStreamChangeEvent]
    split
    · exact (addToVolumeVector_frame _ _ _).2.trans (addToCaptureMuteUsage_frame _ _ _).2
    · split
      · exact (handleCaptureMuted_frame event.bean event.time
          (handleDeviceUsage isBluetooth event.bean event.time s).1).2
      · rfl
  | DEVICE_CHANGE =>
    rw [if_neg fun h => nomatch h.1]
    exact (handleDeviceChangeForVolume_frame _ _ _).2.trans
      (handleDeviceChangeForCaptureMuted_frame _ _ _).2
  | CAPTURE_MUTE_STATUS_CHANGE =>
    rw [if_neg fun h => nomatch h.1]
    dsimp only [handleCaptureMutedStatusChange]
    split
    · exact (handleCaptureMuted_frame _ _ _).2
    · exact (addToCaptureMuteUsage_frame _ _ _).2
  | _ =>
    rw [if_neg fun h => nomatch h.1]

end Events

-- Runs

section Runs

variable (isBluetooth : Int32 → Bool)

def aggregateStep (s : EventAggregate) (event : Event) : Option EventAggregate :=
  some (updateAggregateEventList isBluetooth event s).1

theorem observe_fst (c : Current Condition) (o : Obs Condition) :
    (observe c o).map Prod.fst = o.value := by
  by_cases h : c.map Prod.fst = o.value
  · rw [(observe_same (u := .device) h).1, h]
  · rw [observe_other h, Option.map_map]
    exact Option.map_id'

theorem handedOver_eq {events : List Event} {s : EventAggregate}
    {cur : Usage → Stream → Current Condition} {last : Nat}
    (hT : ∀ u, Tracks u (u.vector s) (cur u) last)
    (hlast : ∀ event ∈ events, last ≤ event.time.toNat)
    (hsorted : events.Pairwise fun a b => a.time ≤ b.time)
    (hgood : Runs.Along (aggregateStep isBluetooth) Followed s events) (u : Usage) (x : Stream) :
    (handedOver isBluetooth s events).map (told u x) =
      reports u.worth (cur u x)
        (observations u x s.systemVol ((cur u x).map Prod.fst) events) := by
  induction events generalizing s cur last with
  | nil => rfl
  | cons event events ih =>
    rw [List.pairwise_cons] at hsorted
    have hevent := event_follows isBluetooth hT
      (hlast event (List.mem_cons_self ..)) hgood.1
    -- the episodes of every stream after the event
    let cur' : Usage → Stream → Current Condition := fun u y =>
      observe (cur u y)
        ⟨event.time.toNat, u.after y s.systemVol event ((cur u y).map Prod.fst)⟩
    have hother : ∀ u y, y ≠ event.stream →
        u.after y s.systemVol event ((cur u y).map Prod.fst) = (cur u y).map Prod.fst := by
      intro u y hy
      unfold Usage.after
      refine if_neg ?_
      simp only [Bool.and_eq_true, decide_eq_true_eq, not_and]
      exact fun _ heq => hy heq.symm
    have hcur' : ∀ u, cur' u = Function.update (cur u) event.stream (cur' u event.stream) := by
      intro u
      funext y
      by_cases hy : y = event.stream
      · rw [hy, Function.update_self]
      · rw [Function.update_of_ne hy]
        exact (observe_same (u := u) (hother u y hy).symm).1
    have hT' : ∀ u, Tracks u (u.vector (updateAggregateEventList isBluetooth event s).1) (cur' u)
        event.time.toNat := fun u => hcur' u ▸ (hevent u).tracks
    have hrest := ih hT' (fun e he => UInt64.le_iff_toNat_le.mp (hsorted.1 e he)) hsorted.2 hgood.2
    have hfst : (cur' u x).map Prod.fst = u.after x s.systemVol event ((cur u x).map Prod.fst) :=
      observe_fst _ _
    rw [hfst, systemVol_after] at hrest
    rw [handedOver, List.map_cons, hrest, observations, reports]
    congr 1
    by_cases hx : x = event.stream
    · rw [hx]
      exact (hevent u).told
    · rw [(hevent u).others x hx]
      exact (observe_same (hother u x hx).symm).2.symm

/-- Usage time is counted once: whatever streams start, stop, move and change their level, as
long as the open beans follow the events. -/
theorem usage_counted_once {events : List Event}
    (hsorted : events.Pairwise fun a b => a.time ≤ b.time)
    (hgood : Runs.Along (aggregateStep isBluetooth) Followed {} events) (u : Usage) (x : Stream) :
    CountedOnce (observations u x UNINITIALIZED none events) u.worth
      ((handedOver isBluetooth {} events).map (told u x)) := by
  have hstart : ∀ u, Tracks u (u.vector {}) (fun _ => none) 0 := by
    intro u
    have hempty : u.vector {} = [] := by
      cases u <;> rfl
    rw [hempty]
    exact ⟨List.nodup_nil, fun e he => absurd he List.not_mem_nil, fun _ h => absurd rfl h⟩
  have h := handedOver_eq isBluetooth hstart (fun _ _ => Nat.zero_le _) hsorted hgood u x
  rw [h]
  exact countedOnce_reports _

def exampleEvent (time : UInt64) (eventId : EventId) (ints : List (Key × Int32)) : Event where
  time := time
  bean := { eventId := eventId, intMap := fun key => List.lookup key ((.STREAMID, 7) :: ints) }

def mutedCapture : List Event :=
  [exampleEvent 0 .STREAM_CHANGE [(.ISOUTPUT, 0), (.STATE, 2), (.DEVICETYPE, 15), (.MUTED, 1)],
    exampleEvent 40 .STREAM_CHANGE [(.ISOUTPUT, 0), (.STATE, 5), (.DEVICETYPE, 15)]]

theorem usage_counted_once_mutedCapture :
    CountedOnce (observations .muted ⟨false, 7⟩ UNINITIALIZED none mutedCapture) Usage.muted.worth
      ((handedOver (fun _ => false) {} mutedCapture).map (told .muted ⟨false, 7⟩)) ∧
    (handedOver (fun _ => false) {} mutedCapture).map (told .muted ⟨false, 7⟩) =
      [[], [(⟨15, UNINITIALIZED⟩, 40)]] := by
  have hgood : Runs.Along (aggregateStep fun _ => false) Followed {} mutedCapture := by
    refine ⟨⟨by decide, fun _ => ⟨?_, ?_, ?_⟩, fun h => ?_⟩,
      ⟨by decide, fun h => ?_, fun _ => ⟨?_, ?_, ?_⟩⟩, trivial⟩
    · intro _ e he
      cases he
    · intro _ e he
      cases he
    · intro _ e he
      cases he
    · exact absurd h (by decide)
    · exact absurd h (by decide)
    · intro _ e he _
      obtain rfl := List.mem_singleton.mp he
      exact ⟨by decide, fun _ => rfl⟩
    · intro _ e he _
      obtain rfl := List.mem_singleton.mp he
      exact ⟨by decide, fun _ => rfl⟩
    · exact fun h => absurd h (by decide)
  exact ⟨usage_counted_once _ (by decide) hgood .muted ⟨false, 7⟩, by decide +kernel⟩

def movedPlayback : List Event :=
  [exampleEvent 0 .STREAM_CHANGE [(.ISOUTPUT, 1), (.STATE, 2), (.DEVICETYPE, 2)],
    exampleEvent 40 .DEVICE_CHANGE [(.ISOUTPUT, 1), (.DEVICETYPE, 3)],
    exampleEvent 100 .STREAM_CHANGE [(.ISOUTPUT, 1), (.STATE, 3), (.DEVICETYPE, 3)]]

/-- The sixty seconds on the second device are handed over as the forty on the first. -/
theorem usage_counted_twice :
    ¬ ∀ (isBluetooth : Int32 → Bool) (events : List Event),
      events.Pairwise (fun a b => a.time ≤ b.time) → ∀ u x,
        CountedOnce (observations u x UNINITIALIZED none events) u.worth
          ((handedOver isBluetooth {} events).map (told u x)) := by
  intro h
  have hcounted := h (fun _ => false) movedPlayback (by decide) .device ⟨true, 7⟩
  have htold : (handedOver (fun _ => false) {} movedPlayback).map (told .device ⟨true, 7⟩) =
      [[], [(⟨2, UNINITIALIZED⟩, 40)], [(⟨3, UNINITIALIZED⟩, 40)]] := by decide +kernel
  have hobs : observations .device ⟨true, 7⟩ UNINITIALIZED none movedPlayback =
      [⟨0, some ⟨2, UNINITIALIZED⟩⟩, ⟨40, some ⟨3, UNINITIALIZED⟩⟩, ⟨100, none⟩] := by
    decide +kernel
  rw [htold, hobs] at hcounted
  have hmem := hcounted.complete ⟨3, UNINITIALIZED⟩ 1 2 ⟨by decide, by decide, fun n hlo hhi => by
    obtain rfl : n = 1 := by omega
    rfl⟩ (by decide) (by decide) (by decide)
  revert hmem
  decide

end Runs

end MediaFoundation.MediaMonitor
