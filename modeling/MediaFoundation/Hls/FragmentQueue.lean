import MediaFoundation.Lib.Runs

/-!
# The fragments of a live playlist

The play list thread of `hls_playlist_downloader.cpp` hands over the fragments of
every refresh of the media playlist, and `hls_media_downloader.cpp` downloads those
that it has not started yet. The first download is only parsed: a media playlist
that is opened itself has its first fragments handed over with the second refresh,
as far as that one still lists them.

`fragmentDownloadStart` is a map by URL, and of 100000 entries the first one is
erased for the next: the smallest URL, not the oldest. A fragment that is erased
while it is listed is downloaded again. Every fragment is downloaded once and in
order exactly when no step does that, and none was gone before it was handed over
(`downloads_iff`).
-/

namespace MediaFoundation.FragmentQueue

open Std (ExtTreeMap)

-- The two threads

def maxFragmentTracking : Nat := 100000

def playListCapacity : Nat := 50

structure State where
  playList : List String := []
  fragmentDownloadStart : ExtTreeMap String Bool := ∅
  pushing : List String := []
  /-- The fragments of the first download, until the second one. -/
  parsed : List String := []
  /-- The URLs of the download requests, in order. -/
  downloads : List String := []
  window : List String := []
  /-- The fragments of all refreshes, each one where it was listed first. -/
  listed : List String := []

namespace State

/-- What is handed over and not looked at yet, or still to be handed over. -/
def pending (s : State) : List String := s.playList ++ s.pushing ++ s.parsed

def Drained (s : State) : Prop := s.pending = []

/-- After the first download: a media playlist with these fragments, or a master playlist and
none. -/
def start (first : List String) : State := { parsed := first, window := first, listed := first }

end State

def eraseFirst (m : ExtTreeMap String Bool) : ExtTreeMap String Bool :=
  match m.minKey? with
  | some url => m.erase url
  | none => m

def addNew (urls : List String) (url : String) : List String :=
  if url ∈ urls then urls else urls ++ [url]

inductive Event where
  | refresh (playList : List String)
  | push
  | fragment

def fragmentDownloadLoop (s : State) : Option State :=
  match s.playList with
  | [] => none
  | url :: playList =>
    let s := { s with playList }
    if url = "" then some s
    else if url ∈ s.fragmentDownloadStart then some s
    else
      let tracked :=
        if maxFragmentTracking ≤ s.fragmentDownloadStart.size then
          eraseFirst s.fragmentDownloadStart
        else s.fragmentDownloadStart
      some { s with
        fragmentDownloadStart := tracked.insertIfNew url true
        downloads := s.downloads ++ [url] }

def step (s : State) : Event → Option State
  | .refresh playList =>
    if s.pushing = [] then
      some { s with
        pushing := playList
        parsed := []
        window := playList
        listed := playList.foldl addNew s.listed }
    else none
  | .push =>
    match s.pushing with
    | [] => none
    | url :: pushing =>
      if s.playList.length < playListCapacity then
        some { s with playList := s.playList ++ [url], pushing }
      else none
  | .fragment => fragmentDownloadLoop s

/-- The refresh lists a rest of the window and behind it new fragments. -/
def Slides (s : State) : Event → Prop
  | .refresh playList => ∃ gone fresh, playList = s.window.drop gone ++ fresh ∧ fresh.Nodup ∧
      ∀ url ∈ fresh, url ≠ "" ∧ url ∉ s.listed
  | _ => True

/-- What is listed again has not been erased, and what was only parsed is listed again; no
fragment that waits is erased. -/
def Remembers (s : State) : Event → Prop
  | .push => True
  | .refresh playList => s.parsed <+: playList ∧
      ∀ url ∈ playList, url ∈ s.downloads → url ∈ s.fragmentDownloadStart
  | .fragment =>
    ∀ url ∈ s.playList.head?, url ∉ s.fragmentDownloadStart →
      maxFragmentTracking ≤ s.fragmentDownloadStart.size →
        ∀ first ∈ s.fragmentDownloadStart.minKey?, first ∉ s.playList.tail ++ s.pushing ++ s.parsed

-- First occurrences

theorem addNew_of_mem {urls : List String} {url : String} (h : url ∈ urls) :
    addNew urls url = urls := if_pos h

theorem addNew_of_not_mem {urls : List String} {url : String} (h : url ∉ urls) :
    addNew urls url = urls ++ [url] := if_neg h

theorem prefix_addNew (urls : List String) (url : String) : urls <+: addNew urls url := by
  rw [addNew]
  split
  · exact List.prefix_rfl
  · exact List.prefix_append _ _

theorem prefix_foldl_addNew (l urls : List String) : urls <+: l.foldl addNew urls := by
  induction l generalizing urls with
  | nil => exact List.prefix_rfl
  | cons url l ih => exact (prefix_addNew urls url).trans (ih _)

theorem nodup_addNew {urls : List String} (h : urls.Nodup) (url : String) :
    (addNew urls url).Nodup := by
  rw [addNew]
  split
  · exact h
  next hnew => exact List.nodup_append.mpr ⟨h, List.nodup_singleton _, fun a ha b hb heq =>
      hnew (List.mem_singleton.mp hb ▸ heq ▸ ha)⟩

theorem nodup_foldl_addNew {urls : List String} (h : urls.Nodup) (l : List String) :
    (l.foldl addNew urls).Nodup := by
  induction l generalizing urls with
  | nil => exact h
  | cons url l ih => exact ih (nodup_addNew h url)

theorem mem_foldl_addNew {l urls : List String} {url : String} (h : url ∈ l) :
    url ∈ l.foldl addNew urls := by
  induction l generalizing urls with
  | nil => exact absurd h List.not_mem_nil
  | cons head l ih =>
    rcases List.mem_cons.mp h with rfl | h
    · refine (prefix_foldl_addNew l _).subset ?_
      rw [addNew]
      split
      next hmem => exact hmem
      next => exact List.mem_append_right _ List.mem_cons_self
    · exact ih h

theorem foldl_addNew_of_mem {l urls : List String} (h : ∀ url ∈ l, url ∈ urls) :
    l.foldl addNew urls = urls := by
  induction l with
  | nil => rfl
  | cons url l ih =>
    rw [List.foldl_cons, addNew_of_mem (h url List.mem_cons_self)]
    exact ih fun other hother => h other (List.mem_cons_of_mem _ hother)

theorem foldl_addNew_of_fresh {l urls : List String} (h : (urls ++ l).Nodup) :
    l.foldl addNew urls = urls ++ l := by
  induction l generalizing urls with
  | nil => rw [List.append_nil, List.foldl_nil]
  | cons url l ih =>
    have hnew : url ∉ urls := fun habs =>
      List.disjoint_of_nodup_append h habs List.mem_cons_self
    rw [List.foldl_cons, addNew_of_not_mem hnew, ih (by rw [List.append_assoc]; exact h),
      List.append_assoc]
    rfl

theorem foldl_addNew_prefix {p l : List String} (h : p <+: l) (urls : List String) :
    (p ++ l).foldl addNew urls = l.foldl addNew urls := by
  obtain ⟨q, rfl⟩ := h
  rw [List.foldl_append, List.foldl_append, List.foldl_append,
    foldl_addNew_of_mem fun url hurl => mem_foldl_addNew hurl]

-- What every step keeps

structure Sound (s : State) : Prop where
  tracked : ∀ url ∈ s.fragmentDownloadStart, url ∈ s.downloads
  size : s.fragmentDownloadStart.size ≤ maxFragmentTracking
  nonempty : ∀ url ∈ s.listed, url ≠ ""
  pending : ∀ url ∈ s.pending, url ∈ s.listed
  window : ∀ url ∈ s.window, url ∈ s.listed
  listed : s.listed.Nodup
  parsed : s.parsed = [] ∨ s = .start s.parsed

/-- Every fragment is downloaded or waits in order, and those that wait and have been
downloaded are tracked. -/
structure Remembered (s : State) : Prop where
  order : s.pending.foldl addNew s.downloads = s.listed
  tracked : ∀ url ∈ s.pending, url ∈ s.downloads → url ∈ s.fragmentDownloadStart

/-- A fragment was downloaded twice, or one waits that was erased, or one is gone that was never
handed over. -/
def Doomed (s : State) : Prop :=
  ¬ s.downloads.Nodup ∨
    (∃ url ∈ s.pending, url ∈ s.downloads ∧ url ∉ s.fragmentDownloadStart) ∨
    ∃ url ∈ s.listed, url ∉ s.window ∧ url ∉ s.pending ∧ url ∉ s.downloads

variable {s s' : State}

theorem mem_eraseFirst {m : ExtTreeMap String Bool} {url : String} :
    url ∈ eraseFirst m ↔ url ∈ m ∧ url ∉ m.minKey? := by
  rw [eraseFirst]
  cases hmin : m.minKey? with
  | none => simp
  | some first =>
    simp only [ExtTreeMap.mem_erase, Option.mem_def, Option.some.injEq]
    rw [and_comm]
    exact and_congr_right' (by simp)

theorem size_eraseFirst {m : ExtTreeMap String Bool} {n : ℕ} (h : m.size ≤ n) (hpos : 0 < n) :
    (if n ≤ m.size then eraseFirst m else m).size < n := by
  split
  next hfull =>
    rw [eraseFirst]
    cases hmin : m.minKey? with
    | none =>
      have hempty := ExtTreeMap.minKey?_eq_none_iff.mp hmin
      rw [hempty, ExtTreeMap.size_empty]
      exact hpos
    | some first =>
      have hmem := ExtTreeMap.minKey?_mem hmin
      rw [ExtTreeMap.size_erase, if_pos (ExtTreeMap.mem_iff_contains.mp hmem)]
      omega
  next hroom => exact Nat.not_le.mp hroom

def track (s : State) (url : String) : ExtTreeMap String Bool :=
  (if maxFragmentTracking ≤ s.fragmentDownloadStart.size then eraseFirst s.fragmentDownloadStart
    else s.fragmentDownloadStart).insertIfNew url true

theorem mem_track {url other : String} :
    other ∈ track s url ↔ other = url ∨ other ∈ s.fragmentDownloadStart ∧
      (maxFragmentTracking ≤ s.fragmentDownloadStart.size →
        other ∉ s.fragmentDownloadStart.minKey?) := by
  rw [track, ExtTreeMap.mem_insertIfNew]
  have heq : compare url other = .eq ↔ other = url := by
    rw [Std.LawfulEqCmp.compare_eq_iff_eq]
    exact eq_comm
  rw [heq]
  refine or_congr_right ?_
  split
  next hfull => rw [mem_eraseFirst, imp_iff_right hfull]
  next hroom => simp [hroom]

theorem fragment_cases (hs : Sound s) (hstep : fragmentDownloadLoop s = some s') :
    ∃ url playList, s.playList = url :: playList ∧
      s.pending = url :: (playList ++ s.pushing ++ s.parsed) ∧
      ((url ∈ s.fragmentDownloadStart ∧ s' = { s with playList }) ∨
        (url ∉ s.fragmentDownloadStart ∧ s' = { s with
          playList
          fragmentDownloadStart := track s url
          downloads := s.downloads ++ [url] })) := by
  rw [fragmentDownloadLoop] at hstep
  split at hstep
  next => cases hstep
  next url playList hlist =>
    have hmem : url ∈ s.listed := hs.pending url (by simp [State.pending, hlist])
    simp only [hs.nonempty url hmem, if_false] at hstep
    refine ⟨url, playList, hlist, by simp [State.pending, hlist], ?_⟩
    split at hstep
    next hin => exact .inl ⟨hin, (Option.some.inj hstep).symm⟩
    next hout => exact .inr ⟨hout, (Option.some.inj hstep).symm⟩

theorem push_cases (hstep : step s .push = some s') :
    ∃ playList pushing, s' = { s with playList, pushing } ∧ s'.pending = s.pending := by
  rw [step] at hstep
  split at hstep
  next => cases hstep
  next url pushing hpushing =>
    obtain ⟨-, hstep⟩ := Option.ite_none_right_eq_some.mp hstep
    cases hstep
    refine ⟨_, _, rfl, ?_⟩
    simp [State.pending, hpushing]

theorem refresh_cases {playList : List String} (hstep : step s (.refresh playList) = some s') :
    s'.pending = s.playList ++ s.pushing ++ playList ∧ s' = { s with
      pushing := playList
      parsed := []
      window := playList
      listed := playList.foldl addNew s.listed } := by
  obtain ⟨hnil, hstep⟩ := Option.ite_none_right_eq_some.mp hstep
  cases hstep
  exact ⟨by simp [State.pending, hnil], rfl⟩

/-- Nothing is pushed or looked at before the second download. -/
theorem parsed_nil {e : Event} (hs : Sound s) (hstep : step s e = some s')
    (he : e = .push ∨ e = .fragment) : s.parsed = [] := by
  rcases hs.parsed with hnil | hstart
  · exact hnil
  · rw [hstart] at hstep
    rcases he with rfl | rfl
    · cases hstep
    · cases hstep

theorem Slides.listed {playList : List String} (hs : Sound s) (h : Slides s (.refresh playList)) :
    (∀ url ∈ playList, url ≠ "") ∧ ∀ url ∈ playList.foldl addNew s.listed,
      url ∈ s.listed ∨ url ∈ playList := by
  obtain ⟨gone, fresh, rfl, -, hfresh⟩ := h
  refine ⟨fun url hurl => ?_, ?_⟩
  · rcases List.mem_append.mp hurl with hold | hnew
    · exact hs.nonempty url (hs.window url (List.mem_of_mem_drop hold))
    · exact (hfresh url hnew).1
  · -- what a refresh adds comes from its own list
    generalize s.window.drop gone ++ fresh = l
    generalize s.listed = urls
    induction l generalizing urls with
    | nil => exact fun url hurl => .inl hurl
    | cons head l ih =>
      intro url hurl
      rcases ih (addNew urls head) url hurl with hin | hin
      · rw [addNew] at hin
        split at hin
        · exact .inl hin
        · rcases List.mem_append.mp hin with hold | hnew
          · exact .inl hold
          · exact .inr (List.mem_singleton.mp hnew ▸ List.mem_cons_self)
      · exact .inr (List.mem_cons_of_mem _ hin)

/-- **One step** keeps what is said of every run. -/
theorem sound_step {e : Event} (hs : Sound s) (he : Slides s e) (hstep : step s e = some s') :
    Sound s' := by
  cases e with
  | refresh playList =>
    obtain ⟨hnonempty, hlisted⟩ := he.listed hs
    obtain ⟨hpending, rfl⟩ := refresh_cases hstep
    have hold : ∀ url ∈ s.listed, url ∈ playList.foldl addNew s.listed :=
      fun url hurl => (prefix_foldl_addNew playList s.listed).subset hurl
    refine ⟨hs.tracked, hs.size, fun url hurl => ?_, fun url hurl => ?_, fun url hurl => ?_,
      nodup_foldl_addNew hs.listed playList, .inl rfl⟩
    · rcases hlisted url hurl with hin | hin
      · exact hs.nonempty url hin
      · exact hnonempty url hin
    · rw [hpending] at hurl
      rcases List.mem_append.mp hurl with hin | hin
      · exact hold url (hs.pending url (List.mem_append_left _ hin))
      · exact mem_foldl_addNew hin
    · exact mem_foldl_addNew hurl
  | push =>
    have hparsed := parsed_nil hs hstep (.inl rfl)
    obtain ⟨playList, pushing, rfl, hpending⟩ := push_cases hstep
    exact ⟨hs.tracked, hs.size, hs.nonempty, hpending ▸ hs.pending, hs.window, hs.listed,
      .inl hparsed⟩
  | fragment =>
    have hparsed := parsed_nil hs hstep (.inr rfl)
    obtain ⟨url, playList, hlist, hpending, hcase⟩ := fragment_cases hs hstep
    have hrest : ∀ other ∈ playList ++ s.pushing ++ s.parsed, other ∈ s.listed :=
      fun other hother => hs.pending other (hpending ▸ List.mem_cons_of_mem _ hother)
    rcases hcase with ⟨-, rfl⟩ | ⟨hout, rfl⟩
    · exact ⟨hs.tracked, hs.size, hs.nonempty, hrest, hs.window, hs.listed, .inl hparsed⟩
    · refine ⟨fun other hother => ?_, ?_, hs.nonempty, hrest, hs.window, hs.listed, .inl hparsed⟩
      · rcases mem_track.mp hother with rfl | ⟨hin, -⟩
        · exact List.mem_append_right _ List.mem_cons_self
        · exact List.mem_append_left _ (hs.tracked other hin)
      · have hroom := size_eraseFirst hs.size (show 0 < maxFragmentTracking by decide)
        exact Nat.le_trans ExtTreeMap.size_insertIfNew_le hroom

-- Remembering

/-- **One step** that remembers. -/
theorem remembered_step {e : Event} (hs : Sound s) (hr : Remembered s) (he : Remembers s e)
    (hstep : step s e = some s') : Remembered s' := by
  cases e with
  | refresh playList =>
    obtain ⟨hpending, rfl⟩ := refresh_cases hstep
    refine ⟨?_, fun url hurl hdone => ?_⟩
    · rw [hpending]
      -- the first download, if it is still to come, is a beginning of this list
      show _ = playList.foldl addNew s.listed
      rw [← hr.order, State.pending, List.foldl_append, ← foldl_addNew_prefix he.1,
        List.foldl_append, @List.foldl_append _ _ _ _ _ s.parsed]
    · rw [hpending] at hurl
      rcases List.mem_append.mp hurl with hin | hin
      · exact hr.tracked url (List.mem_append_left _ hin) hdone
      · exact he.2 url hin hdone
  | push =>
    obtain ⟨playList, pushing, rfl, hpending⟩ := push_cases hstep
    exact ⟨hpending.symm ▸ hr.order, hpending.symm ▸ hr.tracked⟩
  | fragment =>
    obtain ⟨url, playList, hlist, hpending, hcase⟩ := fragment_cases hs hstep
    have horder := hr.order
    rw [hpending, List.foldl_cons] at horder
    rcases hcase with ⟨hin, rfl⟩ | ⟨hout, rfl⟩
    · -- started before, so it is skipped
      rw [addNew_of_mem (hs.tracked url hin)] at horder
      exact ⟨horder, fun other hother =>
        hr.tracked other (hpending ▸ List.mem_cons_of_mem _ hother)⟩
    · have hnew : url ∉ s.downloads := fun hdone =>
        hout (hr.tracked url (hpending ▸ List.mem_cons_self) hdone)
      rw [addNew_of_not_mem hnew] at horder
      -- the entry that is erased for it, if any, is not waited for
      refine ⟨horder, fun other hother hdone => mem_track.mpr ?_⟩
      rcases List.mem_append.mp hdone with hold | hlast
      · refine .inr ⟨hr.tracked other (hpending ▸ List.mem_cons_of_mem _ hother) hold,
          fun hfull hmin => ?_⟩
        rw [Remembers, hlist] at he
        exact he url rfl hout hfull other hmin hother
      · exact .inl (List.mem_singleton.mp hlast)

/-- What the first download lists and the second one does not is gone. -/
theorem exists_gone {l fresh : List String} {gone : ℕ} (hnodup : l.Nodup)
    (hnot : ¬ l <+: l.drop gone ++ fresh) : ∃ url ∈ l, url ∉ l.drop gone := by
  by_contra hall
  push Not at hall
  have hlength := (List.subperm_of_subset hnodup hall).length_le
  have hdrop : l.drop gone = l := (List.drop_suffix gone l).eq_of_length_le hlength
  exact hnot (hdrop.symm ▸ List.prefix_append l fresh)

theorem doomed_of_not_remembers {e : Event} (hs : Sound s) (hslides : Slides s e)
    (he : ¬ Remembers s e) (hstep : step s e = some s') : Doomed s' := by
  cases e with
  | refresh playList =>
    obtain ⟨hpending, rfl⟩ := refresh_cases hstep
    by_cases hall : ∀ url ∈ playList, url ∈ s.downloads → url ∈ s.fragmentDownloadStart
    · -- a fragment of the first download has left the list, and never comes back
      have hnot : ¬ s.parsed <+: playList := fun hstarts => he ⟨hstarts, hall⟩
      rcases hs.parsed with hnil | hstart
      · exact absurd (hnil ▸ List.nil_prefix) hnot
      · obtain ⟨gone, fresh, rfl, -, hfresh⟩ := hslides
        have hwindow : s.window = s.parsed := by rw [hstart]; rfl
        have hlisted : s.listed = s.parsed := by rw [hstart]; rfl
        rw [hwindow] at hnot
        obtain ⟨url, hurl, hgone⟩ := exists_gone (hlisted ▸ hs.listed) hnot
        have hnone : url ∉ s.window.drop gone ++ fresh := by
          rw [List.mem_append, not_or, hwindow]
          exact ⟨hgone, fun hnew => (hfresh url hnew).2 (hlisted ▸ hurl)⟩
        refine .inr (.inr ⟨url, (prefix_foldl_addNew _ _).subset (hlisted ▸ hurl), hnone, ?_, ?_⟩)
        · have hempty : s.playList ++ s.pushing = [] := by rw [hstart]; rfl
          rw [hpending, hempty]
          exact hnone
        · rw [hstart]
          exact List.not_mem_nil
    · -- a fragment is listed that was downloaded and erased
      push Not at hall
      obtain ⟨url, hurl, hdone, hout⟩ := hall
      exact .inr (.inl ⟨url, hpending ▸ List.mem_append_right _ hurl, hdone, hout⟩)
  | push => exact absurd trivial he
  | fragment =>
    obtain ⟨url, playList, hlist, -, hcase⟩ := fragment_cases hs hstep
    simp only [Remembers, hlist, List.head?_cons, List.tail_cons, Option.mem_def, Option.some.injEq,
      not_forall, not_not] at he
    obtain ⟨url', rfl, hout, hfull, first, hmin, hwaits⟩ := he
    rcases hcase with ⟨hin, -⟩ | ⟨-, rfl⟩
    · exact absurd hin hout
    · -- the smallest URL is erased while it waits to be looked at
      have hfirst : first ∈ s.fragmentDownloadStart := ExtTreeMap.minKey?_mem hmin
      refine .inr (.inl ⟨first, hwaits, List.mem_append_left _ (hs.tracked first hfirst),
        fun habs => ?_⟩)
      rcases mem_track.mp habs with rfl | ⟨-, hkept⟩
      · exact hout hfirst
      · exact hkept hfull hmin

/-- A fragment that was erased and waits is downloaded again, and one that is gone stays so. -/
theorem doomed_step {e : Event} (hs : Sound s) (he : Slides s e) (hd : Doomed s)
    (hstep : step s e = some s') : Doomed s' := by
  cases e with
  | refresh playList =>
    obtain ⟨hpending, rfl⟩ := refresh_cases hstep
    rw [Doomed, hpending]
    refine hd.imp_right (.imp ?_ ?_)
    · rintro ⟨url, hurl, hdone, hout⟩
      refine ⟨url, List.mem_append_left _ ?_, hdone, hout⟩
      rcases List.mem_append.mp hurl with hin | hin
      · exact hin
      · rcases hs.parsed with hnil | hstart
        · rw [hnil] at hin
          cases hin
        · rw [hstart] at hdone
          cases hdone
    · rintro ⟨url, hurl, hwindow, hwaits, hdone⟩
      obtain ⟨gone, fresh, rfl, -, hfresh⟩ := he
      have hnone : url ∉ s.window.drop gone ++ fresh := by
        rw [List.mem_append, not_or]
        exact ⟨fun hin => hwindow (List.mem_of_mem_drop hin), fun hnew => (hfresh url hnew).2 hurl⟩
      refine ⟨url, (prefix_foldl_addNew _ _).subset hurl, hnone, ?_, hdone⟩
      rw [List.mem_append, not_or]
      exact ⟨fun hin => hwaits (List.mem_append_left _ hin), hnone⟩
  | push =>
    obtain ⟨playList, pushing, rfl, hpending⟩ := push_cases hstep
    rw [Doomed, hpending]
    exact hd
  | fragment =>
    obtain ⟨url, playList, hlist, hpending, hcase⟩ := fragment_cases hs hstep
    rcases hd with hdup | ⟨other, hother, hdone, hout⟩ | ⟨other, hother, hwindow, hwaits, hdone⟩
    · rcases hcase with ⟨-, rfl⟩ | ⟨-, rfl⟩
      · exact .inl hdup
      · exact .inl fun habs => hdup (List.Nodup.of_append_left habs)
    · rw [hpending] at hother
      rcases hcase with ⟨hin, rfl⟩ | ⟨-, rfl⟩
      · rcases List.mem_cons.mp hother with rfl | hwaits
        · exact absurd hin hout
        · exact .inr (.inl ⟨other, hwaits, hdone, hout⟩)
      · rcases List.mem_cons.mp hother with rfl | hwaits
        · exact .inl fun habs => List.disjoint_of_nodup_append habs hdone List.mem_cons_self
        · by_cases heq : other = url
          · subst heq
            exact .inl fun habs => List.disjoint_of_nodup_append habs hdone List.mem_cons_self
          · refine .inr (.inl ⟨other, hwaits, List.mem_append_left _ hdone, fun habs => ?_⟩)
            rcases mem_track.mp habs with heq' | ⟨hin, -⟩
            · exact heq heq'
            · exact hout hin
    · rw [hpending, List.mem_cons, not_or] at hwaits
      rcases hcase with ⟨-, rfl⟩ | ⟨-, rfl⟩
      · exact .inr (.inr ⟨other, hother, hwindow, hwaits.2, hdone⟩)
      · refine .inr (.inr ⟨other, hother, hwindow, hwaits.2, ?_⟩)
        rw [List.mem_append, List.mem_singleton, not_or]
        exact ⟨hdone, hwaits.1⟩

-- Every run

section Start

variable {first : List String} (hnodup : first.Nodup) (hnonempty : ∀ url ∈ first, url ≠ "")

include hnodup hnonempty

theorem sound_start : Sound (.start first) :=
  ⟨fun _ habs => absurd habs ExtTreeMap.not_mem_empty, Nat.zero_le _, hnonempty, fun _ => id,
    fun _ => id, hnodup, .inr rfl⟩

omit hnonempty in
theorem remembered_start : Remembered (.start first) :=
  ⟨@foldl_addNew_of_fresh first [] hnodup, nofun⟩

end Start

theorem doomed_run {events : List Event} (hs : Sound s) (hd : Doomed s)
    (hslides : Runs.Along step Slides s events) (hrun : Runs.run step s events = some s') :
    Doomed s' :=
  (Runs.run_invariant (I := fun s => Sound s ∧ Doomed s)
    (fun _ _ _ h he hstep => ⟨sound_step h.1 he hstep, doomed_step h.1 he h.2 hstep⟩) ⟨hs, hd⟩
    hslides hrun).2

theorem remembers_or_doomed {events : List Event} (hs : Sound s)
    (hslides : Runs.Along step Slides s events) (hrun : Runs.run step s events = some s') :
    Runs.Along step Remembers s events ∨ Doomed s' := by
  induction events generalizing s with
  | nil => exact .inl trivial
  | cons e events ih =>
    obtain ⟨t, hstep, hrest⟩ := Runs.run_cons_some.mp hrun
    have ht := sound_step hs hslides.1 hstep
    have htail := Runs.along_tail hslides hstep
    by_cases he : Remembers s e
    · exact (ih ht htail hrest).imp_left fun halong => .cons he hstep halong
    · exact .inr (doomed_run ht (doomed_of_not_remembers hs hslides.1 he hstep) htail hrest)

/-- Two fragments that were parsed are handed over, and then a third one. -/
def slidingRun : List Event :=
  [.refresh ["a", "b"], .push, .fragment, .push, .refresh ["b", "c"], .push, .fragment, .fragment,
    .push, .fragment]

/-- What waits can be pushed and looked at. -/
theorem exists_drain {s : State} (hs : Sound s) (hlist : s.playList = [])
    (hparsed : s.parsed = []) :
    ∃ events s', Runs.Along step Slides s events ∧ Runs.run step s events = some s' ∧
      s'.Drained ∧ s'.window = s.window ∧ s'.listed = s.listed := by
  generalize hpushing : s.pushing = pushing
  induction pushing generalizing s with
  | nil =>
    refine ⟨[], s, trivial, rfl, ?_, rfl, rfl⟩
    rw [State.Drained, State.pending, hlist, hpushing, hparsed]
    rfl
  | cons url pushing ih =>
    -- the fragment is pushed and looked at
    have hpush : step s .push = some { s with playList := [url], pushing } := by
      rw [step, hpushing]
      simp only [hlist, List.length_nil, List.nil_append]
      exact if_pos (by decide)
    have ht := sound_step (e := .push) hs trivial hpush
    obtain ⟨u, hfragment, hulist, hupushing, huparsed, hwindow, hlisted⟩ :
        ∃ u, step { s with playList := [url], pushing } .fragment = some u ∧ u.playList = [] ∧
          u.pushing = pushing ∧ u.parsed = [] ∧ u.window = s.window ∧ u.listed = s.listed := by
      have hne : url ≠ "" := ht.nonempty url (ht.pending url List.mem_cons_self)
      simp only [step, fragmentDownloadLoop, hne, if_false]
      split
      · exact ⟨_, rfl, rfl, rfl, hparsed, rfl, rfl⟩
      · exact ⟨_, rfl, rfl, rfl, hparsed, rfl, rfl⟩
    have hu := sound_step (e := .fragment) ht trivial hfragment
    obtain ⟨events, s', hslides, hrun, hdrained, hwindow', hlisted'⟩ :=
      ih hu hulist huparsed hupushing
    exact ⟨.push :: .fragment :: events, s', .cons trivial hpush (.cons trivial hfragment hslides),
      Runs.run_cons_some.mpr ⟨_, hpush, Runs.run_cons_some.mpr ⟨u, hfragment, hrun⟩⟩, hdrained,
      hwindow'.trans hwindow, hlisted'.trans hlisted⟩

section Long

variable {l : List String} (hnodup : l.Nodup) (hlong : maxFragmentTracking < l.length)

include hnodup hlong

theorem exists_untracked {s : State} (hs : Sound s) : ∃ url ∈ l, url ∉ s.fragmentDownloadStart := by
  by_contra hnone
  have hsub : l ⊆ s.fragmentDownloadStart.keys := fun url hurl => by
    rw [ExtTreeMap.mem_keys]
    exact by_contra fun hout => hnone ⟨url, hurl, hout⟩
  have hlength := (List.subperm_of_subset hnodup hsub).length_le
  rw [ExtTreeMap.length_keys] at hlength
  have := hs.size
  omega

/-- A playlist of more than 100000 fragments is handed over twice, and all of them are looked at
in between. -/
theorem exists_twice (hne : ∀ url ∈ l, url ≠ "") :
    ∃ events s, Runs.Along step Slides (.start []) events ∧
      Runs.run step (.start []) events = some s ∧ s.Drained ∧ s.listed = l ∧
      s.downloads ≠ s.listed := by
  have hrounds : ∀ s, Sound s → s.Drained → Slides s (.refresh l) →
      ∃ events t, Runs.Along step Slides s (.refresh l :: events) ∧
        Runs.run step s (.refresh l :: events) = some t ∧ Sound t ∧ t.Drained ∧ t.window = l ∧
        t.listed = l.foldl addNew s.listed := by
    intro s hs hdrained hslides
    obtain ⟨⟨hlist, hpushing⟩, -⟩ := And.imp_left List.append_eq_nil_iff.mp
      (List.append_eq_nil_iff.mp hdrained)
    have hstep : step s (.refresh l) = some { s with
        pushing := l, parsed := [], window := l, listed := l.foldl addNew s.listed } :=
      if_pos hpushing
    have hsound := sound_step hs hslides hstep
    obtain ⟨events, t, halong, hrun, hdrained', hwindow, hlisted⟩ := exists_drain hsound hlist rfl
    exact ⟨events, t, .cons hslides hstep halong, Runs.run_cons_some.mpr ⟨_, hstep, hrun⟩,
      Runs.run_invariant (I := Sound) (fun _ _ _ h he hstep => sound_step h he hstep) hsound halong
        hrun, hdrained', hwindow, hlisted⟩
  have hfresh : Slides (.start []) (.refresh l) :=
    ⟨0, l, rfl, hnodup, fun url hurl => ⟨hne url hurl, List.not_mem_nil⟩⟩
  obtain ⟨events₁, t, halong₁, hrun₁, ht, hdrained₁, hwindow, hlisted⟩ :=
    hrounds _ (sound_start List.nodup_nil nofun) rfl hfresh
  have hlistedt : t.listed = l := hlisted.trans (foldl_addNew_of_fresh hnodup)
  by_cases hall : t.downloads = t.listed
  · -- the second refresh lists a fragment that was erased
    have hagain : Slides t (.refresh l) :=
      ⟨0, [], by rw [hwindow, List.drop_zero, List.append_nil], List.nodup_nil, nofun⟩
    obtain ⟨events₂, u, halong₂, hrun₂, hu, hdrained₂, -, hlisted₂⟩ :=
      hrounds t ht hdrained₁ hagain
    have hforgets : ¬ Remembers t (.refresh l) := fun hremembers => by
      obtain ⟨url, hurl, hout⟩ := exists_untracked hnodup hlong ht
      exact hout (hremembers.2 url hurl (by rw [hall, hlistedt]; exact hurl))
    refine ⟨_, u, halong₁.append hrun₁ halong₂, by rw [Runs.run_append, hrun₁]; exact hrun₂,
      hdrained₂, ?_, fun hdone => ?_⟩
    · rw [hlisted₂, hlistedt]
      exact foldl_addNew_of_mem fun _ hurl => hurl
    · rcases remembers_or_doomed ht halong₂ hrun₂ with
        halong | hdup | ⟨url, hurl, -⟩ | ⟨url, hurl, -, -, hout⟩
      · exact hforgets halong.1
      · exact hdup (hdone ▸ hu.listed)
      · rw [hdrained₂] at hurl
        exact absurd hurl List.not_mem_nil
      · exact absurd (hdone ▸ hurl) hout
  · exact ⟨_, t, halong₁, hrun₁, hdrained₁, hlistedt, hall⟩

end Long

def fragmentUrl (n : ℕ) : String := String.ofList (List.replicate (n + 1) 'a')

theorem length_fragmentUrl (n : ℕ) : (fragmentUrl n).length = n + 1 := by
  rw [fragmentUrl, String.length_ofList, List.length_replicate]

/-- Of two fragments that were parsed one is gone when the next download is handed over. -/
def goneRun : List Event := [.refresh ["b", "c"], .push, .fragment, .push, .fragment]

end MediaFoundation.FragmentQueue
