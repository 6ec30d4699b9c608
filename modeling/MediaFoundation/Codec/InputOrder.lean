import MediaFoundation.Codec.PortBuffers

/-!
# The input of HdiCodecAdapter

An input is taken from the queue in one critical section and submitted after others, so threads
may overtake each other and a flush may come in between; a buffer with the end flag goes out with
what its codec buffer held before; and the metas outlive a flush.
-/

namespace MediaFoundation.HdiCodec

variable {s t : State} {b : Buffer} {c : CodecBuffer} {id : UInt32} {size : Nat}
  {events : List Event} {ok : Bool} {i : Nat}

-- The property

structure Carries (b : Buffer) (o : Submitted) : Prop where
  flag : translate2PluginFlagSet o.flag = b.flag
  pts : o.pts = b.pts
  filledLen : o.filledLen = b.payload.length
  bytes : o.bytes = b.payload

/-- An output gets the meta of an input with its pts, if one was queued since the last flush. -/
def MetRight (m : Met) : Prop :=
  match m.bufferMeta with
  | some found => ∃ b ∈ m.queued, b.pts = m.pts ∧ b.bufferMeta = found
  | none => ∀ b ∈ m.queued, b.pts ≠ m.pts

/-- The buffers whose `OnInputBufferDone` is still to come. -/
def Frame.reports : Frame → List Buffer
  | .notify b => [b]
  | _ => []

def notifying (s : State) : List Buffer := s.frames.flatMap Frame.reports

/-- Since the last flush the buffers are submitted in the order in which they were queued, and all
of them when no thread is at work and codec buffers are free. -/
structure InputRight (s : State) : Prop where
  order : s.submitted.map Prod.fst <+: s.queued
  carried : ∀ x ∈ s.submitted, Carries x.1 x.2
  complete : s.isFlushing = false → s.frames = [] → s.inBufPool.freeBufferId ≠ [] →
    s.submitted.map Prod.fst = s.queued
  reported : (s.reported ++ notifying s).Perm s.everSubmitted
  met : ∀ m ∈ s.met, MetRight m

-- The condition

/-- `Copy` can read the buffer, it fits, and it has no flag but that of the end. -/
structure Good (size : Nat) (b : Buffer) : Prop where
  copies : b.copies = true
  fits : b.payload.length ≤ size
  flag : b.flag = 0 ∨ b.flag = bufferFlagEos

/-- The codec buffer holds what a buffer with the end flag carries, since `Copy` leaves it; and a
thread that submits has taken its buffer before the others that hold one. -/
def KeepsOrder (s : State) : Frame → Prop
  | .fill b id => b.hasEos = true →
    (s.codecBufs id).filledLen = b.payload.length ∧
      (s.codecBufs id).memory.take b.payload.length = b.payload
  | .submit b id => s.taken.head? = some (b, id)
  | _ => True

/-- An output whose pts an input has had since the last flush finds an entry made since then, and
any other output finds none. -/
def KeepsMeta (s : State) : Out → Prop
  | .lookUp pts =>
    if ∃ b ∈ s.queued, b.pts = pts then s.made pts = true ∧ (s.bufferMetaMap pts).isSome = true
    else s.bufferMetaMap pts = none
  | _ => True

/-- The queue is cleared while no thread holds an input, and a flush that ends well leaves none in
the queue that could be submitted, unless a thread is at work. -/
def KeepsInput (size : Nat) (s : State) : Event → Prop
  | .queueInputBuffer b => b.memory = .none ∧ b.hasEos = false ∨ Good size b
  | .frame i ok => ∀ f ∈ s.frames[i]?, KeepsFrame s ok f ∧ KeepsOrder s f
  | .flushClear => s.taken = []
  | .flushEnd ok => ok = true →
    s.frames ≠ [] ∨ s.inBufQue = [] ∨ s.inBufPool.freeBufferId = []
  | .out i => ∀ o ∈ s.outs[i]?, KeepsMeta s o
  | _ => True

instance (size : Nat) (b : Buffer) : Decidable (Good size b) :=
  decidable_of_iff (b.copies = true ∧ b.payload.length ≤ size ∧
      (b.flag = 0 ∨ b.flag = bufferFlagEos))
    ⟨fun h => ⟨h.1, h.2.1, h.2.2⟩, fun h => ⟨h.copies, h.fits, h.flag⟩⟩

instance decidableKeepsOrder (s : State) : ∀ f, Decidable (KeepsOrder s f)
  | .fill b id => inferInstanceAs (Decidable (b.hasEos = true →
      (s.codecBufs id).filledLen = b.payload.length ∧
        (s.codecBufs id).memory.take b.payload.length = b.payload))
  | .submit b id => inferInstanceAs (Decidable (s.taken.head? = some (b, id)))
  | .decide | .check | .take | .note _ _ | .notify _ => .isTrue trivial

instance decidableKeepsMeta (s : State) : ∀ o, Decidable (KeepsMeta s o)
  | .lookUp pts => inferInstanceAs (Decidable (if ∃ b ∈ s.queued, b.pts = pts
      then s.made pts = true ∧ (s.bufferMetaMap pts).isSome = true
      else s.bufferMetaMap pts = none))
  | .queued | .done | .enter => .isTrue trivial

instance decidableKeepsInput (size : Nat) (s : State) : ∀ e, Decidable (KeepsInput size s e)
  | .queueInputBuffer b =>
    inferInstanceAs (Decidable (b.memory = .none ∧ b.hasEos = false ∨ Good size b))
  | .frame i ok =>
    inferInstanceAs (Decidable (∀ f ∈ s.frames[i]?, KeepsFrame s ok f ∧ KeepsOrder s f))
  | .flushClear => inferInstanceAs (Decidable (s.taken = []))
  | .flushEnd ok => inferInstanceAs (Decidable (ok = true →
      s.frames ≠ [] ∨ s.inBufQue = [] ∨ s.inBufPool.freeBufferId = []))
  | .out i => inferInstanceAs (Decidable (∀ o ∈ s.outs[i]?, KeepsMeta s o))
  | .emptyBufferDone _ | .flushBegin | .queueOutputBuffer | .fill _ | .fillBufferDone _ _
  | .start | .stop => .isTrue trivial

-- One codec buffer

structure Holds (c : CodecBuffer) (b : Buffer) : Prop where
  flag : translate2PluginFlagSet c.flag = b.flag
  pts : c.pts = b.pts
  filledLen : c.filledLen = b.payload.length
  memory : c.memory.take c.filledLen = b.payload

theorem translate_back (h : b.flag = 0 ∨ b.flag = bufferFlagEos) :
    translate2PluginFlagSet (translate2omxFlagSet b.flag) = b.flag := by
  cases h with
  | inl hzero => rw [hzero]; decide
  | inr heos => rw [heos]; decide

theorem length_writeMemory (memory data : List UInt8) (hfits : data.length ≤ memory.length) :
    (writeMemory memory data).length = memory.length := by
  unfold writeMemory
  rw [List.length_append, List.length_take, List.length_drop]
  omega

theorem take_writeMemory (memory data : List UInt8) (hfits : data.length ≤ memory.length) :
    (writeMemory memory data).take data.length = data := by
  unfold writeMemory
  rw [List.take_of_length_le hfits, List.take_left]

/-- **`Copy`** makes the codec buffer hold the buffer, if a buffer with the end flag finds there
what it carries. -/
theorem holds_copy (hmemory : c.memory.length = size) (hgood : Good size b)
    (heos : b.hasEos = true →
      c.filledLen = b.payload.length ∧ c.memory.take b.payload.length = b.payload) :
    Holds (copy c b).1 b ∧ (copy c b).1.memory.length = size := by
  have hflag := translate_back hgood.flag
  unfold copy
  dsimp only
  split
  next hend =>
    obtain ⟨hlength, htake⟩ := heos hend
    exact ⟨⟨hflag, rfl, hlength, hlength ▸ htake⟩, hmemory⟩
  next hend =>
    have hcopies := hgood.copies
    have hfits := hgood.fits
    unfold Buffer.copies at hcopies
    rw [Bool.eq_false_iff.mpr hend, Bool.false_or] at hcopies
    cases hm : b.memory with
    | none | unreadable => rw [hm] at hcopies; cases hcopies
    | bytes data =>
      have hpayload : b.payload = data := by
        unfold Buffer.payload
        rw [hm]
      rw [hpayload] at hfits
      have hle : data.length ≤ c.memory.length := hmemory ▸ hfits
      refine ⟨⟨hflag, rfl, ?_, ?_⟩, ?_⟩
      · rw [hpayload]
      · rw [hpayload]
        exact take_writeMemory c.memory data hle
      · exact (length_writeMemory c.memory data hle).trans hmemory

theorem carries_submission (h : Holds (s.codecBufs id) b) : Carries b (submission s id) :=
  ⟨h.flag, h.pts, h.filledLen, h.memory⟩

-- The invariant

def Frame.pairs : Frame → List (Buffer × UInt32)
  | .fill b id | .note b id | .submit b id => [(b, id)]
  | _ => []

def holding (s : State) : List (Buffer × UInt32) := s.frames.flatMap Frame.pairs

def FrameHolds (s : State) : Frame → Prop
  | .note b id | .submit b id => Holds (s.codecBufs id) b
  | _ => True

structure Flow (size : Nat) (s : State) : Prop where
  owned : Owned s.inBufPool (inHands s)
  virtual : s.virtualAddr = true
  memory : ∀ id, (s.codecBufs id).memory.length = size
  queue : s.queued = s.submitted.map Prod.fst ++ s.taken.map Prod.fst ++ s.inBufQue
  taken : ∀ x, s.taken.count x = (holding s).count x
  good : ∀ b ∈ s.queued, Good size b
  filled : ∀ f ∈ s.frames, FrameHolds s f
  carried : ∀ x ∈ s.submitted, Carries x.1 x.2
  reported : ∀ b, s.reported.count b + (notifying s).count b = s.everSubmitted.count b
  busy : s.isFlushing = false → s.inBufQue ≠ [] → s.inBufPool.freeBufferId ≠ [] → s.frames ≠ []
  flushing : s.flush ≠ .idle → s.isFlushing = true
  made : ∀ pts found, s.made pts = true → s.bufferMetaMap pts = some found →
    ∃ b ∈ s.queued, b.pts = pts ∧ b.bufferMeta = found
  met : ∀ m ∈ s.met, MetRight m

theorem Flow.inputRight (h : Flow size s) : InputRight s where
  order := by
    rw [h.queue, List.append_assoc]
    exact List.prefix_append _ _
  carried := h.carried
  complete hflushing hframes hfree := by
    have hnone : s.inBufQue = [] := by
      by_contra hque
      exact h.busy hflushing hque hfree hframes
    have htaken : s.taken = [] := by
      rw [List.eq_nil_iff_forall_not_mem]
      intro x hx
      have hcount := h.taken x
      unfold holding at hcount
      rw [hframes] at hcount
      exact absurd hcount (List.count_pos_iff.mpr hx).ne'
    rw [h.queue, hnone, htaken, List.map_nil, List.append_nil, List.append_nil]
  reported := by
    rw [List.perm_iff_count]
    intro b
    rw [List.count_append]
    exact h.reported b
  met := h.met

-- Threads in HandleFrame

theorem mem_moveTo {f' : Option Frame} {g : Frame} (h : g ∈ moveTo s.frames i f') :
    f' = some g ∨ g ∈ s.frames.take i ∨ g ∈ s.frames.drop (i + 1) := by
  unfold moveTo at h
  rw [List.append_assoc, List.mem_append, List.mem_append, Option.mem_toList] at h
  grind

theorem mem_of_mem_other {g : Frame}
    (h : g ∈ s.frames.take i ∨ g ∈ s.frames.drop (i + 1)) : g ∈ s.frames :=
  h.elim List.mem_of_mem_take List.mem_of_mem_drop

theorem moveTo_ne_nil (frames : List Frame) (i : Nat) (g : Frame) :
    moveTo frames i (some g) ≠ [] := by
  unfold moveTo
  exact List.append_ne_nil_of_left_ne_nil
    (List.append_ne_nil_of_right_ne_nil _ (List.cons_ne_nil _ _)) _

theorem mem_holding {f : Frame} (hf : f ∈ s.frames) {x : Buffer × UInt32} (hx : x ∈ f.pairs) :
    x ∈ holding s := List.mem_flatMap.mpr ⟨f, hf, hx⟩

theorem Flow.mem_queued (h : Flow size s) {f : Frame} (hf : f ∈ s.frames)
    (hb : (b, id) ∈ f.pairs) : b ∈ s.queued := by
  have htaken : (b, id) ∈ s.taken := by
    rw [← List.count_pos_iff, h.taken]
    exact List.count_pos_iff.mpr (mem_holding hf hb)
  rw [h.queue]
  exact List.mem_append_left _ (List.mem_append_right _ (List.mem_map.mpr ⟨(b, id), htaken, rfl⟩))

/-- No other thread has the codec buffer that one is at work on. -/
theorem Flow.other_ids (h : Flow size s) {f g : Frame} (hf : s.frames[i]? = some f)
    (hid : f.ids = [id]) (hg : g ∈ s.frames.take i ∨ g ∈ s.frames.drop (i + 1)) :
    id ∉ g.ids := by
  intro hmem
  have hother : 0 < (others Frame.ids s.frames i).count id := by
    rw [List.count_pos_iff]
    unfold others
    rw [List.mem_append]
    exact hg.imp (fun h => List.mem_flatMap.mpr ⟨g, h, hmem⟩)
      fun h => List.mem_flatMap.mpr ⟨g, h, hmem⟩
  have hcount := count_threads Frame.ids hf id
  rw [hid, List.count_append, List.count_singleton_self] at hcount
  -- the id is at one place, and that is this thread
  have hplaces := h.owned.places id
  have honce := List.nodup_iff_count_le_one.mp h.owned.different id
  unfold inHands at hplaces
  omega

/-- The inputs that threads hold are in their codec buffers after one of them has moved, too. -/
theorem Flow.filled_moveTo (h : Flow size s) {f' : Option Frame}
    (hholds : ∀ g, f' = some g → FrameHolds s g) :
    ∀ g ∈ moveTo s.frames i f', FrameHolds s g := by
  intro g hg
  cases mem_moveTo hg with
  | inl hnew => exact hholds g hnew
  | inr hold => exact h.filled g (mem_of_mem_other hold)

theorem Flow.moved (h : Flow size s) {f : Frame} (hf : s.frames[i]? = some f)
    (f' : Option Frame) (howned : Owned s.inBufPool ((moveTo s.frames i f').flatMap Frame.ids))
    (hpairs : f'.toList.flatMap Frame.pairs = f.pairs)
    (hreports : f'.toList.flatMap Frame.reports = f.reports)
    (hholds : ∀ g, f' = some g → FrameHolds s g)
    (hbusy : f' = none → s.isFlushing = true ∨ s.inBufQue = [] ∨ s.inBufPool.freeBufferId = []) :
    Flow size { s with frames := moveTo s.frames i f' } where
  owned := howned
  virtual := h.virtual
  memory := h.memory
  queue := h.queue
  taken x := by
    have htaken := h.taken x
    have hmoved := count_moved Frame.pairs hf f' x
    rw [hpairs] at hmoved
    unfold holding at htaken ⊢
    dsimp only
    omega
  good := h.good
  filled := h.filled_moveTo hholds
  carried := h.carried
  reported x := by
    have hreported := h.reported x
    have hmoved := count_moved Frame.reports hf f' x
    rw [hreports] at hmoved
    unfold notifying at hreported ⊢
    dsimp only
    omega
  busy hflushing hque hfree := by
    cases f' with
    | some g => exact moveTo_ne_nil _ _ _
    | none =>
      obtain hon | hnil | hnil := hbusy rfl
      · exact absurd hon (Bool.eq_false_iff.mp hflushing)
      · exact absurd hnil hque
      · exact absurd hnil hfree
  flushing := h.flushing
  made := h.made
  met := h.met

theorem Flow.take (h : Flow size s) (hf : s.frames[i]? = some .take) {rest : List Buffer}
    (hque : s.inBufQue = b :: rest) {pool : Pool}
    (howned : Owned pool ((moveTo s.frames i (some (.fill b id))).flatMap Frame.ids)) :
    Flow size { s with
      inBufPool := pool
      inBufQue := rest
      taken := s.taken ++ [(b, id)]
      frames := moveTo s.frames i (some (.fill b id)) } where
  owned := howned
  virtual := h.virtual
  memory := h.memory
  queue := by
    rw [h.queue, hque, List.map_append]
    simp only [List.append_assoc, List.map_cons, List.map_nil, List.cons_append, List.nil_append]
  taken x := by
    have htaken := h.taken x
    have hmoved := count_moved Frame.pairs hf (some (.fill b id)) x
    change _ + 0 = _ + List.count x [(b, id)] at hmoved
    unfold holding at htaken ⊢
    dsimp only
    rw [List.count_append]
    omega
  good := h.good
  filled := h.filled_moveTo fun _ hnew => Option.some.inj hnew ▸ trivial
  carried := h.carried
  reported x := by
    have hreported := h.reported x
    have hmoved := count_moved Frame.reports hf (some (.fill b id)) x
    change _ + 0 = _ + 0 at hmoved
    unfold notifying at hreported ⊢
    dsimp only
    omega
  busy _ _ _ := moveTo_ne_nil _ _ _
  flushing := h.flushing
  made := h.made
  met := h.met

theorem Flow.fill (h : Flow size s) (hf : s.frames[i]? = some (.fill b id)) {c : CodecBuffer}
    (hmemory : c.memory.length = size) :
    Flow size { s with codecBufs := Function.update s.codecBufs id c } := by
  refine { h with memory := fun id' => ?_, filled := fun g hg => ?_ }
  · by_cases hid : id' = id
    · rw [hid]
      dsimp only
      rw [Function.update_self]
      exact hmemory
    · dsimp only
      rw [Function.update_of_ne hid]
      exact h.memory id'
  · -- only the memory of this codec buffer is written
    have hkept : ∀ g, g ∈ s.frames → id ∉ g.ids →
        FrameHolds { s with codecBufs := Function.update s.codecBufs id c } g := by
      intro g hg hid
      have hold := h.filled g hg
      cases g with
      | note b' id' | submit b' id' =>
        have hne : id' ≠ id := fun heq => hid (List.mem_singleton.mpr heq.symm)
        show Holds (Function.update s.codecBufs id c id') b'
        rw [Function.update_of_ne hne]
        exact hold
      | _ => trivial
    have hsplit := hg
    change g ∈ s.frames at hsplit
    rw [split_at hf, List.mem_append, List.mem_cons] at hsplit
    obtain hbefore | rfl | hafter := hsplit
    · exact hkept g hg (h.other_ids hf rfl (.inl hbefore))
    · trivial
    · exact hkept g hg (h.other_ids hf rfl (.inr hafter))

theorem Flow.note (h : Flow size s) (hb : b ∈ s.queued) :
    Flow size { s with
      bufferMetaMap := Function.update s.bufferMetaMap b.pts (some b.bufferMeta)
      made := Function.update s.made b.pts true } := by
  refine { h with made := fun pts found hmade hfound => ?_ }
  by_cases hpts : pts = b.pts
  · rw [hpts] at hfound ⊢
    dsimp only at hfound
    rw [Function.update_self] at hfound
    exact ⟨b, hb, rfl, Option.some.inj hfound⟩
  · dsimp only at hmade hfound
    rw [Function.update_of_ne hpts] at hmade hfound
    exact h.made pts found hmade hfound

theorem Flow.submit (h : Flow size s) (hf : s.frames[i]? = some (.submit b id))
    (hfirst : s.taken.head? = some (b, id)) {pool : Pool}
    (howned : Owned pool ((moveTo s.frames i (some (.notify b))).flatMap Frame.ids)) :
    Flow size { s with
      inBufPool := pool
      taken := s.taken.erase (b, id)
      submitted := s.submitted ++ [(b, submission s id)]
      everSubmitted := s.everSubmitted ++ [b]
      frames := moveTo s.frames i (some (.notify b)) } := by
  obtain ⟨rest, hrest⟩ : ∃ rest, s.taken = (b, id) :: rest := by
    cases htaken : s.taken with
    | nil => rw [htaken] at hfirst; cases hfirst
    | cons x rest =>
      rw [htaken] at hfirst
      exact ⟨rest, by rw [Option.some.inj hfirst]⟩
  have herase : s.taken.erase (b, id) = rest := by rw [hrest, List.erase_cons_head]
  rw [herase]
  exact {
    owned := howned
    virtual := h.virtual
    memory := h.memory
    queue := by
      rw [h.queue, hrest, List.map_append]
      simp only [List.map_cons, List.map_nil, List.append_assoc, List.cons_append,
        List.nil_append]
    taken := fun x => by
      have htaken := h.taken x
      have hmoved := count_moved Frame.pairs hf (some (.notify b)) x
      change _ + List.count x [(b, id)] = _ + 0 at hmoved
      rw [hrest, List.count_cons] at htaken
      rw [List.count_singleton] at hmoved
      unfold holding at htaken ⊢
      dsimp only
      omega
    good := h.good
    filled := h.filled_moveTo fun _ hnew => Option.some.inj hnew ▸ trivial
    carried := fun x hx => by
      cases List.mem_append.mp hx with
      | inl hold => exact h.carried x hold
      | inr hnew =>
        rw [List.mem_singleton.mp hnew]
        exact carries_submission (h.filled _ (List.mem_of_getElem? hf))
    reported := fun x => by
      have hreported := h.reported x
      have hmoved := count_moved Frame.reports hf (some (.notify b)) x
      change _ + 0 = _ + List.count x [b] at hmoved
      unfold notifying at hreported ⊢
      dsimp only
      rw [List.count_append]
      omega
    busy := fun _ _ _ => moveTo_ne_nil _ _ _
    flushing := h.flushing
    made := h.made
    met := h.met }

theorem Flow.notify (h : Flow size s) (hf : s.frames[i]? = some (.notify b))
    (howned : Owned s.inBufPool ((moveTo s.frames i (some .check)).flatMap Frame.ids)) :
    Flow size { s with
      reported := s.reported ++ [b]
      frames := moveTo s.frames i (some .check) } where
  owned := howned
  virtual := h.virtual
  memory := h.memory
  queue := h.queue
  taken x := by
    have htaken := h.taken x
    have hmoved := count_moved Frame.pairs hf (some .check) x
    change _ + 0 = _ + 0 at hmoved
    unfold holding at htaken ⊢
    dsimp only
    omega
  good := h.good
  filled := h.filled_moveTo fun _ hnew => Option.some.inj hnew ▸ trivial
  carried := h.carried
  reported x := by
    have hreported := h.reported x
    have hmoved := count_moved Frame.reports hf (some .check) x
    change _ + List.count x [b] = _ + 0 at hmoved
    unfold notifying at hreported ⊢
    dsimp only
    rw [List.count_append]
    omega
  busy _ _ _ := moveTo_ne_nil _ _ _
  flushing := h.flushing
  made := h.made
  met := h.met

/-- **One step in `HandleFrame`.** -/
theorem Flow.runFrame (h : Flow size s) (hkeeps : KeepsInput size s (.frame i ok))
    (ht : runFrame s i ok = some t) : Flow size t := by
  have howned := h.owned.runFrame (fun f hf => (hkeeps f hf).1) ht
  obtain ⟨f, hf, rfl⟩ := Option.map_eq_some_iff.mp ht
  obtain ⟨hframe, horder⟩ := hkeeps f hf
  unfold frameStep at howned ⊢
  cases f with
  | decide =>
    dsimp only at howned ⊢
    split at howned
    next hflushing =>
      rw [if_pos hflushing]
      exact h.moved hf none howned rfl rfl nofun fun _ => .inl hflushing
    next hflushing =>
      rw [if_neg hflushing]
      exact h.moved hf (some .check) howned rfl rfl (by rintro _ ⟨⟩; trivial) nofun
  | check =>
    dsimp only at howned ⊢
    split at howned
    next hcount =>
      rw [if_pos hcount]
      exact h.moved hf none howned rfl rfl nofun
        fun _ => .inr (.inr (List.length_eq_zero_iff.mp hcount))
    next hcount =>
      rw [if_neg hcount]
      exact h.moved hf (some .take) howned rfl rfl (by rintro _ ⟨⟩; trivial) nofun
  | take =>
    cases hque : s.inBufQue with
    | nil =>
      rw [hque] at howned
      exact h.moved hf none howned rfl rfl nofun fun _ => .inr (.inl hque)
    | cons b rest =>
      have hmay : MayTake s.inBufPool := hframe (by rw [hque]; exact List.cons_ne_nil _ _)
      rw [hque] at howned
      dsimp only at howned ⊢
      cases h.owned.getBuffer hmay with
      | inl htaken =>
        obtain ⟨free, id, -, hget, -⟩ := htaken
        rw [hget] at howned ⊢
        exact h.take hf hque howned
      | inr hnone =>
        rw [hnone.2] at howned ⊢
        dsimp only at howned ⊢
        rw [← hque]
        exact h.moved hf none howned rfl rfl nofun fun _ => .inr (.inr hnone.1)
  | fill b id =>
    have hb : b ∈ s.queued := h.mem_queued (List.mem_of_getElem? hf) List.mem_cons_self
    have hgood := h.good b hb
    obtain ⟨hholds, hmemory⟩ := holds_copy (h.memory id) hgood horder
    have hcopied : (copy (s.codecBufs id) b).2 = true :=
      (copies_iff _ b).trans hgood.copies
    dsimp only at howned ⊢
    rw [if_pos h.virtual] at howned ⊢
    rw [if_pos hcopied] at howned ⊢
    refine (h.fill hf hmemory).moved hf (some (.note b id)) howned rfl rfl ?_ nofun
    rintro _ ⟨⟩
    show Holds (Function.update s.codecBufs id _ id) b
    rw [Function.update_self]
    exact hholds
  | note b id =>
    have hb : b ∈ s.queued := h.mem_queued (List.mem_of_getElem? hf) List.mem_cons_self
    have hfilled : Holds (s.codecBufs id) b := h.filled _ (List.mem_of_getElem? hf)
    dsimp only at howned ⊢
    split at howned
    next hfound =>
      rw [if_pos hfound]
      exact h.moved hf (some (.submit b id)) howned rfl rfl (by rintro _ ⟨⟩; exact hfilled) nofun
    next hfound =>
      rw [if_neg hfound]
      exact (h.note hb).moved hf (some (.submit b id)) howned rfl rfl
        (by rintro _ ⟨⟩; exact hfilled) nofun
  | submit b id =>
    have hok : ok = true := hframe
    dsimp only at howned ⊢
    rw [if_pos hok] at howned ⊢
    exact h.submit hf horder howned
  | notify b => exact h.notify hf howned

theorem Flow.arrive (h : Flow size s) {pool : Pool} (howned : Owned pool (inHands s)) :
    Flow size { s with
      inBufPool := pool
      frames := s.frames ++ [.decide] } := by
  refine { h with owned := ?_, taken := fun x => ?_, filled := fun g hg => ?_,
                  reported := fun x => ?_, busy := fun _ _ _ => ?_ }
  · show Owned pool ((s.frames ++ [Frame.decide]).flatMap Frame.ids)
    rw [inHands_decide]
    exact howned
  · show s.taken.count x = ((s.frames ++ [Frame.decide]).flatMap Frame.pairs).count x
    rw [List.flatMap_append, List.flatMap_singleton]
    exact (h.taken x).trans (congrArg (List.count x) (List.append_nil _).symm)
  · cases List.mem_append.mp hg with
    | inl hold => exact h.filled g hold
    | inr hnew =>
      rw [List.mem_singleton.mp hnew]
      trivial
  · show s.reported.count x + ((s.frames ++ [Frame.decide]).flatMap Frame.reports).count x = _
    rw [List.flatMap_append, List.flatMap_singleton]
    exact (congrArg (s.reported.count x + List.count x ·) (List.append_nil _)).trans (h.reported x)
  · exact List.append_ne_nil_of_right_ne_nil _ (List.cons_ne_nil _ _)

theorem Flow.queueInputBuffer (h : Flow size s)
    (hkeeps : KeepsInput size s (.queueInputBuffer b)) : Flow size (queueInputBuffer s b) := by
  unfold HdiCodec.queueInputBuffer
  split
  next => exact h
  next hcarries =>
    have hgood : Good size b := hkeeps.resolve_left hcarries
    refine { h.arrive h.owned with queue := ?_, good := fun x hx => ?_, busy := fun _ _ _ => ?_,
                                   made := fun pts found hmade hfound => ?_ }
    · show s.queued ++ [b] = _ ++ _ ++ (s.inBufQue ++ [b])
      rw [h.queue, List.append_assoc _ s.inBufQue]
    · cases List.mem_append.mp hx with
      | inl hold => exact h.good x hold
      | inr hnew => exact List.mem_singleton.mp hnew ▸ hgood
    · exact List.append_ne_nil_of_right_ne_nil _ (List.cons_ne_nil _ _)
    · obtain ⟨x, hx, hsame⟩ := h.made pts found hmade hfound
      exact ⟨x, List.mem_append_left _ hx, hsame⟩

theorem Flow.emptyBufferDone (h : Flow size s) (ht : emptyBufferDone s id = some t) :
    Flow size t := by
  obtain ⟨hid, pool, hpool, rfl⟩ := emptyBufferDone_some ht
  exact h.arrive ((h.owned.returns hid).useBufferDone_some hpool)

-- Flush

theorem Flow.flushBegin (h : Flow size s) (ht : flushBegin s = some t) : Flow size t := by
  unfold HdiCodec.flushBegin at ht
  split at ht
  · cases ht
    exact { h with busy := nofun, flushing := fun _ => rfl }
  · cases ht

/-- What is queued from here on counts, and no thread holds anything from before. -/
theorem Flow.flushClear (h : Flow size s) (hkeeps : KeepsInput size s .flushClear)
    (ht : flushClear s = some t) : Flow size t := by
  unfold HdiCodec.flushClear at ht
  split at ht
  next hbegun =>
    cases ht
    have hnone : s.taken = [] := hkeeps
    have hflushing : s.isFlushing = true := h.flushing (by rw [hbegun]; exact Flush.noConfusion)
    refine { h with queue := ?_, good := nofun, carried := nofun,
                    busy := fun _ hque => absurd rfl hque, flushing := fun _ => hflushing,
                    made := nofun }
    show [] = [] ++ s.taken.map Prod.fst ++ []
    rw [hnone]
    rfl
  next => cases ht

theorem Flow.flushEnd (h : Flow size s) (hkeeps : KeepsInput size s (.flushEnd ok))
    (ht : flushEnd s ok = some t) : Flow size t := by
  unfold HdiCodec.flushEnd at ht
  split at ht
  · cases ht
    refine { h with busy := fun hflushing hque hfree => ?_, flushing := fun hne => absurd rfl hne }
    dsimp only at hflushing
    split at hflushing
    next hok =>
      obtain hframes | hnil | hnil := hkeeps hok
      · exact hframes
      · exact absurd hnil hque
      · exact absurd hnil hfree
    next => exact h.busy hflushing hque hfree
  · cases ht

-- The output

theorem Flow.lookUp (h : Flow size s) {pts : Int} (hkeeps : KeepsMeta s (.lookUp pts)) :
    Flow size { s with
      bufferMetaMap := Function.update s.bufferMetaMap pts none
      met := s.met ++ [⟨pts, s.bufferMetaMap pts, s.queued⟩] } := by
  refine { h with made := fun pts' found hmade hfound => ?_, met := fun m hm => ?_ }
  · by_cases hpts : pts' = pts
    · rw [hpts] at hfound
      dsimp only at hfound
      rw [Function.update_self] at hfound
      cases hfound
    · dsimp only at hfound
      rw [Function.update_of_ne hpts] at hfound
      exact h.made pts' found hmade hfound
  · cases List.mem_append.mp hm with
    | inl hold => exact h.met m hold
    | inr hnew =>
      rw [List.mem_singleton.mp hnew]
      unfold KeepsMeta at hkeeps
      dsimp only at hkeeps
      split at hkeeps
      next =>
        obtain ⟨found, hfound⟩ := Option.isSome_iff_exists.mp hkeeps.2
        unfold MetRight
        rw [hfound]
        exact h.made pts found hkeeps.1 hfound
      next hnone =>
        unfold MetRight
        rw [hkeeps]
        exact fun b hb hpts => hnone ⟨b, hb, hpts⟩

theorem Flow.runOut (h : Flow size s) (hkeeps : KeepsInput size s (.out i))
    (ht : runOut s i = some t) : Flow size t := by
  obtain ⟨o, ho, ht⟩ := Option.bind_eq_some_iff.mp ht
  obtain ⟨⟨u, o'⟩, hstep, rfl⟩ := Option.map_eq_some_iff.mp ht
  have hmeta := hkeeps o ho
  cases o with
  | queued | done =>
    cases hstep
    exact { h with }
  | lookUp pts =>
    cases hstep
    exact { h.lookUp hmeta with }
  | enter =>
    unfold outStep at hstep
    dsimp only at hstep
    split at hstep
    · cases hstep
    · cases hstep
      exact { h with }

theorem fillStep_output {g : Fill} {f' : Option Fill} (ht : fillStep s ok g = some (t, f')) :
    ∃ pool que, t = { s with outBufPool := pool, outBufQue := que } := by
  unfold fillStep at ht
  cases g with
  | first | firstSubmit | pop | submit =>
    dsimp only at ht
    split at ht <;> (cases ht; exact ⟨_, _, rfl⟩)
  | loop | count | get => cases ht; exact ⟨_, _, rfl⟩
  | giveBack | undo =>
    obtain ⟨pool, -, heq⟩ := Option.map_eq_some_iff.mp ht
    cases heq
    exact ⟨_, _, rfl⟩

theorem Flow.runFill (h : Flow size s) (ht : runFill s ok = some t) : Flow size t := by
  obtain ⟨g, hg, ht⟩ := Option.bind_eq_some_iff.mp ht
  obtain ⟨⟨u, f'⟩, hstep, rfl⟩ := Option.map_eq_some_iff.mp ht
  obtain ⟨pool, que, rfl⟩ := fillStep_output hstep
  exact { h with }

theorem Flow.fillBufferDone (h : Flow size s) {pts : Int}
    (ht : fillBufferDone s id pts = some t) : Flow size t := by
  unfold HdiCodec.fillBufferDone at ht
  split at ht
  · split at ht
    · cases ht
      exact { h with }
    · obtain ⟨pool, -, rfl⟩ := Option.map_eq_some_iff.mp ht
      exact { h with }
  · cases ht

theorem Flow.queueOutputBuffer (h : Flow size s) (ht : queueOutputBuffer s = some t) :
    Flow size t := by
  unfold HdiCodec.queueOutputBuffer at ht
  dsimp only at ht
  split at ht
  · cases ht
    exact { h with }
  · split at ht
    · cases ht
      exact { h with }
    · cases ht

-- Every run

/-- **One step.** -/
theorem Flow.step {e : Event} (h : Flow size s) (hkeeps : KeepsInput size s e)
    (ht : step s e = some t) : Flow size t := by
  cases e with
  | queueInputBuffer b => exact Option.some.inj ht ▸ h.queueInputBuffer hkeeps
  | frame i ok => exact h.runFrame hkeeps ht
  | emptyBufferDone id => exact h.emptyBufferDone ht
  | flushBegin => exact h.flushBegin ht
  | flushClear => exact h.flushClear hkeeps ht
  | flushEnd ok => exact h.flushEnd hkeeps ht
  | queueOutputBuffer => exact h.queueOutputBuffer ht
  | out i => exact h.runOut hkeeps ht
  | fill ok => exact h.runFill ht
  | fillBufferDone id pts => exact h.fillBufferDone ht
  | start | stop => exact Option.some.inj ht ▸ { h with }

section Runs

variable {inBufferCnt inBufferSize outBufferCnt : Nat} {bufferId : UInt32}
  {inAnswers outAnswers : List Bool}

theorem flow_prepared (hin : codecBuffers inBufferCnt inAnswers ≤ 1) :
    Flow inBufferSize
      (prepared true inBufferCnt inBufferSize outBufferCnt bufferId inAnswers outAnswers) where
  owned := owned_useBuffers hin
  virtual := rfl
  memory _ := List.length_replicate
  queue := rfl
  taken _ := rfl
  good := nofun
  filled := nofun
  carried := nofun
  reported _ := rfl
  busy _ hque := absurd rfl hque
  flushing hne := absurd rfl hne
  made := nofun
  met := nofun

end Runs

/-- The thread that queues an input brings it to the component. -/
def throughHandleFrame (b : Buffer) : List Event :=
  [.queueInputBuffer b, .frame 0 true, .frame 0 true, .frame 0 true, .frame 0 true, .frame 0 true,
    .frame 0 true]

/-- The codec buffer comes back, the input is reported, and no thread finds another one. -/
def comesBack : List Event :=
  [.emptyBufferDone 0, .frame 0 true, .frame 0 true, .frame 0 true, .frame 0 true, .frame 0 true,
    .frame 0 true]

/-- An output comes with the pts of the input, and the codec is flushed. -/
def outputThenFlush : List Event :=
  [.fillBufferDone 0 7, .out 0, .flushBegin, .flushClear, .flushEnd true]

def flushBetween : List Event :=
  firstFill ++ throughHandleFrame (input 7 [1, 2]) ++ comesBack ++ outputThenFlush ++
    throughHandleFrame (input 8 [3])

def lastInput : Buffer := ⟨7, bufferFlagEos, .bytes [1, 2], 0⟩

end MediaFoundation.HdiCodec
