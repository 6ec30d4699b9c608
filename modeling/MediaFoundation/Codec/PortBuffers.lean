import MediaFoundation.Codec.HdiCodecAdapter

/-!
# Who has the codec buffers of HdiCodecAdapter

A codec buffer of a port is free, in the hands of a thread of the adapter, or in the component. An
id gets lost where a thread returns between taking and submitting, and is there twice where a pop
has run out of time, or where the port has two codec buffers.
-/

namespace MediaFoundation.HdiCodec

variable {s t : State} {p q : Pool} {hands hands' : List UInt32} {id : UInt32}
  {events : List Event} {ok : Bool} {i : Nat}

-- The property and the condition

def Frame.ids : Frame → List UInt32
  | .fill _ id | .note _ id | .submit _ id => [id]
  | _ => []

def Fill.ids : Fill → List UInt32
  | .firstSubmit _ id | .pop id | .giveBack id | .submit id | .undo id => [id]
  | _ => []

def inHands (s : State) : List UInt32 := s.frames.flatMap Frame.ids

def outHands (s : State) : List UInt32 := s.filling.toList.flatMap Fill.ids

/-- Each id is at one place, and whoever brings one back finds room for it. -/
structure PortOwned (p : Pool) (hands : List UInt32) : Prop where
  different : p.ids.Nodup
  places : (p.freeBufferId ++ hands ++ p.component).Perm p.ids
  room : ∀ id ∈ hands ++ p.component, p.freeBufferId.length < p.bufferCnt

structure OneOwner (s : State) : Prop where
  input : PortOwned s.inBufPool (inHands s)
  output : PortOwned s.outBufPool (outHands s)

/-- The test of the free count still holds, or 0 is no id. -/
def MayTake (p : Pool) : Prop := p.freeBufferId ≠ [] ∨ 0 ∉ p.ids

/-- `Copy` finds what it needs. -/
def Buffer.copies (b : Buffer) : Bool :=
  b.hasEos || match b.memory with
    | .bytes _ => true
    | _ => false

/-- A thread in `HandleFrame` takes when there is something to take, and neither `Copy`, `Rebind`
nor `EmptyThisBuffer` fails. -/
def KeepsFrame (s : State) (ok : Bool) : Frame → Prop
  | .take => s.inBufQue ≠ [] → MayTake s.inBufPool
  | .fill b _ => if s.virtualAddr then b.copies = true else ok = true
  | .submit _ _ => ok = true
  | _ => True

/-- The first call of `FillAllTheOutBuffer` finds enough buffers, and its `FillThisBuffer` does not
fail. -/
def KeepsFill (s : State) (ok : Bool) : Fill → Prop
  | .first i => i < s.outBufferCnt → MayTake s.outBufPool
  | .firstSubmit _ _ => ok = true
  | _ => True

def KeepsOwners (s : State) : Event → Prop
  | .frame i ok => ∀ f ∈ s.frames[i]?, KeepsFrame s ok f
  | .fill ok => ∀ f ∈ s.filling, KeepsFill s ok f
  | .fillBufferDone bufferId _ => 0 ≤ bufferId.toInt32
  | _ => True

instance (p : Pool) : Decidable (MayTake p) :=
  inferInstanceAs (Decidable (p.freeBufferId ≠ [] ∨ 0 ∉ p.ids))

instance decidableKeepsFrame (s : State) (ok : Bool) : ∀ f, Decidable (KeepsFrame s ok f)
  | .take => inferInstanceAs (Decidable (s.inBufQue ≠ [] → MayTake s.inBufPool))
  | .fill b _ =>
    inferInstanceAs (Decidable (if s.virtualAddr then b.copies = true else ok = true))
  | .submit _ _ => inferInstanceAs (Decidable (ok = true))
  | .decide | .check | .note _ _ | .notify _ => .isTrue trivial

instance decidableKeepsFill (s : State) (ok : Bool) : ∀ f, Decidable (KeepsFill s ok f)
  | .first i => inferInstanceAs (Decidable (i < s.outBufferCnt → MayTake s.outBufPool))
  | .firstSubmit _ _ => inferInstanceAs (Decidable (ok = true))
  | .loop | .count | .get | .pop _ | .giveBack _ | .submit _ | .undo _ => .isTrue trivial

instance decidableKeepsOwners (s : State) : ∀ e, Decidable (KeepsOwners s e)
  | .frame i ok => inferInstanceAs (Decidable (∀ f ∈ s.frames[i]?, KeepsFrame s ok f))
  | .fill ok => inferInstanceAs (Decidable (∀ f ∈ s.filling, KeepsFill s ok f))
  | .fillBufferDone bufferId _ => inferInstanceAs (Decidable (0 ≤ bufferId.toInt32))
  | .queueInputBuffer _ | .emptyBufferDone _ | .flushBegin | .flushClear | .flushEnd _
  | .queueOutputBuffer | .out _ | .start | .stop => .isTrue trivial

-- One port

structure Owned (p : Pool) (hands : List UInt32) : Prop where
  different : p.ids.Nodup
  places : ∀ id, p.freeBufferId.count id + hands.count id + p.component.count id = p.ids.count id
  enough : p.ids.length ≤ p.bufferCnt

theorem Owned.perm (h : Owned p hands) (hsame : ∀ id, hands'.count id = hands.count id) :
    Owned p hands' :=
  ⟨h.different, fun id => by rw [hsame]; exact h.places id, h.enough⟩

theorem Owned.places_perm (h : Owned p hands) :
    (p.freeBufferId ++ hands ++ p.component).Perm p.ids := by
  rw [List.perm_iff_count]
  intro id
  rw [List.count_append, List.count_append]
  exact h.places id

theorem Owned.mem_ids (h : Owned p hands) (hid : id ∈ p.freeBufferId) : id ∈ p.ids :=
  h.places_perm.subset (List.mem_append_left _ (List.mem_append_left _ hid))

theorem Owned.portOwned (h : Owned p hands) : PortOwned p hands where
  different := h.different
  places := h.places_perm
  room id hid := by
    have hlength := h.places_perm.length_eq
    have hpositive : 0 < (hands ++ p.component).length := List.length_pos_of_mem hid
    have henough := h.enough
    rw [List.append_assoc, List.length_append] at hlength
    omega

theorem Owned.getBuffer (h : Owned p hands) (hmay : MayTake p) :
    (∃ rest id, p.freeBufferId = id :: rest ∧
        p.getBuffer (-1) = ({ p with freeBufferId := rest }, some id) ∧
        Owned { p with freeBufferId := rest } (id :: hands)) ∨
      p.freeBufferId = [] ∧ p.getBuffer (-1) = (p, none) := by
  have hpop : p.getBuffer (-1) = (p.pop.1, p.find p.pop.2) := if_neg (by decide)
  rw [hpop]
  unfold Pool.pop
  cases hfree : p.freeBufferId with
  | nil =>
    refine .inr ⟨rfl, ?_⟩
    have hzero : 0 ∉ p.ids := hmay.resolve_left (not_not_intro hfree)
    dsimp only
    rw [Pool.find, if_neg hzero]
  | cons id rest =>
    have hid : id ∈ p.ids := h.mem_ids (by rw [hfree]; exact List.mem_cons_self)
    refine .inl ⟨rest, id, rfl, ?_, h.different, fun a => ?_, h.enough⟩
    · dsimp only
      rw [Pool.find, if_pos hid]
    · have hplaces := h.places a
      rw [hfree, List.count_cons] at hplaces
      rw [List.count_cons]
      dsimp only
      omega

theorem Owned.accepts (h : Owned p (id :: hands)) : Owned (p.accepts id) hands := by
  refine ⟨h.different, fun a => ?_, h.enough⟩
  have hplaces := h.places a
  rw [List.count_cons] at hplaces
  unfold Pool.accepts
  dsimp only
  rw [List.count_append, List.count_singleton]
  omega

theorem Owned.returns (h : Owned p hands) (hid : id ∈ p.component) :
    Owned (p.returns id) (id :: hands) := by
  refine ⟨h.different, fun a => ?_, h.enough⟩
  have hplaces := h.places a
  have hperm := (List.perm_cons_erase hid).count_eq a
  rw [List.count_cons] at hperm
  rw [List.count_cons]
  unfold Pool.returns
  dsimp only
  omega

theorem Owned.useBufferDone (h : Owned p (id :: hands)) :
    ∃ q, p.useBufferDone id = some q ∧ Owned q hands := by
  have hroom : p.freeBufferId.length < p.bufferCnt :=
    h.portOwned.room id (List.mem_append_left _ List.mem_cons_self)
  refine ⟨_, if_pos hroom, h.different, fun a => ?_, h.enough⟩
  have hplaces := h.places a
  rw [List.count_cons] at hplaces
  dsimp only
  rw [List.count_append, List.count_singleton]
  omega

theorem Owned.useBufferDone_some (h : Owned p (id :: hands)) (hq : p.useBufferDone id = some q) :
    Owned q hands := by
  obtain ⟨r, hr, howned⟩ := h.useBufferDone
  rw [hr, Option.some.injEq] at hq
  exact hq ▸ howned

-- Threads that move

theorem split_at {α : Type*} {threads : List α} {f : α} (h : threads[i]? = some f) :
    threads = threads.take i ++ f :: threads.drop (i + 1) := by
  obtain ⟨hi, rfl⟩ := List.getElem?_eq_some_iff.mp h
  rw [List.cons_getElem_drop_succ, List.take_append_drop]

section Counts

variable {β : Type*} [BEq β] (had : Frame → List β) {threads : List Frame}

def others (threads : List Frame) (i : Nat) : List β :=
  (threads.take i).flatMap had ++ (threads.drop (i + 1)).flatMap had

theorem count_moveTo (threads : List Frame) (i : Nat) (f' : Option Frame) (x : β) :
    ((moveTo threads i f').flatMap had).count x =
      (f'.toList.flatMap had ++ others had threads i).count x := by
  unfold moveTo others
  simp only [List.flatMap_append, List.count_append]
  omega

theorem count_threads {f : Frame} (h : threads[i]? = some f) (x : β) :
    (threads.flatMap had).count x = (had f ++ others had threads i).count x := by
  have hsplit := congrArg (fun l => (l.flatMap had).count x) (split_at h)
  simp only [List.flatMap_append, List.flatMap_cons, List.count_append] at hsplit
  unfold others
  rw [List.count_append, List.count_append]
  omega

theorem count_moved {f : Frame} (h : threads[i]? = some f) (f' : Option Frame) (x : β) :
    ((moveTo threads i f').flatMap had).count x + (had f).count x =
      (threads.flatMap had).count x + (f'.toList.flatMap had).count x := by
  rw [count_moveTo, count_threads had h, List.count_append, List.count_append]
  omega

end Counts

-- The input

theorem copies_iff (c : CodecBuffer) (b : Buffer) : (copy c b).2 = b.copies := by
  unfold copy Buffer.copies
  dsimp only
  split
  next heos => rw [heos, Bool.true_or]
  next heos =>
    rw [Bool.eq_false_iff.mpr heos, Bool.false_or]
    cases b.memory <;> rfl

/-- **One step in `HandleFrame`**: what the thread has in its hands goes on with it. -/
theorem Owned.frameStep {f : Frame} {rest : List UInt32}
    (h : Owned s.inBufPool (f.ids ++ rest)) (hkeeps : KeepsFrame s ok f) :
    Owned (frameStep s ok f).1.inBufPool
      ((frameStep s ok f).2.toList.flatMap Frame.ids ++ rest) := by
  cases f with
  | decide =>
    show Owned s.inBufPool ((if s.isFlushing then none else some Frame.check).toList.flatMap _ ++ _)
    split <;> exact h
  | check =>
    show Owned s.inBufPool
      ((if s.inBufPool.emptyBufferCount = 0 then none else some Frame.take).toList.flatMap _ ++ _)
    split <;> exact h
  | take =>
    unfold HdiCodec.frameStep
    dsimp only
    cases hque : s.inBufQue with
    | nil => exact h
    | cons b others =>
      have hmay : MayTake s.inBufPool := hkeeps (by rw [hque]; exact List.cons_ne_nil _ _)
      dsimp only
      cases h.getBuffer hmay with
      | inl htaken =>
        obtain ⟨free, id, -, hget, howned⟩ := htaken
        rw [hget]
        exact howned
      | inr hnone =>
        rw [hnone.2]
        exact h
  | fill b id =>
    have hfilled : (if s.virtualAddr then copy (s.codecBufs id) b
        else (rebind (s.codecBufs id) b, ok)).2 = true := by
      unfold KeepsFrame at hkeeps
      dsimp only at hkeeps
      split at hkeeps
      next hvirtual => rw [if_pos hvirtual, copies_iff, hkeeps]
      next hvirtual => rw [if_neg hvirtual, hkeeps]
    unfold HdiCodec.frameStep
    dsimp only
    rw [if_pos hfilled]
    exact h
  | note b id =>
    unfold HdiCodec.frameStep
    dsimp only
    split <;> exact h
  | submit b id =>
    have hok : ok = true := hkeeps
    unfold HdiCodec.frameStep
    dsimp only
    rw [if_pos hok]
    exact h.accepts
  | notify b => exact h

theorem frameStep_same (s : State) (ok : Bool) (f : Frame) :
    (frameStep s ok f).1.outBufPool = s.outBufPool ∧ (frameStep s ok f).1.filling = s.filling := by
  cases f with
  | decide | check | fill | notify => exact ⟨rfl, rfl⟩
  | take =>
    unfold frameStep
    dsimp only
    cases s.inBufQue with
    | nil => exact ⟨rfl, rfl⟩
    | cons b others =>
      dsimp only
      obtain ⟨pool, found⟩ := s.inBufPool.getBuffer (-1)
      cases found <;> exact ⟨rfl, rfl⟩
  | note | submit =>
    unfold frameStep
    dsimp only
    split <;> exact ⟨rfl, rfl⟩

-- The output

/-- **One step in `FillAllTheOutBuffer`.** Nobody else takes, so what was counted is there. -/
theorem Owned.fillStep {f' : Option Fill} {g : Fill} (h : Owned s.outBufPool g.ids)
    (hkeeps : KeepsFill s ok g) (hget : g = .get → s.outBufPool.freeBufferId ≠ [])
    (ht : fillStep s ok g = some (t, f')) :
    Owned t.outBufPool (f'.toList.flatMap Fill.ids) ∧
      (f' = some .get → t.outBufPool.freeBufferId ≠ []) ∧
      t.inBufPool = s.inBufPool ∧ t.frames = s.frames := by
  unfold HdiCodec.fillStep at ht
  cases g with
  | first i =>
    dsimp only at ht
    split at ht
    next hi =>
      cases h.getBuffer (hkeeps hi) with
      | inl htaken =>
        obtain ⟨free, id, -, hgot, howned⟩ := htaken
        rw [hgot] at ht
        cases ht
        exact ⟨howned, nofun, rfl, rfl⟩
      | inr hnone =>
        rw [hnone.2] at ht
        cases ht
        exact ⟨h, nofun, rfl, rfl⟩
    next =>
      cases ht
      exact ⟨h, nofun, rfl, rfl⟩
  | firstSubmit i id =>
    have hok : ok = true := hkeeps
    dsimp only at ht
    rw [if_pos hok] at ht
    cases ht
    exact ⟨h.accepts, nofun, rfl, rfl⟩
  | loop =>
    cases ht
    split <;> exact ⟨h, nofun, rfl, rfl⟩
  | count =>
    cases ht
    split
    next => exact ⟨h, nofun, rfl, rfl⟩
    next hcount => exact ⟨h, fun _ hnil => hcount (List.length_eq_zero_iff.mpr hnil), rfl, rfl⟩
  | get =>
    dsimp only at ht
    cases h.getBuffer (.inl (hget rfl)) with
    | inl htaken =>
      obtain ⟨free, id, -, hgot, howned⟩ := htaken
      rw [hgot] at ht
      cases ht
      exact ⟨howned, nofun, rfl, rfl⟩
    | inr hnone =>
      -- the list was not empty when it was counted, and only this thread takes from it
      exact absurd hnone.1 (hget rfl)
  | pop id =>
    dsimp only at ht
    split at ht
    · cases ht
      exact ⟨h, nofun, rfl, rfl⟩
    · cases ht
      exact ⟨h, nofun, rfl, rfl⟩
  | giveBack id | undo id =>
    obtain ⟨pool, hpool, heq⟩ := Option.map_eq_some_iff.mp ht
    cases heq
    exact ⟨h.useBufferDone_some hpool, nofun, rfl, rfl⟩
  | submit id =>
    dsimp only at ht
    split at ht
    · cases ht
      exact ⟨h.accepts, nofun, rfl, rfl⟩
    · cases ht
      exact ⟨h, nofun, rfl, rfl⟩

-- The invariant

structure Owners (s : State) : Prop where
  input : Owned s.inBufPool (inHands s)
  output : Owned s.outBufPool (outHands s)
  counted : s.filling = some .get → s.outBufPool.freeBufferId ≠ []

theorem Owners.oneOwner (h : Owners s) : OneOwner s := ⟨h.input.portOwned, h.output.portOwned⟩

theorem Owners.congr (h : Owners s) (hin : t.inBufPool = s.inBufPool)
    (hhands : inHands t = inHands s) (hout : t.outBufPool = s.outBufPool)
    (hfilling : t.filling = s.filling) : Owners t := by
  refine ⟨?_, ?_, ?_⟩
  · rw [hin, hhands]
    exact h.input
  · unfold outHands
    rw [hout, hfilling]
    exact h.output
  · rw [hout, hfilling]
    exact h.counted

theorem inHands_decide (frames : List Frame) :
    (frames ++ [Frame.decide]).flatMap Frame.ids = frames.flatMap Frame.ids := by
  rw [List.flatMap_append]
  exact List.append_nil _

theorem Owned.runFrame (h : Owned s.inBufPool (inHands s))
    (hkeeps : ∀ f ∈ s.frames[i]?, KeepsFrame s ok f) (ht : runFrame s i ok = some t) :
    Owned t.inBufPool (inHands t) := by
  obtain ⟨f, hf, rfl⟩ := Option.map_eq_some_iff.mp ht
  have hstep : Owned (HdiCodec.frameStep s ok f).1.inBufPool
      ((HdiCodec.frameStep s ok f).2.toList.flatMap Frame.ids ++ others Frame.ids s.frames i) :=
    Owned.frameStep (h.perm fun x => (count_threads Frame.ids hf x).symm) (hkeeps f hf)
  exact hstep.perm fun x => count_moveTo Frame.ids s.frames i _ x

/-- A codec buffer that the component had goes back to the free list, and a thread sets out. -/
theorem emptyBufferDone_some (ht : emptyBufferDone s id = some t) :
    id ∈ s.inBufPool.component ∧
      ∃ pool, (s.inBufPool.returns id).useBufferDone id = some pool ∧
        t = { s with inBufPool := pool, frames := s.frames ++ [.decide] } := by
  unfold HdiCodec.emptyBufferDone at ht
  split at ht
  next hid =>
    obtain ⟨pool, hpool, rfl⟩ := Option.map_eq_some_iff.mp ht
    exact ⟨hid, pool, hpool, rfl⟩
  next => cases ht

theorem Owned.emptyBufferDone (h : Owned s.inBufPool (inHands s))
    (ht : emptyBufferDone s id = some t) : Owned t.inBufPool (inHands t) := by
  obtain ⟨hid, pool, hpool, rfl⟩ := emptyBufferDone_some ht
  show Owned pool ((s.frames ++ [Frame.decide]).flatMap Frame.ids)
  rw [inHands_decide]
  exact (h.returns hid).useBufferDone_some hpool

theorem Owners.runFrame (h : Owners s) (hkeeps : KeepsOwners s (.frame i ok))
    (ht : runFrame s i ok = some t) : Owners t := by
  have hinput := h.input.runFrame hkeeps ht
  obtain ⟨f, hf, rfl⟩ := Option.map_eq_some_iff.mp ht
  obtain ⟨hout, hfilling⟩ := frameStep_same s ok f
  refine ⟨hinput, ?_, ?_⟩
  · show Owned (frameStep s ok f).1.outBufPool
      ((frameStep s ok f).1.filling.toList.flatMap Fill.ids)
    rw [hout, hfilling]
    exact h.output
  · show (frameStep s ok f).1.filling = some .get →
      (frameStep s ok f).1.outBufPool.freeBufferId ≠ []
    rw [hout, hfilling]
    exact h.counted

theorem Owners.emptyBufferDone (h : Owners s) (ht : emptyBufferDone s id = some t) :
    Owners t := by
  have hinput := h.input.emptyBufferDone ht
  obtain ⟨-, pool, -, rfl⟩ := emptyBufferDone_some ht
  exact ⟨hinput, h.output, h.counted⟩

theorem Owners.runFill (h : Owners s) (hkeeps : KeepsOwners s (.fill ok))
    (ht : runFill s ok = some t) : Owners t := by
  obtain ⟨g, hg, ht⟩ := Option.bind_eq_some_iff.mp ht
  obtain ⟨⟨u, f'⟩, hstep, rfl⟩ := Option.map_eq_some_iff.mp ht
  have howned : Owned s.outBufPool g.ids := by
    have houtput := h.output
    unfold outHands at houtput
    rw [hg] at houtput
    exact houtput.perm fun a => by rw [Option.toList_some, List.flatMap_singleton]
  obtain ⟨hout, hcounted, hin, hframes⟩ := howned.fillStep (hkeeps g hg)
    (fun heq => h.counted (by rw [hg, heq])) hstep
  refine ⟨?_, hout, hcounted⟩
  show Owned u.inBufPool (u.frames.flatMap Frame.ids)
  rw [hin, hframes]
  exact h.input

theorem getBuffer_nonneg (hid : 0 ≤ id.toInt32) (p : Pool) :
    p.getBuffer id.toInt32 = (p, p.find id) := by
  unfold Pool.getBuffer
  rw [if_pos hid]
  rfl

theorem Owners.fillBufferDone (h : Owners s) {pts : Int}
    (hkeeps : KeepsOwners s (.fillBufferDone id pts)) (ht : fillBufferDone s id pts = some t) :
    Owners t := by
  unfold HdiCodec.fillBufferDone at ht
  split at ht
  next hid =>
    have hreturned := h.output.returns hid
    have hknown : id ∈ (s.outBufPool.returns id).ids :=
      h.output.places_perm.subset (List.mem_append_right _ hid)
    rw [getBuffer_nonneg hkeeps, Pool.find, if_pos hknown] at ht
    obtain ⟨pool, hpool, rfl⟩ := Option.map_eq_some_iff.mp ht
    refine ⟨h.input, hreturned.useBufferDone_some hpool, fun hget hnil => ?_⟩
    -- a buffer has just been put there
    unfold Pool.useBufferDone at hpool
    split at hpool
    · cases hpool
      exact absurd hnil (List.append_ne_nil_of_right_ne_nil _ (List.cons_ne_nil _ _))
    · cases hpool
  next => cases ht

theorem Owners.runOut (h : Owners s) (ht : runOut s i = some t) : Owners t := by
  obtain ⟨o, ho, ht⟩ := Option.bind_eq_some_iff.mp ht
  obtain ⟨⟨u, o'⟩, hstep, rfl⟩ := Option.map_eq_some_iff.mp ht
  cases o with
  | queued | lookUp pts | done =>
    cases hstep
    exact h.congr rfl rfl rfl rfl
  | enter =>
    unfold outStep at hstep
    dsimp only at hstep
    split at hstep
    next => cases hstep
    next hfree =>
      cases hstep
      have hnone : s.filling = none := Option.not_isSome_iff_eq_none.mp hfree
      have houtput := h.output
      unfold outHands at houtput
      rw [hnone] at houtput
      refine ⟨h.input, ?_, ?_⟩
      · show Owned s.outBufPool
          ((some (if s.isFirstCall then Fill.first 0 else .loop)).toList.flatMap Fill.ids)
        split <;> exact houtput
      · show some (if s.isFirstCall then Fill.first 0 else .loop) = some .get → _
        split <;> exact nofun

/-- **One step.** -/
theorem Owners.step {e : Event} (h : Owners s) (hkeeps : KeepsOwners s e)
    (ht : step s e = some t) : Owners t := by
  cases e with
  | queueInputBuffer b =>
    have hsame := Option.some.inj ht
    unfold queueInputBuffer at hsame
    split at hsame
    · exact hsame ▸ h
    · rw [← hsame]
      exact h.congr rfl (inHands_decide _) rfl rfl
  | frame i ok => exact h.runFrame hkeeps ht
  | emptyBufferDone id => exact h.emptyBufferDone ht
  | flushBegin =>
    change flushBegin s = some t at ht
    unfold flushBegin at ht
    split at ht
    · cases ht
      exact h.congr rfl rfl rfl rfl
    · cases ht
  | flushClear =>
    change flushClear s = some t at ht
    unfold flushClear at ht
    split at ht
    · cases ht
      exact h.congr rfl rfl rfl rfl
    · cases ht
  | flushEnd ok =>
    change flushEnd s ok = some t at ht
    unfold flushEnd at ht
    split at ht
    · cases ht
      exact h.congr rfl rfl rfl rfl
    · cases ht
  | queueOutputBuffer =>
    change queueOutputBuffer s = some t at ht
    unfold queueOutputBuffer at ht
    dsimp only at ht
    split at ht
    · cases ht
      exact h.congr rfl rfl rfl rfl
    · split at ht
      · cases ht
        exact h.congr rfl rfl rfl rfl
      · cases ht
  | out i => exact h.runOut ht
  | fill ok => exact h.runFill hkeeps ht
  | fillBufferDone id pts => exact h.fillBufferDone hkeeps ht
  | start | stop => exact Option.some.inj ht ▸ h.congr rfl rfl rfl rfl

-- Every run

def codecBuffers (bufferCnt : Nat) (answers : List Bool) : Nat :=
  ((answers.take bufferCnt).takeWhile fun accepted => accepted).length

theorem owned_useBuffers {bufferCnt : Nat} {bufferId : UInt32} {answers : List Bool}
    (hone : codecBuffers bufferCnt answers ≤ 1) :
    Owned (Pool.useBuffers { bufferCnt := bufferCnt } bufferId (answers.take bufferCnt)) [] := by
  have hcount : (answers.take bufferCnt).length ≤ bufferCnt := List.length_take_le _ _
  unfold codecBuffers at hone
  generalize answers.take bufferCnt = turns at hone hcount
  match turns with
  | [] | false :: _ => exact ⟨List.nodup_nil, fun _ => rfl, Nat.zero_le _⟩
  | [true] | true :: false :: _ =>
    have hpositive : 1 ≤ bufferCnt := le_trans (Nat.succ_le_succ (Nat.zero_le _)) hcount
    exact ⟨List.nodup_singleton _, fun _ => rfl, hpositive⟩
  | true :: true :: rest =>
    have htwo : 2 ≤ ((true :: true :: rest).takeWhile fun accepted => accepted).length :=
      Nat.succ_le_succ (Nat.succ_le_succ (Nat.zero_le _))
    omega

section Runs

variable {virtualAddr : Bool} {inBufferCnt inBufferSize outBufferCnt : Nat} {bufferId : UInt32}
  {inAnswers outAnswers : List Bool}

theorem owners_prepared (hin : codecBuffers inBufferCnt inAnswers ≤ 1)
    (hout : codecBuffers outBufferCnt outAnswers ≤ 1) :
    Owners (prepared virtualAddr inBufferCnt inBufferSize outBufferCnt bufferId inAnswers
      outAnswers) :=
  ⟨owned_useBuffers hin, owned_useBuffers hout, nofun⟩

/-- **Each codec buffer has one owner**, in every run of steps that neither lose nor repeat one,
where a port has one codec buffer. -/
theorem one_owner (hin : codecBuffers inBufferCnt inAnswers ≤ 1)
    (hout : codecBuffers outBufferCnt outAnswers ≤ 1)
    (hkeeps : Runs.Along step KeepsOwners (prepared virtualAddr inBufferCnt inBufferSize
      outBufferCnt bufferId inAnswers outAnswers) events)
    (hrun : Runs.run step (prepared virtualAddr inBufferCnt inBufferSize outBufferCnt bufferId
      inAnswers outAnswers) events = some s) : OneOwner s :=
  Owners.oneOwner (Runs.run_invariant (fun _ _ _ h hgood hstep => h.step hgood hstep)
    (owners_prepared hin hout) hkeeps hrun)

end Runs

def onePair : State := prepared true 1 8 1 0 [true] [true]

def afterEvents (events : List Event) : State := (Runs.run step onePair events).getD onePair

theorem run_afterEvents (h : (Runs.run step onePair events).isSome = true) :
    Runs.run step onePair events = some (afterEvents events) := by
  obtain ⟨t, ht⟩ := Option.isSome_iff_exists.mp h
  rw [afterEvents, ht]
  rfl

def input (pts : Int) (data : List UInt8) : Buffer := ⟨pts, 0, .bytes data, 0⟩

def firstFill : List Event := [.start, .out 0, .fill true, .fill true, .fill true]

def oneInput : List Event :=
  [.queueInputBuffer (input 7 [1, 2]), .frame 0 true, .frame 0 true, .frame 0 true, .frame 0 true,
    .frame 0 true, .frame 0 true, .emptyBufferDone 0, .frame 0 true, .fillBufferDone 0 7]

theorem one_owner_one_input :
    Runs.run step onePair (firstFill ++ oneInput) =
        some (afterEvents (firstFill ++ oneInput)) ∧
      OneOwner (afterEvents (firstFill ++ oneInput)) ∧
      (afterEvents (firstFill ++ oneInput)).reported = [input 7 [1, 2]] := by
  have hkeeps : Runs.Along step KeepsOwners onePair (firstFill ++ oneInput) := by decide +kernel
  have hrun : Runs.run step onePair (firstFill ++ oneInput) = some (afterEvents _) :=
    run_afterEvents (by decide +kernel)
  exact ⟨hrun, one_owner (by decide) (by decide) hkeeps hrun, by decide +kernel⟩

/-- Two threads count the same free buffer, and both take. -/
def twoTakers : List Event :=
  [.queueInputBuffer (input 7 [1]), .queueInputBuffer (input 8 [2]), .frame 0 true, .frame 1 true,
    .frame 0 true, .frame 1 true, .frame 0 true, .frame 1 true]

/-- The pop of the second thread yields 0, which the first one has in its hands. -/
theorem taken_twice :
    Runs.run step onePair twoTakers = some (afterEvents twoTakers) ∧
      ¬ OneOwner (afterEvents twoTakers) := by
  refine ⟨run_afterEvents (by decide +kernel), fun h => ?_⟩
  have hlength := h.input.places.length_eq
  exact absurd hlength (by decide +kernel)

end MediaFoundation.HdiCodec
