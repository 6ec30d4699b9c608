import MediaFoundation.Lib.Runs
import MediaFoundation.Meta.AnyStorage

/-!
# The life of what an Any holds

Every content that an `Any` constructs is destroyed once, and the `Any` objects
hold the values that the operations say.

`MoveFrom` has the source destroyed by `StackFunctionTable::Move`, and resets the
source afterwards, which destroys it again. An object that is move-assigned to
itself is reset first.
-/

namespace MediaFoundation.AnyStorage

open Lifetimes

variable {table : ContentType}

variable {δ : Type}

-- What the operations are for

abbrev Values (δ : Type) := Nat → Option (ContentType × δ)

def Values.after (v : Values δ) : Label δ → Values δ
  | .construct n | .reset n | .destruct n => Function.update v n none
  | .constructFrom n type datum | .assign n type datum | .emplace n type datum =>
    Function.update v n (some (type, datum))
  | .copyConstruct n other | .copyAssign n other => Function.update v n (v other)
  | .moveConstruct n other => Function.update (Function.update v other none) n (v other)
  | .moveAssign n other =>
    if n = other then v else Function.update (Function.update v other none) n (v other)
  | .swap n other => Function.update (Function.update v n (v other)) other (v n)

-- What is held

def AnyObject.content (a : AnyObject δ) : Option (ContentType × Content δ) :=
  a.functionTable.bind fun table => (a.storage.content table.storage).map fun c => (table, c)

namespace Memory

def holds (m : Memory δ) (n : Name) : Option (ContentType × Content δ) := (m.any n).content

def owner (m : Memory δ) (n : Name) : Option Nat := (m.holds n).map fun h => h.2.id

def value (m : Memory δ) (n : Name) : Option (ContentType × δ) :=
  (m.holds n).map fun h => (h.1, h.2.datum)

def values (m : Memory δ) : Values δ := fun n => m.value (.var n)

end Memory

/-- Every content that is constructed is destroyed once and not read afterwards,
and the values are those of the operations. -/
structure Managed (m : Memory δ) (labels : List (Label δ)) : Prop where
  values : m.values = labels.foldl Values.after fun _ => none
  once : ∀ id, .constructed id ∈ m.ledger.log → m.ledger.log.count (.constructed id) = 1 ∧
    ((∃ n, m.owner (.var n) = some id) ∧ m.ledger.log.count (.destroyed id) = 0 ∨
      (∀ n, m.owner (.var n) ≠ some id) ∧ m.ledger.log.count (.destroyed id) = 1)
  notReadAfter : ∀ id later earlier, m.ledger.log = later ++ .destroyed id :: earlier →
    .read id ∉ later

def OffStack : Option (ContentType × δ) → Prop
  | some (type, _) => type.storage ≠ .stack
  | none => True

/-- No value of the stack is move-assigned, and no `Any` with a value to itself. -/
def Safe (m : Memory δ) : Label δ → Prop
  | .copyAssign _ other => OffStack (m.values other)
  | .moveAssign n other => OffStack (m.values other) ∧ (n = other → m.values n = none)
  | .assign _ type _ => type.storage ≠ .stack
  | .swap n other => OffStack (m.values n) ∧ OffStack (m.values other)
  | _ => True

-- The function tables

namespace Storage

variable {storage : StorageClass} {s : Storage δ} {c : Content δ} {l : Ledger}

@[simp] theorem content_store : (store storage c).content storage = some c := by
  cases storage <;> rfl

theorem fill_destroy (h : s.content storage = some c) :
    (destroy storage s l).1.fill (destroy storage s l).2 = (.zeros, l.note (.destroyed c.id)) := by
  cases storage with
  | trivialStack =>
    cases s with
    | trivialStack =>
      cases h
      rfl
    | _ => cases h
  | stack =>
    cases s with
    | nonTrivialStack =>
      cases h
      rfl
    | _ => cases h
  | heap =>
    unfold destroy
    rw [h]
    rfl

theorem copy_eq (h : s.content storage = some c) :
    copy storage s l = (store storage ⟨l.next, c.datum⟩, (l.note (.read c.id)).construct) := by
  unfold copy
  rw [h]

theorem move_cases (h : s.content storage = some c) (l : Ledger) : ∃ c' source l',
    move storage s l = (store storage c', source, l') ∧ c'.datum = c.datum ∧
      (storage = .heap ∧ c' = c ∧ l' = l ∧ source = .heap none ∨
        storage ≠ .heap ∧ c'.id = l.next ∧
          l' = ((l.note (.read c.id)).construct).note (.destroyed c.id) ∧
          (storage = .trivialStack → source = .zeros)) := by
  cases storage with
  | trivialStack =>
    cases s with
    | trivialStack =>
      cases h
      exact ⟨_, _, _, rfl, rfl, .inr ⟨nofun, rfl, rfl, fun _ => rfl⟩⟩
    | _ => cases h
  | stack =>
    cases s with
    | nonTrivialStack =>
      cases h
      exact ⟨_, _, _, rfl, rfl, .inr ⟨nofun, rfl, rfl, nofun⟩⟩
    | _ => cases h
  | heap =>
    cases s with
    | heap =>
      obtain rfl := h
      exact ⟨_, _, _, rfl, rfl, .inl ⟨rfl, rfl, rfl, rfl⟩⟩
    | _ => cases h

end Storage

-- The operations on one object

namespace Memory

variable {m : Memory δ} {n other : Name}

theorem any_write (m : Memory δ) (n : Name) (a : AnyObject δ) (l : Ledger) :
    (m.write n a l).any = Function.update m.any n a := by
  funext k
  unfold any write
  by_cases hk : k = n
  · subst hk
    simp
  · simp [hk]

theorem holds_write (m : Memory δ) (n : Name) (a : AnyObject δ) (l : Ledger) :
    (m.write n a l).holds = Function.update m.holds n a.content := by
  funext k
  unfold holds
  rw [any_write]
  by_cases hk : k = n
  · subst hk
    simp
  · simp [hk]

theorem owner_write (m : Memory δ) (n : Name) (a : AnyObject δ) (l : Ledger) :
    (m.write n a l).owner = Function.update m.owner n (a.content.map fun h => h.2.id) := by
  funext k
  unfold owner
  rw [holds_write]
  by_cases hk : k = n
  · subst hk
    simp
  · simp [hk]

theorem value_write (m : Memory δ) (n : Name) (a : AnyObject δ) (l : Ledger) :
    (m.write n a l).value =
      Function.update m.value n (a.content.map fun h => (h.1, h.2.datum)) := by
  funext k
  unfold value
  rw [holds_write]
  by_cases hk : k = n
  · subst hk
    simp
  · simp [hk]

structure Sound (m : Memory δ) : Prop where
  owned : Owned m.owner m.ledger.log m.ledger.next
  formed : ∀ n table, (m.any n).functionTable = some table →
    ∃ c, (m.any n).storage.content table.storage = some c

/-- An object without a value, and one with a content. -/
theorem Sound.cases (h : m.Sound) (n : Name) :
    ((m.any n).functionTable = none ∧ m.holds n = none) ∨
      ∃ table c, (m.any n).functionTable = some table ∧
        (m.any n).storage.content table.storage = some c ∧ m.holds n = some (table, c) := by
  cases htable : (m.any n).functionTable with
  | none =>
    refine .inl ⟨rfl, ?_⟩
    simp [holds, AnyObject.content, htable]
  | some table =>
    obtain ⟨c, hc⟩ := h.formed n table htable
    refine .inr ⟨table, c, rfl, hc, ?_⟩
    simp [holds, AnyObject.content, htable, hc]

theorem owner_of_holds {c : Content δ} (h : m.holds n = some (table, c)) :
    m.owner n = some c.id := by
  simp [owner, h]

theorem value_of_holds {c : Content δ} (h : m.holds n = some (table, c)) :
    m.value n = some (table, c.datum) := by
  simp [value, h]

theorem owner_eq_none (h : m.value n = none) : m.owner n = none := by
  simp only [value, Option.map_eq_none_iff] at h
  simp [owner, h]

theorem Sound.write (h : m.Sound) (a : AnyObject δ) (l : Ledger)
    (howned : Owned (Function.update m.owner n (a.content.map fun h => h.2.id)) l.log l.next)
    (hformed : a.functionTable.isSome → a.content.isSome) : (m.write n a l).Sound where
  owned := by
    rw [owner_write]
    exact howned
  formed k table htable := by
    rw [any_write] at htable ⊢
    by_cases hk : k = n
    · subst hk
      rw [Function.update_self] at htable ⊢
      have hsome := hformed (by rw [htable]; rfl)
      simpa [AnyObject.content, htable, Option.isSome_iff_exists] using hsome
    · rw [Function.update_of_ne hk] at htable ⊢
      exact h.formed k table htable

theorem reset_eq {c : Content δ}
    (htable : (m.any n).functionTable = some table)
    (hc : (m.any n).storage.content table.storage = some c) :
    m.reset n = m.write n ⟨none, .zeros⟩ (m.ledger.note (.destroyed c.id)) := by
  have hreset : m.reset n =
      m.write n ⟨none, ((Storage.destroy table.storage (m.any n).storage m.ledger).1.fill
        (Storage.destroy table.storage (m.any n).storage m.ledger).2).1⟩
        ((Storage.destroy table.storage (m.any n).storage m.ledger).1.fill
          (Storage.destroy table.storage (m.any n).storage m.ledger).2).2 := by
    unfold reset
    rw [htable]
  rw [hreset, Storage.fill_destroy hc]

theorem reset_spec (h : m.Sound) (n : Name) :
    (m.reset n).Sound ∧ (m.reset n).value = Function.update m.value n none := by
  obtain ⟨htable, hholds⟩ | ⟨table, c, htable, hc, hholds⟩ := h.cases n
  · unfold reset
    rw [htable]
    have hcontent : AnyObject.content { m.any n with functionTable := none } = none := rfl
    constructor
    · refine h.write _ _ ?_ nofun
      rw [hcontent]
      refine h.owned.congr fun k => ?_
      by_cases hk : k = n
      · subst hk
        simp [owner, hholds]
      · simp [hk]
    · show (m.write n _ m.ledger).value = _
      rw [value_write, hcontent]
      rfl
  · rw [reset_eq htable hc]
    constructor
    · exact h.write _ _ (h.owned.destroy (owner_of_holds hholds)) nofun
    · rw [value_write]
      rfl

theorem doEmplace_spec (h : m.Sound) (hn : m.value n = none) (type : ContentType) (datum : δ) :
    (m.doEmplace n type datum).Sound ∧
      (m.doEmplace n type datum).value = Function.update m.value n (some (type, datum)) := by
  have hcontent : AnyObject.content
      ⟨some type, .store type.storage ⟨m.ledger.next, datum⟩⟩ =
      some (type, ⟨m.ledger.next, datum⟩) := by
    simp [AnyObject.content]
  unfold doEmplace
  constructor
  · refine h.write _ _ ?_ (by simp [hcontent])
    rw [hcontent]
    exact h.owned.construct (owner_eq_none hn)
  · rw [value_write, hcontent]
    rfl

theorem construct_spec (h : m.Sound) (hn : m.value n = none) :
    (m.construct n).Sound ∧ (m.construct n).value = Function.update m.value n none := by
  unfold construct
  constructor
  · refine h.write _ _ (h.owned.congr fun k => ?_) nofun
    by_cases hk : k = n
    · subst hk
      rw [owner_eq_none hn]
      exact Function.update_self ..
    · exact Function.update_of_ne hk ..
  · rw [value_write]
    rfl

theorem constructFrom_spec (h : m.Sound) (hn : m.value n = none) (type : ContentType) (datum : δ) :
    (m.constructFrom n type datum).Sound ∧
      (m.constructFrom n type datum).value = Function.update m.value n (some (type, datum)) := by
  obtain ⟨hsound, hvalue⟩ := construct_spec h hn
  have hnone : (m.construct n).value n = none := by
    rw [hvalue, Function.update_self]
  obtain ⟨hsound', hvalue'⟩ := doEmplace_spec hsound hnone type datum
  refine ⟨hsound', ?_⟩
  unfold constructFrom
  rw [hvalue', hvalue, Function.update_idem]

theorem copyConstruct_spec (h : m.Sound) (hn : m.value n = none) (other : Name) :
    (m.copyConstruct n other).Sound ∧
      (m.copyConstruct n other).value = Function.update m.value n (m.value other) := by
  unfold copyConstruct
  obtain ⟨htable, hholds⟩ | ⟨table, c, htable, hc, hholds⟩ := h.cases other
  · rw [htable]
    have hnone : m.value other = none := by simp [value, hholds]
    rw [hnone]
    exact construct_spec h hn
  · rw [htable]
    show (m.write n ⟨some table, (Storage.copy _ _ _).1⟩ (Storage.copy _ _ _).2).Sound ∧
      (m.write n ⟨some table, (Storage.copy _ _ _).1⟩ (Storage.copy _ _ _).2).value = _
    rw [Storage.copy_eq hc]
    have hcontent : AnyObject.content
        ⟨some table, .store table.storage ⟨m.ledger.next, c.datum⟩⟩ =
        some (table, ⟨m.ledger.next, c.datum⟩) := by
      simp [AnyObject.content]
    constructor
    · refine h.write _ _ ?_ (by simp [hcontent])
      rw [hcontent]
      exact (h.owned.read (owner_of_holds hholds)).construct (owner_eq_none hn)
    · rw [value_write, hcontent, value_of_holds hholds]
      rfl

-- Moves

theorem write_write (m : Memory δ) (n : Name) (a b : AnyObject δ) (l l' : Ledger) :
    (m.write n a l).write n b l' = m.write n b l' := by
  unfold write
  rw [Function.update_idem]

theorem ne_of_value {n other : Name} {v : ContentType × δ} (hn : m.value n = none)
    (hother : m.value other = some v) : other ≠ n := by
  rintro rfl
  rw [hn] at hother
  cases hother

theorem passed_spec (h : m.Sound) (hn : m.value n = none) {c c' : Content δ}
    (hholds : m.holds other = some (table, c)) (hdatum : c'.datum = c.datum) (s : Storage δ)
    (l : Ledger)
    (howned : Owned (Function.update (Function.update m.owner n (some c'.id)) other none)
      l.log l.next) :
    ((m.write n ⟨some table, .store table.storage c'⟩ l).write other ⟨none, s⟩ l).Sound ∧
      ((m.write n ⟨some table, .store table.storage c'⟩ l).write other ⟨none, s⟩ l).value =
        Function.update (Function.update m.value other none) n (m.value other) := by
  have hne : other ≠ n := ne_of_value hn (value_of_holds hholds)
  have hcontent : AnyObject.content ⟨some table, .store table.storage c'⟩ = some (table, c') := by
    simp [AnyObject.content]
  refine ⟨⟨?_, fun k table' htable => ?_⟩, ?_⟩
  · rw [owner_write, owner_write, hcontent]
    exact howned
  · rw [any_write, any_write] at htable ⊢
    by_cases hother : k = other
    · subst hother
      rw [Function.update_self] at htable
      cases htable
    · rw [Function.update_of_ne hother] at htable ⊢
      by_cases hk : k = n
      · subst hk
        rw [Function.update_self] at htable ⊢
        cases htable
        exact ⟨c', Storage.content_store⟩
      · rw [Function.update_of_ne hk] at htable ⊢
        exact h.formed k table' htable
  · rw [value_write, value_write, hcontent, Function.update_comm hne.symm, value_of_holds hholds]
    simp only [Option.map_some, hdatum]
    rfl

theorem move_spec (h : m.Sound) (hn : m.value n = none) {c : Content δ}
    (htable : (m.any other).storage.content table.storage = some c)
    (hholds : m.holds other = some (table, c)) : ∃ c' source l,
      Storage.move table.storage (m.any other).storage m.ledger =
        (.store table.storage c', source, l) ∧ c'.datum = c.datum ∧
      Owned (Function.update (Function.update m.owner n (some c'.id)) other none) l.log l.next ∧
      (table.storage ≠ .stack → source = .zeros ∨ source = .heap none) := by
  obtain ⟨c', source, l, hmove, hdatum, hclass⟩ := Storage.move_cases htable m.ledger
  have hne : other ≠ n := ne_of_value hn (value_of_holds hholds)
  have hid := owner_of_holds hholds
  refine ⟨c', source, l, hmove, hdatum, ?_, fun hstack => ?_⟩
  · obtain ⟨-, rfl, rfl, -⟩ | ⟨-, hid', rfl, -⟩ := hclass
    · rw [Function.update_comm hne.symm]
      exact h.owned.hand (owner_eq_none hn) hid
    · rw [hid']
      refine ((h.owned.read hid).construct (owner_eq_none hn)).destroy ?_
      rw [Function.update_of_ne hne]
      exact hid
  · obtain ⟨-, -, -, rfl⟩ | ⟨hheap, -, -, htrivial⟩ := hclass
    · exact .inr rfl
    · refine .inl (htrivial ?_)
      cases hstorage : table.storage with
      | trivialStack => rfl
      | stack => exact absurd hstorage hstack
      | heap => exact absurd hstorage hheap

theorem update_moved_none (hn : m.value n = none) (hother : m.value other = none) :
    Function.update (Function.update m.value other none) n (m.value other) = m.value := by
  have hsame : Function.update m.value other none = m.value :=
    Function.update_eq_self_iff.mpr hother.symm
  rw [hother, hsame]
  exact Function.update_eq_self_iff.mpr hn.symm

theorem moveConstruct_spec (h : m.Sound) (hn : m.value n = none) (other : Name) :
    (m.moveConstruct n other).Sound ∧ (m.moveConstruct n other).value =
      Function.update (Function.update m.value other none) n (m.value other) := by
  unfold moveConstruct
  obtain ⟨htable, hholds⟩ | ⟨table, c, htable, hc, hholds⟩ := h.cases other
  · have hother : m.value other = none := by simp [value, hholds]
    rw [htable, update_moved_none hn hother]
    obtain ⟨hsound, hvalue⟩ := construct_spec h hn
    refine ⟨hsound, hvalue.trans ?_⟩
    exact Function.update_eq_self_iff.mpr hn.symm
  · obtain ⟨c', source, l, hmove, hdatum, howned, -⟩ := move_spec h hn hc hholds
    simp only [htable, hmove]
    exact passed_spec h hn hholds hdatum source l howned

theorem reset_moved {s : Storage δ} (hempty : s = .zeros ∨ s = .heap none)
    (hstack : table.storage ≠ .stack) (m : Memory δ) (n : Name) (l : Ledger) :
    (m.write n ⟨some table, s⟩ l).reset n = m.write n ⟨none, .zeros⟩ l := by
  have hany : (m.write n ⟨some table, s⟩ l).any n = ⟨some table, s⟩ := by
    rw [any_write, Function.update_self]
  have hnothing : (Storage.destroy table.storage s l).1.fill
      (Storage.destroy table.storage s l).2 = (.zeros, l) := by
    cases hstorage : table.storage with
    | trivialStack | heap => obtain rfl | rfl := hempty <;> rfl
    | stack => exact absurd hstorage hstack
  have hreset : (m.write n ⟨some table, s⟩ l).reset n =
      (m.write n ⟨some table, s⟩ l).write n
        ⟨none, ((Storage.destroy table.storage s l).1.fill
          (Storage.destroy table.storage s l).2).1⟩
        ((Storage.destroy table.storage s l).1.fill (Storage.destroy table.storage s l).2).2 := by
    unfold reset
    rw [hany]
    rfl
  rw [hreset, hnothing, write_write]

theorem moveFrom_spec (h : m.Sound) (hn : m.value n = none) (hstack : OffStack (m.value other)) :
    (m.moveFrom n other).Sound ∧ (m.moveFrom n other).value =
      Function.update (Function.update m.value other none) n (m.value other) := by
  unfold moveFrom
  obtain ⟨htable, hholds⟩ | ⟨table, c, htable, hc, hholds⟩ := h.cases other
  · have hother : m.value other = none := by simp [value, hholds]
    rw [htable, update_moved_none hn hother]
    exact ⟨h, rfl⟩
  · rw [value_of_holds hholds] at hstack
    obtain ⟨c', source, l, hmove, hdatum, howned, hsource⟩ := move_spec h hn hc hholds
    simp only [htable, hmove]
    rw [reset_moved (hsource hstack) hstack]
    exact passed_spec h hn hholds hdatum .zeros l howned

/-- `operator=(Any&&)`, to another object or to one without a value. -/
theorem moveAssign_spec (h : m.Sound) (hstack : OffStack (m.value other))
    (hself : n = other → m.value n = none) :
    (m.moveAssign n other).Sound ∧ (m.moveAssign n other).value =
      Function.update (Function.update m.value other none) n (m.value other) := by
  obtain ⟨hsound, hvalue⟩ := reset_spec h n
  have hn : (m.reset n).value n = none := by rw [hvalue, Function.update_self]
  have hother : (m.reset n).value other = m.value other := by
    rw [hvalue]
    by_cases hsame : other = n
    · subst hsame
      rw [Function.update_self, hself rfl]
    · rw [Function.update_of_ne hsame]
  rw [← hother] at hstack
  obtain ⟨hsound', hvalue'⟩ := moveFrom_spec hsound hn hstack
  refine ⟨hsound', hvalue'.trans ?_⟩
  rw [hother, hvalue]
  by_cases hsame : other = n
  · subst hsame
    rw [Function.update_idem]
  · rw [Function.update_comm (Ne.symm hsame), Function.update_idem]

theorem destruct_spec (h : m.Sound) (n : Name) :
    (m.destruct n).Sound ∧ (m.destruct n).value = Function.update m.value n none := by
  obtain ⟨hsound, hvalue⟩ := reset_spec h n
  have hany : (m.destruct n).any = Function.update (m.reset n).any n {} := by
    funext k
    unfold destruct any
    by_cases hk : k = n
    · subst hk
      simp
    · simp [hk]
  have hholds : (m.destruct n).holds = (m.reset n).holds := by
    funext k
    unfold holds
    rw [hany]
    by_cases hk : k = n
    · subst hk
      rw [Function.update_self]
      have hnone : (m.reset k).value k = none := by rw [hvalue, Function.update_self]
      simp only [value, Option.map_eq_none_iff] at hnone
      exact hnone.symm
    · rw [Function.update_of_ne hk]
  refine ⟨⟨?_, fun k table htable => ?_⟩, ?_⟩
  · refine hsound.owned.congr fun k => ?_
    unfold owner
    rw [hholds]
  · rw [hany] at htable ⊢
    by_cases hk : k = n
    · subst hk
      rw [Function.update_self] at htable
      cases htable
    · rw [Function.update_of_ne hk] at htable ⊢
      exact hsound.formed k table htable
  · rw [← hvalue]
    funext k
    unfold value
    rw [hholds]

-- The operations

theorem update_tmp (htmp : m.value .tmp = none) (hn : n ≠ .tmp) (v : Option (ContentType × δ)) :
    Function.update (Function.update m.value n v) .tmp none = Function.update m.value n v := by
  refine Function.update_eq_self_iff.mpr ?_
  rw [Function.update_of_ne hn.symm, htmp]

theorem assign_tmp {m' : Memory δ} {v : Option (ContentType × δ)} (h : m'.Sound)
    (hvalue : m'.value = Function.update m.value .tmp v) (htmp : m.value .tmp = none)
    (hn : n ≠ .tmp) (hstack : OffStack v) :
    ((m'.moveAssign n .tmp).destruct .tmp).Sound ∧
      ((m'.moveAssign n .tmp).destruct .tmp).value = Function.update m.value n v := by
  have hv : m'.value .tmp = v := by rw [hvalue, Function.update_self]
  obtain ⟨hmoved, hmovedValue⟩ := moveAssign_spec h (hv.symm ▸ hstack) fun heq => absurd heq hn
  obtain ⟨hsound, hafter⟩ := destruct_spec hmoved .tmp
  refine ⟨hsound, ?_⟩
  rw [hafter, hmovedValue, hv, hvalue, Function.update_idem]
  have hsame : Function.update m.value .tmp none = m.value :=
    Function.update_eq_self_iff.mpr htmp.symm
  rw [hsame, update_tmp htmp hn]

theorem copyAssign_spec (h : m.Sound) (htmp : m.value .tmp = none) (hn : n ≠ .tmp)
    (hstack : OffStack (m.value other)) :
    (m.copyAssign n other).Sound ∧
      (m.copyAssign n other).value = Function.update m.value n (m.value other) := by
  obtain ⟨hsound, hvalue⟩ := copyConstruct_spec h htmp other
  exact assign_tmp hsound hvalue htmp hn hstack

theorem assign_spec (h : m.Sound) (htmp : m.value .tmp = none) (hn : n ≠ .tmp)
    {type : ContentType} (hstack : type.storage ≠ .stack) (datum : δ) :
    (m.assign n type datum).Sound ∧
      (m.assign n type datum).value = Function.update m.value n (some (type, datum)) := by
  obtain ⟨hsound, hvalue⟩ := constructFrom_spec h htmp type datum
  exact assign_tmp hsound hvalue htmp hn hstack

theorem emplace_spec (h : m.Sound) (type : ContentType) (datum : δ) :
    (m.emplace n type datum).Sound ∧
      (m.emplace n type datum).value = Function.update m.value n (some (type, datum)) := by
  obtain ⟨hreset, hvalue⟩ := reset_spec h n
  have hn : (m.reset n).value n = none := by rw [hvalue, Function.update_self]
  obtain ⟨hsound, hafter⟩ := doEmplace_spec hreset hn type datum
  refine ⟨hsound, hafter.trans ?_⟩
  rw [hvalue, Function.update_idem]

theorem swap_spec (h : m.Sound) (htmp : m.value .tmp = none) (hn : n ≠ .tmp) (hother : other ≠ .tmp)
    (hstack : OffStack (m.value n)) (hstackOther : OffStack (m.value other)) :
    (m.swap n other).Sound ∧ (m.swap n other).value =
      Function.update (Function.update m.value n (m.value other)) other (m.value n) := by
  obtain ⟨hfirst, hfirstValue⟩ := moveConstruct_spec h htmp n
  have hfirstTmp : (m.moveConstruct .tmp n).value .tmp = m.value n := by
    rw [hfirstValue, Function.update_self]
  have hfirstN : (m.moveConstruct .tmp n).value n = none := by
    rw [hfirstValue, Function.update_of_ne hn, Function.update_self]
  have hfirstOther : OffStack ((m.moveConstruct .tmp n).value other) := by
    rw [hfirstValue, Function.update_of_ne hother]
    by_cases hsame : other = n
    · rw [hsame, Function.update_self]
      trivial
    · rwa [Function.update_of_ne hsame]
  obtain ⟨hsecond, hsecondValue⟩ := moveAssign_spec hfirst hfirstOther fun _ => hfirstN
  have hsecondTmp : ((m.moveConstruct .tmp n).moveAssign n other).value .tmp = m.value n := by
    rw [hsecondValue, Function.update_of_ne hn.symm, Function.update_of_ne hother.symm, hfirstTmp]
  obtain ⟨hthird, hthirdValue⟩ :=
    moveAssign_spec hsecond (hsecondTmp.symm ▸ hstack) fun heq => absurd heq hother
  obtain ⟨hsound, hvalue⟩ := destruct_spec hthird .tmp
  refine ⟨hsound, hvalue.trans ?_⟩
  rw [hthirdValue, hsecondTmp, hsecondValue, hfirstValue]
  funext k
  by_cases htmpK : k = .tmp
  · subst htmpK
    rw [Function.update_self, Function.update_of_ne hother.symm, Function.update_of_ne hn.symm, htmp]
  rw [Function.update_of_ne htmpK]
  by_cases hotherK : k = other
  · subst hotherK
    rw [Function.update_self, Function.update_self]
  rw [Function.update_of_ne hotherK, Function.update_of_ne hotherK, Function.update_of_ne htmpK]
  by_cases hnK : k = n
  · subst hnK
    rw [Function.update_self, Function.update_self, Function.update_of_ne hother,
      Function.update_of_ne (Ne.symm hotherK)]
  · rw [Function.update_of_ne hnK, Function.update_of_ne hnK, Function.update_of_ne hotherK,
      Function.update_of_ne htmpK, Function.update_of_ne hnK]

-- Any sequence of operations

theorem value_of_isNone {n : Nat} (h : (m.objects (.var n)).isNone = true) :
    m.value (.var n) = none := by
  have hnone : m.objects (.var n) = none := Option.isNone_iff_eq_none.mp h
  simp [value, holds, any, hnone, AnyObject.content]

theorem values_update (v : Name → Option (ContentType × δ)) (n : Nat)
    (x : Option (ContentType × δ)) :
    (fun k => Function.update v (.var n) x (.var k)) =
      Function.update (fun k => v (.var k)) n x := by
  funext k
  by_cases hk : k = n
  · subst hk
    rw [Function.update_self, Function.update_self]
  · rw [Function.update_of_ne hk, Function.update_of_ne fun heq => hk (Name.var.inj heq)]

theorem tmp_ne_var (n : Nat) : Name.tmp ≠ .var n := nofun

/-- What a run keeps: the objects hold the values, and nothing is left behind. -/
structure Kept (m : Memory δ) (v : Values δ) : Prop where
  sound : m.Sound
  tmp : m.value .tmp = none
  values : m.values = v

theorem kept_start : Kept ({} : Memory δ) fun _ => none where
  sound := ⟨Owned.start, nofun⟩
  tmp := rfl
  values := rfl

variable {v : Values δ}

/-- An operation that gives one object its value. -/
theorem Kept.update {m' : Memory δ} {n : Nat} {x : Option (ContentType × δ)} (h : Kept m v)
    (hafter : m'.Sound ∧ m'.value = Function.update m.value (.var n) x) :
    Kept m' (Function.update v n x) where
  sound := hafter.1
  tmp := by
    rw [hafter.2, Function.update_of_ne (tmp_ne_var n)]
    exact h.tmp
  values := by
    rw [← h.values]
    unfold Memory.values
    rw [hafter.2, values_update]

theorem Kept.update_update {m' : Memory δ} {n k : Nat} {x y : Option (ContentType × δ)}
    (h : Kept m v)
    (hafter : m'.Sound ∧
      m'.value = Function.update (Function.update m.value (.var n) x) (.var k) y) :
    Kept m' (Function.update (Function.update v n x) k y) where
  sound := hafter.1
  tmp := by
    rw [hafter.2, Function.update_of_ne (tmp_ne_var k), Function.update_of_ne (tmp_ne_var n)]
    exact h.tmp
  values := by
    rw [← h.values]
    unfold Memory.values
    rw [hafter.2, values_update, values_update]

/-- **One operation** that is safe does to the values what it is for. -/
theorem kept_step {label : Label δ} {m' : Memory δ} (h : Kept m v) (hsafe : Safe m label)
    (hstep : m.step label = some m') : Kept m' (v.after label) := by
  obtain ⟨⟨hnew, -⟩, heq⟩ := Option.ite_none_right_eq_some.mp hstep
  cases heq
  have hvalue : ∀ n, m.value (.var n) = v n := fun n => congrFun h.values n
  cases label with
  | construct n => exact h.update (construct_spec h.sound (value_of_isNone (hnew n rfl)))
  | constructFrom n type datum =>
    exact h.update (constructFrom_spec h.sound (value_of_isNone (hnew n rfl)) type datum)
  | copyConstruct n other =>
    have hspec := copyConstruct_spec h.sound (value_of_isNone (hnew n rfl)) (.var other)
    rw [hvalue] at hspec
    exact h.update hspec
  | moveConstruct n other =>
    have hspec := moveConstruct_spec h.sound (value_of_isNone (hnew n rfl)) (.var other)
    rw [hvalue] at hspec
    exact h.update_update hspec
  | copyAssign n other =>
    have hspec := copyAssign_spec h.sound h.tmp (tmp_ne_var n).symm hsafe
    rw [hvalue] at hspec
    exact h.update hspec
  | moveAssign n other =>
    obtain ⟨hstack, hself⟩ := hsafe
    have hspec := moveAssign_spec (n := .var n) h.sound hstack fun heq =>
      hself (Name.var.inj heq)
    rw [hvalue] at hspec
    have hkept := h.update_update hspec
    show Kept _ (if n = other then v else _)
    split
    next hsame =>
      subst hsame
      have hnone : v n = none := (hvalue n).symm.trans (hself rfl)
      rw [hnone, Function.update_idem, Function.update_eq_self_iff.mpr hnone.symm] at hkept
      exact hkept
    next => exact hkept
  | assign n type datum =>
    exact h.update (assign_spec h.sound h.tmp (tmp_ne_var n).symm hsafe datum)
  | emplace n type datum => exact h.update (emplace_spec h.sound type datum)
  | reset n => exact h.update (reset_spec h.sound (.var n))
  | swap n other =>
    have hspec := swap_spec h.sound h.tmp (tmp_ne_var n).symm (tmp_ne_var other).symm hsafe.1 hsafe.2
    rw [hvalue, hvalue] at hspec
    exact h.update_update hspec
  | destruct n => exact h.update (destruct_spec h.sound (.var n))

theorem kept_run : ∀ {labels : List (Label δ)} {m m' : Memory δ} {v : Values δ}, Kept m v →
    Runs.Along step Safe m labels → Runs.run step m labels = some m' →
    Kept m' (labels.foldl Values.after v) := by
  intro labels
  induction labels with
  | nil =>
    intro m m' v h _ hrun
    rw [Runs.run_nil, Option.some.injEq] at hrun
    exact hrun ▸ h
  | cons label labels ih =>
    intro m m' v h halong hrun
    obtain ⟨u, hu, hrun⟩ := Runs.run_cons_some.mp hrun
    exact ih (kept_step h halong.1 hu) (Runs.along_tail halong hu) hrun

end Memory

/-- **An `Any` manages the life of its content**, in the sequences of operations that move-assign
no value of the stack, and no object with a value to itself. -/
theorem manages {labels : List (Label δ)} {m : Memory δ}
    (halong : Runs.Along Memory.step Safe {} labels)
    (hrun : Runs.run Memory.step {} labels = some m) : Managed m labels := by
  have hkept := Memory.kept_run Memory.kept_start halong hrun
  have howned := hkept.sound.owned
  have htmp : m.owner .tmp = none := Memory.owner_eq_none hkept.tmp
  refine ⟨hkept.values, fun id hid => ?_, fun id later earlier hlog =>
    howned.not_read_after hlog⟩
  obtain ⟨honce, hheld | hgone⟩ := howned.destroyed_once hid
  · refine ⟨honce, .inl ⟨?_, hheld.2⟩⟩
    obtain ⟨n, hn⟩ := hheld.1
    cases n with
    | var n => exact ⟨n, hn⟩
    | tmp =>
      rw [htmp] at hn
      cases hn
  · exact ⟨honce, .inr ⟨fun n => hgone.1 (.var n), hgone.2⟩⟩

-- Runs

instance : ∀ v : Option (ContentType × δ), Decidable (OffStack v)
  | some (type, _) => inferInstanceAs (Decidable (type.storage ≠ .stack))
  | none => isTrue trivial

instance : ∀ (m : Memory δ) (label : Label δ), Decidable (Safe m label)
  | m, .copyAssign _ other => inferInstanceAs (Decidable (OffStack (m.values other)))
  | m, .moveAssign n other =>
    inferInstanceAs (Decidable (OffStack (m.values other) ∧ (n = other → m.values n = none)))
  | _, .assign _ type _ => inferInstanceAs (Decidable (type.storage ≠ .stack))
  | m, .swap n other =>
    inferInstanceAs (Decidable (OffStack (m.values n) ∧ OffStack (m.values other)))
  | _, .construct _ | _, .constructFrom _ _ _ | _, .copyConstruct _ _ | _, .moveConstruct _ _
  | _, .emplace _ _ _ | _, .reset _ | _, .destruct _ => isTrue trivial

def int32 : ContentType := ⟨"int32_t", .trivialStack⟩

def sharedPtr : ContentType := ⟨"std::shared_ptr<int32_t>", .stack⟩

def string : ContentType := ⟨"std::string", .heap⟩

/-- Two objects with values of two kinds; one is copied to itself, they are swapped, and one of
them ends. -/
def copiesAndSwaps : List (Label Nat) :=
  [.constructFrom 0 int32 1, .construct 1, .assign 1 string 2, .copyConstruct 2 1,
    .copyAssign 0 0, .swap 0 1, .constructFrom 3 sharedPtr 3, .moveConstruct 4 3, .destruct 1]

theorem manages_copiesAndSwaps :
    ∃ m, Runs.run Memory.step {} copiesAndSwaps = some m ∧ Managed m copiesAndSwaps :=
  ⟨_, rfl, manages (by decide) rfl⟩

def assignsPointer : List (Label Nat) := [.construct 0, .assign 0 sharedPtr 7]

def movesToItself : List (Label Nat) := [.constructFrom 0 int32 7, .moveAssign 0 0]

/-- The pointer in the temporary object is destroyed twice, and the object that is moved to itself
loses its value. -/
theorem destroyed_twice_value_lost :
    (∃ m, Runs.run Memory.step {} assignsPointer = some m ∧
      m.ledger.log.count (.destroyed 0) = 2 ∧ ¬ Managed m assignsPointer) ∧
    ∃ m, Runs.run Memory.step {} movesToItself = some m ∧ m.values 0 = none ∧
      ¬ Managed m movesToItself := by
  refine ⟨⟨_, rfl, by decide, fun h => ?_⟩, ⟨_, rfl, rfl, fun h => ?_⟩⟩
  · obtain ⟨-, ⟨-, hcount⟩ | ⟨-, hcount⟩⟩ := h.once 0 (by decide)
    · exact absurd hcount (by decide)
    · exact absurd hcount (by decide)
  · have hvalue := congrFun h.values 0
    cases hvalue

end MediaFoundation.AnyStorage
