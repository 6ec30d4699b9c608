import MediaFoundation.Lib.Lifetimes

/-!
# The storage of an Any

`Any` as a container (`any.h`): the three kinds of storage with their function
tables, the constructors and assignments, `Emplace`, `Swap`, `Reset` and the
destructor, over any number of `Any` objects.

Conventions:

* Every content that is constructed gets a number, under which the ledger has
  what happens to it.
* A trivial destructor does nothing; a content of a trivial type ends when its
  bytes are filled with zeros.
* A move constructor of the content takes over the value. No constructor throws,
  and the arguments of `Emplace` are not part of the content that it replaces.
* The temporary `Any` of an assignment or a `Swap` has a name of its own.
-/

namespace MediaFoundation.AnyStorage

open Lifetimes

-- Storage

/-- The function tables: `TrivialStackFunctionTable`, `StackFunctionTable` and
`HeapFunctionTable`. -/
inductive StorageClass where
  | trivialStack
  | stack
  | heap
deriving DecidableEq

structure ContentType where
  name : String
  storage : StorageClass

structure Content (δ : Type) where
  id : Nat
  datum : δ

/-- The union `Storage`; the object in `nonTrivialStack` may have been destroyed. -/
inductive Storage (δ : Type) where
  | zeros
  | trivialStack (content : Content δ)
  | nonTrivialStack (content : Content δ)
  | heap (pointer : Option (Content δ))

structure Ledger where
  next : Nat := 0
  log : Log := []

namespace Ledger

def note (l : Ledger) (e : Event) : Ledger := { l with log := e :: l.log }

def construct (l : Ledger) : Ledger := ⟨l.next + 1, .constructed l.next :: l.log⟩

end Ledger

namespace Storage

variable {δ : Type}

def store : StorageClass → Content δ → Storage δ
  | .trivialStack, c => .trivialStack c
  | .stack, c => .nonTrivialStack c
  | .heap, c => .heap (some c)

def content : StorageClass → Storage δ → Option (Content δ)
  | .trivialStack, .trivialStack c => some c
  | .stack, .nonTrivialStack c => some c
  | .heap, .heap pointer => pointer
  | _, _ => none

def fill (s : Storage δ) (l : Ledger) : Storage δ × Ledger :=
  match s with
  | .trivialStack c => (.zeros, l.note (.destroyed c.id))
  | _ => (.zeros, l)

/-- `Destroy`. To delete a null pointer does nothing. -/
def destroy (storage : StorageClass) (s : Storage δ) (l : Ledger) : Storage δ × Ledger :=
  match storage with
  | .trivialStack => (s, l)
  | .stack =>
    match s.content .stack with
    | some c => (s, l.note (.destroyed c.id))
    | none => (s, l)
  | .heap =>
    match s.content .heap with
    | some c => (.heap none, l.note (.destroyed c.id))
    | none => (.heap none, l)

/-- `Copy`, to a new content with the same value. -/
def copy (storage : StorageClass) (source : Storage δ) (l : Ledger) : Storage δ × Ledger :=
  match source.content storage with
  | some c => (store storage ⟨l.next, c.datum⟩, (l.note (.read c.id)).construct)
  | none => (.zeros, l)

def move (storage : StorageClass) (source : Storage δ) (l : Ledger) :
    Storage δ × Storage δ × Ledger :=
  match storage with
  | .trivialStack =>
    let (dest, l) := copy .trivialStack source l
    let (source, l) := source.fill l
    (dest, source, l)
  | .stack =>
    let (dest, l) := copy .stack source l
    let (source, l) := destroy .stack source l
    (dest, source, l)
  | .heap => (source, .heap none, l)

end Storage

-- Any

structure AnyObject (δ : Type) where
  functionTable : Option ContentType := none
  storage : Storage δ := .zeros

inductive Name where
  | var (n : Nat)
  | tmp
deriving DecidableEq

structure Memory (δ : Type) where
  objects : Name → Option (AnyObject δ) := fun _ => none
  ledger : Ledger := {}

namespace Memory

variable {δ : Type} (m : Memory δ) (n other : Name)

def any : AnyObject δ := (m.objects n).getD {}

def write (a : AnyObject δ) (l : Ledger) : Memory δ := ⟨Function.update m.objects n (some a), l⟩

def reset : Memory δ :=
  match (m.any n).functionTable with
  | some table =>
    let (storage, l) := (m.any n).storage.destroy table.storage m.ledger
    let (storage, l) := storage.fill l
    m.write n ⟨none, storage⟩ l
  | none => m.write n { m.any n with functionTable := none } m.ledger

def doEmplace (type : ContentType) (datum : δ) : Memory δ :=
  m.write n ⟨some type, .store type.storage ⟨m.ledger.next, datum⟩⟩ m.ledger.construct

def construct : Memory δ := m.write n {} m.ledger

def constructFrom (type : ContentType) (datum : δ) : Memory δ :=
  (m.construct n).doEmplace n type datum

def copyConstruct : Memory δ :=
  match (m.any other).functionTable with
  | some table =>
    let (storage, l) := (m.any other).storage.copy table.storage m.ledger
    m.write n ⟨some table, storage⟩ l
  | none => m.construct n

def moveConstruct : Memory δ :=
  match (m.any other).functionTable with
  | some table =>
    let (dest, source, l) := (m.any other).storage.move table.storage m.ledger
    (m.write n ⟨some table, dest⟩ l).write other ⟨none, source⟩ l
  | none => m.construct n

def moveFrom : Memory δ :=
  match (m.any other).functionTable with
  | some table =>
    let (dest, source, l) := (m.any other).storage.move table.storage m.ledger
    ((m.write n ⟨some table, dest⟩ l).write other ⟨some table, source⟩ l).reset other
  | none => m

def moveAssign : Memory δ := (m.reset n).moveFrom n other

def destruct : Memory δ :=
  let m := m.reset n
  { m with objects := Function.update m.objects n none }

def copyAssign : Memory δ := ((m.copyConstruct .tmp other).moveAssign n .tmp).destruct .tmp

def assign (type : ContentType) (datum : δ) : Memory δ :=
  ((m.constructFrom .tmp type datum).moveAssign n .tmp).destruct .tmp

def emplace (type : ContentType) (datum : δ) : Memory δ := (m.reset n).doEmplace n type datum

def swap : Memory δ :=
  (((m.moveConstruct .tmp n).moveAssign n other).moveAssign other .tmp).destruct .tmp

end Memory

-- Any sequence of operations

inductive Label (δ : Type) where
  | construct (n : Nat)
  | constructFrom (n : Nat) (type : ContentType) (datum : δ)
  | copyConstruct (n other : Nat)
  | moveConstruct (n other : Nat)
  | copyAssign (n other : Nat)
  | moveAssign (n other : Nat)
  | assign (n : Nat) (type : ContentType) (datum : δ)
  | emplace (n : Nat) (type : ContentType) (datum : δ)
  | reset (n : Nat)
  | swap (n other : Nat)
  | destruct (n : Nat)

namespace Label

variable {δ : Type}

def constructs : Label δ → Option Nat
  | construct n | constructFrom n _ _ | copyConstruct n _ | moveConstruct n _ => some n
  | _ => none

/-- The objects that are there already. -/
def uses : Label δ → List Nat
  | construct _ | constructFrom _ _ _ => []
  | copyConstruct _ other | moveConstruct _ other => [other]
  | copyAssign n other | moveAssign n other | swap n other => [n, other]
  | assign n _ _ | emplace n _ _ | reset n | destruct n => [n]

end Label

namespace Memory

variable {δ : Type}

def perform (m : Memory δ) : Label δ → Memory δ
  | .construct n => m.construct (.var n)
  | .constructFrom n type datum => m.constructFrom (.var n) type datum
  | .copyConstruct n other => m.copyConstruct (.var n) (.var other)
  | .moveConstruct n other => m.moveConstruct (.var n) (.var other)
  | .copyAssign n other => m.copyAssign (.var n) (.var other)
  | .moveAssign n other => m.moveAssign (.var n) (.var other)
  | .assign n type datum => m.assign (.var n) type datum
  | .emplace n type datum => m.emplace (.var n) type datum
  | .reset n => m.reset (.var n)
  | .swap n other => m.swap (.var n) (.var other)
  | .destruct n => m.destruct (.var n)

def step (m : Memory δ) (label : Label δ) : Option (Memory δ) :=
  if (∀ n ∈ label.constructs, (m.objects (.var n)).isNone) ∧
      ∀ n ∈ label.uses, (m.objects (.var n)).isSome
  then some (m.perform label) else none

end Memory

end MediaFoundation.AnyStorage
