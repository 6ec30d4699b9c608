import MediaFoundation.Hls.HlsTags
import MediaFoundation.Http.Download

/-!
# The headers of a response

`RxHeaderData` (`downloader.cpp`) on the text of the lines: each of its blocks
takes the second token of the lines that begin with a name.

Conventions:

* a line is its text up to the NUL that ends it; `Memory` is what the call finds
  beside the text;
* the blocks return early where a line has no second token, with `size * nitems`
  like the end of the function;
* `atol` has its limits at the ends of a `long`.
-/

namespace MediaFoundation.Http

open Hls (Text isSpace isDigit digitsValue)

variable {key : Text} {info : Headers}

-- The functions of the C library

/-- `strtok_s` for colons: the token, and what is left with its colon at the front. -/
def strtok (s : Text) : Option (Text × Text) :=
  let s := s.dropWhile (· = ':')
  if s = [] then none else some (s.takeWhile (· ≠ ':'), s.dropWhile (· ≠ ':'))

def stringTrim (str : Text) : Text := (str.dropWhile isSpace).rdropWhile isSpace

def atol (s : Text) : Int :=
  let s := s.dropWhile isSpace
  let negative := s.head? = some '-'
  let n := digitsValue ((if negative ∨ s.head? = some '+' then s.tail else s).takeWhile isDigit)
  if negative then max (-2 ^ 63) (-n) else min n (2 ^ 63 - 1)

/-- `strncmp` with each of the spellings. -/
def startsWith (names : List Text) (key : Text) : Bool := names.any (·.isPrefixOf key)

def saysChunked (transEncode : Text) : Bool := "chunked".toList.isPrefixOf transEncode

-- The callback

/-- `fileLen` before `sscanf_s`, and the bytes behind the NUL of the line. -/
structure Memory where
  fileLen : UInt64
  beyond : Nat → Char

structure Headers extends HeaderInfo where
  contentType : Text
  isHeaderUpdated : Bool

namespace Headers

def typeNames : List Text := ["Content-Type".toList]

def lengthNames : List Text := ["Content-Length".toList, "content-length".toList]

def encodingNames : List Text := ["Transfer-Encoding".toList, "transfer-encoding".toList]

def rangeNames : List Text := ["Content-Range".toList, "content-range".toList]

/-- The bytes from the trimmed token to the NUL of the line. `strtok_s` has put a NUL for
the colon, `StringTrim` one for each blank it took from the end. -/
def bytesFrom (token next : Text) : Text :=
  let dropped := token.dropWhile isSpace
  let type := stringTrim token
  type ++ List.replicate (dropped.length - type.length) '\x00' ++
    '\x00' :: (next ++ ['\x00']).tail

def memcpy (n : Nat) (bytes : Text) (beyond : Nat → Char) : Text :=
  bytes.take n ++ (List.range (n - bytes.length)).map beyond

/-- One of the blocks, on the record and what is left of the line; an `error` is the early
return. -/
def block (names : List Text) (key : Text) (f : Text → Text → Headers → Headers)
    (s : Headers × Text) : Except Headers (Headers × Text) :=
  if startsWith names key then
    match strtok s.2 with
    | none => .error s.1
    | some (token, next) => .ok (f token next s.1, next)
  else .ok s

def blocks (m : Memory) (key : Text) (s : Headers × Text) : Except Headers (Headers × Text) := do
  let s ← block typeNames key (fun token next info =>
    { info with contentType := memcpy 32 (bytesFrom token next) m.beyond }) s
  let s ← block lengthNames key (fun token _ info =>
    { info with contentLen := atol (stringTrim token) }) s
  let s ← block encodingNames key (fun token _ info =>
    if saysChunked (stringTrim token) then { info with isChunked := true }
    else info) s
  block rangeNames key (fun token _ info =>
    if info.fileContentLen = 0 then
      { info with fileContentLen := fileLen (stringTrim token) m.fileLen.toNat }
    else info) s

def rxHeaderData (m : Memory) (info : Headers) (buffer : Text) : Headers :=
  match strtok buffer with
  | none => info
  | some (key, next) =>
    match blocks m key (info, next) with
    | .error info => info
    | .ok (info, _) => { info with isHeaderUpdated := true }

/-- The lines of a response; `m n` is the memory at the `n`-th call. -/
def rxHeaders : (Nat → Memory) → Headers → List Text → Headers
  | _, info, [] => info
  | m, info, line :: lines => rxHeaders (fun n => m (n + 1)) (rxHeaderData (m 0) info line) lines

end Headers

-- What a line does

/-- The token behind the colon of a line that begins with one of the names, and what is
left of the line. -/
def secondToken (names : List Text) (line : Text) : Option (Text × Text) := do
  let (key, next) ← strtok line
  if startsWith names key then strtok next else none

/-- No word begins with a name of each list. -/
theorem startsWith_disjoint {as bs : List Text} (h : ∀ a ∈ as, ∀ b ∈ bs, ¬ a <+: b ∧ ¬ b <+: a)
    (hkey : startsWith as key = true) : startsWith bs key = false := by
  obtain ⟨a, ha, hprefix⟩ := List.any_eq_true.mp hkey
  rw [startsWith, List.any_eq_false]
  intro b hb hother
  rw [List.isPrefixOf_iff_prefix] at hprefix hother
  rcases List.prefix_or_prefix_of_prefix hprefix hother with hab | hba
  · exact (h a ha b hb).1 hab
  · exact (h a ha b hb).2 hba

namespace Headers

/-- The line is no name without a value, at which the function returns early. -/
def finishes (line : Text) : Bool :=
  match strtok line with
  | none => false
  | some (key, next) => (strtok next).isSome || !(startsWith typeNames key ||
      startsWith lengthNames key || startsWith encodingNames key || startsWith rangeNames key)

structure Reads (m : Memory) (info : Headers) (line : Text) (info' : Headers) : Prop where
  contentType : info'.contentType = match secondToken typeNames line with
    | some (token, next) => memcpy 32 (bytesFrom token next) m.beyond
    | none => info.contentType
  contentLen : info'.contentLen = match secondToken lengthNames line with
    | some (token, _) => atol (stringTrim token)
    | none => info.contentLen
  isChunked : info'.isChunked = match secondToken encodingNames line with
    | some (token, _) => info.isChunked || saysChunked (stringTrim token)
    | none => info.isChunked
  fileContentLen : info'.fileContentLen = match secondToken rangeNames line with
    | some (token, _) =>
      if info.fileContentLen = 0 then fileLen (stringTrim token) m.fileLen.toNat
      else info.fileContentLen
    | none => info.fileContentLen
  isClosed : info'.isClosed = info.isClosed
  isHeaderUpdated : info'.isHeaderUpdated = (info.isHeaderUpdated || finishes line)

theorem block_of_other {names : List Text} (h : startsWith names key = false)
    (f : Text → Text → Headers → Headers) (s : Headers × Text) : block names key f s = .ok s := by
  rw [block, h]
  rfl

theorem block_of_none {names : List Text} (h : startsWith names key = true)
    {f : Text → Text → Headers → Headers} {next : Text}
    (hnext : strtok next = none) :
    block names key f (info, next) = .error info := by
  simp only [block, h, if_true, hnext]

theorem block_of_some {names : List Text} (h : startsWith names key = true)
    {f : Text → Text → Headers → Headers} {next token rest : Text}
    (hnext : strtok next = some (token, rest)) :
    block names key f (info, next) = .ok (f token rest info, rest) := by
  simp only [block, h, if_true, hnext]

/-- A line of one name is no line of another. -/
theorem startsWith_type (h : startsWith typeNames key = true) :
    startsWith lengthNames key = false ∧ startsWith encodingNames key = false ∧
      startsWith rangeNames key = false :=
  ⟨startsWith_disjoint (by decide) h, startsWith_disjoint (by decide) h,
    startsWith_disjoint (by decide) h⟩

theorem startsWith_length (h : startsWith lengthNames key = true) :
    startsWith encodingNames key = false ∧ startsWith rangeNames key = false :=
  ⟨startsWith_disjoint (by decide) h, startsWith_disjoint (by decide) h⟩

theorem startsWith_encoding (h : startsWith encodingNames key = true) :
    startsWith rangeNames key = false :=
  startsWith_disjoint (by decide) h

def afterBlock (info : Headers) (f : Text → Text → Headers → Headers) :
    Option (Text × Text) → Headers
  | none => info
  | some (token, rest) => { f token rest info with isHeaderUpdated := true }

theorem rxHeaderData_type {m : Memory} {line key next : Text}
    (hkey : strtok line = some (key, next)) (htype : startsWith typeNames key = true) :
    rxHeaderData m info line = afterBlock info (fun token next info =>
      { info with contentType := memcpy 32 (bytesFrom token next) m.beyond }) (strtok next) := by
  obtain ⟨hlength, hencoding, hrange⟩ := startsWith_type htype
  unfold rxHeaderData blocks
  rw [hkey]
  cases hnext : strtok next with
  | none =>
    simp only [block_of_none htype hnext]
    rfl
  | some s =>
    simp only [block_of_some htype hnext, block_of_other hlength, block_of_other hencoding,
      block_of_other hrange]
    rfl

theorem rxHeaderData_length {m : Memory} {line key next : Text}
    (hkey : strtok line = some (key, next)) (htype : startsWith typeNames key = false)
    (hlength : startsWith lengthNames key = true) :
    rxHeaderData m info line = afterBlock info (fun token _ info =>
      { info with contentLen := atol (stringTrim token) }) (strtok next) := by
  obtain ⟨hencoding, hrange⟩ := startsWith_length hlength
  unfold rxHeaderData blocks
  rw [hkey]
  cases hnext : strtok next with
  | none =>
    simp only [block_of_other htype, block_of_none hlength hnext, bind, Except.bind]
    rfl
  | some s =>
    simp only [block_of_other htype, block_of_some hlength hnext, block_of_other hencoding,
      block_of_other hrange, bind, Except.bind]
    rfl

theorem rxHeaderData_encoding {m : Memory} {line key next : Text}
    (hkey : strtok line = some (key, next)) (htype : startsWith typeNames key = false)
    (hlength : startsWith lengthNames key = false)
    (hencoding : startsWith encodingNames key = true) :
    rxHeaderData m info line = afterBlock info (fun token _ info =>
      if saysChunked (stringTrim token) then { info with isChunked := true }
      else info) (strtok next) := by
  have hrange := startsWith_encoding hencoding
  unfold rxHeaderData blocks
  rw [hkey]
  cases hnext : strtok next with
  | none =>
    simp only [block_of_other htype, block_of_other hlength, block_of_none hencoding hnext, bind,
      Except.bind]
    rfl
  | some s =>
    simp only [block_of_other htype, block_of_other hlength, block_of_some hencoding hnext,
      block_of_other hrange, bind, Except.bind]
    rfl

theorem rxHeaderData_range {m : Memory} {line key next : Text}
    (hkey : strtok line = some (key, next)) (htype : startsWith typeNames key = false)
    (hlength : startsWith lengthNames key = false)
    (hencoding : startsWith encodingNames key = false)
    (hrange : startsWith rangeNames key = true) :
    rxHeaderData m info line = afterBlock info (fun token _ info =>
      if info.fileContentLen = 0 then
        { info with fileContentLen := fileLen (stringTrim token) m.fileLen.toNat }
      else info) (strtok next) := by
  unfold rxHeaderData blocks
  rw [hkey]
  cases hnext : strtok next with
  | none =>
    simp only [block_of_other htype, block_of_other hlength, block_of_other hencoding,
      block_of_none hrange hnext, bind, Except.bind]
    rfl
  | some s =>
    simp only [block_of_other htype, block_of_other hlength, block_of_other hencoding,
      block_of_some hrange hnext, bind, Except.bind]
    rfl

theorem rxHeaderData_other {m : Memory} {line key next : Text}
    (hkey : strtok line = some (key, next)) (htype : startsWith typeNames key = false)
    (hlength : startsWith lengthNames key = false)
    (hencoding : startsWith encodingNames key = false)
    (hrange : startsWith rangeNames key = false) :
    rxHeaderData m info line = { info with isHeaderUpdated := true } := by
  unfold rxHeaderData blocks
  rw [hkey]
  simp only [block_of_other htype, block_of_other hlength, block_of_other hencoding,
    block_of_other hrange, bind, Except.bind]

theorem secondToken_eq {names : List Text} {line key next : Text}
    (hkey : strtok line = some (key, next)) :
    secondToken names line = if startsWith names key = true then strtok next else none := by
  rw [secondToken, hkey]
  rfl

theorem finishes_eq {line key next : Text} (hkey : strtok line = some (key, next)) :
    finishes line = ((strtok next).isSome || !(startsWith typeNames key ||
      startsWith lengthNames key || startsWith encodingNames key ||
        startsWith rangeNames key)) := by
  rw [finishes, hkey]

theorem reads_rxHeaderData (m : Memory) (info : Headers) (line : Text) :
    Reads m info line (rxHeaderData m info line) := by
  cases hkey : strtok line with
  | none =>
    have hsecond (names : List Text) : secondToken names line = none := by
      rw [secondToken, hkey]
      rfl
    have hsame : rxHeaderData m info line = info := by rw [rxHeaderData, hkey]
    have hfinishes : finishes line = false := by rw [finishes, hkey]
    rw [hsame]
    constructor <;> simp only [hsecond, hfinishes, Bool.or_false]
  | some s =>
    obtain ⟨key, next⟩ := s
    have hsecond (names : List Text) : secondToken names line =
        if startsWith names key = true then strtok next else none := secondToken_eq hkey
    have hfinishes := finishes_eq hkey
    cases htype : startsWith typeNames key with
    | true =>
      obtain ⟨hlength, hencoding, hrange⟩ := startsWith_type htype
      rw [rxHeaderData_type hkey htype]
      cases hnext : strtok next <;> constructor <;>
        simp [hsecond, hfinishes, htype, hlength, hencoding, hrange, hnext, afterBlock]
    | false =>
      cases hlength : startsWith lengthNames key with
      | true =>
        obtain ⟨hencoding, hrange⟩ := startsWith_length hlength
        rw [rxHeaderData_length hkey htype hlength]
        cases hnext : strtok next <;> constructor <;>
          simp [hsecond, hfinishes, htype, hlength, hencoding, hrange, hnext, afterBlock]
      | false =>
        cases hencoding : startsWith encodingNames key with
        | true =>
          have hrange := startsWith_encoding hencoding
          rw [rxHeaderData_encoding hkey htype hlength hencoding]
          cases hnext : strtok next with
          | none =>
            constructor <;>
              simp [hsecond, hfinishes, htype, hlength, hencoding, hrange, hnext, afterBlock]
          | some s =>
            cases hchunked : saysChunked (stringTrim s.1) <;> constructor <;>
              simp [hsecond, hfinishes, htype, hlength, hencoding, hrange, hnext, afterBlock,
                hchunked]
        | false =>
          cases hrange : startsWith rangeNames key with
          | true =>
            rw [rxHeaderData_range hkey htype hlength hencoding hrange]
            cases hnext : strtok next with
            | none =>
              constructor <;>
                simp [hsecond, hfinishes, htype, hlength, hencoding, hrange, hnext, afterBlock]
            | some s =>
              by_cases hzero : info.fileContentLen = 0 <;> constructor <;>
                simp [hsecond, hfinishes, htype, hlength, hencoding, hrange, hnext, afterBlock,
                  hzero]
          | false =>
            rw [rxHeaderData_other hkey htype hlength hencoding hrange]
            constructor <;> simp [hsecond, hfinishes, htype, hlength, hencoding, hrange]

end Headers

end MediaFoundation.Http
