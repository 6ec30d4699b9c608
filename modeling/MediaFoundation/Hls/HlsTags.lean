import MediaFoundation.Lib.Pieces

/-!
# HLS tags

The reader of playlists of `hls_tags.cpp`: lines, tags and their attributes.

Conventions:

* A text is a list of bytes, written as characters up to `U+00FF`.
* `Attribute::Decimal` and `FloatingPoint` leave the number they return
  uninitialised when there is nothing but white space to read; the result is
  then `none`.
* How a `double` is read is a parameter, `readDouble`.
* A `Tag` is its class with its data. A cast to another class, and a missing
  attribute, are `none`.
* `HexSequence`, `GetByteRange` and `GetResolution` are left out: no media
  playlist uses them.
-/

namespace MediaFoundation.Hls

abbrev Text := List Char

-- Attributes

structure Attribute where
  name : Text
  value : Text
deriving DecidableEq

/-- `std::isspace` in the locale "C". -/
def isSpace (c : Char) : Bool := c = ' ' ∨ '\t' ≤ c ∧ c ≤ '\r'

def isDigit (c : Char) : Bool := '0' ≤ c ∧ c ≤ '9'

def digitsValue (digits : Text) : Nat := digits.foldl (fun n c => 10 * n + (c.toNat - '0'.toNat)) 0

/-- `is >> ret` into a `uint64_t`: overflow gives the largest one, and a number
with a minus sign wraps around. -/
def Attribute.decimal (a : Attribute) : Option Nat :=
  let field := a.value.dropWhile isSpace
  if field = [] then none
  else
    let negative := field.head? = some '-'
    let digits :=
      (if negative ∨ field.head? = some '+' then field.tail else field).takeWhile isDigit
    let n := digitsValue digits
    some (if 2 ^ 64 ≤ n then 2 ^ 64 - 1 else if negative then (2 ^ 64 - n) % 2 ^ 64 else n)

def Attribute.floatingPoint {δ : Type*} (readDouble : Text → δ) (a : Attribute) : Option δ :=
  let field := a.value.dropWhile isSpace
  if field = [] then none else some (readDouble field)

/-- The loop of `QuotedString`: a backslash stands for the character behind it. -/
def unescape : Text → Text
  | [] => []
  | '\\' :: [] => []
  | '\\' :: c :: s => c :: unescape s
  | c :: s => c :: unescape s

def Attribute.quotedString (a : Attribute) : Text :=
  match a.value with
  | [] => []
  | c :: s =>
    if c ≠ '"' then a.value
    else if a.value.length < 2 then []
    else unescape s.dropLast

-- Attribute lists

/-- The name, and what is left of the stream. -/
def parseAttributeName : Text → Text × Text
  | [] => ([], [])
  | c :: s =>
    if ('A' ≤ c ∧ c ≤ 'Z') ∨ c = '-' then
      let r := parseAttributeName s
      (c :: r.1, r.2)
    else if c = '=' then ([], s)
    else parseAttributeName s

def parseAttributeValue (bQuoted : Bool) : Text → Text × Text
  | [] => ([], [])
  | c :: s =>
    if c = '\\' ∧ bQuoted then
      match s with
      -- `get` at the end of the stream returns `EOF`, which is put as a byte
      | [] => ([Char.ofNat 255], [])
      | d :: s =>
        let r := parseAttributeValue bQuoted s
        (d :: r.1, r.2)
    else if c = ',' ∧ ¬ bQuoted then ([], s)
    else if c = '"' then
      if bQuoted then ([c], s)
      else
        let r := parseAttributeValue true s
        (c :: r.1, r.2)
    else if ¬ bQuoted ∧ (c < '-' ∨ 'z' < c) then parseAttributeValue bQuoted s
    else
      let r := parseAttributeValue bQuoted s
      (c :: r.1, r.2)

theorem parseAttributeName_length : ∀ s : Text, (parseAttributeName s).2.length ≤ s.length := by
  intro s
  induction s with
  | nil => exact le_rfl
  | cons c s ih =>
    unfold parseAttributeName
    split_ifs
    · exact ih.trans (Nat.le_succ _)
    · exact Nat.le_succ _
    · exact ih.trans (Nat.le_succ _)

theorem parseAttributeName_cons_length (c : Char) (s : Text) :
    (parseAttributeName (c :: s)).2.length ≤ s.length := by
  unfold parseAttributeName
  split_ifs
  · exact parseAttributeName_length s
  · exact le_rfl
  · exact parseAttributeName_length s

theorem parseAttributeValue_length :
    ∀ (s : Text) (bQuoted : Bool), (parseAttributeValue bQuoted s).2.length ≤ s.length
  | [], _ => le_rfl
  | [c], bQuoted => by
    unfold parseAttributeValue
    split_ifs <;> simp [parseAttributeValue]
  | c :: d :: s, bQuoted => by
    have hd := fun q => parseAttributeValue_length (d :: s) q
    have hs := parseAttributeValue_length s bQuoted
    unfold parseAttributeValue
    split_ifs
    · exact hs.trans (Nat.le_succ_of_le (Nat.le_succ _))
    · exact Nat.le_succ _
    · exact Nat.le_succ _
    · exact (hd true).trans (Nat.le_succ _)
    · exact (hd bQuoted).trans (Nat.le_succ _)
    · exact (hd bQuoted).trans (Nat.le_succ _)

/-- `AttributesTag::ParseAttributes`: each round reads at least one character. -/
def AttributesTag.parseAttributes : Text → List Attribute
  | [] => []
  | c :: s =>
    let name := parseAttributeName (c :: s)
    let value := parseAttributeValue false name.2
    let rest := AttributesTag.parseAttributes value.2
    if name.1 ≠ [] then ⟨name.1, value.1⟩ :: rest else rest
termination_by field => field.length
decreasing_by
  exact Nat.lt_succ_of_le
    ((parseAttributeValue_length _ false).trans (parseAttributeName_cons_length c s))

def ValuesListTag.parseAttributes (field : Text) : List Attribute :=
  if ',' ∈ field then
    [⟨"DURATION".toList, field.takeWhile (· ≠ ',')⟩, ⟨"TITLE".toList, field.dropWhile (· ≠ ',')⟩]
  else
    -- broken EXTINF without mandatory comma
    [⟨"DURATION".toList, field⟩]

-- Tags

inductive HlsTag where
  | extxdiscontinuity
  | extxendlist
  | extxiframesonly
  | uri
  | extxversion
  | extxbyterange
  | extxprogramdatetime
  | extxtargetduration
  | extxmediasequence
  | extxdiscontinuitysequence
  | extxplaylisttype
  | extxkey
  | extxmap
  | extxmedia
  | extxstart
  | extxstreaminf
  | extxiframestreaminf
  | extxsessionkey
  | extinf
deriving DecidableEq

def exttagmapping : List (String × HlsTag) :=
  [("EXT-X-BYTERANGE", .extxbyterange),
    ("EXT-X-DISCONTINUITY", .extxdiscontinuity),
    ("EXT-X-KEY", .extxkey),
    ("EXT-X-MAP", .extxmap),
    ("EXT-X-VERSION", .extxversion),
    ("EXT-X-PROGRAM-DATE-TIME", .extxprogramdatetime),
    ("EXT-X-TARGETDURATION", .extxtargetduration),
    ("EXT-X-MEDIA-SEQUENCE", .extxmediasequence),
    ("EXT-X-DISCONTINUITY-SEQUENCE", .extxdiscontinuitysequence),
    ("EXT-X-ENDLIST", .extxendlist),
    ("EXT-X-PLAYLIST-TYPE", .extxplaylisttype),
    ("EXT-X-I-FRAMES-ONLY", .extxiframesonly),
    ("EXT-X-MEDIA", .extxmedia),
    ("EXT-X-START", .extxstart),
    ("EXT-X-STREAM-INF", .extxstreaminf),
    ("EXT-X-I-FRAME-STREAM-INF", .extxiframestreaminf),
    ("EXT-X-SESSION-KEY", .extxsessionkey),
    ("EXTINF", .extinf),
    ("", .uri)]

inductive Tag where
  | regular (type : HlsTag)
  | singleValue (type : HlsTag) (attr : Attribute)
  | attributes (type : HlsTag) (attributes : List Attribute)

namespace Tag

def getType : Tag → HlsTag
  | regular type => type
  | singleValue type _ => type
  | attributes type _ => type

def getValue : Tag → Option Attribute
  | singleValue _ attr => some attr
  | _ => none

def getAttributeByName (name : String) : Tag → Option Attribute
  | attributes _ list => list.find? fun attr => attr.name = name.toList
  | _ => none

def addAttribute (attr : Attribute) : Tag → Tag
  | attributes type list => attributes type (list ++ [attr])
  | tag => tag

end Tag

def newSingleValueTag (type : HlsTag) (value : Text) : Tag := .singleValue type ⟨[], value⟩

def newAttributesTag (type : HlsTag) (value : Text) : Tag :=
  .attributes type (AttributesTag.parseAttributes value)

/-- The constructor of the base class reads the value, too. -/
def newValuesListTag (type : HlsTag) (value : Text) : Tag :=
  .attributes type (AttributesTag.parseAttributes value ++ ValuesListTag.parseAttributes value)

def createTag (type : HlsTag) (value : Text) : Tag :=
  match type with
  | .extxdiscontinuity | .extxendlist | .extxiframesonly => .regular type
  | .uri | .extxversion | .extxbyterange | .extxprogramdatetime | .extxtargetduration
  | .extxmediasequence | .extxdiscontinuitysequence | .extxplaylisttype => newSingleValueTag type value
  | .extinf => newValuesListTag type value
  | .extxkey | .extxsessionkey | .extxmap | .extxmedia | .extxstart | .extxstreaminf
  | .extxiframestreaminf => newAttributesTag type value

def hlsTagOf (name : Text) : Option HlsTag :=
  (exttagmapping.find? fun entry => name = entry.1.toList).map Prod.snd

def createTagByName (name value : Text) : Option Tag :=
  (hlsTagOf name).map fun type => createTag type value

-- Lines

def split (s delim : Text) : List Text :=
  if s = [] then [s] else (Pieces.pieces delim s).filter (· ≠ [])

structure Entries where
  list : List Tag := []
  /-- When there is one, it is the last of the list. -/
  lastTag : Option Tag := none

/-- `keyValue[1]`, if there are two of them. -/
def valueOf : List Text → Text
  | [value] => value
  | _ => []

def parseTag (e : Entries) (line : Text) : Entries :=
  if "#EXT".toList <:+: line then
    match split (line.drop 1) ":".toList with
    | [] => e
    | key :: values =>
      if key ≠ [] then
        let tag := createTagByName key (valueOf values)
        { list := e.list ++ tag.toList, lastTag := tag }
      else e
  else e

def parseURI (e : Entries) (line : Text) : Entries :=
  match e.lastTag with
  | some lastTag =>
    if lastTag.getType = .extxstreaminf then
      -- master playlist uri, merge as attribute
      { list := e.list.dropLast ++ [lastTag.addAttribute ⟨"URI".toList, line⟩], lastTag := none }
    else { list := e.list ++ (createTagByName [] line).toList, lastTag := none }
  | none => { list := e.list ++ (createTagByName [] line).toList, lastTag := none }

def parseLine (e : Entries) (line : Text) : Entries :=
  if line.head? = some '#' then parseTag e line
  else if line ≠ [] then parseURI e line
  else { e with lastTag := none }

def splitLines (s : Text) : List Text :=
  let lines := split s "\r\n".toList
  if lines.length = 1 then split s "\n".toList else lines

def parseEntries (s : Text) : List Tag := ((splitLines s).foldl parseLine {}).list

end MediaFoundation.Hls
