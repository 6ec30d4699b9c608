import MediaFoundation.Lib.Narrow
import MediaFoundation.Hls.HlsTags

/-!
# Media playlists

`M3U8` of `m3u8.cpp`: what a text makes of the fragments and counters of the
playlist read before it.

Conventions:

* A number that is not initialised is `none`; so is the state after a null
  pointer has been dereferenced.
* `name_` is left out, as are log messages and the updaters that only log. The
  key, initialisation vector, offset and size of a fragment are never set.
-/

namespace MediaFoundation.Hls

open Narrow (narrow)

structure M3U8Fragment (δ : Type*) where
  uri : Text
  title : Text
  duration : Option δ
  sequence : Option Int
  discont : Bool
deriving DecidableEq

structure M3U8Info (δ : Type*) where
  uri : Text := []
  title : Text := []
  duration : Option δ
  discontinuity : Bool := false
  bVod : Bool

structure M3U8 (δ : Type*) where
  uri : Text
  targetDuration : Option δ
  bLive : Bool := false
  files : List (M3U8Fragment δ) := []
  /-- default 1 -/
  sequence : Option Nat := some 1
  discontSequence : Option Int := some 0
  playList : Text := []

def uriJoin (baseUrl uri : Text) : Text :=
  if "http://".toList <:+: uri ∨ "https://".toList <:+: uri then uri
  else if "//".toList <+: uri then baseUrl.takeWhile (· ≠ '/') ++ uri
  -- up to the last slash, or nothing
  else (baseUrl.reverse.dropWhile (· ≠ '/')).reverse ++ uri

namespace M3U8

variable {δ : Type*} [Zero δ] (readDouble : Text → δ)

def new (uri : Text) : M3U8 δ := { uri, targetDuration := some 0 }

def getExtInf (tag : Tag) : Option (Option δ × Text) :=
  match tag.getAttributeByName "DURATION", tag.getAttributeByName "TITLE" with
  | some duration, some title => some (duration.floatingPoint readDouble, title.quotedString)
  | _, _ => none

/-- The entry of `tagUpdatersMap_` for the tag, if there is one. -/
def updater (m : M3U8 δ) (info : M3U8Info δ) (tag : Tag) : Option (M3U8 δ × M3U8Info δ) :=
  match tag.getType with
  | .extxplaylisttype => tag.getValue.map fun value =>
    ({ m with bLive := ! info.bVod && value.quotedString ≠ "VOD".toList }, info)
  | .extxtargetduration => tag.getValue.map fun value =>
    ({ m with targetDuration := value.floatingPoint readDouble }, info)
  | .extxmediasequence => tag.getValue.map fun value =>
    ({ m with sequence := value.decimal }, info)
  | .extxdiscontinuitysequence => tag.getValue.map fun value =>
    ({ m with discontSequence := value.decimal.map fun (n : Nat) => narrow n },
      { info with discontinuity := true })
  | .extinf => (getExtInf readDouble tag).map fun r =>
    (m, { info with duration := r.1, title := r.2 })
  | .uri => tag.getValue.map fun value =>
    (m, { info with uri := uriJoin m.uri value.quotedString })
  | .extxdiscontinuity =>
    some ({ m with discontSequence := m.discontSequence.map (· + 1) }, { info with discontinuity := true })
  | _ => some (m, info)

/-- The rest of the loop of `UpdateFromTags`. -/
def addFragment (m : M3U8 δ) (info : M3U8Info δ) : M3U8 δ × M3U8Info δ :=
  if info.uri ≠ [] then
    let fragment := {
      uri := info.uri
      title := info.title
      duration := info.duration
      sequence := m.sequence.map fun (n : Nat) => narrow n
      discont := info.discontinuity }
    ({ m with
        files := m.files ++ [fragment]
        sequence := m.sequence.map fun (n : Nat) => (n + 1) % 2 ^ 64 },
      { info with uri := [], title := [], duration := some 0, discontinuity := false })
  else (m, info)

def updateTag (s : M3U8 δ × M3U8Info δ) (tag : Tag) : Option (M3U8 δ × M3U8Info δ) :=
  (updater readDouble s.1 s.2 tag).map fun r => addFragment r.1 r.2

def endsInEndList (tags : List Tag) : Bool :=
  match tags.getLast? with
  | some tag => tag.getType = .extxendlist
  | none => false

def startTags (m : M3U8 δ) (bVod : Bool) : M3U8 δ × M3U8Info δ :=
  ({ m with bLive := ! bVod }, { duration := some 0, bVod })

def updateFromTags (m : M3U8 δ) (tags : List Tag) : Option (M3U8 δ) :=
  (tags.foldlM (updateTag readDouble) (startTags m (endsInEndList tags))).map Prod.fst

def update (m : M3U8 δ) (playList : Text) : Option (M3U8 δ × Bool) :=
  if m.playList = playList then some (m, true)
  else if ¬ "#EXTM3U".toList <+: playList then some (m, false)
  else if "\n#EXT-X-STREAM-INF:".toList <:+: playList then some (m, false)
  else
    (updateFromTags readDouble { m with files := [] } (parseEntries playList)).map fun m =>
      ({ m with playList }, true)

end M3U8

end MediaFoundation.Hls
