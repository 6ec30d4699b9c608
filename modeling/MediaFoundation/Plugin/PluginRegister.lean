import MediaFoundation.Lib.Roster

/-!
# PluginRegister

The registry of the plugins (`plugin_register.cpp`): packages add plugins through a
`RegisterImpl` each, and the plugins of a package go when its loader does.

Conventions:

* The creator, the sniffer, the capabilities and the other extras of a definition are copied as
  they are. They are one value here, and so is a `PackageDef`.
* A map without an entry for a type is one with an empty entry. The order of the plugins in a
  map of `registerTable` shows nowhere.
* A loader is a number, and a null pointer is `none`. The `RegisterImpl`s are numbered.
-/

namespace MediaFoundation.Plugin

open Roster (find put remove)

-- Definitions

inductive PluginType where
  | invalidType
  | source
  | demuxer
  | audioDecoder
  | audioEncoder
  | videoDecoder
  | videoEncoder
  | audioSink
  | videoSink
  | muxer
  | outputSink
  | genericPlugin
  /-- A value of the underlying `int32_t` that has no name. -/
  | unlisted (code : Int32)
deriving DecidableEq

def PluginType.isCodec : PluginType → Bool
  | audioDecoder => true
  | videoDecoder => true
  | audioEncoder => true
  | videoEncoder => true
  | _ => false

inductive CodecMode where
  | hardware
  | software
deriving DecidableEq

/-- `Plugin::Status`, as far as `AddPlugin` returns it. -/
inductive AddStatus where
  | ok
  | errorInvalidData
  | errorUnknown
  | errorPluginAlreadyExists
deriving DecidableEq

/-- `PluginDefBase`, with `codecMode` of `CodecPluginDef`, which the others do not look at. -/
structure PluginDef (δ : Type) where
  apiVersion : UInt32
  pluginType : PluginType
  name : String
  description : String
  rank : UInt32
  codecMode : CodecMode
  rest : δ

structure PluginInfo where
  apiVersion : UInt32
  pluginType : PluginType
  name : String
  description : String
  rank : UInt32
  codecMode : Option CodecMode

abbrev Loader := Nat

structure PluginRegInfo (δ π : Type) where
  packageDef : Option π
  info : PluginInfo
  rest : δ
  loader : Option Loader

section Register

variable {δ π : Type}

-- RegisterData and RegisterImpl

structure RegisterData (δ π : Type) where
  registerNames : PluginType → List String
  registerTable : PluginType → List (String × PluginRegInfo δ π)

structure RegisterImpl (π : Type) where
  pluginLoader : Option Loader
  packageDef : Option π := none

def RegisterData.empty : RegisterData δ π := ⟨fun _ => [], fun _ => []⟩

def RegisterData.isPluginExist (d : RegisterData δ π) (type : PluginType) (name : String) : Bool :=
  (find (d.registerTable type) name).isSome

def verification (definition : PluginDef δ) : Bool :=
  definition.rank ≤ 100 && definition.pluginType != .invalidType

/-- `MAKE_VERSION(1, 0)`. -/
def apiVersionOne : UInt32 := 0x10000

def apiVersionMap : PluginType → UInt32
  | .invalidType => 0
  | .genericPlugin => 0
  | .unlisted _ => 0
  | _ => apiVersionOne

def versionMatched (definition : PluginDef δ) : Bool :=
  if definition.pluginType = .genericPlugin then true
  else
    let major := (definition.apiVersion >>> 16) &&& 0xFFFF
    let minor := definition.apiVersion &&& 0xFFFF
    let version := apiVersionMap definition.pluginType
    let coreMajor := (version >>> 16) &&& 0xFFFF
    let coreMinor := version &&& 0xFFFF
    major == coreMajor && minor ≤ coreMinor

def moreAcceptable (_ : PluginRegInfo δ π) (_ : PluginDef δ) : Bool := false

/-- `InitSourceInfo`, `InitDemuxerInfo` and so on: the type has one of them. -/
def PluginType.hasInit : PluginType → Bool
  | invalidType => false
  | unlisted _ => false
  | _ => true

def initInfo (definition : PluginDef δ) : PluginInfo where
  apiVersion := definition.apiVersion
  pluginType := definition.pluginType
  name := definition.name
  description := definition.description
  rank := definition.rank
  codecMode := if definition.pluginType.isCodec then some definition.codecMode else none

def updateRegisterTableAndRegisterNames (d : RegisterData δ π) (impl : RegisterImpl π)
    (definition : PluginDef δ) : RegisterData δ π × RegisterImpl π :=
  if definition.pluginType.hasInit then
    let regInfo : PluginRegInfo δ π :=
      ⟨impl.packageDef, initInfo definition, definition.rest, impl.pluginLoader⟩
    let names := d.registerNames definition.pluginType
    let names :=
      if definition.pluginType.isCodec ∧ regInfo.info.codecMode = some .hardware then
        definition.name :: names
      else names ++ [definition.name]
    -- the loader has been moved into the record
    (⟨Function.update d.registerNames definition.pluginType names,
      Function.update d.registerTable definition.pluginType
        (put (d.registerTable definition.pluginType) definition.name regInfo)⟩,
      { impl with pluginLoader := none })
  else (d, impl)

def addPlugin (d : RegisterData δ π) (impl : RegisterImpl π) (definition : PluginDef δ) :
    (RegisterData δ π × RegisterImpl π) × AddStatus :=
  if ¬ verification definition then ((d, impl), .errorInvalidData)
  else if ¬ versionMatched definition then ((d, impl), .errorUnknown)
  else
    match find (d.registerTable definition.pluginType) definition.name with
    | some regInfo =>
      if moreAcceptable regInfo definition then
        let table := remove (d.registerTable definition.pluginType) definition.name
        let d := ⟨d.registerNames, Function.update d.registerTable definition.pluginType table⟩
        (updateRegisterTableAndRegisterNames d impl definition, .ok)
      else ((d, impl), .errorPluginAlreadyExists)
    | none => (updateRegisterTableAndRegisterNames d impl definition, .ok)

-- PluginRegister

namespace RegisterData

def listPlugins (d : RegisterData δ π) (type : PluginType) (preferredCodecMode : CodecMode) :
    List String :=
  if type.isCodec ∧ preferredCodecMode ≠ .hardware then (d.registerNames type).reverse
  else d.registerNames type

def getPluginRegInfo (d : RegisterData δ π) (type : PluginType) (name : String) :
    Option (PluginRegInfo δ π) :=
  find (d.registerTable type) name

def deletePlugin (d : RegisterData δ π) (entry : String × PluginRegInfo δ π) :
    RegisterData δ π :=
  let type := entry.2.info.pluginType
  ⟨Function.update d.registerNames type ((d.registerNames type).filter fun n => n ≠ entry.1),
    Function.update d.registerTable type (remove (d.registerTable type) entry.1)⟩

/-- The loop over a copy of the plugins of one type. -/
def eraseFrom (loader : Option Loader) :
    List (String × PluginRegInfo δ π) → RegisterData δ π → RegisterData δ π
  | [], d => d
  | entry :: plugins, d =>
    eraseFrom loader plugins (if entry.2.loader = loader then d.deletePlugin entry else d)

def storedTypes : List PluginType :=
  [.source, .demuxer, .audioDecoder, .audioEncoder, .videoDecoder, .videoEncoder, .audioSink,
    .videoSink, .muxer, .outputSink, .genericPlugin]

def eraseTypes (loader : Option Loader) : List PluginType → RegisterData δ π → RegisterData δ π
  | [], d => d
  | type :: types, d => eraseTypes loader types (eraseFrom loader (d.registerTable type) d)

def eraseRegisteredPluginsByLoader (d : RegisterData δ π) (loader : Option Loader) :
    RegisterData δ π :=
  eraseTypes loader storedTypes d

end RegisterData

-- Packages

structure Registry (δ π : Type) where
  data : RegisterData δ π
  impls : Nat → RegisterImpl π

def Registry.start (loaderOf : Nat → Option Loader) : Registry δ π where
  data := .empty
  impls i := { pluginLoader := loaderOf i }

inductive Call (δ π : Type) where
  | addPackage (i : Nat) (definition : π)
  | addPlugin (i : Nat) (definition : PluginDef δ)
  | eraseByLoader (loader : Loader)

namespace Registry

def addPlugin (r : Registry δ π) (i : Nat) (definition : PluginDef δ) : Registry δ π × AddStatus :=
  let ((data, impl), ret) := Plugin.addPlugin r.data (r.impls i) definition
  ({ data, impls := Function.update r.impls i impl }, ret)

def perform (r : Registry δ π) : Call δ π → Registry δ π
  | .addPackage i definition =>
    { r with impls := Function.update r.impls i { r.impls i with packageDef := some definition } }
  | .addPlugin i definition => (r.addPlugin i definition).1
  | .eraseByLoader loader => { r with data := r.data.eraseRegisteredPluginsByLoader (some loader) }

def step (r : Registry δ π) (c : Call δ π) : Option (Registry δ π) := some (r.perform c)

end Registry

end Register

end MediaFoundation.Plugin
