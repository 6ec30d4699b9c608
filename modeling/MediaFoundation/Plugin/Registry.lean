import MediaFoundation.Lib.Runs
import MediaFoundation.Plugin.PluginRegister

/-!
# The registry over its runs

The names and the table of each type stay in step, and hardware codecs come first, in every run.
What `EraseRegisteredPluginsByLoader` erases are the plugins whose record has the loader; a
package hands its loader over to the record of its first plugin, so only that one is found again.
-/

namespace MediaFoundation.Plugin

open Roster (find put remove Lists find_put find_remove find_of_mem mem_of_find)

section Registry

variable {δ π : Type} {d : RegisterData δ π} {r r' : Registry δ π} {type : PluginType}
  {name : String} {definition : PluginDef δ} {impl : RegisterImpl π}
  {loaderOf : Nat → Option Loader} {calls : List (Call δ π)} {loader : Loader} {i : Nat}

-- The property

def isHardware (d : RegisterData δ π) (type : PluginType) (name : String) : Prop :=
  ∃ info, d.getPluginRegInfo type name = some info ∧ info.info.codecMode = some .hardware

structure Consistent (d : RegisterData δ π) : Prop where
  lists : ∀ type, Lists (d.registerNames type) (d.registerTable type)
  hardwareFirst : ∀ type, (d.registerNames type).Pairwise fun a b =>
    isHardware d type b → isHardware d type a

structure IsRecordOf (packageDef : Option π) (definition : PluginDef δ)
    (regInfo : PluginRegInfo δ π) : Prop where
  packageDef : regInfo.packageDef = packageDef
  info : regInfo.info = initInfo definition
  rest : regInfo.rest = definition.rest

/-- `AddPlugin` returns `OK` exactly if the definition can be found afterwards, and could not be
before. Otherwise it leaves the tables as they are. -/
structure AddsRightly (r : Registry δ π) (i : Nat) (definition : PluginDef δ) : Prop where
  ok_iff : (r.addPlugin i definition).2 = .ok ↔
    r.data.getPluginRegInfo definition.pluginType definition.name = none ∧
      ∃ info, (r.addPlugin i definition).1.data.getPluginRegInfo definition.pluginType
          definition.name = some info ∧
        IsRecordOf (r.impls i).packageDef definition info
  unchanged : (r.addPlugin i definition).2 ≠ .ok → (r.addPlugin i definition).1.data = r.data

abbrev Added := PluginType → String → Option Nat

/-- Nothing that the packages of the loader have added is left, and everything else is. -/
structure ErasesRightly (loaderOf : Nat → Option Loader) (added : Added) (d : RegisterData δ π)
    (loader : Loader) : Prop where
  gone : ∀ type name i, added type name = some i → loaderOf i = some loader →
    name ∉ (d.eraseRegisteredPluginsByLoader (some loader)).registerNames type ∧
      (d.eraseRegisteredPluginsByLoader (some loader)).getPluginRegInfo type name = none
  kept : ∀ type name i, added type name = some i → loaderOf i ≠ some loader →
    (name ∈ (d.eraseRegisteredPluginsByLoader (some loader)).registerNames type ↔
        name ∈ d.registerNames type) ∧
      (d.eraseRegisteredPluginsByLoader (some loader)).getPluginRegInfo type name =
        d.getPluginRegInfo type name

-- The condition

def Accepts (d : RegisterData δ π) (definition : PluginDef δ) : Prop :=
  verification definition = true ∧ versionMatched definition = true ∧
    d.isPluginExist definition.pluginType definition.name = false

/-- A plugin that is accepted has a type of the enumeration, and its package still has the loader
that it came through: it is the first one of a package with a loader. -/
def Keeps (loaderOf : Nat → Option Loader) (r : Registry δ π) : Call δ π → Prop
  | .addPlugin i definition => Accepts r.data definition →
    definition.pluginType.hasInit = true ∧ (r.impls i).pluginLoader = loaderOf i
  | _ => True

def recordAdded (added : Added) (r : Registry δ π) (c : Call δ π) (_ : Registry δ π) : Added :=
  match c with
  | .addPlugin i definition =>
    if (r.addPlugin i definition).2 = .ok then
      Function.update added definition.pluginType
        (Function.update (added definition.pluginType) definition.name (some i))
    else added
  | _ => added

def stepAdded : Registry δ π × Added → Call δ π → Option (Registry δ π × Added) :=
  Runs.withGhost Registry.step recordAdded

-- AddPlugin

/-- **`AddPlugin`**: the definition is refused, or goes into both containers. -/
theorem addPlugin_eq (d : RegisterData δ π) (impl : RegisterImpl π) (definition : PluginDef δ) :
    (Accepts d definition ∧ addPlugin d impl definition =
        (updateRegisterTableAndRegisterNames d impl definition, .ok)) ∨
      ¬ Accepts d definition ∧ (addPlugin d impl definition).1 = (d, impl) ∧
        (addPlugin d impl definition).2 ≠ .ok := by
  unfold addPlugin
  by_cases hverified : verification definition = true
  · by_cases hversion : versionMatched definition = true
    · rw [if_neg (not_not_intro hverified), if_neg (not_not_intro hversion)]
      cases hfind : find (d.registerTable definition.pluginType) definition.name with
      | some info =>
        refine .inr ⟨fun h => ?_, ?_⟩
        · have hnone := h.2.2
          rw [RegisterData.isPluginExist, hfind] at hnone
          cases hnone
        · simp [moreAcceptable]
      | none =>
        refine .inl ⟨⟨hverified, hversion, ?_⟩, rfl⟩
        rw [RegisterData.isPluginExist, hfind]
        rfl
    · rw [if_neg (not_not_intro hverified), if_pos hversion]
      exact .inr ⟨fun h => hversion h.2.1, rfl, nofun⟩
  · rw [if_pos hverified]
    exact .inr ⟨fun h => hverified h.1, rfl, nofun⟩

def recordOf (impl : RegisterImpl π) (definition : PluginDef δ) : PluginRegInfo δ π :=
  ⟨impl.packageDef, initInfo definition, definition.rest, impl.pluginLoader⟩

def updated (d : RegisterData δ π) (impl : RegisterImpl π) (definition : PluginDef δ) :
    RegisterData δ π :=
  (updateRegisterTableAndRegisterNames d impl definition).1

theorem updated_noInit (h : definition.pluginType.hasInit = false) :
    updateRegisterTableAndRegisterNames d impl definition = (d, impl) :=
  if_neg (Bool.eq_false_iff.mp h)

theorem updated_find (d : RegisterData δ π) (impl : RegisterImpl π)
    (h : definition.pluginType.hasInit = true) (t : PluginType) (n : String) :
    (updated d impl definition).getPluginRegInfo t n =
      if t = definition.pluginType ∧ n = definition.name then some (recordOf impl definition)
      else d.getPluginRegInfo t n := by
  unfold updated updateRegisterTableAndRegisterNames RegisterData.getPluginRegInfo
  rw [if_pos h]
  by_cases ht : t = definition.pluginType
  · subst ht
    show find (Function.update d.registerTable _ _ _) n = _
    rw [Function.update_self, find_put]
    by_cases hn : n = definition.name
    · rw [if_pos hn, if_pos ⟨rfl, hn⟩]
      rfl
    · rw [if_neg hn, if_neg fun hand => hn hand.2]
  · show find (Function.update d.registerTable _ _ _) n = _
    rw [Function.update_of_ne ht, if_neg fun hand => ht hand.1]

theorem updated_names (d : RegisterData δ π) (impl : RegisterImpl π)
    (h : definition.pluginType.hasInit = true) :
    (definition.pluginType.isCodec = true ∧ definition.codecMode = .hardware ∧
        (updated d impl definition).registerNames definition.pluginType =
          definition.name :: d.registerNames definition.pluginType) ∨
      (initInfo definition).codecMode ≠ some .hardware ∧
        (updated d impl definition).registerNames definition.pluginType =
          d.registerNames definition.pluginType ++ [definition.name] := by
  unfold updated updateRegisterTableAndRegisterNames
  rw [if_pos h]
  by_cases hcodec : definition.pluginType.isCodec = true
  · cases hmode : definition.codecMode with
    | hardware =>
      refine .inl ⟨hcodec, rfl, ?_⟩
      simp [initInfo, hcodec, hmode]
    | software =>
      right
      simp [initInfo, hcodec, hmode]
  · right
    simp [initInfo, hcodec]

theorem updated_other (d : RegisterData δ π) (impl : RegisterImpl π)
    (h : definition.pluginType.hasInit = true) {t : PluginType} (ht : t ≠ definition.pluginType) :
    (updated d impl definition).registerNames t = d.registerNames t ∧
      (updated d impl definition).registerTable t = d.registerTable t := by
  unfold updated updateRegisterTableAndRegisterNames
  rw [if_pos h]
  exact ⟨Function.update_of_ne ht _ _, Function.update_of_ne ht _ _⟩

theorem updated_table (h : definition.pluginType.hasInit = true) :
    (updated d impl definition).registerTable definition.pluginType =
      put (d.registerTable definition.pluginType) definition.name (recordOf impl definition) := by
  unfold updated updateRegisterTableAndRegisterNames
  rw [if_pos h]
  exact Function.update_self _ _ _

/-- **A new plugin** keeps the two containers in step, and the order. -/
theorem Consistent.updated (h : Consistent d)
    (hnew : d.getPluginRegInfo definition.pluginType definition.name = none) :
    Consistent (updated d impl definition) := by
  cases hinit : definition.pluginType.hasInit with
  | false =>
    rw [Plugin.updated, updated_noInit hinit]
    exact h
  | true =>
    have hsame : ∀ t n, ¬ (t = definition.pluginType ∧ n = definition.name) →
        (isHardware (Plugin.updated d impl definition) t n ↔ isHardware d t n) := by
      intro t n hne
      unfold isHardware
      rw [updated_find _ _ hinit, if_neg hne]
    have hself : isHardware (Plugin.updated d impl definition) definition.pluginType
        definition.name ↔ (initInfo definition).codecMode = some .hardware := by
      unfold isHardware
      rw [updated_find _ _ hinit, if_pos ⟨rfl, rfl⟩]
      constructor
      · rintro ⟨info, heq, hmode⟩
        rw [← Option.some.inj heq] at hmode
        exact hmode
      · exact fun hmode => ⟨_, rfl, hmode⟩
    have hnot : ∀ n ∈ d.registerNames definition.pluginType, n ≠ definition.name := by
      rintro n hn rfl
      have hsome := ((h.lists _).mem_iff _).mp hn
      rw [show find _ _ = none from hnew] at hsome
      cases hsome
    have hbefore := (h.hardwareFirst definition.pluginType).imp_of_mem
      fun {a b} ha hb himp => show isHardware (Plugin.updated d impl definition) _ b →
          isHardware (Plugin.updated d impl definition) _ a by
        rw [hsame _ _ fun hand => hnot a ha hand.2, hsame _ _ fun hand => hnot b hb hand.2]
        exact himp
    refine ⟨fun t => ?_, fun t => ?_⟩
    · by_cases ht : t = definition.pluginType
      · subst ht
        rw [updated_table hinit]
        rcases updated_names d impl hinit with ⟨-, -, hnames⟩ | ⟨-, hnames⟩
        · rw [hnames]
          exact Lists.put (show Lists ([] ++ _) _ from h.lists _) hnew _
        · rw [hnames]
          refine Lists.put ?_ hnew _
          rw [List.append_nil]
          exact h.lists _
      · obtain ⟨hnames, htable⟩ := updated_other d impl hinit ht
        rw [hnames, htable]
        exact h.lists t
    · by_cases ht : t = definition.pluginType
      · subst ht
        rcases updated_names d impl hinit with
          ⟨hcodec, hmode, hnames⟩ | ⟨hmode, hnames⟩
        · rw [hnames, List.pairwise_cons]
          refine ⟨fun b _ _ => hself.mpr ?_, hbefore⟩
          rw [initInfo, if_pos hcodec, hmode]
        · rw [hnames, List.pairwise_append]
          refine ⟨hbefore, List.pairwise_singleton _ _, fun a _ b hb hhard => ?_⟩
          rw [List.mem_singleton] at hb
          subst hb
          exact absurd (hself.mp hhard) hmode
      · rw [(updated_other d impl hinit ht).1]
        refine (h.hardwareFirst t).imp fun {a b} himp => ?_
        rw [hsame _ _ fun hand => ht hand.1, hsame _ _ fun hand => ht hand.1]
        exact himp

-- EraseRegisteredPluginsByLoader

/-- Every record stands under its own type, which is one that has plugins. -/
def Typed (d : RegisterData δ π) : Prop :=
  ∀ t n info, d.getPluginRegInfo t n = some info →
    info.info.pluginType = t ∧ t.hasInit = true

structure TakesOut (d d' : RegisterData δ π) (out : PluginType → String → Prop) : Prop where
  found : ∀ t n info, d'.getPluginRegInfo t n = some info ↔
    d.getPluginRegInfo t n = some info ∧ ¬ out t n
  named : ∀ t n, n ∈ d'.registerNames t ↔ n ∈ d.registerNames t ∧ ¬ out t n
  consistent : Consistent d → Consistent d'

namespace TakesOut

variable {d₁ d₂ : RegisterData δ π} {out out₁ out₂ : PluginType → String → Prop}

theorem none (h : ∀ t n, ¬ out t n) : TakesOut d d out :=
  ⟨fun t n _ => (and_iff_left (h t n)).symm, fun t n => (and_iff_left (h t n)).symm, id⟩

theorem trans (h₁ : TakesOut d d₁ out₁) (h₂ : TakesOut d₁ d₂ out₂)
    (hiff : ∀ t n, out t n ↔ out₁ t n ∨ out₂ t n) : TakesOut d d₂ out := by
  refine ⟨fun t n info => ?_, fun t n => ?_, h₂.consistent ∘ h₁.consistent⟩
  · rw [h₂.found, h₁.found, hiff, not_or, and_assoc]
  · rw [h₂.named, h₁.named, hiff, not_or, and_assoc]

/-- What is not there need not be taken out. -/
theorem congr (h : TakesOut d d₁ out₁) (hc : Consistent d)
    (hiff : ∀ t n info, d.getPluginRegInfo t n = some info → (out t n ↔ out₁ t n)) :
    TakesOut d d₁ out := by
  refine ⟨fun t n info => ?_, fun t n => ?_, h.consistent⟩
  · rw [h.found]
    exact and_congr_right fun hfound => not_congr (hiff t n info hfound).symm
  · rw [h.named]
    refine and_congr_right fun hmem => not_congr ?_
    obtain ⟨info, hinfo⟩ := Option.isSome_iff_exists.mp (((hc.lists t).mem_iff n).mp hmem)
    exact (hiff t n info hinfo).symm

theorem typed (h : TakesOut d d₁ out) (ht : Typed d) : Typed d₁ :=
  fun t n info hinfo => ht t n info ((h.found t n info).mp hinfo).1

end TakesOut

theorem deletePlugin_takesOut (d : RegisterData δ π) (entry : String × PluginRegInfo δ π) :
    TakesOut d (d.deletePlugin entry) fun t n => t = entry.2.info.pluginType ∧ n = entry.1 := by
  have hfound : ∀ t n, (d.deletePlugin entry).getPluginRegInfo t n =
      if t = entry.2.info.pluginType ∧ n = entry.1 then none else d.getPluginRegInfo t n := by
    intro t n
    unfold RegisterData.deletePlugin RegisterData.getPluginRegInfo
    by_cases ht : t = entry.2.info.pluginType
    · subst ht
      show find (Function.update d.registerTable _ _ _) n = _
      rw [Function.update_self, find_remove]
      by_cases hn : n = entry.1
      · rw [if_pos hn, if_pos ⟨rfl, hn⟩]
      · rw [if_neg hn, if_neg fun hand => hn hand.2]
    · show find (Function.update d.registerTable _ _ _) n = _
      rw [Function.update_of_ne ht, if_neg fun hand => ht hand.1]
  have hfound' : ∀ t n info, (d.deletePlugin entry).getPluginRegInfo t n = some info ↔
      d.getPluginRegInfo t n = some info ∧ ¬ (t = entry.2.info.pluginType ∧ n = entry.1) := by
    intro t n info
    rw [hfound]
    by_cases hout : t = entry.2.info.pluginType ∧ n = entry.1
    · rw [if_pos hout]
      exact iff_of_false nofun fun hand => hand.2 hout
    · rw [if_neg hout]
      exact (and_iff_left hout).symm
  have hnames : ∀ t, (d.deletePlugin entry).registerNames t =
      if t = entry.2.info.pluginType then (d.registerNames t).filter fun n => n ≠ entry.1
      else d.registerNames t := by
    intro t
    by_cases ht : t = entry.2.info.pluginType
    · subst ht
      rw [if_pos rfl]
      exact Function.update_self _ _ _
    · rw [if_neg ht]
      exact Function.update_of_ne ht _ _
  refine ⟨hfound', fun t n => ?_, fun hc => ⟨fun t => ?_, fun t => ?_⟩⟩
  · rw [hnames]
    by_cases ht : t = entry.2.info.pluginType
    · rw [if_pos ht, List.mem_filter, decide_eq_true_iff]
      exact and_congr_right fun _ => not_congr (and_iff_right ht).symm
    · rw [if_neg ht]
      exact (and_iff_left fun hand => ht hand.1).symm
  · rw [hnames]
    by_cases ht : t = entry.2.info.pluginType
    · subst ht
      rw [if_pos rfl]
      show Lists _ (Function.update d.registerTable _ _ _)
      rw [Function.update_self]
      exact (hc.lists _).remove _
    · rw [if_neg ht]
      show Lists _ (Function.update d.registerTable _ _ _)
      rw [Function.update_of_ne ht]
      exact hc.lists t
  · have hhard : ∀ n, isHardware (d.deletePlugin entry) t n ↔
        isHardware d t n ∧ ¬ (t = entry.2.info.pluginType ∧ n = entry.1) := by
      intro n
      unfold isHardware
      constructor
      · rintro ⟨info, hinfo, hmode⟩
        obtain ⟨hbefore, hkept⟩ := (hfound' t n info).mp hinfo
        exact ⟨⟨info, hbefore, hmode⟩, hkept⟩
      · rintro ⟨⟨info, hinfo, hmode⟩, hkept⟩
        exact ⟨info, (hfound' t n info).mpr ⟨hinfo, hkept⟩, hmode⟩
    rw [hnames]
    by_cases ht : t = entry.2.info.pluginType
    · rw [if_pos ht]
      refine ((hc.hardwareFirst t).filter _).imp_of_mem fun {a b} ha _ himp hb => ?_
      rw [List.mem_filter, decide_eq_true_iff] at ha
      exact (hhard a).mpr ⟨himp ((hhard b).mp hb).1, fun hand => ha.2 hand.2⟩
    · rw [if_neg ht]
      refine (hc.hardwareFirst t).imp fun {a b} himp => ?_
      rw [hhard, hhard]
      exact fun hb => ⟨himp hb.1, fun hand => ht hand.1⟩

theorem eraseFrom_takesOut (l : Option Loader) (type : PluginType)
    (plugins : List (String × PluginRegInfo δ π))
    (htyped : ∀ entry ∈ plugins, entry.2.info.pluginType = type) (d : RegisterData δ π) :
    TakesOut d (RegisterData.eraseFrom l plugins d) fun t n =>
      t = type ∧ ∃ info, (n, info) ∈ plugins ∧ info.loader = l := by
  induction plugins generalizing d with
  | nil => exact .none fun t n ⟨_, _, hmem, _⟩ => List.not_mem_nil hmem
  | cons entry plugins ih =>
    have hrest := ih (fun e he => htyped e (List.mem_cons_of_mem _ he))
    have htype := htyped entry List.mem_cons_self
    rw [RegisterData.eraseFrom]
    by_cases hl : entry.2.loader = l
    · rw [if_pos hl]
      refine (deletePlugin_takesOut d entry).trans (hrest _) fun t n => ?_
      rw [htype]
      constructor
      · rintro ⟨ht, info, hmem, hinfo⟩
        rcases List.mem_cons.mp hmem with heq | hmem
        · exact .inl ⟨ht, congrArg Prod.fst heq⟩
        · exact .inr ⟨ht, info, hmem, hinfo⟩
      · rintro (⟨ht, rfl⟩ | ⟨ht, info, hmem, hinfo⟩)
        · exact ⟨ht, entry.2, List.mem_cons_self, hl⟩
        · exact ⟨ht, info, List.mem_cons_of_mem _ hmem, hinfo⟩
    · rw [if_neg hl]
      have hnone : TakesOut d d fun _ _ => False := .none fun _ _ => id
      refine hnone.trans (hrest d) fun t n => ?_
      rw [false_or]
      refine and_congr_right fun _ => exists_congr fun info => and_congr_left fun hinfo => ?_
      rw [List.mem_cons, or_iff_right]
      rintro rfl
      exact hl hinfo

theorem eraseTypes_takesOut (l : Option Loader) (types : List PluginType) (hc : Consistent d)
    (ht : Typed d) : TakesOut d (RegisterData.eraseTypes l types d) fun t n =>
      t ∈ types ∧ ∃ info, d.getPluginRegInfo t n = some info ∧ info.loader = l := by
  induction types generalizing d with
  | nil => exact .none fun t n ⟨hmem, _⟩ => List.not_mem_nil hmem
  | cons type types ih =>
    have hmem : ∀ n info, (n, info) ∈ d.registerTable type ↔
        d.getPluginRegInfo type n = some info :=
      fun n info => ⟨find_of_mem (hc.lists type).distinct, mem_of_find⟩
    have hfirst := eraseFrom_takesOut l type (d.registerTable type)
      (fun e he => (ht type e.1 e.2 ((hmem e.1 e.2).mp he)).1) d
    have hrest := ih (hfirst.consistent hc) (hfirst.typed ht)
    refine (hfirst.trans hrest fun t n => Iff.rfl).congr hc fun t n info hinfo => ?_
    constructor
    · rintro ⟨hin, info', hinfo', hl⟩
      by_cases hout : t = type ∧ ∃ info, (n, info) ∈ d.registerTable type ∧ info.loader = l
      · exact .inl hout
      · refine .inr ⟨?_, info', (hfirst.found t n info').mpr ⟨hinfo', hout⟩, hl⟩
        refine (List.mem_cons.mp hin).resolve_left ?_
        rintro rfl
        exact hout ⟨rfl, info', (hmem n info').mpr hinfo', hl⟩
    · rintro (⟨rfl, info', hinfo', hl⟩ | ⟨hin, info', hinfo', hl⟩)
      · exact ⟨List.mem_cons_self, info', (hmem n info').mp hinfo', hl⟩
      · exact ⟨List.mem_cons_of_mem _ hin, info', ((hfirst.found t n info').mp hinfo').1, hl⟩

/-- **`EraseRegisteredPluginsByLoader`** takes out the plugins whose record has the loader. -/
theorem deletes_eq (hc : Consistent d) (ht : Typed d) (l : Option Loader) :
    TakesOut d (d.eraseRegisteredPluginsByLoader l) fun t n =>
      ∃ info, d.getPluginRegInfo t n = some info ∧ info.loader = l := by
  refine (eraseTypes_takesOut l RegisterData.storedTypes hc ht).congr hc fun t n info hinfo => ?_
  have hstored : t ∈ RegisterData.storedTypes := by
    have hinit := (ht t n info hinfo).2
    cases t with
    | invalidType | unlisted code => cases hinit
    | _ => decide
  exact (and_iff_right hstored).symm

-- Runs

structure Inv (loaderOf : Nat → Option Loader) (x : Registry δ π × Added) : Prop where
  consistent : Consistent x.1.data
  typed : Typed x.1.data
  owned : ∀ t n info, x.1.data.getPluginRegInfo t n = some info →
    ∃ i, x.2 t n = some i ∧ info.loader = loaderOf i

theorem empty_find (t : PluginType) (n : String) :
    (RegisterData.empty : RegisterData δ π).getPluginRegInfo t n = none := rfl

theorem Inv.start (loaderOf : Nat → Option Loader) (added : Added) :
    Inv loaderOf ((Registry.start loaderOf : Registry δ π), added) := by
  refine ⟨⟨fun t => ?_, fun t => ?_⟩, fun t n info h => ?_, fun t n info h => ?_⟩
  · exact Lists.nil
  · exact List.Pairwise.nil
  · exact absurd ((empty_find t n).symm.trans h) nofun
  · exact absurd ((empty_find t n).symm.trans h) nofun

theorem Inv.erasesRightly {x : Registry δ π × Added} (h : Inv loaderOf x) (l : Loader) :
    ErasesRightly loaderOf x.2 x.1.data l := by
  have hout := deletes_eq h.consistent h.typed (some l)
  -- the record of a plugin has the loader of its package
  have howned : ∀ t n i, x.2 t n = some i → ((∃ info, x.1.data.getPluginRegInfo t n = some info ∧
      info.loader = some l) ↔
        (x.1.data.getPluginRegInfo t n).isSome = true ∧ loaderOf i = some l) := by
    intro t n i hi
    rw [Option.isSome_iff_exists, ← exists_and_right]
    refine exists_congr fun info => and_congr_right fun hinfo => ?_
    obtain ⟨j, hj, hloader⟩ := h.owned t n info hinfo
    rw [Option.some.inj (hi.symm.trans hj), hloader]
  have hmem := fun t => ((h.consistent.lists t).mem_iff)
  refine ⟨fun t n i hi hl => ⟨fun hn => ?_, ?_⟩, fun t n i hi hl => ⟨?_, ?_⟩⟩
  · obtain ⟨hbefore, hkept⟩ := (hout.named t n).mp hn
    exact hkept ((howned t n i hi).mpr ⟨(hmem t n).mp hbefore, hl⟩)
  · by_contra hsome
    obtain ⟨info, hinfo⟩ := Option.ne_none_iff_exists'.mp hsome
    obtain ⟨hbefore, hkept⟩ := (hout.found t n info).mp hinfo
    exact hkept ((howned t n i hi).mpr ⟨hbefore ▸ rfl, hl⟩)
  · rw [hout.named, howned t n i hi]
    exact and_iff_left fun hand => hl hand.2
  · refine Option.ext fun info => ?_
    rw [hout.found, howned t n i hi]
    exact and_iff_left fun hand => hl hand.2

theorem accepts_find (h : Accepts r.data definition) :
    r.data.getPluginRegInfo definition.pluginType definition.name = none :=
  Option.not_isSome_iff_eq_none.mp (Bool.eq_false_iff.mp h.2.2)

theorem registry_addPlugin (r : Registry δ π) (i : Nat) (definition : PluginDef δ) :
    (Accepts r.data definition ∧ (r.addPlugin i definition).2 = .ok ∧
        (r.addPlugin i definition).1.data = updated r.data (r.impls i) definition) ∨
      ¬ Accepts r.data definition ∧ (r.addPlugin i definition).2 ≠ .ok ∧
        (r.addPlugin i definition).1.data = r.data := by
  unfold Registry.addPlugin
  rcases addPlugin_eq r.data (r.impls i) definition with ⟨ha, heq⟩ | ⟨ha, hsame, hret⟩
  · rw [heq]
    exact .inl ⟨ha, rfl, rfl⟩
  · exact .inr ⟨ha, hret, congrArg Prod.fst hsame⟩

theorem addsRightly_of_keeps (hkeeps : Keeps loaderOf r (.addPlugin i definition)) :
    AddsRightly r i definition := by
  rcases registry_addPlugin r i definition with ⟨ha, hret, hdata⟩ | ⟨ha, hret, hdata⟩
  · refine ⟨⟨fun _ => ⟨accepts_find ha, recordOf (r.impls i) definition, ?_, rfl, rfl, rfl⟩,
      fun _ => hret⟩, fun hne => absurd hret hne⟩
    rw [hdata, updated_find _ _ (hkeeps ha).1, if_pos ⟨rfl, rfl⟩]
  · refine ⟨⟨fun hok => absurd hok hret, fun ⟨hnone, info, hinfo, _⟩ => ?_⟩, fun _ => hdata⟩
    rw [hdata, hnone] at hinfo
    cases hinfo

theorem Inv.step {x y : Registry δ π × Added} {c : Call δ π} (h : Inv loaderOf x)
    (hkeeps : Keeps loaderOf x.1 c) (hstep : stepAdded x c = some y) : Inv loaderOf y := by
  obtain ⟨ht, hadded⟩ := Runs.withGhost_some.mp hstep
  obtain ⟨r', added'⟩ := y
  cases ht
  have hhistory : added' = recordAdded x.2 x.1 c (x.1.perform c) := hadded
  cases c with
  | addPackage i definition =>
    obtain rfl : added' = x.2 := hhistory
    exact ⟨h.consistent, h.typed, h.owned⟩
  | eraseByLoader l =>
    obtain rfl : added' = x.2 := hhistory
    have hout := deletes_eq h.consistent h.typed (some l)
    show Inv loaderOf (⟨x.1.data.eraseRegisteredPluginsByLoader (some l), x.1.impls⟩, x.2)
    generalize x.1.data.eraseRegisteredPluginsByLoader (some l) = d at hout
    exact ⟨hout.consistent h.consistent, hout.typed h.typed,
      fun t n info hinfo => h.owned t n info ((hout.found t n info).mp hinfo).1⟩
  | addPlugin i definition =>
    show Inv loaderOf ((x.1.addPlugin i definition).1, added')
    rw [recordAdded] at hhistory
    rcases registry_addPlugin x.1 i definition with ⟨ha, hret, hdata⟩ | ⟨ha, hret, hdata⟩
    · obtain ⟨hinit, hloader⟩ := hkeeps ha
      rw [if_pos hret] at hhistory
      generalize (x.1.addPlugin i definition).1 = r' at hdata
      obtain ⟨data, impls⟩ := r'
      obtain rfl : data = updated x.1.data (x.1.impls i) definition := hdata
      have hfind := updated_find x.1.data (x.1.impls i) hinit
      refine ⟨h.consistent.updated (accepts_find ha), fun t n info hinfo => ?_,
        fun t n info hinfo => ?_⟩
      · rw [hfind] at hinfo
        split at hinfo
        next hself =>
          rw [← Option.some.inj hinfo, hself.1]
          exact ⟨rfl, hinit⟩
        · exact h.typed t n info hinfo
      · rw [hfind] at hinfo
        show ∃ j, added' t n = some j ∧ _
        rw [hhistory]
        split at hinfo
        next hself =>
          refine ⟨i, ?_, ?_⟩
          · rw [hself.1, hself.2, Function.update_self, Function.update_self]
          · rw [← Option.some.inj hinfo]
            exact hloader
        next hother =>
          obtain ⟨j, hj, hl⟩ := h.owned t n info hinfo
          refine ⟨j, ?_, hl⟩
          by_cases htype : t = definition.pluginType
          · subst htype
            rw [Function.update_self, Function.update_of_ne fun hn => hother ⟨rfl, hn⟩]
            exact hj
          · rw [Function.update_of_ne htype]
            exact hj
    · rw [if_neg hret] at hhistory
      obtain rfl := hhistory
      generalize (x.1.addPlugin i definition).1 = r' at hdata
      obtain ⟨data, impls⟩ := r'
      obtain rfl : data = x.1.data := hdata
      exact ⟨h.consistent, h.typed, h.owned⟩

/-- A list of codecs has the hardware ones before all others, or after them. -/
structure ListsRightly (d : RegisterData δ π) (type : PluginType) : Prop where
  preferred : (d.listPlugins type .hardware).Pairwise fun a b =>
    isHardware d type b → isHardware d type a
  otherwise : (d.listPlugins type .software).Pairwise fun a b =>
    isHardware d type a → isHardware d type b

theorem Consistent.listsRightly (h : Consistent d) (htype : type.isCodec = true) :
    ListsRightly d type := by
  refine ⟨?_, ?_⟩
  · rw [RegisterData.listPlugins, if_neg fun hand => hand.2 rfl]
    exact h.hardwareFirst type
  · rw [RegisterData.listPlugins, if_pos ⟨htype, nofun⟩, List.pairwise_reverse]
    exact h.hardwareFirst type

/-- **The registry.** In every run in which the plugins that are accepted are the first ones of
their packages, or of packages without a loader, it is consistent, lists codecs in order, tells
the truth about what it adds, and erases all that a loader has brought. -/
theorem registry_consistent {x : Registry δ π × Added} {added : Added}
    (hkeeps : Runs.Along stepAdded (fun y c => Keeps loaderOf y.1 c)
      (Registry.start loaderOf, added) calls)
    (hrun : Runs.run stepAdded (Registry.start loaderOf, added) calls = some x) :
    Consistent x.1.data ∧ (∀ type, type.isCodec = true → ListsRightly x.1.data type) ∧
      (∀ i definition, Keeps loaderOf x.1 (.addPlugin i definition) →
        AddsRightly x.1 i definition) ∧
      ∀ l, ErasesRightly loaderOf x.2 x.1.data l := by
  have hinv : Inv loaderOf x := Runs.run_invariant
    (fun _ _ _ h hgood hstep => h.step hgood hstep) (.start loaderOf added) hkeeps hrun
  exact ⟨hinv.consistent, fun _ htype => hinv.consistent.listsRightly htype,
    fun _ _ h => addsRightly_of_keeps h, hinv.erasesRightly⟩

end Registry

-- Packages of one plugin, and of two

def loaders (i : Nat) : Option Loader := some (i + 7)

def demuxerDef (name : String) : PluginDef Unit where
  apiVersion := apiVersionOne
  pluginType := .demuxer
  name
  description := ""
  rank := 50
  codecMode := .software
  rest := ()

def decoderDef : PluginDef Unit := { demuxerDef "decoder" with pluginType := .audioDecoder }

def startEmpty : Registry Unit Unit × Added := (.start loaders, fun _ _ => none)

def afterCalls (calls : List (Call Unit Unit)) : Registry Unit Unit × Added :=
  (Runs.run stepAdded startEmpty calls).getD startEmpty

def onePluginEach : List (Call Unit Unit) :=
  [.addPlugin 0 (demuxerDef "aac"), .addPlugin 1 decoderDef]

theorem registry_consistent_each :
    Runs.run stepAdded startEmpty onePluginEach = some (afterCalls onePluginEach) ∧
      ErasesRightly loaders (afterCalls onePluginEach).2 (afterCalls onePluginEach).1.data 7 ∧
      (afterCalls onePluginEach).2 .demuxer "aac" = some 0 := by
  have hkeeps : Runs.Along stepAdded (fun y c => Keeps loaders y.1 c) startEmpty onePluginEach :=
    ⟨fun _ => ⟨rfl, rfl⟩, fun _ => ⟨rfl, rfl⟩, trivial⟩
  exact ⟨rfl, (registry_consistent hkeeps rfl).2.2.2 7, rfl⟩

def twoPlugins : List (Call Unit Unit) :=
  [.addPlugin 0 (demuxerDef "aac"), .addPlugin 0 (demuxerDef "mp3")]

theorem second_plugin_left :
    Runs.run stepAdded startEmpty twoPlugins = some (afterCalls twoPlugins) ∧
      ¬ ErasesRightly loaders (afterCalls twoPlugins).2 (afterCalls twoPlugins).1.data 7 := by
  refine ⟨rfl, fun h => ?_⟩
  obtain ⟨-, hgone⟩ := h.gone .demuxer "mp3" 0 rfl rfl
  have hleft : (((afterCalls twoPlugins).1.data.eraseRegisteredPluginsByLoader
      (some 7)).getPluginRegInfo .demuxer "mp3").isSome = true := by
    decide +kernel
  rw [hgone] at hleft
  cases hleft

end MediaFoundation.Plugin
