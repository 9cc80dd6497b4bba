import OpenManet.Lib.Yaml
import Mathlib.Data.Int.Notation
/-!
# The configuration file — settings that are written back

`internal/config/persist.go`: five calls read the file as a tree of nodes, edit
it in place and write it. `findOrCreateMapping` hands out what stands under a key
whatever its kind ("expected to be (or created as) a mapping node"), and
`setScalarWithTag` sets the text of what stands under a key whatever its kind.

What `yaml.v3` and the file system do is given (`Codec`, and the answers in
`Config`). The pointer `findOrCreateMapping` returns is what the edits after it
are applied to, so it takes them as an argument. The settings in memory are set
besides, and are not what the file is read for.
-/

namespace OpenManet

namespace Config

open Yaml Yaml.Node

/-! ## The setters -/

/-- `findOrCreateMapping`, and what is done with the node it returns. -/
def findOrCreateMapping (key : String) (f : Node → Node) : Node → Node :=
  place key f (f (mapping "!!map" []))

/-- `setScalarWithTag`. -/
def setScalarWithTag (key value tag : String) : Node → Node :=
  place key (retag tag value) (scalar tag value [])

/-- `setScalarValue`. -/
def setScalarValue (key value : String) : Node → Node := setScalarWithTag key value "!!bool"

/-- The checks every setter begins with: the document has a root, and it is a
mapping. -/
def rootOf (doc : Option Node) : Except String Node :=
  match doc with
  | none => .error "unexpected YAML structure: expected document node"
  | some root =>
      if root.isMapping then .ok root
      else .error "unexpected YAML structure: expected mapping node at root"

/-- `strconv.FormatBool`, and `%t`. -/
def formatBool (b : Bool) : String := if b then "true" else "false"

/-- `setBLOSEnable`. -/
def setBLOSEnable (doc : Option Node) (enable : Bool) : Except String Node := do
  let root ← rootOf doc
  return findOrCreateMapping "blos" (setScalarValue "enable" (formatBool enable)) root

/-- `setCommsConfig`. -/
def setCommsConfig (doc : Option Node) (enable : Bool) (controlSource : String) :
    Except String Node := do
  let root ← rootOf doc
  return findOrCreateMapping "comms" (fun commsMapping =>
    setScalarWithTag "controlSource" controlSource "!!str"
      (setScalarValue "enable" (formatBool enable) commsMapping)) root

/-- A value that is written unless it is nil. -/
def setUnlessNil (key tag : String) (value : Option String) : Node → Node :=
  match value with
  | none => id
  | some value => setScalarWithTag key value tag

/-- `setCommsAudio`. -/
def setCommsAudio (doc : Option Node) (speakerVolume micVolume : Option ℤ) (agc : Option Bool) :
    Except String Node := do
  let root ← rootOf doc
  return findOrCreateMapping "comms" (findOrCreateMapping "audio" fun audioMapping =>
    setUnlessNil "agc" "!!bool" (agc.map formatBool)
      (setUnlessNil "micVolume" "!!int" (micVolume.map toString)
        (setUnlessNil "speakerVolume" "!!int" (speakerVolume.map toString) audioMapping))) root

/-- `setSetupAndAuth`. -/
def setSetupAndAuth (doc : Option Node) (setupComplete authEnable : Bool) :
    Except String Node := do
  let root ← rootOf doc
  let root := findOrCreateMapping "setup" (setScalarValue "complete" (formatBool setupComplete)) root
  return findOrCreateMapping "auth" (setScalarValue "enable" (formatBool authEnable)) root

/-- `setGNSSConfig`. -/
def setGNSSConfig (doc : Option Node) (enable sendAsNMEA sendAsCoT : Bool)
    (cotUID source : String) : Except String Node := do
  let root ← rootOf doc
  return findOrCreateMapping "gnss" (fun gnssMapping =>
    findOrCreateMapping "sendAsExternalGNSSSource" (fun sendMapping =>
      setScalarWithTag "cotUID" cotUID "!!str"
        (setScalarValue "sendAsCoT" (formatBool sendAsCoT)
          (setScalarValue "sendAsNMEA" (formatBool sendAsNMEA) sendMapping)))
      (setScalarWithTag "source" source "!!str"
        (setScalarValue "enable" (formatBool enable) gnssMapping))) root

/-! ## The calls -/

/-- `yaml.Unmarshal` into a node, `none` where there is no document, and
`yaml.Marshal`. -/
structure Codec (B : Type) where
  unmarshal : B → Except String (Option Node)
  marshal : Node → Except String B

/-- **What is relied on**: what is marshaled is read back as it is written. -/
def Codec.RoundTrips {B : Type} (y : Codec B) : Prop :=
  ∀ root data, y.marshal root = .ok data → y.unmarshal data = .ok (some root.written)

/-- `Config`: the file it has been read from, and what the file system answers. -/
structure Config (B : Type) where
  configFileUsed : String
  /-- What `os.ReadFile` gives. -/
  file : Except String B
  /-- What `os.WriteFile` answers. -/
  writes : Except String Unit

variable {B : Type} (y : Codec B) (c : Config B)

namespace Config

/-- The tree a file is read as. -/
def read : Option Node :=
  match c.file with
  | .error _ => none
  | .ok data =>
      match y.unmarshal data with
      | .error _ => none
      | .ok doc => doc

/-- What the five calls do, around the setter of each. -/
def persist (what : String) (set : Option Node → Except String Node) : Except String (Config B) :=
  if c.configFileUsed = "" then .error "no config file path configured"
  else
    match c.file with
    | .error err => .error ("reading config file: " ++ err)
    | .ok data =>
        match y.unmarshal data with
        | .error err => .error ("parsing config file: " ++ err)
        | .ok doc =>
            match set doc with
            | .error err => .error ("updating " ++ what ++ ": " ++ err)
            | .ok root =>
                match y.marshal root with
                | .error err => .error ("marshaling config: " ++ err)
                | .ok out =>
                    match c.writes with
                    | .error err => .error ("writing config file: " ++ err)
                    | .ok () => .ok { c with file := .ok out }

/-- `PersistBLOSConfig`. -/
def persistBLOSConfig (enable : Bool) : Except String (Config B) :=
  c.persist y "blos.enable" fun doc => setBLOSEnable doc enable

/-- `PersistCommsConfig`. -/
def persistCommsConfig (enable : Bool) (controlSource : String) : Except String (Config B) :=
  c.persist y "comms config" fun doc => setCommsConfig doc enable controlSource

/-- `PersistCommsAudio`. -/
def persistCommsAudio (speakerVolume micVolume : Option ℤ) (agc : Option Bool) :
    Except String (Config B) :=
  c.persist y "comms.audio config" fun doc => setCommsAudio doc speakerVolume micVolume agc

/-- `PersistGNSSConfig`. -/
def persistGNSSConfig (enable sendAsNMEA sendAsCoT : Bool) (cotUID source : String) :
    Except String (Config B) :=
  c.persist y "gnss config" fun doc => setGNSSConfig doc enable sendAsNMEA sendAsCoT cotUID source

/-- `PersistSetupAndAuth`. -/
def persistSetupAndAuth (setupComplete authEnable : Bool) : Except String (Config B) :=
  c.persist y "setup/auth config" fun doc => setSetupAndAuth doc setupComplete authEnable

end Config

/-! ## What is asked for -/

/-- A call. -/
inductive Call where
  | blos (enable : Bool)
  | comms (enable : Bool) (controlSource : String)
  | commsAudio (speakerVolume micVolume : Option ℤ) (agc : Option Bool)
  | gnss (enable sendAsNMEA sendAsCoT : Bool) (cotUID source : String)
  | setupAndAuth (setupComplete authEnable : Bool)

namespace Call

/-- The call, made. -/
def run : Call → Except String (Config B)
  | blos enable => c.persistBLOSConfig y enable
  | comms enable controlSource => c.persistCommsConfig y enable controlSource
  | commsAudio speakerVolume micVolume agc => c.persistCommsAudio y speakerVolume micVolume agc
  | gnss enable sendAsNMEA sendAsCoT cotUID source =>
      c.persistGNSSConfig y enable sendAsNMEA sendAsCoT cotUID source
  | setupAndAuth setupComplete authEnable => c.persistSetupAndAuth y setupComplete authEnable

/-- The settings of a value that may be nil. -/
def unlessNil (path : List String) (tag : String) (value : Option String) : List Setting :=
  (value.map fun value => ⟨path, tag, value⟩).toList

/-- **The key paths of a call, and the values it is to leave there.** -/
def settings : Call → List Setting
  | blos enable => [⟨["blos", "enable"], "!!bool", formatBool enable⟩]
  | comms enable controlSource =>
      [⟨["comms", "enable"], "!!bool", formatBool enable⟩,
       ⟨["comms", "controlSource"], "!!str", controlSource⟩]
  | commsAudio speakerVolume micVolume agc =>
      unlessNil ["comms", "audio", "speakerVolume"] "!!int" (speakerVolume.map toString) ++
      unlessNil ["comms", "audio", "micVolume"] "!!int" (micVolume.map toString) ++
      unlessNil ["comms", "audio", "agc"] "!!bool" (agc.map formatBool)
  | gnss enable sendAsNMEA sendAsCoT cotUID source =>
      [⟨["gnss", "enable"], "!!bool", formatBool enable⟩,
       ⟨["gnss", "source"], "!!str", source⟩,
       ⟨["gnss", "sendAsExternalGNSSSource", "sendAsNMEA"], "!!bool", formatBool sendAsNMEA⟩,
       ⟨["gnss", "sendAsExternalGNSSSource", "sendAsCoT"], "!!bool", formatBool sendAsCoT⟩,
       ⟨["gnss", "sendAsExternalGNSSSource", "cotUID"], "!!str", cotUID⟩]
  | setupAndAuth setupComplete authEnable =>
      [⟨["setup", "complete"], "!!bool", formatBool setupComplete⟩,
       ⟨["auth", "enable"], "!!bool", formatBool authEnable⟩]

/-- **The documents a call can be made on**: every setting can be taken. With
nothing to set, `comms` must not be a sequence the call would add to. -/
def Fits (call : Call) (root : Node) : Prop :=
  (∀ o ∈ call.settings, root.Takes o.path) ∧
    (call.settings = [] → ∀ tag items, root.nodeAt ["comms"] = some (sequence tag items) →
      hasPair "audio" items = true)

/-- The edit of a call. -/
def edit : Call → Node → Node
  | blos enable => findOrCreateMapping "blos" (setScalarValue "enable" (formatBool enable))
  | comms enable controlSource => findOrCreateMapping "comms" fun n =>
      setScalarWithTag "controlSource" controlSource "!!str"
        (setScalarValue "enable" (formatBool enable) n)
  | commsAudio speakerVolume micVolume agc =>
      findOrCreateMapping "comms" (findOrCreateMapping "audio" fun n =>
        setUnlessNil "agc" "!!bool" (agc.map formatBool)
          (setUnlessNil "micVolume" "!!int" (micVolume.map toString)
            (setUnlessNil "speakerVolume" "!!int" (speakerVolume.map toString) n)))
  | gnss enable sendAsNMEA sendAsCoT cotUID source => findOrCreateMapping "gnss" fun n =>
      findOrCreateMapping "sendAsExternalGNSSSource" (fun n =>
        setScalarWithTag "cotUID" cotUID "!!str"
          (setScalarValue "sendAsCoT" (formatBool sendAsCoT)
            (setScalarValue "sendAsNMEA" (formatBool sendAsNMEA) n)))
        (setScalarWithTag "source" source "!!str" (setScalarValue "enable" (formatBool enable) n))
  | setupAndAuth setupComplete authEnable => fun n =>
      findOrCreateMapping "auth" (setScalarValue "enable" (formatBool authEnable))
        (findOrCreateMapping "setup" (setScalarValue "complete" (formatBool setupComplete)) n)

/-! ## What a call does -/

/-- A call that succeeds has read a tree, set it and written it. -/
theorem of_persist {what : String} {set : Option Node → Except String Node} {c' : Config B}
    (h : c.persist y what set = .ok c') :
    ∃ root out, set (c.read y) = .ok root ∧ y.marshal root = .ok out ∧
      c' = { c with file := .ok out } := by
  unfold Config.persist at h
  split at h
  · simp at h
  cases hfile : c.file with
  | error err => simp [hfile] at h
  | ok data =>
      cases hdoc : y.unmarshal data with
      | error err => simp [hfile, hdoc] at h
      | ok doc =>
          have hread : c.read y = doc := by simp only [Config.read, hfile, hdoc]
          cases hset : set doc with
          | error err => simp [hfile, hdoc, hset] at h
          | ok root =>
              cases hout : y.marshal root with
              | error err => simp [hfile, hdoc, hset, hout] at h
              | ok out =>
                  cases hwrites : c.writes with
                  | error err => simp [hfile, hdoc, hset, hout, hwrites] at h
                  | ok _ =>
                      simp only [hfile, hdoc, hset, hout, hwrites, Except.ok.injEq] at h
                      exact ⟨root, out, hread ▸ hset, hout, h.symm⟩

/-- A setter that succeeds has edited a mapping. -/
theorem of_rootOf {doc : Option Node} {f : Node → Node} {root' : Node}
    (h : (do let root ← rootOf doc; return f root) = Except.ok root') :
    ∃ root, doc = some root ∧ root.isMapping = true ∧ f root = root' := by
  cases doc with
  | none => cases h
  | some root =>
      cases hmapping : root.isMapping with
      | true =>
          simp only [rootOf, hmapping, if_true] at h
          exact ⟨root, rfl, hmapping, Except.ok.inj h⟩
      | false =>
          simp only [rootOf, hmapping, Bool.false_eq_true, if_false] at h
          cases h

/-- **Every call is its edit**, between a read and a write. -/
theorem of_run {call : Call} {c c' : Config B} (h : call.run y c = .ok c') :
    ∃ root out, c.read y = some root ∧ root.isMapping = true ∧
      y.marshal (call.edit root) = .ok out ∧ c' = { c with file := .ok out } := by
  have hpersist : ∃ root' out, (do let root ← rootOf (c.read y); return call.edit root) =
      Except.ok root' ∧ y.marshal root' = .ok out ∧ c' = { c with file := .ok out } := by
    cases call with
    | blos => exact of_persist y c h
    | comms => exact of_persist y c h
    | commsAudio => exact of_persist y c h
    | gnss => exact of_persist y c h
    | setupAndAuth => exact of_persist y c h
  obtain ⟨root', out, hset, hout, rfl⟩ := hpersist
  obtain ⟨root, hroot, hmapping, rfl⟩ := of_rootOf hset
  exact ⟨root, out, hroot, hmapping, hout, rfl⟩

theorem path_of_mem_unlessNil {path : List String} {tag : String} {value : Option String}
    {o : Setting} (h : o ∈ unlessNil path tag value) : o.path = path := by
  cases value with
  | none => simp [unlessNil] at h
  | some value => rw [List.mem_singleton.1 h]

theorem map_under_unlessNil (key : String) (path : List String) (tag : String)
    (value : Option String) :
    (unlessNil path tag value).map (Setting.under key) = unlessNil (key :: path) tag value := by
  cases value <;> rfl

theorem edits_setUnlessNil (key tag : String) (value : Option String) :
    Edits (setUnlessNil key tag value) (unlessNil [key] tag value) := by
  cases value with
  | none => exact edits_id
  | some value => exact Edits.set key tag value

/-- The settings of a call are apart. -/
theorem settings_apart (call : Call) :
    call.settings.Pairwise fun o o' => Apart o.path o'.path := by
  cases call with
  | commsAudio speakerVolume micVolume agc =>
      cases speakerVolume <;> cases micVolume <;> cases agc <;>
        simp [settings, unlessNil] <;> decide
  | _ => simp [settings] <;> decide

/-- **The edit of a call sets what the call is to set**, if there is anything. -/
theorem edits (call : Call) (hne : call.settings ≠ []) : Edits call.edit call.settings := by
  cases call with
  | blos enable => exact (Edits.set _ _ _).under (List.cons_ne_nil _ _) _
  | comms enable controlSource =>
      exact ((Edits.set _ _ _).comp (Edits.set _ _ _) (by simp; decide)).under (List.cons_ne_nil _ _) _
  | commsAudio speakerVolume micVolume agc =>
      have haudio := ((edits_setUnlessNil "speakerVolume" "!!int" (speakerVolume.map toString)).comp
        (edits_setUnlessNil "micVolume" "!!int" (micVolume.map toString)) (by
          intro o ho o' ho'
          rw [path_of_mem_unlessNil ho, path_of_mem_unlessNil ho']
          decide)).comp (edits_setUnlessNil "agc" "!!bool" (agc.map formatBool)) (by
          intro o ho o' ho'
          rw [path_of_mem_unlessNil ho']
          rcases List.mem_append.1 ho with ho | ho
          · rw [path_of_mem_unlessNil ho]
            decide
          · rw [path_of_mem_unlessNil ho]
            decide)
      have hsettings : ((unlessNil ["speakerVolume"] "!!int" (speakerVolume.map toString) ++
          unlessNil ["micVolume"] "!!int" (micVolume.map toString) ++
          unlessNil ["agc"] "!!bool" (agc.map formatBool)).map (Setting.under "audio")).map
            (Setting.under "comms") = (commsAudio speakerVolume micVolume agc).settings := by
        simp only [List.map_append, map_under_unlessNil]
        rfl
      rw [← hsettings] at hne ⊢
      have hne' := fun h => hne (List.map_eq_nil_iff.2 h)
      exact (haudio.under (fun h => hne' (List.map_eq_nil_iff.2 h)) _).under hne' _
  | gnss enable sendAsNMEA sendAsCoT cotUID source =>
      refine (((Edits.set _ _ _).comp (Edits.set _ _ _) ?_).comp
        ((((Edits.set _ _ _).comp (Edits.set _ _ _) ?_).comp (Edits.set _ _ _) ?_).under
          (List.cons_ne_nil _ _) _) ?_).under (List.cons_ne_nil _ _) _
      all_goals
        simp [Setting.under]
        decide
  | setupAndAuth setupComplete authEnable =>
      exact ((Edits.set _ _ _).under (List.cons_ne_nil _ _) _).comp
        ((Edits.set _ _ _).under (List.cons_ne_nil _ _) _) (by simp [Setting.under]; decide)

/-- **A call with nothing to set** makes the mappings it would set it in. -/
theorem edit_keeps_iff {call : Call} (hnone : call.settings = []) {root : Node}
    (hmapping : root.isMapping = true) :
    Asked call.settings root (call.edit root) ↔ call.Fits root := by
  cases root with
  | mapping tag content =>
      cases call with
      | commsAudio speakerVolume micVolume agc =>
          cases speakerVolume <;> cases micVolume <;> cases agc <;>
            simp only [settings, unlessNil, Option.map_none, Option.map_some, Option.toList_some,
              Option.toList_none, List.append_nil, List.nil_append, List.append_eq_nil_iff,
              List.cons_ne_nil, and_false] at hnone
          have hedit : Asked (commsAudio none none none).settings (mapping tag content)
              ((commsAudio none none none).edit (mapping tag content)) ↔
              ∀ p, (place "comms" (place "audio" id (mapping "!!map" []))
                (place "audio" id (mapping "!!map" []) (mapping "!!map" []))
                (mapping tag content)).valueAt p = (mapping tag content).valueAt p :=
            ⟨fun h p => h.2 p List.not_mem_nil, fun h => ⟨by simp [settings, unlessNil], fun p _ => h p⟩⟩
          have hnew : ∀ p, (place "audio" id (mapping "!!map" []) (mapping "!!map" [])).valueAt p =
              none := by
            intro p
            rw [(place_id_keeps_iff "audio" (mapping "!!map" [])).2 (by simp)]
            cases p <;> rfl
          rw [hedit, place_keeps_iff "comms" hnew]
          simp only [place_id_keeps_iff]
          constructor
          · intro h
            refine ⟨by simp [settings, unlessNil], fun _ t items hcomms => ?_⟩
            cases hv : lookup "comms" content with
            | none => simp [nodeAt, hv] at hcomms
            | some v =>
                simp only [nodeAt, hv, Option.some.injEq] at hcomms
                exact h v hv t items hcomms
          · rintro ⟨-, h⟩ v hv t items rfl
            exact h rfl t items (by simp [nodeAt, hv])
      | _ => simp [settings] at hnone
  | _ => simp [isMapping] at hmapping

/-- **Where a call is made, and what it leaves.** -/
theorem edit_asked_iff (call : Call) {root : Node} (hmapping : root.isMapping = true) :
    Asked call.settings root (call.edit root) ↔ call.Fits root := by
  by_cases hnone : call.settings = []
  · exact edit_keeps_iff hnone hmapping
  · rw [(call.edits hnone).asked_iff call.settings_apart root]
    exact ⟨fun h => ⟨h, fun h' => absurd h' hnone⟩, And.left⟩

/-- What is asked of a tree is asked of it as it is read back. -/
theorem asked_written {settings : List Setting} {before after : Node} :
    Asked settings before after.written ↔ Asked settings before after := by
  simp only [Asked, valueAt_written]

/-- **Persisted settings are what was asked for, where they can be taken.** When
a call returns nil, reading the file back gives the values it was to leave at its
key paths and the old ones everywhere else if and only if the document fits. -/
theorem persisted_iff {y : Codec B} (hround : y.RoundTrips) {call : Call} {c c' : Config B}
    {before : Node} (hbefore : c.read y = some before) (hnil : call.run y c = .ok c') :
    (∃ after, c'.read y = some after ∧ Asked call.settings before after) ↔ call.Fits before := by
  obtain ⟨root, out, hroot, hmapping, hout, rfl⟩ := of_run y hnil
  obtain rfl := Option.some.inj (hbefore.symm.trans hroot)
  have hread : ({ c with file := .ok out } : Config B).read y = some (call.edit before).written := by
    simp only [Config.read, hround _ _ hout]
  rw [hread, ← edit_asked_iff call hmapping, ← asked_written]
  exact ⟨fun ⟨_, hafter, hasked⟩ => Option.some.inj hafter ▸ hasked, fun h => ⟨_, rfl, h⟩⟩

/-- A file system that keeps trees as they are written. -/
def treeCodec : Codec Node where
  unmarshal := fun data => .ok (some data)
  marshal := fun root => .ok root.written

theorem treeCodec_roundTrips : treeCodec.RoundTrips := by
  intro root data hdata
  obtain rfl := Except.ok.inj hdata
  rfl

/-- The end of the setup wizard, on a document with a `setup` section and no
`auth` section. -/
def freshConfig : Config Node where
  configFileUsed := "/etc/openmanet/config.yml"
  file := .ok (mapping "!!map" [(scalar "!!str" "setup" [],
    mapping "!!map" [(scalar "!!str" "complete" [], scalar "!!bool" "false" [])])])
  writes := .ok ()

/-- The wizard leaves both settings there. -/
theorem persisted_iff_fresh :
    ∃ c' after, (setupAndAuth true true).run treeCodec freshConfig = .ok c' ∧
      c'.read treeCodec = some after ∧
      after.valueAt ["auth", "enable"] = some (scalar "!!bool" "true" []) := by
  obtain ⟨c', hnil⟩ : ∃ c', (setupAndAuth true true).run treeCodec freshConfig = .ok c' := ⟨_, rfl⟩
  obtain ⟨after, hafter, hasked⟩ := (persisted_iff treeCodec_roundTrips rfl hnil).2
    ⟨by simp [settings, Takes, lookup, text, isScalar], by simp [settings]⟩
  exact ⟨c', after, hnil, hafter, hasked.1 ⟨["auth", "enable"], "!!bool", "true"⟩ (by simp [settings, formatBool])⟩

/-- The same file with a line `auth:` and nothing after it. -/
def nullConfig : Config Node where
  configFileUsed := "/etc/openmanet/config.yml"
  file := .ok (mapping "!!map" [
    (scalar "!!str" "setup" [],
      mapping "!!map" [(scalar "!!str" "complete" [], scalar "!!bool" "false" [])]),
    (scalar "!!str" "auth" [], scalar "!!null" "" [])])
  writes := .ok ()

/-- **The wizard is over and the door is open.** An empty `auth` section takes
`enable` for a child of its null, which is not written: the call returns nil, and
the file that is read at the next start has no `auth.enable`. -/
theorem auth_lost :
    ∃ c' after, (setupAndAuth true true).run treeCodec nullConfig = .ok c' ∧
      c'.read treeCodec = some after ∧ after.valueAt ["auth", "enable"] = none ∧
      ∀ before, nullConfig.read treeCodec = some before →
        ¬Asked (setupAndAuth true true).settings before after := by
  refine ⟨_, _, rfl, rfl, rfl, fun before _ hasked => ?_⟩
  have henable := hasked.1 ⟨["auth", "enable"], "!!bool", "true"⟩ (by simp [settings, formatBool])
  cases henable

end Call

end Config

end OpenManet
