import OpenManet.Lib.Machine
import Mathlib.Data.Int.Notation
/-!
# The GNSS service — what writes the reported position

`internal/gpsd`: one report, written by gpsd's TPV and SKY messages and by the
CoT broadcast of a connected device. `gnss.source` says which of the two a node
reports; it is read by the listener, once for each datagram, and by nobody else.

The report is guarded by a mutex, and a message from gpsd is processed under one
hold of it: one step. The listener reads the source, then the leases, then takes
the mutex, and the source and the leases may change in between: a datagram is
four steps. Re-announcing only reads the report.

JSON, the CoT formats and the clock are what the service is given (`Decode`); a
number is a value of a type with a zero and a sign.
-/

namespace OpenManet

namespace Gnss

/-- `PositionReport`. -/
structure PositionReport (F T : Type) where
  timestamp : T
  latitude : F
  longitude : F
  altitude : F
  speed : F
  track : F
  climb : F
  valid : Bool
  mode : ℤ
  satellitesUsed : ℤ
  hdop : F
  geoidSeparation : F
  eph : F
  epx : F
  epy : F
  epv : F
  dgpsAge : F
  dgpsStation : ℤ

/-- `TPVReport`, as it is unmarshaled: a field that is not there is zero. -/
structure TPVReport (F : Type) where
  time : String
  mode : ℤ
  lat : F
  lon : F
  alt : F
  track : F
  speed : F
  climb : F
  geoidSep : F
  eph : F
  epx : F
  epy : F
  epv : F
  dgpsAge : F
  dgpsSta : ℤ

/-- `SKYSatellite`, and the `SatelliteInfo` it converts to. -/
structure SatelliteInfo (F : Type) where
  prn : ℤ
  el : F
  az : F
  ss : F
  used : Bool
  gnssid : ℤ

/-- `SKYReport`. -/
structure SKYReport (F : Type) where
  time : String
  satellites : List (SatelliteInfo F)
  hdop : F
  vdop : F
  pdop : F
  nSat : ℤ
  uSat : ℤ

/-- `SatelliteReport`. -/
structure SatelliteReport (F T : Type) where
  timestamp : T
  satellites : List (SatelliteInfo F)
  hdop : F
  vdop : F
  pdop : F
  nSat : ℤ
  uSat : ℤ

/-- What `parseCoTPositionProto` reads of the protobuf event; `track` is a
speed and a course. -/
structure CotEvent (F : Type) where
  uid : String
  lat : F
  lon : F
  hae : F
  track : Option (F × F)

/-- What `parseCoTPositionXML` reads of the XML event. -/
structure XMLEvent (F : Type) where
  uid : String
  lat : F
  lon : F
  hae : F

/-- `cotPosition`. -/
structure CotPosition (F : Type) where
  uid : String
  lat : F
  lon : F
  hae : F
  speed : F
  course : F

/-- What the service is given: `json.Unmarshal` at the three types it is called
with, `time.Parse`, `cot.ReadProtoMesh` (a message may carry no event) and
`xml.Unmarshal`. -/
structure Decode (F T : Type) where
  baseMsg : String → Option String
  tpv : String → Option (TPVReport F)
  sky : String → Option (SKYReport F)
  parseTime : String → Option T
  readProtoMesh : List UInt8 → Option (Option (CotEvent F))
  unmarshalXML : List UInt8 → Option (XMLEvent F)

variable {F T : Type} [Zero F] [DecidableEq F] [LT F] [DecidableLT F] [Zero T]

/-! ## The CoT formats -/

/-- `parseCoTPositionProto`. -/
def parseCoTPositionProto (d : Decode F T) (data : List UInt8) : Option (CotPosition F) :=
  match d.readProtoMesh data with
  | none | some none => none
  | some (some event) =>
      let (speed, course) := event.track.getD (0, 0)
      if event.lat = 0 ∧ event.lon = 0 then none
      else some ⟨event.uid, event.lat, event.lon, event.hae, speed, course⟩

/-- `parseCoTPositionXML`. -/
def parseCoTPositionXML (d : Decode F T) (data : List UInt8) : Option (CotPosition F) :=
  match d.unmarshalXML data with
  | none => none
  | some event =>
      if event.lat = 0 ∧ event.lon = 0 then none
      else some ⟨event.uid, event.lat, event.lon, event.hae, 0, 0⟩

/-- `parseCoTPosition`. -/
def parseCoTPosition (d : Decode F T) (data : List UInt8) : Option (CotPosition F) :=
  match data with
  | [] => none
  | b :: _ => if b = 0xbf then parseCoTPositionProto d data else parseCoTPositionXML d data

/-! ## The service -/

/-- Where the CoT listener stands. -/
inductive Listener (F : Type) where
  | reading
  /-- `ReadFromUDP` has returned. -/
  | received (data : List UInt8) (srcIP : String)
  /-- The source was `external_cot`. -/
  | selected (data : List UInt8) (srcIP : String)
  /-- The sender had a lease. -/
  | known (pos : CotPosition F) (srcIP : String)

/-- `GPSService`, and what it asks for: the configured source (`none` where there
is no `Config`) and the leases (`none` where they cannot be read). -/
structure GPSService (F T : Type) where
  position : PositionReport F T
  satellites : SatelliteReport F T
  source : Option String
  leases : Option (List String)
  listener : Listener F := .reading

/-- `NewGPSServiceWithAddress`. -/
def newGPSService (source : Option String) (leases : Option (List String)) : GPSService F T where
  position := ⟨0, 0, 0, 0, 0, 0, 0, false, 0, 0, 0, 0, 0, 0, 0, 0, 0, 0⟩
  satellites := ⟨0, [], 0, 0, 0, 0, 0⟩
  source := source
  leases := leases

namespace GPSService

variable (g : GPSService F T)

/-- `IsValid`. -/
def isValid : Bool := g.position.valid

/-- `GetLatitude`, `GetLongitude` and `GetAltitude`. -/
def place : F × F × F := (g.position.latitude, g.position.longitude, g.position.altitude)

/-- `externalCoTSelected`. -/
def externalCoTSelected : Bool :=
  match g.source with
  | none => false
  | some source => source = "external_cot"

/-- `isKnownEUD`. -/
def isKnownEUD (ipAddr : String) : Bool :=
  match g.leases with
  | none => false
  | some leases => leases.any (· = ipAddr)

/-- `updatePosition`. -/
def updatePosition (d : Decode F T) (now : T) (tpv : TPVReport F) : GPSService F T :=
  if tpv.mode ≥ 2 then
    { g with
      position := {
        timestamp := if tpv.time ≠ "" then (d.parseTime tpv.time).getD 0 else now
        latitude := tpv.lat
        longitude := tpv.lon
        altitude := tpv.alt
        speed := tpv.speed
        track := tpv.track
        climb := tpv.climb
        valid := true
        mode := tpv.mode
        geoidSeparation := tpv.geoidSep
        eph := tpv.eph
        epx := tpv.epx
        epy := tpv.epy
        epv := tpv.epv
        dgpsAge := tpv.dgpsAge
        dgpsStation := tpv.dgpsSta
        satellitesUsed := g.position.satellitesUsed
        hdop := g.position.hdop } }
  else g

/-- `applyExternalPosition`. -/
def applyExternalPosition (now : T) (pos : CotPosition F) : GPSService F T :=
  { g with
    position := {
      timestamp := now
      latitude := pos.lat
      longitude := pos.lon
      altitude := pos.hae
      speed := pos.speed
      track := pos.course
      climb := 0
      valid := true
      mode := 3
      satellitesUsed := 0
      hdop := 0
      geoidSeparation := 0
      eph := 0
      epx := 0
      epy := 0
      epv := 0
      dgpsAge := 0
      dgpsStation := 0 } }

/-- The constellation of `updateSatelliteInfo`. -/
def updateConstellation (d : Decode F T) (now : T) (sky : SKYReport F) : GPSService F T :=
  if sky.satellites.length > 0 then
    let nUsed := max sky.uSat (sky.satellites.countP (·.used))
    { g with
      satellites := { g.satellites with
        satellites := sky.satellites
        nSat := max sky.nSat sky.satellites.length
        uSat := nUsed
        timestamp := (d.parseTime sky.time).getD now }
      position := { g.position with satellitesUsed := nUsed } }
  else
    let g := if sky.nSat > 0 then { g with satellites := { g.satellites with nSat := sky.nSat } }
      else g
    if sky.uSat > 0 then
      { g with
        satellites := { g.satellites with uSat := sky.uSat }
        position := { g.position with satellitesUsed := sky.uSat } }
    else g

/-- `updateSatelliteInfo`. -/
def updateSatelliteInfo (d : Decode F T) (now : T) (sky : SKYReport F) : GPSService F T :=
  let g := g.updateConstellation d now sky
  let g := if sky.hdop > 0 then
      { g with
        position := { g.position with hdop := sky.hdop }
        satellites := { g.satellites with hdop := sky.hdop } }
    else g
  let g := if sky.vdop > 0 then { g with satellites := { g.satellites with vdop := sky.vdop } }
    else g
  if sky.pdop > 0 then { g with satellites := { g.satellites with pdop := sky.pdop } } else g

/-- `processGPSDMessage`. An NMEA sentence is passed on and changes nothing. -/
def processGPSDMessage (d : Decode F T) (now : T) (message : String) : GPSService F T :=
  if message.toList.head? = some '$' then g
  else
    match d.baseMsg message with
    | some "TPV" =>
        match d.tpv message with
        | some report => g.updatePosition d now report
        | none => g
    | some "SKY" =>
        match d.sky message with
        | some skyReport => g.updateSatelliteInfo d now skyReport
        | none => g
    | _ => g

end GPSService

/-! ## The machine -/

/-- Who does what next. -/
inductive Action (T : Type) where
  /-- A line from gpsd, with the time it is processed at. -/
  | gpsd (message : String) (now : T)
  /-- `gnss.source` is written. -/
  | setSource (source : String)
  /-- A lease is given or runs out, or the lookup fails from now on. -/
  | setLeases (leases : Option (List String))
  | datagram (data : List UInt8) (srcIP : String)
  /-- The listener looks at the source. -/
  | select
  /-- The listener decodes the datagram and looks its sender up. -/
  | lookup
  /-- The listener takes the position over. -/
  | adopt (now : T)

/-- The machine. The body of the loop of `startCoTListener` is `select`, and
`handleIncomingCoT` is `lookup` and `adopt`. -/
def step (d : Decode F T) (g : GPSService F T) : Action T → Option (GPSService F T)
  | .gpsd message now => some (g.processGPSDMessage d now message)
  | .setSource source => g.source.map fun _ => { g with source := some source }
  | .setLeases leases => some { g with leases := leases }
  | .datagram data srcIP =>
      match g.listener with
      | .reading => some { g with listener := .received data srcIP }
      | _ => none
  | .select =>
      match g.listener with
      | .received data srcIP =>
          some { g with
            listener := if g.externalCoTSelected then .selected data srcIP else .reading }
      | _ => none
  | .lookup =>
      match g.listener with
      | .selected data srcIP =>
          match parseCoTPosition d data with
          | some pos =>
              some { g with listener := if g.isKnownEUD srcIP then .known pos srcIP else .reading }
          | none => some { g with listener := .reading }
      | _ => none
  | .adopt now =>
      match g.listener with
      | .known pos _ => some { g.applyExternalPosition now pos with listener := .reading }
      | _ => none

end Gnss

end OpenManet
