import Substation.Text.Blank

/-!
# Communication

The section that says how access points are connected, and to which addresses control blocks send.
-/

namespace Substation.Config

/-- A typed part of an address. -/
structure AddressPart where
  /-- The type. -/
  type : String
  /-- The value as written. -/
  text : String
deriving DecidableEq, Repr

/-- An address. -/
structure Address where
  /-- The parts in order. -/
  parts : List AddressPart
deriving DecidableEq, Repr

/-- The value of the first part of a type, without white space at its ends (`Address::p`). -/
def Address.part? (a : Address) (type : String) : Option String :=
  (a.parts.find? (·.type = type)).map fun p => Text.trim p.text

/-- A length of time. -/
structure Duration where
  /-- The unit. -/
  unit : Option String
  /-- The multiplier of the unit. -/
  multiplier : Option String
  /-- The number as written. -/
  text : String
deriving DecidableEq, Repr

/-- Where the messages of an event control block go (`Gse`). -/
structure GseConnection where
  /-- The logical device. -/
  ldInst : Option String
  /-- The control block. -/
  cbName : Option String
  /-- The address. -/
  address : Option Address
  /-- The shortest time between messages. -/
  minTime : Option Duration
  /-- The longest time between messages. -/
  maxTime : Option Duration
deriving DecidableEq, Repr

/-- Where the messages of a sampled value control block go (`Smv`). -/
structure SampledConnection where
  /-- The logical device. -/
  ldInst : Option String
  /-- The control block. -/
  cbName : Option String
  /-- The address. -/
  address : Option Address
deriving DecidableEq, Repr

/-- The connection of an access point to a subnetwork (`ConnectedAp`). -/
structure ConnectedAp where
  /-- The IED. -/
  iedName : String
  /-- The access point. -/
  apName : String
  /-- The address of the access point. -/
  address : Option Address
  /-- The connections of event control blocks. -/
  gse : List GseConnection
  /-- The connections of sampled value control blocks. -/
  sampled : List SampledConnection
deriving DecidableEq, Repr

namespace ConnectedAp

/-- The first connection of an event control block of a name (`ConnectedAp::gse`). -/
def gse? (c : ConnectedAp) (cbName : String) : Option GseConnection :=
  c.gse.find? (·.cbName = some cbName)

/-- The first connection of a sampled value control block of a name (`ConnectedAp::smv`). -/
def sampled? (c : ConnectedAp) (cbName : String) : Option SampledConnection :=
  c.sampled.find? (·.cbName = some cbName)

end ConnectedAp

/-- A subnetwork. -/
structure SubNetwork where
  /-- The name. -/
  name : String
  /-- The type. -/
  networkType : Option String
  /-- The access points connected to it. -/
  connectedAps : List ConnectedAp
deriving DecidableEq, Repr

/-- The communication section. -/
structure Communication where
  /-- The subnetworks. -/
  subNetworks : List SubNetwork
deriving DecidableEq, Repr

/-- The first connection of an access point in any subnetwork (`connected_ap`). -/
def Communication.connectedAp? (c : Communication) (apName iedName : String) :
    Option ConnectedAp :=
  (c.subNetworks.flatMap SubNetwork.connectedAps).find? fun cap =>
    cap.apName = apName ∧ cap.iedName = iedName

end Substation.Config
