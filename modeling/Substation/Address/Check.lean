import Substation.Address.Mac
import Substation.Config.Network

/-!
# Checking addresses

The parts of an address that have a fixed form are checked one by one. All faults are found, in the
order of the parts and, within a hardware address, in the order of its groups.
-/

namespace Substation.Address

open Substation.Config
open Substation.Text

/-- What is wrong with a part of an address. -/
inductive PartFault where
  /-- A hexadecimal number is none. -/
  | notHex (type text : String)
  /-- A hexadecimal number has the wrong number of digits. -/
  | size (type : String) (expected actual : Nat)
  /-- A priority is none. -/
  | notPriority (text : String)
  /-- A hardware address does not have six groups. -/
  | groupCount (actual : Nat)
  /-- A group of a hardware address is no hexadecimal number. -/
  | groupNotHex (position : Nat) (text : String)
  /-- A group of a hardware address does not have two digits. -/
  | groupSize (position actual : Nat)
deriving DecidableEq, Repr

/-- The explanation. -/
def PartFault.message : PartFault → String
  | notHex type text =>
    "P address of type " ++ type ++ " does not have a Hex value. Value is: " ++ text
  | size type expected actual =>
    "P address of type " ++ type ++ " size it is not " ++ toString expected ++
      ". Actual size: " ++ toString actual
  | notPriority text =>
    "P address of type VLAN-PRIORITY does not have a 0-7 value. Value is: " ++ text
  | groupCount actual =>
    "P address of type MAC-Address does not have a array size 6 value. Actual size: " ++
      toString actual
  | groupNotHex position text =>
    "P address of type MAC-Address does not have a Hex value on position " ++
      toString position ++ ". Value is: " ++ text
  | groupSize position actual =>
    "P address of type MAC-Address size it is not 2 on position " ++ toString position ++
      ". Actual size: " ++ toString actual

/-- A hexadecimal number of a fixed number of digits (`check_address`). -/
def hexFaults (type text : String) (expected : Nat) : List PartFault :=
  if !isHex text then [.notHex type text]
  else if text.length ≠ expected then [.size type expected text.length]
  else []

/-- A digit from 0 to 7, or several of them (`check_address`). -/
def priorityFaults (text : String) : List PartFault :=
  if !text.isEmpty && text.toList.all (fun c => '0' ≤ c && c ≤ '7') then []
  else [.notPriority text]

/-- One group of a hardware address (`check_mac`). -/
def groupFaults (position : Nat) (group : String) : List PartFault :=
  if !isHex group then [.groupNotHex position group]
  else if group.length ≠ 2 then [.groupSize position group.length]
  else []

/-- The groups of a hardware address (`check_mac`). -/
def macFaults (text : String) : List PartFault :=
  let groups := segments '-' text
  if groups.length ≠ 6 then [.groupCount groups.length]
  else (groups.zipIdx.map fun (group, position) => groupFaults position group).flatten

/-- One part, by its type (`check_address`). -/
def partFaults (p : AddressPart) : List PartFault :=
  match p.type with
  | "APPID" => hexFaults "APPID" (trim p.text) 4
  | "VLAN-ID" => hexFaults "VLAN-ID" (trim p.text) 3
  | "VLAN-PRIORITY" => priorityFaults (trim p.text)
  | "MAC-Address" => macFaults (trim p.text)
  | _ => []

/-- All parts (`check_address`). -/
def faults (a : Config.Address) : List PartFault :=
  a.parts.flatMap partFaults

/-- The faults of all addresses of a connected access point, each with the name of what it is the
address of (`check_connected_ap`): the access point itself, then its event messages, then its
sampled values. -/
def connectionFaults (cap : ConnectedAp) : List (String × PartFault) :=
  let object := cap.iedName ++ "/" ++ cap.apName
  let under (name : String) (address : Option Config.Address) : List (String × PartFault) :=
    (address.toList.flatMap faults).map (name, ·)
  under object cap.address ++
    cap.gse.flatMap (fun g => under (object ++ "/GSE " ++ g.cbName.getD "") g.address) ++
    cap.sampled.flatMap (fun s => under (object ++ "/SMV " ++ s.cbName.getD "") s.address)

end Substation.Address
