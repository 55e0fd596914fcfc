import Substation.Address.Mac
import Substation.Config.Network

/-!
# Physical addresses

What the messages of a control block carry in their frame.
-/

namespace Substation.Address

open Substation.Text

/-- The parts of an address that a `PA` statement shows (`PhysicalAddress`). -/
structure Physical where
  /-- The priority in the virtual network. -/
  vlanPriority : String
  /-- The virtual network. -/
  vlanId : String
  /-- The application. -/
  appId : String
  /-- The hardware address, if it can be read. -/
  mac : Option Mac
deriving DecidableEq, Repr

variable (codec : HexCodec)

/-- Reads the parts off an address; a part that is not given is `0`
(`PhysicalAddress::from_address`). -/
def Physical.ofAddress (a : Config.Address) : Physical where
  vlanPriority := (a.part? "VLAN-PRIORITY").getD "0"
  vlanId := (a.part? "VLAN-ID").getD "0"
  appId := (a.part? "APPID").getD "0"
  mac := (a.part? "MAC-Address").bind fun text => (Mac.parse codec text).toOption

/-- The hardware address in upper case without dashes (`PhysicalAddress::mac_hex`). -/
def Physical.macHex? (p : Physical) : Option HexString := p.mac.map (·.hex codec)

end Substation.Address
