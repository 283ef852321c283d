import CcspPandM.InetText

/-!
Checks on IPv4 addresses, kept as the code keeps them: 32 bits whose lowest byte
is the first of the address. What the platform says about the LAN is a
parameter, as is the library's `_ansc_inet_addr`.
-/
namespace CcspPandM.Ipv4Addr

open CString InetText

abbrev Addr := BitVec 32

def htonl (x : Addr) : Addr :=
  x.extractLsb' 0 8 ++ x.extractLsb' 8 8 ++ x.extractLsb' 16 8 ++ x.extractLsb' 24 8

abbrev ntohl (x : Addr) : Addr := htonl x

/-- What `inet_pton` stores over `dflt`. -/
def inetAddr (dflt : Addr) (t : CStr) : Addr :=
  match inet_pton4 t with
  | some octets => octets.foldr (fun v acc => acc <<< 8 ||| BitVec.ofNat 32 v) 0
  | none => dflt

def ipv4AddrIsSameNetwork (addr1 addr2 mask : Addr) : Bool := addr1 &&& mask == addr2 &&& mask

def ipv4AddrIsLoopback (addr : Addr) : Bool := addr &&& htonl 0xff000000 == htonl 0x7f000000

def ipv4AddrIsMulticast (addr : Addr) : Bool := addr &&& htonl 0xf0000000 == htonl 0xe0000000

def ipv4AddrIsBroadcast (addr net mask : Addr) : Bool :=
  addr == 0xffffffff ||
    (ipv4AddrIsSameNetwork addr net mask && addr &&& ~~~mask == 0xffffffff &&& ~~~mask)

def ipv4AddrIsNetworkAddr (addr net mask : Addr) : Bool :=
  ipv4AddrIsSameNetwork addr net mask && addr &&& ~~~mask == 0

/-- What `Utopia_GetDHCPServerSettings` and `Utopia_GetLanSettings` report. -/
structure LanSettings where
  ipaddr : CStr
  netmask : CStr
  DHCPIPAddressStart : CStr
  DHCPIPAddressEnd : CStr

/-- `CosaDmlNatChkPortMappingClient`; no settings stand for a failed
`Utopia_Init`. -/
def chkPortMappingClient (lan : Option LanSettings) (client : Addr) : Bool :=
  if client = 0xffffffff then true
  else match lan with
    | none => false
    | some lan =>
      let startIP := htonl (inetAddr 0xffffffff lan.DHCPIPAddressStart)
      let endIP := htonl (inetAddr 0xffffffff lan.DHCPIPAddressEnd)
      let checkIP := htonl client
      let ipaddr := inetAddr 0xffffffff lan.ipaddr
      let netmask := inetAddr 0xffffffff lan.netmask
      client != ipaddr && (decide (startIP ≤ checkIP) && decide (checkIP ≤ endIP)) &&
        !ipv4AddrIsBroadcast client ipaddr netmask &&
        !ipv4AddrIsNetworkAddr client ipaddr netmask &&
        (ipv4AddrIsSameNetwork client ipaddr netmask ||
          ipv4AddrIsSameNetwork client 0xac100c00 0xffffff00)

example : inetAddr 0 "10.0.0.7".toList = 0x0700000a := by decide

end CcspPandM.Ipv4Addr
