import BirRouter.Router

/-!
# ARP lookups, requests and the queue of waiting packets (`arp.c`)

What the IP and PWOSPF handlers use of ARP: looking an address up in the cache, and parking a
packet whose next hop has no known MAC while an ARP request goes out for it.
-/

set_option autoImplicit false

namespace BirRouter

open ByteLayout

/-- `ARP_HTYPE_ETH`, `ARP_PTYPE_IP`, `ARP_OPCODE_REQUEST`. -/
def arpHtypeEth : BitVec 16 := 1
def arpPtypeIp : BitVec 16 := 0x0800
def arpOpcodeRequest : BitVec 16 := 1

/-- The first entry for `ip`. -/
def arpGetcachebyip (cache : List ArpCacheEntry) (ip : AddrIp) : Option ArpCacheEntry :=
  cache.find? fun entry => entry.ip = ip

namespace Router

/-- The frame `arp_send` fills in. -/
def arpFrame (opcode : BitVec 16) (target_ip : AddrIp) (target_mac : AddrMac)
    (source_ip : AddrIp) (source_mac : AddrMac) : List Byte :=
  PacketEthernet.layout.enc ⟨target_mac, source_mac, htons ethArpType⟩ ++
    PacketArp.layout.enc
      { hardwaretype := htons arpHtypeEth
        protocoltype := htons arpPtypeIp
        hardwareaddresslength := 6
        protocoladdresslength := 4
        opcode := htons opcode
        sender_mac := source_mac
        sender_ip := source_ip
        target_mac := target_mac
        target_ip := target_ip }

/-- `arp_send_request`: a broadcast request from the interface's own addresses. -/
def arpSendRequest (r : Router) (interface : Nat) (target_ip : AddrIp) : Router :=
  let f := r.interface interface
  r.output interface (arpFrame arpOpcodeRequest target_ip AddrMac.broadcast f.ip f.mac)

/-- `arp_queue_ippacket_for_send_on_arp_request_response`: a copy of the packet as it is now. -/
def arpQueueIppacket (r : Router) (env : Env) (pi : PacketInfo) (intf : Nat) (dest : AddrIp) :
    Router :=
  let entry : IparpBufferEntry :=
    { packet_info := pi
      reception_time := env.now
      sent_arps_count := 1
      intf := intf
      dest := dest }
  { r with iparp_buffer := r.iparp_buffer ++ [entry] }.arpSendRequest intf dest

end Router

end BirRouter
