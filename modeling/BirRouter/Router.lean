import BirRouter.Checksum
import BirRouter.Hardware
import Mathlib.Data.List.Sort

/-!
# Router state (`sr_router.h`, `sr_interface.h`, `packets.h`)

The state the packet handlers share.  A data queue of records is the list of its records (each
queue holds elements of one size, the case in which a `Dataqueue` is a list), a pointer to an
interface is its index, and what the router hands to `sr_integ_low_level_output` is appended to
`sent`.

* `PacketInfo` — a received or generated frame; it is at least as long as an Ethernet and an IPv4
  header, which `router_handle_packet` checks before it calls a handler.
* `Env` — what a handler reads from outside the router state: the clock, `qsort`, memory nobody
  has written, and the two functions of other components that `ip_onreceive` calls.
-/

set_option autoImplicit false

namespace BirRouter

open ByteLayout

/-! ## Frames -/

/-- `packet_info_t`, without the router pointer. -/
structure PacketInfo where
  packet : List Byte
  interface : Nat
  ip_fits : 34 ≤ packet.length
  deriving DecidableEq, Repr

namespace PacketInfo

def eth (pi : PacketInfo) : PacketEthernet := PacketEthernet.layout.load 0 pi.packet

def ipv4 (pi : PacketInfo) : PacketIp4 := PacketIp4.layout.load 14 pi.packet

/-- Everything behind the IPv4 header. -/
def payload (pi : PacketInfo) : List Byte := pi.packet.drop 34

def setEth (pi : PacketInfo) (e : PacketEthernet) : PacketInfo where
  packet := PacketEthernet.layout.store 0 e pi.packet
  interface := pi.interface
  ip_fits := by
    have h := pi.ip_fits
    rw [Layout.store_length _ _ (by rw [PacketEthernet.layout_size]; omega)]
    exact h

def setIpv4 (pi : PacketInfo) (h : PacketIp4) : PacketInfo where
  packet := PacketIp4.layout.store 14 h pi.packet
  interface := pi.interface
  ip_fits := by
    have h := pi.ip_fits
    rw [Layout.store_length _ _ (by rw [PacketIp4.layout_size]; omega)]
    exact h

/-- The frame with everything behind the IPv4 header replaced. -/
def setPayload (pi : PacketInfo) (payload : List Byte) : PacketInfo where
  packet := pi.packet.take 34 ++ payload
  interface := pi.interface
  ip_fits := by
    have := pi.ip_fits
    rw [List.length_append, List.length_take]
    omega

/-- A frame put together from its parts. -/
def ofParts (e : PacketEthernet) (h : PacketIp4) (payload : List Byte) (interface : Nat) :
    PacketInfo where
  packet := PacketEthernet.layout.enc e ++ (PacketIp4.layout.enc h ++ payload)
  interface := interface
  ip_fits := by
    rw [List.length_append, List.length_append, Layout.enc_length, Layout.enc_length]
    simp only [PacketEthernet.layout_size, PacketIp4.layout_size]
    omega

section Parts

variable (e : PacketEthernet) (h : PacketIp4) (payload : List Byte) (interface : Nat)

@[simp] theorem ofParts_packet : (ofParts e h payload interface).packet =
    PacketEthernet.layout.enc e ++ (PacketIp4.layout.enc h ++ payload) := rfl

@[simp] theorem ofParts_interface : (ofParts e h payload interface).interface = interface := rfl

@[simp] theorem ofParts_eth : (ofParts e h payload interface).eth = e :=
  PacketEthernet.layout.load_append e _ (rfl : ([] : List Byte).length = 0)

@[simp] theorem ofParts_ipv4 : (ofParts e h payload interface).ipv4 = h :=
  PacketIp4.layout.load_append h payload (PacketEthernet.layout.enc_length e)

@[simp] theorem ofParts_payload : (ofParts e h payload interface).payload = payload := by
  have h1 : (PacketEthernet.layout.enc e).length = 14 := PacketEthernet.layout.enc_length e
  have h2 : (PacketIp4.layout.enc h).length = 20 := PacketIp4.layout.enc_length h
  have hd : 34 = 14 + 20 := rfl
  unfold PacketInfo.payload
  rw [ofParts_packet, hd, ← List.drop_drop]
  nth_rewrite 1 [← h1]
  rw [List.drop_left, ← h2, List.drop_left]

@[simp] theorem ofParts_setEth (e' : PacketEthernet) :
    (ofParts e h payload interface).setEth e' = ofParts e' h payload interface := by
  have hs : PacketEthernet.layout.store 0 e' (ofParts e h payload interface).packet
      = (ofParts e' h payload interface).packet :=
    PacketEthernet.layout.store_append e' e _ (rfl : ([] : List Byte).length = 0)
  simp only [setEth, hs]
  rfl

@[simp] theorem ofParts_setIpv4 (h' : PacketIp4) :
    (ofParts e h payload interface).setIpv4 h' = ofParts e h' payload interface := by
  have hs : PacketIp4.layout.store 14 h' (ofParts e h payload interface).packet
      = (ofParts e h' payload interface).packet :=
    PacketIp4.layout.store_append h' h payload (PacketEthernet.layout.enc_length e)
  simp only [setIpv4, hs]
  rfl

@[simp] theorem ofParts_setPayload (payload' : List Byte) :
    (ofParts e h payload interface).setPayload payload' = ofParts e h payload' interface := by
  have h34 : (PacketEthernet.layout.enc e ++ PacketIp4.layout.enc h).length = 34 := by
    rw [List.length_append, Layout.enc_length, Layout.enc_length]
    rfl
  have hs : (ofParts e h payload interface).packet.take 34 ++ payload' =
      (ofParts e h payload' interface).packet := by
    rw [ofParts_packet, ofParts_packet, ← List.append_assoc, List.take_left' h34, List.append_assoc]
  simp only [setPayload, hs]
  rfl

end Parts

/-- **Every frame is its parts.** -/
theorem eq_ofParts (pi : PacketInfo) : pi = ofParts pi.eth pi.ipv4 pi.payload pi.interface := by
  obtain ⟨packet, interface, hfits⟩ := pi
  obtain ⟨pre, e, rest, rfl, hpre⟩ := PacketEthernet.layout.exists_append
    (show 0 + PacketEthernet.layout.size ≤ packet.length by rw [PacketEthernet.layout_size]; omega)
  obtain rfl := List.length_eq_zero_iff.1 hpre
  have hlen := PacketEthernet.layout.enc_length e
  have hrest : 20 ≤ rest.length := by
    simp only [List.nil_append, List.length_append, hlen, PacketEthernet.layout_size] at hfits
    omega
  obtain ⟨pre, h, rest, rfl, hpre⟩ := PacketIp4.layout.exists_append
    (show 0 + PacketIp4.layout.size ≤ rest.length by rw [PacketIp4.layout_size]; omega)
  obtain rfl := List.length_eq_zero_iff.1 hpre
  have hmk : (⟨[] ++ (PacketEthernet.layout.enc e ++ ([] ++ (PacketIp4.layout.enc h ++ rest))),
      interface, hfits⟩ : PacketInfo) = ofParts e h rest interface := rfl
  rw [hmk, ofParts_eth, ofParts_ipv4, ofParts_payload, ofParts_interface]

theorem packet_length (pi : PacketInfo) : pi.packet.length = 34 + pi.payload.length := by
  have := pi.ip_fits
  unfold payload
  rw [List.length_drop]
  omega

theorem setIpv4_eq (pi : PacketInfo) (h : PacketIp4) :
    pi.setIpv4 h = ofParts pi.eth h pi.payload pi.interface :=
  calc pi.setIpv4 h
      = (ofParts pi.eth pi.ipv4 pi.payload pi.interface).setIpv4 h := by rw [← pi.eq_ofParts]
    _ = ofParts pi.eth h pi.payload pi.interface := ofParts_setIpv4 ..

end PacketInfo

/-! ## Tables -/

/-- `rtable_entry_t`.  `padding` are the bytes between its fields that belong to no field; they
take part in comparisons with `memcmp`. -/
structure RtableEntry where
  router_ip : AddrIp
  subnet : AddrIp
  netmask : AddrIp
  interface : Nat
  metric : Int
  dynamic : Bool
  padding : BitVec 56
  deriving DecidableEq, Repr

/-- `cmpfunc` of `djikstra.c`. -/
def cmpfunc (p1 p2 : RtableEntry) : Int := if p1.netmask ≤ p2.netmask then -1 else 1

/-- The C library's `qsort` called with `cmpfunc`: some permutation in ascending order. -/
structure Qsort where
  sort : List RtableEntry → List RtableEntry
  perm : ∀ l, (sort l).Perm l
  ascending : ∀ l, (sort l).Pairwise fun a b => cmpfunc a b < 0

structure ArpCacheEntry where
  ip : AddrIp
  mac : AddrMac
  tv_sec : Int
  deriving DecidableEq, Repr

/-- `lsu_lastcontents` with its count: no array, an array, or one that was freed and whose bytes
are read all the same. -/
inductive LsuContents where
  | null
  | valid (lsas : List PwospfLsa)
  | dangling (lsas : List PwospfLsa)
  deriving DecidableEq, Repr

/-- The array behind the pointer; empty if there is none. -/
def LsuContents.lsas : LsuContents → List PwospfLsa
  | .null => []
  | .valid l | .dangling l => l

structure PwospfListEntry where
  neighbour_id : BitVec 32
  neighbour_ip : AddrIp
  helloint : BitVec 16
  timestamp : Nat
  immediate_neighbour : Int
  lsu_lastseq : BitVec 16
  lsu_lastcontents : LsuContents
  lsu_timestamp : Nat
  deriving DecidableEq, Repr

/-- `iparp_buffer_entry_t`; the copied packet info is the packet info itself. -/
structure IparpBufferEntry where
  packet_info : PacketInfo
  reception_time : Nat
  sent_arps_count : Int
  intf : Nat
  dest : AddrIp
  deriving DecidableEq, Repr

/-- `interface_t`. -/
structure Interface where
  mac : AddrMac
  ip : AddrIp
  subnet_mask : AddrIp
  hw_oq : Byte
  hw_id : Byte
  helloint : BitVec 16
  neighbours : List PwospfListEntry
  deriving DecidableEq, Repr

/-- The network an interface is attached to. -/
def Interface.subnet (f : Interface) : AddrIp := f.subnet_mask &&& f.ip

structure PwospfRouter where
  router_id : BitVec 32
  area_id : BitVec 32
  lsuint : BitVec 16
  deriving DecidableEq, Repr

/-! ## The router -/

/-- A frame handed to `sr_integ_low_level_output`. -/
structure Sent where
  interface : Nat
  packet : List Byte
  deriving DecidableEq, Repr

/-- `router_t`, with the counters `hid` (`pwospf.c`) and `ip_id` (`ip.c`), the hardware's route
table registers, and what left the router so far: frames, and segments for the TCP stack.
`interface` goes on behind the array, as an index out of range reads on. -/
structure Router where
  interface : Nat → Interface
  num_interfaces : Nat
  num_le : num_interfaces ≤ 4
  arp_cache : List ArpCacheEntry
  ip_table : List RtableEntry
  iparp_buffer : List IparpBufferEntry
  pw_router : PwospfRouter
  last_lsu : Nat
  hid : BitVec 16
  ip_id : BitVec 16
  nf : TableRegs 4
  sent : List Sent
  transport : List (List Byte)

/-- What a handler finds outside the router's state while it runs. -/
structure Env where
  /-- `gettimeofday`. -/
  now : Nat
  qsort : Qsort
  /-- Padding of the `n`-th route `djikstra_recompute` allocates. -/
  padding : Nat → BitVec 56
  /-- Memory behind a packet buffer. -/
  beyond : Nat → Byte
  /-- Memory behind the 28 bytes on the stack of `icmp_send`. -/
  stack : Nat → Byte
  /-- An uninitialised neighbour entry. -/
  newneighbour : PwospfListEntry
  cliPingHandleReply : AddrIp → BitVec 16 → Bool
  dnsOnreceive : PacketInfo → Router → Option Router

namespace Router

/-- `dst` is no own interface address. -/
def Foreign (r : Router) (dst : AddrIp) : Prop := ∀ i < r.num_interfaces, (r.interface i).ip ≠ dst

def setNeighbours (r : Router) (i : Nat) (l : List PwospfListEntry) : Router :=
  { r with interface := Function.update r.interface i { r.interface i with neighbours := l } }

/-- `sr_integ_low_level_output`. -/
def output (r : Router) (interface : Nat) (packet : List Byte) : Router :=
  { r with sent := r.sent ++ [⟨interface, packet⟩] }

/-- `ethernet_packet_send`: writes the Ethernet header, for which a `PacketInfo` has room, and
sends; the caller's packet keeps the new header. -/
def ethernetPacketSend (r : Router) (intf : Nat) (target_mac source_mac : AddrMac)
    (type : BitVec 16) (pi : PacketInfo) : Router × PacketInfo :=
  let pi := pi.setEth ⟨target_mac, source_mac, type⟩
  (r.output intf pi.packet, pi)

end Router

/-! ## A small router

Two interfaces with a static route each, and a neighbour behind the second one that advertises a
part of the first one's network. -/

/-- Insertion sort is a `qsort`. -/
def insertionQsort : Qsort where
  sort l := l.insertionSort fun a b => a.netmask.toNat ≤ b.netmask.toNat
  perm l := List.perm_insertionSort _ l
  ascending l := by
    refine (List.pairwise_insertionSort
      (fun a b : RtableEntry => a.netmask.toNat ≤ b.netmask.toNat) l).imp fun {a b} h => ?_
    unfold cmpfunc
    rw [if_pos (BitVec.le_def.2 h)]
    decide

def smallEnv : Env where
  now := 0
  qsort := insertionQsort
  padding _ := 0
  beyond _ := 0
  stack _ := 0
  newneighbour := ⟨0, 0, 0, 0, 0, 0, .null, 0⟩
  cliPingHandleReply _ _ := false
  dnsOnreceive _ r := some r

def smallEth0 : Interface where
  mac := ⟨2, 0, 0, 0, 0, 0⟩
  ip := ipConvert 10 0 0 1
  subnet_mask := ipConvert 255 0 0 0
  hw_oq := 0x01
  hw_id := 0x02
  helloint := 5
  neighbours := []

def smallNeighbour : PwospfListEntry where
  neighbour_id := ipConvert 192 168 1 2
  neighbour_ip := ipConvert 192 168 1 2
  helloint := 5
  timestamp := 0
  immediate_neighbour := 1
  lsu_lastseq := 0
  lsu_lastcontents := .valid
    [⟨ipConvert 192 168 1 0, ipConvert 255 255 255 0, ipConvert 192 168 1 2⟩,
      ⟨ipConvert 10 1 0 0, ipConvert 255 255 0 0, ipConvert 192 168 1 2⟩]
  lsu_timestamp := 0

def smallEth1 : Interface where
  mac := ⟨2, 0, 0, 0, 0, 1⟩
  ip := ipConvert 192 168 1 1
  subnet_mask := ipConvert 255 255 255 0
  hw_oq := 0x04
  hw_id := 0x08
  helloint := 5
  neighbours := [smallNeighbour]

def smallRouter : Router where
  interface i := if i = 0 then smallEth0 else smallEth1
  num_interfaces := 2
  num_le := by decide
  arp_cache := []
  ip_table :=
    [⟨0, ipConvert 10 0 0 0, ipConvert 255 0 0 0, 0, 0, false, 0⟩,
      ⟨0, ipConvert 192 168 1 0, ipConvert 255 255 255 0, 1, 0, false, 0⟩]
  iparp_buffer := []
  pw_router := ⟨ipConvert 10 0 0 1, 0, 30⟩
  last_lsu := 0
  hid := 0
  ip_id := 0
  nf := ⟨fun _ => 0, fun _ => 0, 0, 0, fun _ _ => 0⟩
  sent := []
  transport := []

theorem smallRouter_foreign {dst : AddrIp} (h0 : smallEth0.ip ≠ dst) (h1 : smallEth1.ip ≠ dst) :
    smallRouter.Foreign dst
  | 0, _ => h0
  | 1, _ => h1

end BirRouter
