import BirRouter.OutputPort.HeaderWords
import BirRouter.OutputPort.LookupStages
import BirRouter.OutputPort.StageFacts

/-!
# Lookup results and their packets

The results of the filter and of the route lookup pass from stage to stage in single registers, while
the packets pass through FIFOs; and the address they are computed from passes through two registers
that are loaded in every cycle.

* `LookupRun` — the five stages, with the number of packets that have arrived and the number that
  each stage has opened, so that the `n`-th packet and its address can be named;
* `Link` — a stage behind the registers of the stage before it: the registers belong to the last packet
  whose first beat is in the FIFO;
* `lookup_own_runs` — a packet is given its own results as long as no stage hands on a packet's first
  beat when the first beat of a later packet is already in its FIFO, and `lpm1` none when a later
  packet had arrived two cycles before.
-/

set_option autoImplicit false

namespace BirRouter

open Clocked Stage

/-- What the lookup stages are given in a clock cycle; the tables are not written. -/
structure LookupCycle where
  s_axis : Option Beat
  m_tready : Bool
  reset : BitVec 32

namespace LookupPipe

variable (s : LookupPipe)

/-! The first beats that enter `dest_ip1` and that each stage hands on. -/

def arrives (c : LookupCycle) : List Beat :=
  opening (ends s.dest_ip1.regs.header s.dest_ip1.contents) (s.dest_ip1.pushed c.s_axis).toList

def opensDestIp1 : List Beat :=
  opening s.dest_ip1.regs.header (s.dest_ip1.popped s.dest_ip2.tready).toList

def opensDestIp2 : List Beat :=
  opening s.dest_ip2.regs.header (s.dest_ip2.popped s.lpm1.tready).toList

def opensLpm1 : List Beat := opening (inPacket s.lpm1.regs.header) (s.lpm1.popped s.lpm2.tready).toList

def opensLpm2 : List Beat := opening (inPacket s.lpm2.regs.header) (s.lpm2.popped s.lpm3.tready).toList

def opensLpm3 (c : LookupCycle) : List Beat :=
  opening (inPacket s.lpm3.regs.header) (s.lpm3.popped c.m_tready).toList

/-- The header flags of the route stages are flags. -/
structure Flagged (s : LookupPipe) : Prop where
  lpm1 : s.lpm1.regs.header = flag 2 (inPacket s.lpm1.regs.header)
  lpm2 : s.lpm2.regs.header = flag 2 (inPacket s.lpm2.regs.header)
  lpm3 : s.lpm3.regs.header = flag 1 (inPacket s.lpm3.regs.header)

/-! A stage's header flag follows the beats that it hands on. -/

section

variable {s} (s_axis : Option Beat) (m_tready : Bool) (reset destip_addr : BitVec 32)
  (dest_ip_wr : Option (BitVec 5 × BitVec 32)) (lpm_wr : Option (BitVec 5 × LpmRow))

theorem dest_ip1_header :
    (s.step s_axis m_tready reset destip_addr dest_ip_wr lpm_wr).dest_ip1.regs.header
      = ends s.dest_ip1.regs.header (s.dest_ip1.popped s.dest_ip2.tready).toList :=
  (DestIp1.step_header _ _ _ _ _ _).trans (headerNext_ends _)

theorem dest_ip2_header :
    (s.step s_axis m_tready reset destip_addr dest_ip_wr lpm_wr).dest_ip2.regs.header
      = ends s.dest_ip2.regs.header (s.dest_ip2.popped s.lpm1.tready).toList :=
  headerNext_ends _

theorem lpm1_header (h : s.Flagged) :
    (s.step s_axis m_tready reset destip_addr dest_ip_wr lpm_wr).lpm1.regs.header
      = flag 2 (ends (inPacket s.lpm1.regs.header) (s.lpm1.popped s.lpm2.tready).toList) :=
  (Lpm1.step_header h.lpm1 _).trans (congrArg (flag 2) (headerNext_ends _))

theorem lpm2_header (h : s.Flagged) :
    (s.step s_axis m_tready reset destip_addr dest_ip_wr lpm_wr).lpm2.regs.header
      = flag 2 (ends (inPacket s.lpm2.regs.header) (s.lpm2.popped s.lpm3.tready).toList) :=
  (Lpm2.step_header h.lpm2 _).trans (congrArg (flag 2) (headerNext_ends _))

theorem lpm3_header (h : s.Flagged) :
    (s.step s_axis m_tready reset destip_addr dest_ip_wr lpm_wr).lpm3.regs.header
      = flag 1 (ends (inPacket s.lpm3.regs.header) (s.lpm3.popped m_tready).toList) :=
  (Lpm3.clock_header h.lpm3 _ _).trans (congrArg (flag 1) (headerNext_ends _))

theorem flagged_step (h : s.Flagged) :
    (s.step s_axis m_tready reset destip_addr dest_ip_wr lpm_wr).Flagged where
  lpm1 := by rw [lpm1_header _ _ _ _ _ _ h, inPacket_flag]
  lpm2 := by rw [lpm2_header _ _ _ _ _ _ h, inPacket_flag]
  lpm3 := by rw [lpm3_header _ _ _ _ _ _ h, inPacket_flag]

end

end LookupPipe

/-- The lookup stages and the packets that have passed them. -/
structure LookupRun where
  pipe : LookupPipe
  /-- How many packets have arrived, and how many had one and two cycles before. -/
  arrived : Nat
  arrived1 : Nat
  arrived2 : Nat
  /-- How many packets each stage has opened. -/
  dest_ip1 : Nat
  dest_ip2 : Nat
  lpm1 : Nat
  lpm2 : Nat
  lpm3 : Nat

namespace LookupRun

def start (pipe : LookupPipe) : LookupRun := ⟨pipe, 0, 0, 0, 0, 0, 0, 0, 0⟩

/-- One clock cycle.  `addr n` is the destination address of the `n`-th packet; `destip_addr` carries
it from the cycle after the packet arrives until the next one has arrived. -/
def clock (addr : Nat → BitVec 32) (s : LookupRun) (c : LookupCycle) : LookupRun where
  pipe := s.pipe.step c.s_axis c.m_tready c.reset (addr s.arrived) none none
  arrived := s.arrived + (s.pipe.arrives c).length
  arrived1 := s.arrived
  arrived2 := s.arrived1
  dest_ip1 := s.dest_ip1 + s.pipe.opensDestIp1.length
  dest_ip2 := s.dest_ip2 + s.pipe.opensDestIp2.length
  lpm1 := s.lpm1 + s.pipe.opensLpm1.length
  lpm2 := s.lpm2 + s.pipe.opensLpm2.length
  lpm3 := s.lpm3 + (s.pipe.opensLpm3 c).length

/-- No packet is overtaken by the data of a later one: a stage that hands on a packet's first beat has
no later first beat in its FIFO, and two cycles before `lpm1` hands one on no later one had arrived. -/
def InOrder (s : LookupRun) (c : LookupCycle) : Prop :=
  (∀ b ∈ s.pipe.opensDestIp1, opening s.pipe.dest_ip1.regs.header s.pipe.dest_ip1.contents = [b]) ∧
  (∀ b ∈ s.pipe.opensDestIp2, opening s.pipe.dest_ip2.regs.header s.pipe.dest_ip2.contents = [b]) ∧
  (∀ b ∈ s.pipe.opensLpm1, s.arrived2 = s.lpm1 + 1) ∧
  (∀ b ∈ s.pipe.opensLpm2, opening (inPacket s.pipe.lpm2.regs.header) s.pipe.lpm2.contents = [b]) ∧
  (∀ b ∈ s.pipe.opensLpm3 c, opening (inPacket s.pipe.lpm3.regs.header) s.pipe.lpm3.contents = [b])

/-- What `dest_ip2`, `lpm2` and `lpm3` apply to a packet they open is what is computed from the
packet's first beat and its own address. -/
def OwnResults (addr : Nat → BitVec 32) (s : LookupRun) (c : LookupCycle) : Prop :=
  (∀ b ∈ s.pipe.opensDestIp2, s.pipe.dest_ip1.regs.cpu_hit_array
    = DestIp1.cpuHitArray s.pipe.dest_ip_table b (addr (s.dest_ip2 + 1))) ∧
  (∀ b ∈ s.pipe.opensLpm2,
    s.pipe.lpm1.regs.Found s.pipe.lpm_table b.toCpu (addr (s.lpm2 + 1))) ∧
  (∀ b ∈ s.pipe.opensLpm3 c,
    s.pipe.lpm2.regs.Found s.pipe.lpm_table b.toCpu (addr (s.lpm3 + 1)))

end LookupRun

/-! ## A stage and the registers before it -/

/-- The stage before has opened `n` packets and its header flag is `g`; this one has opened `m`, and
the registers before it belong to the last packet opened. -/
structure Link {k : Nat} {ρ : Type} (g header : Bool) (t : Stage k ρ) (n m : Nat)
    (Own : Nat → Beat → Prop) : Prop where
  wf : t.WellFormed
  header_eq : g = ends header t.contents
  count : n = m + (opening header t.contents).length
  own : ∀ b, (opening header t.contents).getLast? = some b → Own n b

namespace Link

variable {k : Nat} {ρ : Type} {g header : Bool} {t : Stage k ρ} {n m : Nat}
  {Own : Nat → Beat → Prop}

theorem of_empty (h : t.WellFormed) (hc : t.contents = []) (hg : g = header) :
    Link g header t n n Own where
  wf := h
  header_eq := by rw [hc, hg, ends_nil]
  count := by rw [hc, opening, List.length_nil, Nat.add_zero]
  own := by
    intro b hb
    rw [hc] at hb
    cases hb

/-- A packet that is alone in the FIFO. -/
theorem front (h : Link g header t n m Own) {b : Beat} (hb : opening header t.contents = [b]) :
    n = m + 1 ∧ Own n b := by
  refine ⟨?_, h.own b (by rw [hb]; rfl)⟩
  have hcount := h.count
  rwa [hb] at hcount

theorem tick (h : Link g header t n m Own) (Own' : Nat → Beat → Prop) {s_axis x : Option Beat}
    (hx : t.pushed s_axis = x) (m_tready : Bool) (regs : ρ)
    (hload : ∀ b, opening g x.toList = [b] → Own' (n + 1) b)
    (hkeep : opening g x.toList = [] → ∀ b, Own n b → Own' n b) :
    Link (ends g x.toList) (ends header (t.popped m_tready).toList) (t.tick s_axis m_tready regs)
      (n + (opening g x.toList).length) (m + (opening header (t.popped m_tready).toList).length)
      Own' := by
  subst hx
  have hopen : opening header t.contents ++ opening g (t.pushed s_axis).toList
      = opening header (t.popped m_tready).toList ++
        opening (ends header (t.popped m_tready).toList) (t.tick s_axis m_tready regs).contents :=
    opening_tick h.wf h.header_eq
  refine ⟨wellFormed_tick h.wf _ _ _, ends_tick h.wf h.header_eq, ?_, fun b hb => ?_⟩
  · have hlen := congrArg List.length hopen
    have hcount := h.count
    simp only [List.length_append] at hlen
    omega
  · -- the last packet in the FIFO is the one that enters, or else it was the last one before
    have hlast := congrArg List.getLast? hopen
    rw [List.getLast?_append, List.getLast?_append, hb, Option.some_or] at hlast
    cases hp : opening g (t.pushed s_axis).toList with
    | nil =>
      rw [hp, List.getLast?_nil, Option.none_or] at hlast
      exact hkeep hp b (h.own b hlast)
    | cons b' l =>
      obtain rfl : l = [] := opening_toList hp
      rw [hp, List.getLast?_singleton, Option.some_or, Option.some.injEq] at hlast
      exact hlast ▸ hload b' hp

end Link

/-! ## Runs -/

/-- Between packets. -/
structure LookupPipe.Idle (s : LookupPipe) : Prop where
  wf1 : s.dest_ip1.WellFormed
  wf2 : s.dest_ip2.WellFormed
  wf4 : s.lpm2.WellFormed
  wf5 : s.lpm3.WellFormed
  contents1 : s.dest_ip1.contents = []
  contents2 : s.dest_ip2.contents = []
  contents3 : s.lpm1.contents = []
  contents4 : s.lpm2.contents = []
  contents5 : s.lpm3.contents = []
  header1 : s.dest_ip1.regs.header = false
  header2 : s.dest_ip2.regs.header = false
  header3 : s.lpm1.regs.header = 0
  header4 : s.lpm2.regs.header = 0
  header5 : s.lpm3.regs.header = 0

theorem LookupPipe.Idle.flagged {s : LookupPipe} (h : s.Idle) : s.Flagged where
  lpm1 := by
    rw [h.header3]
    rfl
  lpm2 := by
    rw [h.header4]
    rfl
  lpm3 := by
    rw [h.header5]
    rfl

theorem LookupPipe.reset_idle (word : Beat) (ip_addr1 ip_addr2 : BitVec 32) :
    (reset word ip_addr1 ip_addr2).Idle where
  wf1 := FallthroughSmallFifo.reset_wellFormed _ _
  wf2 := FallthroughSmallFifo.reset_wellFormed _ _
  wf4 := FallthroughSmallFifo.reset_wellFormed _ _
  wf5 := FallthroughSmallFifo.reset_wellFormed _ _
  contents1 := FallthroughSmallFifo.contents_reset _ _
  contents2 := FallthroughSmallFifo.contents_reset _ _
  contents3 := FallthroughSmallFifo.contents_reset _ _
  contents4 := FallthroughSmallFifo.contents_reset _ _
  contents5 := FallthroughSmallFifo.contents_reset _ _
  header1 := rfl
  header2 := rfl
  header3 := rfl
  header4 := rfl
  header5 := rfl

namespace LookupRun

/-- What every cycle keeps. -/
structure Inv (addr : Nat → BitVec 32) (s : LookupRun) : Prop where
  flagged : s.pipe.Flagged
  dest_ip1 : Link (ends s.pipe.dest_ip1.regs.header s.pipe.dest_ip1.contents)
    s.pipe.dest_ip1.regs.header s.pipe.dest_ip1 s.arrived s.dest_ip1 fun _ _ => True
  dest_ip2 : Link s.pipe.dest_ip1.regs.header s.pipe.dest_ip2.regs.header s.pipe.dest_ip2 s.dest_ip1
    s.dest_ip2 fun n b => s.pipe.dest_ip1.regs.cpu_hit_array
      = DestIp1.cpuHitArray s.pipe.dest_ip_table b (addr n)
  lpm2 : Link (inPacket s.pipe.lpm1.regs.header) (inPacket s.pipe.lpm2.regs.header) s.pipe.lpm2 s.lpm1
    s.lpm2 fun n b => s.pipe.lpm1.regs.Found s.pipe.lpm_table b.toCpu (addr n)
  lpm3 : Link (inPacket s.pipe.lpm2.regs.header) (inPacket s.pipe.lpm3.regs.header) s.pipe.lpm3 s.lpm2
    s.lpm3 fun n b => s.pipe.lpm2.regs.Found s.pipe.lpm_table b.toCpu (addr n)
  ip_addr1 : 0 < s.arrived1 → s.pipe.dest_ip1.regs.ip_addr = addr s.arrived1
  ip_addr2 : 0 < s.arrived2 → s.pipe.dest_ip2.regs.ip_addr = addr s.arrived2

theorem start_inv {pipe : LookupPipe} (h : pipe.Idle) (addr : Nat → BitVec 32) :
    (start pipe).Inv addr where
  flagged := h.flagged
  dest_ip1 := Link.of_empty h.wf1 h.contents1 (congrArg (ends _) h.contents1)
  dest_ip2 := Link.of_empty h.wf2 h.contents2 (h.header1.trans h.header2.symm)
  lpm2 := Link.of_empty h.wf4 h.contents4 (congrArg inPacket (h.header3.trans h.header4.symm))
  lpm3 := by
    refine Link.of_empty h.wf5 h.contents5 ?_
    show inPacket pipe.lpm2.regs.header = inPacket pipe.lpm3.regs.header
    rw [h.header4, h.header5]
    rfl
  ip_addr1 := fun h => absurd h (Nat.lt_irrefl 0)
  ip_addr2 := fun h => absurd h (Nat.lt_irrefl 0)

variable {addr : Nat → BitVec 32} {s : LookupRun} {c : LookupCycle}

/-- **In order, the results are the packet's own.** -/
theorem ownResults_of_inOrder (h : s.Inv addr) (hok : s.InOrder c) : s.OwnResults addr c := by
  obtain ⟨-, hok2, -, hok4, hok5⟩ := hok
  refine ⟨fun b hb => ?_, fun b hb => ?_, fun b hb => ?_⟩
  · obtain ⟨hn, hown⟩ := h.dest_ip2.front (hok2 b hb)
    rwa [hn] at hown
  · obtain ⟨hn, hown⟩ := h.lpm2.front (hok4 b hb)
    rwa [hn] at hown
  · obtain ⟨hn, hown⟩ := h.lpm3.front (hok5 b hb)
    rwa [hn] at hown

/-- The class changes with a packet's first beat only. -/
theorem cpu_hit_array_clock : (s.clock addr c).pipe.dest_ip1.regs.cpu_hit_array
    = match s.pipe.opensDestIp1 with
      | [] => s.pipe.dest_ip1.regs.cpu_hit_array
      | b :: _ => DestIp1.cpuHitArray s.pipe.dest_ip_table b (addr s.arrived) := by
  refine (DestIp1.step_cpu_hit_array _ _ _ _ _ _).trans ?_
  unfold LookupPipe.opensDestIp1
  rw [opening_popped]
  split <;> rfl

/-- A stage that opens a packet. -/
theorem starts_of_opening {k : Nat} {ρ : Type} {t : Stage k ρ} {h m_tready : Bool} {b : Beat}
    (hb : opening h (t.popped m_tready).toList = [b]) :
    (!h && (t.axis m_tready).first) = true ∧ t.beat = b := by
  rw [opening_popped] at hb
  split at hb
  · rename_i ho
    exact ⟨ho, List.singleton_inj.1 hb⟩
  · cases hb

theorem not_starts_of_opening {k : Nat} {ρ : Type} {t : Stage k ρ} {h m_tready : Bool}
    (hb : opening h (t.popped m_tready).toList = []) : (!h && (t.axis m_tready).first) = false := by
  rw [opening_popped] at hb
  split at hb
  · cases hb
  · rename_i ho
    exact Bool.eq_false_iff.2 ho

theorem clock_inv (h : s.Inv addr) (hok : s.InOrder c) : (s.clock addr c).Inv addr := by
  obtain ⟨hok1, -, hok3, hok4, -⟩ := hok
  have hheader1 : (s.clock addr c).pipe.dest_ip1.regs.header = _ :=
    LookupPipe.dest_ip1_header _ _ _ _ _ _
  have hheader2 : (s.clock addr c).pipe.dest_ip2.regs.header = _ :=
    LookupPipe.dest_ip2_header _ _ _ _ _ _
  have hheader3 : (s.clock addr c).pipe.lpm1.regs.header = _ :=
    LookupPipe.lpm1_header _ _ _ _ _ _ h.flagged
  have hheader4 : (s.clock addr c).pipe.lpm2.regs.header = _ :=
    LookupPipe.lpm2_header _ _ _ _ _ _ h.flagged
  have hheader5 : (s.clock addr c).pipe.lpm3.regs.header = _ :=
    LookupPipe.lpm3_header _ _ _ _ _ _ h.flagged
  constructor
  · exact LookupPipe.flagged_step _ _ _ _ _ _ h.flagged
  · have hx : s.pipe.dest_ip1.pushed c.s_axis = s.pipe.dest_ip1.pushed c.s_axis := rfl
    have hl := h.dest_ip1.tick (fun _ _ => True) hx s.pipe.dest_ip2.tready
      (s.clock addr c).pipe.dest_ip1.regs (fun _ _ => trivial) (fun _ _ _ => trivial)
    rw [hl.header_eq] at hl
    rw [hheader1]
    exact hl
  · rw [hheader1, hheader2]
    refine h.dest_ip2.tick _ (pushed_offer_id _) _ _ (fun b hb => ?_) (fun hb b hown => ?_)
    · replace hb : s.pipe.opensDestIp1 = [b] := hb
      obtain ⟨hn, -⟩ := h.dest_ip1.front (hok1 b (by simp [hb]))
      rw [cpu_hit_array_clock, hb, ← hn]
      rfl
    · replace hb : s.pipe.opensDestIp1 = [] := hb
      rw [cpu_hit_array_clock, hb]
      exact hown
  · rw [hheader3, hheader4, inPacket_flag, inPacket_flag]
    refine h.lpm2.tick _ (pushed_offer_id _) _ _ (fun b hb => ?_) (fun hb b hown => ?_)
    · have hn : s.arrived2 = s.lpm1 + 1 := hok3 b (by simp [LookupPipe.opensLpm1, hb])
      obtain ⟨ho, rfl⟩ := starts_of_opening hb
      rw [← hn, ← h.ip_addr2 (by omega)]
      exact Lpm1.found_step h.flagged.lpm1 ho _
    · exact Lpm1.found_keep h.flagged.lpm1 (not_starts_of_opening hb) _ hown
  · rw [hheader4, hheader5, inPacket_flag, inPacket_flag]
    refine h.lpm3.tick _ (pushed_offer_id _) _ _ (fun b hb => ?_) (fun hb b hown => ?_)
    · obtain ⟨hn, hown⟩ := h.lpm2.front (hok4 b (by simp [LookupPipe.opensLpm2, hb]))
      obtain ⟨ho, rfl⟩ := starts_of_opening hb
      rw [← hn]
      exact Lpm2.found_step h.flagged.lpm2 ho hown
    · exact Lpm2.found_keep h.flagged.lpm2 (not_starts_of_opening hb) _ hown
  · exact fun _ => DestIp1.step_ip_addr _ _ _ _ _ _
  · exact h.ip_addr1

instance (s : LookupRun) (c : LookupCycle) : Decidable (s.InOrder c) :=
  inferInstanceAs (Decidable (_ ∧ _))

end LookupRun

/-- **In every run in order, every packet is given its own results.** -/
theorem lookup_own_runs {pipe : LookupPipe} (h : pipe.Idle) (addr : Nat → BitVec 32)
    {cs : List LookupCycle} (hok : Along (LookupRun.clock addr) LookupRun.InOrder (.start pipe) cs) :
    Along (LookupRun.clock addr) (LookupRun.OwnResults addr) (.start pipe) cs :=
  along_of_invariant (LookupRun.Inv addr) LookupRun.InOrder (fun _ _ => LookupRun.clock_inv)
    (fun _ _ => LookupRun.ownResults_of_inOrder) (.start pipe) cs (LookupRun.start_inv h addr) hok

/-- A UDP packet and a packet that is not IPv4, of two beats each and `gap` cycles apart, with a next
stage that is always ready. -/
def twoPackets (gap : Nat) : List LookupCycle :=
  ([some (udpBeat 1 1 0x6696), some udpTail] ++ List.replicate gap none ++
    [some (beatFor 1 1), some udpTail] ++ List.replicate 20 none).map fun b => ⟨b, true, 0⟩

/-- What stands in the two packets where IPv4 has the destination address. -/
def twoAddrs (n : Nat) : BitVec 32 := if n = 1 then 0x0A000002 else 2

theorem lookup_own_runs_spaced :
    Along (LookupRun.clock twoAddrs) (LookupRun.OwnResults twoAddrs) (.start (.reset udpTail 0 0))
      (twoPackets 10) :=
  lookup_own_runs (LookupPipe.reset_idle udpTail 0 0) twoAddrs (by decide +kernel)

/-- Back to back, `dest_ip2` opens the first packet with the class of the second one. -/
theorem lookup_results_mixed :
    let s := run (LookupRun.clock twoAddrs) (.start (.reset udpTail 0 0)) ((twoPackets 0).take 6)
    s.pipe.opensDestIp2 = [udpBeat 1 1 0x6696] ∧ s.dest_ip2 = 0 ∧
      DestIp1.cpuHitArray s.pipe.dest_ip_table (udpBeat 1 1 0x6696) (twoAddrs 1) = 0 ∧
      s.pipe.dest_ip1.regs.cpu_hit_array = 4 := by
  decide +kernel

end BirRouter
