import BirRouter.Lib.Sweep
import BirRouter.Lib.Trace
import BirRouter.LsuRoundTrip

/-!
# The neighbour database

The queues of neighbours over whole runs: HELLOs find entries by the source address, LSUs by the
router id, and expiry removes entries by their router id.

* `QueueIntegrity` — every router id at most once, and stored contents from an LSU of the router
  the entry is for;
* `integrity_recordLsu`, `integrity_recordHello`, `integrity_expirePass` — what each kind of step
  does to it;
* `neighbour_integrity` — it holds in every run whose HELLOs meet `HelloKeeps`, and
  `neighbour_integrity_broken` shows what a HELLO that does not can lead to.
-/

set_option autoImplicit false

namespace BirRouter

open ByteLayout FirstMatch Sweep Trace

/-! ## Integrity -/

/-- An LSU the router received, with its own id in place of 0. -/
structure ReceivedLsu where
  router_id : BitVec 32
  payload : List PwospfLsa
  deriving DecidableEq, Repr

/-- Stored contents that are those of an LSU of router `id`. -/
def LsuContents.Sourced (received : List ReceivedLsu) (id : BitVec 32) : LsuContents → Prop
  | .null => True
  | .valid lsas => ⟨id, lsas⟩ ∈ received
  | .dangling _ => False

section Integrity

variable {received : List ReceivedLsu} {id : BitVec 32} {c : LsuContents} {l : List PwospfListEntry}
  {r : Router}

theorem LsuContents.Sourced.mono (h : c.Sourced received id) (more : List ReceivedLsu) :
    c.Sourced (received ++ more) id := by
  cases c with
  | null => exact h
  | valid lsas => exact List.mem_append_left more h
  | dangling lsas => exact h

theorem LsuContents.Sourced.store {payload : List PwospfLsa} (h : c.Sourced received id)
    (hp : ⟨id, payload⟩ ∈ received) :
    (c.store payload).Sourced received id := by
  cases c with
  | null => exact hp
  | valid old =>
    unfold LsuContents.store
    simp only
    split
    · trivial
    · exact hp
  | dangling lsas => exact h.elim

structure QueueIntegrity (received : List ReceivedLsu) (neighbours : List PwospfListEntry) :
    Prop where
  distinct : (neighbours.map PwospfListEntry.neighbour_id).Nodup
  sourced : ∀ entry ∈ neighbours, entry.lsu_lastcontents.Sourced received entry.neighbour_id

theorem QueueIntegrity.sublist {l' : List PwospfListEntry} (h : QueueIntegrity received l)
    (hd : (l'.map PwospfListEntry.neighbour_id).Nodup)
    (hs : ∀ entry ∈ l', entry ∈ l) : QueueIntegrity received l' :=
  ⟨hd, fun entry he => h.sourced entry (hs entry he)⟩

/-! ## LSUs -/

/-- Recording an LSU keeps the integrity of the queue. -/
theorem integrity_recordLsu (h : QueueIntegrity received l) (env : Env) (pi : PacketInfo) :
    QueueIntegrity (received ++ [⟨pi.link.pwospf_header.router_id, pi.lsu⟩])
      (recordLsu env pi l) := by
  have hkeep : ∀ entry : PwospfListEntry,
      entry.neighbour_id = pi.link.pwospf_header.router_id →
      (entry.record env pi.link pi.lsu).neighbour_id = pi.link.pwospf_header.router_id :=
    fun entry he => (record_neighbour_id env pi.link pi.lsu entry).trans he
  refine ⟨nodup_upsert hkeep rfl h.distinct, ?_⟩
  intro entry he
  rcases mem_upsert he with he | ⟨b, hb, rfl⟩ | ⟨_, rfl⟩
  · exact (h.sourced entry he).mono _
  · have hid : b.neighbour_id = pi.link.pwospf_header.router_id := by
      simpa using List.find?_some hb
    have hsrc := (h.sourced b (List.mem_of_find?_eq_some hb)).mono
      [⟨pi.link.pwospf_header.router_id, pi.lsu⟩]
    unfold PwospfListEntry.record
    split
    · exact hsrc
    · exact hsrc.store (by simp [hid])
  · exact List.mem_append_right _ (List.mem_singleton.2 rfl)

/-! ## HELLOs -/

/-- A HELLO after which the queue is as good as before: the first entry with its source address
already has its router id, or has no contents and takes an id nobody has; a new entry takes an id
nobody has. -/
def HelloKeeps (neighbours : List PwospfListEntry) (pi : PacketInfo) : Prop :=
  match neighbours.find? fun entry => entry.neighbour_ip = pi.ipv4.src_ip with
  | some entry => entry.neighbour_id = pi.hello.pwospf_header.router_id ∨
      entry.lsu_lastcontents = .null ∧
        pi.hello.pwospf_header.router_id ∉ neighbours.map PwospfListEntry.neighbour_id
  | none => pi.hello.pwospf_header.router_id ∉ neighbours.map PwospfListEntry.neighbour_id

/-- Recording such a HELLO keeps the integrity of the queue. -/
theorem integrity_recordHello (h : QueueIntegrity received l) (env : Env) {pi : PacketInfo}
    (hk : HelloKeeps l pi) :
    QueueIntegrity received (recordHello env pi l) := by
  unfold HelloKeeps at hk
  have hnew : pi.hello.pwospf_header.router_id ∉ l.map PwospfListEntry.neighbour_id →
      ((recordHello env pi l).map PwospfListEntry.neighbour_id).Nodup :=
    fun hno => nodup_upsert_of_not_mem (fun _ _ _ => rfl) rfl hno h.distinct
  refine ⟨?_, ?_⟩
  · split at hk
    · rename_i b hb
      rcases hk with hid | ⟨_, hno⟩
      · have hids : (recordHello env pi l).map PwospfListEntry.neighbour_id =
            l.map PwospfListEntry.neighbour_id := map_upsert_of_find? hb hid.symm
        rw [hids]
        exact h.distinct
      · exact hnew hno
    · exact hnew hk
  · intro entry he
    rcases mem_upsert he with he | ⟨b, hb, rfl⟩ | ⟨_, rfl⟩
    · exact h.sourced entry he
    · have hsourced := h.sourced b (List.mem_of_find?_eq_some hb)
      show b.lsu_lastcontents.Sourced received pi.hello.pwospf_header.router_id
      rw [hb] at hk
      rcases hk with hid | ⟨hnull, _⟩
      · rw [← hid]
        exact hsourced
      · rw [hnull]
        trivial
    · trivial

/-! ## Expiry -/

theorem removeWithRouterid_eq (id : BitVec 32) (l : List PwospfListEntry) :
    removeWithRouterid id l = sweep (fun entry => entry.neighbour_id = id) l := by
  fun_induction removeWithRouterid id l with
  | case1 => exact sweep_nil.symm
  | case2 entry h => exact (sweep_singleton (by simpa using h)).symm
  | case3 entry h next rest ih => rw [ih, sweep_of_pos (by simpa using h)]
  | case4 entry rest h ih => rw [ih, sweep_of_neg (by simpa using h)]

theorem removeWithRouterid_sublist (id : BitVec 32) (l : List PwospfListEntry) :
    (removeWithRouterid id l).Sublist l := by
  rw [removeWithRouterid_eq]
  exact sweep_sublist l

/-- The loop misses the entry behind a removed one, but in a queue without repeated ids that entry
is none of those it is after. -/
theorem removeWithRouterid_ne (h : (l.map PwospfListEntry.neighbour_id).Nodup) :
    ∀ entry ∈ removeWithRouterid id l, entry.neighbour_id ≠ id := by
  have hap : Apart (fun entry : PwospfListEntry => entry.neighbour_id = id) l := by
    refine (List.Pairwise.imp ?_ (List.pairwise_map.1 h)).isChain
    rintro a b hne ⟨ha, hb⟩
    exact hne ((of_decide_eq_true ha).trans (of_decide_eq_true hb).symm)
  intro entry he
  rw [removeWithRouterid_eq, (sweep_eq_filter_iff l).2 hap] at he
  simpa using (List.mem_filter.1 he).2

/-- Every queue without the entries of router `id`. -/
theorem removeall_interface (r : Router) (id : BitVec 32) : ∀ (n i : Nat),
    (((List.range n).foldl
      (fun r j => r.setNeighbours j (removeWithRouterid id (r.interface j).neighbours)) r).interface
        i).neighbours =
      if i < n then removeWithRouterid id (r.interface i).neighbours
      else (r.interface i).neighbours
  | 0, i => by rw [if_neg (Nat.not_lt_zero i)]; rfl
  | n + 1, i => by
    rw [List.range_succ, List.foldl_append, List.foldl_cons, List.foldl_nil]
    by_cases hi : i = n
    · subst hi
      rw [Router.setNeighbours_self, removeall_interface r id i i, if_neg (Nat.lt_irrefl i),
        if_pos (Nat.lt_succ_self i)]
    · rw [Router.setNeighbours_of_ne _ _ _ hi, removeall_interface r id n i]
      by_cases hlt : i < n
      · rw [if_pos hlt, if_pos (by omega)]
      · rw [if_neg hlt, if_neg (by omega)]

theorem removeall_num_interfaces (r : Router) (id : BitVec 32) :
    (removeallneighbourswithrouterid r id).num_interfaces = r.num_interfaces := by
  unfold removeallneighbourswithrouterid
  exact List.foldlRecOn (motive := fun r' : Router => r'.num_interfaces = r.num_interfaces) _ _ rfl
    fun _ h _ _ => h

/-- The integrity of every queue of the router. -/
def Router.Integrity (received : List ReceivedLsu) (r : Router) : Prop :=
  ∀ j < r.num_interfaces, QueueIntegrity received (r.interface j).neighbours

theorem Router.Integrity.congr {r' : Router} (h : r.Integrity received) (hl : r.SameLinks r') :
    r'.Integrity received := by
  intro j hj
  rw [hl.interface]
  exact h j (hl.num_interfaces ▸ hj)

theorem Router.Integrity.setNeighbours (h : r.Integrity received) {j : Nat}
    (hl : QueueIntegrity received l) : (r.setNeighbours j l).Integrity received := by
  intro i hi
  by_cases hij : i = j
  · subst hij
    rw [Router.setNeighbours_self]
    exact hl
  · rw [Router.setNeighbours_of_ne _ _ _ hij]
    exact h i hi

/-- The expired entry goes with its released contents. -/
theorem integrity_expireOne (env : Env) (j i : Nat) {s : Router × Bool}
    (h : s.1.Integrity received) :
    (expireOne env j i s).1.Integrity received := by
  unfold expireOne
  simp only
  split
  · rename_i entry hentry
    split
    · intro k hk
      rw [removeall_num_interfaces] at hk
      have hq := h k hk
      unfold removeallneighbourswithrouterid
      rw [removeall_interface, if_pos hk]
      by_cases hkj : k = j
      · subst hkj
        rw [Router.setNeighbours_self]
        have hids : (((s.1.interface k).neighbours.set i entry.release).map
            PwospfListEntry.neighbour_id) = (s.1.interface k).neighbours.map
              PwospfListEntry.neighbour_id := by
          obtain ⟨hi, he⟩ := List.getElem?_eq_some_iff.1 hentry
          subst he
          have hself := congrArg (List.map PwospfListEntry.neighbour_id) (List.set_getElem_self hi)
          rw [List.map_set] at hself ⊢
          exact hself
        have hd : (((s.1.interface k).neighbours.set i entry.release).map
            PwospfListEntry.neighbour_id).Nodup := hids ▸ hq.distinct
        refine hq.sublist (((removeWithRouterid_sublist _ _).map _).nodup hd) ?_
        intro e he
        have hne := removeWithRouterid_ne hd e he
        rcases List.mem_or_eq_of_mem_set ((removeWithRouterid_sublist _ _).subset he) with he | rfl
        · exact he
        · exact absurd rfl hne
      · rw [Router.setNeighbours_of_ne _ _ _ hkj]
        exact hq.sublist (((removeWithRouterid_sublist _ _).map _).nodup hq.distinct)
          fun e he => (removeWithRouterid_sublist _ _).subset he
    · exact h
  · exact h

/-- **A round of expiry keeps the integrity of the queues.** -/
theorem integrity_expirePass (env : Env) (h : r.Integrity received) :
    (expirePass env r).Integrity received := by
  have hfold : ((List.range r.num_interfaces).foldl
      (fun (s : Router × Bool) j => (List.range (s.1.interface j).neighbours.length).foldl
        (fun s i => expireOne env j i s) s) (r, false)).1.Integrity received := by
    refine List.foldlRecOn (motive := fun s : Router × Bool => s.1.Integrity received) _ _ h
      fun s hs j _ => ?_
    exact List.foldlRecOn (motive := fun s : Router × Bool => s.1.Integrity received) _ _ hs
      fun s hs i _ => integrity_expireOne env j i hs
  unfold expirePass
  simp only
  split
  · exact hfold.congr (announce_links ..)
  · exact hfold

/-! ## Runs -/

/-- The router with the LSUs it received so far. -/
structure Db where
  router : Router
  received : List ReceivedLsu

inductive DbEvent where
  | hello (env : Env) (pi : PacketInfo)
  | lsu (env : Env) (pi : PacketInfo)
  | expire (env : Env)

/-- Accepted HELLOs, accepted LSUs and rounds of expiry, one at a time. -/
inductive DbStep : Db → DbEvent → Db → Prop
  | hello {s : Db} {env : Env} {pi : PacketInfo} :
      pi.interface < s.router.num_interfaces →
      helloAccepted (s.router.interface pi.interface) pi = true →
      DbStep s (.hello env pi) { s with router := pwospfOnreceiveHello env s.router pi }
  | lsu {s : Db} {env : Env} {pi : PacketInfo} {r' : Router} :
      pi.interface < s.router.num_interfaces → linkIntact pi = true →
      pi.link.pwospf_header.router_id ≠ s.router.pw_router.router_id →
      pwospfOnreceiveLink env s.router pi = some r' →
      DbStep s (.lsu env pi) ⟨r', s.received ++ [⟨pi.link.pwospf_header.router_id, pi.lsu⟩]⟩
  | expire {s : Db} {env : Env} :
      DbStep s (.expire env) { s with router := expirePass env s.router }

/-- The side condition on HELLOs; LSUs and expiry have none. -/
def DbEvent.Keeps (s : Db) : DbEvent → Prop
  | .hello _ pi => HelloKeeps (s.router.interface pi.interface).neighbours pi
  | .lsu .. | .expire _ => True

theorem Router.Integrity.mono (h : r.Integrity received) (more : List ReceivedLsu) :
    r.Integrity (received ++ more) :=
  fun j hj => ⟨(h j hj).distinct, fun entry he => ((h j hj).sourced entry he).mono more⟩

end Integrity

/-- **Step lemma.** -/
theorem integrity_step {s s' : Db} {e : DbEvent} (h : s.router.Integrity s.received)
    (hs : Restrict (fun s e => e.Keeps s) DbStep s e s') : s'.router.Integrity s'.received := by
  obtain ⟨hkeeps, hstep⟩ := hs
  cases hstep with
  | hello hj hacc =>
    exact (h.setNeighbours (integrity_recordHello (h _ hj) _ hkeeps)).congr
      (pwospfOnreceiveHello_links hacc)
  | @lsu env pi r' hj hintact hforeign hrecv =>
    rcases pwospfOnreceiveLink_cases hrecv with ⟨_, heffect⟩ | ⟨_, rfl⟩
    · exact ((h.mono _).setNeighbours (integrity_recordLsu (h _ hj) env pi)).congr heffect.links
    · exact h.mono _
  | expire => exact integrity_expirePass _ h

/-- **Neighbour database integrity.**  From empty queues, in every run whose HELLOs meet
`HelloKeeps`, no queue has two entries for one router, and the contents an entry stores are those
of a received LSU of the router it is for. -/
theorem neighbour_integrity {s₀ s : Db} {events : List DbEvent}
    (hempty : ∀ j < s₀.router.num_interfaces, (s₀.router.interface j).neighbours = [])
    (h : Exec (Restrict (fun s e => e.Keeps s) DbStep) s₀ events s) :
    s.router.Integrity s.received := by
  refine h.invariant (I := fun s => s.router.Integrity s.received) ?_ integrity_step
  intro j hj
  rw [hempty j hj]
  exact ⟨List.nodup_nil, fun entry he => by cases he⟩

/-! The neighbour of the small router hears from it: a HELLO, and an LSU of a router behind it that
it passes on. -/

def smallHello : PacketInfo := helloFrame smallRouter 1

/-- The router behind the small one, with the address its LSU arrives from. -/
def farRouter : Router := { smallRouter with pw_router := ⟨ipConvert 10 9 9 9, 0, 30⟩ }

def farTopology : List PwospfLsa := [⟨ipConvert 10 9 0 0, ipConvert 255 255 0 0, 0⟩]

def farLsu : PacketInfo := lsaFrame farRouter farTopology 1 smallNeighbour

theorem smallHello_accepted {f : Interface} (hmask : smallEth1.subnet_mask = f.subnet_mask)
    (hint : f.helloint = helloint) : helloAccepted f smallHello = true :=
  helloFrame_accepted rfl hmask hint

theorem farLsu_id : farLsu.link.pwospf_header.router_id = ipConvert 10 9 9 9 :=
  congrArg (fun link => link.pwospf_header.router_id)
    (lsaFrame_link farRouter farTopology 1 smallNeighbour)

theorem farLsu_intact : linkIntact farLsu = true :=
  arrival_intact (rfl : farLsu.packet = (lsaFrame farRouter farTopology 1 smallNeighbour).packet)
    (by decide)

theorem farLsu_count : farLsu.link.payloadCount = 1 :=
  arrival_count (rfl : farLsu.packet = (lsaFrame farRouter farTopology 1 smallNeighbour).packet)
    (by decide)

theorem farLsu_count_nonneg : 0 ≤ farLsu.link.payloadCount := by
  rw [farLsu_count]
  decide

theorem farLsu_src_ip : farLsu.ipv4.src_ip = smallEth1.ip :=
  congrArg PacketIp4.src_ip (arrival_ipv4
    (rfl : farLsu.packet = (lsaFrame farRouter farTopology 1 smallNeighbour).packet))

theorem farLsu_foreign {r : Router} (h : r.pw_router = smallReceiver.pw_router) :
    farLsu.link.pwospf_header.router_id ≠ r.pw_router.router_id := by
  rw [farLsu_id, h]
  decide

/-- The HELLO first, then the LSU. -/
theorem neighbour_integrity_sample :
    ∃ s, Exec (Restrict (fun s e => e.Keeps s) DbStep) ⟨smallReceiver, []⟩
        [.hello smallEnv smallHello, .lsu smallEnv farLsu] s ∧
      s.router.Integrity s.received := by
  have hacc : helloAccepted (smallReceiver.interface smallHello.interface) smallHello = true :=
    smallHello_accepted rfl rfl
  have hlinks : (smallReceiver.setNeighbours 1 (recordHello smallEnv smallHello [])).SameLinks
      (pwospfOnreceiveHello smallEnv smallReceiver smallHello) := pwospfOnreceiveHello_links hacc
  obtain ⟨r', hr'⟩ := pwospfOnreceiveLink_total smallEnv
    (pwospfOnreceiveHello smallEnv smallReceiver smallHello) farLsu_count_nonneg
  have hrun : Exec (Restrict (fun s e => e.Keeps s) DbStep) ⟨smallReceiver, []⟩
      [.hello smallEnv smallHello, .lsu smallEnv farLsu] _ :=
    .cons ⟨List.not_mem_nil, .hello (by decide) hacc⟩
      (.cons ⟨trivial, .lsu (by rw [hlinks.num_interfaces]; decide) farLsu_intact
        (farLsu_foreign hlinks.pw_router) hr'⟩ .nil)
  exact ⟨_, hrun, neighbour_integrity (fun _ _ => rfl) hrun⟩

/-- **The LSU first, then the HELLO**: the entry of the far router takes the id of the small one and
keeps the far router's links. -/
theorem neighbour_integrity_broken :
    ∃ s, Exec DbStep ⟨smallReceiver, []⟩ [.lsu smallEnv farLsu, .hello smallEnv smallHello] s ∧
      ¬ s.router.Integrity s.received := by
  have hfresh : Refloods smallReceiver farLsu :=
    ⟨farLsu_intact, farLsu_foreign rfl, fun entry he => by cases he⟩
  obtain ⟨r₁, hr₁, heffect⟩ : ∃ r₁, pwospfOnreceiveLink smallEnv smallReceiver farLsu = some r₁ ∧
      Refloods.Effect smallEnv smallReceiver farLsu r₁ :=
    pwospfOnreceiveLink_spec hfresh farLsu_count_nonneg
  have h₁ : r₁.interface 1 = { smallReceiver.interface 1 with
      neighbours := [newLinkEntry smallEnv farLsu.link farLsu.ipv4.src_ip farLsu.lsu] } :=
    congrFun heffect.links.interface 1
  have hacc : helloAccepted (r₁.interface 1) smallHello = true :=
    smallHello_accepted (by rw [h₁]; rfl) (by rw [h₁]; rfl)
  have hsrc : smallHello.ipv4.src_ip = smallEth1.ip := (arrival_hello rfl).2.1
  have hhello : smallHello.hello.pwospf_header.router_id = ipConvert 10 0 0 1 :=
    congrArg (fun hello => hello.pwospf_header.router_id) (arrival_hello rfl).1
  have hlinks : (r₁.setNeighbours 1 (recordHello smallEnv smallHello
      (r₁.interface 1).neighbours)).SameLinks (pwospfOnreceiveHello smallEnv r₁ smallHello) :=
    pwospfOnreceiveHello_links hacc
  refine ⟨_, .cons (.lsu (by decide) farLsu_intact (farLsu_foreign rfl) hr₁)
    (.cons (.hello (by rw [heffect.links.num_interfaces]; decide) hacc) .nil), fun hi => ?_⟩
  have hnum : 1 < (pwospfOnreceiveHello smallEnv r₁ smallHello).num_interfaces := by
    rw [hlinks.num_interfaces]
    show 1 < r₁.num_interfaces
    rw [heffect.links.num_interfaces]
    decide
  have hq := hi 1 hnum
  rw [congrFun hlinks.interface 1, Router.setNeighbours_self, h₁] at hq
  -- the HELLO finds the entry the LSU left, by its source address
  have hgreet : recordHello smallEnv smallHello
      [newLinkEntry smallEnv farLsu.link farLsu.ipv4.src_ip farLsu.lsu] =
      [(newLinkEntry smallEnv farLsu.link farLsu.ipv4.src_ip farLsu.lsu).greet smallEnv
        smallHello.hello] :=
    upsert_of_pos (decide_eq_true (farLsu_src_ip.trans hsrc.symm))
  have hmem := (hgreet ▸ hq).sourced _ (List.mem_singleton.2 rfl)
  have hid := congrArg ReceivedLsu.router_id (List.mem_singleton.1 hmem)
  have hne : ipConvert 10 0 0 1 ≠ ipConvert 10 9 9 9 := by decide
  exact hne (hhello.symm.trans (hid.trans farLsu_id))

end BirRouter
