import BirRouter.Lib.Purge
import BirRouter.Neighbours

/-!
# Neighbours that fall silent (`pwospf.c`)

A round of `pwospf_thread` goes through the neighbour queues.  For every expired entry it frees the
stored contents and calls `removeallneighbourswithrouterid`, which removes from all queues, the one
the round is in the middle of included.

* `neighbours_round` — the queues after a round are those of `Purge.purge`;
* `ExpiryLaw` — what a round is for;
* `neighbour_expiry` — it holds if nothing is skipped, and if no router has two expired entries only
  then; the entries of other routers stay in any case.
-/

set_option autoImplicit false

namespace BirRouter

open Purge Sweep

/-! ## The queues after a round -/

def Router.queues (r : Router) : Nat → List PwospfListEntry := fun k => (r.interface k).neighbours

theorem Router.SameLinks.queues {r r' : Router} (h : r.SameLinks r') : r'.queues = r.queues := by
  unfold Router.queues
  rw [h.interface]

theorem Router.queues_setNeighbours (r : Router) (j : Nat) (l : List PwospfListEntry) :
    (r.setNeighbours j l).queues = Function.update r.queues j l := by
  funext k
  unfold Router.queues
  by_cases hkj : k = j
  · subst hkj
    rw [Router.setNeighbours_self, Function.update_self]
  · rw [Router.setNeighbours_of_ne _ _ _ hkj, Function.update_of_ne hkj]

theorem queues_removeall (r : Router) (id : BitVec 32) :
    (removeallneighbourswithrouterid r id).queues =
      dropKey PwospfListEntry.neighbour_id r.num_interfaces id r.queues := by
  funext k
  unfold Router.queues dropKey removeallneighbourswithrouterid
  rw [removeall_interface]
  simp only [removeWithRouterid_eq]

/-- The expiry loop on the queues alone. -/
structure Tracks (n : Nat) (s : Router × Bool) (q : Nat → List PwospfListEntry) : Prop where
  num_interfaces : s.1.num_interfaces = n
  queues : s.1.queues = q

theorem tracks_expireOne (env : Env) {n j : Nat} (i : Nat) {s : Router × Bool}
    {q : Nat → List PwospfListEntry} (h : Tracks n s q) :
    Tracks n (expireOne env j i s)
      (visit PwospfListEntry.neighbour_id (fun entry => entry.Expired env.now)
        PwospfListEntry.release n j i q) := by
  obtain ⟨rfl, rfl⟩ := h
  have hqueue : (s.1.interface j).neighbours = s.1.queues j := rfl
  unfold expireOne visit
  simp only [hqueue]
  cases (s.1.queues j)[i]? with
  | none => exact ⟨rfl, rfl⟩
  | some entry =>
    simp only [decide_eq_true_eq]
    split
    · refine ⟨removeall_num_interfaces _ _, ?_⟩
      rw [queues_removeall, Router.queues_setNeighbours]
      rfl
    · exact ⟨rfl, rfl⟩

/-- **The queues after a round.** -/
theorem neighbours_round (env : Env) (r : Router) :
    (pwospfThreadRound env r).queues =
      purge PwospfListEntry.neighbour_id (fun entry => entry.Expired env.now)
        PwospfListEntry.release r.num_interfaces r.queues := by
  have hhello := sendPwospfHelloPacket_links r
  have hpass : (expirePass env (sendPwospfHelloPacket r)).queues =
      purge PwospfListEntry.neighbour_id (fun entry => entry.Expired env.now)
        PwospfListEntry.release r.num_interfaces r.queues := by
    have hfold := List.foldl_rel (l := List.range r.num_interfaces)
      (f := fun (s : Router × Bool) j =>
        (List.range (s.1.interface j).neighbours.length).foldl (fun s i => expireOne env j i s) s)
      (g := fun q j => scan PwospfListEntry.neighbour_id (fun entry => entry.Expired env.now)
        PwospfListEntry.release r.num_interfaces j q)
      (r := Tracks r.num_interfaces) (a := (sendPwospfHelloPacket r, false)) (b := r.queues)
      ⟨hhello.num_interfaces, hhello.queues⟩ ?_
    · unfold expirePass
      simp only
      rw [hhello.num_interfaces]
      split
      · rw [(announce_links ..).queues]
        exact hfold.queues
      · exact hfold.queues
    · intro j _ s q h
      obtain ⟨hn, rfl⟩ := h
      unfold scan
      exact List.foldl_rel ⟨hn, rfl⟩ fun i _ s q h => tracks_expireOne env i h
  unfold pwospfThreadRound
  simp only
  split
  · rw [(sendPwospfLsaPacket_links ..).queues, hpass]
  · exact hpass

/-! ## What a round is for -/

/-- The ids of the routers with an expired entry. -/
def Router.expiredIds (r : Router) (now : Nat) : List (BitVec 32) :=
  doomed PwospfListEntry.neighbour_id (fun entry => entry.Expired now)
    (upTo r.queues r.num_interfaces)

/-- The entries of the other routers. -/
def Router.others (r : Router) (now : Nat) (l : List PwospfListEntry) : List PwospfListEntry :=
  keep PwospfListEntry.neighbour_id (r.expiredIds now) l

def LsuContents.freed : LsuContents → Bool
  | .null | .valid _ => false
  | .dangling _ => true

/-- Routers with an expired entry are gone from all queues, the entries of the others are still
there in their order, and no contents were freed under an entry that is. -/
structure ExpiryLaw (now : Nat) (r r' : Router) : Prop where
  gone : ∀ k < r.num_interfaces, ∀ entry ∈ r'.queues k, entry.neighbour_id ∉ r.expiredIds now
  kept : ∀ k < r.num_interfaces, r.others now (r'.queues k) = r.others now (r.queues k)
  unfreed : ∀ k < r.num_interfaces,
    (∀ entry ∈ r.queues k, entry.lsu_lastcontents.freed = false) →
      ∀ entry ∈ r'.queues k, entry.lsu_lastcontents.freed = false

theorem expiryLaw_iff {now : Nat} {r r' : Router} :
    ExpiryLaw now r r' ↔ ∀ k < r.num_interfaces, r'.queues k = r.others now (r.queues k) := by
  constructor
  · intro h k hk
    rw [← h.kept k hk]
    refine (List.filter_eq_self.2 fun entry he => ?_).symm
    exact decide_eq_true (h.gone k hk entry he)
  · intro h
    refine ⟨?_, ?_, ?_⟩
    · intro k hk entry he
      rw [h k hk] at he
      exact (mem_keep.1 he).2
    · intro k hk
      rw [h k hk]
      exact List.filter_filter.trans (List.filter_congr fun entry _ => Bool.and_self _)
    · intro k hk hall entry he
      rw [h k hk] at he
      exact hall entry (mem_keep.1 he).1

/-- Whenever the round comes to an expired entry of a router it has not removed yet, the entries that
move over its position, one more than this router has in front of it, are not expired, and nowhere
are two entries of this router neighbours. -/
def NothingSkipped (now : Nat) (r : Router) : Prop :=
  Clean PwospfListEntry.neighbour_id (fun entry => entry.Expired now) r.num_interfaces r.queues

theorem release_neighbour_id (entry : PwospfListEntry) :
    entry.release.neighbour_id = entry.neighbour_id := rfl

/-- **Neighbour expiry.**  The entries of routers without an expired entry stay, in their order and
as they are.  The others go if nothing is skipped, and if no router has two expired entries, only
then. -/
theorem neighbour_expiry (env : Env) (r : Router) :
    (∀ k, r.others env.now ((pwospfThreadRound env r).queues k) =
        r.others env.now (r.queues k)) ∧
      (NothingSkipped env.now r → ExpiryLaw env.now r (pwospfThreadRound env r)) ∧
      ((r.expiredIds env.now).Nodup →
        (ExpiryLaw env.now r (pwospfThreadRound env r) ↔ NothingSkipped env.now r)) := by
  refine ⟨fun k => ?_, fun h => ?_, fun h => ?_⟩
  · rw [neighbours_round]
    exact filter_purge release_neighbour_id r.queues k
  · rw [expiryLaw_iff, neighbours_round]
    exact purge_eq_keep release_neighbour_id h
  · rw [expiryLaw_iff, neighbours_round]
    exact purge_eq_keep_iff release_neighbour_id h

/-! A router with one interface, a hundred seconds after the start. -/

def lateEnv : Env := { smallEnv with now := 100 }

def heardAt (id : BitVec 32) (timestamp : Nat) : PwospfListEntry :=
  { smallNeighbour with neighbour_id := id, timestamp := timestamp, lsu_timestamp := 100 }

def oneQueue (neighbours : List PwospfListEntry) : Router :=
  { smallRouter with
    interface := fun _ => { smallEth0 with neighbours := neighbours }
    num_interfaces := 1
    num_le := by decide }

-- What was skipped may go for the sake of another entry: router 2 is found again in the second queue.
example : ∀ k < 2, purge PwospfListEntry.neighbour_id (fun entry => entry.Expired 100)
    PwospfListEntry.release 2
    (fun k => if k = 0 then [heardAt 1 0, heardAt 2 0] else [heardAt 2 0]) k = [] := by decide

/-- A neighbour that fell silent in front of one that did not. -/
theorem neighbour_expiry_sample :
    NothingSkipped 100 (oneQueue [heardAt 1 0, heardAt 2 100]) ∧
      ((oneQueue [heardAt 1 0, heardAt 2 100]).expiredIds 100).Nodup ∧
      ExpiryLaw 100 (oneQueue [heardAt 1 0, heardAt 2 100])
        (pwospfThreadRound lateEnv (oneQueue [heardAt 1 0, heardAt 2 100])) := by
  have hclean : NothingSkipped 100 (oneQueue [heardAt 1 0, heardAt 2 100]) := by
    intro j hj pre a post h
    obtain rfl : j = 0 := Nat.lt_one_iff.1 hj
    obtain ⟨hsplit, hexpired, -⟩ := h
    rcases pre with _ | ⟨b, _ | ⟨c, pre⟩⟩
    · obtain ⟨rfl, rfl⟩ := List.cons_eq_cons.1 hsplit
      exact ⟨by decide, by decide⟩
    · obtain ⟨-, hsplit⟩ := List.cons_eq_cons.1 hsplit
      obtain ⟨rfl, -⟩ := List.cons_eq_cons.1 hsplit
      exact absurd hexpired (by decide)
    · obtain ⟨-, hsplit⟩ := List.cons_eq_cons.1 hsplit
      obtain ⟨-, hsplit⟩ := List.cons_eq_cons.1 hsplit
      exact absurd hsplit (by simp)
  exact ⟨hclean, by decide, (neighbour_expiry lateEnv _).2.1 hclean⟩

/-- **Two neighbours that fell silent**: the second one stays.  **Two entries of a router**, the
second one expired: it stays, with the contents freed. -/
theorem neighbour_expiry_fails :
    (pwospfThreadRound lateEnv (oneQueue [heardAt 1 0, heardAt 2 0])).queues 0 = [heardAt 2 0] ∧
      ¬ ExpiryLaw 100 (oneQueue [heardAt 1 0, heardAt 2 0])
        (pwospfThreadRound lateEnv (oneQueue [heardAt 1 0, heardAt 2 0])) ∧
      (pwospfThreadRound lateEnv (oneQueue [heardAt 1 100, heardAt 1 0])).queues 0 =
        [(heardAt 1 0).release] ∧
      ¬ ExpiryLaw 100 (oneQueue [heardAt 1 100, heardAt 1 0])
        (pwospfThreadRound lateEnv (oneQueue [heardAt 1 100, heardAt 1 0])) := by
  have hsilent : (pwospfThreadRound lateEnv (oneQueue [heardAt 1 0, heardAt 2 0])).queues 0 =
      [heardAt 2 0] := by
    rw [neighbours_round]
    decide
  have hfreed : (pwospfThreadRound lateEnv (oneQueue [heardAt 1 100, heardAt 1 0])).queues 0 =
      [(heardAt 1 0).release] := by
    rw [neighbours_round]
    decide
  refine ⟨hsilent, fun h => ?_, hfreed, fun h => ?_⟩
  · refine h.gone 0 (by decide) (heardAt 2 0) ?_ (by decide)
    rw [hsilent]
    exact List.mem_singleton_self _
  · have hstay := h.unfreed 0 (by decide) (by decide) (heardAt 1 0).release
      (by rw [hfreed]; exact List.mem_singleton_self _)
    exact absurd hstay (by decide)

end BirRouter
