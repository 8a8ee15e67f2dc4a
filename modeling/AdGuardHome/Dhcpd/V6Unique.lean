import AdGuardHome.Dhcpd.V6Server

namespace AdGuardHome.Dhcpd

open Netip
open Dhcpsvc (Lease Time Duration)

theorem first15_append (front : BitVec 120) (last : BitVec 8) :
    first15 (front ++ last : BitVec 128) = front :=
  BitVec.extractLsb'_append_eq_left

theorem byte15_append (front : BitVec 120) (last : BitVec 8) :
    byte15 (front ++ last : BitVec 128) = last :=
  BitVec.extractLsb'_append_eq_right

namespace V6Server

def sameMAC (lease l : Lease) : Bool := l.hwAddr == lease.hwAddr

def sameIP (lease l : Lease) : Bool := l.ip == lease.ip

/-- A server whose table is that of another one without some leases. -/
structure Trims (s t : V6Server) (front kept removed : List Lease) : Prop where
  conf : t.conf = s.conf
  leases : t.leases = front ++ kept
  bits : ∀ b, t.ipAddrs b = true ↔
    s.ipAddrs b = true ∧ ∀ x ∈ removed, byte15 (as16 x.ip) ≠ b

variable {s : V6Server} {x : Lease}

theorem rm_last {front : List Lease} (split : s.leases = front ++ [x]) :
    (s.leaseRemoveSwapByIndex front.length).leases = front := by
  simp only [leaseRemoveSwapByIndex, split, List.getElem?_concat_length]
  exact swapRemove_last front x

theorem rm_inner {front mid : List Lease} {x last : Lease}
    (split : s.leases = front ++ x :: mid ++ [last]) :
    (s.leaseRemoveSwapByIndex front.length).leases = front ++ last :: mid := by
  have here : s.leases[front.length]? = some x := by simp [split]
  simp only [leaseRemoveSwapByIndex, here]
  rw [split]
  exact swapRemove_inner front mid x last

theorem rm_frame {front rest : List Lease} (split : s.leases = front ++ x :: rest) :
    (s.leaseRemoveSwapByIndex front.length).conf = s.conf ∧
      ∀ b, (s.leaseRemoveSwapByIndex front.length).ipAddrs b = true ↔
        s.ipAddrs b = true ∧ byte15 (as16 x.ip) ≠ b := by
  have here : s.leases[front.length]? = some x := by simp [split]
  simp only [leaseRemoveSwapByIndex, here, true_and]
  intro b
  by_cases same : b = byte15 (as16 x.ip)
  · simp [same]
  · simp [same, Ne.symm same]

theorem rmDynamicLoop_done {lease : Lease} {i : Nat} (beyond : s.leases.length ≤ i)
    (count : Nat) : rmDynamicLoop lease count i s = (s, .ok ()) := by
  cases count with
  | zero => rfl
  | succ count => rw [rmDynamicLoop, List.getElem?_eq_none beyond]

section Rounds

variable {lease x : Lease} {s : V6Server} {front rest : List Lease} {i count : Nat}

theorem rmDynamicLoop_pass (here : s.leases[i]? = some x) (other : sameMAC lease x = false)
    (different : sameIP lease x = false) :
    rmDynamicLoop lease (count + 1) i s = rmDynamicLoop lease count (i + 1) s := by
  simp only [sameMAC, sameIP, beq_eq_false_iff_ne] at other different
  simp only [rmDynamicLoop, here, rmDynamicRound, if_neg other, rmSameIP, if_neg different]

theorem rmDynamicLoop_refuse (here : s.leases[i]? = some x)
    (same : (sameMAC lease x || sameIP lease x) = true) (static : x.isStatic = true) :
    rmDynamicLoop lease (count + 1) i s = (s, .error .staticLeaseExists) := by
  simp only [sameMAC, sameIP, Bool.or_eq_true, beq_iff_eq] at same
  by_cases mac : x.hwAddr = lease.hwAddr
  · simp only [rmDynamicLoop, here, rmDynamicRound, mac, static, ↓reduceIte]
  · have ip := same.resolve_left mac
    simp only [rmDynamicLoop, here, rmDynamicRound, if_neg mac, rmSameIP, ip, static, ↓reduceIte]

/-- The round of a dynamic lease that only shares the IP. -/
theorem rmDynamicLoop_replace (here : s.leases[i]? = some x) (other : sameMAC lease x = false)
    (same : sameIP lease x = true) (dynamic : x.isStatic = false) :
    rmDynamicLoop lease (count + 1) i s =
      rmDynamicLoop lease count (i + 1) (s.leaseRemoveSwapByIndex i) := by
  simp only [sameMAC, sameIP, beq_eq_false_iff_ne, beq_iff_eq] at other same
  simp only [rmDynamicLoop, here, rmDynamicRound, if_neg other, rmSameIP, same, dynamic,
    Bool.false_eq_true, ↓reduceIte]

/-- The round of a dynamic lease with the hardware address at the end of the table. -/
theorem rmDynamicLoop_break (here : s.leases[i]? = some x) (same : sameMAC lease x = true)
    (dynamic : x.isStatic = false) (last : (s.leaseRemoveSwapByIndex i).leases[i]? = none) :
    rmDynamicLoop lease (count + 1) i s = (s.leaseRemoveSwapByIndex i, .ok ()) := by
  simp only [sameMAC, beq_iff_eq] at same
  simp only [rmDynamicLoop, here, rmDynamicRound, same, dynamic, Bool.false_eq_true, ↓reduceIte,
    last]

/-- The round of a dynamic lease with the hardware address goes on with the moved one. -/
theorem rmDynamicLoop_move {b : Lease} (here : s.leases[i]? = some x)
    (same : sameMAC lease x = true) (dynamic : x.isStatic = false)
    (moved : (s.leaseRemoveSwapByIndex i).leases[i]? = some b) :
    rmDynamicLoop lease (count + 1) i s =
      if sameIP lease b = true then
        if b.isStatic then (s.leaseRemoveSwapByIndex i, .error .staticLeaseExists)
        else rmDynamicLoop lease count (i + 1)
          ((s.leaseRemoveSwapByIndex i).leaseRemoveSwapByIndex i)
      else rmDynamicLoop lease count (i + 1) (s.leaseRemoveSwapByIndex i) := by
  simp only [sameMAC, sameIP, beq_iff_eq] at same ⊢
  simp only [rmDynamicLoop, here, rmDynamicRound, same, dynamic, Bool.false_eq_true, ↓reduceIte,
    moved, rmSameIP]
  by_cases ip : b.ip = lease.ip
  · cases b.isStatic <;> simp [ip]
  · simp [ip]

end Rounds

namespace Trims

variable {s t : V6Server} {front rest kept removed : List Lease} {x : Lease}

theorem stop (split : s.leases = front ++ rest) : Trims s s front rest [] :=
  ⟨rfl, split, by simp⟩

theorem pass (next : Trims s t (front ++ [x]) kept removed) :
    Trims s t front (x :: kept) removed :=
  ⟨next.conf, by simp [next.leases], next.bits⟩

theorem remove (split : s.leases = front ++ x :: rest)
    (next : Trims (s.leaseRemoveSwapByIndex front.length) t front kept removed) :
    Trims s t front kept (x :: removed) := by
  obtain ⟨conf, bits⟩ := rm_frame split
  refine ⟨next.conf.trans conf, next.leases, ?_⟩
  intro b
  rw [next.bits, bits, List.forall_mem_cons, and_assoc]

end Trims

/-- What the loop for a lease leaves of the leases from its index on. -/
def Sweeps (lease : Lease) (s : V6Server) (front rest : List Lease)
    (left : V6Server × Except Error Unit) : Prop :=
  ∃ kept removed refused,
    SwapSweep (sameMAC lease) (sameIP lease) Lease.isStatic rest kept removed refused ∧
      Trims s left.1 front kept removed ∧
      left.2 = if refused then .error .staticLeaseExists else .ok ()

section Sweep

variable {lease x : Lease} {s : V6Server} {front rest : List Lease} {count : Nat}

def SweepsWithin (lease : Lease) (count : Nat) : Prop :=
  ∀ (s : V6Server) (front rest : List Lease), s.leases = front ++ rest → rest.length ≤ count →
    Sweeps lease s front rest (rmDynamicLoop lease count front.length s)

/-- The rounds behind an element that takes the place at the index. -/
theorem SweepsWithin.behind (within : SweepsWithin lease count) {b : Lease}
    (split : s.leases = front ++ b :: rest) (enough : rest.length ≤ count) :
    Sweeps lease s (front ++ [b]) rest (rmDynamicLoop lease count (front.length + 1) s) := by
  have grown := within s (front ++ [b]) rest (by simp [split]) enough
  rwa [List.length_append, List.length_singleton] at grown

/-- The round of a dynamic lease that only shares the IP. -/
theorem SweepsWithin.replace (within : SweepsWithin lease count)
    (split : s.leases = front ++ x :: rest) (enough : rest.length ≤ count)
    (other : sameMAC lease x = false) (same : sameIP lease x = true)
    (dynamic : x.isStatic = false) :
    Sweeps lease s front (x :: rest) (rmDynamicLoop lease (count + 1) front.length s) := by
  have here : s.leases[front.length]? = some x := by simp [split]
  rw [rmDynamicLoop_replace here other same dynamic]
  rcases List.eq_nil_or_concat' rest with rfl | ⟨mid, b, rfl⟩
  · have leases := rm_last split
    rw [rmDynamicLoop_done (by simp [leases])]
    exact ⟨[], [x], false, .last (by simp [same]) dynamic,
      .remove split (.stop (by simp [leases])), rfl⟩
  · have leases := rm_inner (by simpa using split)
    rw [List.length_append] at enough
    obtain ⟨kept, removed, refused, sweep, trims, result⟩ :=
      within.behind leases (Nat.le_of_succ_le enough)
    exact ⟨b :: kept, x :: removed, refused, .replace other same dynamic sweep,
      .remove split trims.pass, result⟩

/-- The round of a dynamic lease with the hardware address. -/
theorem SweepsWithin.move (within : SweepsWithin lease count)
    (split : s.leases = front ++ x :: rest) (enough : rest.length ≤ count)
    (same : sameMAC lease x = true) (dynamic : x.isStatic = false) :
    Sweeps lease s front (x :: rest) (rmDynamicLoop lease (count + 1) front.length s) := by
  have here : s.leases[front.length]? = some x := by simp [split]
  rcases List.eq_nil_or_concat' rest with rfl | ⟨mid, b, rfl⟩
  · have leases := rm_last split
    rw [rmDynamicLoop_break here same dynamic (by simp [leases])]
    exact ⟨[], [x], false, .last (by simp [same]) dynamic,
      .remove split (.stop (by simp [leases])), rfl⟩
  have leases := rm_inner (by simpa using split)
  rw [List.length_append, List.length_singleton] at enough
  rw [rmDynamicLoop_move here same dynamic (b := b) (by simp [leases])]
  cases again : sameIP lease b with
  | false =>
    rw [if_neg Bool.false_ne_true]
    obtain ⟨kept, removed, refused, sweep, trims, result⟩ :=
      within.behind leases (Nat.le_of_succ_le enough)
    exact ⟨b :: kept, x :: removed, refused, .move same dynamic again sweep,
      .remove split trims.pass, result⟩
  | true =>
    rw [if_pos rfl]
    cases static : b.isStatic with
    | true =>
      rw [if_pos rfl]
      exact ⟨b :: mid, [x], true, .moveRefuse same dynamic again static,
        .remove split (.stop leases), rfl⟩
    | false =>
      rw [if_neg Bool.false_ne_true]
      rcases List.eq_nil_or_concat' mid with rfl | ⟨mid, c, rfl⟩
      · have twice := rm_last leases
        rw [rmDynamicLoop_done (by simp [twice])]
        exact ⟨[], [x, b], false, .moveLast same dynamic again static,
          .remove split (.remove leases (.stop (by simp [twice]))), rfl⟩
      · have twice := rm_inner (by simpa using leases)
        rw [List.length_append] at enough
        obtain ⟨kept, removed, refused, sweep, trims, result⟩ :=
          within.behind twice (by omega)
        refine ⟨c :: kept, x :: b :: removed, refused, ?_,
          .remove split (.remove leases trims.pass), result⟩
        simpa using SwapSweep.moveTwice same dynamic again static sweep

theorem sweepsWithin (lease : Lease) (count : Nat) : SweepsWithin lease count := by
  induction count with
  | zero =>
    intro s front rest split enough
    obtain rfl := List.eq_nil_of_length_eq_zero (Nat.le_zero.mp enough)
    exact ⟨[], [], false, .done, .stop split, rfl⟩
  | succ count within =>
    intro s front rest split enough
    cases rest with
    | nil =>
      rw [rmDynamicLoop_done (by simp [split])]
      exact ⟨[], [], false, .done, .stop split, rfl⟩
    | cons x rest =>
      have here : s.leases[front.length]? = some x := by simp [split]
      have fewer : rest.length ≤ count := Nat.le_of_succ_le_succ enough
      cases first : sameMAC lease x with
      | false =>
        cases second : sameIP lease x with
        | false =>
          rw [rmDynamicLoop_pass here first second]
          obtain ⟨kept, removed, refused, sweep, trims, result⟩ := within.behind split fewer
          exact ⟨x :: kept, removed, refused, .pass first second sweep, trims.pass, result⟩
        | true =>
          cases static : x.isStatic with
          | false => exact within.replace split fewer first second static
          | true =>
            rw [rmDynamicLoop_refuse here (by simp [second]) static]
            exact ⟨_, _, true, .refuse (by simp [second]) static, .stop split, rfl⟩
      | true =>
        cases static : x.isStatic with
        | false => exact within.move split fewer first static
        | true =>
          rw [rmDynamicLoop_refuse here (by simp [first]) static]
          exact ⟨_, _, true, .refuse (by simp [first]) static, .stop split, rfl⟩

theorem rmDynamicLease_sweeps (s : V6Server) (lease : Lease) :
    Sweeps lease s [] s.leases (s.rmDynamicLease lease) :=
  sweepsWithin lease s.leases.length s [] s.leases rfl (Nat.le_refl _)

end Sweep

def inPrefix (s : V6Server) (ip : Addr) : Prop := first15 (as16 ip) = first15 s.conf.ipStart

/-- No two leases have one IP, and the bit of each lease in the prefix of the range is set. -/
structure Unique (s : V6Server) : Prop where
  ips : s.leases.Pairwise fun a b => a.ip ≠ b.ip
  bits : ∀ l ∈ s.leases, s.inPrefix l.ip → s.ipAddrs (byte15 (as16 l.ip)) = true

theorem findFreeIP_spec {ip : BitVec 128} (found : s.findFreeIP = some ip) :
    first15 ip = first15 s.conf.ipStart ∧ s.ipAddrs (byte15 ip) = false := by
  obtain ⟨i, free, rfl⟩ := Option.map_eq_some_iff.mp found
  have unset := List.find?_some free
  simp only [Bool.and_eq_true, Bool.not_eq_true', decide_eq_true_eq] at unset
  rw [first15_append, byte15_append]
  exact ⟨rfl, unset.2⟩

namespace Unique

variable {s t : V6Server} {lease : Lease}

theorem new (conf : V6ServerConf) (sid : List (BitVec 8)) : (V6Server.new conf sid).Unique :=
  ⟨.nil, by simp [V6Server.new]⟩

theorem fresh (unique : s.Unique) {ip : BitVec 128} (found : s.findFreeIP = some ip) :
    ∀ l ∈ s.leases, as16 l.ip ≠ ip := by
  obtain ⟨front, unset⟩ := findFreeIP_spec found
  rintro l member rfl
  rw [unique.bits l member front] at unset
  cases unset

/-- Adding a lease with a new IP, whose bit may be the only one that is missing. -/
theorem addLease (ips : s.leases.Pairwise fun a b => a.ip ≠ b.ip)
    (other : ∀ l ∈ s.leases, l.ip ≠ lease.ip)
    (bits : ∀ l ∈ s.leases, s.inPrefix l.ip → byte15 (as16 l.ip) ≠ byte15 (as16 lease.ip) →
      s.ipAddrs (byte15 (as16 l.ip)) = true) : (s.addLease lease).Unique where
  ips := by
    refine List.pairwise_append.mpr ⟨ips, List.pairwise_singleton _ _, ?_⟩
    intro l member added here
    rw [List.mem_singleton.mp here]
    exact other l member
  bits := by
    intro l member inside
    simp only [V6Server.addLease]
    split
    · rfl
    · rename_i different
      rcases List.mem_append.mp member with old | added
      · exact bits l old inside different
      · rw [List.mem_singleton.mp added] at different
        exact absurd rfl different

theorem add (unique : s.Unique) (other : ∀ l ∈ s.leases, l.ip ≠ lease.ip) :
    (s.addLease lease).Unique :=
  addLease unique.ips other fun l member inside _ => unique.bits l member inside

theorem modify (unique : s.Unique) (i : Nat) {change : Lease → Lease}
    (same : ∀ l, (change l).ip = l.ip) :
    ({ s with leases := s.leases.modify i change } : V6Server).Unique := by
  have ips : (s.leases.modify i change).map (·.ip) = s.leases.map (·.ip) := by
    apply List.ext_getElem?
    intro j
    rw [List.getElem?_map, List.getElem?_map, List.getElem?_modify]
    cases s.leases[j]? with
    | none => rfl
    | some l =>
      by_cases here : i = j
      · simp [here, same]
      · simp [here]
  have pairs : ∀ list : List Lease, (list.Pairwise fun a b => a.ip ≠ b.ip) ↔
      (list.map (·.ip)).Nodup := fun _ => List.pairwise_map.symm
  refine ⟨?_, ?_⟩
  · rw [pairs, ips, ← pairs]
    exact unique.ips
  · intro l member inside
    have address : l.ip ∈ s.leases.map (·.ip) := by
      rw [← ips]
      exact List.mem_map_of_mem member
    obtain ⟨before, present, equal⟩ := List.mem_map.mp address
    rw [← equal] at inside ⊢
    exact unique.bits before present inside

theorem apart {kept removed : List Lease} (unique : s.Unique)
    (perm : (kept ++ removed).Perm s.leases) :
    (kept.Pairwise fun a b => a.ip ≠ b.ip) ∧ ∀ y ∈ kept, ∀ x ∈ removed, y.ip ≠ x.ip := by
  have ips := (perm.pairwise_iff fun different => Ne.symm different).mpr unique.ips
  obtain ⟨keeps, _, across⟩ := List.pairwise_append.mp ips
  exact ⟨keeps, across⟩

end Unique

theorem rm_trims {i : Nat} (here : s.leases[i]? = some x) :
    ∃ kept, Trims s (s.leaseRemoveSwapByIndex i) [] kept [x] ∧ (kept ++ [x]).Perm s.leases := by
  obtain ⟨bound, value⟩ := List.getElem?_eq_some_iff.mp here
  have split : s.leases = s.leases.take i ++ x :: s.leases.drop (i + 1) := by
    rw [← value, ← List.drop_eq_getElem_cons bound, List.take_append_drop]
  have length : (s.leases.take i).length = i := List.length_take_of_le (Nat.le_of_lt bound)
  generalize s.leases.take i = front at split length
  generalize s.leases.drop (i + 1) = back at split
  subst length
  rcases List.eq_nil_or_concat' back with rfl | ⟨mid, b, rfl⟩
  · refine ⟨front, ?_, by rw [split]⟩
    obtain ⟨conf, bits⟩ := rm_frame split
    exact ⟨conf, rm_last split, by simpa using bits⟩
  · refine ⟨front ++ b :: mid, ?_, ?_⟩
    · obtain ⟨conf, bits⟩ := rm_frame split
      exact ⟨conf, rm_inner (by simpa using split), by simpa using bits⟩
    · rw [split, List.append_assoc]
      refine List.Perm.append_left front ?_
      calc (b :: mid ++ [x]).Perm (x :: b :: mid) := List.perm_append_singleton x (b :: mid)
        _ |>.Perm (x :: (mid ++ [b])) := ((List.perm_append_singleton b mid).symm).cons x

/-- No other lease in the prefix of the range ends like the IP. -/
def Alone (s : V6Server) (ip : Addr) : Prop :=
  ∀ y ∈ s.leases, y.ip ≠ ip → s.inPrefix y.ip → byte15 (as16 y.ip) ≠ byte15 (as16 ip)

def sharesAddress (lease l : Lease) : Bool := sameMAC lease l || sameIP lease l

/-- What a static lease needs to be added: the loop meets a static lease that shares an
address, or all that share one are dynamic and it meets those with the hardware address; and
no lease that is left in the prefix of the range ends like a removed one. -/
inductive Addable (s : V6Server) (lease : Lease) : Prop
  | refused
      (static : SwapSweep.FixedReached (sameMAC lease) (sameIP lease) Lease.isStatic s.leases)
      (alone : ∀ x ∈ s.leases, x.isStatic = false → sharesAddress lease x = true → s.Alone x.ip)
  | cleared (dynamic : ∀ x ∈ s.leases, sharesAddress lease x = true → x.isStatic = false)
      (reached : SwapSweep.AllReached (sameMAC lease) (sameIP lease) s.leases)
      (alone : ∀ x ∈ s.leases, sharesAddress lease x = true → ∀ y ∈ s.leases,
        sharesAddress lease y = false → s.inPrefix y.ip →
        byte15 (as16 y.ip) = byte15 (as16 x.ip) →
        byte15 (as16 y.ip) = byte15 (as16 lease.ip))

/-- The leases that `ResetLeases` takes in. -/
def admits (s : V6Server) (l : Lease) : Bool :=
  l.isStatic || ip6InRange s.conf.ipStart l.ip == some true

def Safe (env : Env) (s : V6Server) : V6Event → Prop
  | .packet _ _ => True
  | .addStaticLease l =>
    l.ip.is6 = true → env.validateMAC l.hwAddr = true → s.Addable { l with isStatic := true }
  | .updateStaticLease l =>
    ∀ x, s.leases.find? (sameMAC l) = some x →
      (∀ y ∈ s.leases, y.ip ≠ x.ip → y.ip ≠ l.ip) ∧
        (byte15 (as16 x.ip) ≠ byte15 (as16 l.ip) → s.Alone x.ip)
  | .removeStaticLease l =>
    l.ip.is6 = true → env.validateMAC l.hwAddr = true →
      (∃ x ∈ s.leases, x.ip = l.ip ∧ x.hwAddr = l.hwAddr ∧ x.hostname = l.hostname) →
        s.Alone l.ip
  | .resetLeases leases =>
    (∀ l ∈ leases, l.isStatic = true ∨ l.ip.is6 = true) →
      (leases.filter s.admits).Pairwise fun a b => a.ip ≠ b.ip

namespace Unique

variable {env : Env} {s t : V6Server} {lease : Lease}

theorem reserveLease (unique : s.Unique) (mac : HardwareAddr) (now : Time) :
    (s.reserveLease mac now).1.Unique := by
  unfold V6Server.reserveLease
  cases next : s.findFreeIP with
  | some ip =>
    refine unique.add ?_
    intro l member here
    exact unique.fresh next l member (by rw [here]; rfl)
  | none =>
    cases s.findExpiredLease now with
    | none => exact unique
    | some i => exact unique.modify i fun _ => rfl

theorem commitLease (unique : s.Unique) (msg : V6Message) (i : Nat) (now : Time) :
    (s.commitLease msg i now).1.Unique := by
  have committed : (if (s.leases.getD i default).isStatic then s
      else s.commitDynamicLease i now).Unique := by
    split
    · exact unique
    · exact unique.modify i fun _ => rfl
  unfold V6Server.commitLease
  cases msg.messageType with
  | request => exact committed
  | renew => exact committed
  | rebind => exact committed
  | solicit => exact unique
  | confirm => exact unique
  | release => exact unique
  | decline => exact unique
  | informationRequest => exact unique
  | other => exact unique

theorem leaseFor (unique : s.Unique) (msg : V6Message) (mac : HardwareAddr) (now : Time) :
    (s.leaseFor msg mac now).1.Unique := by
  unfold V6Server.leaseFor
  split
  · exact unique
  · split
    · exact unique.reserveLease mac now
    · exact unique

theorem processMAC (unique : s.Unique) (msg : V6Message) (mac : HardwareAddr)
    (timing : V6Timing) : (s.processMAC msg mac timing).1.Unique := by
  have found := unique.leaseFor msg mac timing.reservedAt
  unfold V6Server.processMAC
  cases attempt : s.leaseFor msg mac timing.reservedAt with
  | mk t result =>
    rw [attempt] at found
    cases result with
    | none => exact found
    | some i =>
      dsimp only
      split
      · exact found
      · exact found.commitLease msg i timing.committedAt

theorem process (unique : s.Unique) (msg : V6Message) (timing : V6Timing) :
    (s.process msg timing).1.Unique := by
  unfold V6Server.process
  cases msg.mac with
  | none => split <;> exact unique
  | some mac =>
    have answered := unique.processMAC msg mac timing
    split
    · exact answered
    · exact answered
    · exact answered
    · exact answered
    · exact answered
    · exact unique
    · exact unique
    · exact unique
    · exact unique

theorem packetHandler (unique : s.Unique) (msg : V6Message) (timing : V6Timing) :
    (s.packetHandler msg timing).1.Unique := by
  unfold V6Server.packetHandler
  split
  · exact unique
  split
  · exact unique
  split
  · exact unique
  · exact unique
  · exact unique.process msg timing

theorem remove (unique : s.Unique) {i : Nat} {x : Lease} (here : s.leases[i]? = some x)
    (alone : s.Alone x.ip) : (s.leaseRemoveSwapByIndex i).Unique := by
  obtain ⟨kept, trims, perm⟩ := rm_trims here
  obtain ⟨keeps, across⟩ := unique.apart perm
  refine ⟨?_, ?_⟩
  · rwa [trims.leases]
  · rw [trims.leases]
    intro y member inside
    rw [inPrefix, trims.conf] at inside
    have present : y ∈ s.leases := perm.subset (List.mem_append_left _ member)
    refine (trims.bits _).mpr ⟨unique.bits y present inside, ?_⟩
    intro z gone
    obtain rfl := List.mem_singleton.mp gone
    exact (alone y present (across y member z gone) inside).symm

theorem rmLease_cases (s : V6Server) (lease : Lease) :
    ((s.rmLease lease).1 = s ∧ (s.rmLease lease).2 ≠ .ok ()) ∨
      ∃ i x, s.leases[i]? = some x ∧ x.ip = lease.ip ∧ x.hwAddr = lease.hwAddr ∧
        x.hostname = lease.hostname ∧ s.rmLease lease = (s.leaseRemoveSwapByIndex i, .ok ()) := by
  unfold rmLease
  cases search : s.leases.findIdx? fun l => l.ip == lease.ip with
  | none => exact .inl ⟨rfl, by simp⟩
  | some i =>
    obtain ⟨bound, same, _⟩ := List.findIdx?_eq_some_iff_getElem.mp search
    have here : s.leases[i]? = some s.leases[i] := List.getElem?_eq_getElem bound
    simp only [List.getD_eq_getElem?_getD, here, Option.getD_some]
    split
    · exact .inl ⟨rfl, by simp⟩
    · rename_i equal
      rw [not_or, not_not, not_not] at equal
      exact .inr ⟨i, s.leases[i], here, by simpa using same, equal.1, equal.2, rfl⟩

theorem removeStaticLease (unique : s.Unique) (safe : s.Safe env (.removeStaticLease lease)) :
    (s.removeStaticLease env lease).1.Unique := by
  unfold V6Server.removeStaticLease
  split
  · exact unique
  rename_i six
  split
  · exact unique
  rename_i valid
  rcases rmLease_cases s lease with ⟨same, _⟩ | ⟨i, x, here, ip, mac, hostname, result⟩
  · rwa [same]
  · rw [result]
    refine unique.remove here ?_
    rw [ip]
    exact safe (by simpa using six) (by simpa using valid)
      ⟨x, List.mem_of_getElem? here, ip, mac, hostname⟩

theorem updateStaticLease (unique : s.Unique) (safe : s.Safe env (.updateStaticLease lease)) :
    (s.updateStaticLease lease).1.Unique := by
  unfold V6Server.updateStaticLease
  cases search : s.findLease lease.hwAddr with
  | none => exact unique
  | some found =>
    obtain ⟨bound, same, before⟩ := List.findIdx?_eq_some_iff_getElem.mp search
    have first : s.leases.find? (sameMAC lease) = some s.leases[found] :=
      List.find?_eq_some_iff_getElem.mpr ⟨same, found, bound, rfl, fun j earlier => by
        simpa [sameMAC] using before j earlier⟩
    obtain ⟨unused, alone⟩ := safe _ first
    have value : s.leases.getD found default = s.leases[found] := by
      rw [List.getD_eq_getElem?_getD, List.getElem?_eq_getElem bound]
      rfl
    dsimp only
    rw [value]
    generalize s.leases[found] = x at unused alone
    rcases rmLease_cases s x with ⟨same, failed⟩ | ⟨i, z, here, ip, _, _, result⟩
    · cases attempt : s.rmLease x with
      | mk t result =>
        rw [attempt] at same failed
        cases result with
        | error error => rwa [← same] at unique
        | ok done => exact absurd rfl failed
    · rw [result]
      obtain ⟨kept, trims, perm⟩ := rm_trims here
      obtain ⟨keeps, across⟩ := unique.apart perm
      have different : ∀ y ∈ kept, y ∈ s.leases ∧ y.ip ≠ x.ip := by
        intro y member
        refine ⟨perm.subset (List.mem_append_left _ member), ?_⟩
        rw [← ip]
        exact across y member z (List.mem_singleton_self z)
      apply addLease
      · rwa [trims.leases]
      · rw [trims.leases]
        intro y member
        obtain ⟨present, other⟩ := different y member
        exact unused y present other
      · rw [trims.leases]
        intro y member inside apart
        obtain ⟨present, other⟩ := different y member
        rw [inPrefix, trims.conf] at inside
        refine (trims.bits _).mpr ⟨unique.bits y present inside, ?_⟩
        intro w gone
        obtain rfl := List.mem_singleton.mp gone
        rw [ip]
        by_cases again : byte15 (as16 x.ip) = byte15 (as16 lease.ip)
        · rw [again]
          exact Ne.symm apart
        · exact (alone again y present other inside).symm

theorem sole (unique : s.Unique) (lease : Lease) : s.leases.countP (sameIP lease) ≤ 1 := by
  rw [List.countP_eq_length_filter]
  have ips := unique.ips.filter (sameIP lease)
  cases matching : s.leases.filter (sameIP lease) with
  | nil => simp
  | cons a rest =>
    cases rest with
    | nil => simp
    | cons b rest =>
      rw [matching] at ips
      have first : a ∈ s.leases.filter (sameIP lease) := by simp [matching]
      have second : b ∈ s.leases.filter (sameIP lease) := by simp [matching]
      rw [List.mem_filter, sameIP, beq_iff_eq] at first second
      exact absurd (first.2.trans second.2.symm) (List.rel_of_pairwise_cons ips (by simp))

/-- The table that the loop for a static lease leaves, and what becomes of it. -/
theorem afterLoop (unique : s.Unique) (addable : s.Addable lease) :
    ((s.rmDynamicLease lease).2 ≠ .ok () ∧ (s.rmDynamicLease lease).1.Unique) ∨
      (s.rmDynamicLease lease).2 = .ok () ∧ ((s.rmDynamicLease lease).1.addLease lease).Unique ∧
        ∀ y ∈ (s.rmDynamicLease lease).1.leases, sharesAddress lease y = false := by
  obtain ⟨kept, removed, refused, sweep, trims, result⟩ := rmDynamicLease_sweeps s lease
  obtain ⟨keeps, across⟩ := unique.apart sweep.perm
  have sole := unique.sole lease
  have present : ∀ y ∈ kept, y ∈ s.leases := fun y member =>
    sweep.perm.subset (List.mem_append_left _ member)
  have gone : ∀ x ∈ removed, x ∈ s.leases := fun x member =>
    sweep.perm.subset (List.mem_append_right _ member)
  have leases : (s.rmDynamicLease lease).1.leases = kept := trims.leases
  cases addable with
  | refused static alone =>
    obtain rfl := sweep.stops sole static
    refine .inl ⟨by rw [result]; simp, ?_, ?_⟩
    · rwa [leases]
    · rw [leases]
      intro y member inside
      rw [inPrefix, trims.conf] at inside
      refine (trims.bits _).mpr ⟨unique.bits y (present y member) inside, ?_⟩
      intro x taken
      obtain ⟨same, loose⟩ := sweep.removed_match x taken
      exact (alone x (gone x taken) loose same y (present y member)
        (across y member x taken) inside).symm
  | cleared dynamic reached alone =>
    have finished : refused = false := by
      by_contra stopped
      obtain ⟨x, member, same, stays⟩ := sweep.refused_fixed (by simpa using stopped)
      rw [dynamic x member same] at stays
      cases stays
    subst finished
    have clean : ∀ y ∈ kept, sharesAddress lease y = false := by
      intro y member
      rcases sweep.clean sole reached with stopped | clean
      · cases stopped
      · simpa [sharesAddress] using clean y member
    refine .inr ⟨result, addLease ?_ ?_ ?_, ?_⟩
    · rwa [leases]
    · rw [leases]
      intro y member here
      have different := clean y member
      simp [sharesAddress, sameIP, here] at different
    · rw [leases]
      intro y member inside apart
      rw [inPrefix, trims.conf] at inside
      refine (trims.bits _).mpr ⟨unique.bits y (present y member) inside, ?_⟩
      intro x taken here
      exact apart (alone x (gone x taken) (sweep.removed_match x taken).1 y (present y member)
        (clean y member) inside here.symm)
    · rwa [leases]

theorem addStaticLease (unique : s.Unique) (safe : s.Safe env (.addStaticLease lease)) :
    (s.addStaticLease env lease).1.Unique := by
  unfold V6Server.addStaticLease
  split
  · exact unique
  rename_i six
  split
  · exact unique
  rename_i valid
  have addable : s.Addable { lease with isStatic := true } :=
    safe (by simpa using six) (by simpa using valid)
  have after := unique.afterLoop addable
  dsimp only
  cases attempt : s.rmDynamicLease { lease with isStatic := true } with
  | mk t result =>
    rw [attempt] at after
    rcases after with ⟨failed, kept⟩ | ⟨succeeds, added, _⟩
    · cases result with
      | error error => exact kept
      | ok done => exact absurd rfl failed
    · obtain rfl : result = .ok () := succeeds
      exact added

theorem resetLease_spec (taken : s.resetLease lease = some t) :
    (lease.isStatic = true ∨ lease.ip.is6 = true) ∧
      t = if s.admits lease then s.addLease lease else s := by
  unfold V6Server.resetLease at taken
  unfold admits
  cases static : lease.isStatic with
  | true =>
    rw [static, if_pos rfl, Option.some.injEq] at taken
    exact ⟨.inl rfl, by simp [taken]⟩
  | false =>
    rw [static, if_neg Bool.false_ne_true] at taken
    cases ip : lease.ip with
    | zero => simp [ip, ip6InRange] at taken
    | v4 value => simp [ip, ip6InRange] at taken
    | v6 value zone =>
      rw [ip] at taken
      refine ⟨.inr rfl, ?_⟩
      cases range : ip6InRange s.conf.ipStart (.v6 value zone) with
      | none =>
        rw [range] at taken
        cases taken
      | some inside =>
        rw [range] at taken
        cases inside with
        | true => exact (Option.some.inj taken).symm.trans (by simp)
        | false => exact (Option.some.inj taken).symm.trans (by simp)

variable {leases : List Lease}

theorem resetRounds_valid (taken : leases.foldlM V6Server.resetLease s = some t) :
    ∀ l ∈ leases, l.isStatic = true ∨ l.ip.is6 = true := by
  induction leases generalizing s with
  | nil => simp
  | cons l rest ih =>
    rw [List.foldlM_cons] at taken
    obtain ⟨u, round, later⟩ := Option.bind_eq_some_iff.mp taken
    exact List.forall_mem_cons.mpr ⟨(resetLease_spec round).1, ih later⟩

/-- The rounds of `ResetLeases` find no IP of theirs in use. -/
theorem resetRounds (unique : s.Unique) (taken : leases.foldlM V6Server.resetLease s = some t)
    (distinct : (leases.filter s.admits).Pairwise fun a b => a.ip ≠ b.ip)
    (unused : ∀ l ∈ leases.filter s.admits, ∀ y ∈ s.leases, y.ip ≠ l.ip) : t.Unique := by
  induction leases generalizing s with
  | nil =>
    obtain rfl : s = t := Option.some.inj taken
    exact unique
  | cons l rest ih =>
    rw [List.foldlM_cons] at taken
    obtain ⟨u, round, later⟩ := Option.bind_eq_some_iff.mp taken
    obtain ⟨_, next⟩ := resetLease_spec round
    cases admitted : s.admits l with
    | false =>
      rw [admitted, if_neg Bool.false_ne_true] at next
      subst next
      rw [List.filter_cons_of_neg (by simp [admitted])] at distinct unused
      exact ih unique later distinct unused
    | true =>
      rw [admitted, if_pos rfl] at next
      subst next
      rw [List.filter_cons_of_pos admitted, List.pairwise_cons] at distinct
      rw [List.filter_cons_of_pos admitted, List.forall_mem_cons] at unused
      refine ih (unique.add unused.1) later distinct.2 ?_
      intro k listed y member
      rcases List.mem_append.mp member with old | added
      · exact unused.2 k listed y old
      · rw [List.mem_singleton.mp added]
        exact distinct.1 k listed

theorem resetLeases (safe : s.Safe env (.resetLeases leases))
    (taken : s.resetLeases leases = some t) : t.Unique := by
  have emptied : ({ s with leases := [] } : V6Server).Unique := ⟨.nil, by simp⟩
  exact emptied.resetRounds taken (safe (resetRounds_valid taken)) (by simp)

theorem next (s : V6Server) (event : V6Event) (unique : s.Unique) (safe : s.Safe env event) :
    ((machine env).next s event).Unique := by
  cases event with
  | packet msg timing => exact unique.packetHandler msg timing
  | addStaticLease l => exact unique.addStaticLease safe
  | updateStaticLease l => exact unique.updateStaticLease safe
  | removeStaticLease l => exact unique.removeStaticLease safe
  | resetLeases leases =>
    simp only [Transition.Machine.next, machine, step]
    cases taken : s.resetLeases leases with
    | none => exact unique
    | some t => exact resetLeases safe taken

end Unique

/-- The new lease is in the table, and no other one has its IP or its hardware address. -/
def AddedAlone (lease : Lease) (t : V6Server) : Prop :=
  ∃ others, t.leases = others ++ [{ lease with isStatic := true }] ∧
    ∀ y ∈ others, y.ip ≠ lease.ip ∧ y.hwAddr ≠ lease.hwAddr

theorem Unique.addedAlone {env : Env} {lease : Lease} (unique : s.Unique)
    (safe : s.Safe env (.addStaticLease lease))
    (succeeds : (s.addStaticLease env lease).2 = .ok ()) :
    AddedAlone lease (s.addStaticLease env lease).1 := by
  unfold V6Server.addStaticLease at succeeds ⊢
  split at succeeds
  · cases succeeds
  rename_i six
  split at succeeds
  · cases succeeds
  rename_i valid
  rw [if_neg six, if_neg valid]
  have addable : s.Addable { lease with isStatic := true } :=
    safe (by simpa using six) (by simpa using valid)
  have after := unique.afterLoop addable
  dsimp only at succeeds ⊢
  cases attempt : s.rmDynamicLease { lease with isStatic := true } with
  | mk t result =>
    rw [attempt] at after succeeds
    rcases after with ⟨failed, _⟩ | ⟨finished, _, clean⟩
    · cases result with
      | error error => cases succeeds
      | ok done => exact absurd rfl failed
    · obtain rfl : result = .ok () := finished
      refine ⟨t.leases, rfl, ?_⟩
      intro y member
      have different := clean y member
      simp only [sharesAddress, sameMAC, sameIP, Bool.or_eq_false_iff, beq_eq_false_iff_ne] at different
      exact ⟨different.2, different.1⟩

variable {env : Env} {conf : V6ServerConf} {sid : List (BitVec 8)} {events : List V6Event}

/-- After every run of safe messages and calls the IPs differ, the bits are set, the next
free IP is free, and a static lease that can be added has its addresses for itself. -/
theorem addresses_unique (safe : (machine env).Allowed (Safe env) (new conf sid) events) :
    ((machine env).run (new conf sid) events).Unique ∧
      (∀ ip, ((machine env).run (new conf sid) events).findFreeIP = some ip →
        ∀ l ∈ ((machine env).run (new conf sid) events).leases, as16 l.ip ≠ ip) ∧
      ∀ l, ((machine env).run (new conf sid) events).Safe env (.addStaticLease l) →
        (((machine env).run (new conf sid) events).addStaticLease env l).2 = .ok () →
        AddedAlone l (((machine env).run (new conf sid) events).addStaticLease env l).1 := by
  have unique := (machine env).run_invariant Unique Unique.next (.new conf sid) safe
  exact ⟨unique, fun ip found => unique.fresh found, fun l added => unique.addedAlone added⟩

section Examples

private def lenientEnv : Env := ⟨id, fun _ => true, fun _ => true, fun mac => mac.length == 6⟩

private def fromFive : V6ServerConf := ⟨0x20010db8000000000000000000000005, 3600, []⟩

private def solicit (last : BitVec 8) : V6Event :=
  .packet ⟨.solicit, true, none, some [2, 0, 0, 0, 0, last], none, false, false, none⟩ ⟨0, 0⟩

private def outside : Lease :=
  ⟨.v6 0xfd000000000000000000000000000005 "", 0, "nas", [2, 0, 0, 0, 0, 9], true⟩

private theorem addable_outside :
    ((machine lenientEnv).run (new fromFive []) [solicit 1]).Addable outside := by
  have apart : ∀ x ∈ ((machine lenientEnv).run (new fromFive []) [solicit 1]).leases,
      sharesAddress outside x = false := by decide
  refine .cleared ?_ ?_ ?_
  · intro x member same
    rw [apart x member] at same
    cases same
  · intro front x back split same _
    have different := apart x (by rw [split]; simp)
    simp [sharesAddress, same] at different
  · intro x member same
    rw [apart x member] at same
    cases same

theorem addresses_unique_solicit :
    ((machine lenientEnv).run (new fromFive []) [solicit 1]).Unique ∧
      AddedAlone outside (((machine lenientEnv).run (new fromFive []) [solicit 1]).addStaticLease
        lenientEnv outside).1 := by
  have safe : (machine lenientEnv).Allowed (Safe lenientEnv) (new fromFive []) [solicit 1] :=
    ⟨trivial, trivial⟩
  obtain ⟨unique, _, added⟩ := addresses_unique safe
  exact ⟨unique, added outside (fun _ _ => addable_outside) (by decide)⟩

/-- Removing a static lease from another prefix frees an address that is leased, and the
next client gets it as well. -/
theorem removal_frees_leased_address :
    ¬ ∀ events, ((machine lenientEnv).run (new fromFive []) events).Unique := by
  intro always
  have ips := (always [solicit 1, .addStaticLease outside, .removeStaticLease outside,
    solicit 2]).ips
  revert ips
  decide

end Examples

end V6Server

end AdGuardHome.Dhcpd
