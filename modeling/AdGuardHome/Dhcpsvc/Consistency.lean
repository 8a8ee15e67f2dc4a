import AdGuardHome.Dhcpsvc.Frame

namespace AdGuardHome.Dhcpsvc

open Netip Heap

namespace World

variable {env : Env} {w : World}

def Consistent (w : World) : Prop := w.iface.Consistent w.heap

variable {l : Ref} {key : MacKey} {order : WalkOrder MacKey}

/-- A change of a lease that nobody looks up by. -/
theorem Consistent.setLease (consistent : w.Consistent) (known : l < w.heap.size)
    {change : Lease → Lease} (ip : (change (w.lease l)).ip = (w.lease l).ip)
    (hwAddr : (change (w.lease l)).hwAddr = (w.lease l).hwAddr) :
    (w.setLease l change).Consistent := by
  refine NetInterface.Consistent.frame consistent (Nat.le_of_eq (size_setLease w l change).symm) ?_
  intro key other _
  have written := lease_setLease w known change other
  change ((w.setLease l change).lease other).ip = (w.lease other).ip ∧
    ((w.setLease l change).lease other).hwAddr = (w.lease other).hwAddr
  rw [written]
  split
  · rename_i same
    rw [same]
    exact ⟨ip, hwAddr⟩
  · exact ⟨rfl, rfl⟩

theorem Consistent.setForeign (consistent : w.Consistent)
    (foreign : ∀ key, w.iface.leases.get key ≠ some l) (change : Lease → Lease) :
    (w.setLease l change).Consistent := by
  refine NetInterface.Consistent.frame consistent (Nat.le_of_eq (size_setLease w l change).symm) ?_
  intro key other member
  have different : other ≠ l := by
    rintro rfl
    exact foreign key member
  have same : (w.heap.modify l change).read other = w.heap.read other :=
    read_modify_ne different _ _
  change ((w.heap.modify l change).read other).ip = _ ∧
    ((w.heap.modify l change).read other).hwAddr = _
  rw [same]
  exact ⟨rfl, rfl⟩

/-- Removing a lease. -/
theorem Consistent.removed (consistent : w.Consistent) (env : Env)
    (member : w.iface.leases.get key = some l) {lease : Lease} (ip : lease.ip = (w.lease l).ip) :
    (w.removed env key lease).Consistent := by
  unfold World.Consistent World.removed
  rw [ip]
  exact NetInterface.Consistent.delete consistent member

theorem Consistent.remove (consistent : w.Consistent) (env : Env)
    (member : w.iface.leases.get key = some l) (stored : Bool) :
    (w.remove env (w.lease l) stored).1.Consistent := by
  rcases remove_cases env w (w.lease l) stored with same | ⟨k, other, owner, found, _, _, result⟩
  · rwa [same]
  · obtain rfl : k = key := Subtype.ext (owner.trans (consistent.keys key l member))
    rw [result]
    exact consistent.removed env member rfl

theorem Consistent.removeLease (consistent : w.Consistent)
    (member : w.iface.leases.get key = some l) {iface : NetInterface}
    (done : w.iface.removeLease (w.lease l) = .ok iface) :
    iface.Consistent w.heap ∧ ∀ k, iface.leases.get k ≠ some l := by
  obtain ⟨k, other, owner, found, rfl⟩ := removeLease_ok done
  obtain rfl : k = key := Subtype.ext (owner.trans (consistent.keys key l member))
  refine ⟨NetInterface.Consistent.delete consistent member, ?_⟩
  intro k' here
  change (w.iface.leases.delete k).get k' = some l at here
  obtain ⟨different, before⟩ := FiniteMap.of_get_delete here
  exact different (consistent.key_unique before member)

theorem Consistent.blockLease (consistent : w.Consistent) (member : w.iface.leases.get key = some l)
    (now : Time) (stored : Bool) :
    (w.blockLease l now stored).1.Consistent := by
  unfold World.blockLease
  split
  · exact consistent
  · rename_i iface done
    obtain ⟨remaining, gone⟩ := consistent.removeLease member done
    have left : ({ w with iface } : World).Consistent := remaining
    exact left.setForeign gone _

theorem Consistent.update (consistent : w.Consistent) (env : Env)
    (member : w.iface.leases.get key = some l) (stored : Bool) :
    (w.update env l stored).1.Consistent := by
  rcases update_cases env w l stored with ⟨same, _⟩ | ⟨k, prev, owner, found, _, _, result⟩
  · rwa [same]
  · obtain rfl : k = key := Subtype.ext (owner.trans (consistent.keys key l member))
    rw [result]
    exact NetInterface.Consistent.replace consistent member (consistent.known k l member)
      owner.symm rfl

@[simp] theorem committed_ip (env : Env) (req : DHCPv6) (lease : Lease) (now : Time)
    (ttl : Duration) : (committed env req lease now ttl).ip = lease.ip := by
  unfold committed
  dsimp only
  split <;> simp

@[simp] theorem committed_hwAddr (env : Env) (req : DHCPv6) (lease : Lease) (now : Time)
    (ttl : Duration) : (committed env req lease now ttl).hwAddr = lease.hwAddr := by
  unfold committed
  dsimp only
  split <;> simp

@[simp] theorem committed_hostname (env : Env) (req : DHCPv6) (lease : Lease) (now : Time)
    (ttl : Duration) :
    (committed env req lease now ttl).hostname = committedHostname env req lease := by
  unfold committed
  dsimp only
  split <;> simp

@[simp] theorem committed_isStatic (env : Env) (req : DHCPv6) (lease : Lease) (now : Time)
    (ttl : Duration) : (committed env req lease now ttl).isStatic = lease.isStatic := by
  unfold committed
  dsimp only
  split <;> simp

/-- A commit stores the lease as it makes it, and the client keeps it or loses it. -/
theorem commit6_stores (env : Env) (req : DHCPv6) (stored : Bool) (now : Time)
    (known : l < w.heap.size) (member : w.iface.leases.get key = some l) :
    (w.commit6 env req l stored now).1.lease l =
        committed env req (w.lease l) now w.iface.leaseTTL ∧
      (w.commit6 env req l stored now).1.iface.leaseTTL = w.iface.leaseTTL ∧
      ((w.commit6 env req l stored now).1.iface.leases.get key = some l ∨
        (w.commit6 env req l stored now).2 ≠ .ok () ∧
          (w.commit6 env req l stored now).1.iface.leases.get key = none) := by
  have written := (lease_setLease w known
    (fun lease => committed env req lease now w.iface.leaseTTL) l).trans (if_pos rfl)
  have memberNamed : (w.setLease l fun lease =>
      committed env req lease now w.iface.leaseTTL).iface.leases.get key = some l := member
  have kept := member_update env memberNamed stored
  have heap := heap_update env (w.setLease l fun lease =>
    committed env req lease now w.iface.leaseTTL) l stored
  have ttl := leaseTTL_update env (w.setLease l fun lease =>
    committed env req lease now w.iface.leaseTTL) l stored
  unfold commit6
  dsimp only
  generalize (w.setLease l fun lease =>
    committed env req lease now w.iface.leaseTTL).update env l stored = outcome at kept heap ttl ⊢
  obtain ⟨w', result⟩ := outcome
  have same : w'.lease l = committed env req (w.lease l) now w.iface.leaseTTL := by
    unfold lease at written ⊢
    rw [heap]
    exact written
  cases result with
  | ok _ => exact ⟨same, ttl, .inl kept⟩
  | error error =>
    dsimp only
    split
    · exact ⟨same, ttl, .inl kept⟩
    · rename_i iface removed
      obtain ⟨gone, _, _, _, rfl⟩ := removeLease_ok removed
      refine ⟨same, ttl, ?_⟩
      change (w'.iface.leases.delete gone).get key = some l ∨
        _ ∧ (w'.iface.leases.delete gone).get key = none
      rw [FiniteMap.get_delete]
      split
      · exact .inr ⟨nofun, rfl⟩
      · exact .inl kept

/-- A commit keeps the lease or takes it out of the interface. -/
theorem Consistent.commit6 (consistent : w.Consistent) (env : Env) (req : DHCPv6)
    (member : w.iface.leases.get key = some l) (stored : Bool) (now : Time) :
    (w.commit6 env req l stored now).1.Consistent := by
  have named : (w.setLease l fun lease =>
      committed env req lease now w.iface.leaseTTL).Consistent :=
    consistent.setLease (consistent.known key l member) (committed_ip ..) (committed_hwAddr ..)
  unfold World.commit6
  dsimp only
  have memberNamed : (w.setLease l fun lease =>
      committed env req lease now w.iface.leaseTTL).iface.leases.get key = some l := member
  have updated := named.update env memberNamed stored
  generalize w.setLease l _ = named at memberNamed updated ⊢
  split
  · rename_i w' done
    rwa [done] at updated
  · rename_i w' error failed
    split
    · rwa [failed] at updated
    · rename_i iface removed
      have kept : (named.update env l stored).1.iface.leases.get key = some l := by
        rcases update_cases env named l stored with ⟨same, _⟩ | ⟨k, _, _, _, _, _, result⟩
        · rwa [same]
        · rw [result]
          change (named.iface.leases.set k l).get key = some l
          rw [FiniteMap.get_set]
          split
          · rfl
          · exact memberNamed
      rw [failed] at updated kept
      exact (updated.removeLease kept removed).1

/-- A free address gets a lease of its own. -/
theorem Consistent.withFresh (consistent : w.Consistent) {ip : Addr} (now : Time)
    (free : w.iface.leases.get key = none) (found : w.iface.nextIP = some ip)
    (valid : ip ≠ .zero) : (w.withFresh key ip now).Consistent := by
  obtain ⟨place, unleased⟩ := NetInterface.Consistent.nextIP consistent found valid
  generalize object : Lease.mk ip (now + w.iface.leaseTTL) "" key.val false = lease
  have old : ∀ other, other < w.heap.size →
      (w.heap.alloc lease).1.read other = w.heap.read other := by
    intro other bound
    rw [read_alloc, if_neg (Nat.ne_of_lt bound)]
  have new : (w.heap.alloc lease).1.read w.heap.size = lease := by
    rw [read_alloc, if_pos rfl]
  have grown := NetInterface.Consistent.alloc consistent lease
  unfold World.Consistent World.withFresh
  rw [object]
  have here : ((w.heap.alloc lease).1.read w.heap.size).ip = ip := by
    rw [new, ← object]
  have inserted := NetInterface.Consistent.insert grown free
    (Nat.lt_of_lt_of_eq (Nat.lt_succ_self _) (size_alloc _ _).symm)
    (by rw [new, ← object]) (by rwa [here]) (by
      intro k other member
      rw [here, old other (consistent.known k other member)]
      exact unleased k other member)
  rwa [here] at inserted

@[simp] theorem recycled_ip (lease : Lease) (key : MacKey) (now : Time) (ttl : Duration) :
    (recycled lease key now ttl).ip = lease.ip := by simp [recycled]

@[simp] theorem recycled_hwAddr (lease : Lease) (key : MacKey) (now : Time) (ttl : Duration) :
    (recycled lease key now ttl).hwAddr = key.val := by simp [recycled]

/-- A new allocation lasts for the lease time. -/
theorem Allocation.lasts {now : Time} {w' : World}
    (allocation : Allocation env w key now order w' l)
    (known : ∀ k l, w.iface.leases.get k = some l → l < w.heap.size) :
    l < w'.heap.size ∧ (w'.lease l).isStatic = false ∧
      (w'.lease l).expiry = now + w.iface.leaseTTL ∧ w'.iface.leaseTTL = w.iface.leaseTTL := by
  cases allocation with
  | fresh found valid =>
    have new : ∀ object : Lease, (w.heap.alloc object).1.read w.heap.size = object := by
      intro object
      rw [read_alloc, if_pos rfl]
    refine ⟨Nat.lt_of_lt_of_eq (Nat.lt_succ_self _) (size_alloc _ _).symm, ?_, ?_, rfl⟩
    · exact congrArg Lease.isStatic (new _)
    · exact congrArg Lease.expiry (new _)
  | recycled full expired =>
    obtain ⟨owner, member, dynamic, past⟩ := findExpiredLease_some expired
    have removed : (w.remove env (w.lease l) true).1.heap = w.heap ∧
        (w.remove env (w.lease l) true).1.iface.leaseTTL = w.iface.leaseTTL := by
      rcases remove_cases env w (w.lease l) true with same | ⟨_, _, _, _, _, _, result⟩
      · rw [same]
        exact ⟨rfl, rfl⟩
      · rw [result]
        exact ⟨rfl, rfl⟩
    have bound : l < (w.remove env (w.lease l) true).1.heap.size := by
      rw [removed.1]
      exact known owner l member
    have changed := (lease_setLease _ bound
      (fun lease => World.recycled lease key now w.iface.leaseTTL) l).trans (if_pos rfl)
    have before : (w.remove env (w.lease l) true).1.lease l = w.lease l := by
      change (w.remove env (w.lease l) true).1.heap.read l = w.heap.read l
      rw [removed.1]
    rw [before] at changed
    have object : World.recycled (w.lease l) key now w.iface.leaseTTL =
        { w.lease l with
          hwAddr := key.val, hostname := "", isStatic := false
          expiry := now + w.iface.leaseTTL } := by
      simp [World.recycled, Lease.updateExpiry, Int.lt_asymm past]
    rw [object] at changed
    refine ⟨Nat.lt_of_lt_of_eq bound (size_setLease _ _ _).symm, ?_, ?_, removed.2⟩
    · exact congrArg Lease.isStatic changed
    · exact congrArg Lease.expiry changed

def Registered (env : Env) (w : World) (l : Ref) : Prop :=
  (w.index.byAddr.get (w.lease l).ip).isSome = true ∧
    (w.index.byName.get (env.toLower (w.lease l).hostname)).isSome = true

instance (env : Env) (w : World) (l : Ref) : Decidable (Registered env w l) :=
  inferInstanceAs (Decidable (_ ∧ _))

theorem Registered.remove (registered : Registered env w l) (consistent : w.Consistent)
    (member : w.iface.leases.get key = some l)
    (stored : Bool) : (w.remove env (w.lease l) stored).1 = w.removed env key (w.lease l) := by
  obtain ⟨hasAddr, hasName⟩ := registered
  have named : macToKey (w.lease l).hwAddr = some key :=
    macToKey_eq_some.mpr (consistent.keys key l member).symm
  simp [World.remove, NetInterface.removeLease, Option.isSome_iff_ne_none.mp hasAddr,
    Option.isSome_iff_ne_none.mp hasName, named, member, World.removed]

/-- An expired lease that is removed from its owner becomes the lease of another client. -/
theorem Consistent.reassigned (consistent : w.Consistent) {key k : MacKey} (now : Time)
    (free : w.iface.leases.get key = none) (member : w.iface.leases.get k = some l)
    (registered : Registered env w l) : (w.reassigned env key l now).Consistent := by
  have known : l < w.heap.size := consistent.known k l member
  have place := consistent.leasable k l member
  have ip := recycled_ip (w.lease l) key now w.iface.leaseTTL
  have hwAddr := recycled_hwAddr (w.lease l) key now w.iface.leaseTTL
  have kept : ∀ {k' other}, (w.removed env k (w.lease l)).iface.leases.get k' = some other →
      k' ≠ k ∧ w.iface.leases.get k' = some other := by
    intro k' other here
    change (w.iface.leases.delete k).get k' = some other at here
    exact FiniteMap.of_get_delete here
  have foreign : ∀ k', (w.removed env k (w.lease l)).iface.leases.get k' ≠ some l := by
    intro k' held
    obtain ⟨different, here⟩ := kept held
    exact different (consistent.key_unique here member)
  have changed := (consistent.removed env member rfl).setForeign foreign fun lease =>
    recycled lease key now w.iface.leaseTTL
  have written := lease_setLease (w.removed env k (w.lease l)) known fun lease =>
    recycled lease key now w.iface.leaseTTL
  have mine : ((w.removed env k (w.lease l)).setLease l fun lease =>
      recycled lease key now w.iface.leaseTTL).lease l =
        recycled (w.lease l) key now w.iface.leaseTTL := (written l).trans (if_pos rfl)
  unfold World.reassigned
  rw [registered.remove consistent member true]
  refine NetInterface.Consistent.insert changed ?free ?known ?owner ?place ?unleased
  case free =>
    change (w.iface.leases.delete k).get key = none
    rw [FiniteMap.get_delete]
    split
    · rfl
    · exact free
  case known => exact Nat.lt_of_lt_of_eq known (size_setLease _ _ _).symm
  case owner => exact (congrArg Lease.hwAddr mine).trans hwAddr
  case place =>
    have here := (congrArg Lease.ip mine).trans ip
    change w.iface.addrSpace.Leasable (World.lease _ l).ip
    rwa [here]
  case unleased =>
    intro k' other held equal
    obtain ⟨different, before⟩ := kept held
    have apart : other ≠ l := by
      rintro rfl
      exact foreign k' held
    have same : (World.lease _ other).ip = (w.lease other).ip :=
      congrArg Lease.ip ((written other).trans (if_neg apart))
    have equal : (w.lease other).ip = (w.lease l).ip :=
      same.symm.trans (equal.trans ((congrArg Lease.ip mine).trans ip))
    exact different (consistent.ips k' other l k before member equal)

/-- A client without a lease may only get the lease of another one that the index removes. -/
def Recyclable (env : Env) (w : World) (now : Time) (order : WalkOrder MacKey) : Prop :=
  w.iface.nextIP = some .zero → ∀ l, w.findExpiredLease now order = some l → Registered env w l

instance (env : Env) (w : World) (now : Time) (order : WalkOrder MacKey) :
    Decidable (Recyclable env w now order) :=
  inferInstanceAs (Decidable (_ → _))

theorem Consistent.allocation (consistent : w.Consistent) {now : Time}
    (free : w.iface.leases.get key = none) (recyclable : Recyclable env w now order) {w' : World}
    (allocation : Allocation env w key now order w' l) : w'.Consistent := by
  cases allocation with
  | fresh found valid => exact consistent.withFresh now free found valid
  | recycled full expired =>
    obtain ⟨k, member, _⟩ := findExpiredLease_some expired
    exact consistent.reassigned now free member (recyclable full l expired)

def Allocates (env : Env) (w : World) (chance : Chance) (clock : Readings) : Operation → Prop
  | .allocate _ | .allocateCommitted _ _ => Recyclable env w clock.now chance.order
  | _ => True

instance (env : Env) (w : World) (chance : Chance) (clock : Readings) :
    DecidablePred (Allocates env w chance clock)
  | .allocate _ | .allocateCommitted _ _ =>
    inferInstanceAs (Decidable (Recyclable env w clock.now chance.order))
  | .nothing | .refresh _ | .commit4 _ _ | .commit6 _ _ _ | .block _ | .release _ => .isTrue trivial

/-- What a message plans keeps the tables consistent. -/
theorem Consistent.perform (consistent : w.Consistent) {op : Operation} {chance : Chance}
    {clock : Readings} (plans : w.Plans key op)
    (safe : Allocates env w chance clock op) : (w.perform env chance clock op).Consistent := by
  cases op with
  | nothing => exact consistent
  | refresh l =>
    exact consistent.setLease (consistent.known key l plans) (Lease.updateExpiry_ip ..)
      (Lease.updateExpiry_hwAddr ..)
  | allocate k =>
    obtain ⟨rfl, free⟩ := plans
    rcases allocate_cases env w k clock.now chance.order with ⟨_, failed⟩ | ⟨w', l, done, allocated⟩
    · simpa only [World.perform, failed] using consistent
    · simpa only [World.perform, done] using consistent.allocation free safe allocated
  | allocateCommitted k req =>
    obtain ⟨rfl, free⟩ := plans
    rcases allocate_cases env w k clock.now chance.order with ⟨_, failed⟩ | ⟨w', l, done, allocated⟩
    · simpa only [World.perform, failed] using consistent
    · simpa only [World.perform, done] using
        (consistent.allocation free safe allocated).commit6 env req allocated.member chance.stored
          clock.later
  | commit4 l hostname =>
    have named : (w.setLease l fun lease => { lease with hostname }).Consistent :=
      consistent.setLease (consistent.known key l plans) rfl rfl
    exact named.update env plans chance.stored
  | commit6 l req instant => exact consistent.commit6 env req plans chance.stored _
  | block l => exact consistent.blockLease plans clock.now chance.stored
  | release l => exact consistent.remove env plans chance.stored

/-- The index knows leases by the address and the hostname that they have. -/
structure Indexed (env : Env) (w : World) : Prop where
  byAddr : ∀ ip l, w.index.byAddr.get ip = some l → l < w.heap.size ∧ (w.lease l).ip = ip
  byName : ∀ name l, w.index.byName.get name = some l →
    l < w.heap.size ∧ env.toLower (w.lease l).hostname = name

/-- The index does not know the lease, or knows it by the new hostname already. -/
def NameKept (env : Env) (w : World) (l : Ref) (hostname : String) : Prop :=
  w.index.byName.get (env.toLower (w.lease l).hostname) = some l →
    env.toLower hostname = env.toLower (w.lease l).hostname

/-- New entries have to be right. -/
theorem Indexed.congr (indexed : w.Indexed env) {other : World} (heap : other.heap = w.heap)
    (byAddr : ∀ ip l, other.index.byAddr.get ip = some l →
      w.index.byAddr.get ip = some l ∨ l < w.heap.size ∧ (w.lease l).ip = ip)
    (byName : ∀ name l, other.index.byName.get name = some l →
      w.index.byName.get name = some l ∨
        l < w.heap.size ∧ env.toLower (w.lease l).hostname = name) : other.Indexed env := by
  refine ⟨?_, ?_⟩
  · intro ip l found
    unfold lease
    rw [heap]
    rcases byAddr ip l found with old | new
    · exact indexed.byAddr ip l old
    · exact new
  · intro name l found
    unfold lease
    rw [heap]
    rcases byName name l found with old | new
    · exact indexed.byName name l old
    · exact new

/-- A rename that the index does not notice. -/
theorem Indexed.setLease (indexed : w.Indexed env) (known : l < w.heap.size)
    {change : Lease → Lease} (ip : (change (w.lease l)).ip = (w.lease l).ip)
    (kept : NameKept env w l (change (w.lease l)).hostname) :
    (w.setLease l change).Indexed env := by
  have written := lease_setLease w known change
  refine ⟨?_, ?_⟩
  · intro address other found
    obtain ⟨bound, here⟩ := indexed.byAddr address other found
    refine ⟨Nat.lt_of_lt_of_eq bound (size_setLease _ _ _).symm, ?_⟩
    rw [written, ← here]
    split
    · rename_i same
      rw [same, ip]
    · rfl
  · intro name other found
    obtain ⟨bound, here⟩ := indexed.byName name other found
    refine ⟨Nat.lt_of_lt_of_eq bound (size_setLease _ _ _).symm, ?_⟩
    rw [written]
    split
    · rename_i same
      subst same
      rw [← here] at found
      rw [← here]
      exact kept found
    · exact here

theorem Indexed.removed (indexed : w.Indexed env) (key : MacKey) (lease : Lease) :
    (w.removed env key lease).Indexed env := by
  refine indexed.congr rfl ?_ ?_
  · intro ip l found
    change (w.index.byAddr.delete lease.ip).get ip = some l at found
    exact .inl (FiniteMap.of_get_delete found).2
  · intro name l found
    change (w.index.byName.delete _).get name = some l at found
    exact .inl (FiniteMap.of_get_delete found).2

theorem Indexed.remove (indexed : w.Indexed env) (lease : Lease) (stored : Bool) :
    (w.remove env lease stored).1.Indexed env := by
  rcases remove_cases env w lease stored with same | ⟨key, _, _, _, _, _, result⟩
  · rwa [same]
  · rw [result]
    exact indexed.removed key lease

theorem Indexed.update (indexed : w.Indexed env) (known : l < w.heap.size)
    (stored : Bool) : (w.update env l stored).1.Indexed env := by
  rcases update_cases env w l stored with ⟨same, _⟩ | ⟨key, prev, _, _, _, _, result⟩
  · rwa [same]
  · rw [result]
    refine indexed.congr rfl ?_ ?_
    · intro ip other found
      change ((w.index.byAddr.delete _).set _ l).get ip = some other at found
      rw [FiniteMap.get_set, FiniteMap.get_delete] at found
      split at found
      · rename_i here
        obtain rfl := Option.some.inj found
        exact .inr ⟨known, here.symm⟩
      split at found
      · cases found
      · exact .inl found
    · intro name other found
      change ((w.index.byName.delete _).set _ l).get name = some other at found
      rw [FiniteMap.get_set, FiniteMap.get_delete] at found
      split at found
      · rename_i here
        obtain rfl := Option.some.inj found
        exact .inr ⟨known, here.symm⟩
      split at found
      · cases found
      · exact .inl found

theorem Indexed.added (indexed : w.Indexed env) (key : MacKey)
    (known : l < w.heap.size) : (w.added env key l).Indexed env := by
  refine indexed.congr rfl ?_ ?_
  · intro ip other found
    change (w.index.byAddr.set _ l).get ip = some other at found
    rcases FiniteMap.of_get_set found with ⟨here, rfl⟩ | ⟨_, before⟩
    · exact .inr ⟨known, here.symm⟩
    · exact .inl before
  · intro name other found
    change (w.index.byName.set _ l).get name = some other at found
    rcases FiniteMap.of_get_set found with ⟨here, rfl⟩ | ⟨_, before⟩
    · exact .inr ⟨known, here.symm⟩
    · exact .inl before

theorem Indexed.alloc (indexed : w.Indexed env) (object : Lease) {other : World}
    (heap : other.heap = (w.heap.alloc object).1) (index : other.index = w.index) :
    other.Indexed env := by
  have old : ∀ l, l < w.heap.size → other.lease l = w.lease l := by
    intro l bound
    unfold lease
    rw [heap, read_alloc, if_neg (Nat.ne_of_lt bound)]
  have grown : w.heap.size ≤ other.heap.size := by
    rw [heap, size_alloc]
    exact Nat.le_succ _
  refine ⟨?_, ?_⟩
  · intro ip l found
    rw [index] at found
    obtain ⟨bound, here⟩ := indexed.byAddr ip l found
    rw [old l bound]
    exact ⟨Nat.lt_of_lt_of_le bound grown, here⟩
  · intro name l found
    rw [index] at found
    obtain ⟨bound, here⟩ := indexed.byName name l found
    rw [old l bound]
    exact ⟨Nat.lt_of_lt_of_le bound grown, here⟩

theorem Indexed.commit6 (indexed : w.Indexed env) (req : DHCPv6) (known : l < w.heap.size)
    (kept : NameKept env w l (committedHostname env req (w.lease l))) (stored : Bool)
    (now : Time) : (w.commit6 env req l stored now).1.Indexed env := by
  have named : (w.setLease l fun lease =>
      committed env req lease now w.iface.leaseTTL).Indexed env := by
    refine indexed.setLease known (committed_ip ..) ?_
    rwa [committed_hostname]
  unfold World.commit6
  dsimp only
  have knownNamed : l < (w.setLease l fun lease =>
      committed env req lease now w.iface.leaseTTL).heap.size :=
    Nat.lt_of_lt_of_eq known (size_setLease _ _ _).symm
  have updated := named.update knownNamed stored
  split
  · rename_i w' done
    rwa [done] at updated
  · rename_i w' error failed
    rw [failed] at updated
    split
    · exact updated
    · exact updated.congr rfl (fun _ _ found => .inl found) fun _ _ found => .inl found

/-- The index forgets a lease before it goes to another client. -/
theorem Indexed.reassigned (indexed : w.Indexed env) (consistent : w.Consistent)
    {key k : MacKey} (now : Time) (member : w.iface.leases.get k = some l)
    (registered : Registered env w l) : (w.reassigned env key l now).Indexed env := by
  have removed := indexed.removed k (w.lease l)
  have changed : ((w.removed env k (w.lease l)).setLease l fun lease =>
      recycled lease key now w.iface.leaseTTL).Indexed env := by
    refine removed.setLease (consistent.known k l member) (recycled_ip ..) ?_
    intro found
    change (w.index.byName.delete (env.toLower (w.lease l).hostname)).get
      (env.toLower (w.lease l).hostname) = some l at found
    rw [FiniteMap.get_delete_self] at found
    cases found
  unfold World.reassigned
  rw [registered.remove consistent member true]
  exact changed.congr rfl (fun _ _ found => .inl found) fun _ _ found => .inl found

theorem Allocation.indexed {now : Time} {w' : World}
    (allocation : Allocation env w key now order w' l) (indexed : w.Indexed env)
    (consistent : w.Consistent) (recyclable : Recyclable env w now order) : w'.Indexed env := by
  cases allocation with
  | fresh found valid => exact indexed.alloc _ rfl rfl
  | recycled full expired =>
    obtain ⟨k, member, _⟩ := findExpiredLease_some expired
    exact indexed.reassigned consistent now member (recyclable full l expired)

/-- A lease that was just allocated has no name in the index. -/
theorem Allocation.unnamed {now : Time} {w' : World}
    (allocation : Allocation env w key now order w' l) (indexed : w.Indexed env)
    (consistent : w.Consistent) (recyclable : Recyclable env w now order) (name : String) :
    w'.index.byName.get name ≠ some l := by
  intro found
  cases allocation with
  | fresh _ _ => exact Nat.lt_irrefl _ (indexed.byName name _ found).1
  | recycled full expired =>
    obtain ⟨k, member, _⟩ := findExpiredLease_some expired
    unfold World.reassigned at found
    rw [(recyclable full l expired).remove consistent member true] at found
    change (w.index.byName.delete (env.toLower (w.lease l).hostname)).get name = some l at found
    obtain ⟨different, before⟩ := FiniteMap.of_get_delete found
    exact different (indexed.byName name l before).2.symm

/-- What an operation needs to keep the tables and the index right. -/
def Safe (env : Env) (w : World) (chance : Chance) (clock : Readings) : Operation → Prop
  | .nothing | .refresh _ | .release _ => True
  | .allocate _ | .allocateCommitted _ _ => Recyclable env w clock.now chance.order
  | .commit4 l hostname => NameKept env w l hostname
  | .commit6 l req _ => NameKept env w l (committedHostname env req (w.lease l))
  | .block l => NameKept env w l ""

theorem Safe.allocates {chance : Chance} {clock : Readings} {op : Operation}
    (safe : Safe env w chance clock op) : Allocates env w chance clock op := by
  cases op with
  | allocate k => exact safe
  | allocateCommitted k req => exact safe
  | nothing => trivial
  | refresh l => trivial
  | commit4 l hostname => trivial
  | commit6 l req instant => trivial
  | block l => trivial
  | release l => trivial

/-- What a message plans keeps the index right. -/
theorem Indexed.perform (indexed : w.Indexed env) (consistent : w.Consistent) {op : Operation}
    {chance : Chance} {clock : Readings} (plans : w.Plans key op)
    (safe : Safe env w chance clock op) : (w.perform env chance clock op).Indexed env := by
  cases op with
  | nothing => exact indexed
  | refresh l =>
    refine indexed.setLease (consistent.known key l plans) (Lease.updateExpiry_ip ..) ?_
    intro _
    rw [Lease.updateExpiry_hostname]
  | allocate k =>
    rcases allocate_cases env w k clock.now chance.order with ⟨_, failed⟩ | ⟨w', l, done, allocated⟩
    · simpa only [World.perform, failed] using indexed
    · simpa only [World.perform, done] using allocated.indexed indexed consistent safe
  | allocateCommitted k req =>
    obtain ⟨rfl, free⟩ := plans
    rcases allocate_cases env w k clock.now chance.order with ⟨_, failed⟩ | ⟨w', l, done, allocated⟩
    · simpa only [World.perform, failed] using indexed
    · have held := consistent.allocation free safe allocated
      have unnamed := allocated.unnamed indexed consistent safe
      simpa only [World.perform, done] using
        (allocated.indexed indexed consistent safe).commit6 req (held.known k l allocated.member)
          (fun found => absurd found (unnamed _)) chance.stored clock.later
  | commit4 l hostname =>
    have known := consistent.known key l plans
    have named : (w.setLease l fun lease => { lease with hostname }).Indexed env :=
      indexed.setLease known rfl safe
    exact named.update (Nat.lt_of_lt_of_eq known (size_setLease _ _ _).symm) chance.stored
  | commit6 l req instant =>
    exact indexed.commit6 req (consistent.known key l plans) safe chance.stored _
  | block l =>
    have known := consistent.known key l plans
    dsimp only [World.perform]
    unfold World.blockLease
    split
    · exact indexed
    · rename_i iface done
      have left : ({ w with iface } : World).Indexed env :=
        indexed.congr rfl (fun _ _ found => .inl found) fun _ _ found => .inl found
      exact left.setLease known rfl safe
  | release l => exact indexed.remove _ chance.stored

end World

end AdGuardHome.Dhcpsvc
