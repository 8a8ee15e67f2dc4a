import AdGuardHome.Dhcpsvc.Consistency
import AdGuardHome.Dhcpsvc.Interfaces

namespace AdGuardHome.Dhcpsvc

open Netip Heap

namespace World

variable {env : Env} {w : World}

/-- The static lease that the interface holds for a hardware address. -/
def static (w : World) (key : MacKey) : Option (Addr × HardwareAddr × String) :=
  (w.iface.leases.get key).bind fun l =>
    if (w.lease l).isStatic then
      some ((w.lease l).ip, (w.lease l).hwAddr, (w.lease l).hostname)
    else none

def KeysMatch (w : World) : Prop :=
  ∀ key l, w.iface.leases.get key = some l → (w.lease l).hwAddr = key.val

/-- The lease has the hardware address of its client, and under any other key it is not a
static one. -/
structure Own (w : World) (key : MacKey) (l : Ref) : Prop where
  hwAddr : (w.lease l).hwAddr = key.val
  shared : ∀ k, k ≠ key → w.iface.leases.get k = some l → (w.lease l).isStatic = false

variable {key : MacKey} {l : Ref}

theorem KeysMatch.own (matched : w.KeysMatch) (member : w.iface.leases.get key = some l) :
    w.Own key l where
  hwAddr := matched key l member
  shared := by
    intro k different here
    exact absurd (Subtype.ext ((matched k l here).symm.trans (matched key l member))) different

theorem static_of_dynamic (member : w.iface.leases.get key = some l)
    (dynamic : (w.lease l).isStatic = false) : w.static key = none := by
  simp [static, member, dynamic]

theorem static_of_free (free : w.iface.leases.get key = none) : w.static key = none := by
  simp [static, free]

theorem static_congr {other : World}
    (leases : other.iface.leases.get key = w.iface.leases.get key)
    (same : ∀ l, w.iface.leases.get key = some l → other.lease l = w.lease l) :
    other.static key = w.static key := by
  unfold static
  rw [leases]
  cases member : w.iface.leases.get key with
  | none => rfl
  | some l => simp only [Option.bind_some, same l member]

variable {k : MacKey}

/-- Writing to a lease changes no static lease of others. -/
theorem static_setLease (own : w.Own key l) (known : l < w.heap.size) (change : Lease → Lease)
    (dynamic : (w.lease l).isStatic = false → (change (w.lease l)).isStatic = false)
    (different : k ≠ key) : (w.setLease l change).static k = w.static k := by
  have written := lease_setLease w known change
  by_cases shared : w.iface.leases.get k = some l
  · have before := own.shared k different shared
    rw [static_of_dynamic shared before]
    refine static_of_dynamic shared ?_
    rw [written, if_pos rfl]
    exact dynamic before
  · refine static_congr rfl ?_
    intro other member
    rw [written, if_neg]
    rintro rfl
    exact shared member

theorem static_delete (w : World) {k gone : MacKey} (different : k ≠ gone) {other : World}
    (leases : other.iface.leases = w.iface.leases.delete gone) (heap : other.heap = w.heap) :
    other.static k = w.static k := by
  refine static_congr ?_ ?_
  · rw [leases, FiniteMap.get_delete, if_neg different]
  · intro l _
    unfold lease
    rw [heap]

theorem static_set (w : World) {k set : MacKey} (different : k ≠ set) {l : Ref} {other : World}
    (leases : other.iface.leases = w.iface.leases.set set l) (heap : other.heap = w.heap) :
    other.static k = w.static k := by
  refine static_congr ?_ ?_
  · rw [leases, FiniteMap.get_set, if_neg different]
  · intro l _
    unfold lease
    rw [heap]

theorem static_removeLease (own : w.Own key l) {iface : NetInterface}
    (done : w.iface.removeLease (w.lease l) = .ok iface) (different : k ≠ key) :
    ({ w with iface } : World).static k = w.static k := by
  obtain ⟨gone, _, owner, _, rfl⟩ := removeLease_ok done
  obtain rfl : gone = key := Subtype.ext (owner.trans own.hwAddr)
  exact static_delete w different rfl rfl

theorem static_remove (env : Env) (own : w.Own key l) (stored : Bool)
    (different : k ≠ key) : (w.remove env (w.lease l) stored).1.static k = w.static k := by
  rcases remove_cases env w (w.lease l) stored with same | ⟨gone, _, owner, _, _, _, result⟩
  · rw [same]
  · obtain rfl : gone = key := Subtype.ext (owner.trans own.hwAddr)
    rw [result]
    exact static_delete w different rfl rfl

theorem static_update (env : Env) (own : w.Own key l) (stored : Bool)
    (different : k ≠ key) : (w.update env l stored).1.static k = w.static k := by
  rcases update_cases env w l stored with ⟨same, _⟩ | ⟨set, _, owner, _, _, _, result⟩
  · rw [same]
  · obtain rfl : set = key := Subtype.ext (owner.trans own.hwAddr)
    rw [result]
    exact static_set w different rfl rfl

/-- A write that keeps the hardware address and what is dynamic. -/
theorem Own.setLease (own : w.Own key l) (known : l < w.heap.size) (change : Lease → Lease)
    (hwAddr : (change (w.lease l)).hwAddr = (w.lease l).hwAddr)
    (dynamic : (w.lease l).isStatic = false → (change (w.lease l)).isStatic = false) :
    (w.setLease l change).Own key l := by
  have written := (lease_setLease w known change l).trans (if_pos rfl)
  refine ⟨?_, ?_⟩
  · rw [written, hwAddr]
    exact own.hwAddr
  · intro k different here
    rw [written]
    exact dynamic (own.shared k different here)

theorem Own.removeLease (own : w.Own key l) {lease : Lease} {iface : NetInterface}
    (done : w.iface.removeLease lease = .ok iface) : ({ w with iface } : World).Own key l := by
  obtain ⟨gone, _, _, _, rfl⟩ := removeLease_ok done
  refine ⟨own.hwAddr, ?_⟩
  intro k different here
  change (w.iface.leases.delete gone).get k = some l at here
  exact own.shared k different (FiniteMap.of_get_delete here).2

theorem Own.update (own : w.Own key l) (env : Env) (stored : Bool) :
    (w.update env l stored).1.Own key l := by
  rcases update_cases env w l stored with ⟨same, _⟩ | ⟨set, _, owner, _, _, _, result⟩
  · rwa [same]
  · obtain rfl : set = key := Subtype.ext (owner.trans own.hwAddr)
    rw [result]
    refine ⟨own.hwAddr, ?_⟩
    intro k different here
    change (w.iface.leases.set set l).get k = some l at here
    rw [FiniteMap.get_set, if_neg different] at here
    exact own.shared k different here

theorem static_commit6 (own : w.Own key l) (known : l < w.heap.size) (req : DHCPv6)
    (stored : Bool) (now : Time) (different : k ≠ key) :
    (w.commit6 env req l stored now).1.static k = w.static k := by
  have dynamic : ∀ lease : Lease, lease.isStatic = false →
      (committed env req lease now w.iface.leaseTTL).isStatic = false := by
    intro lease before
    rw [committed_isStatic, before]
  have named := static_setLease own known
    (fun lease => committed env req lease now w.iface.leaseTTL) (dynamic _) different
  have ownNamed := own.setLease known
    (fun lease => committed env req lease now w.iface.leaseTTL) (committed_hwAddr ..) (dynamic _)
  unfold commit6
  dsimp only
  have updated := static_update env ownNamed stored different
  have ownUpdated := ownNamed.update env stored
  split
  · rename_i w' done
    rw [done] at updated
    exact updated.trans named
  · rename_i w' error failed
    rw [failed] at updated ownUpdated
    split
    · exact updated.trans named
    · rename_i iface removed
      exact (static_removeLease ownUpdated removed different).trans (updated.trans named)

/-- A client that gets a free address. -/
theorem static_withFresh (known : ∀ k l, w.iface.leases.get k = some l → l < w.heap.size)
    (free : w.iface.leases.get key = none) (ip : Addr) (now : Time) :
    (w.withFresh key ip now).Own key w.heap.size ∧
      w.heap.size < (w.withFresh key ip now).heap.size ∧
        ∀ k, (w.withFresh key ip now).static k = w.static k := by
  have new : ∀ object : Lease, (w.heap.alloc object).1.read w.heap.size = object := by
    intro object
    rw [read_alloc, if_pos rfl]
  have dynamic : ((w.withFresh key ip now).lease w.heap.size).isStatic = false :=
    congrArg Lease.isStatic (new _)
  refine ⟨⟨congrArg Lease.hwAddr (new _), fun _ _ _ => dynamic⟩,
    Nat.lt_of_lt_of_eq (Nat.lt_succ_self _) (size_alloc _ _).symm, ?_⟩
  intro k
  by_cases same : k = key
  · subst same
    rw [static_of_free free]
    exact static_of_dynamic (FiniteMap.get_set_self _ _ _) dynamic
  · refine static_congr ?_ ?_
    · change (w.iface.leases.set key w.heap.size).get k = _
      rw [FiniteMap.get_set, if_neg same]
    · intro other member
      change (w.heap.alloc _).1.read other = w.heap.read other
      rw [read_alloc, if_neg (Nat.ne_of_lt (known k other member))]

/-- The keys a removal keeps: all but that of the client. -/
theorem remove_get (env : Env) (own : w.Own key l) (stored : Bool) :
    (w.remove env (w.lease l) stored).1.iface.leases.get k = w.iface.leases.get k ∨
      k = key ∧ (w.remove env (w.lease l) stored).1.iface.leases.get k = none := by
  rcases remove_cases env w (w.lease l) stored with same | ⟨gone, _, owner, _, _, _, result⟩
  · rw [same]
    exact .inl rfl
  · obtain rfl : gone = key := Subtype.ext (owner.trans own.hwAddr)
    rw [result]
    change (w.iface.leases.delete gone).get k = _ ∨ _ ∧ (w.iface.leases.delete gone).get k = _
    rw [FiniteMap.get_delete]
    split
    · rename_i same
      exact .inr ⟨same, rfl⟩
    · exact .inl rfl

/-- A client that gets the expired lease of another. -/
theorem static_reassigned (matched : w.KeysMatch)
    (known : ∀ k l, w.iface.leases.get k = some l → l < w.heap.size) (now : Time)
    (free : w.iface.leases.get key = none) {owner : MacKey}
    (member : w.iface.leases.get owner = some l) (dynamic : (w.lease l).isStatic = false) :
    (w.reassigned env key l now).Own key l ∧ l < (w.reassigned env key l now).heap.size ∧
      ∀ k, (w.reassigned env key l now).static k = w.static k := by
  have own := matched.own member
  have heap := (remove_frame env w (w.lease l) true).1
  have bound : l < (w.remove env (w.lease l) true).1.heap.size := by
    rw [heap]
    exact known owner l member
  have changed := lease_setLease _ bound fun lease => World.recycled lease key now w.iface.leaseTTL
  have mine := (changed l).trans (if_pos rfl)
  have given : ((w.reassigned env key l now).lease l).isStatic = false := by
    refine (congrArg Lease.isStatic mine).trans ?_
    simp [World.recycled]
  refine ⟨⟨(congrArg Lease.hwAddr mine).trans (recycled_hwAddr ..), fun _ _ _ => given⟩,
    Nat.lt_of_lt_of_eq bound (size_setLease _ _ _).symm, ?_⟩
  intro k
  have after : (w.reassigned env key l now).iface.leases.get k =
      if k = key then some l else (w.remove env (w.lease l) true).1.iface.leases.get k :=
    FiniteMap.get_set _ _ _ _
  by_cases toClient : k = key
  · subst toClient
    rw [static_of_free free]
    exact static_of_dynamic (after.trans (if_pos rfl)) given
  rw [if_neg toClient] at after
  by_cases fromOwner : k = owner
  · subst fromOwner
    rw [static_of_dynamic member dynamic]
    rcases remove_get env own true (k := k) with kept | ⟨_, gone⟩
    · exact static_of_dynamic (after.trans (kept.trans member)) given
    · exact static_of_free (after.trans gone)
  · have kept := (remove_get env own true (k := k)).resolve_right fun gone => fromOwner gone.1
    refine static_congr (after.trans kept) ?_
    intro other there
    have apart : other ≠ l := by
      rintro rfl
      exact fromOwner (Subtype.ext ((matched k other there).symm.trans own.hwAddr))
    refine ((changed other).trans (if_neg apart)).trans ?_
    change (w.remove env (w.lease l) true).1.heap.read other = w.heap.read other
    rw [heap]

/-- An allocation changes no static lease: neither that of a client whose expired lease is
recycled nor one of the client that gets it. -/
theorem static_allocation (matched : w.KeysMatch)
    (known : ∀ k l, w.iface.leases.get k = some l → l < w.heap.size) {now : Time}
    {order : WalkOrder MacKey} {w' : World} (free : w.iface.leases.get key = none)
    (allocation : Allocation env w key now order w' l) :
    w'.Own key l ∧ l < w'.heap.size ∧ ∀ k, w'.static k = w.static k := by
  cases allocation with
  | @fresh ip found valid => exact static_withFresh known free ip now
  | recycled full expired =>
    obtain ⟨owner, member, dynamic, _⟩ := findExpiredLease_some expired
    exact static_reassigned matched known now free member dynamic

/-- What an operation needs to keep the static lease of the client itself. -/
def Spares (env : Env) (w : World) (chance : Chance) (clock : Readings) : Operation → Prop
  | .nothing | .refresh _ | .allocate _ | .allocateCommitted _ _ => True
  | .commit4 l hostname => (w.lease l).isStatic = true → (w.lease l).hostname = hostname
  | .commit6 l req instant => (w.lease l).isStatic = true →
    env.isValidHostname (w.lease l).hostname = true ∧
      (w.commit6 env req l chance.stored (clock.reading instant)).2 = .ok ()
  | .block l | .release l => (w.lease l).isStatic = false

/-- What a message plans changes no static lease but that of its client. -/
theorem static_perform (matched : w.KeysMatch)
    (known : ∀ k l, w.iface.leases.get k = some l → l < w.heap.size) {op : Operation}
    (plans : w.Plans key op) (chance : Chance) (clock : Readings)
    (different : k ≠ key) : (w.perform env chance clock op).static k = w.static k := by
  cases op with
  | nothing => rfl
  | refresh l =>
    refine static_setLease (matched.own plans) (known key l plans) _ ?_ different
    exact fun dynamic => (Lease.updateExpiry_isStatic ..).trans dynamic
  | allocate k' =>
    obtain ⟨rfl, free⟩ := plans
    rcases allocate_cases env w k' clock.now chance.order with ⟨_, failed⟩ | ⟨w', l, done, allocated⟩
    · simp only [perform, failed]
    · simpa only [perform, done] using (static_allocation matched known free allocated).2.2 k
  | allocateCommitted k' req =>
    obtain ⟨rfl, free⟩ := plans
    rcases allocate_cases env w k' clock.now chance.order with ⟨_, failed⟩ | ⟨w', l, done, allocated⟩
    · simp only [perform, failed]
    · obtain ⟨own, bound, kept⟩ := static_allocation matched known free allocated
      simp only [perform, done]
      exact (static_commit6 own bound req _ _ different).trans (kept k)
  | commit4 l hostname =>
    have own := matched.own plans
    have named := static_setLease own (known key l plans) (fun lease => { lease with hostname }) id
      different
    have ownNamed := own.setLease (known key l plans) (fun lease => { lease with hostname }) rfl id
    exact (static_update env ownNamed chance.stored different).trans named
  | commit6 l req instant =>
    exact static_commit6 (matched.own plans) (known key l plans) req _ _ different
  | block l =>
    dsimp only [perform]
    unfold blockLease
    split
    · rfl
    · rename_i iface done
      have own := matched.own plans
      have gone := static_removeLease own done different
      have left := own.removeLease done
      exact (static_setLease left (known key l plans) _ (fun _ => rfl) different).trans gone
  | release l => exact static_remove env (matched.own plans) chance.stored different

theorem static_setLease_own (member : w.iface.leases.get key = some l) (known : l < w.heap.size)
    (change : Lease → Lease)
    (isStatic : (change (w.lease l)).isStatic = (w.lease l).isStatic)
    (kept : (w.lease l).isStatic = true → (change (w.lease l)).ip = (w.lease l).ip ∧
      (change (w.lease l)).hwAddr = (w.lease l).hwAddr ∧
      (change (w.lease l)).hostname = (w.lease l).hostname) :
    (w.setLease l change).static key = w.static key := by
  have written := (lease_setLease w known change l).trans (if_pos rfl)
  have after : (w.setLease l change).iface.leases.get key = some l := member
  unfold static
  rw [member, after, Option.bind_some, Option.bind_some, written, isStatic]
  split
  · rename_i held
    obtain ⟨ip, hwAddr, hostname⟩ := kept held
    rw [ip, hwAddr, hostname]
  · rfl

theorem static_update_own (env : Env) (member : w.iface.leases.get key = some l)
    (stored : Bool) : (w.update env l stored).1.static key = w.static key := by
  refine static_congr ?_ ?_
  · rw [member, member_update env member]
  · intro other _
    unfold lease
    rw [heap_update]

/-- A commit of a dynamic lease leaves the client without a static one. -/
theorem static_commit6_dynamic (member : w.iface.leases.get key = some l)
    (known : l < w.heap.size) (dynamic : (w.lease l).isStatic = false) (req : DHCPv6)
    (stored : Bool) (now : Time) : (w.commit6 env req l stored now).1.static key = none := by
  obtain ⟨after, _, kept⟩ := commit6_stores env req stored now known member
  rcases kept with kept | ⟨_, gone⟩
  · refine static_of_dynamic kept ?_
    rw [after, committed_isStatic, dynamic]
  · exact static_of_free gone

/-- A message that spares its client keeps the client's own static lease too. -/
theorem static_perform_own (matched : w.KeysMatch)
    (known : ∀ k l, w.iface.leases.get k = some l → l < w.heap.size) {op : Operation}
    (plans : w.Plans key op) {chance : Chance} {clock : Readings}
    (spares : w.Spares env chance clock op) :
    (w.perform env chance clock op).static key = w.static key := by
  cases op with
  | nothing => rfl
  | refresh l =>
    exact static_setLease_own plans (known key l plans) _ (Lease.updateExpiry_isStatic ..)
      fun _ => ⟨Lease.updateExpiry_ip .., Lease.updateExpiry_hwAddr ..,
        Lease.updateExpiry_hostname ..⟩
  | allocate k' =>
    obtain ⟨rfl, free⟩ := plans
    rcases allocate_cases env w k' clock.now chance.order with ⟨_, failed⟩ | ⟨w', l, done, allocated⟩
    · simp only [perform, failed]
    · simpa only [perform, done] using (static_allocation matched known free allocated).2.2 k'
  | allocateCommitted k' req =>
    obtain ⟨rfl, free⟩ := plans
    rcases allocate_cases env w k' clock.now chance.order with ⟨_, failed⟩ | ⟨w', l, done, allocated⟩
    · simp only [perform, failed]
    · obtain ⟨bound, dynamic, _⟩ := allocated.lasts known
      simp only [perform, done]
      rw [static_commit6_dynamic allocated.member bound dynamic, static_of_free free]
  | commit4 l hostname =>
    have named := static_setLease_own plans (known key l plans)
      (fun lease => { lease with hostname }) rfl fun held => ⟨rfl, rfl, (spares held).symm⟩
    have memberNamed : (w.setLease l fun lease =>
        { lease with hostname }).iface.leases.get key = some l := plans
    exact (static_update_own env memberNamed chance.stored).trans named
  | commit6 l req instant =>
    dsimp only [perform]
    by_cases held : (w.lease l).isStatic = true
    · obtain ⟨valid, accepted⟩ := spares held
      obtain ⟨after, _, kept⟩ := commit6_stores env req chance.stored
        (clock.reading instant) (known key l plans) plans
      have kept := kept.resolve_right fun lost => lost.1 accepted
      unfold static
      rw [kept, Option.bind_some, after, show w.iface.leases.get key = some l from plans,
        Option.bind_some, committed_isStatic, committed_ip, committed_hwAddr, committed_hostname,
        committedHostname, if_pos valid]
    · have dynamic := Bool.eq_false_iff.mpr held
      rw [static_commit6_dynamic plans (known key l plans) dynamic,
        static_of_dynamic plans dynamic]
  | block l =>
    rw [static_of_dynamic plans spares]
    dsimp only [perform]
    unfold blockLease
    split
    · exact static_of_dynamic plans spares
    · rename_i iface done
      obtain ⟨gone, _, owner, _, rfl⟩ := removeLease_ok done
      obtain rfl : gone = key := Subtype.ext (owner.trans (matched key l plans))
      exact static_of_free (FiniteMap.get_delete_self _ _)
  | release l =>
    rw [static_of_dynamic plans spares]
    dsimp only [perform]
    rcases remove_cases env w (w.lease l) chance.stored with
      same | ⟨gone, _, owner, _, _, _, result⟩
    · rw [same]
      exact static_of_dynamic plans spares
    · obtain rfl : gone = key := Subtype.ext (owner.trans (matched key l plans))
      rw [result]
      exact static_of_free (FiniteMap.get_delete_self _ _)

end World

namespace DHCPServer

variable {env : Env} {s : DHCPServer}

/-- The static lease that an interface holds for a hardware address. -/
def static (s : DHCPServer) (id : IfaceID) (key : MacKey) :
    Option (Addr × HardwareAddr × String) :=
  (s.common id).bind fun iface => (s.world iface).static key

/-- What a message plans on one interface changes no static lease but that of its client. -/
theorem static_setWorld (owned : s.Owned) {id : IfaceID} {iface : NetInterface}
    (here : s.common id = some iface) (matched : (s.world iface).KeysMatch) {key : MacKey}
    {op : Operation} (plans : (s.world iface).Plans key op) {chance : Chance} {clock : Readings}
    {other : IfaceID} {k : MacKey}
    (spared : (other, k) ≠ (id, key) ∨ (s.world iface).Spares env chance clock op) :
    (s.setWorld id ((s.world iface).perform env chance clock op)).static other k =
      s.static other k := by
  have unchanged := World.local_perform env plans chance clock
  have known : ∀ k l, iface.leases.get k = some l → l < s.heap.size :=
    fun k l member => owned.known id iface k l here member
  unfold static
  rw [common_setWorld here]
  split
  · rename_i same
    subst same
    rw [here, Option.bind_some, Option.bind_some]
    have kept : ((s.world iface).perform env chance clock op).static k =
        (s.world iface).static k := by
      by_cases mine : k = key
      · subst mine
        exact World.static_perform_own matched known plans
          (spared.resolve_left fun different => different rfl)
      · exact World.static_perform matched known plans chance clock mine
    exact kept
  · rename_i different
    cases there : s.common other with
    | none => rfl
    | some iface' =>
      rw [Option.bind_some, Option.bind_some]
      refine World.static_congr rfl ?_
      intro l member
      exact owned.lease_setWorld here unchanged there different member

end DHCPServer

namespace System

variable {env : Env}

/-- The interface that gets a message and the hardware address that sent it. -/
def client : Event → Option (IfaceID × HardwareAddr)
  | .message4 i req _ _ => some (.v4 i, req.clientHWAddr)
  | .message6 i srcMAC _ _ _ => some (.v6 i, srcMAC.val)
  | _ => none

/-- What a message needs to keep the static lease of its client. -/
def Spares (env : Env) (s : System) : Event → Prop
  | .message4 i req chance delay => ∀ iface, s.server.interfaces4[i]? = some iface →
    (s.server.world iface.common).Spares env chance (s.readings delay)
      ((s.server.world iface.common).plan4 iface.conf req)
  | .message6 i srcMAC req chance delay => ∀ iface, s.server.interfaces6[i]? = some iface →
    (s.server.world iface.common).Spares env chance (s.readings delay)
      ((s.server.world iface.common).plan6 env iface.conf srcMAC req)
  | _ => True

/-- In every reachable state in which the interface that gets a message holds all leases
under their own hardware addresses, the message changes no static lease of any interface,
except that of its client there, and that one only if it does not spare it. -/
theorem static_leases_kept {conf : Config} {stored : List Lease} {clock : Time} {s : System}
    (reached : (machine env).Reachable (start env conf stored clock) s) {event : Event}
    {id : IfaceID} {mac : HardwareAddr} (sent : client event = some (id, mac))
    (matched : ∀ iface, s.server.common id = some iface → (s.server.world iface).KeysMatch)
    {other : IfaceID} {key : MacKey} (spared : (other, key.val) ≠ (id, mac) ∨ s.Spares env event) :
    ((machine env).next s event).server.static other key = s.server.static other key := by
  have owned := owned_reachable reached
  cases event with
  | addLease l stored => cases sent
  | updateStaticLease l stored => cases sent
  | removeLease l stored => cases sent
  | reset stored => cases sent
  | message4 i req chance delay =>
    obtain ⟨rfl, rfl⟩ := Prod.mk.inj (Option.some.inj sent)
    change (s.server.serve4 env i req chance (s.readings delay)).1.static other key = _
    cases found : s.server.interfaces4[i]? with
    | none => simp [DHCPServer.serve4, found]
    | some iface =>
      have here := DHCPServer.common_of_interfaces4 found
      rw [DHCPServer.serve4_server found]
      rcases World.plan4_plans iface.conf (s.server.world iface.common) req with
        idle | ⟨k, owner, plans⟩
      · rw [idle]
        have plans : (s.server.world iface.common).Plans key .nothing := trivial
        exact DHCPServer.static_setWorld owned here (matched _ here) plans (.inr trivial)
      · refine DHCPServer.static_setWorld owned here (matched _ here) plans ?_
        rcases spared with different | spares
        · left
          rw [← owner] at different
          intro same
          obtain ⟨rfl, rfl⟩ := Prod.mk.inj same
          exact different rfl
        · exact .inr (spares iface found)
  | message6 i srcMAC req chance delay =>
    obtain ⟨rfl, rfl⟩ := Prod.mk.inj (Option.some.inj sent)
    change (s.server.serve6 env i srcMAC req chance (s.readings delay)).1.static other key = _
    cases found : s.server.interfaces6[i]? with
    | none => simp [DHCPServer.serve6, found]
    | some iface =>
      have here := DHCPServer.common_of_interfaces6 found
      rw [DHCPServer.serve6_server found]
      refine DHCPServer.static_setWorld owned here (matched _ here)
        (World.plan6_plans env iface.conf _ srcMAC req) ?_
      rcases spared with different | spares
      · left
        intro same
        obtain ⟨rfl, rfl⟩ := Prod.mk.inj same
        exact different rfl
      · exact .inr (spares iface found)

def sampleConfig6 : IPv6Config := ⟨.v6 (0xFD00 <<< 112 ||| 1) "", 3600 * second⟩

def sampleNetwork6 : Config where
  interfaces4 := []
  interfaces6 := [(sampleConfig6, [1])]
  valid4 := by decide
  valid6 := by decide

def sampleStatic : Lease := ⟨.v6 (0xFD00 <<< 112 ||| 2) "", 0, "static", sampleMAC, true⟩

/-- A DHCPv6 message about the address `fd00::2`. -/
def sampleMessage6 (typ : BitVec 8) : Event :=
  .message6 0 ⟨sampleMAC, by decide⟩ ⟨typ, [⟨DHCPv6Option.clientID, [1]⟩, ⟨DHCPv6Option.serverID, [1]⟩,
    ⟨DHCPv6Option.iana, [0, 0, 0, 1, 0, 0, 0, 0, 0, 0, 0, 0, 0, 5, 0, 24, 0xFD, 0, 0, 0, 0, 0, 0, 0,
      0, 0, 0, 0, 0, 0, 0, 2, 0, 0, 0, 0, 0, 0, 0, 0]⟩]⟩ sampleChance ⟨0, 0⟩

def sampleReserved : System := start sampleEnv sampleNetwork6 [sampleStatic] 0

/-- A client renews its static lease. -/
theorem static_leases_kept_renewed :
    ((machine sampleEnv).next sampleReserved
      (sampleMessage6 DHCPv6MsgType.renew)).server.static (.v6 0) ⟨sampleMAC, by decide⟩ =
        sampleReserved.server.static (.v6 0) ⟨sampleMAC, by decide⟩ := by
  have only : ∀ iface, sampleReserved.server.common (.v6 0) = some iface →
      iface.leases.entries = [⟨⟨sampleMAC, by decide⟩, 0⟩] := by
    decide +kernel
  refine static_leases_kept ⟨[], rfl⟩ rfl ?matched (.inr ?spares)
  case matched =>
    intro iface found key l member
    have member : iface.leases.get key = some l := member
    have single : iface.leases = FiniteMap.set ∅ ⟨sampleMAC, by decide⟩ 0 :=
      AList.ext (only iface found)
    rw [single, FiniteMap.get_set] at member
    split at member
    · rename_i same
      obtain rfl := Option.some.inj member
      rw [same]
      change (sampleReserved.server.heap.read 0).hwAddr = sampleMAC
      decide +kernel
    · simp at member
  case spares =>
    intro iface found
    obtain rfl := Option.some.inj found
    exact fun _ => by decide +kernel

/-- A client releases its static lease. -/
theorem release_removes_static :
    ¬ ∀ (env : Env) (conf : Config) (stored : List Lease) (clock : Time) (s : System),
      (machine env).Reachable (start env conf stored clock) s →
        ∀ event sender, client event = some sender → ∀ id key,
          ((machine env).next s event).server.static id key = s.server.static id key := by
  intro claim
  have kept := claim sampleEnv sampleNetwork6 [sampleStatic] 0 sampleReserved ⟨[], rfl⟩
    (sampleMessage6 DHCPv6MsgType.release) _ rfl (.v6 0) ⟨sampleMAC, by decide⟩
  revert kept
  decide +kernel

end System

end AdGuardHome.Dhcpsvc
