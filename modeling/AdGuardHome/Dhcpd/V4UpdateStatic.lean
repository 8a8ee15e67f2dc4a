import AdGuardHome.Dhcpd.V4AddStatic

namespace AdGuardHome.Dhcpd

open Netip Heap
open Dhcpsvc (Lease)

namespace V4Server

/-- What updating a static lease promises: an error changes nothing, and otherwise the lease with
the hardware address is replaced by the argument, with its normalized hostname. -/
structure UpdatesStatic (env : Env) (s : V4Server) (l : Lease) (t : V4Server)
    (result : Except Error Unit) : Prop where
  failed : result ≠ .ok () → Unchanged s t
  updated : result = .ok () → ∃ (i : Nat) (old new : Ref) (hostname : String),
    normalizeHostname env l.hostname = .ok hostname ∧
    s.leases[i]? = some old ∧ (s.lease old).hwAddr = l.hwAddr ∧
    t.leases = s.leases.eraseIdx i ++ [new] ∧ t.lease new = { l with hostname } ∧
    t.ipIndex.get l.ip = some new ∧ (hostname ≠ "" → t.hostsIndex.get hostname = some new) ∧
    ∀ y ∈ s.leases.eraseIdx i, t.lease y = s.lease y ∧ s.shares { l with hostname } y = false

def firstWithIP (s : V4Server) (ip : Addr) : Option Nat :=
  s.leases.findIdx? fun x => (s.lease x).ip == ip

/-- A lease can take the place of the one at an index: it is static or in the range, its hostname
is empty, unknown to the index or that of the old lease, and no other lease shares anything. -/
structure Replaceable (s : V4Server) (lease : Lease) (i : Nat) (old : Ref) : Prop where
  placed : lease.isStatic = true ∨ (s.conf.ipRange.offset lease.ip).isSome = true
  named : lease.hostname = "" ∨ (s.hostsIndex.get lease.hostname).isSome = false ∨
    (s.lease old).hostname = lease.hostname
  alone : ∀ y ∈ s.leases.eraseIdx i, s.shares lease y = false

/-- Where the lease is found and valid, and the first lease with the IP of the one found agrees
with that one, it can be replaced. -/
def Updatable (env : Env) (s : V4Server) (l : Lease) : Prop :=
  ∀ found hostname i old, s.findLease l.hwAddr = some found →
    s.validateStaticLease env l = .ok hostname →
    s.firstWithIP (s.lease found).ip = some i → s.leases[i]? = some old →
    (s.lease old).hwAddr = (s.lease found).hwAddr →
    (s.lease old).hostname = (s.lease found).hostname →
    s.Replaceable { l with hostname } i old

variable {env : Env} {s : V4Server} {l : Lease}

theorem Unchanged.refl (s : V4Server) : Unchanged s s := ⟨rfl, fun _ _ => rfl, rfl, rfl, rfl⟩

theorem validateStaticLease_hostname {hostname : String}
    (valid : s.validateStaticLease env l = .ok hostname) :
    normalizeHostname env l.hostname = .ok hostname := by
  unfold validateStaticLease at valid
  split at valid
  · cases valid
  next normal =>
    repeat' split at valid
    all_goals cases valid
    exact normal

theorem addLease_ok_iff (t : V4Server) (x : Ref) :
    (t.addLease x).2 = .ok () ↔ admits t.conf (t.lease x) = true ∧
      ((t.lease x).hostname = "" ∨ (t.hostsIndex.get (t.lease x).hostname).isSome = false) := by
  unfold addLease admits
  dsimp only
  cases static : (t.lease x).isStatic with
  | true =>
    cases inside : t.conf.subnet.contains (t.lease x).ip with
    | true =>
      by_cases empty : (t.lease x).hostname = ""
      · simp [empty]
      · cases known : t.hostsIndex.get (t.lease x).hostname with
        | none => simp [empty]
        | some other => simp [empty]
    | false => simp
  | false =>
    cases inside : t.conf.ipRange.offset (t.lease x).ip with
    | none => simp
    | some offset =>
      by_cases empty : (t.lease x).hostname = ""
      · simp [empty]
      · cases known : t.hostsIndex.get (t.lease x).hostname with
        | none => simp [empty]
        | some other => simp [empty]

/-- Both indexes lead to a lease that was added. -/
theorem addLease_indexes {t : V4Server} {x : Ref} (added : (t.addLease x).2 = .ok ()) :
    (t.addLease x).1.ipIndex.get (t.lease x).ip = some x ∧
      ((t.lease x).hostname ≠ "" → (t.addLease x).1.hostsIndex.get (t.lease x).hostname = some x) := by
  revert added
  unfold addLease
  dsimp only
  split
  · exact fun added => nomatch added
  split
  · exact fun added => nomatch added
  split
  · exact fun added => nomatch added
  · intro _
    refine ⟨FiniteMap.get_set_self _ _ _, ?_⟩
    intro named
    dsimp only
    rw [if_pos named]
    exact FiniteMap.get_set_self _ _ _

/-- `rmLease` of a lease of the table looks at the first one with its IP. -/
theorem rmLease_first {found : Ref} (member : found ∈ s.leases) :
    ∃ i old, s.firstWithIP (s.lease found).ip = some i ∧ s.leases[i]? = some old ∧
      s.rmLease found =
        if (s.lease old).hwAddr ≠ (s.lease found).hwAddr ∨
            (s.lease old).hostname ≠ (s.lease found).hostname then
          (s, .error (.differentLease (s.lease old).ip))
        else (s.rmLeaseByIndex i, .ok ()) := by
  unfold rmLease
  rw [if_neg (List.ne_nil_of_mem member)]
  cases search : s.firstWithIP (s.lease found).ip with
  | none =>
    have missing := List.findIdx?_eq_none_iff.mp search found member
    simp at missing
  | some i =>
    obtain ⟨bound, _⟩ := List.findIdx?_eq_some_iff_getElem.mp search
    have here : s.leases[i]? = some s.leases[i] := List.getElem?_eq_getElem bound
    refine ⟨i, s.leases[i], rfl, here, ?_⟩
    unfold firstWithIP at search
    rw [search]
    simp [List.getD_eq_getElem?_getD, here]

/-- The server when the old lease is gone and the new one is stored. -/
structure Removed (s v : V4Server) (lease : Lease) (i : Nat) (old : Ref) : Prop where
  conf : v.conf = s.conf
  leases : v.leases = s.leases.eraseIdx i
  hostsIndex : v.hostsIndex = s.hostsIndex.delete (s.lease old).hostname
  new : v.lease s.heap.size = lease
  objects : ∀ y ∈ s.leases, v.lease y = s.lease y

theorem removed (known : ∀ x ∈ s.leases, x < s.heap.size) (lease : Lease) {i : Nat} {old : Ref}
    (here : s.leases[i]? = some old) :
    Removed s ((s.rmLeaseByIndex i).withObject lease) lease i old := by
  obtain ⟨conf, heap⟩ := rmLeaseByIndex_frame s i
  have size : (s.rmLeaseByIndex i).heap.size = s.heap.size := by rw [heap]
  refine ⟨conf, rmLeaseByIndex_leases s i, ?_, ?_, ?_⟩
  · simp [withObject, rmLeaseByIndex, here]
  · rw [← size]
    exact withObject_new _ lease
  · intro y member
    have different : y ≠ (s.rmLeaseByIndex i).heap.size := by
      rw [size]
      exact Nat.ne_of_lt (known y member)
    rw [withObject, lease_alloc, if_neg different, rmLeaseByIndex_lease]

/-- The new lease is taken in exactly if it has a place and a name of its own. -/
theorem Removed.ok_iff {v : V4Server} {lease : Lease} {i : Nat} {old : Ref}
    (removed : Removed s v lease i old) (inSubnet : s.conf.subnet.contains lease.ip = true) :
    (v.addLease s.heap.size).2 = .ok () ↔
      (lease.isStatic = true ∨ (s.conf.ipRange.offset lease.ip).isSome = true) ∧
      (lease.hostname = "" ∨ (s.hostsIndex.get lease.hostname).isSome = false ∨
        (s.lease old).hostname = lease.hostname) := by
  rw [addLease_ok_iff, removed.new, removed.conf, removed.hostsIndex, FiniteMap.get_delete]
  apply and_congr
  · unfold admits
    cases static : lease.isStatic with
    | true => simpa using inSubnet
    | false => simp
  · apply or_congr_right
    by_cases same : lease.hostname = (s.lease old).hostname
    · simp [same]
    · simp [same, Ne.symm same]

/-- Without its place or its name the new lease is refused when the old one is gone. -/
theorem Removed.lost {v : V4Server} {lease : Lease} {i : Nat} {old : Ref}
    (removed : Removed s v lease i old) (here : s.leases[i]? = some old)
    (refused : (v.addLease s.heap.size).2 ≠ .ok ()) :
    ¬Unchanged s (v.addLease s.heap.size).1 := by
  intro unchanged
  have same := unchanged.leases
  rcases addLease_cases v s.heap.size with ⟨stays, _⟩ | ⟨_, added, _⟩
  · rw [stays, removed.leases] at same
    have shorter := List.length_eraseIdx_of_lt (List.getElem?_eq_some_iff.mp here).1
    rw [same] at shorter
    have bound := (List.getElem?_eq_some_iff.mp here).1
    omega
  · exact refused added

theorem Removed.updates_iff {v : V4Server} {i : Nat} {old : Ref} {hostname : String}
    (removed : Removed s v { l with hostname } i old) (here : s.leases[i]? = some old)
    (mac : (s.lease old).hwAddr = l.hwAddr)
    (normal : normalizeHostname env l.hostname = .ok hostname)
    (inSubnet : s.conf.subnet.contains l.ip = true) :
    UpdatesStatic env s l (v.addLease s.heap.size).1 (v.addLease s.heap.size).2 ↔
      s.Replaceable { l with hostname } i old := by
  have taken := removed.ok_iff inSubnet
  cases outcome : (v.addLease s.heap.size).2 with
  | error error =>
    have refused : (v.addLease s.heap.size).2 ≠ .ok () := by simp [outcome]
    constructor
    · intro updates
      exact absurd (updates.failed (by simp)) (removed.lost here refused)
    · intro replaceable
      exact absurd (taken.mpr ⟨replaceable.placed, replaceable.named⟩) refused
  | ok done =>
    obtain ⟨placed, named⟩ := taken.mp outcome
    have leases : (v.addLease s.heap.size).1.leases = s.leases.eraseIdx i ++ [s.heap.size] := by
      rcases addLease_cases v s.heap.size with ⟨_, failed⟩ | ⟨appended, _, _⟩
      · exact absurd outcome failed
      · rw [appended, removed.leases]
    constructor
    · intro updates
      refine ⟨placed, named, ?_⟩
      obtain ⟨j, other, new, name, sameName, _, _, replaced, _, _, _, alone⟩ := updates.updated rfl
      rw [leases] at replaced
      obtain ⟨rest, _⟩ := List.append_inj' replaced rfl
      rw [normal] at sameName
      obtain rfl := Except.ok.inj sameName
      intro y member
      exact (alone y (rest ▸ member)).2
    · intro replaceable
      obtain ⟨byIP, byName⟩ := addLease_indexes outcome
      rw [removed.new] at byIP byName
      refine ⟨fun failed => absurd rfl failed, fun _ => ?_⟩
      refine ⟨i, old, s.heap.size, hostname, normal, here, mac, leases, ?_, byIP, byName, ?_⟩
      · rw [addLease_lease, removed.new]
      · intro y member
        refine ⟨?_, replaceable.alone y member⟩
        rw [addLease_lease, removed.objects y ((List.eraseIdx_sublist _ _).subset member)]

/-- An update keeps its promises exactly where the lease that it would remove can be replaced. -/
theorem updateStaticLease_updatable_iff (known : ∀ x ∈ s.leases, x < s.heap.size) :
    UpdatesStatic env s l (s.updateStaticLeaseAPI env l).1 (s.updateStaticLeaseAPI env l).2 ↔
      s.Updatable env l := by
  have stays : ∀ {error : Error},
      UpdatesStatic env s l s (.error error) := fun {error} =>
    ⟨fun _ => Unchanged.refl s, fun success => nomatch success⟩
  unfold updateStaticLeaseAPI
  cases lookup : s.findLease l.hwAddr with
  | none => exact iff_of_true stays fun found hostname i old here => nomatch lookup.symm.trans here
  | some found =>
    cases valid : s.validateStaticLease env l with
    | error error =>
      apply iff_of_true stays
      intro other hostname i old _ validates
      exact nomatch valid.symm.trans validates
    | ok hostname =>
      have member : found ∈ s.leases := List.mem_of_find?_eq_some lookup
      have mac : (s.lease found).hwAddr = l.hwAddr := by simpa using List.find?_some lookup
      obtain ⟨i, old, first, here, removes⟩ := rmLease_first member
      dsimp only
      by_cases differs : (s.lease old).hwAddr ≠ (s.lease found).hwAddr ∨
          (s.lease old).hostname ≠ (s.lease found).hostname
      · rw [removes, if_pos differs]
        apply iff_of_true stays
        intro other name j stored finds _ firstAgain storedAt sameMAC sameName
        obtain rfl := Option.some.inj (lookup.symm.trans finds)
        obtain rfl := Option.some.inj (first.symm.trans firstAgain)
        obtain rfl := Option.some.inj (here.symm.trans storedAt)
        rcases differs with byMAC | byName
        · exact absurd sameMAC byMAC
        · exact absurd sameName byName
      · rw [removes, if_neg differs]
        have agrees := not_or.mp differs
        have sameMAC := not_not.mp agrees.1
        have sameName := not_not.mp agrees.2
        have gone := removed known { l with hostname } here
        have size : (s.rmLeaseByIndex i).heap.size = s.heap.size := by
          rw [(rmLeaseByIndex_frame s i).2]
        have updates := gone.updates_iff here (sameMAC.trans mac)
          (validateStaticLease_hostname valid) (validateStaticLease_spec valid).1
        dsimp only [alloc_ref]
        rw [← withObject, size]
        apply updates.trans
        constructor
        · intro replaceable other name j stored finds validates firstAgain storedAt _ _
          obtain rfl := Except.ok.inj (valid.symm.trans validates)
          obtain rfl := Option.some.inj (lookup.symm.trans finds)
          obtain rfl := Option.some.inj (first.symm.trans firstAgain)
          obtain rfl := Option.some.inj (here.symm.trans storedAt)
          exact replaceable
        · intro updatable
          exact updatable found hostname i old lookup valid first here sameMAC sameName

section Examples

private def lenientEnv : Env :=
  ⟨id, fun _ => true, fun _ => true, fun mac => mac.length == 6⟩

private theorem small_zoneless : (Addr.v4 0xc0a80101).zone = "" := rfl

private theorem small_is4 : (⟨.v4 0xc0a80101, 24, small_zoneless⟩ : Prefix).addr.is4 = true := rfl

private theorem small_ordered : (0xc0a80164 : BitVec 32) < 0xc0a80165 := by decide

private def smallSubnet : V4ServerConf where
  gatewayIP := .v4 0xc0a80101
  subnet := ⟨.v4 0xc0a80101, 24, small_zoneless⟩
  subnet4 := small_is4
  ipRange := ⟨0xc0a80164, 0xc0a80165, small_ordered⟩
  leaseTime := 3600
  dnsIPAddr := 0xc0a80101

private def laptop (isStatic : Bool) (hostname : String) : Lease :=
  ⟨.v4 0xc0a80164, 0, hostname, [2, 0, 0, 0, 0, 1], isStatic⟩

private def desktop (hostname : String) : Lease :=
  ⟨.v4 0xc0a80165, 0, hostname, [2, 0, 0, 0, 0, 2], true⟩

private def twoStatic : V4Server :=
  (machine lenientEnv).run (new smallSubnet)
    [.resetLeases [laptop true "pc"], .addStaticLease (desktop "printer")]

/-- One of two static leases gets another name. -/
theorem updateStaticLease_updatable_rename :
    UpdatesStatic lenientEnv twoStatic (laptop true "nas")
        (twoStatic.updateStaticLeaseAPI lenientEnv (laptop true "nas")).1
        (twoStatic.updateStaticLeaseAPI lenientEnv (laptop true "nas")).2 ∧
      (twoStatic.updateStaticLeaseAPI lenientEnv (laptop true "nas")).2 = .ok () := by
  refine ⟨(updateStaticLease_updatable_iff (by decide)).mpr ?_, by decide⟩
  intro found hostname i old lookup valid first here _ _
  obtain rfl := Option.some.inj lookup
  obtain rfl := Except.ok.inj valid
  obtain rfl := Option.some.inj first
  obtain rfl := Option.some.inj here
  exact ⟨.inl rfl, .inr (.inl (by decide)), by decide⟩

/-- A lease whose hostname was emptied, and stays in the index, is lost when it is to get the
hostname back. -/
theorem update_loses_lease : ¬∀ (events : List Event) (l : Lease),
    UpdatesStatic lenientEnv ((machine lenientEnv).run (new smallSubnet) events) l
      (((machine lenientEnv).run (new smallSubnet) events).updateStaticLeaseAPI lenientEnv l).1
      (((machine lenientEnv).run (new smallSubnet) events).updateStaticLeaseAPI lenientEnv l).2 := by
  intro updates
  have atomic := updates [.resetLeases [laptop false "pc"], .addStaticLease (desktop "pc")]
    (laptop true "pc")
  have kept := (atomic.failed (by decide)).leases
  revert kept
  decide

end Examples

end V4Server

end AdGuardHome.Dhcpd
