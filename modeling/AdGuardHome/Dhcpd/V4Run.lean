import AdGuardHome.Dhcpd.V4Removal

namespace AdGuardHome.Dhcpd

open Netip Heap
open Dhcpsvc (Lease Time Duration)

namespace V4Server

variable {env : Env} {s : V4Server}

def Unbound (s : V4Server) (l : Ref) (mac : HardwareAddr) : Prop :=
  ∀ other ∈ s.leases, other ≠ l → (s.lease other).hwAddr = mac →
    isBlocklisted (s.lease other) = true

def Free (s : V4Server) (mac : HardwareAddr) : Prop :=
  ∀ other ∈ s.leases, (s.lease other).hwAddr = mac → isBlocklisted (s.lease other) = true

/-- The leases that the reservations for one message may recycle: without conflicts the
first expired one when no address is free, and else any that has expired at one of the
reservations. -/
def Recyclable (s : V4Server) (now : Time) (conflicts : List Conflict) (l : Ref) : Prop :=
  if conflicts = [] then s.nextIP = none ∧ s.findExpiredLease now = some l
  else l ∈ s.leases ∧ (s.lease l).isStatic = false ∧
    ∃ time ∈ now :: conflicts.map (·.reservedAt), (s.lease l).expiry < time

/-- Recycling copies the hardware address over the old one, which may be longer or
shorter. What comes out is not needed by another lease; after a conflict the blocked
address may be overwritten as well. -/
structure Reservable (s : V4Server) (mac : HardwareAddr) (now : Time)
    (conflicts : List Conflict) : Prop where
  recycled : ∀ l, s.Recyclable now conflicts l →
    s.Unbound l (copyBytes (s.lease l).hwAddr mac)
  blocked : conflicts ≠ [] → s.Free (copyBytes (List.replicate defaultHwAddrLen 0) mac)

variable {l : Ref} {mac : HardwareAddr} {req : Message}

theorem findExpiredLease_spec {now : Time} (found : s.findExpiredLease now = some l) :
    l ∈ s.leases ∧ (s.lease l).isStatic = false ∧ (s.lease l).expiry < now := by
  have holds := List.find?_some found
  simp only [Bool.and_eq_true, Bool.not_eq_true', decide_eq_true_eq] at holds
  exact ⟨List.mem_of_find?_eq_some found, holds⟩

theorem Recyclable.spec {now : Time} {conflicts : List Conflict}
    (recyclable : s.Recyclable now conflicts l) :
    l ∈ s.leases ∧ (s.lease l).isStatic = false ∧
      ∃ time ∈ now :: conflicts.map (·.reservedAt), (s.lease l).expiry < time := by
  unfold Recyclable at recyclable
  split at recyclable
  · obtain ⟨member, dynamic, expired⟩ := findExpiredLease_spec recyclable.2
    exact ⟨member, dynamic, now, by simp, expired⟩
  · exact recyclable

theorem addLease_frame (s : V4Server) (l : Ref) :
    (s.addLease l).1.conf = s.conf ∧ (s.addLease l).1.heap = s.heap := by
  unfold addLease
  dsimp only
  split
  · exact ⟨rfl, rfl⟩
  split
  · exact ⟨rfl, rfl⟩
  split
  · exact ⟨rfl, rfl⟩
  · exact ⟨rfl, rfl⟩

@[simp] theorem addLease_lease (s : V4Server) (l other : Ref) :
    (s.addLease l).1.lease other = s.lease other := by
  rw [lease, lease, (addLease_frame s l).2]

/-- The leases that `addLease` has a place for. -/
def admits (conf : V4ServerConf) (l : Lease) : Bool :=
  if l.isStatic then conf.subnet.contains l.ip else (conf.ipRange.offset l.ip).isSome

theorem addLease_cases (s : V4Server) (l : Ref) :
    ((s.addLease l).1 = s ∧ (s.addLease l).2 ≠ .ok ()) ∨
      (s.addLease l).1.leases = s.leases ++ [l] ∧ (s.addLease l).2 = .ok () ∧
        admits s.conf (s.lease l) = true := by
  unfold addLease admits
  dsimp only
  split
  · exact .inl ⟨rfl, by simp⟩
  rename_i inSubnet
  split
  · exact .inl ⟨rfl, by simp⟩
  rename_i inRange
  split
  · exact .inl ⟨rfl, by simp⟩
  · refine .inr ⟨rfl, rfl, ?_⟩
    cases static : (s.lease l).isStatic with
    | true => simpa [static] using inSubnet
    | false => simpa [static, Option.isSome_iff_ne_none] using inRange

theorem Consistent.nextIP (consistent : s.Consistent) {ip : Addr} (found : s.nextIP = some ip) :
    ip.is4 = true ∧ (s.conf.ipRange.offset ip).isSome ∧
      ∀ other ∈ s.leases, (s.lease other).ip ≠ ip := by
  obtain ⟨four, inRange⟩ := s.conf.ipRange.mem_addrs (List.mem_of_find?_eq_some found)
  refine ⟨four, inRange, ?_⟩
  obtain ⟨offset, at_offset⟩ := Option.isSome_iff_exists.mp inRange
  have unset : s.leasedOffsets.isSet offset = false := by
    have holds := List.find?_some found
    simpa [at_offset] using holds
  intro other member here
  have set := (consistent.offsets ip offset four at_offset).mpr ⟨other, member, here⟩
  rw [unset] at set
  cases set

/-- One reservation changes or adds at most the lease that it returns. -/
theorem Consistent.reserveLease (consistent : s.Consistent) (now : Time) (free : s.Free mac)
    (recycled : s.nextIP = none → ∀ l, s.findExpiredLease now = some l →
      s.Unbound l (copyBytes (s.lease l).hwAddr mac)) :
    (s.reserveLease mac now).1.Consistent ∧
      ∀ l, (s.reserveLease mac now).2 = .ok (some l) →
        l ∈ (s.reserveLease mac now).1.leases ∧
          ∀ other ∈ (s.reserveLease mac now).1.leases, other ≠ l →
            other ∈ s.leases ∧ (s.reserveLease mac now).1.lease other = s.lease other := by
  unfold V4Server.reserveLease
  cases next : s.nextIP with
  | none =>
    dsimp only
    cases expired : s.findExpiredLease now with
    | none => exact ⟨consistent, by simp⟩
    | some l =>
      have member := (findExpiredLease_spec expired).1
      have known := consistent.known l member
      refine ⟨consistent.rebind known rfl (recycled next l expired), ?_⟩
      intro here result
      obtain rfl : l = here := by simpa using result
      refine ⟨member, ?_⟩
      intro other present different
      rw [lease_setLease known, if_neg different]
      exact ⟨present, rfl⟩
  | some ip =>
    obtain ⟨four, inRange, unused⟩ := consistent.nextIP next
    dsimp only [alloc_ref]
    rw [← withObject]
    have added : ((s.withObject ⟨ip, 0, "", mac, false⟩).addLease s.heap.size).1.Consistent :=
      (consistent.alloc _).addLease fun _ =>
        consistent.fits_withObject four unused free (.inl inRange)
    have frame := addLease_lease (s.withObject ⟨ip, 0, "", mac, false⟩) s.heap.size
    have attempts := addLease_cases (s.withObject ⟨ip, 0, "", mac, false⟩) s.heap.size
    cases attempt : (s.withObject ⟨ip, 0, "", mac, false⟩).addLease s.heap.size with
    | mk u result =>
      rw [attempt] at added frame attempts
      cases result with
      | error error => exact ⟨added, by simp⟩
      | ok done =>
        refine ⟨added, ?_⟩
        intro l returned
        obtain rfl : s.heap.size = l := by simpa using returned
        have leases : u.leases = s.leases ++ [s.heap.size] := by
          rcases attempts with ⟨_, failed⟩ | ⟨appended, _⟩
          · exact absurd rfl failed
          · exact appended
        refine ⟨by simp [leases], ?_⟩
        intro other member different
        rw [leases, List.mem_append, List.mem_singleton] at member
        rcases member with before | last
        · exact ⟨before, (frame other).trans (consistent.withObject_old _ before)⟩
        · exact absurd last different

theorem Consistent.blocklistLease (consistent : s.Consistent) (known : l < s.heap.size)
    (now : Time) : (s.blocklistLease l now).Consistent := by
  refine consistent.rebind known rfl ?_
  intro other _ _ zeros
  rw [isBlocklisted, zeros]
  rfl

/-- Reserving one address after another, as long as the pings are answered. -/
theorem Consistent.allocateLease {now : Time} {conflicts : List Conflict}
    (consistent : s.Consistent) (free : s.Free mac) (reservable : s.Reservable mac now conflicts) :
    (s.allocateLease mac now conflicts).1.Consistent := by
  induction conflicts generalizing s with
  | nil =>
    refine (consistent.reserveLease now free ?_).1
    intro full l expired
    exact reservable.recycled l (by simp [Recyclable, full, expired])
  | cons conflict rest ih =>
    unfold V4Server.allocateLease
    have reserved := consistent.reserveLease conflict.reservedAt free (by
      intro _ l expired
      obtain ⟨member, dynamic, old⟩ := findExpiredLease_spec expired
      exact reservable.recycled l (by simp [Recyclable, member, dynamic, old]))
    cases attempt : s.reserveLease mac conflict.reservedAt with
    | mk t result =>
      rw [attempt] at reserved
      obtain ⟨stored, returned⟩ := reserved
      match result with
      | .error error => exact stored
      | .ok none => exact stored
      | .ok (some l) =>
        obtain ⟨member, others⟩ := returned l rfl
        have known := stored.known l member
        have zeros : ((t.blocklistLease l conflict.blockedAt).lease l).hwAddr =
            List.replicate defaultHwAddrLen 0 := by
          rw [V4Server.blocklistLease, lease_setLease known, if_pos rfl]
        have blocked : isBlocklisted ((t.blocklistLease l conflict.blockedAt).lease l) = true := by
          rw [isBlocklisted, zeros]
          rfl
        have untouched : ∀ other ∈ t.leases, other ≠ l → other ∈ s.leases ∧
            (t.blocklistLease l conflict.blockedAt).lease other = s.lease other := by
          intro other present different
          obtain ⟨old, same⟩ := others other present different
          rw [V4Server.blocklistLease, lease_setLease known, if_neg different]
          exact ⟨old, same⟩
        have frees : ∀ mac, s.Free mac → (t.blocklistLease l conflict.blockedAt).Free mac := by
          intro mac free other present here
          by_cases isL : other = l
          · rw [isL]
            exact blocked
          · obtain ⟨old, same⟩ := untouched other present isL
            rw [same] at here ⊢
            exact free other old here
        refine ih (stored.blocklistLease known _) (frees mac free) ⟨?_, ?_⟩
        · intro recycled recyclable other present different here
          obtain ⟨inTable, dynamic, time, listed, expired⟩ := recyclable.spec
          by_cases again : recycled = l
          · subst again
            rw [zeros] at here
            exact frees _ (reservable.blocked (by simp)) other present here
          · obtain ⟨old, same⟩ := untouched recycled inTable again
            rw [same] at here dynamic expired
            by_cases isL : other = l
            · rw [isL]
              exact blocked
            · obtain ⟨before, unchanged⟩ := untouched other present isL
              rw [unchanged] at here ⊢
              refine reservable.recycled recycled ?_ other before different here
              simp only [Recyclable, List.cons_ne_nil, ↓reduceIte, List.map_cons]
              refine ⟨old, dynamic, time, ?_, expired⟩
              simp only [List.mem_cons] at listed ⊢
              rcases listed with now | later
              · exact .inl now
              · exact .inr (.inr later)
        · intro _
          exact frees _ (reservable.blocked (by simp))

theorem Consistent.commitLease (consistent : s.Consistent) (member : l ∈ s.leases)
    (hostname : String) (now : Time) : (s.commitLease env l hostname now).Consistent := by
  unfold V4Server.commitLease
  dsimp only
  generalize changed : s.setLease l _ = t
  have stored : t.Consistent := by
    rw [← changed]
    exact consistent.setLease l fun _ => ⟨rfl, rfl⟩
  have present : l ∈ t.leases := by
    rw [← changed]
    exact member
  refine ⟨⟨stored.ips, stored.macs, ?_, stored.offsets⟩, stored.known, stored.is4⟩
  intro ip other
  change (t.ipIndex.set (t.lease l).ip l).get ip = some other ↔
    other ∈ t.leases ∧ (t.lease other).ip = ip
  rw [FiniteMap.get_set]
  split
  · rename_i here
    subst here
    rw [Option.some.injEq]
    constructor
    · rintro rfl
      exact ⟨present, rfl⟩
    · rintro ⟨known, same⟩
      exact (stored.eq_of_ip known present same).symm
  · exact stored.index ip other

theorem Consistent.releaseLoop (consistent : s.Consistent) (mac : HardwareAddr) (ip : Addr)
    (count i : Nat) (slots : List Ref) :
    (releaseLoop mac ip count i slots s).1.Consistent := by
  induction count generalizing i slots s with
  | zero => exact consistent
  | succ count ih =>
    unfold V4Server.releaseLoop
    dsimp only
    split
    · exact ih consistent _ _
    · have removed := consistent.rmDynamicLease (slots.getD i 0)
      cases attempt : s.rmDynamicLease (slots.getD i 0) with
      | mk t rest =>
        obtain ⟨shifted, result⟩ := rest
        rw [attempt] at removed
        cases result with
        | error error => exact removed
        | ok done => exact ih removed _ _

theorem Consistent.rmLease (consistent : s.Consistent) (lease : Ref) :
    (s.rmLease lease).1.Consistent := by
  unfold V4Server.rmLease
  split
  · exact consistent
  split
  · exact consistent
  dsimp only
  split
  · exact consistent
  · exact consistent.rmLeaseByIndex _

theorem checkLease_mem {ip : BitVec 32} {mismatch : Bool}
    (found : s.checkLease mac ip = (some l, mismatch)) : l ∈ s.leases := by
  unfold checkLease at found
  split at found
  · cases found
  · rename_i first here
    split at found
    · cases found
      exact List.mem_of_find?_eq_some here
    · cases found

theorem handleByRequestType_mem {needsReply : Bool}
    (found : s.handleByRequestType req = (some l, needsReply)) : l ∈ s.leases := by
  unfold handleByRequestType handleSelecting handleInitReboot handleRenew at found
  repeat' split at found
  all_goals cases found
  all_goals rename_i lookup
  all_goals exact checkLease_mem lookup

theorem Consistent.handleRequest (consistent : s.Consistent) (env : Env) (req : Message) (timing : Timing)
    (resp : Reply) : (s.handleRequest env req timing resp).1.Consistent := by
  unfold V4Server.handleRequest
  split
  · exact consistent
  · rename_i l needsReply found
    dsimp only
    split
    · exact consistent
    · exact consistent.commitLease (handleByRequestType_mem found) _ _

theorem free_of_findLease (absent : s.findLease mac = none) : s.Free mac := by
  intro other member here
  have different := List.find?_eq_none.mp absent other member
  simp [here] at different

theorem rmDynamicLease_static {t : V4Server} {slots : List Ref} (member : l ∈ s.leases)
    (static : (s.lease l).isStatic = true) (shown : s.NothingHidden (s.lease l) 0) :
    s.rmDynamicLease l ≠ (t, slots, .ok ()) := by
  intro succeeds
  have trimmed := Trimmed.rmDynamicLease s l
  rw [succeeds] at trimmed
  exact rmDynamicLease_clean shown succeeds l (trimmed.kept l member (.inr static)) (.inl rfl)

/-- The range has the address, or its first address stays leased. -/
def Placeable (s : V4Server) (ip : Addr) (stays : Ref → Prop) : Prop :=
  (s.conf.ipRange.offset ip).isSome ∨
    ∃ other ∈ s.leases, (s.lease other).ip = .v4 s.conf.ipRange.start ∧ stays other

/-- `ResetLeases` is given different leases, and those it takes in are in the range. -/
structure Loadable (conf : V4ServerConf) (leases : List Lease) : Prop where
  distinct : (leases.filter (admits conf)).Pairwise fun a b =>
    a.ip ≠ b.ip ∧ (a.hwAddr = b.hwAddr → isBlocklisted a = true)
  placed : ∀ l ∈ leases.filter (admits conf),
    l.ip.is4 = true ∧ (conf.ipRange.offset l.ip).isSome

def Safe (env : Env) (s : V4Server) : Event → Prop
  | .packet req timing =>
    env.validateMAC req.clientHWAddr = true →
      match req.messageType with
      | .discover =>
        s.findLease req.clientHWAddr = none →
          s.Reservable req.clientHWAddr timing.reservedAt timing.conflicts
      | .request => True
      | .decline =>
        ∀ l, s.findLeaseForIP (req.requestedIPAddress <|> req.clientIPAddr) req.clientHWAddr =
          some l → (s.lease l).isStatic = true ∧ s.NothingHidden (s.lease l) 0
      | .release => True
  | .addStaticLease l =>
    ∀ checked, s.checkStaticLease env l = .ok checked →
      s.NothingHidden checked 0 ∧
        (s.conf.subnet.contains checked.ip = true → s.Placeable checked.ip fun other =>
          sameAs (s.lease other) checked = false ∨ (s.lease other).isStatic = true)
  | .updateStaticLease l =>
    ∀ found, s.findLease l.hwAddr = some found →
      ∀ hostname, s.validateStaticLease env l = .ok hostname →
        (isBlocklisted l = true → ∀ other ∈ s.leases, other ≠ found →
          (s.lease other).ip ≠ l.ip) ∧
        (l.isStatic = true → s.Placeable l.ip fun other => other ≠ found)
  | .removeStaticLease _ => True
  | .resetLeases leases => Loadable s.conf leases

theorem is4_of_contains {conf : V4ServerConf} {ip : Addr}
    (inSubnet : conf.subnet.contains ip = true) : ip.is4 = true := by
  have four := conf.subnet4
  simp only [Prefix.contains, Bool.and_eq_true, beq_iff_eq] at inSubnet
  obtain ⟨⟨⟨_, _⟩, sameLength⟩, _⟩ := inSubnet
  cases subnet : conf.subnet.addr with
  | zero => simp [subnet, Addr.is4] at four
  | v6 value zone => simp [subnet, Addr.is4] at four
  | v4 value =>
    rw [subnet] at sameLength
    cases ip with
    | zero => cases sameLength
    | v6 value zone => cases sameLength
    | v4 value => rfl

theorem Consistent.handleDiscover (consistent : s.Consistent) {timing : Timing}
    (safe : s.findLease req.clientHWAddr = none →
      s.Reservable req.clientHWAddr timing.reservedAt timing.conflicts) :
    (s.handleDiscover req timing).1.Consistent := by
  unfold V4Server.handleDiscover
  split
  · exact consistent
  · rename_i absent
    exact consistent.allocateLease (free_of_findLease absent) (safe absent)

theorem Consistent.handleDecline (consistent : s.Consistent) (timing : Timing) (resp : Reply)
    (safe : ∀ l, s.findLeaseForIP (req.requestedIPAddress <|> req.clientIPAddr)
      req.clientHWAddr = some l →
        (s.lease l).isStatic = true ∧ s.NothingHidden (s.lease l) 0) :
    (s.handleDecline req timing resp).1.Consistent := by
  unfold V4Server.handleDecline
  dsimp only
  split
  · exact consistent
  · rename_i l found
    obtain ⟨static, shown⟩ := safe l found
    have member : l ∈ s.leases := by
      unfold findLeaseForIP at found
      split at found
      · cases found
      · exact List.mem_of_find?_eq_some found
    have kept := consistent.rmDynamicLease l
    cases attempt : s.rmDynamicLease l with
    | mk t rest =>
      obtain ⟨slots, result⟩ := rest
      rw [attempt] at kept
      cases result with
      | error error => exact kept
      | ok done => exact absurd attempt (rmDynamicLease_static member static shown)

theorem Consistent.handleRelease (consistent : s.Consistent) (req : Message) (resp : Reply) :
    (s.handleRelease req resp).1.Consistent := by
  rw [handleRelease_server]
  split
  · exact consistent
  · exact consistent.releaseLoop _ _ _ _ _

theorem Consistent.packet (consistent : s.Consistent) {timing : Timing}
    (safe : s.Safe env (.packet req timing)) : (s.packetHandler env req timing).1.Consistent := by
  rw [packetHandler_server]
  split
  · rename_i valid
    have safe := safe valid
    cases kind : req.messageType with
    | discover =>
      simp only [kind] at safe
      exact consistent.handleDiscover safe
    | request => exact consistent.handleRequest env req timing _
    | decline =>
      simp only [kind] at safe
      exact consistent.handleDecline timing _ safe
    | release => exact consistent.handleRelease req _
  · exact consistent

theorem checkStaticLease_spec {l checked : Lease} (passed : s.checkStaticLease env l = .ok checked) :
    checked.ip.is4 = true ∧ checked.isStatic = true := by
  unfold checkStaticLease at passed
  dsimp only at passed
  repeat' split at passed
  all_goals cases passed
  all_goals simp_all

theorem Consistent.addStaticLease (consistent : s.Consistent) {l : Lease}
    (safe : s.Safe env (.addStaticLease l)) : (s.addStaticLease env l).1.Consistent := by
  unfold V4Server.addStaticLease
  cases checks : s.checkStaticLease env l with
  | error error => exact consistent
  | ok checked =>
    obtain ⟨shown, placeable⟩ := safe checked checks
    obtain ⟨four, static⟩ := checkStaticLease_spec checks
    dsimp only [alloc_ref]
    rw [← withObject]
    have here := withObject_new s checked
    have old : ∀ other ∈ s.leases, (s.withObject checked).lease other = s.lease other :=
      fun _ member => consistent.withObject_old checked member
    have size := withObject_size s checked
    have stored : (s.withObject checked).Consistent := consistent.alloc _
    have leases : (s.withObject checked).leases = s.leases := rfl
    have conf : (s.withObject checked).conf = s.conf := rfl
    generalize s.withObject checked = t at *
    have shown : t.NothingHidden (t.lease s.heap.size) 0 := by
      intro j from0 a b first second
      rw [leases] at first second
      rw [here, old a (List.mem_of_getElem? first), old b (List.mem_of_getElem? second)]
      exact shown j from0 a b first second
    have trimmed := Trimmed.rmDynamicLease t s.heap.size
    have kept := stored.rmDynamicLease s.heap.size
    unfold V4Server.updateStaticLease
    cases attempt : t.rmDynamicLease s.heap.size with
    | mk u rest =>
      obtain ⟨slots, result⟩ := rest
      rw [attempt] at trimmed kept
      cases result with
      | error error => exact kept
      | ok done =>
        have clean := rmDynamicLease_clean shown attempt
        apply kept.addLease
        intro added
        have ip : (u.lease s.heap.size).ip = checked.ip := by rw [trimmed.ip, here]
        have mac : (u.lease s.heap.size).hwAddr = checked.hwAddr := by
          rw [trimmed.hwAddr, here]
        have inSubnet : s.conf.subnet.contains checked.ip = true := by
          rcases addLease_cases u s.heap.size with ⟨_, failed⟩ | ⟨_, _, admitted⟩
          · exact absurd added failed
          · rwa [admits, trimmed.isStatic, here, static, if_pos rfl, trimmed.ip, here,
              trimmed.conf, conf] at admitted
        refine ⟨?_, ?_, ?_, ?_, ?_⟩
        · rw [trimmed.size, size]
          exact Nat.lt_succ_self _
        · rw [ip]
          exact four
        · intro other member same
          exact clean other member (.inl same)
        · intro other member same
          by_contra needed
          exact clean other member (.inr ⟨same, by simpa using needed⟩)
        · rw [ip, trimmed.conf, conf]
          rcases placeable inSubnet with inRange | ⟨other, member, start, stays⟩
          · exact .inl inRange
          · refine .inr ⟨other, trimmed.kept other (by rwa [leases]) ?_, ?_⟩
            · rwa [old other member, here]
            · rw [trimmed.ip, old other member, start]

theorem validateStaticLease_spec {l : Lease} {hostname : String}
    (valid : s.validateStaticLease env l = .ok hostname) :
    s.conf.subnet.contains l.ip = true ∧
      ∀ dup, s.ipIndex.get l.ip = some dup → (s.lease dup).hwAddr = l.hwAddr := by
  unfold validateStaticLease at valid
  split at valid
  · cases valid
  split at valid
  · cases valid
  split at valid
  · cases valid
  split at valid
  · cases valid
  rename_i unique
  split at valid
  · cases valid
  split at valid
  · cases valid
  rename_i inSubnet
  refine ⟨by simpa using inSubnet, ?_⟩
  intro dup here
  simpa [here, isDuplicate] using unique

theorem Consistent.rmLease_mem (consistent : s.Consistent) {found : Ref}
    (member : found ∈ s.leases) :
    (s.rmLease found).2 = .ok () ∧ ∃ i, s.leases[i]? = some found ∧
      (s.rmLease found).1 = s.rmLeaseByIndex i := by
  unfold V4Server.rmLease
  rw [if_neg (List.ne_nil_of_mem member)]
  cases search : s.leases.findIdx? fun l => (s.lease l).ip == (s.lease found).ip with
  | none =>
    have missing := List.findIdx?_eq_none_iff.mp search found member
    simp at missing
  | some i =>
    obtain ⟨bound, same, _⟩ := List.findIdx?_eq_some_iff_getElem.mp search
    have here : s.leases[i] = found :=
      consistent.eq_of_ip (List.getElem_mem bound) member (by simpa using same)
    have atIndex : s.leases[i]? = some found := by rw [List.getElem?_eq_getElem bound, here]
    simp only [List.getD_eq_getElem?_getD, atIndex, Option.getD_some, ne_eq, not_true_eq_false,
      or_self, ↓reduceIte, true_and]
    exact ⟨i, atIndex, rfl⟩

theorem Consistent.updateStaticLeaseAPI (consistent : s.Consistent) {l : Lease}
    (safe : s.Safe env (.updateStaticLease l)) :
    (s.updateStaticLeaseAPI env l).1.Consistent := by
  unfold V4Server.updateStaticLeaseAPI
  cases lookup : s.findLease l.hwAddr with
  | none => exact consistent
  | some found =>
    cases validation : s.validateStaticLease env l with
    | error error => exact consistent
    | ok hostname =>
      have member : found ∈ s.leases := List.mem_of_find?_eq_some lookup
      have mac : (s.lease found).hwAddr = l.hwAddr := by
        simpa using List.find?_some lookup
      obtain ⟨sole, placeable⟩ := safe found lookup hostname validation
      obtain ⟨inSubnet, unique⟩ := validateStaticLease_spec validation
      obtain ⟨removes, i, atIndex, result⟩ := consistent.rmLease_mem member
      have kept := consistent.rmLease found
      dsimp only
      cases attempt : s.rmLease found with
      | mk t outcome =>
        rw [attempt] at removes result kept
        dsimp only at removes result kept
        subst removes result
        dsimp only [alloc_ref]
        rw [← withObject]
        have frame := rmLeaseByIndex_frame s i
        have leases : ∀ other, other ∈ (s.rmLeaseByIndex i).leases ↔
            other ∈ s.leases ∧ other ≠ found := by
          intro other
          rw [rmLeaseByIndex_leases]
          exact consistent.mem_eraseIdx atIndex other
        apply (kept.alloc _).addLease
        intro added
        apply kept.fits_withObject
        · exact is4_of_contains inSubnet
        · intro other present
          obtain ⟨before, different⟩ := (leases other).mp present
          rw [rmLeaseByIndex_lease]
          intro same
          -- The index only lets a lease with the same hardware address pass.
          have bound := unique other ((consistent.index l.ip other).mpr ⟨before, same⟩)
          have blocked := consistent.blocklisted_of_mac before member different
            (bound.trans mac.symm)
          rw [isBlocklisted, bound] at blocked
          exact sole blocked other before different same
        · intro other present
          obtain ⟨before, different⟩ := (leases other).mp present
          rw [rmLeaseByIndex_lease]
          intro same
          exact consistent.blocklisted_of_mac before member different (same.trans mac.symm)
        · rw [frame.1]
          cases static : l.isStatic with
          | true =>
            rcases placeable static with inRange | ⟨other, present, start, stays⟩
            · exact .inl inRange
            · exact .inr ⟨other, (leases other).mpr ⟨present, stays⟩,
                by rw [rmLeaseByIndex_lease, start]⟩
          | false =>
            rcases addLease_cases ((s.rmLeaseByIndex i).withObject { l with hostname })
                (s.rmLeaseByIndex i).heap.size with ⟨_, failed⟩ | ⟨_, _, admitted⟩
            · exact absurd added failed
            · have conf : ((s.rmLeaseByIndex i).withObject { l with hostname }).conf = s.conf :=
                frame.1
              rw [admits, withObject_new, conf] at admitted
              exact .inl (by simpa [static] using admitted)

theorem Consistent.removeStaticLease (consistent : s.Consistent) (env : Env) (l : Lease) :
    (s.removeStaticLease env l).1.Consistent := by
  unfold V4Server.removeStaticLease
  split
  · exact consistent
  split
  · exact consistent
  · exact (consistent.alloc l).rmLease _

/-- What one round of `ResetLeases` leaves in the table. -/
theorem Consistent.resetLease (consistent : s.Consistent) (env : Env) {l : Lease}
    (placed : admits s.conf l = true → l.ip.is4 = true ∧ (s.conf.ipRange.offset l.ip).isSome)
    (apart : admits s.conf l = true → ∀ other ∈ s.leases, (s.lease other).ip ≠ l.ip ∧
      ((s.lease other).hwAddr = l.hwAddr → isBlocklisted (s.lease other) = true)) :
    (s.resetLease env l).Consistent ∧ (s.resetLease env l).conf = s.conf ∧
      ∀ other ∈ (s.resetLease env l).leases,
        (other ∈ s.leases ∧ (s.resetLease env l).lease other = s.lease other) ∨
          admits s.conf l = true ∧ ((s.resetLease env l).lease other).ip = l.ip ∧
            ((s.resetLease env l).lease other).hwAddr = l.hwAddr := by
  unfold V4Server.resetLease
  dsimp only [alloc_ref]
  generalize renamed : (if l.isStatic = true then l
    else { l with hostname := validHostnameForClient env l.hostname l.ip }) = object
  have same : object.ip = l.ip ∧ object.hwAddr = l.hwAddr ∧ object.isStatic = l.isStatic := by
    rw [← renamed]
    split <;> exact ⟨rfl, rfl, rfl⟩
  have sameAdmits : admits s.conf object = admits s.conf l := by
    simp only [admits, same.1, same.2.2]
  rw [← withObject]
  have old : ∀ other ∈ s.leases, (s.withObject object).lease other = s.lease other :=
    fun _ member => consistent.withObject_old object member
  have leases : (s.withObject object).leases = s.leases := rfl
  have attempt := addLease_cases (s.withObject object) s.heap.size
  have conf : (s.withObject object).conf = s.conf := rfl
  rw [withObject_new, conf, sameAdmits, leases] at attempt
  refine ⟨(consistent.alloc object).addLease ?_, (addLease_frame _ _).1, ?_⟩
  · intro added
    rcases attempt with ⟨_, failed⟩ | ⟨_, _, admitted⟩
    · exact absurd added failed
    obtain ⟨four, inRange⟩ := placed admitted
    apply consistent.fits_withObject
    · rwa [same.1]
    · intro other member
      rw [same.1]
      exact (apart admitted other member).1
    · intro other member
      rw [same.2.1]
      exact (apart admitted other member).2
    · rw [same.1]
      exact .inl inRange
  · intro other member
    rw [addLease_lease]
    rcases attempt with ⟨unchanged, _⟩ | ⟨appended, _, admitted⟩
    · rw [unchanged, leases] at member
      exact .inl ⟨member, old other member⟩
    · rw [appended, List.mem_append, List.mem_singleton] at member
      rcases member with before | rfl
      · exact .inl ⟨before, old other before⟩
      · rw [withObject_new]
        exact .inr ⟨admitted, same.1, same.2.1⟩

/-- The rounds that are left find no address of theirs in use. -/
theorem Consistent.resetRounds {leases : List Lease} (consistent : s.Consistent)
    (loadable : Loadable s.conf leases)
    (apart : ∀ l ∈ leases.filter (admits s.conf), ∀ other ∈ s.leases, (s.lease other).ip ≠ l.ip ∧
      ((s.lease other).hwAddr = l.hwAddr → isBlocklisted (s.lease other) = true)) :
    (leases.foldl (V4Server.resetLease env) s).Consistent := by
  induction leases generalizing s with
  | nil => exact consistent
  | cons l rest ih =>
    have listed : admits s.conf l = true → l ∈ (l :: rest).filter (admits s.conf) := by
      intro admitted
      rw [List.filter_cons_of_pos admitted]
      exact List.mem_cons_self
    have later : ∀ other ∈ rest.filter (admits s.conf),
        other ∈ (l :: rest).filter (admits s.conf) := by
      intro other member
      simp only [List.mem_filter, List.mem_cons] at member ⊢
      exact ⟨.inr member.1, member.2⟩
    obtain ⟨next, conf, added⟩ := consistent.resetLease env
      (fun admitted => loadable.placed l (listed admitted))
      (fun admitted => apart l (listed admitted))
    refine ih next ?_ ?_
    · rw [conf]
      refine ⟨?_, fun other member => loadable.placed other (later other member)⟩
      refine loadable.distinct.sublist ?_
      exact (List.sublist_cons_self l rest).filter _
    · rw [conf]
      intro candidate listedLater other member
      rcases added other member with ⟨before, same⟩ | ⟨admitted, ip, mac⟩
      · rw [same]
        exact apart candidate (later candidate listedLater) other before
      · have distinct := loadable.distinct
        rw [List.filter_cons_of_pos admitted, List.pairwise_cons] at distinct
        rw [ip, isBlocklisted, mac]
        exact distinct.1 candidate listedLater

theorem Consistent.resetLeases {leases : List Lease} (loadable : Loadable s.conf leases)
    (env : Env) : (s.resetLeases env leases).Consistent := by
  have emptied : ({ s with leasedOffsets := .new, hostsIndex := ∅, ipIndex := ∅, leases := [] } :
      V4Server).Consistent :=
    ⟨⟨.nil, .nil, by simp, by simp⟩, by simp, by simp⟩
  exact emptied.resetRounds loadable (by simp)

theorem Consistent.next (s : V4Server) (event : Event) (consistent : s.Consistent)
    (safe : s.Safe env event) : ((machine env).next s event).Consistent := by
  cases event with
  | packet req timing => exact consistent.packet safe
  | addStaticLease l => exact consistent.addStaticLease safe
  | updateStaticLease l => exact consistent.updateStaticLeaseAPI safe
  | removeStaticLease l => exact consistent.removeStaticLease env l
  | resetLeases leases => exact Consistent.resetLeases safe env

/-- After every run of safe messages and calls the slice, the bits and the index agree. -/
theorem leases_agree {conf : V4ServerConf} {events : List Event}
    (safe : (machine env).Allowed (Safe env) (new conf) events) :
    ((machine env).run (new conf) events).Agrees :=
  ((machine env).run_invariant Consistent Consistent.next (.new conf) safe).toAgrees

section Examples

private def plainEnv : Env := ⟨id, fun _ => true, fun _ => true, fun mac => mac.length == 6⟩

private def twoAddresses : V4ServerConf where
  gatewayIP := .v4 0xc0a80101
  subnet := ⟨.v4 0xc0a80101, 24, rfl⟩
  subnet4 := rfl
  ipRange := ⟨0xc0a80164, 0xc0a80165, by decide⟩
  leaseTime := 3600
  dnsIPAddr := 0xc0a80101

private def message (messageType : MessageType) : Message :=
  ⟨messageType, [2, 0, 0, 0, 0, 1], none, some 0xc0a80164, some 0xc0a80101, "pc", false⟩

private def packet (messageType : MessageType) : Event :=
  .packet (message messageType) ⟨[], 0, 0⟩

theorem leases_agree_request :
    ((machine plainEnv).run (new twoAddresses) [packet .discover, packet .request]).Agrees := by
  refine leases_agree ⟨?_, fun _ => trivial, trivial⟩
  intro _ _
  refine ⟨?_, fun conflicts => absurd rfl conflicts⟩
  intro l recyclable
  exact absurd recyclable.1 (by decide)

/-- A client that declines its lease gets a new one, which is added to the table twice. -/
theorem decline_adds_twice :
    ¬ ∀ events, ((machine plainEnv).run (new twoAddresses) events).Agrees := by
  intro agree
  have once := (agree [packet .discover, packet .decline]).ips
  revert once
  decide

end Examples

end V4Server

end AdGuardHome.Dhcpd
