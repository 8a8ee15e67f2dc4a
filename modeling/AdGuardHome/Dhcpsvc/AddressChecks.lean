import AdGuardHome.Dhcpsvc.NextIP

namespace AdGuardHome.Dhcpsvc

open Netip Heap

namespace World

variable {env : Env} {w : World} {key : MacKey} {now : Time}

/-- The world after a lease of an available address has been given to a client. -/
def withTaken (w : World) (key : MacKey) (l : Ref) : World :=
  { w with iface :=
      ({ w.iface with leases := w.iface.leases.set key l }).setOffset (w.lease l).ip true }

/-- `netInterface.allocateLease` with a checker that answers by address, where `none` is an
error of the check: what it makes, what it returns, and the addresses it has asked for. It
has not ended when the rounds are used up. -/
def allocateChecked (env : Env) (key : MacKey) (now : Time) (isAvailable : Addr → Option Bool) :
    Nat → (Nat → Round) → World → Option (World × Except Error Ref × List Addr)
  | 0, _, _ => none
  | fuel + 1, rounds, w =>
    match w.reserveLease env key now (rounds 0).order with
    | (w, .error error) => some (w, .error error, [])
    | (w, .ok l) =>
      match isAvailable (w.lease l).ip with
      | none => some (w, .error .unavailable, [(w.lease l).ip])
      | some true => some (w.withTaken key l, .ok l, [(w.lease l).ip])
      | some false =>
        match w.blockLease l now (rounds 0).stored with
        | (blocked, .error error) => some (blocked, .error error, [(w.lease l).ip])
        | (blocked, .ok ()) =>
          (allocateChecked env key now isAvailable fuel (fun n => rounds (n + 1)) blocked).map
            fun (after, result, asked) => (after, result, (w.lease l).ip :: asked)

def withReserved (w : World) (key : MacKey) (ip : Addr) (now : Time) : World :=
  { w with heap := (w.heap.alloc ⟨ip, now + w.iface.leaseTTL, "", key.val, false⟩).1 }

/-- A world with an expired lease of another client, whose bit is as before. -/
def withRecycled (env : Env) (w : World) (key : MacKey) (l : Ref) (now : Time) : World :=
  let removed := (w.remove env (w.lease l) true).1
  let changed := removed.setLease l fun lease => recycled lease key now w.iface.leaseTTL
  { changed with iface.leases := changed.iface.leases.set key l }

/-- Where a reserved lease comes from. -/
inductive Reserves (env : Env) (w : World) (key : MacKey) (now : Time)
    (order : WalkOrder MacKey) : World → Ref → Prop
  | fresh {ip : Addr} (found : w.iface.nextIP = some ip) (valid : ip ≠ .zero) :
    Reserves env w key now order (w.withReserved key ip now) w.heap.size
  | recycled {l : Ref} (full : w.iface.nextIP = some .zero)
    (expired : w.findExpiredLease now order = some l) :
    Reserves env w key now order (w.withRecycled env key l now) l

/-- A reservation fails without a change or finds a lease. -/
theorem reserveLease_cases (env : Env) (w : World) (key : MacKey) (now : Time)
    (order : WalkOrder MacKey) :
    (∃ error, w.reserveLease env key now order = (w, .error error)) ∨
      ∃ w' l, w.reserveLease env key now order = (w', .ok l) ∧
        Reserves env w key now order w' l := by
  unfold reserveLease
  cases found : w.iface.nextIP with
  | none => exact .inl ⟨_, rfl⟩
  | some ip =>
    dsimp only
    by_cases full : ip = .zero
    · subst full
      cases expired : w.findExpiredLease now order with
      | none => exact .inl ⟨_, rfl⟩
      | some l => exact .inr ⟨_, l, rfl, .recycled found expired⟩
    · exact .inr ⟨_, _, by rw [if_pos full]; rfl, .fresh found full⟩

/-- The rounds of a call that has ended. -/
inductive Ran (env : Env) (key : MacKey) (now : Time) (isAvailable : Addr → Option Bool) :
    (Nat → Round) → World → World → Except Error Ref → List Addr → Prop
  | empty {rounds w error} (reserved : w.reserveLease env key now (rounds 0).order = (w, .error error)) :
    Ran env key now isAvailable rounds w w (.error error) []
  | unchecked {rounds w reserve l}
    (reserved : w.reserveLease env key now (rounds 0).order = (reserve, .ok l))
    (reserves : Reserves env w key now (rounds 0).order reserve l)
    (checked : isAvailable (reserve.lease l).ip = none) :
    Ran env key now isAvailable rounds w reserve (.error .unavailable) [(reserve.lease l).ip]
  | taken {rounds w reserve l}
    (reserved : w.reserveLease env key now (rounds 0).order = (reserve, .ok l))
    (reserves : Reserves env w key now (rounds 0).order reserve l)
    (checked : isAvailable (reserve.lease l).ip = some true) :
    Ran env key now isAvailable rounds w (reserve.withTaken key l) (.ok l) [(reserve.lease l).ip]
  | unblocked {rounds w reserve l blocked error}
    (reserved : w.reserveLease env key now (rounds 0).order = (reserve, .ok l))
    (reserves : Reserves env w key now (rounds 0).order reserve l)
    (checked : isAvailable (reserve.lease l).ip = some false)
    (failed : reserve.blockLease l now (rounds 0).stored = (blocked, .error error)) :
    Ran env key now isAvailable rounds w blocked (.error error) [(reserve.lease l).ip]
  | again {rounds w reserve l blocked after result asked}
    (reserved : w.reserveLease env key now (rounds 0).order = (reserve, .ok l))
    (reserves : Reserves env w key now (rounds 0).order reserve l)
    (checked : isAvailable (reserve.lease l).ip = some false)
    (block : reserve.blockLease l now (rounds 0).stored = (blocked, .ok ()))
    (rest : Ran env key now isAvailable (fun n => rounds (n + 1)) blocked after result asked) :
    Ran env key now isAvailable rounds w after result ((reserve.lease l).ip :: asked)

section Ran

variable {isAvailable : Addr → Option Bool} {rounds : Nat → Round} {after : World}
  {result : Except Error Ref} {asked : List Addr}

theorem ran_of_checked {fuel : Nat}
    (done : allocateChecked env key now isAvailable fuel rounds w = some (after, result, asked)) :
    Ran env key now isAvailable rounds w after result asked := by
  induction fuel generalizing rounds w asked with
  | zero => cases done
  | succ fuel ih =>
    rw [allocateChecked] at done
    rcases reserveLease_cases env w key now (rounds 0).order with
      ⟨error, reserved⟩ | ⟨reserve, l, reserved, reserves⟩
    · rw [reserved] at done
      cases Option.some.inj done
      exact .empty reserved
    · rw [reserved] at done
      dsimp only at done
      cases checked : isAvailable (reserve.lease l).ip with
      | none =>
        rw [checked] at done
        cases Option.some.inj done
        exact .unchecked reserved reserves checked
      | some available =>
        rw [checked] at done
        cases available with
        | true =>
          cases Option.some.inj done
          exact .taken reserved reserves checked
        | false =>
          dsimp only at done
          cases block : reserve.blockLease l now (rounds 0).stored with
          | mk blocked outcome =>
            rw [block] at done
            cases outcome with
            | error error =>
              cases Option.some.inj done
              exact .unblocked reserved reserves checked block
            | ok _ =>
              obtain ⟨last, more, equal⟩ := Option.map_eq_some_iff.mp done
              cases equal
              exact .again reserved reserves checked block (ih more)

end Ran

theorem Local.alloc {first : World} (unchanged : Local first w) (object : Lease) :
    Local first { w with heap := (w.heap.alloc object).1 } where
  grown := Nat.le_trans unchanged.grown (Nat.le_trans (Nat.le_succ _) (Nat.le_of_eq (size_alloc _ _).symm))
  untouched := by
    intro l old foreign
    rw [← unchanged.untouched l old foreign]
    change (w.heap.alloc object).1.read l = w.heap.read l
    rw [read_alloc, if_neg (Nat.ne_of_lt (Nat.lt_of_lt_of_le old unchanged.grown))]
  within := by
    intro k l member
    rcases unchanged.within k l member with own | ⟨new, bound⟩
    · exact .inl own
    · exact .inr ⟨new, Nat.lt_of_lt_of_le bound (Nat.le_trans (Nat.le_succ _)
        (Nat.le_of_eq (size_alloc _ _).symm))⟩
  addrSpace := unchanged.addrSpace
  leaseTTL := unchanged.leaseTTL

section Reserves

variable {order : WalkOrder MacKey} {reserve : World} {l : Ref}

theorem lease_withReserved (w : World) (key : MacKey) (ip : Addr) (now : Time) (other : Ref) :
    (w.withReserved key ip now).lease other =
      if other = w.heap.size then ⟨ip, now + w.iface.leaseTTL, "", key.val, false⟩
      else w.lease other :=
  read_alloc _ _ _

/-- Nobody else's lease changes, and the lease keeps its address. -/
theorem lease_withRecycled (env : Env) (known : l < w.heap.size) (key : MacKey) (now : Time)
    (other : Ref) :
    (w.withRecycled env key l now).lease other =
      if other = l then World.recycled (w.lease l) key now w.iface.leaseTTL else w.lease other := by
  have heap := (remove_frame env w (w.lease l) true).1
  have knownRemoved : l < (w.remove env (w.lease l) true).1.heap.size := by rwa [heap]
  have same : ∀ other, (w.remove env (w.lease l) true).1.lease other = w.lease other := by
    intro other
    unfold lease
    exact congrArg (fun heap => heap.read other) heap
  refine (lease_setLease _ knownRemoved _ other).trans ?_
  rw [same, same]

theorem Reserves.local {first : World} (reserves : Reserves env w key now order reserve l)
    (unchanged : Local first w) : Local first reserve ∧ Within first reserve l := by
  cases reserves with
  | fresh found valid =>
    exact ⟨unchanged.alloc _, .inr ⟨unchanged.grown,
      Nat.lt_of_lt_of_eq (Nat.lt_succ_self _) (size_alloc _ _).symm⟩⟩
  | recycled full expired =>
    obtain ⟨k, member, _⟩ := findExpiredLease_some expired
    have own := unchanged.within k l member
    have size := congrArg Heap.size ((remove_frame env w (w.lease l) true).1)
    have ownRemoved : Within first (w.remove env (w.lease l) true).1 l := by
      rw [Within, size]
      exact own
    have changed := (unchanged.remove env (w.lease l) true).setLease ownRemoved fun lease =>
      World.recycled lease key now w.iface.leaseTTL
    have ownChanged : Within first (w.withRecycled env key l now) l := by
      rw [Within]
      change _ ∨ _ ∧ l < (World.setLease _ _ _).heap.size
      rw [size_setLease, size]
      exact own
    refine ⟨changed.congr rfl rfl rfl fun k' other held => ?_, ownChanged⟩
    change (FiniteMap.set _ key l).get k' = some other at held
    rcases FiniteMap.of_get_set held with ⟨_, rfl⟩ | ⟨_, before⟩
    · exact ownChanged
    · exact changed.within k' other before

theorem Reserves.filed (reserves : Reserves env w key now order reserve l) (filed : w.Filed) :
    reserve.Filed ∧ reserve.Fitting l ∧ (reserve.lease l).hwAddr = key.val := by
  cases reserves with
  | @fresh ip found valid =>
    obtain ⟨offset, position, _⟩ := nextIP_free found valid
    have new := (lease_withReserved w key ip now w.heap.size).trans (if_pos rfl)
    refine ⟨filed.alloc _, ⟨Nat.lt_of_lt_of_eq (Nat.lt_succ_self _) (size_alloc _ _).symm, ?_⟩, ?_⟩
    · rw [new]
      change w.iface.addrSpace.contains ip = true
      rw [← IPRange.offset_isSome, position]
      rfl
    · rw [new]
  | recycled full expired =>
    obtain ⟨k, member, _⟩ := findExpiredLease_some expired
    have mild := mild_recycled key now w.iface.leaseTTL
    have fits := ((filed.fits member).remove env (w.lease l) true).setLease l mild
    refine ⟨?_, ⟨fits.known, fits.inside⟩, ?_⟩
    · refine ((filed.remove env (w.lease l) true).setLease l mild).congr rfl rfl
        (fun _ _ found => .inl found) (fun _ _ found => .inl found) ?_
      intro k' other held
      change (FiniteMap.set _ key l).get k' = some other at held
      rcases FiniteMap.of_get_set held with ⟨_, rfl⟩ | ⟨_, before⟩
      · exact .inr ⟨fits.known, fits.inside⟩
      · exact .inl ⟨k', before⟩
    · rw [lease_withRecycled env (filed.held k l member).1, if_pos rfl, recycled_hwAddr]

def VacantIn (w : World) (x : Addr) : Prop :=
  ∀ k l, w.iface.leases.get k = some l → (w.lease l).ip ≠ x

variable {x : Addr}

/-- A map that loses entries stays without the address. -/
theorem VacantIn.congr (vacant : w.VacantIn x) {other : World}
    (ips : ∀ l, (∃ k, w.iface.leases.get k = some l) → (other.lease l).ip = (w.lease l).ip)
    (held : ∀ k l, other.iface.leases.get k = some l →
      (∃ k', w.iface.leases.get k' = some l) ∨ (other.lease l).ip ≠ x) : other.VacantIn x := by
  intro k l member
  rcases held k l member with ⟨k', before⟩ | apart
  · rw [ips l ⟨k', before⟩]
    exact vacant k' l before
  · exact apart

/-- The entries that a reservation leaves: older ones, and the one of the client. -/
theorem Reserves.held (reserves : Reserves env w key now order reserve l) {k : MacKey}
    {other : Ref} (member : reserve.iface.leases.get k = some other) :
    (∃ k', w.iface.leases.get k' = some other) ∧
      (w.iface.leases.get k = some other ∨ k = key ∧ other = l) := by
  cases reserves with
  | fresh found valid => exact ⟨⟨k, member⟩, .inl member⟩
  | recycled full expired =>
    obtain ⟨k', mine, _⟩ := findExpiredLease_some expired
    change (FiniteMap.set (w.remove env (w.lease l) true).1.iface.leases key l).get k =
      some other at member
    rw [FiniteMap.get_set] at member
    split at member
    · rename_i same
      obtain rfl := Option.some.inj member
      exact ⟨⟨k', mine⟩, .inr ⟨same, rfl⟩⟩
    · have before : w.iface.leases.get k = some other := by
        rcases remove_cases env w (w.lease l) true with same | ⟨gone, _, _, _, _, _, result⟩
        · rwa [same] at member
        · rw [result] at member
          change (w.iface.leases.delete gone).get k = some other at member
          exact (FiniteMap.of_get_delete member).2
      exact ⟨⟨k, before⟩, .inl before⟩

theorem Reserves.ip_eq (reserves : Reserves env w key now order reserve l) {other : Ref}
    (known : other < w.heap.size) (filed : w.Filed) :
    (reserve.lease other).ip = (w.lease other).ip := by
  cases reserves with
  | fresh found valid => rw [lease_withReserved, if_neg (Nat.ne_of_lt known)]
  | recycled full expired =>
    obtain ⟨k, member, _⟩ := findExpiredLease_some expired
    rw [lease_withRecycled env (filed.held k l member).1]
    split
    · rename_i same
      rw [same, recycled_ip]
    · rfl

theorem VacantIn.reserves (vacant : w.VacantIn x) (filed : w.Filed)
    (reserves : Reserves env w key now order reserve l) : reserve.VacantIn x :=
  vacant.congr (fun other ⟨k, member⟩ => reserves.ip_eq (filed.held k other member).1 filed)
    fun _ _ member => .inl (reserves.held member).1

end Reserves

section Blocking

variable {x : Addr} {l : Ref}

/-- The world after a lease has been blocked under the key of its hardware address. -/
def withBlocked (w : World) (key : MacKey) (l : Ref) (now : Time) : World :=
  ({ w with iface :=
      ({ w.iface with leases := w.iface.leases.delete key }).setOffset (w.lease l).ip false }).setLease
    l fun lease => { lease with
      hwAddr := blockedHardwareAddr
      hostname := ""
      expiry := now + w.iface.leaseTTL
      isStatic := false }

/-- Blocking fails without a change or takes out the key of the lease. -/
theorem blockLease_cases (w : World) (l : Ref) (now : Time) (stored : Bool) :
    ((∃ error, w.blockLease l now stored = (w, .error error)) ∧
        ∀ key : MacKey, key.val = (w.lease l).hwAddr → w.iface.leases.get key = none) ∨
      ∃ (key : MacKey) (held : Ref), key.val = (w.lease l).hwAddr ∧
        w.iface.leases.get key = some held ∧
        w.blockLease l now stored =
          (w.withBlocked key l now, if stored then .ok () else .error .store) := by
  unfold World.blockLease NetInterface.removeLease
  cases named : macToKey (w.lease l).hwAddr with
  | none =>
    refine .inl ⟨⟨_, rfl⟩, fun key owner => ?_⟩
    rw [macToKey_eq_some.mpr owner] at named
    cases named
  | some key =>
    have owner := macToKey_eq_some.mp named
    cases member : w.iface.leases.get key with
    | none =>
      refine .inl ⟨⟨.noLeaseForMAC (w.lease l).hwAddr, by simp [member]⟩, fun k other => ?_⟩
      obtain rfl : k = key := Subtype.ext (other.trans owner.symm)
      exact member
    | some held => exact .inr ⟨key, held, owner, member, by simp [member, withBlocked]⟩

theorem mild_blocked (expiry : Time) : Mild fun lease => { lease with
    hwAddr := blockedHardwareAddr
    hostname := ""
    expiry
    isStatic := false } := fun _ => ⟨rfl, fun _ => List.cons_ne_nil _ _⟩

theorem withBlocked_ip (w : World) (key : MacKey) (l : Ref) (now : Time) (other : Ref) :
    ((w.withBlocked key l now).lease other).ip = (w.lease other).ip :=
  (lease_setLease_mild _ l (mild_blocked _) other).1

theorem withBlocked_held {k : MacKey} {other : Ref}
    (member : (w.withBlocked key l now).iface.leases.get k = some other) :
    k ≠ key ∧ w.iface.leases.get k = some other := by
  change (w.iface.leases.delete key).get k = some other at member
  exact FiniteMap.of_get_delete member

theorem VacantIn.blockLease (vacant : w.VacantIn x) (l : Ref) (now : Time) (stored : Bool) :
    (w.blockLease l now stored).1.VacantIn x := by
  rcases blockLease_cases w l now stored with ⟨⟨_, same⟩, _⟩ | ⟨key, _, _, _, result⟩
  · rwa [same]
  · rw [result]
    exact vacant.congr (fun other _ => withBlocked_ip w key l now other)
      fun k _ member => .inl ⟨k, (withBlocked_held member).2⟩

theorem blockLease_vacates (owner : ∀ k other, w.iface.leases.get k = some other →
    (w.lease other).ip = x → k.val = (w.lease l).hwAddr) (now : Time) (stored : Bool) :
    (w.blockLease l now stored).1.VacantIn x := by
  rcases blockLease_cases w l now stored with ⟨⟨_, same⟩, absent⟩ | ⟨gone, _, taken, _, result⟩
  · rw [same]
    intro k other held here
    rw [absent k (owner k other held here)] at held
    cases held
  · rw [result]
    intro k other held here
    obtain ⟨different, before⟩ := withBlocked_held held
    rw [withBlocked_ip] at here
    exact different (Subtype.ext ((owner k other before here).trans taken.symm))

end Blocking

section Calls

variable {isAvailable : Addr → Option Bool} {rounds : Nat → Round} {after : World}
  {result : Except Error Ref} {asked : List Addr} {x : Addr}

theorem Ran.keeps {first : World} (ran : Ran env key now isAvailable rounds w after result asked)
    (unchanged : Local first w) (filed : w.Filed) : Local first after ∧ after.Filed := by
  induction ran with
  | empty reserved => exact ⟨unchanged, filed⟩
  | unchecked reserved reserves checked =>
    exact ⟨(reserves.local unchanged).1, (reserves.filed filed).1⟩
  | @taken rounds w reserve l reserved reserves checked =>
    obtain ⟨kept, own⟩ := reserves.local unchanged
    obtain ⟨filed', fits, _⟩ := reserves.filed filed
    have held : ∀ k other, (reserve.withTaken key l).iface.leases.get k = some other →
        other = l ∨ reserve.iface.leases.get k = some other := by
      intro k other member
      change (reserve.iface.leases.set key l).get k = some other at member
      exact (FiniteMap.of_get_set member).imp (fun new => new.2.symm) And.right
    refine ⟨kept.congr rfl rfl rfl fun k other member => ?_,
      filed'.congr rfl rfl (fun _ _ found => .inl found) (fun _ _ found => .inl found)
        fun k other member => ?_⟩
    · rcases held k other member with rfl | before
      · exact own
      · exact kept.within k other before
    · rcases held k other member with rfl | before
      · exact .inr ⟨fits.known, fits.inside⟩
      · exact .inl ⟨k, before⟩
  | @unblocked rounds w reserve l blocked error reserved reserves checked failed =>
    obtain ⟨kept, own⟩ := reserves.local unchanged
    have left := kept.blockLease own now (rounds 0).stored
    have files := (reserves.filed filed).1.blockLease l now (rounds 0).stored
    rw [failed] at left files
    exact ⟨left, files⟩
  | @again rounds w reserve l blocked after result asked reserved reserves checked block rest ih =>
    obtain ⟨kept, own⟩ := reserves.local unchanged
    have left := kept.blockLease own now (rounds 0).stored
    have files := (reserves.filed filed).1.blockLease l now (rounds 0).stored
    rw [block] at left files
    exact ih left files

theorem Ran.member {l : Ref} (ran : Ran env key now isAvailable rounds w after (.ok l) asked) :
    after.iface.leases.get key = some l := by
  generalize returned : (Except.ok l : Except Error Ref) = result at ran
  induction ran with
  | empty reserved => cases returned
  | unchecked reserved reserves checked => cases returned
  | taken reserved reserves checked =>
    obtain rfl := Except.ok.inj returned
    exact FiniteMap.get_set_self _ _ _
  | unblocked reserved reserves checked failed => cases returned
  | again reserved reserves checked block rest ih => exact ih returned

theorem VacantIn.set (vacant : w.VacantIn x) {l : Ref} (apart : (w.lease l).ip ≠ x)
    {other : World} (heap : other.heap = w.heap)
    (leases : other.iface.leases = w.iface.leases.set key l) : other.VacantIn x := by
  intro k held member
  unfold lease
  rw [heap]
  rw [leases, FiniteMap.get_set] at member
  split at member
  · obtain rfl := Option.some.inj member
    exact apart
  · exact vacant k held member

theorem Ran.vacant (ran : Ran env key now isAvailable rounds w after result asked)
    (filed : w.Filed) (vacant : w.VacantIn x) (unavailable : isAvailable x = some false) :
    after.VacantIn x := by
  induction ran with
  | empty reserved => exact vacant
  | unchecked reserved reserves checked => exact vacant.reserves filed reserves
  | @taken rounds w reserve l reserved reserves checked =>
    refine (vacant.reserves filed reserves).set ?_ rfl rfl
    rintro rfl
    rw [unavailable] at checked
    cases checked
  | @unblocked rounds w reserve l blocked error reserved reserves checked failed =>
    have left := (vacant.reserves filed reserves).blockLease l now (rounds 0).stored
    rwa [failed] at left
  | @again rounds w reserve l blocked after result asked reserved reserves checked block rest ih =>
    have left := (vacant.reserves filed reserves).blockLease l now (rounds 0).stored
    have files := (reserves.filed filed).1.blockLease l now (rounds 0).stored
    rw [block] at left files
    exact ih files left

/-- Whoever has the address is the client whose expired lease comes first when all bits are
set, and the index removes that lease. -/
def Evicted (env : Env) (w : World) (now : Time) (order : WalkOrder MacKey) (x : Addr) : Prop :=
  ∀ k other, w.iface.leases.get k = some other → (w.lease other).ip = x → w.iface.Exhausted ∧
    ∃ l, w.findExpiredLease now order = some l ∧ k.val = (w.lease l).hwAddr ∧ Registered env w l

/-- The reservation takes the address from the client that has it. -/
theorem Reserves.evicted {order : WalkOrder MacKey} {reserve : World} {l : Ref}
    (reserves : Reserves env w key now order reserve l) (filed : w.Filed)
    (full : w.iface.nextIP = some .zero) (evicted : Evicted env w now order x) {k : MacKey}
    {other : Ref} (held : reserve.iface.leases.get k = some other)
    (here : (reserve.lease other).ip = x) : k = key ∧ other = l := by
  obtain ⟨⟨k', before⟩, which⟩ := reserves.held held
  rw [reserves.ip_eq (filed.held k' other before).1 filed] at here
  rcases which with same | mine
  · cases reserves with
    | fresh found valid =>
      rw [full] at found
      exact absurd (Option.some.inj found).symm valid
    | recycled _ expired =>
      obtain ⟨_, l', expired', owner, hasAddr, hasName⟩ := evicted k other same here
      obtain rfl := Option.some.inj (expired.symm.trans expired')
      have removed := remove_of_member owner same hasAddr hasName true
      change (FiniteMap.set (w.remove env (w.lease l) true).1.iface.leases key l).get k =
        some other at held
      rw [removed, FiniteMap.get_set] at held
      split at held
      · rename_i client
        exact ⟨client, (Option.some.inj held).symm⟩
      · change (w.iface.leases.delete k).get k = some other at held
        rw [FiniteMap.get_delete_self] at held
        cases held
  · exact mine

/-- After a call that finds the address unavailable no client has it. -/
theorem Ran.evicts (ran : Ran env key now isAvailable rounds w after result asked)
    (ranged : w.iface.Ranged) (filed : w.Filed)
    (evicted : Evicted env w now (rounds 0).order x) (unavailable : isAvailable x = some false)
    (checked : x ∈ asked) : after.VacantIn x := by
  by_cases vacant : w.VacantIn x
  · exact ran.vacant filed vacant unavailable
  have full : w.iface.nextIP = some .zero := by
    simp only [VacantIn, not_forall, not_not] at vacant
    obtain ⟨k, other, held, here⟩ := vacant
    exact ranged.nextIP_exhausted (evicted k other held here).1
  have owner : ∀ {reserve l}, Reserves env w key now (rounds 0).order reserve l →
      (reserve.blockLease l now (rounds 0).stored).1.VacantIn x := fun reserves =>
    blockLease_vacates (fun k other held here => by
      rw [(reserves.evicted filed full evicted held here).1, (reserves.filed filed).2.2]) _ _
  have apart : ∀ {reserve l}, Reserves env w key now (rounds 0).order reserve l →
      (reserve.lease l).ip ≠ x → reserve.VacantIn x := by
    intro reserve l reserves different k other held here
    obtain ⟨_, rfl⟩ := reserves.evicted filed full evicted held here
    exact different here
  cases ran with
  | empty reserved => cases checked
  | @unchecked _ _ reserve l reserved reserves unknown =>
    refine apart reserves ?_
    rintro rfl
    rw [unavailable] at unknown
    cases unknown
  | @taken _ _ reserve l reserved reserves available =>
    have different : (reserve.lease l).ip ≠ x := by
      rintro rfl
      rw [unavailable] at available
      cases available
    exact (apart reserves different).set different rfl rfl
  | @unblocked _ _ reserve l blocked error reserved reserves _ failed =>
    have left := owner reserves
    rwa [failed] at left
  | @again _ _ reserve l blocked after result asked reserved reserves _ block rest =>
    have left := owner reserves
    have files := (reserves.filed filed).1.blockLease l now (rounds 0).stored
    rw [block] at left files
    exact rest.vacant files left unavailable

end Calls

section Candidates

variable {isAvailable : Addr → Option Bool} {rounds : Nat → Round} {after : World}
  {result : Except Error Ref} {asked : List Addr} {x : Addr} {l : Ref}

def Returns (env : Env) (w : World) (key : MacKey) (now : Time) (isAvailable : Addr → Option Bool)
    (rounds : Nat → Round) : Prop :=
  ∃ fuel after l asked, allocateChecked env key now isAvailable fuel rounds w =
    some (after, .ok l, asked) ∧ isAvailable (after.lease l).ip = some true

/-- An address of the range that is neither leased nor blocked. -/
structure Unused (w : World) (now : Time) (x : Addr) : Prop where
  valid : x.isValid = true
  inside : w.iface.addrSpace.contains x = true
  vacant : w.VacantIn x
  unblocked : ∀ l, w.index.byAddr.get x = some l → (w.lease l).isBlocked = true →
    (w.lease l).isExpiredAt now = true

theorem Unused.ranged (unused : w.Unused now x)
    (either : w.iface.Ranged ∨ w.iface.addrSpace = .zero) : w.iface.Ranged := by
  refine either.resolve_right fun zero => ?_
  obtain ⟨_, _, high⟩ := IPRange.contains_iff.mp unused.inside
  have valid := unused.valid
  rw [zero] at high
  cases x with
  | zero => cases valid
  | v4 value => cases high
  | v6 value zone => cases high

/-- The address that the call tries first is available: the lowest one of the range whose
bit is not set, or else, when the search for it ends, that of the first expired lease. -/
def Promising (w : World) (now : Time) (order : WalkOrder MacKey)
    (isAvailable : Addr → Option Bool) : Prop :=
  (∃ x, w.iface.FirstFree x ∧ isAvailable x = some true) ∨ w.iface.Exhausted ∧
    ∃ l, w.findExpiredLease now order = some l ∧ isAvailable (w.lease l).ip = some true

variable {reserve : World} {order : WalkOrder MacKey}

private theorem returns_of_reserved
    (reserved : w.reserveLease env key now (rounds 0).order = (reserve, .ok l))
    (available : isAvailable (reserve.lease l).ip = some true) :
    Returns env w key now isAvailable rounds := by
  refine ⟨1, reserve.withTaken key l, l, [(reserve.lease l).ip], ?_, available⟩
  rw [allocateChecked, reserved]
  dsimp only
  rw [available]

theorem Promising.returns (promising : Promising w now (rounds 0).order isAvailable)
    (ranged : w.iface.Ranged) (filed : w.Filed) : Returns env w key now isAvailable rounds := by
  rcases promising with ⟨x, first, available⟩ | ⟨exhausted, l, expired, available⟩
  · obtain ⟨found, valid⟩ := ranged.nextIP_firstFree first
    have reserved : w.reserveLease env key now (rounds 0).order =
        (w.withReserved key x now, .ok w.heap.size) := by
      rw [reserveLease, found]
      dsimp only
      rw [if_pos valid]
      rfl
    refine returns_of_reserved reserved ?_
    rwa [lease_withReserved, if_pos rfl]
  · obtain ⟨k, member, _⟩ := findExpiredLease_some expired
    have reserved : w.reserveLease env key now (rounds 0).order =
        (w.withRecycled env key l now, .ok l) := by
      rw [reserveLease, ranged.nextIP_exhausted exhausted]
      dsimp only
      rw [if_neg (not_not.mpr rfl), expired]
      rfl
    refine returns_of_reserved reserved ?_
    rwa [lease_withRecycled env (filed.held k l member).1, if_pos rfl, recycled_ip]

/-- Only a client that the interface has can be blocked. -/
theorem key_of_blocked {blocked : World} {stored : Bool}
    (block : w.blockLease l now stored = (blocked, .ok ()))
    (owner : (w.lease l).hwAddr = key.val) :
    w.iface.leases.get key ≠ none ∧ blocked = w.withBlocked key l now := by
  rcases blockLease_cases w l now stored with ⟨⟨_, failed⟩, _⟩ | ⟨k, held, taken, member, done⟩
  · rw [failed] at block
    cases block
  · obtain rfl : k = key := Subtype.ext (taken.trans owner)
    rw [done] at block
    refine ⟨?_, (Prod.mk.inj block).1.symm⟩
    rw [member]
    exact Option.some_ne_none held

/-- A free address that is not available ends the call: its lease cannot be blocked. -/
theorem Ran.refused (ran : Ran env key now isAvailable rounds w after result asked)
    (ranged : w.iface.Ranged) (filed : w.Filed) (free : w.iface.leases.get key = none)
    (first : w.iface.FirstFree x) (unavailable : isAvailable x ≠ some true) :
    result ≠ .ok l := by
  rintro rfl
  obtain ⟨next, valid⟩ := ranged.nextIP_firstFree first
  have fresh : ∀ {reserve l}, Reserves env w key now (rounds 0).order reserve l →
      (reserve.lease l).ip = x ∧ reserve.iface = w.iface := by
    intro reserve l reserves
    cases reserves with
    | fresh found _ =>
      obtain rfl := Option.some.inj (found.symm.trans next)
      refine ⟨?_, rfl⟩
      rw [lease_withReserved, if_pos rfl]
    | recycled full _ => exact absurd (Option.some.inj (full.symm.trans next)).symm valid
  cases ran with
  | taken reserved reserves checked =>
    rw [(fresh reserves).1] at checked
    exact unavailable checked
  | again reserved reserves checked block rest =>
    have present := (key_of_blocked block (reserves.filed filed).2.2).1
    rw [(fresh reserves).2] at present
    exact present free

/-- A removal changes the bit of the address only. -/
theorem isSet_remove (env : Env) (w : World) (lease : Lease) (stored : Bool) {offset other : Nat}
    (position : w.iface.addrSpace.offset lease.ip = some offset) (different : other ≠ offset) :
    (w.remove env lease stored).1.iface.leasedOffsets.isSet other =
      w.iface.leasedOffsets.isSet other := by
  rcases remove_cases env w lease stored with same | ⟨_, _, _, _, _, _, result⟩
  · rw [same]
  · rw [result]
    change (w.iface.leasedOffsets.set ((w.iface.addrSpace.offset lease.ip).getD 0) false).isSet
      other = _
    rw [position, BitSet.isSet_set, Option.getD_some, if_neg different]

def Zoned (w : World) : Prop :=
  ∀ k l, w.iface.leases.get k = some l → w.iface.addrSpace.InZone (w.lease l).ip

/-- An expired lease that has been recycled and blocked frees its address. -/
theorem firstFree_blocked (env : Env) (key : MacKey) (ranged : w.iface.Ranged)
    (zoned : w.Zoned) (filed : w.Filed) (exhausted : w.iface.Exhausted) {k : MacKey}
    (member : w.iface.leases.get k = some l) :
    ((w.withRecycled env key l now).withBlocked key l now).iface.FirstFree (w.lease l).ip := by
  obtain ⟨known, inside⟩ := filed.held k l member
  have position := ranged.offset inside
  have space : ((w.withRecycled env key l now).withBlocked key l now).iface.addrSpace =
      w.iface.addrSpace := (remove_frame env w (w.lease l) true).2
  have ip : ((w.withRecycled env key l now).lease l).ip = (w.lease l).ip := by
    rw [lease_withRecycled env known, if_pos rfl, recycled_ip]
  have bits : ∀ n, ((w.withRecycled env key l now).withBlocked key l now).iface.leasedOffsets.isSet n =
      if n = (w.lease l).ip.toNat - w.iface.addrSpace.start.toNat then false
      else w.iface.leasedOffsets.isSet n := by
    intro n
    have written : ((w.withRecycled env key l now).withBlocked key l now).iface.leasedOffsets =
        (w.remove env (w.lease l) true).1.iface.leasedOffsets.set
          ((w.iface.addrSpace.offset (w.lease l).ip).getD 0) false := by
      rw [← ip, ← (remove_frame env w (w.lease l) true).2]
      rfl
    rw [written, position, BitSet.isSet_set, Option.getD_some]
    split
    · rfl
    · rename_i different
      exact isSet_remove env w (w.lease l) true position different
  refine ⟨space ▸ zoned k l member,
    ⟨(w.lease l).ip.toNat - w.iface.addrSpace.start.toNat, ?_, ?_⟩, ?_⟩
  · rw [space]
    exact position
  · rw [bits, if_pos rfl]
  · rintro other otherInside ⟨offset, there, unset⟩
    rw [space] at otherInside there
    have distance := ranged.offset otherInside.contained
    obtain rfl := Option.some.inj (distance.symm.trans there)
    rw [bits] at unset
    split at unset
    · rename_i same
      have low := (IPRange.bounds_of_contains ranged.accepted ranged.started inside).2.1
      have otherLow := (IPRange.bounds_of_contains ranged.accepted ranged.started
        otherInside.contained).2.1
      have mate := (zoned k l member).mate ranged.accepted ranged.started
      have otherMate := otherInside.mate ranged.accepted ranged.started
      have mates : Mate other (w.lease l).ip :=
        ⟨otherMate.bitLen.trans mate.bitLen.symm, otherMate.zone.trans mate.zone.symm⟩
      rw [mates.eq (by omega)]
      exact less_self _
    · exact absurd ⟨_, distance, unset⟩ (exhausted.taken other otherInside)

theorem FirstFree.withBlocked (first : w.iface.FirstFree (w.lease l).ip) (key : MacKey)
    (now : Time) : (w.withBlocked key l now).iface.FirstFree (w.lease l).ip := by
  obtain ⟨offset, position, unset⟩ := first.clear
  have bits : ∀ n, (w.withBlocked key l now).iface.leasedOffsets.isSet n =
      w.iface.leasedOffsets.isSet n := by
    intro n
    change (w.iface.leasedOffsets.set ((w.iface.addrSpace.offset (w.lease l).ip).getD 0) false
      ).isSet n = _
    rw [position, BitSet.isSet_set, Option.getD_some]
    split
    · rename_i same
      rw [same, unset]
    · rfl
  have clear : ∀ ip, (w.withBlocked key l now).iface.Clear ip ↔ w.iface.Clear ip := by
    intro ip
    unfold NetInterface.Clear
    simp only [bits]
    exact Iff.rfl
  exact ⟨first.inZone, (clear _).mpr first.clear,
    fun other inside free => first.lowest other inside ((clear other).mp free)⟩

theorem Reserves.zoned (reserves : Reserves env w key now order reserve l) (zoned : w.Zoned)
    (filed : w.Filed) :
    reserve.iface.addrSpace = w.iface.addrSpace ∧ reserve.Zoned := by
  have space : reserve.iface.addrSpace = w.iface.addrSpace := by
    cases reserves with
    | fresh found valid => rfl
    | recycled full expired => exact (remove_frame env w (w.lease l) true).2
  refine ⟨space, fun k other member => ?_⟩
  obtain ⟨k', before⟩ := (reserves.held member).1
  rw [space, reserves.ip_eq (filed.held k' other before).1 filed]
  exact zoned k' other before

theorem Zoned.withBlocked (zoned : w.Zoned) (key : MacKey) (l : Ref) (now : Time) :
    (w.withBlocked key l now).Zoned := by
  intro k other member
  rw [withBlocked_ip]
  exact zoned k other (withBlocked_held member).2

/-- An address that has been tried in vain is the next one to be tried. -/
theorem Reserves.firstFree (reserves : Reserves env w key now order reserve l)
    (ranged : w.iface.Ranged) (zoned : w.Zoned) (filed : w.Filed) :
    (reserve.withBlocked key l now).iface.FirstFree (reserve.lease l).ip := by
  cases reserves with
  | @fresh ip found valid =>
    refine FirstFree.withBlocked ?_ key now
    rw [lease_withReserved, if_pos rfl]
    exact ranged.firstFree_of_nextIP found valid
  | recycled full expired =>
    obtain ⟨k, member, _⟩ := findExpiredLease_some expired
    rw [lease_withRecycled env (filed.held k l member).1, if_pos rfl, recycled_ip]
    exact firstFree_blocked env key ranged zoned filed (ranged.nextIP_zero full) member

/-- A call gives an address that no client has only if it finds it free and available. -/
theorem Ran.avoids (ran : Ran env key now isAvailable rounds w after result asked)
    (ranged : w.iface.Ranged) (zoned : w.Zoned) (filed : w.Filed) (vacant : w.VacantIn x)
    (avoids : w.iface.FirstFree x → isAvailable x ≠ some true) : after.VacantIn x := by
  induction ran with
  | empty reserved => exact vacant
  | unchecked reserved reserves checked => exact vacant.reserves filed reserves
  | @taken rounds w reserve l reserved reserves checked =>
    refine (vacant.reserves filed reserves).set ?_ rfl rfl
    rintro rfl
    cases reserves with
    | fresh found valid =>
      rw [lease_withReserved, if_pos rfl] at checked avoids
      exact avoids (ranged.firstFree_of_nextIP found valid) checked
    | recycled full expired =>
      obtain ⟨k, member, _⟩ := findExpiredLease_some expired
      refine vacant k l member ?_
      rw [lease_withRecycled env (filed.held k l member).1, if_pos rfl, recycled_ip]
  | @unblocked rounds w reserve l blocked error reserved reserves checked failed =>
    have left := (vacant.reserves filed reserves).blockLease l now (rounds 0).stored
    rwa [failed] at left
  | @again rounds w reserve l blocked after result asked reserved reserves checked block rest ih =>
    have left := (vacant.reserves filed reserves).blockLease l now (rounds 0).stored
    have files := (reserves.filed filed).1.blockLease l now (rounds 0).stored
    rw [block] at left files
    obtain ⟨space, kept⟩ := reserves.zoned zoned filed
    obtain ⟨_, rfl⟩ := key_of_blocked block (reserves.filed filed).2.2
    have ranged' : (reserve.withBlocked key l now).iface.Ranged := ranged.congr space
    refine ih ranged' (kept.withBlocked key l now) files left fun second => ?_
    obtain rfl := second.unique ranged' (reserves.firstFree ranged zoned filed)
    rw [checked]
    simp

/-- A call that returns a lease has found the first address it tried available. -/
theorem Ran.promising (ran : Ran env key now isAvailable rounds w after (.ok l) asked)
    (ranged : w.iface.Ranged) (zoned : w.Zoned) (filed : w.Filed) (free : w.iface.leases.get key = none) :
    Promising w now (rounds 0).order isAvailable := by
  rcases ranged.nextIP_cases with ⟨x, first, _⟩ | ⟨_, next⟩
  · by_cases available : isAvailable x = some true
    · exact .inl ⟨x, first, available⟩
    · exact absurd rfl (ran.refused ranged filed free first available)
  have exhausted : ∀ {reserve l}, Reserves env w key now (rounds 0).order reserve l →
      w.iface.Exhausted ∧ w.findExpiredLease now (rounds 0).order = some l ∧
        reserve = w.withRecycled env key l now := by
    intro reserve l reserves
    cases reserves with
    | fresh found valid =>
      rw [found] at next
      split at next
      · exact absurd (Option.some.inj next) valid
      · cases next
    | recycled full expired => exact ⟨ranged.nextIP_zero full, expired, rfl⟩
  have same : ∀ {l}, w.findExpiredLease now (rounds 0).order = some l →
      ((w.withRecycled env key l now).lease l).ip = (w.lease l).ip := by
    intro l expired
    obtain ⟨k, member, _⟩ := findExpiredLease_some expired
    rw [lease_withRecycled env (filed.held k l member).1, if_pos rfl, recycled_ip]
  cases ran with
  | taken reserved reserves checked =>
    obtain ⟨full, expired, rfl⟩ := exhausted reserves
    rw [same expired] at checked
    exact .inr ⟨full, l, expired, checked⟩
  | @again _ _ reserve first blocked _ _ _ reserved reserves checked block rest =>
    have files := (reserves.filed filed).1.blockLease first now (rounds 0).stored
    rw [block] at files
    obtain ⟨_, rfl⟩ := key_of_blocked block (reserves.filed filed).2.2
    have ranged' : (reserve.withBlocked key first now).iface.Ranged :=
      ranged.congr (reserves.zoned zoned filed).1
    refine absurd rfl (rest.refused ranged' files (FiniteMap.get_delete_self _ _)
      (reserves.firstFree ranged zoned filed) ?_)
    rw [checked]
    simp

theorem returns_iff (ranged : w.iface.Ranged)
    (zoned : w.Zoned) (filed : w.Filed) (free : w.iface.leases.get key = none) :
    Returns env w key now isAvailable rounds ↔ Promising w now (rounds 0).order isAvailable := by
  constructor
  · rintro ⟨fuel, after, l, asked, done, _⟩
    exact (ran_of_checked done).promising ranged zoned filed free
  · exact fun promising => promising.returns ranged filed

end Candidates

end World

end AdGuardHome.Dhcpsvc
