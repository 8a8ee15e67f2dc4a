import AdGuardHome.Dhcpd.Hostname
import AdGuardHome.Dhcpd.V4Run

namespace AdGuardHome.Dhcpd

open Netip Heap
open Dhcpsvc (Lease Time Duration)

structure Formed (env : Env) (l : Lease) : Prop where
  is4 : l.ip.is4 = true
  hwAddr : l.hwAddr.length = 6 ∨ l.hwAddr.length = 8 ∨ l.hwAddr.length = 20
  named : l.hostname ≠ "" → Normal env l.hostname
  expiry : l.isStatic = true → l.expiry = 0

namespace V4Server

variable {env : Env} {s t u : V4Server}

/-- The table only has leases that the server could have made and admits. -/
def Sound (env : Env) (s : V4Server) : Prop :=
  ∀ l ∈ s.leases, l < s.heap.size ∧ Formed env (s.lease l) ∧ admits s.conf (s.lease l) = true

/-- What may happen to the leases from one state to a later one. -/
structure Evolves (env : Env) (s t : V4Server) : Prop where
  conf : t.conf = s.conf
  size : s.heap.size ≤ t.heap.size
  objects : ∀ l < s.heap.size, (t.lease l).ip = (s.lease l).ip ∧
    (t.lease l).isStatic = (s.lease l).isStatic ∧
    (Formed env (s.lease l) → Formed env (t.lease l))
  table : ∀ l ∈ t.leases, l ∈ s.leases ∨
    l < t.heap.size ∧ Formed env (t.lease l) ∧ admits t.conf (t.lease l) = true

theorem admits_congr {conf : V4ServerConf} {a b : Lease} (ip : a.ip = b.ip)
    (isStatic : a.isStatic = b.isStatic) : admits conf a = admits conf b := by
  rw [admits, admits, ip, isStatic]

namespace Evolves

theorem refl (s : V4Server) : Evolves env s s where
  conf := rfl
  size := Nat.le_refl _
  objects := fun _ _ => ⟨rfl, rfl, id⟩
  table := fun _ member => .inl member

theorem trans (first : Evolves env s t) (second : Evolves env t u) : Evolves env s u where
  conf := second.conf.trans first.conf
  size := Nat.le_trans first.size second.size
  objects := by
    intro l known
    obtain ⟨ip, isStatic, formed⟩ := first.objects l known
    obtain ⟨ip', isStatic', formed'⟩ := second.objects l (Nat.lt_of_lt_of_le known first.size)
    exact ⟨ip'.trans ip, isStatic'.trans isStatic, fun was => formed' (formed was)⟩
  table := by
    intro l member
    rcases second.table l member with old | new
    · rcases first.table l old with older | ⟨known, formed, admitted⟩
      · exact .inl older
      · obtain ⟨ip, isStatic, kept⟩ := second.objects l known
        refine .inr ⟨Nat.lt_of_lt_of_le known second.size, kept formed, ?_⟩
        rw [second.conf, admits_congr ip isStatic]
        exact admitted
    · exact .inr new

theorem sound (evolves : Evolves env s t) (sound : s.Sound env) : t.Sound env := by
  intro l member
  rcases evolves.table l member with old | new
  · obtain ⟨known, formed, admitted⟩ := sound l old
    obtain ⟨ip, isStatic, kept⟩ := evolves.objects l known
    refine ⟨Nat.lt_of_lt_of_le known evolves.size, kept formed, ?_⟩
    rw [evolves.conf, admits_congr ip isStatic]
    exact admitted
  · exact new

theorem shrink (conf : t.conf = s.conf) (heap : t.heap = s.heap)
    (fewer : ∀ l ∈ t.leases, l ∈ s.leases) : Evolves env s t where
  conf := conf
  size := by rw [heap]
  objects := by
    intro l _
    rw [lease, lease, heap]
    exact ⟨rfl, rfl, id⟩
  table := fun l member => .inl (fewer l member)

theorem setLease {l : Ref} {change : Lease → Lease}
    (ip : (change (s.lease l)).ip = (s.lease l).ip)
    (isStatic : (change (s.lease l)).isStatic = (s.lease l).isStatic)
    (formed : Formed env (s.lease l) → Formed env (change (s.lease l))) :
    Evolves env s (s.setLease l change) := by
  by_cases known : l < s.heap.size
  · refine ⟨rfl, by simp [V4Server.setLease], ?_, fun _ member => .inl member⟩
    intro other _
    rw [lease_setLease known]
    split
    · rename_i here
      rw [here]
      exact ⟨ip, isStatic, formed⟩
    · exact ⟨rfl, rfl, id⟩
  · rw [setLease_unknown (Nat.le_of_not_lt known)]
    exact .refl s

theorem alloc (object : Lease) :
    Evolves env s { s with heap := (s.heap.alloc object).1 } where
  conf := rfl
  size := by simp
  objects := by
    intro l known
    rw [lease_alloc, if_neg (Nat.ne_of_lt known)]
    exact ⟨rfl, rfl, id⟩
  table := fun _ member => .inl member

theorem addLease {l : Ref} (known : l < s.heap.size) (formed : Formed env (s.lease l)) :
    Evolves env s (s.addLease l).1 := by
  have frame := addLease_frame s l
  refine ⟨frame.1, by rw [frame.2], ?_, ?_⟩
  · intro other _
    rw [addLease_lease]
    exact ⟨rfl, rfl, id⟩
  · intro other member
    rcases addLease_cases s l with ⟨unchanged, _⟩ | ⟨appended, _, admitted⟩
    · rw [unchanged] at member
      exact .inl member
    · rw [appended, List.mem_append, List.mem_singleton] at member
      rcases member with old | rfl
      · exact .inl old
      · rw [frame.1, frame.2, addLease_lease]
        exact .inr ⟨known, formed, admitted⟩

theorem allocAdd {object : Lease} (formed : Formed env object) :
    Evolves env s ((({ s with heap := (s.heap.alloc object).1 } : V4Server).addLease
      s.heap.size).1) := by
  refine (Evolves.alloc object).trans (.addLease ?_ ?_)
  · simp
  · rw [lease_alloc, if_pos rfl]
    exact formed

theorem emptyHostname (isStatic : Bool) (l lease : Ref) :
    Evolves env s (s.emptyHostname isStatic l lease) := by
  unfold V4Server.emptyHostname
  split
  · refine .setLease rfl rfl ?_
    intro formed
    exact ⟨formed.is4, formed.hwAddr, fun named => absurd rfl named, formed.expiry⟩
  · exact .refl s

theorem rmLeaseByIndex (i : Nat) : Evolves env s (s.rmLeaseByIndex i) := by
  refine .shrink (rmLeaseByIndex_frame s i).1 (rmLeaseByIndex_frame s i).2 ?_
  intro l member
  rw [rmLeaseByIndex_leases] at member
  exact List.mem_of_mem_eraseIdx member

theorem rmDynamicLoop {lease : Ref} {count i : Nat} {slots : List Ref} :
    Evolves env s (rmDynamicLoop lease count i slots s).1 := by
  have rounds := rounds_rmDynamicLoop lease count i slots s
  generalize V4Server.rmDynamicLoop lease count i slots s = result at rounds ⊢
  induction rounds with
  | done => exact .refl _
  | refuse same static => exact .refl _
  | last same dynamic last => exact .rmLeaseByIndex _
  | beyond same dynamic none => exact .rmLeaseByIndex _
  | remove same dynamic next rest ih =>
    exact ((Evolves.rmLeaseByIndex _).trans (.emptyHostname _ _ lease)).trans ih
  | pass different rest ih => exact (Evolves.emptyHostname _ _ lease).trans ih

theorem rmDynamicLease (lease : Ref) : Evolves env s (s.rmDynamicLease lease).1 :=
  .rmDynamicLoop

theorem rmLease (lease : Ref) : Evolves env s (s.rmLease lease).1 := by
  unfold V4Server.rmLease
  split
  · exact .refl s
  split
  · exact .refl s
  dsimp only
  split
  · exact .refl s
  · exact .rmLeaseByIndex _

theorem releaseLoop (mac : HardwareAddr) (ip : Addr) (count i : Nat) (slots : List Ref) :
    Evolves env s (releaseLoop mac ip count i slots s).1 := by
  induction count generalizing i slots s with
  | zero => exact .refl s
  | succ count ih =>
    unfold V4Server.releaseLoop
    dsimp only
    split
    · exact ih _ _
    · have removed : Evolves env s (s.rmDynamicLease (slots.getD i 0)).1 := .rmDynamicLease _
      cases attempt : s.rmDynamicLease (slots.getD i 0) with
      | mk t rest =>
        obtain ⟨shifted, result⟩ := rest
        rw [attempt] at removed
        cases result with
        | error error => exact removed
        | ok done => exact removed.trans (ih _ _)

end Evolves

theorem is4_eq {ip : Addr} (four : ip.is4 = true) : ∃ value, ip = .v4 value := by
  cases ip with
  | zero => cases four
  | v4 value => exact ⟨value, rfl⟩
  | v6 value zone => cases four

theorem length_copyBytes (dst src : HardwareAddr) : (copyBytes dst src).length = dst.length := by
  simp only [copyBytes, List.length_append, List.length_take, List.length_drop]
  omega

/-- A reservation returns a dynamic lease of the table. -/
theorem Sound.reserveLease (sound : s.Sound env) {mac : HardwareAddr}
    (valid : mac.length = 6 ∨ mac.length = 8 ∨ mac.length = 20) (now : Time) :
    Evolves env s (s.reserveLease mac now).1 ∧
      ∀ l, (s.reserveLease mac now).2 = .ok (some l) →
        l ∈ (s.reserveLease mac now).1.leases ∧
          ((s.reserveLease mac now).1.lease l).isStatic = false := by
  unfold V4Server.reserveLease
  cases next : s.nextIP with
  | none =>
    dsimp only
    cases expired : s.findExpiredLease now with
    | none => exact ⟨.refl s, by simp⟩
    | some l =>
      obtain ⟨member, dynamic, _⟩ := findExpiredLease_spec expired
      refine ⟨.setLease rfl rfl ?_, ?_⟩
      · intro formed
        refine ⟨formed.is4, ?_, formed.named, formed.expiry⟩
        rw [length_copyBytes]
        exact formed.hwAddr
      · intro here result
        obtain rfl : l = here := by simpa using result
        refine ⟨member, ?_⟩
        rw [lease_setLease (sound l member).1, if_pos rfl]
        exact dynamic
  | some ip =>
    have four : ip.is4 = true :=
      (s.conf.ipRange.mem_addrs (List.mem_of_find?_eq_some next)).1
    have formed : Formed env ⟨ip, 0, "", mac, false⟩ :=
      ⟨four, valid, fun named => absurd rfl named, fun _ => rfl⟩
    have grown : Evolves env s _ := .allocAdd formed
    have here : ({ s with heap := (s.heap.alloc ⟨ip, 0, "", mac, false⟩).1 } : V4Server).lease
        s.heap.size = ⟨ip, 0, "", mac, false⟩ := withObject_new s _
    dsimp only [alloc_ref]
    generalize ({ s with heap := (s.heap.alloc ⟨ip, 0, "", mac, false⟩).1 } : V4Server) = t
      at grown here
    cases attempt : t.addLease s.heap.size with
    | mk u result =>
      have same := addLease_lease t s.heap.size s.heap.size
      have cases := addLease_cases t s.heap.size
      rw [attempt] at grown same cases
      cases result with
      | error error => exact ⟨grown, by simp⟩
      | ok done =>
        refine ⟨grown, ?_⟩
        intro l returned
        obtain rfl : s.heap.size = l := by simpa using returned
        rcases cases with ⟨_, failed⟩ | ⟨appended, _⟩
        · exact absurd rfl failed
        · dsimp only at appended same ⊢
          rw [appended, same, here]
          simp

theorem Evolves.blocklistLease {l : Ref} (dynamic : (s.lease l).isStatic = false) (now : Time) :
    Evolves env s (s.blocklistLease l now) := by
  refine .setLease rfl rfl ?_
  intro formed
  refine ⟨formed.is4, .inl (by simp [defaultHwAddrLen]), fun named => absurd rfl named, ?_⟩
  intro static
  exact absurd static (by simp [dynamic])

/-- Reserving one address after another returns a dynamic lease of the table. -/
theorem Sound.allocateLease (sound : s.Sound env) {mac : HardwareAddr}
    (valid : mac.length = 6 ∨ mac.length = 8 ∨ mac.length = 20) (now : Time)
    (conflicts : List Conflict) :
    Evolves env s (s.allocateLease mac now conflicts).1 ∧
      ∀ l, (s.allocateLease mac now conflicts).2 = .ok (some l) →
        l ∈ (s.allocateLease mac now conflicts).1.leases ∧
          ((s.allocateLease mac now conflicts).1.lease l).isStatic = false := by
  induction conflicts generalizing s with
  | nil => exact sound.reserveLease valid now
  | cons conflict rest ih =>
    unfold V4Server.allocateLease
    have reserved := sound.reserveLease valid conflict.reservedAt
    cases attempt : s.reserveLease mac conflict.reservedAt with
    | mk t result =>
      rw [attempt] at reserved
      obtain ⟨evolves, returned⟩ := reserved
      cases result with
      | error error => exact ⟨evolves, by simp⟩
      | ok reserved =>
        cases reserved with
        | none => exact ⟨evolves, by simp⟩
        | some l =>
          have blocked := evolves.trans (.blocklistLease (returned l rfl).2 conflict.blockedAt)
          obtain ⟨later, result⟩ := ih (blocked.sound sound)
          exact ⟨blocked.trans later, result⟩

theorem Evolves.commitLease (documented : env.Documented) {l : Ref}
    (dynamic : (s.lease l).isStatic = false) (hostname : String) (now : Time) :
    Evolves env s (s.commitLease env l hostname now) := by
  unfold V4Server.commitLease
  dsimp only
  generalize chosen : (if (s.hostsIndex.get (validHostnameForClient env hostname
      (s.lease l).ip)).isSome = true then
    if (s.lease l).hostname = "" then generateHostname (s.lease l).ip
    else (s.lease l).hostname
    else validHostnameForClient env hostname (s.lease l).ip) = name
  have changed : Evolves env s (s.setLease l fun lease =>
      { lease with hostname := name, expiry := now + s.conf.leaseTime }) := by
    refine .setLease rfl rfl ?_
    intro formed
    refine ⟨formed.is4, formed.hwAddr, ?_, fun static => absurd static (by simp [dynamic])⟩
    intro named
    dsimp only at named ⊢
    obtain ⟨value, four⟩ := is4_eq formed.is4
    rw [← chosen] at named ⊢
    split
    · split
      · rw [four]
        exact normal_generated documented value
      · rename_i old
        exact formed.named old
    · rename_i unused
      rw [if_neg unused] at named
      rw [four] at named ⊢
      rcases validHostnameForClient_normal documented hostname value with none | normal
      · exact absurd none named
      · exact normal
  exact changed.trans (.shrink rfl rfl fun _ member => member)

theorem Sound.handleDiscover (sound : s.Sound env) {req : Message} (timing : Timing)
    (valid : req.clientHWAddr.length = 6 ∨ req.clientHWAddr.length = 8 ∨
      req.clientHWAddr.length = 20) : Evolves env s (s.handleDiscover req timing).1 := by
  unfold V4Server.handleDiscover
  split
  · exact .refl s
  · exact (sound.allocateLease valid _ _).1

theorem Evolves.handleRequest (documented : env.Documented) (req : Message) (timing : Timing)
    (resp : Reply) : Evolves env s (s.handleRequest env req timing resp).1 := by
  unfold V4Server.handleRequest
  split
  · exact .refl s
  · dsimp only
    split
    · exact .refl s
    · rename_i dynamic
      exact .commitLease documented (by simpa using dynamic) _ _

/-- The declined lease hands its name to the next one. -/
theorem Sound.handleDecline (sound : s.Sound env) {req : Message} (timing : Timing)
    (resp : Reply) (valid : req.clientHWAddr.length = 6 ∨ req.clientHWAddr.length = 8 ∨
      req.clientHWAddr.length = 20) : Evolves env s (s.handleDecline req timing resp).1 := by
  unfold V4Server.handleDecline
  dsimp only
  split
  · exact .refl s
  rename_i oldLease found
  have member : oldLease ∈ s.leases := by
    unfold findLeaseForIP at found
    split at found
    · cases found
    · exact List.mem_of_find?_eq_some found
  obtain ⟨known, formed, _⟩ := sound oldLease member
  have removed : Evolves env s (s.rmDynamicLease oldLease).1 := .rmDynamicLease _
  cases attempt : s.rmDynamicLease oldLease with
  | mk t rest =>
    obtain ⟨slots, result⟩ := rest
    rw [attempt] at removed
    cases result with
    | error error => exact removed
    | ok done =>
      dsimp only
      have soundT := removed.sound sound
      have allocated := soundT.allocateLease valid timing.reservedAt timing.conflicts
      cases next : t.allocateLease req.clientHWAddr timing.reservedAt timing.conflicts with
      | mk u result =>
        rw [next] at allocated
        obtain ⟨evolves, returned⟩ := allocated
        have reached := removed.trans evolves
        match result with
        | .error error => exact reached
        | .ok none => exact reached
        | .ok (some newLease) =>
          obtain ⟨present, dynamic⟩ := returned newLease rfl
          have old := (reached.objects oldLease known).2.2 formed
          dsimp only at old dynamic present ⊢
          have changed : Evolves env u (u.setLease newLease fun lease => { lease with
              hostname := (u.lease oldLease).hostname
              expiry := timing.committedAt + u.conf.leaseTime }) := by
            refine .setLease rfl rfl ?_
            intro was
            refine ⟨was.is4, was.hwAddr, old.named, fun static => ?_⟩
            exact absurd static (by simp [dynamic])
          have soundU := (reached.trans changed).sound sound
          obtain ⟨knownU, formedU, _⟩ := soundU newLease present
          have added := (reached.trans changed).trans (.addLease knownU formedU)
          generalize (u.setLease newLease fun lease => { lease with
            hostname := (u.lease oldLease).hostname
            expiry := timing.committedAt + u.conf.leaseTime }).addLease newLease = attempt at added
          obtain ⟨v, result⟩ := attempt
          cases result with
          | error error => exact added
          | ok done => exact added

theorem Evolves.handleRelease (req : Message) (resp : Reply) :
    Evolves env s (s.handleRelease req resp).1 := by
  rw [handleRelease_server]
  split
  · exact .refl s
  · exact .releaseLoop _ _ _ _ _

theorem Sound.packetHandler (sound : s.Sound env) (documented : env.Documented) (req : Message)
    (timing : Timing) : Evolves env s (s.packetHandler env req timing).1 := by
  rw [packetHandler_server]
  split
  · rename_i checked
    have valid := documented.validateMAC req.clientHWAddr checked
    cases req.messageType with
    | discover => exact sound.handleDiscover timing valid
    | request => exact .handleRequest documented req timing _
    | decline => exact sound.handleDecline timing _ valid
    | release => exact .handleRelease req _
  · exact .refl s

theorem checkStaticLease_formed (documented : env.Documented) {l checked : Lease}
    (passed : s.checkStaticLease env l = .ok checked) (expiry : l.expiry = 0) :
    Formed env checked := by
  have four := (checkStaticLease_spec passed).1
  unfold checkStaticLease at passed
  dsimp only at passed
  split at passed
  · cases passed
  split at passed
  · cases passed
  split at passed
  · cases passed
  rename_i validMAC
  have valid := documented.validateMAC l.hwAddr (by simpa using validMAC)
  split at passed
  · rename_i unnamed
    obtain rfl := Except.ok.inj passed
    exact ⟨four, valid, fun named => absurd unnamed named, fun _ => expiry⟩
  split at passed
  · cases passed
  rename_i hostname normalized
  split at passed
  · rename_i validName
    obtain rfl := Except.ok.inj passed
    refine ⟨four, valid, ?_, fun _ => expiry⟩
    exact fun _ => ⟨normalizeHostname_idem documented normalized, validName⟩
  · cases passed

theorem Evolves.addStaticLease (documented : env.Documented) {l : Lease} (expiry : l.expiry = 0) :
    Evolves env s (s.addStaticLease env l).1 := by
  unfold V4Server.addStaticLease
  cases checks : s.checkStaticLease env l with
  | error error => exact .refl s
  | ok checked =>
    have formed := checkStaticLease_formed documented checks expiry
    have grown : Evolves env s _ := .alloc checked
    have here : ({ s with heap := (s.heap.alloc checked).1 } : V4Server).lease s.heap.size =
        checked := withObject_new s checked
    have known : s.heap.size < (s.heap.alloc checked).1.size := by simp
    dsimp only [alloc_ref]
    unfold V4Server.updateStaticLease
    have removed : Evolves env { s with heap := (s.heap.alloc checked).1 } _ :=
      .rmDynamicLease s.heap.size
    cases attempt : ({ s with heap := (s.heap.alloc checked).1 } : V4Server).rmDynamicLease
        s.heap.size with
    | mk u rest =>
      obtain ⟨slots, result⟩ := rest
      rw [attempt] at removed
      cases result with
      | error error => exact grown.trans removed
      | ok done =>
        refine (grown.trans removed).trans (.addLease (Nat.lt_of_lt_of_le known removed.size) ?_)
        exact (removed.objects s.heap.size known).2.2 (by rwa [here])

theorem validateStaticLease_normal (documented : env.Documented) {l : Lease} {hostname : String}
    (valid : s.validateStaticLease env l = .ok hostname) : hostname ≠ "" → Normal env hostname := by
  intro named
  unfold validateStaticLease at valid
  split at valid
  · cases valid
  rename_i norm normalized
  split at valid
  · cases valid
  rename_i checked
  repeat' split at valid
  all_goals cases valid
  refine ⟨normalizeHostname_idem documented normalized, ?_⟩
  simpa [named] using checked

theorem Sound.updateStaticLeaseAPI (sound : s.Sound env) (documented : env.Documented) {l : Lease}
    (expiry : l.isStatic = true → l.expiry = 0) :
    Evolves env s (s.updateStaticLeaseAPI env l).1 := by
  unfold V4Server.updateStaticLeaseAPI
  cases search : s.findLease l.hwAddr with
  | none => exact .refl s
  | some found =>
    have member : found ∈ s.leases := List.mem_of_find?_eq_some search
    have mac : (s.lease found).hwAddr = l.hwAddr := by simpa using List.find?_some search
    dsimp only
    cases checks : s.validateStaticLease env l with
    | error error => exact .refl s
    | ok hostname =>
      have formed : Formed env { l with hostname } := by
        refine ⟨is4_of_contains (validateStaticLease_spec checks).1, ?_, ?_, expiry⟩
        · rw [← mac]
          exact (sound found member).2.1.hwAddr
        · exact validateStaticLease_normal documented checks
      have removed : Evolves env s (s.rmLease found).1 := .rmLease found
      dsimp only
      cases attempt : s.rmLease found with
      | mk t result =>
        rw [attempt] at removed
        cases result with
        | error error => exact removed
        | ok done => exact removed.trans (.allocAdd formed)

theorem Evolves.removeStaticLease (l : Lease) : Evolves env s (s.removeStaticLease env l).1 := by
  unfold V4Server.removeStaticLease
  split
  · exact .refl s
  split
  · exact .refl s
  · exact (Evolves.alloc l).trans (.rmLease _)

theorem Evolves.resetLease (documented : env.Documented) {l : Lease} (formed : Formed env l) :
    Evolves env s (s.resetLease env l) := by
  unfold V4Server.resetLease
  dsimp only [alloc_ref]
  split
  · exact .allocAdd formed
  · rename_i dynamic
    refine .allocAdd ⟨formed.is4, formed.hwAddr, ?_, formed.expiry⟩
    intro named
    obtain ⟨value, four⟩ := is4_eq formed.is4
    dsimp only at named ⊢
    rw [four] at named ⊢
    rcases validHostnameForClient_normal documented l.hostname value with none | normal
    · exact absurd none named
    · exact normal

theorem Evolves.resetRounds (documented : env.Documented) {leases : List Lease}
    (formed : ∀ l ∈ leases, Formed env l) :
    Evolves env s (leases.foldl (V4Server.resetLease env) s) := by
  induction leases generalizing s with
  | nil => exact .refl s
  | cons l rest ih =>
    have first : Evolves env s (s.resetLease env l) :=
      .resetLease documented (formed l List.mem_cons_self)
    exact first.trans (ih fun other later => formed other (List.mem_cons_of_mem _ later))

theorem Sound.resetLeases (documented : env.Documented) {leases : List Lease}
    (formed : ∀ l ∈ leases, Formed env l) : (s.resetLeases env leases).Sound env := by
  refine (Evolves.resetRounds documented formed).sound ?_
  intro l member
  cases member

theorem Sound.new (conf : V4ServerConf) : (new conf).Sound env := by
  intro l member
  cases member

end V4Server

end AdGuardHome.Dhcpd
