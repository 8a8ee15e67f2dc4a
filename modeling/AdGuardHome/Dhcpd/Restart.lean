import AdGuardHome.Dhcpsvc.JSONDatabase
import AdGuardHome.Lib.Sort
import AdGuardHome.Dhcpd.V4Storable

/-! Package `dhcpd`: the on-disk database for the lease table. -/
namespace AdGuardHome.Dhcpd

open Netip Heap Sorting
open Dhcpsvc (Lease JSONLease toJSONLease)

/-- `dbLease`, which has the fields of `dhcpsvc.jsonLease`. -/
abbrev DBLease := JSONLease

/-- `fromLease`. -/
def fromLease (l : Lease) : DBLease := toJSONLease l

/-- `dbLease.toLease`, where `none` is an error. -/
def DBLease.toLease (dl : DBLease) : Option Lease := dl.toInternal

/-- The comparison that `writeDB` sorts by. -/
def compareNames (a b : DBLease) : Int := a.compareNames b

abbrev Lease6 := { l : Lease // l.ip.is4 = false }

/-- `v4Server.getLeasesRef`, by what the references point at. -/
def V4Server.getLeasesRef (s : V4Server) : List Lease := s.leases.map s.lease

/-- `server.dbStore` and `writeDB`: the stored leases of both servers. -/
def dbStore (sortFunc : SortFunc DBLease) (srv4 : V4Server) (leases6 : List Lease6) :
    List DBLease :=
  sortFunc.sort compareNames ((srv4.getLeasesRef ++ leases6.map (·.val)).map fromLease)

/-- `server.dbLoad`: the DHCPv4 server after it, and the leases for the DHCPv6 server. -/
def dbLoad (env : Env) (srv4 : V4Server) (file : List DBLease) : V4Server × List Lease :=
  let leases := file.filterMap DBLease.toLease
  (srv4.resetLeases env (leases.filter fun l => l.ip.is4), leases.filter fun l => !l.ip.is4)

/-- `leaseStatic`, the body of a request about a static lease of the DHCPv4 server. -/
structure LeaseStatic where
  hwAddr : MacKey
  ip : BitVec 32
  hostname : String

/-- `leaseStatic.toLease`. -/
def LeaseStatic.toLease (l : LeaseStatic) : Lease := ⟨.v4 l.ip, 0, l.hostname, l.hwAddr.val, true⟩

/-- A message, a request of the HTTP API, or a restart that finds the stored leases. -/
inductive Request where
  | packet (req : Message) (timing : Timing)
  | addStaticLease (l : LeaseStatic)
  | updateStaticLease (l : LeaseStatic)
  | removeStaticLease (l : LeaseStatic)
  | resetLeases
  | restart (leases6 : List Lease6)

namespace Request

def step (env : Env) (sortFunc : SortFunc DBLease) (s : V4Server) : Request → V4Server × Answer
  | .packet req timing => s.step env (.packet req timing)
  | .addStaticLease l => s.step env (.addStaticLease l.toLease)
  | .updateStaticLease l => s.step env (.updateStaticLease l.toLease)
  | .removeStaticLease l => s.step env (.removeStaticLease l.toLease)
  | .resetLeases => s.step env (.resetLeases [])
  | .restart leases6 =>
    ((dbLoad env (.new s.conf) (dbStore sortFunc s leases6)).1, .done (.ok ()))

def machine (env : Env) (sortFunc : SortFunc DBLease) :
    Transition.Machine V4Server Request Answer := ⟨step env sortFunc⟩

end Request

open Dhcpsvc

theorem Formed.reread {env : Env} {l : Lease} (formed : Formed env l) :
    Formed env l.reread := by
  refine ⟨formed.is4, formed.hwAddr, formed.named, ?_⟩
  intro static
  exact if_pos static

namespace V4Server

variable {env : Env} {sortFunc : SortFunc DBLease} {s : V4Server} {leases6 : List Lease6}

/-- The name is free for the first lease if the second one has another. -/
def NameFree (l other : Lease) : Prop := l.hostname ≠ "" → other.hostname ≠ l.hostname

instance : DecidableRel NameFree := fun l other =>
  inferInstanceAs (Decidable (l.hostname ≠ "" → other.hostname ≠ l.hostname))

/-- The lease that a round of `ResetLeases` tries to add. -/
def renamed (env : Env) (l : Lease) : Lease :=
  if l.isStatic then l
  else { l with hostname := validHostnameForClient env l.hostname l.ip }

/-- The server has these leases, and its index of names knows them. -/
structure Filled (s : V4Server) (conf : V4ServerConf) (table : List Lease) : Prop where
  conf : s.conf = conf
  leases : s.getLeasesRef = table
  known : ∀ l ∈ s.leases, l < s.heap.size
  names : ∀ name ≠ "", (s.hostsIndex.get name).isSome = true ↔ ∃ l ∈ table, l.hostname = name

variable {conf : V4ServerConf}

/-- A lease that is admitted is appended unless its name is taken. -/
theorem Filled.addLease {table : List Lease} (filled : s.Filled conf table) {l : Ref}
    (known : l < s.heap.size) (admitted : admits conf (s.lease l) = true) :
    (s.addLease l).1.Filled conf
      (if ∀ other ∈ table, NameFree (s.lease l) other then table ++ [s.lease l] else table) := by
  obtain rfl := filled.conf
  unfold V4Server.addLease
  dsimp only
  unfold admits at admitted
  have inSubnet : ((s.lease l).isStatic && !s.conf.subnet.contains (s.lease l).ip) = false := by
    cases static : (s.lease l).isStatic with
    | true => simpa [static] using admitted
    | false => rfl
  have inRange : (!(s.lease l).isStatic && (s.conf.ipRange.offset (s.lease l).ip).isNone) =
      false := by
    cases static : (s.lease l).isStatic with
    | true => rfl
    | false => simpa [static, Option.isSome_iff_ne_none] using admitted
  rw [if_neg (by simp [inSubnet]), if_neg (by simp [inRange])]
  by_cases taken : (s.lease l).hostname ≠ "" ∧ (s.hostsIndex.get (s.lease l).hostname).isSome
  · rw [if_pos taken]
    obtain ⟨other, member, same⟩ := (filled.names _ taken.1).mp taken.2
    rw [if_neg]
    · exact filled
    · intro free
      exact free other member taken.1 same
  · have free : ∀ other ∈ table, NameFree (s.lease l) other := by
      intro other member named same
      exact taken ⟨named, (filled.names _ named).mpr ⟨other, member, same⟩⟩
    rw [if_neg taken, if_pos free]
    refine ⟨rfl, ?_, ?_, ?_⟩
    · rw [← filled.leases]
      simp only [getLeasesRef, List.map_append, List.map_cons, List.map_nil]
      rfl
    · intro other member
      simp only [List.mem_append, List.mem_singleton] at member
      rcases member with old | rfl
      · exact filled.known other old
      · exact known
    · intro name named
      simp only [List.mem_append, List.mem_singleton, or_and_right, exists_or,
        exists_eq_left, ← filled.names name named]
      by_cases unnamed : (s.lease l).hostname = ""
      · rw [if_neg (by simp [unnamed]), unnamed]
        simp [Ne.symm named]
      · rw [if_pos unnamed, FiniteMap.get_set]
        by_cases same : name = (s.lease l).hostname
        · rw [if_pos same]
          simp [same]
        · rw [if_neg same]
          simp [Ne.symm same]

theorem Filled.resetLease {table : List Lease} (filled : s.Filled conf table) (env : Env)
    {l : Lease} (admitted : admits conf l = true) :
    (s.resetLease env l).Filled conf
      (if ∀ other ∈ table, NameFree (renamed env l) other then table ++ [renamed env l]
      else table) := by
  have place : admits conf (renamed env l) = true := by
    unfold renamed
    split
    · exact admitted
    · exact admitted
  change (V4Server.addLease (s.withObject (renamed env l)) s.heap.size).1.Filled _ _
  generalize renamed env l = object at place ⊢
  have old : ∀ other ∈ s.leases, (s.withObject object).lease other = s.lease other := by
    intro other member
    rw [withObject, lease_alloc, if_neg (Nat.ne_of_lt (filled.known other member))]
  have stored : (s.withObject object).Filled conf table := by
    refine ⟨filled.conf, ?_, ?_, filled.names⟩
    · rw [← filled.leases]
      exact List.map_congr_left old
    · intro other member
      rw [withObject_size]
      exact Nat.lt_succ_of_lt (filled.known other member)
  have known : s.heap.size < (s.withObject object).heap.size := by
    rw [withObject_size]
    exact Nat.lt_succ_self _
  have added := stored.addLease known (by rwa [withObject_new])
  rwa [withObject_new] at added

/-- The first lease with a name keeps the others with that name out. -/
theorem Filled.resetRounds (done : List Lease) {leases : List Lease}
    (filled : s.Filled conf (done.reverse.pwFilter NameFree).reverse)
    (admitted : ∀ l ∈ leases, admits conf l = true) :
    (leases.foldl (V4Server.resetLease env) s).Filled conf
      ((done ++ leases.map (renamed env)).reverse.pwFilter NameFree).reverse := by
  induction leases generalizing s done with
  | nil => rwa [List.map_nil, List.append_nil]
  | cons l rest ih =>
    have next := filled.resetLease env (admitted l List.mem_cons_self)
    have grown : (if ∀ other ∈ (done.reverse.pwFilter NameFree).reverse,
          NameFree (renamed env l) other then
        (done.reverse.pwFilter NameFree).reverse ++ [renamed env l]
        else (done.reverse.pwFilter NameFree).reverse) =
        ((done ++ [renamed env l]).reverse.pwFilter NameFree).reverse := by
      rw [List.reverse_append, List.reverse_singleton, List.singleton_append]
      by_cases free : ∀ other ∈ done.reverse.pwFilter NameFree, NameFree (renamed env l) other
      · rw [List.pwFilter_cons_of_pos free, List.reverse_cons, if_pos]
        simpa using free
      · rw [List.pwFilter_cons_of_neg free, if_neg]
        simpa using free
    rw [grown] at next
    have later := ih _ next fun other member => admitted other (List.mem_cons_of_mem _ member)
    rwa [List.append_assoc] at later

theorem Filled.resetLeases (env : Env) (same : s.conf = conf) {leases : List Lease}
    (admitted : ∀ l ∈ leases, admits conf l = true) :
    (s.resetLeases env leases).Filled conf
      ((leases.map (renamed env)).reverse.pwFilter NameFree).reverse := by
  refine Filled.resetRounds [] ⟨same, rfl, ?_, ?_⟩ admitted
  · intro l member
    cases member
  · intro name _
    simp

structure Restores (stored restored : Lease) : Prop where
  ip : restored.ip = stored.ip
  hwAddr : restored.hwAddr = stored.hwAddr
  isStatic : restored.isStatic = stored.isStatic
  expiry : restored.expiry = stored.expiry / second * second
  hostname : stored.hostname ≠ "" → restored.hostname = stored.hostname

/-- A new server that loads what has been stored has one lease for each stored one. -/
def Survives (env : Env) (sortFunc : SortFunc DBLease) (s : V4Server) (leases6 : List Lease6) :
    Prop :=
  ∃ order, order.Perm s.getLeasesRef ∧ List.Forall₂ Restores order
    (dbLoad env (.new s.conf) (dbStore sortFunc s leases6)).1.getLeasesRef

/-- The name that a lease is loaded under: an unnamed dynamic one gets the name of its
address. -/
def loadedName (l : Lease) : String :=
  if l.isStatic = false ∧ l.hostname = "" then generateHostname l.ip else l.hostname

/-- No two leases are loaded under one name, unless they have none. -/
def NamesDiffer (leases : List Lease) : Prop :=
  leases.Pairwise fun a b => loadedName a ≠ "" → loadedName b ≠ loadedName a

instance (leases : List Lease) : Decidable (NamesDiffer leases) :=
  inferInstanceAs (Decidable (List.Pairwise _ leases))

/-- The sorted leases of the file are those of the table, if the ones of the other server
are left out. -/
theorem loaded_perm (sortFunc : SortFunc DBLease) (leases6 : List Lease6) (sound : s.Sound env) :
    (((dbStore sortFunc s leases6).filterMap DBLease.toLease).filter fun l => l.ip.is4).Perm
      (s.getLeasesRef.map Lease.reread) := by
  have stored := sortFunc.perm compareNames
    ((s.getLeasesRef ++ leases6.map (·.val)).map fromLease)
  refine ((stored.filterMap DBLease.toLease).filter _).trans (.of_eq ?_)
  rw [List.map_append, List.filterMap_append, List.filter_append]
  have own : ((s.getLeasesRef.map fromLease).filterMap DBLease.toLease).filter
      (fun l => l.ip.is4) = s.getLeasesRef.map Lease.reread := by
    rw [List.filterMap_map]
    have read : s.getLeasesRef.filterMap (DBLease.toLease ∘ fromLease) =
        s.getLeasesRef.map Lease.reread := by
      rw [← List.filterMap_eq_map]
      apply List.filterMap_congr
      intro l member
      obtain ⟨ref, present, rfl⟩ := List.mem_map.mp member
      have mac : macToKey (s.lease ref).hwAddr =
          some ⟨(s.lease ref).hwAddr, (sound ref present).2.1.hwAddr⟩ := macToKey_eq_some.mpr rfl
      rw [Function.comp_apply, DBLease.toLease, fromLease, toInternal_toJSONLease, mac]
      rfl
    rw [read, List.filter_eq_self]
    intro l member
    obtain ⟨before, present, rfl⟩ := List.mem_map.mp member
    obtain ⟨ref, inTable, rfl⟩ := List.mem_map.mp present
    exact (sound ref inTable).2.1.is4
  have others : (((leases6.map (·.val)).map fromLease).filterMap DBLease.toLease).filter
      (fun l => l.ip.is4) = [] := by
    rw [List.filter_eq_nil_iff]
    intro l member
    simp only [List.mem_filterMap, List.mem_map] at member
    obtain ⟨dl, ⟨before, ⟨lease6, _, rfl⟩, rfl⟩, read⟩ := member
    rw [JSONLease.toInternal_ip read, fromLease, toJSONLease, lease6.property]
    simp
  rw [own, others, List.append_nil]

theorem renamed_reread (documented : env.Documented) {l : Lease} (formed : Formed env l) :
    Restores l (renamed env l.reread) ∧ (renamed env l.reread).hostname = loadedName l := by
  cases static : l.isStatic with
  | true =>
    have same : renamed env l.reread = l.reread := if_pos static
    rw [same]
    refine ⟨⟨rfl, rfl, rfl, ?_, fun _ => rfl⟩, ?_⟩
    · rw [formed.expiry static, Lease.reread, if_pos static]
      rfl
    · rw [loadedName, if_neg (by simp [static])]
      rfl
  | false =>
    have same : renamed env l.reread =
        { l.reread with hostname := validHostnameForClient env l.hostname l.ip } :=
      if_neg (by simp [Lease.reread, static])
    have expiry : l.reread.expiry = l.expiry / second * second := if_neg (by simp [static])
    have kept : l.hostname ≠ "" → validHostnameForClient env l.hostname l.ip = l.hostname :=
      fun named => validHostnameForClient_of_normal (formed.named named) named l.ip
    rw [same]
    refine ⟨⟨rfl, rfl, rfl, expiry, kept⟩, ?_⟩
    by_cases named : l.hostname = ""
    · obtain ⟨value, four⟩ := is4_eq formed.is4
      rw [loadedName, if_pos ⟨static, named⟩, four, named]
      exact validHostnameForClient_empty documented value
    · rw [loadedName, if_neg (fun both => named both.2)]
      exact kept named

theorem Sound.survives_iff (sound : s.Sound env) (documented : env.Documented) :
    s.Survives env sortFunc leases6 ↔ NamesDiffer s.getLeasesRef := by
  have formed : ∀ l ∈ s.getLeasesRef, Formed env l ∧ admits s.conf l = true := by
    intro l member
    obtain ⟨ref, present, rfl⟩ := List.mem_map.mp member
    exact (sound ref present).2
  have perm := loaded_perm sortFunc leases6 sound
  unfold Survives dbLoad
  dsimp only
  generalize (((dbStore sortFunc s leases6).filterMap DBLease.toLease).filter fun l =>
    l.ip.is4) = loaded at perm ⊢
  have admitted : ∀ l ∈ loaded, admits s.conf l = true := by
    intro l member
    obtain ⟨before, present, rfl⟩ := List.mem_map.mp (perm.mem_iff.mp member)
    exact (formed before present).2
  rw [(Filled.resetLeases env (s := V4Server.new s.conf) rfl admitted).leases]
  have added : (loaded.map (renamed env)).Perm
      (s.getLeasesRef.map fun l => renamed env l.reread) := by
    have mapped := perm.map (renamed env)
    rwa [List.map_map] at mapped
  -- The names differ in the table exactly if they differ in the order of the file.
  have symmetric : ∀ {a b : Lease}, NameFree b a → NameFree a b := by
    intro a b free named same
    exact free (by rwa [same]) same.symm
  have differ : NamesDiffer s.getLeasesRef ↔ (loaded.map (renamed env)).reverse.Pairwise
      NameFree := by
    rw [List.pairwise_reverse, added.pairwise_iff symmetric, List.pairwise_map]
    refine List.Pairwise.iff_of_mem ?_
    intro a b first second
    rw [NameFree, (renamed_reread documented (formed a first).1).2,
      (renamed_reread documented (formed b second).1).2]
    exact ⟨fun free named same => free (by rwa [same]) same.symm,
      fun free named same => free (by rwa [same]) same.symm⟩
  rw [differ]
  constructor
  · rintro ⟨order, ofTable, restored⟩
    have all : ((loaded.map (renamed env)).reverse.pwFilter NameFree).length =
        (loaded.map (renamed env)).reverse.length := by
      have same := restored.length_eq
      rw [List.length_reverse, ofTable.length_eq] at same
      rw [← same, List.length_reverse, added.length_eq, List.length_map]
    rw [← List.pwFilter_eq_self]
    exact List.Sublist.eq_of_length (List.pwFilter_sublist _) all
  · intro distinct
    rw [List.pwFilter_eq_self.mpr distinct, List.reverse_reverse]
    have restored : List.Forall₂ Restores s.getLeasesRef
        (s.getLeasesRef.map fun l => renamed env l.reread) := by
      rw [List.forall₂_map_right_iff, List.forall₂_same]
      intro l member
      exact (renamed_reread documented (formed l member).1).1
    have swapped : Relation.Comp (List.Forall₂ Restores) List.Perm s.getLeasesRef
        (loaded.map (renamed env)) := ⟨_, restored, added.symm⟩
    rw [List.forall₂_comp_perm_eq_perm_comp_forall₂] at swapped
    obtain ⟨order, ofTable, inOrder⟩ := swapped
    exact ⟨order, ofTable.symm, inOrder⟩

end V4Server

namespace Request

variable {env : Env} {sortFunc : SortFunc DBLease}

theorem sound_step (documented : env.Documented) (s : V4Server) (request : Request)
    (sound : s.Sound env) : ((machine env sortFunc).next s request).Sound env := by
  cases request with
  | packet req timing => exact (sound.packetHandler documented req timing).sound sound
  | addStaticLease l => exact (V4Server.Evolves.addStaticLease documented rfl).sound sound
  | updateStaticLease l =>
    exact (sound.updateStaticLeaseAPI documented fun _ => rfl).sound sound
  | removeStaticLease l => exact (V4Server.Evolves.removeStaticLease l.toLease).sound sound
  | resetLeases => exact V4Server.Sound.resetLeases documented (by simp)
  | restart leases6 =>
    apply V4Server.Sound.resetLeases documented
    intro l member
    obtain ⟨before, present, rfl⟩ :=
      List.mem_map.mp ((V4Server.loaded_perm sortFunc leases6 sound).mem_iff.mp member)
    obtain ⟨ref, inTable, rfl⟩ := List.mem_map.mp present
    exact (sound ref inTable).2.1.reread

theorem sound_reachable (documented : env.Documented) {conf : V4ServerConf} {s : V4Server}
    (reached : (machine env sortFunc).Reachable (.new conf) s) : s.Sound env :=
  (machine env sortFunc).reachable_invariant (V4Server.Sound env) (sound_step documented)
    (.new conf) reached

/-- A table reached by messages, requests and restarts survives the next restart exactly if
no two of its leases are loaded under one name. -/
theorem leases_survive (documented : env.Documented) {conf : V4ServerConf} {s : V4Server}
    (reached : (machine env sortFunc).Reachable (.new conf) s) (leases6 : List Lease6) :
    s.Survives env sortFunc leases6 ↔ V4Server.NamesDiffer s.getLeasesRef :=
  (sound_reachable documented reached).survives_iff documented

section Examples

/-- Hyphens separate the parts of a name, and every name is valid. -/
private def hyphenEnv : Env := ⟨id, fun c => c != '-', fun _ => true, fun mac => mac.length == 6⟩

private theorem hyphenEnv_documented : hyphenEnv.Documented where
  toLower := ⟨id, fun s => (List.map_id s.toList).symm, fun _ => rfl, rfl, fun _ _ => rfl⟩
  hyphen := rfl
  digit := by
    intro c digit
    simp only [hyphenEnv, bne_iff_ne, ne_eq]
    rintro rfl
    cases digit
  generated := fun _ => rfl
  validateMAC := by
    intro mac valid
    exact .inl (by simpa [hyphenEnv] using valid)

private theorem gateway_zoneless : (Addr.v4 0xc0a80101).zone = "" := rfl

private theorem gateway_is4 : (Addr.v4 0xc0a80101).is4 = true := rfl

private theorem range_ordered : (0xc0a80164 : BitVec 32) < 0xc0a80165 := by decide

private def smallRange : V4ServerConf where
  gatewayIP := .v4 0xc0a80101
  subnet := ⟨.v4 0xc0a80101, 24, gateway_zoneless⟩
  subnet4 := gateway_is4
  ipRange := ⟨0xc0a80164, 0xc0a80165, range_ordered⟩
  leaseTime := 3600
  dnsIPAddr := 0xc0a80101

private def discovery : Request :=
  .packet ⟨.discover, [2, 0, 0, 0, 0, 1], none, none, none, "", false⟩ ⟨[], 0, 0⟩

private def staticLease (hostname : String) : Request :=
  .addStaticLease ⟨⟨[2, 0, 0, 0, 0, 2], .inl rfl⟩, 0xc0a80132, hostname⟩

theorem leases_survive_printer :
    ((machine hyphenEnv .insertion).run (.new smallRange)
      [discovery, staticLease "printer"]).Survives hyphenEnv .insertion [] := by
  refine (leases_survive hyphenEnv_documented ⟨_, rfl⟩ []).mpr ?_
  decide +kernel

/-- The offered lease is loaded first and takes the name that the static lease has. -/
theorem leases_lost : ¬ ∀ requests,
    ((machine hyphenEnv .insertion).run (.new smallRange) requests).Survives hyphenEnv
      .insertion [] := by
  intro survive
  obtain ⟨order, ofTable, restored⟩ := survive [discovery, staticLease "192-168-1-100"]
  have lengths := ofTable.length_eq.symm.trans restored.length_eq
  revert lengths
  decide +kernel

end Examples

end Request

end AdGuardHome.Dhcpd
