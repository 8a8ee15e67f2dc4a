import AdGuardHome.Dhcpd.V4AddStatic

namespace AdGuardHome.Dhcpd

open Netip Heap
open Dhcpsvc (Lease Time Duration)

namespace V4Server

/-- No two leases of the table have one hostname, and the index maps exactly the hostnames of
the leases to their lease. -/
structure HostsAgree (s : V4Server) : Prop where
  unique : s.leases.Pairwise fun a b =>
    (s.lease a).hostname ≠ "" → (s.lease a).hostname ≠ (s.lease b).hostname
  index : ∀ name l, s.hostsIndex.get name = some l ↔
    name ≠ "" ∧ l ∈ s.leases ∧ (s.lease l).hostname = name

structure Indexed (s : V4Server) : Prop where
  known : ∀ l ∈ s.leases, l < s.heap.size
  once : s.leases.Nodup
  index : ∀ name l, s.hostsIndex.get name = some l ↔
    name ≠ "" ∧ l ∈ s.leases ∧ (s.lease l).hostname = name

namespace Indexed

variable {s t : V4Server}

theorem new (conf : V4ServerConf) : (V4Server.new conf).Indexed where
  known := by simp [V4Server.new]
  once := by simp [V4Server.new]
  index := by simp [V4Server.new]

theorem eq_of_hostname (indexed : s.Indexed) {a b : Ref} (first : a ∈ s.leases)
    (second : b ∈ s.leases) (same : (s.lease a).hostname = (s.lease b).hostname)
    (named : (s.lease a).hostname ≠ "") : a = b := by
  have atFirst := (indexed.index _ a).mpr ⟨named, first, rfl⟩
  have atSecond := (indexed.index _ b).mpr ⟨named, second, same.symm⟩
  exact Option.some.inj (atFirst.symm.trans atSecond)

theorem hostsAgree (indexed : s.Indexed) : s.HostsAgree where
  unique := by
    refine indexed.once.imp_of_mem ?_
    intro a b first second different named same
    exact different (indexed.eq_of_hostname first second same named)
  index := indexed.index

theorem not_named (indexed : s.Indexed) {name : String} (free : s.hostsIndex.get name = none)
    (nonempty : name ≠ "") {l : Ref} (member : l ∈ s.leases) : (s.lease l).hostname ≠ name := by
  intro same
  have found := (indexed.index name l).mpr ⟨nonempty, member, same⟩
  rw [free] at found
  cases found

/-- The table, the hostnames and their index are all that matters. -/
theorem frame (indexed : s.Indexed) (leases : t.leases = s.leases)
    (index : t.hostsIndex = s.hostsIndex) (grown : s.heap.size ≤ t.heap.size)
    (same : ∀ l ∈ s.leases, (t.lease l).hostname = (s.lease l).hostname) : t.Indexed where
  known := by
    intro l member
    rw [leases] at member
    exact Nat.lt_of_lt_of_le (indexed.known l member) grown
  once := by
    rw [leases]
    exact indexed.once
  index := by
    intro name l
    rw [index, leases, indexed.index]
    refine and_congr_right fun _ => and_congr_right fun member => ?_
    rw [same l member]

theorem setLease (indexed : s.Indexed) {l : Ref} {change : Lease → Lease}
    (same : (change (s.lease l)).hostname = (s.lease l).hostname) :
    (s.setLease l change).Indexed := by
  by_cases known : l < s.heap.size
  · refine indexed.frame rfl rfl (by simp [V4Server.setLease]) ?_
    intro other _
    rw [lease_setLease known]
    split
    · rename_i here
      rw [here, same]
    · rfl
  · rwa [setLease_unknown (Nat.le_of_not_lt known)]

theorem withObject (indexed : s.Indexed) (object : Lease) : (s.withObject object).Indexed := by
  refine indexed.frame rfl rfl ?_ ?_
  · rw [withObject_size]
    exact Nat.le_succ _
  · intro l member
    rw [V4Server.withObject, lease_alloc, if_neg (Nat.ne_of_lt (indexed.known l member))]

theorem rmLeaseByIndex (indexed : s.Indexed) (i : Nat) : (s.rmLeaseByIndex i).Indexed := by
  unfold V4Server.rmLeaseByIndex
  cases found : s.leases[i]? with
  | none => exact indexed
  | some l =>
    have member : l ∈ s.leases := List.mem_of_getElem? found
    have sub : (s.leases.eraseIdx i).Sublist s.leases := List.eraseIdx_sublist _ _
    refine ⟨fun other remains => indexed.known other (sub.subset remains),
      indexed.once.sublist sub, ?_⟩
    intro name other
    change (s.hostsIndex.delete (s.lease l).hostname).get name = some other ↔
      name ≠ "" ∧ other ∈ s.leases.eraseIdx i ∧ (s.lease other).hostname = name
    rw [FiniteMap.get_delete, mem_eraseIdx_of_nodup indexed.once found]
    split
    · rename_i same
      subst same
      constructor
      · intro impossible
        cases impossible
      · rintro ⟨named, ⟨present, different⟩, same⟩
        exact absurd (indexed.eq_of_hostname present member same (by rwa [same])) different
    · rename_i other_name
      rw [indexed.index]
      refine and_congr_right fun _ => ⟨?_, ?_⟩
      · rintro ⟨present, named⟩
        refine ⟨⟨present, ?_⟩, named⟩
        rintro rfl
        exact other_name named.symm
      · rintro ⟨⟨present, _⟩, named⟩
        exact ⟨present, named⟩

theorem addLease (indexed : s.Indexed) {l : Ref} (known : l < s.heap.size)
    (unlisted : l ∉ s.leases) : (s.addLease l).1.Indexed := by
  unfold V4Server.addLease
  dsimp only
  split
  · exact indexed
  split
  · exact indexed
  split
  · exact indexed
  rename_i unique
  have free : (s.lease l).hostname ≠ "" → s.hostsIndex.get (s.lease l).hostname = none := by
    intro named
    by_contra taken
    exact unique ⟨named, Option.isSome_iff_ne_none.mpr taken⟩
  refine ⟨?_, ?_, ?_⟩
  · intro other member
    rcases List.mem_append.mp member with old | new
    · exact indexed.known other old
    · rwa [List.mem_singleton.mp new]
  · refine List.nodup_append.mpr ⟨indexed.once, List.nodup_singleton l, ?_⟩
    rintro a old b new rfl
    rw [List.mem_singleton.mp new] at old
    exact unlisted old
  · intro name other
    change FiniteMap.get (if (s.lease l).hostname ≠ "" then
      s.hostsIndex.set (s.lease l).hostname l else s.hostsIndex) name = some other ↔
        name ≠ "" ∧ other ∈ s.leases ++ [l] ∧ (s.lease other).hostname = name
    have before := indexed.index name other
    by_cases here : (s.lease l).hostname = name ∧ name ≠ ""
    · obtain ⟨rfl, named⟩ := here
      rw [if_pos named, FiniteMap.get_set_self, Option.some.injEq]
      constructor
      · rintro rfl
        exact ⟨named, by simp, rfl⟩
      · rintro ⟨_, member, same⟩
        rcases List.mem_append.mp member with old | new
        · exact absurd same (indexed.not_named (free named) named old)
        · exact (List.mem_singleton.mp new).symm
    · have unchanged : FiniteMap.get (if (s.lease l).hostname ≠ "" then
          s.hostsIndex.set (s.lease l).hostname l else s.hostsIndex) name =
          s.hostsIndex.get name := by
        split
        · rename_i named
          rw [FiniteMap.get_set, if_neg]
          rintro rfl
          exact here ⟨rfl, named⟩
        · rfl
      rw [unchanged, before]
      refine and_congr_right fun named => and_congr_left fun same => ?_
      rw [List.mem_append, List.mem_singleton]
      constructor
      · exact Or.inl
      · rintro (old | rfl)
        · exact old
        · exact absurd ⟨same, named⟩ here

theorem addObject (indexed : s.Indexed) (object : Lease) :
    ((s.withObject object).addLease s.heap.size).1.Indexed :=
  (indexed.withObject object).addLease (by simp [withObject_size]) fun member =>
    Nat.lt_irrefl _ (indexed.known _ member)

theorem rmLease (indexed : s.Indexed) (lease : Ref) : (s.rmLease lease).1.Indexed := by
  unfold V4Server.rmLease
  split
  · exact indexed
  split
  · exact indexed
  dsimp only
  split
  · exact indexed
  · exact indexed.rmLeaseByIndex _

end Indexed

/-- The loop that removes dynamic leases for a lease empties no hostname of the table. -/
def Spares (s : V4Server) (lease : Lease) : Prop :=
  ∀ x ∈ (s.swept lease).checked, s.sharesHostname lease x = false

/-- The leases with one address and one hardware address, which a release gives up: none
that has a hostname is only looked into, because it follows one that the loop removes. -/
def ReleaseSpares (s : V4Server) (mac : HardwareAddr) (ip : Addr) : Prop :=
  ∀ l ∈ s.leases, (s.lease l).hwAddr = mac → (s.lease l).ip = ip →
    l ∈ (s.swept (s.lease l)).checked → (s.lease l).hostname = ""

/-- Every reservation that ends in a conflict, in the state it is made in: with no address
free, the expired lease that it would recycle has no hostname. -/
def ConflictsSpare (mac : HardwareAddr) : List Conflict → V4Server → Prop
  | [], _ => True
  | conflict :: rest, s =>
    (s.nextIP = none → ∀ l, s.findExpiredLease conflict.reservedAt = some l →
      (s.lease l).hostname = "") ∧
    ∀ l, (s.reserveLease mac conflict.reservedAt).2 = .ok (some l) →
      ConflictsSpare mac rest
        ((s.reserveLease mac conflict.reservedAt).1.blocklistLease l conflict.blockedAt)

/-- A lease without a hostname whose client asks for a taken one can have the name that is
generated from its address. -/
def Nameable (env : Env) (s : V4Server) (l : Ref) (hostname : String) : Prop :=
  (s.lease l).hostname = "" →
    (s.hostsIndex.get (validHostnameForClient env hostname (s.lease l).ip)).isSome = true →
      s.hostsIndex.get (generateHostname (s.lease l).ip) = none

theorem swept_congr (s : V4Server) {first second : Lease} (mac : first.hwAddr = second.hwAddr)
    (ip : first.ip = second.ip) : s.swept first = s.swept second := by
  have same : s.sharesAddress first = s.sharesAddress second := by
    funext x
    simp only [sharesAddress, sameAs, mac, ip]
  rw [swept, swept, same]

theorem mem_shift {slots : List Ref} {n i : Nat} {x : Ref} (member : x ∈ shift slots n i) :
    x ∈ slots := by
  rcases List.mem_append.mp member with front | back
  · rcases List.mem_append.mp front with before | behind
    · exact List.mem_of_mem_take before
    · exact List.mem_of_mem_take (List.mem_of_mem_drop behind)
  · exact List.mem_of_mem_drop back

theorem rmDynamicLoop_slots (lease : Ref) (count i : Nat) (slots : List Ref) (s : V4Server) :
    ∀ x ∈ (rmDynamicLoop lease count i slots s).2.1, x ∈ slots := by
  have shifted : ∀ (slots : List Ref) (n i : Nat),
      ∀ x ∈ (if i < n then shift slots n i else slots), x ∈ slots := by
    intro slots n i x member
    split at member
    · exact mem_shift member
    · exact member
  have rounds := rounds_rmDynamicLoop lease count i slots s
  generalize rmDynamicLoop lease count i slots s = result at rounds ⊢
  induction rounds with
  | done => exact fun x member => member
  | refuse same static => exact fun x member => member
  | last same dynamic last => exact shifted _ _ _
  | beyond same dynamic none => exact shifted _ _ _
  | remove same dynamic next rest ih => exact fun x member => shifted _ _ _ x (ih x member)
  | pass different rest ih => exact ih

theorem sharesHostname_eq_false {s : V4Server} {lease : Lease} {x : Ref} :
    s.sharesHostname lease x = false ↔
      ((s.lease x).hostname = lease.hostname → lease.hostname = "") := by
  unfold sharesHostname
  by_cases named : lease.hostname = ""
  · simp [named]
  · simp [named]

/-- What the loop for a lease makes of the table if it empties no hostname of it. -/
structure SparedLoop (s t : V4Server) (swept : Swept Ref) : Prop where
  size : t.heap.size = s.heap.size
  leases : t.leases = swept.kept
  objects : ∀ x, t.lease x = s.lease x
  hosts : ∀ name, t.hostsIndex.get name =
    if ∃ x ∈ swept.removed, (s.lease x).hostname = name then none else s.hostsIndex.get name

theorem Spares.loop {s : V4Server} (known : ∀ x ∈ s.leases, x < s.heap.size) {l : Ref}
    (spares : s.Spares (s.lease l)) :
    SparedLoop s (s.rmDynamicLease l).1 (s.swept (s.lease l)) ∧
      (s.rmDynamicLease l).2.2 =
        if (s.swept (s.lease l)).refused then .error .staticLeaseExists else .ok () := by
  have settled : ∀ x ∈ (s.swept (s.lease l)).checked,
      (s.lease x).hostname = (s.lease l).hostname → (s.lease l).hostname = "" :=
    fun x looked => sharesHostname_eq_false.mp (spares x looked)
  have standing : Standing l (s.sharesAddress (s.lease l)) s.static (s.lease l).hostname s s.leases
      0 s.leases.length := .start known (fun _ _ => rfl) fun _ _ => rfl
  have whole : s.leases = [] ++ s.leases := rfl
  obtain ⟨outcome, ends⟩ := standing.loop whole rfl fun looked => settled l looked rfl
  refine ⟨⟨(Trimmed.rmDynamicLease s l).size, outcome.leases, ?_, ?_⟩, ends⟩
  · intro x
    exact (outcome.objects x).trans (cleared_settled settled x)
  · exact outcome.hosts fun x looked _ => settled x looked

namespace Indexed

variable {s t : V4Server}

theorem sparedLoop (indexed : s.Indexed) {lease : Lease} (loop : SparedLoop s t (s.swept lease)) :
    t.Indexed := by
  have all := sweep_perm (s.sharesAddress lease) s.static s.leases
  have sub : ∀ x ∈ (s.swept lease).kept, x ∈ s.leases :=
    fun x member => (sweep_kept s.leases).subset member
  have apart : ∀ x ∈ (s.swept lease).kept, x ∉ (s.swept lease).removed := by
    have once := all.nodup_iff.mpr indexed.once
    intro x kept removed
    exact List.disjoint_of_nodup_append once kept removed
  refine ⟨?_, ?_, ?_⟩
  · intro x member
    rw [loop.leases] at member
    rw [loop.size]
    exact indexed.known x (sub x member)
  · rw [loop.leases]
    exact indexed.once.sublist (sweep_kept s.leases)
  · intro name x
    rw [loop.hosts, loop.leases, loop.objects]
    split
    · rename_i removed
      obtain ⟨y, removed, same⟩ := removed
      have listed : y ∈ s.leases := (sweep_members _ _ _).1 y removed
      constructor
      · intro impossible
        cases impossible
      · rintro ⟨named, kept, here⟩
        have one := indexed.eq_of_hostname (sub x kept) listed (here.trans same.symm)
          (by rwa [here])
        exact absurd (one ▸ removed) (apart x kept)
    · rename_i remains
      rw [indexed.index]
      refine and_congr_right fun named => and_congr_left fun here => ?_
      constructor
      · intro member
        rcases List.mem_append.mp (all.mem_iff.mpr member) with kept | removed
        · exact kept
        · exact absurd ⟨x, removed, here⟩ remains
      · exact sub x

/-- The leases that a release gives up go or have no hostname left. -/
theorem releaseLoop {mac : HardwareAddr} {ip : Addr} (original : s.Indexed) (count i : Nat)
    {slots : List Ref} (indexed : t.Indexed) (objects : ∀ x, t.lease x = s.lease x)
    (fewer : ∀ x ∈ t.leases, x ∈ s.leases) (shown : ∀ x ∈ slots, x ∈ s.leases)
    (enough : i + count ≤ slots.length) (spares : t.ReleaseSpares mac ip) :
    (releaseLoop mac ip count i slots t).1.Indexed := by
  induction count generalizing i slots t with
  | zero => exact indexed
  | succ count ih =>
    unfold V4Server.releaseLoop
    dsimp only
    split
    · exact ih (i + 1) indexed objects fewer shown (by omega) spares
    rename_i owned
    simp only [ne_eq, not_or, not_not] at owned
    obtain ⟨sameMac, sameIP⟩ := owned
    have listed : slots.getD i 0 ∈ s.leases := by
      rw [List.getD_eq_getElem?_getD, List.getElem?_eq_getElem (by omega)]
      exact shown _ (List.getElem_mem _)
    generalize slots.getD i 0 = l at sameMac sameIP listed
    -- Hostnames are unique, so the loop can only empty that of the lease itself.
    have spared : t.Spares (t.lease l) := by
      intro x looked
      have present : x ∈ t.leases := (sweep_members _ _ _).2 x looked
      rw [sharesHostname_eq_false]
      intro same
      by_contra named
      rw [objects, objects] at same
      rw [objects] at named
      have one := original.eq_of_hostname (fewer x present) listed same (by rwa [same])
      subst one
      exact named ((congrArg (·.hostname) (objects x)).symm.trans
        (spares x present sameMac sameIP looked))
    obtain ⟨loop, ends⟩ := spared.loop indexed.known
    have next := indexed.sparedLoop loop
    have moved := rmDynamicLoop_slots l t.leases.length 0 t.leases t
    cases attempt : t.rmDynamicLease l with
    | mk u rest =>
      obtain ⟨shifted, result⟩ := rest
      rw [attempt] at loop ends next
      replace moved : ∀ x ∈ shifted, x ∈ t.leases := by
        rw [← V4Server.rmDynamicLease, attempt] at moved
        exact moved
      cases result with
      | error error => exact next
      | ok done =>
        have passed : (t.swept (t.lease l)).refused = false := by
          cases refused : (t.swept (t.lease l)).refused with
          | false => rfl
          | true => simp [refused] at ends
        have remains : ∀ x ∈ u.leases, x ∈ t.leases := by
          rw [loop.leases]
          exact fun x member => (sweep_kept t.leases).subset member
        refine ih (i + 1) next (fun x => (loop.objects x).trans (objects x))
          (fun x member => fewer x (remains x member)) ?_ ?_ ?_
        · intro x member
          rcases List.mem_append.mp member with front | back
          · exact fewer x (moved x front)
          · exact shown x (List.mem_of_mem_drop back)
        · rw [List.length_append, List.length_drop]
          omega
        · intro x member xMac xIP _
          rw [loop.objects] at xMac xIP ⊢
          have same := swept_congr t (xMac.trans sameMac.symm) (xIP.trans sameIP.symm)
          refine spares x (remains x member) xMac xIP ?_
          rw [loop.leases] at member
          rw [same]
          exact sweep_kept_hit passed member (by simp [sharesAddress, sameAs, xMac, sameMac])

/-- One reservation: the lease it returns has no hostname unless it is recycled. -/
theorem reserveLease (indexed : s.Indexed) (mac : HardwareAddr) (now : Time) :
    (s.reserveLease mac now).1.Indexed ∧
      ((s.nextIP = none → ∀ l, s.findExpiredLease now = some l → (s.lease l).hostname = "") →
        ∀ l, (s.reserveLease mac now).2 = .ok (some l) →
          ((s.reserveLease mac now).1.lease l).hostname = "") := by
  unfold V4Server.reserveLease
  cases next : s.nextIP with
  | none =>
    dsimp only
    cases expired : s.findExpiredLease now with
    | none => exact ⟨indexed, by simp⟩
    | some l =>
      refine ⟨indexed.setLease rfl, ?_⟩
      intro unnamed here returned
      obtain rfl : l = here := by simpa using returned
      rw [lease_setLease (indexed.known l (findExpiredLease_spec expired).1), if_pos rfl]
      exact unnamed rfl l rfl
  | some ip =>
    dsimp only [alloc_ref]
    rw [← V4Server.withObject]
    have added := indexed.addObject ⟨ip, 0, "", mac, false⟩
    have fresh := addLease_lease (s.withObject ⟨ip, 0, "", mac, false⟩) s.heap.size s.heap.size
    rw [withObject_new] at fresh
    cases attempt : (s.withObject ⟨ip, 0, "", mac, false⟩).addLease s.heap.size with
    | mk u result =>
      rw [attempt] at added fresh
      cases result with
      | error error => exact ⟨added, by simp⟩
      | ok done =>
        refine ⟨added, ?_⟩
        intro _ l returned
        obtain rfl : s.heap.size = l := by simpa using returned
        exact congrArg (·.hostname) fresh

theorem allocateLease (indexed : s.Indexed) {mac : HardwareAddr} (now : Time)
    {conflicts : List Conflict} (spare : ConflictsSpare mac conflicts s) :
    (s.allocateLease mac now conflicts).1.Indexed := by
  induction conflicts generalizing s with
  | nil => exact (indexed.reserveLease mac now).1
  | cons conflict rest ih =>
    obtain ⟨unnamed, later⟩ := spare
    obtain ⟨reserved, returned⟩ := indexed.reserveLease mac conflict.reservedAt
    have returned := returned unnamed
    unfold V4Server.allocateLease
    cases attempt : s.reserveLease mac conflict.reservedAt with
    | mk u result =>
      rw [attempt] at reserved returned later
      cases result with
      | error error => exact reserved
      | ok found =>
        cases found with
        | none => exact reserved
        | some l =>
          refine ih (reserved.setLease ?_) (later l rfl)
          exact (returned l rfl).symm

/-- A lease of the table gets a hostname that is empty, its own or not in the index. -/
theorem rename (indexed : s.Indexed) {l : Ref} (member : l ∈ s.leases) {name : String}
    (fresh : name = "" ∨ name = (s.lease l).hostname ∨ s.hostsIndex.get name = none)
    (leases : t.leases = s.leases) (size : t.heap.size = s.heap.size)
    (names : ∀ x, (t.lease x).hostname = if x = l then name else (s.lease x).hostname)
    (index : ∀ other, t.hostsIndex.get other =
      if name ≠ "" ∧ other = name then some l
      else if (s.lease l).hostname ≠ "" ∧ other = (s.lease l).hostname then none
      else s.hostsIndex.get other) : t.Indexed := by
  have taken : ∀ x ∈ s.leases, (s.lease x).hostname = name → name ≠ "" → x = l := by
    intro x listed same named
    rcases fresh with empty | own | free
    · exact absurd empty named
    · exact indexed.eq_of_hostname listed member (same.trans own) (by rwa [same])
    · exact absurd same (indexed.not_named free named listed)
  refine ⟨?_, ?_, ?_⟩
  · rw [leases, size]
    exact indexed.known
  · rw [leases]
    exact indexed.once
  · intro other x
    rw [index, leases, names]
    split
    · rename_i here
      obtain ⟨named, rfl⟩ := here
      rw [Option.some.injEq]
      constructor
      · rintro rfl
        exact ⟨named, member, if_pos rfl⟩
      · rintro ⟨_, listed, same⟩
        by_contra different
        rw [if_neg (Ne.symm different)] at same
        exact different (taken x listed same named).symm
    rename_i away
    split
    · rename_i here
      obtain ⟨named, rfl⟩ := here
      constructor
      · intro impossible
        cases impossible
      · rintro ⟨_, listed, same⟩
        split at same
        · exact absurd ⟨by rwa [same], same.symm⟩ away
        · rename_i different
          exact absurd (indexed.eq_of_hostname listed member same (by rwa [same])) different
    · rename_i elsewhere
      rw [indexed.index]
      refine and_congr_right fun named => and_congr_right fun listed => ?_
      split
      · rename_i here
        subst here
        constructor
        · intro same
          exact absurd ⟨by rwa [same], same.symm⟩ elsewhere
        · intro same
          exact absurd ⟨by rwa [same], same.symm⟩ away
      · rfl

theorem commitLease (indexed : s.Indexed) {env : Env} {l : Ref} (member : l ∈ s.leases)
    {hostname : String} (nameable : s.Nameable env l hostname) (now : Time) :
    (s.commitLease env l hostname now).Indexed := by
  have known := indexed.known l member
  unfold V4Server.commitLease
  dsimp only
  generalize chosen : (if (s.hostsIndex.get
    (validHostnameForClient env hostname (s.lease l).ip)).isSome = true then
      if (s.lease l).hostname = "" then generateHostname (s.lease l).ip
      else (s.lease l).hostname
    else validHostnameForClient env hostname (s.lease l).ip) = name
  have fresh : name = "" ∨ name = (s.lease l).hostname ∨ s.hostsIndex.get name = none := by
    subst chosen
    split
    · rename_i taken
      split
      · rename_i unnamed
        exact .inr (.inr (nameable unnamed taken))
      · exact .inr (.inl rfl)
    · rename_i free
      exact .inr (.inr (by simpa using free))
  refine indexed.rename member fresh rfl (by simp [V4Server.setLease]) ?_ ?_
  · intro x
    change ((s.setLease l _).lease x).hostname = _
    rw [lease_setLease known]
    split
    · rfl
    · rfl
  · intro other
    by_cases named : name = ""
    · subst named
      by_cases before : (s.lease l).hostname = ""
      · simp [before, V4Server.setLease]
      · simp [before, V4Server.setLease, FiniteMap.get_delete]
    · by_cases before : (s.lease l).hostname ≠ "" ∧ (s.lease l).hostname ≠ name
      · simp [named, before, V4Server.setLease, FiniteMap.get_set, FiniteMap.get_delete]
      · by_cases here : other = name
        · simp [named, here]
        · have elsewhere : ¬ ((s.lease l).hostname ≠ "" ∧ other = (s.lease l).hostname) := by
            rintro ⟨nonempty, rfl⟩
            exact before ⟨nonempty, here⟩
          rw [if_neg before, if_pos named, FiniteMap.get_set, if_neg here, if_neg (by simp [here]),
            if_neg elsewhere]
          rfl

theorem handleDiscover (indexed : s.Indexed) {req : Message} {timing : Timing}
    (spare : s.findLease req.clientHWAddr = none →
      ConflictsSpare req.clientHWAddr timing.conflicts s) :
    (s.handleDiscover req timing).1.Indexed := by
  unfold V4Server.handleDiscover
  split
  · exact indexed
  · rename_i absent
    exact indexed.allocateLease timing.reservedAt (spare absent)

end Indexed

/-- A declined lease is not replaced: the loop stops at a static lease, or no address is
left. -/
def NotReplaced (s : V4Server) (l : Ref) (req : Message) (timing : Timing) : Prop :=
  (s.swept (s.lease l)).refused = true ∨
    ConflictsSpare req.clientHWAddr timing.conflicts (s.rmDynamicLease l).1 ∧
      ∀ newLease, ((s.rmDynamicLease l).1.allocateLease req.clientHWAddr timing.reservedAt
        timing.conflicts).2 ≠ .ok (some newLease)

/-- What an event needs so that it keeps the hostnames and their index in step. -/
def KeepsHostnames (env : Env) (s : V4Server) : Event → Prop
  | .packet req timing =>
    env.validateMAC req.clientHWAddr = true →
      match req.messageType with
      | .discover =>
        s.findLease req.clientHWAddr = none →
          ConflictsSpare req.clientHWAddr timing.conflicts s
      | .request =>
        ∀ l needsReply, s.handleByRequestType req = (some l, needsReply) →
          (s.lease l).isStatic = false → s.Nameable env l req.hostName
      | .decline =>
        ∀ l, s.findLeaseForIP (req.requestedIPAddress <|> req.clientIPAddr) req.clientHWAddr =
          some l → s.Spares (s.lease l) ∧ s.NotReplaced l req timing
      | .release =>
        ∀ ip, (req.requestedIPAddress <|> req.clientIPAddr) = some ip →
          s.ReleaseSpares req.clientHWAddr (.v4 ip)
  | .addStaticLease l => ∀ checked, s.checkStaticLease env l = .ok checked → s.Spares checked
  | .updateStaticLease _ => True
  | .removeStaticLease _ => True
  | .resetLeases _ => True

/-- The part of `v4Server.handleRequest` under its own lock, for the lease found before. -/
def finishRequest (env : Env) (s : V4Server) (req : Message) (l : Ref) (committedAt : Time)
    (resp : Reply) : V4Server × Reply :=
  let resp := { resp with messageType := .ack }
  if (s.lease l).isStatic then
    let fqdn := if (s.lease l).hostname ≠ "" then some (s.lease l).hostname else resp.fqdn
    (s, { resp with fqdn })
  else
    let s := s.commitLease env l req.hostName committedAt
    let hostName := if req.hostName ≠ "" ∨ req.requestsHostName then some (s.lease l).hostname
      else resp.hostName
    (s, { resp with hostName })

theorem handleRequest_eq (env : Env) (s : V4Server) (req : Message) (timing : Timing) (resp : Reply) :
    s.handleRequest env req timing resp =
      match s.handleByRequestType req with
      | (none, needsReply) => (s, none, needsReply, resp)
      | (some l, needsReply) =>
        let (s, resp) := s.finishRequest env req l timing.committedAt resp
        (s, some l, needsReply, resp) := by
  unfold handleRequest finishRequest
  cases s.handleByRequestType req with
  | mk lookup needsReply =>
    cases lookup with
    | none => rfl
    | some l =>
      dsimp only
      cases (s.lease l).isStatic with
      | false => rfl
      | true => rfl

namespace Indexed

variable {s : V4Server} {env : Env} {req : Message}

theorem finishRequest (indexed : s.Indexed) {l : Ref}
    (found : (s.lease l).isStatic = false → l ∈ s.leases ∧ s.Nameable env l req.hostName)
    (committedAt : Time) (resp : Reply) :
    (s.finishRequest env req l committedAt resp).1.Indexed := by
  unfold V4Server.finishRequest
  dsimp only
  split
  · exact indexed
  · rename_i dynamic
    obtain ⟨member, nameable⟩ := found (by simpa using dynamic)
    exact indexed.commitLease member nameable committedAt

theorem handleRequest (indexed : s.Indexed)
    (nameable : ∀ l needsReply, s.handleByRequestType req = (some l, needsReply) →
      (s.lease l).isStatic = false → s.Nameable env l req.hostName) (timing : Timing)
    (resp : Reply) : (s.handleRequest env req timing resp).1.Indexed := by
  rw [handleRequest_eq]
  cases found : s.handleByRequestType req with
  | mk lookup needsReply =>
    cases lookup with
    | none => exact indexed
    | some l =>
      exact indexed.finishRequest
        (fun dynamic => ⟨handleByRequestType_mem found, nameable l needsReply found dynamic⟩) _ _

theorem handleDecline (indexed : s.Indexed) {timing : Timing} (resp : Reply)
    (spares : ∀ l, s.findLeaseForIP (req.requestedIPAddress <|> req.clientIPAddr)
      req.clientHWAddr = some l → s.Spares (s.lease l) ∧ s.NotReplaced l req timing) :
    (s.handleDecline req timing resp).1.Indexed := by
  unfold V4Server.handleDecline
  dsimp only
  split
  · exact indexed
  rename_i l found
  obtain ⟨spared, notReplaced⟩ := spares l found
  obtain ⟨loop, ends⟩ := spared.loop indexed.known
  have kept := indexed.sparedLoop loop
  unfold NotReplaced at notReplaced
  cases removal : s.rmDynamicLease l with
  | mk u rest =>
    obtain ⟨slots, result⟩ := rest
    rw [removal] at ends kept notReplaced
    cases result with
    | error error => exact kept
    | ok done =>
      rcases notReplaced with refused | ⟨spare, full⟩
      · simp [refused] at ends
      have reserved := kept.allocateLease timing.reservedAt spare
      dsimp only at reserved full ⊢
      cases attempt : u.allocateLease req.clientHWAddr timing.reservedAt timing.conflicts with
      | mk v result =>
        rw [attempt] at reserved full
        cases result with
        | error error => exact reserved
        | ok found =>
          cases found with
          | none => exact reserved
          | some newLease => exact absurd rfl (full newLease)

theorem handleRelease (indexed : s.Indexed) (resp : Reply)
    (spares : ∀ ip, (req.requestedIPAddress <|> req.clientIPAddr) = some ip →
      s.ReleaseSpares req.clientHWAddr (.v4 ip)) : (s.handleRelease req resp).1.Indexed := by
  rw [handleRelease_server]
  split
  · exact indexed
  · rename_i ip given
    exact indexed.releaseLoop s.leases.length 0 indexed (fun _ => rfl) (fun _ => id) (fun _ => id)
      (by omega) (spares ip given)

theorem packetHandler (indexed : s.Indexed) {timing : Timing}
    (keeps : s.KeepsHostnames env (.packet req timing)) :
    (s.packetHandler env req timing).1.Indexed := by
  rw [packetHandler_server]
  split
  · rename_i valid
    have keeps := keeps valid
    cases kind : req.messageType with
    | discover =>
      simp only [kind] at keeps
      exact indexed.handleDiscover keeps
    | request =>
      simp only [kind] at keeps
      exact indexed.handleRequest keeps timing _
    | decline =>
      simp only [kind] at keeps
      exact indexed.handleDecline _ keeps
    | release =>
      simp only [kind] at keeps
      exact indexed.handleRelease _ keeps
  · exact indexed

theorem addStaticLease (indexed : s.Indexed) {l : Lease}
    (keeps : s.KeepsHostnames env (.addStaticLease l)) : (s.addStaticLease env l).1.Indexed := by
  unfold V4Server.addStaticLease
  cases checks : s.checkStaticLease env l with
  | error error => exact indexed
  | ok checked =>
    have spares := keeps checked checks
    dsimp only [alloc_ref]
    rw [← V4Server.withObject]
    have stored := indexed.withObject checked
    have unlisted : s.heap.size ∉ s.leases := fun member =>
      Nat.lt_irrefl _ (indexed.known _ member)
    have old : ∀ x ∈ s.leases, (s.withObject checked).lease x = s.lease x := by
      intro x member
      rw [V4Server.withObject, lease_alloc, if_neg (Nat.ne_of_lt (indexed.known x member))]
    have sweeps : (s.withObject checked).swept checked = s.swept checked := by
      refine sweep_congr fun x member => ?_
      simp only [sharesAddress, static, old x member, and_self]
    have spared : (s.withObject checked).Spares ((s.withObject checked).lease s.heap.size) := by
      rw [withObject_new]
      intro x looked
      rw [sweeps] at looked
      have same := spares x looked
      rwa [sharesHostname, old x ((sweep_members _ _ _).2 x looked)]
    obtain ⟨loop, _⟩ := spared.loop stored.known
    have kept := stored.sparedLoop loop
    unfold V4Server.updateStaticLease
    cases attempt : (s.withObject checked).rmDynamicLease s.heap.size with
    | mk u rest =>
      obtain ⟨slots, result⟩ := rest
      rw [attempt] at loop kept
      cases result with
      | error error => exact kept
      | ok done =>
        refine kept.addLease ?_ ?_
        · rw [loop.size, withObject_size]
          exact Nat.lt_succ_self _
        · rw [loop.leases]
          exact fun member => unlisted ((sweep_kept s.leases).subset member)

theorem updateStaticLeaseAPI (indexed : s.Indexed) (env : Env) (l : Lease) :
    (s.updateStaticLeaseAPI env l).1.Indexed := by
  unfold V4Server.updateStaticLeaseAPI
  split
  · exact indexed
  rename_i found _
  split
  · exact indexed
  have removed := indexed.rmLease found
  cases attempt : s.rmLease found with
  | mk t result =>
    rw [attempt] at removed
    cases result with
    | error error => exact removed
    | ok done => exact removed.addObject _

theorem removeStaticLease (indexed : s.Indexed) (env : Env) (l : Lease) :
    (s.removeStaticLease env l).1.Indexed := by
  unfold V4Server.removeStaticLease
  split
  · exact indexed
  split
  · exact indexed
  · exact (indexed.withObject l).rmLease _

theorem resetLeases (s : V4Server) (env : Env) (leases : List Lease) :
    (s.resetLeases env leases).Indexed := by
  have emptied : ({ s with leasedOffsets := .new, hostsIndex := ∅, ipIndex := ∅, leases := [] } :
      V4Server).Indexed := ⟨by simp, by simp, by simp⟩
  unfold V4Server.resetLeases
  generalize ({ s with leasedOffsets := .new, hostsIndex := ∅, ipIndex := ∅, leases := [] } :
    V4Server) = t at emptied
  induction leases generalizing t with
  | nil => exact emptied
  | cons l rest ih => exact ih _ (emptied.addObject _)

theorem step (indexed : s.Indexed) {event : Event} (keeps : s.KeepsHostnames env event) :
    (s.step env event).1.Indexed := by
  cases event with
  | packet req timing => exact indexed.packetHandler keeps
  | addStaticLease l => exact indexed.addStaticLease keeps
  | updateStaticLease l => exact indexed.updateStaticLeaseAPI env l
  | removeStaticLease l => exact indexed.removeStaticLease env l
  | resetLeases leases => exact .resetLeases s env leases

end Indexed

end V4Server

/-- The server between two turns at its lock, and the requests whose lease is found and that
wait for the lock again. -/
structure Serving where
  server : V4Server
  waiting : List (Message × Ref)

inductive Turn where
  /-- An event that is handled with no other in between. -/
  | event (event : Event)
  /-- The lease of a request is looked up. -/
  | request (req : Message)
  /-- The waiting request at the index gets the lock. -/
  | commit (i : Nat) (committedAt : Time)

namespace Serving

/-- What a turn makes of the server and of the requests that wait. -/
def next (env : Env) (t : Serving) : Turn → Serving
  | .event event => { t with server := (t.server.step env event).1 }
  | .request req =>
    if env.validateMAC req.clientHWAddr then
      match t.server.handleByRequestType req with
      | (none, _) => t
      | (some l, _) => { t with waiting := t.waiting ++ [(req, l)] }
    else t
  | .commit i committedAt =>
    match t.waiting[i]? with
    | none => t
    | some (req, l) =>
      ⟨(t.server.finishRequest env req l committedAt ⟨.unset, .zero, none, none, none⟩).1,
        t.waiting.eraseIdx i⟩

def machine (env : Env) : Transition.Machine Serving Turn Unit := ⟨fun t turn => (t.next env turn, ())⟩

/-- What a turn needs so that it keeps the hostnames and their index in step. The lease of a
request that waits must still be in the table when the request gets the lock. -/
def KeepsHostnames (env : Env) (t : Serving) : Turn → Prop
  | .event event => t.server.KeepsHostnames env event
  | .request _ => True
  | .commit i _ =>
    ∀ req l, t.waiting[i]? = some (req, l) → (t.server.lease l).isStatic = false →
      l ∈ t.server.leases ∧ t.server.Nameable env l req.hostName

theorem indexed_next (env : Env) (t : Serving) (turn : Turn) (indexed : t.server.Indexed)
    (keeps : t.KeepsHostnames env turn) : ((machine env).next t turn).server.Indexed := by
  change (t.next env turn).server.Indexed
  cases turn with
  | event event => exact indexed.step keeps
  | request req =>
    simp only [next]
    split
    · split
      · exact indexed
      · exact indexed
    · exact indexed
  | commit i committedAt =>
    simp only [next]
    cases found : t.waiting[i]? with
    | none => exact indexed
    | some waiting =>
      obtain ⟨req, l⟩ := waiting
      exact indexed.finishRequest (keeps req l found) committedAt _

/-- After every run whose turns keep the hostnames in step, no two leases have one hostname and
the index maps exactly the hostnames of the leases to their lease. -/
theorem hostnames_agree {env : Env} {conf : V4ServerConf} {turns : List Turn}
    (keeps : (machine env).Allowed (KeepsHostnames env) ⟨.new conf, []⟩ turns) :
    ((machine env).run ⟨.new conf, []⟩ turns).server.HostsAgree :=
  ((machine env).run_invariant (fun t => t.server.Indexed) (indexed_next env)
    (.new conf) keeps).hostsAgree

section Examples

private def asciiEnv : Env :=
  ⟨String.toLower, Char.isAlphanum, fun _ => true, fun mac => mac.length == 6⟩

private theorem gateway_zoneless : (Addr.v4 0xc0a80101).zone = "" := rfl

private theorem gateway_is4 :
    (⟨.v4 0xc0a80101, 24, gateway_zoneless⟩ : Prefix).addr.is4 = true := rfl

private theorem firstHost_lt : (0xc0a80164 : BitVec 32) < 0xc0a80165 := by decide

private def twoHosts : V4ServerConf where
  gatewayIP := .v4 0xc0a80101
  subnet := ⟨.v4 0xc0a80101, 24, gateway_zoneless⟩
  subnet4 := gateway_is4
  ipRange := ⟨0xc0a80164, 0xc0a80165, firstHost_lt⟩
  leaseTime := 3600
  dnsIPAddr := 0xc0a80101

private def asks (messageType : MessageType) (client : BitVec 8) (address : BitVec 32)
    (hostName : String) : Message :=
  ⟨messageType, [2, 0, 0, 0, 0, client], none, some address, some 0xc0a80101, hostName, false⟩

private def handles (req : Message) : Turn := .event (.packet req ⟨[], 0, 0⟩)

theorem hostnames_agree_phone :
    ((machine asciiEnv).run ⟨.new twoHosts, []⟩ [handles (asks .discover 1 0xc0a80164 ""),
      .request (asks .request 1 0xc0a80164 "Phone"), .commit 0 0]).server.HostsAgree := by
  refine hostnames_agree ⟨fun _ _ => trivial, trivial, ?_, trivial⟩
  intro req l found _
  have first : (asks .request 1 0xc0a80164 "Phone", 0) = (req, l) :=
    Option.some.inj ((by decide +kernel : some _ = _).trans found)
  cases first
  refine ⟨by decide +kernel, ?_⟩
  intro _ taken
  revert taken
  decide +kernel

/-- A client takes the name that is generated from the other address of the range, and the
client that gets this address gets the same name. -/
theorem generated_hostname_taken :
    ¬ ∀ turns, ((machine asciiEnv).run ⟨.new twoHosts, []⟩ turns).server.HostsAgree := by
  intro agree
  have unique := (agree [handles (asks .discover 1 0xc0a80164 ""),
    handles (asks .request 1 0xc0a80164 "192-168-1-101"),
    handles (asks .discover 2 0xc0a80165 ""), handles (asks .request 2 0xc0a80165 "")]).unique
  revert unique
  decide +kernel

end Examples

end Serving

end AdGuardHome.Dhcpd
