import AdGuardHome.Stats.Unit

namespace AdGuardHome.Stats

/-- What is left of a map: as many keys as fit, with their counts, and no key that is dropped has a
larger count than one that is kept. -/
structure KeepsTop (maxVal : Nat) (m kept : FiniteMap String Counter) : Prop where
  size : kept.keys.length = min maxVal m.keys.length
  counts : ∀ name n, kept.get name = some n → m.get name = some n
  top : ∀ name n, m.get name = some n → kept.get name = none →
    ∀ other k, kept.get other = some k → n ≤ k

/-- A unit with the totals of another one and what is left of its maps. -/
structure Unit.Keeps (u v : Unit) : Prop where
  nTotal : v.nTotal = u.nTotal
  nResult : v.nResult = u.nResult
  domains : KeepsTop maxDomains u.domains v.domains
  blockedDomains : KeepsTop maxDomains u.blockedDomains v.blockedDomains
  clients : KeepsTop maxClients u.clients v.clients
  upstreamsResponses : KeepsTop maxUpstreams u.upstreamsResponses v.upstreamsResponses
  upstreamsTimeSum : KeepsTop maxUpstreams u.upstreamsTimeSum v.upstreamsTimeSum

/-- Two records with the same totals, the same average and, up to their order, the same pairs. -/
structure UnitDB.Same (udb other : UnitDB) : Prop where
  nTotal : udb.nTotal = other.nTotal
  nResult : udb.nResult = other.nResult
  timeAvg : udb.timeAvg = other.timeAvg
  domains : udb.domains.Perm other.domains
  blockedDomains : udb.blockedDomains.Perm other.blockedDomains
  clients : udb.clients.Perm other.clients
  upstreamsResponses : udb.upstreamsResponses.Perm other.upstreamsResponses
  upstreamsTimeSum : udb.upstreamsTimeSum.Perm other.upstreamsTimeSum

/-- A restart: the unit is stored, with its maps walked in some orders, and loaded into another
one. -/
structure Restart where
  orders : MapOrders
  target : Unit

def Unit.restart (u : Unit) (r : Restart) : Unit := r.target.deserialize (some (u.serialize r.orders))

section Maps

theorem UnitDB.Same.trans {first second third : UnitDB} (one : first.Same second)
    (other : second.Same third) : first.Same third where
  nTotal := one.nTotal.trans other.nTotal
  nResult := one.nResult.trans other.nResult
  timeAvg := one.timeAvg.trans other.timeAvg
  domains := one.domains.trans other.domains
  blockedDomains := one.blockedDomains.trans other.blockedDomains
  clients := one.clients.trans other.clients
  upstreamsResponses := one.upstreamsResponses.trans other.upstreamsResponses
  upstreamsTimeSum := one.upstreamsTimeSum.trans other.upstreamsTimeSum

theorem get_convertSliceToMap {pairs : List CountPair} (nodup : (pairs.map (·.name)).Nodup)
    {name : String} {n : Counter} :
    (convertSliceToMap pairs).get name = some n ↔ CountPair.mk name n ∈ pairs := by
  suffices later : ∀ m : FiniteMap String Counter,
      (pairs.foldl (fun m pair => m.set pair.name pair.count) m).get name = some n ↔
        CountPair.mk name n ∈ pairs ∨ name ∉ pairs.map (·.name) ∧ m.get name = some n by
    have all := later ∅
    simp only [FiniteMap.get_empty, reduceCtorEq, and_false, or_false] at all
    exact all
  induction pairs with
  | nil => intro m; simp
  | cons pair rest ih =>
    intro m
    obtain ⟨fresh, nodup⟩ := List.nodup_cons.mp nodup
    rw [List.foldl_cons, ih nodup, FiniteMap.get_set, List.mem_cons, List.map_cons, List.mem_cons]
    by_cases here : name = pair.name
    · subst here
      have absent : ∀ n, CountPair.mk pair.name n ∉ rest := fun n member =>
        fresh (List.mem_map.mpr ⟨_, member, rfl⟩)
      rw [if_pos rfl]
      cases pair
      simp [fresh, absent, eq_comm]
    · rw [if_neg here]
      have other : CountPair.mk name n ≠ pair := fun same => here (congrArg CountPair.name same)
      simp [here, other]

theorem length_keys_convertSliceToMap {pairs : List CountPair}
    (nodup : (pairs.map (·.name)).Nodup) :
    (convertSliceToMap pairs).keys.length = pairs.length := by
  have distinct : (AList.keys (convertSliceToMap pairs)).Nodup := AList.nodupKeys _
  have same : (AList.keys (convertSliceToMap pairs)).Perm (pairs.map (·.name)) := by
    rw [List.perm_ext_iff_of_nodup distinct nodup]
    intro name
    rw [FiniteMap.mem_keys, List.mem_map]
    constructor
    · intro ⟨n, found⟩
      exact ⟨_, (get_convertSliceToMap nodup).mp found, rfl⟩
    · intro ⟨pair, member, same⟩
      subst same
      exact ⟨pair.count, (get_convertSliceToMap nodup).mpr member⟩
  rw [same.length_eq, List.length_map]

variable (order : WalkOrder String) (m : FiniteMap String Counter) (maxVal : Nat)

theorem length_convertMapToSlice :
    (convertMapToSlice order m maxVal).length = min maxVal m.keys.length := by
  rw [convertMapToSlice_eq, List.length_take, length_sortedPairs]

theorem convertMapToSlice_keepsTop :
    KeepsTop maxVal m (convertSliceToMap (convertMapToSlice order m maxVal)) := by
  obtain ⟨nodup, counts⟩ := convertMapToSlice_spec order m maxVal
  constructor
  · rw [length_keys_convertSliceToMap nodup, length_convertMapToSlice]
  · exact fun name n found => counts _ ((get_convertSliceToMap nodup).mp found)
  · intro name n found dropped other k kept
    have before := (get_convertSliceToMap nodup).mp kept
    have outside : CountPair.mk name n ∉ convertMapToSlice order m maxVal := by
      intro inside
      rw [(get_convertSliceToMap nodup).mpr inside] at dropped
      nomatch dropped
    have all : CountPair.mk name n ∈ sortedPairs order m := (mem_sortedPairs order).mpr found
    have sorted := sorted_sortedPairs order (m := m)
    rw [convertMapToSlice_eq] at before outside
    rw [← List.take_append_drop maxVal (sortedPairs order m)] at all sorted
    have behind := (List.mem_append.mp all).resolve_left outside
    exact (List.pairwise_append.mp sorted).2.2 _ before _ behind

variable {maxVal}

theorem convertMapToSlice_again {pairs : List CountPair} (nodup : (pairs.map (·.name)).Nodup)
    (fits : pairs.length ≤ maxVal) :
    pairs.Perm (convertMapToSlice order (convertSliceToMap pairs) maxVal) := by
  have whole : convertMapToSlice order (convertSliceToMap pairs) maxVal =
      sortedPairs order (convertSliceToMap pairs) := by
    rw [convertMapToSlice_eq, List.take_of_length_le]
    rwa [length_sortedPairs, length_keys_convertSliceToMap nodup]
  rw [whole, List.perm_ext_iff_of_nodup nodup.of_map (names_sortedPairs _ _).of_map]
  intro pair
  rw [mem_sortedPairs, get_convertSliceToMap nodup]

end Maps

structure Storable (maxVal : Nat) (pairs : List CountPair) : Prop where
  names : (pairs.map (·.name)).Nodup
  fits : pairs.length ≤ maxVal

structure UnitDB.Settled (udb : UnitDB) : Prop where
  nResult : udb.nResult.length = resultLast.toNat
  domains : Storable maxDomains udb.domains
  blockedDomains : Storable maxDomains udb.blockedDomains
  clients : Storable maxClients udb.clients
  upstreamsResponses : Storable maxUpstreams udb.upstreamsResponses
  upstreamsTimeSum : Storable maxUpstreams udb.upstreamsTimeSum
  timeAvg : udb.timeAvg.toNat * udb.nTotal.toNat < 2 ^ 64
  empty : udb.nTotal = 0 → udb.timeAvg = 0

namespace UnitDB.Settled

variable {udb : UnitDB}

private theorem average_again {timeAvg : BitVec 32} {nTotal : Counter} (some_ : nTotal ≠ 0)
    (fits : timeAvg.toNat * nTotal.toNat < 2 ^ 64) :
    ((timeAvg.setWidth 64 * nTotal) / nTotal).setWidth 32 = timeAvg := by
  have positive : 0 < nTotal.toNat := by
    by_contra zero
    exact some_ (BitVec.eq_of_toNat_eq (Nat.eq_zero_of_not_pos zero))
  have small : timeAvg.toNat < 2 ^ 64 := Nat.lt_trans timeAvg.isLt (by decide)
  apply BitVec.eq_of_toNat_eq
  rw [BitVec.toNat_setWidth, BitVec.toNat_udiv, BitVec.toNat_mul, BitVec.toNat_setWidth,
    Nat.mod_eq_of_lt small, Nat.mod_eq_of_lt fits, Nat.mul_div_cancel _ positive,
    Nat.mod_eq_of_lt timeAvg.isLt]

private theorem average_fits (timeSum nTotal : Counter) :
    ((timeSum / nTotal).setWidth 32 : BitVec 32).toNat * nTotal.toNat < 2 ^ 64 := by
  rw [BitVec.toNat_setWidth, BitVec.toNat_udiv]
  calc timeSum.toNat / nTotal.toNat % 2 ^ 32 * nTotal.toNat
      ≤ timeSum.toNat / nTotal.toNat * nTotal.toNat :=
        Nat.mul_le_mul_right _ (Nat.mod_le _ _)
    _ ≤ timeSum.toNat := Nat.div_mul_le_self _ _
    _ < 2 ^ 64 := timeSum.isLt

private theorem storable (order : WalkOrder String) (m : FiniteMap String Counter) (maxVal : Nat) :
    Storable maxVal (convertMapToSlice order m maxVal) where
  names := (convertMapToSlice_spec order m maxVal).1
  fits := by
    rw [length_convertMapToSlice]
    exact Nat.min_le_left _ _

theorem serialize {u : Unit} (counts : u.Counts) (orders : MapOrders) :
    (u.serialize orders).Settled where
  nResult := counts
  domains := storable _ _ _
  blockedDomains := storable _ _ _
  clients := storable _ _ _
  upstreamsResponses := storable _ _ _
  upstreamsTimeSum := storable _ _ _
  timeAvg := by
    unfold Unit.serialize
    dsimp only
    split
    · exact average_fits _ _
    · simp
  empty none_ := if_neg (not_not_intro none_)

theorem again {maxVal : Nat} {pairs : List CountPair} (storable : Storable maxVal pairs)
    (order : WalkOrder String) :
    pairs.Perm (convertMapToSlice order (convertSliceToMap pairs) maxVal) :=
  convertMapToSlice_again order storable.names storable.fits

theorem same (settled : udb.Settled) (target : Unit) (orders : MapOrders) :
    udb.Same ((target.deserialize (some udb)).serialize orders) where
  nTotal := rfl
  nResult := by
    show udb.nResult = (udb.nResult ++ List.replicate resultLast.toNat 0).take resultLast.toNat
    rw [List.take_append_of_le_length (Nat.le_of_eq settled.nResult.symm),
      List.take_of_length_le (Nat.le_of_eq settled.nResult)]
  timeAvg := by
    show udb.timeAvg = if udb.nTotal ≠ 0
      then ((udb.timeAvg.setWidth 64 * udb.nTotal) / udb.nTotal).setWidth 32 else 0
    split
    next some_ => exact (average_again some_ settled.timeAvg).symm
    next none_ => exact settled.empty (not_not.mp none_)
  domains := again settled.domains _
  blockedDomains := again settled.blockedDomains _
  clients := again settled.clients _
  upstreamsResponses := again settled.upstreamsResponses _
  upstreamsTimeSum := again settled.upstreamsTimeSum _

end UnitDB.Settled

namespace Unit

variable {u : Unit}

theorem counts_restart (u : Unit) (r : Restart) : (u.restart r).Counts := by
  simp [restart, Counts, deserialize]

theorem Counts.keeps (counts : u.Counts) (r : Restart) : u.Keeps (u.restart r) where
  nTotal := rfl
  nResult := by
    show (u.nResult ++ List.replicate resultLast.toNat 0).take resultLast.toNat = u.nResult
    rw [List.take_append_of_le_length (Nat.le_of_eq counts.symm),
      List.take_of_length_le (Nat.le_of_eq counts)]
  domains := convertMapToSlice_keepsTop _ _ _
  blockedDomains := convertMapToSlice_keepsTop _ _ _
  clients := convertMapToSlice_keepsTop _ _ _
  upstreamsResponses := convertMapToSlice_keepsTop _ _ _
  upstreamsTimeSum := convertMapToSlice_keepsTop _ _ _

theorem restarts_same {udb : UnitDB} (counts : u.Counts)
    (same : ∀ orders, udb.Same (u.serialize orders)) (later : List Restart) :
    ∀ orders, udb.Same ((later.foldl restart u).serialize orders) := by
  induction later generalizing u with
  | nil => exact same
  | cons r rest ih =>
    apply ih (counts_restart u r)
    intro orders
    exact (same r.orders).trans ((UnitDB.Settled.serialize counts r.orders).same r.target orders)

theorem counts_of_add {entries : List Entry} {start : Unit} (counts : start.Counts)
    (recorded : entries.foldlM add start = some u) : u.Counts := by
  induction entries generalizing start with
  | nil =>
    cases recorded
    exact counts
  | cons e rest ih =>
    obtain ⟨next, added, later⟩ := Option.bind_eq_some_iff.mp recorded
    exact ih ((add_spec added).2.2 counts) later

/-- A unit that has recorded entries keeps its totals and its largest counts over a restart, and
over any number of further restarts it is stored as the same record as before the first one. -/
theorem restart_keeps {id : UnitID} {entries : List Entry}
    (recorded : entries.foldlM add (newUnit id) = some u) (r : Restart) :
    u.Keeps (u.restart r) ∧ ∀ (later : List Restart) (orders : MapOrders),
      (u.serialize r.orders).Same ((later.foldl restart (u.restart r)).serialize orders) := by
  have counts := counts_of_add (counts_newUnit id) recorded
  refine ⟨counts.keeps r, restarts_same (counts_restart u r) fun orders => ?_⟩
  exact (UnitDB.Settled.serialize counts r.orders).same r.target orders

section Examples

private def slowLookup : Entry :=
  ⟨"192.0.2.1", "example.org", [⟨"192.0.2.53", 1500000, false, false⟩], rNotFiltered, 1500700⟩

private def blockedLookup : Entry := ⟨"192.0.2.2", "ads.example", [], rFiltered, 300⟩

private def twoLookups : Unit :=
  ([slowLookup, blockedLookup].foldlM add (newUnit 1000)).getD (newUnit 1000)

private def otherHour : Restart := ⟨.inserted, twoLookups⟩

theorem restart_keeps_twoLookups :
    twoLookups.Keeps (twoLookups.restart otherHour) ∧
      (twoLookups.serialize .inserted).Same
        ((((twoLookups.restart otherHour).restart otherHour).restart ⟨.inserted, newUnit 1001⟩
          ).serialize .inserted) ∧
      twoLookups.nTotal = 2 ∧ twoLookups.domains.keys = ["example.org"] := by
  have recorded : [slowLookup, blockedLookup].foldlM add (newUnit 1000) = some twoLookups := rfl
  obtain ⟨keeps, again⟩ := restart_keeps recorded otherHour
  exact ⟨keeps, again [otherHour, ⟨.inserted, newUnit 1001⟩] .inserted, rfl, rfl⟩

end Examples

end Unit

end AdGuardHome.Stats
