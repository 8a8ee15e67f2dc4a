import AdGuardHome.Safesearch.Default

namespace AdGuardHome.Safesearch

open Filtering Strings Transition

/-- The engines in place since there were as many: the last of the first ones and all later. -/
def recent (history : List (Option Engine)) (since : Nat) : List (Option Engine) :=
  history.take (history.length + 1 - since)

section Recent

variable {history : List (Option Engine)} {since later : Nat} {engine : Option Engine}

theorem mem_recent_cons (newer : Option Engine) (bound : since ≤ history.length)
    (member : engine ∈ recent history since) : engine ∈ recent (newer :: history) since := by
  have count : (newer :: history).length + 1 - since = history.length + 1 - since + 1 := by
    rw [List.length_cons]
    omega
  rw [recent, count, List.take_succ_cons]
  exact List.mem_cons_of_mem _ member

theorem mem_recent_of_le (order : since ≤ later) (member : engine ∈ recent history later) :
    engine ∈ recent history since := by
  have shorter : history.length + 1 - later ≤ history.length + 1 - since := by omega
  exact List.take_subset_take_left _ shorter member

theorem head_mem_recent (head : history.head? = some engine) (bound : since ≤ history.length) :
    engine ∈ recent history since := by
  obtain ⟨rest, rfl⟩ := List.head?_eq_some_iff.mp head
  have count : (engine :: rest).length + 1 - since = (engine :: rest).length - since + 1 := by
    omega
  rw [recent, count, List.take_succ_cons]
  exact List.mem_cons_self

end Recent

/-- The outcome is that of a lookup without a cache in one of the engines since then. -/
def Fresh (codec : Codec) (history : List (Option Engine)) (since : Nat) (host : Bytes)
    (qtype : RRType) (outcome : Outcome) : Prop :=
  ∃ engine ∈ recent history since, outcome = lookup codec engine host qtype

section Keys

private theorem supported_cases {qtype : RRType} (good : supported qtype = true) :
    qtype = .a ∨ qtype = .aaaa ∨ qtype = .https := by
  simpa [supported, or_assoc] using good

private theorem noSpace (qtype : RRType) : (32 : BitVec 8) ∉ typeString qtype := by
  rw [typeString]
  split_ifs <;> decide

private theorem typeString_injective {qtype other : RRType} (first : supported qtype = true)
    (second : supported other = true) (same : typeString qtype = typeString other) :
    qtype = other := by
  rcases supported_cases first with rfl | rfl | rfl <;>
    rcases supported_cases second with rfl | rfl | rfl <;>
    first | rfl | exact absurd same (by decide)

/-- What stands before the first space and behind it. -/
private theorem append_space_injective {first second rest others : Bytes}
    (plain : (32 : BitVec 8) ∉ first) (plainToo : (32 : BitVec 8) ∉ second)
    (same : first ++ 32 :: rest = second ++ 32 :: others) : first = second ∧ rest = others := by
  induction first generalizing second with
  | nil =>
    cases second with
    | nil => exact ⟨rfl, (List.cons.inj same).2⟩
    | cons byte tail => exact absurd ((List.cons.inj same).1 ▸ List.mem_cons_self) plainToo
  | cons byte tail ih =>
    cases second with
    | nil => exact absurd ((List.cons.inj same).1 ▸ List.mem_cons_self) plain
    | cons other more =>
      obtain ⟨rfl, later⟩ := List.cons.inj same
      obtain ⟨rfl, rfl⟩ := ih (fun member => plain (List.mem_cons_of_mem _ member))
        (fun member => plainToo (List.mem_cons_of_mem _ member)) later
      exact ⟨rfl, rfl⟩

/-- The key tells the type and the host. -/
theorem cacheKey_injective {qtype other : RRType} {host otherHost : Bytes}
    (first : supported qtype = true) (second : supported other = true)
    (same : cacheKey qtype host = cacheKey other otherHost) :
    qtype = other ∧ host = otherHost := by
  have shape : ∀ qtype host, cacheKey qtype host = typeString qtype ++ 32 :: host := by
    intro qtype host
    rw [cacheKey, List.append_assoc]
    rfl
  rw [shape, shape] at same
  obtain ⟨types, hosts⟩ := append_space_injective (noSpace _) (noSpace _) same
  exact ⟨typeString_injective first second types, hosts⟩

end Keys

/-- What is known of a call that stands somewhere. -/
inductive StageGood (codec : Codec) (history : List (Option Engine)) (call : Call) : Stage → Prop
  | called (good : supported call.qtype = true) : StageGood codec history call .called
  | missed (good : supported call.qtype = true) : StageGood codec history call .missed
  | found {res : Result} {engines : Nat} (good : supported call.qtype = true)
      (later : call.since ≤ engines) (bound : engines ≤ history.length)
      (plain : res.dnsRewriteResult = none)
      (fresh : Fresh codec history engines call.host call.qtype (.ok res)) :
      StageGood codec history call (.found res engines)
  | done {outcome : Outcome}
      (fresh : Fresh codec history call.since call.host call.qtype outcome) :
      StageGood codec history call (.done outcome)

/-- What holds after each step: the cache has results of the engines since the last finished
`Update`, and the calls have results of the engines since they started. -/
structure Inv (codec : Codec) (s : System) : Prop where
  engine : s.history.head? = some s.ss.engine
  finished : s.finished ≤ s.history.length
  settled : s.updating = false → s.finished = s.history.length
  cached : ∀ host qtype data res, supported qtype = true →
    s.ss.cache.get (cacheKey qtype host) = some data → codec.decode (data.drop 4) = some res →
    Fresh codec s.history s.finished host qtype (.ok res)
  calls : ∀ id call, s.calls.get id = some call →
    call.since ≤ s.finished ∧ StageGood codec s.history call call.stage

section Steps

variable {codec : Codec} {s : System} {history : List (Option Engine)} {qtype : RRType}
  {call : Call}

theorem Fresh.mono {since later : Nat} {host : Bytes} {outcome : Outcome}
    (fresh : Fresh codec history later host qtype outcome) (order : since ≤ later) :
    Fresh codec history since host qtype outcome := by
  obtain ⟨engine, member, result⟩ := fresh
  exact ⟨engine, mem_recent_of_le order member, result⟩

theorem Fresh.cons {since : Nat} {host : Bytes} {outcome : Outcome}
    (fresh : Fresh codec history since host qtype outcome) (newer : Option Engine)
    (bound : since ≤ history.length) : Fresh codec (newer :: history) since host qtype outcome := by
  obtain ⟨engine, member, result⟩ := fresh
  exact ⟨engine, mem_recent_cons newer bound member, result⟩

theorem StageGood.cons {stage : Stage} (good : StageGood codec history call stage)
    (newer : Option Engine) (bound : call.since ≤ history.length) :
    StageGood codec (newer :: history) call stage := by
  cases good with
  | called good => exact .called good
  | missed good => exact .missed good
  | found good later most plain fresh =>
    exact .found good later (Nat.le_succ_of_le most) plain (fresh.cons newer most)
  | done fresh => exact .done (fresh.cons newer bound)

theorem Inv.newDefault (engine : Option Engine) : Inv codec (.newDefault engine) where
  engine := rfl
  finished := Nat.le_refl 1
  settled _ := rfl
  cached host qtype data res _ found _ := by simp [System.newDefault] at found
  calls id call found := by simp [System.newDefault] at found

theorem Inv.fresh (inv : Inv codec s) {since : Nat} (bound : since ≤ s.finished) (host : Bytes)
    (qtype : RRType) :
    Fresh codec s.history since host qtype (lookup codec s.ss.engine host qtype) :=
  ⟨s.ss.engine, head_mem_recent inv.engine (Nat.le_trans bound inv.finished), rfl⟩

/-- One call goes on, with nothing else changed but what is dropped from the cache. -/
theorem Inv.setStage (inv : Inv codec s) {id : Nat} {stage : Stage}
    (since : call.since ≤ s.finished) (good : StageGood codec s.history { call with stage } stage) :
    Inv codec (s.setStage id call stage) := by
  refine ⟨inv.engine, inv.finished, inv.settled, inv.cached, ?_⟩
  intro other found present
  simp only [System.setStage, FiniteMap.get_set] at present
  split at present
  next =>
    cases present
    exact ⟨since, good⟩
  next => exact inv.calls other found present

theorem Inv.delete (inv : Inv codec s) (key : Bytes) :
    Inv codec { s with ss.cache := s.ss.cache.delete key } := by
  refine ⟨inv.engine, inv.finished, inv.settled, ?_, inv.calls⟩
  intro host qtype data res good found decoded
  simp only [FiniteMap.get_delete] at found
  split at found
  next => nomatch found
  next => exact inv.cached host qtype data res good found decoded

theorem Inv.startCall (inv : Inv codec s) (id : Nat) (host : Bytes) (qtype : RRType) :
    Inv codec (s.startCall id host qtype) := by
  rw [System.startCall]
  split
  next => exact inv
  next =>
    refine ⟨inv.engine, inv.finished, inv.settled, inv.cached, ?_⟩
    intro other found present
    simp only [FiniteMap.get_set] at present
    split at present
    next =>
      cases present
      refine ⟨Nat.le_refl _, ?_⟩
      by_cases good : supported qtype = true
      · simp only [if_pos good]
        exact .called good
      · simp only [if_neg good]
        have fresh := inv.fresh (Nat.le_refl _) host qtype
        rw [lookup, if_neg good] at fresh
        exact .done fresh
    next => exact inv.calls other found present

theorem Inv.callGetsCached (inv : Inv codec s) {id : Nat} (present : s.calls.get id = some call)
    (standing : call.stage = .called) (now : Int) :
    Inv codec (s.callGetsCached codec id call now) := by
  obtain ⟨since, good⟩ := inv.calls id call present
  rw [standing] at good
  cases good with
  | called good =>
    rw [System.callGetsCached, Default.getCachedResult]
    cases stored : s.ss.cache.get (cacheKey call.qtype call.host) with
    | none => exact inv.setStage since (.missed good)
    | some data =>
      by_cases expired : BigEndian.get (data.take 4) ≤ unix32 now
      · simp only [if_pos expired]
        exact (inv.delete call.host).setStage since (.missed good)
      · simp only [if_neg expired]
        cases decoded : codec.decode (data.drop 4) with
        | none => exact inv.setStage since (.missed good)
        | some res =>
          have fresh := inv.cached call.host call.qtype data res good stored decoded
          exact inv.setStage since (.done (fresh.mono since))

theorem newResult_plain {rewrite : DNSRewrite} {res : Result}
    (made : newResult rewrite qtype = .ok res) : res.dnsRewriteResult = none := by
  simp only [newResult] at made
  split at made
  next =>
    split at made
    next =>
      split at made
      next => nomatch made
      next =>
        cases made
        rfl
    next => nomatch made
  next =>
    cases made
    rfl

theorem Inv.callSearches (inv : Inv codec s) {id : Nat} (present : s.calls.get id = some call)
    (standing : call.stage = .missed) :
    Inv codec (s.callSearches codec id call) := by
  obtain ⟨since, good⟩ := inv.calls id call present
  rw [standing] at good
  cases good with
  | missed good =>
    have fresh := inv.fresh since call.host call.qtype
    have latest : Fresh codec s.history s.history.length call.host call.qtype
        (lookup codec s.ss.engine call.host call.qtype) :=
      ⟨_, head_mem_recent inv.engine (Nat.le_refl _), rfl⟩
    rw [lookup, if_pos good] at fresh latest
    rw [System.callSearches]
    split
    next => exact inv
    next =>
      cases searched : searchHost codec s.ss.engine call.host call.qtype with
      | none =>
        rw [searched] at fresh
        exact inv.setStage since (.done fresh)
      | some rewrite =>
        rw [searched] at fresh latest
        cases made : newResult rewrite call.qtype with
        | error err =>
          simp only [made] at fresh ⊢
          exact inv.setStage since (.done fresh)
        | ok res =>
          simp only [made] at latest ⊢
          exact inv.setStage since (.found good (Nat.le_trans since inv.finished)
            (Nat.le_refl _) (newResult_plain made) latest)

/-- A result that is still that of an engine since the last finished `Update` may be stored. -/
theorem Inv.setCacheResult (inv : Inv codec s) {host : Bytes} {res : Result}
    (good : supported qtype = true) (plain : res.dnsRewriteResult = none)
    (fresh : Fresh codec s.history s.finished host qtype (.ok res)) (cacheTTL now : Int) :
    Inv codec { s with ss := s.ss.setCacheResult codec cacheTTL host qtype res now } := by
  rw [Default.setCacheResult]
  split
  next => exact inv
  next val stored =>
    refine ⟨inv.engine, inv.finished, inv.settled, ?_, inv.calls⟩
    intro other otherType data found goodToo present decoded
    simp only [FiniteMap.get_set] at present
    split at present
    next same =>
      obtain ⟨rfl, rfl⟩ := cacheKey_injective goodToo good same
      cases present
      obtain ⟨encoded, encodes, rfl⟩ := Option.map_eq_some_iff.mp stored
      have expiry := BigEndian.length_put 4 (unix32 (now + cacheTTL))
      rw [List.drop_left' expiry, codec.decode_encode res encoded plain encodes] at decoded
      cases decoded
      exact fresh
    next => exact inv.cached other otherType data found goodToo present decoded

theorem Inv.callStores (inv : Inv codec s) {id : Nat} {res : Result} {engines : Nat}
    (present : s.calls.get id = some call) (standing : call.stage = .found res engines)
    (timely : s.finished ≤ engines ∨
      Fresh codec s.history s.finished call.host call.qtype (.ok res))
    (cacheTTL now : Int) : Inv codec (s.callStores codec cacheTTL id call res now) := by
  obtain ⟨since, good⟩ := inv.calls id call present
  rw [standing] at good
  cases good with
  | found good later bound plain fresh =>
    have current : Fresh codec s.history s.finished call.host call.qtype (.ok res) := by
      rcases timely with order | same
      · exact fresh.mono order
      · exact same
    exact (inv.setCacheResult good plain current cacheTTL now).setStage since
      (.done (fresh.mono later))

theorem Inv.startUpdate (inv : Inv codec s) (enabled : Bool) (built : Option Engine) :
    Inv codec (s.startUpdate enabled built) := by
  unfold System.startUpdate
  split
  next => exact inv
  next =>
    split
    next =>
      split
      next => exact inv
      next engine =>
        refine ⟨rfl, Nat.le_succ_of_le inv.finished, fun settled => Bool.noConfusion settled, ?_, ?_⟩
        · intro host qtype data res good found decoded
          exact (inv.cached host qtype data res good found decoded).cons _ inv.finished
        · intro id call present
          obtain ⟨since, good⟩ := inv.calls id call present
          exact ⟨since, good.cons _ (Nat.le_trans since inv.finished)⟩
    next =>
      exact ⟨inv.engine, inv.finished, fun settled => Bool.noConfusion settled, inv.cached,
        inv.calls⟩

theorem Inv.finishUpdate (inv : Inv codec s) : Inv codec s.finishUpdate := by
  rw [System.finishUpdate]
  split
  next =>
    refine ⟨inv.engine, Nat.le_refl _, fun _ => rfl, ?_, ?_⟩
    · intro host qtype data res good found
      simp at found
    · intro id call present
      obtain ⟨since, good⟩ := inv.calls id call present
      exact ⟨Nat.le_trans since inv.finished, good⟩
  next => exact inv

end Steps

/-- A call does not store what it has looked up before an `Update` that is finished by then, unless
an engine since that `Update` gives the same. -/
def Timely (codec : Codec) (s : System) : Event → Prop
  | .setCache id _ => ∀ call res engines, s.calls.get id = some call →
      call.stage = .found res engines →
      s.finished ≤ engines ∨ Fresh codec s.history s.finished call.host call.qtype (.ok res)
  | _ => True

theorem Inv.step {codec : Codec} {s : System} (inv : Inv codec s) (cacheTTL : Int) (event : Event)
    (timely : Timely codec s event) : Inv codec (s.step codec cacheTTL event) := by
  cases event with
  | checkHost id host qtype => exact inv.startCall id host qtype
  | getCached id now =>
    simp only [System.step]
    split
    next call present =>
      split
      next standing => exact inv.callGetsCached present standing now
      next => exact inv
    next => exact inv
  | search id =>
    simp only [System.step]
    split
    next call present =>
      split
      next standing => exact inv.callSearches present standing
      next => exact inv
    next => exact inv
  | setCache id now =>
    simp only [System.step]
    split
    next call present =>
      split
      next res engines standing =>
        exact inv.callStores present standing (timely call res engines present standing)
          cacheTTL now
      next => exact inv
    next => exact inv
  | resetEngine enabled built => exact inv.startUpdate enabled built
  | clearCache => exact inv.finishUpdate
  | evict key => exact inv.delete key

/-- What a call has returned is, for any letter case of the host, what a lookup without the cache
gives in an engine that was in place since the last `Update` before the call; without an
`Update` since then that is the current engine. -/
structure Transparent (codec : Codec) (s : System) (call : Call) (outcome : Outcome) : Prop where
  recent : ∃ engine ∈ recent s.history call.since, ∀ host,
    codec.toLower host = codec.toLower call.host → outcome = lookup codec engine host call.qtype
  current : call.since = s.history.length → ∀ host,
    codec.toLower host = codec.toLower call.host →
    outcome = lookup codec s.ss.engine host call.qtype

theorem lookup_toLower {codec : Codec} {host other : Bytes}
    (same : codec.toLower host = codec.toLower other) (engine : Option Engine) (qtype : RRType) :
    lookup codec engine host qtype = lookup codec engine other qtype := by
  simp only [lookup, searchHost, same]

theorem Inv.transparent {codec : Codec} {s : System} (inv : Inv codec s) {id : Nat} {call : Call}
    {outcome : Outcome} (present : s.calls.get id = some call)
    (returned : call.stage = .done outcome) : Transparent codec s call outcome := by
  obtain ⟨_, good⟩ := inv.calls id call present
  rw [returned] at good
  cases good with
  | done fresh =>
    obtain ⟨engine, member, result⟩ := fresh
    refine ⟨⟨engine, member, fun host same => ?_⟩, fun latest host same => ?_⟩
    · rw [result, lookup_toLower same]
    · obtain ⟨rest, history⟩ := List.head?_eq_some_iff.mp inv.engine
      rw [latest, Safesearch.recent, Nat.add_sub_cancel_left, history] at member
      rw [result, lookup_toLower same, List.mem_singleton.mp member]

/-- In every run whose results are stored in time the cache is transparent. -/
theorem checkHost_transparent (codec : Codec) (cacheTTL : Int) (engine : Option Engine)
    (events : List Event)
    (timely : (System.machine codec cacheTTL).Allowed (Timely codec) (.newDefault engine) events) :
    ∀ id call outcome,
      ((System.machine codec cacheTTL).run (.newDefault engine) events).calls.get id = some call →
      call.stage = .done outcome →
      Transparent codec ((System.machine codec cacheTTL).run (.newDefault engine) events) call
        outcome := by
  intro id call outcome present returned
  have inv := (System.machine codec cacheTTL).run_invariant (Inv codec)
    (fun s event inv now => inv.step cacheTTL event now) (Inv.newDefault engine) timely
  exact inv.transparent present returned

section Examples

private def renamed (name : Bytes) : Result :=
  { Result.ofReason .filteredSafeSearch with isFiltered := true, canonName := name }

private def renamingCodec : Codec where
  encode res :=
    if res.ipList = [] ∧ res.rules = [] ∧ res.reason = .filteredSafeSearch ∧
        res.isFiltered = true then some res.canonName
    else none
  decode data := some (renamed data)
  toLower := toLowerASCII
  decode_encode res data plain encodes := by
    obtain ⟨_, _, _, _, _, _⟩ := res
    split at encodes
    next only =>
      obtain ⟨rfl, rfl, rfl, rfl⟩ := only
      cases encodes
      cases plain
      rfl
    next => nomatch encodes

private def forcesSafe : Engine := fun host _ =>
  if host = lit "www.google.com" then
    [⟨lit "|www.google.com^", apiIDSafeSearch,
      ⟨lit "forcesafesearch.google.com", rcodeSuccess, 0, .nil⟩⟩]
  else []

/-- The rules of a search engine that is not protected any more. -/
private def forcesNothing : Engine := fun _ _ => []

private def halfHour : Int := 1800000000000

private def started : System := .newDefault (some forcesSafe)

private abbrev filter : Machine System Event Unit := System.machine renamingCodec halfHour

/-- A result that is stored before the rules change, and a lookup that starts after it. -/
private def timelyRun : List Event :=
  [.checkHost 0 (lit "www.google.com") .a, .getCached 0 0, .search 0, .setCache 0 0,
    .resetEngine true (some forcesNothing), .clearCache, .checkHost 1 (lit "www.google.com") .a,
    .getCached 1 1, .search 1]

theorem checkHost_transparent_around_update :
    ∃ call, (filter.run started timelyRun).calls.get 1 = some call ∧
      Transparent renamingCodec (filter.run started timelyRun) call (.ok zeroResult) := by
  refine ⟨_, rfl, ?_⟩
  refine checkHost_transparent renamingCodec halfHour (some forcesSafe) timelyRun ?_ 1 _ _ rfl rfl
  refine ⟨trivial, trivial, trivial, ?_, trivial, trivial, trivial, trivial, trivial, trivial⟩
  intro call res engines present standing
  cases present
  cases standing
  exact .inl (Nat.le_refl 1)

/-- The rules change between the lookup of the first call and its store. -/
private def lateRun : List Event :=
  [.checkHost 0 (lit "www.google.com") .a, .getCached 0 0, .search 0,
    .resetEngine true (some forcesNothing), .clearCache, .setCache 0 0,
    .checkHost 1 (lit "www.google.com") .a, .getCached 1 1]

theorem late_store_outlives_update :
    ¬ ∀ (codec : Codec) (cacheTTL : Int) (engine : Option Engine) (events : List Event),
      ∀ id call outcome,
        ((System.machine codec cacheTTL).run (.newDefault engine) events).calls.get id = some call →
        call.stage = .done outcome →
        Transparent codec ((System.machine codec cacheTTL).run (.newDefault engine) events) call
          outcome := by
  intro always
  have second := always renamingCodec halfHour (some forcesSafe) lateRun 1 _ _ rfl rfl
  have same := second.current rfl (lit "www.google.com") rfl
  injection same with results
  have filtered := congrArg Result.isFiltered results
  exact Bool.noConfusion filtered

end Examples

end AdGuardHome.Safesearch
