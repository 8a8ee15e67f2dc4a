import AdGuardHome.Lib.FiniteMap

/-! Package `rdns`: the names of addresses, and when they are told to have changed. -/
namespace AdGuardHome.Rdns

/-- What `Exchange` returns; its error is only logged. -/
structure Exchanged where
  host : String
  ttl : Int
deriving DecidableEq

structure CacheItem where
  expiry : Int
  host : String
deriving DecidableEq

abbrev Cache (Addr : Type) := FiniteMap Addr CacheItem

/-- What `Process` returns. -/
structure Reply where
  host : String
  changed : Bool
deriving DecidableEq

/-- `Empty.Process`. -/
def Reply.empty : Reply := ⟨"", false⟩

section Processing

variable {Addr : Type} [DecidableEq Addr] (cacheTTL : Int)

def findInCache (cache : Cache Addr) (ip : Addr) (now : Int) : String × Bool :=
  match cache.get ip with
  | none => ("", true)
  | some item => (item.host, decide (item.expiry < now))

/-- `Default.Process`. -/
def process (cache : Cache Addr) (ip : Addr) (now later : Int) (exchanged : Exchanged) :
    Cache Addr × Reply :=
  let (fromCache, expired) := findInCache cache ip now
  if !expired then (cache, ⟨fromCache, false⟩)
  else
    let ttl := max exchanged.ttl cacheTTL
    (cache.set ip ⟨later + ttl, exchanged.host⟩,
      ⟨exchanged.host, decide (fromCache = "" ∨ exchanged.host ≠ fromCache)⟩)

variable {cacheTTL}

/-- A call of `Process` asks, or returns the name that is cached. -/
theorem process_cases (cache : Cache Addr) (ip : Addr) (now later : Int) (exchanged : Exchanged) :
    (∃ item, cache.get ip = some item ∧ ¬ item.expiry < now ∧
      process cacheTTL cache ip now later exchanged = (cache, ⟨item.host, false⟩)) ∨
    ((∀ item, cache.get ip = some item → item.expiry < now) ∧
      process cacheTTL cache ip now later exchanged =
        (cache.set ip ⟨later + max exchanged.ttl cacheTTL, exchanged.host⟩,
          ⟨exchanged.host,
            decide (exchanged.host = "" ∨ (cache.get ip).map (·.host) ≠ some exchanged.host)⟩)) := by
  unfold process findInCache
  cases found : cache.get ip with
  | none =>
    right
    exact ⟨nofun, by simp⟩
  | some item =>
    by_cases expired : item.expiry < now
    · right
      refine ⟨fun other same => Option.some.inj same ▸ expired, ?_⟩
      have told : (item.host = "" ∨ exchanged.host ≠ item.host) ↔
          (exchanged.host = "" ∨ some item.host ≠ some exchanged.host) := by
        by_cases same : exchanged.host = item.host
        · simp [same]
        · simp [same, Ne.symm same]
      simp [expired, told]
    · exact .inl ⟨item, rfl, expired, by simp [expired]⟩

end Processing

end AdGuardHome.Rdns
