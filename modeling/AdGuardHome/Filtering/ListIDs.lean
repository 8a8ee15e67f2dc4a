import AdGuardHome.Filtering.ListOperations
import AdGuardHome.Lib.Machine

/-! `idgenerator.go`: the counter of the list IDs and the repair of an array. -/
namespace AdGuardHome.Filtering

namespace IDGenerator

/-- `idGenerator.next`, with `none` for the panic of a counter that wraps around. The ID is
the new value of the counter. -/
def next (current : ListID) : Option ListID :=
  if current + 1 = 0 then none else some (current + 1)

/-- The loop of `fix` for a duplicate: IDs are drawn until one is not in the set. The
counter panics before the fuel is used up. -/
def nextUnused (set : List ListID) : Nat → ListID → Option ListID
  | 0, _ => none
  | fuel + 1, current =>
    match next current with
    | none => none
    | some newID => if newID ∈ set then nextUnused set fuel newID else some newID

def fuel (current : ListID) : Nat := 2 ^ 64 - current.toNat

/-- A list's own ID and the counter, or the next ID for a list without one. -/
def ownID (current : ListID) (f : FilterYAML) : Option (ListID × ListID) :=
  if f.id = 0 then (next current).map fun id => (id, id) else some (f.id, current)

/-- One round of the loop of `fix`: the ID of the list and the counter. -/
def fixID (set : List ListID) (current : ListID) (f : FilterYAML) : Option (ListID × ListID) :=
  match ownID current f with
  | none => none
  | some (id, current) =>
    if id ∉ set then some (id, current)
    else (nextUnused set (fuel current) current).map fun id => (id, id)

/-- `idGenerator.fix`, from the set of the IDs before. -/
def fix (set : List ListID) : ListID → List FilterYAML → Option (List FilterYAML × ListID)
  | current, [] => some ([], current)
  | current, f :: rest =>
    match fixID set current f with
    | none => none
    | some (id, current) =>
      match fix (id :: set) current rest with
      | none => none
      | some (fixed, current) => some ({ f with id } :: fixed, current)

def Passed (early late id : ListID) : Prop := early.toNat < id.toNat ∧ id.toNat ≤ late.toNat

instance (early late id : ListID) : Decidable (Passed early late id) :=
  inferInstanceAs (Decidable (_ ∧ _))

theorem Passed.trans {a b c id : ListID} (first : a.toNat ≤ b.toNat) (second : b.toNat ≤ c.toNat) :
    Passed a c id ↔ Passed a b id ∨ Passed b c id := by
  unfold Passed
  omega

theorem next_toNat {current id : ListID} (drawn : next current = some id) :
    id.toNat = current.toNat + 1 := by
  unfold next at drawn
  split at drawn
  · cases drawn
  · rename_i noWrap
    cases drawn
    have bound := current.isLt
    have sum : (current + 1).toNat = (current.toNat + 1) % 2 ^ 64 := by simp [BitVec.toNat_add]
    have nonzero : (current + 1).toNat ≠ 0 := fun zero => noWrap (BitVec.eq_of_toNat_eq zero)
    omega

theorem next_passed {current id other : ListID} (drawn : next current = some id) :
    Passed current id other ↔ other = id := by
  have value := next_toNat drawn
  constructor
  · intro passed
    apply BitVec.eq_of_toNat_eq
    have low := passed.1
    have high := passed.2
    omega
  · rintro rfl
    unfold Passed
    omega

variable {set : List ListID}

/-- The drawn ID is new, and what was passed before it is not. -/
theorem nextUnused_spec {rounds : Nat} {current id : ListID}
    (drawn : nextUnused set rounds current = some id) :
    current.toNat < id.toNat ∧ id ∉ set ∧
      ∀ other, Passed current id other → other = id ∨ other ∈ set := by
  induction rounds generalizing current with
  | zero => cases drawn
  | succ rounds ih =>
    simp only [nextUnused] at drawn
    cases first : next current with
    | none => simp [first] at drawn
    | some newID =>
      simp only [first] at drawn
      have value := next_toNat first
      by_cases taken : newID ∈ set
      · rw [if_pos taken] at drawn
        obtain ⟨later, unused, between⟩ := ih drawn
        refine ⟨by omega, unused, ?_⟩
        intro other passed
        have low : current.toNat ≤ newID.toNat := by omega
        rcases (Passed.trans low (Nat.le_of_lt later)).mp passed with here | there
        · rw [next_passed first] at here
          exact Or.inr (here ▸ taken)
        · exact between other there
      · rw [if_neg taken] at drawn
        cases drawn
        refine ⟨by omega, taken, ?_⟩
        intro other passed
        exact Or.inl ((next_passed first).mp passed)

/-- What a round of the repair gives: an ID that is new, and between the counters nothing
but it and IDs of the set. -/
theorem fixID_spec {current late id : ListID} {f : FilterYAML}
    (fixed : fixID set current f = some (id, late)) :
    current.toNat ≤ late.toNat ∧ id ∉ set ∧
      (id = f.id ∧ f.id ≠ 0 ∨ Passed current late id) ∧
      (f.id ≠ 0 → f.id = id ∨ f.id ∈ set) ∧
      ∀ other, Passed current late other → other = id ∨ other ∈ set := by
  simp only [fixID, ownID] at fixed
  by_cases zero : f.id = 0
  · rw [if_pos zero] at fixed
    cases drawn : next current with
    | none => simp [drawn] at fixed
    | some own =>
      have value := next_toNat drawn
      simp only [drawn, Option.map_some] at fixed
      by_cases taken : own ∈ set
      · simp only [taken, not_true_eq_false, ↓reduceIte, Option.map_eq_some_iff] at fixed
        obtain ⟨newID, unused, pair⟩ := fixed
        simp only [Prod.mk.injEq] at pair
        obtain ⟨rfl, rfl⟩ := pair
        obtain ⟨later, new, between⟩ := nextUnused_spec unused
        refine ⟨by omega, new, Or.inr ⟨by omega, Nat.le_refl _⟩, absurd zero, ?_⟩
        intro other passed
        have low : current.toNat ≤ own.toNat := by omega
        rcases (Passed.trans low (Nat.le_of_lt later)).mp passed with here | there
        · rw [next_passed drawn] at here
          exact Or.inr (here ▸ taken)
        · exact between other there
      · simp only [taken, not_false_eq_true, ↓reduceIte, Option.some.injEq, Prod.mk.injEq] at fixed
        obtain ⟨rfl, rfl⟩ := fixed
        refine ⟨by omega, taken, Or.inr ⟨by omega, Nat.le_refl _⟩, absurd zero, ?_⟩
        intro other passed
        exact Or.inl ((next_passed drawn).mp passed)
  · rw [if_neg zero] at fixed
    simp only at fixed
    by_cases taken : f.id ∈ set
    · simp only [taken, not_true_eq_false, ↓reduceIte, Option.map_eq_some_iff] at fixed
      obtain ⟨newID, unused, pair⟩ := fixed
      simp only [Prod.mk.injEq] at pair
      obtain ⟨rfl, rfl⟩ := pair
      obtain ⟨later, new, between⟩ := nextUnused_spec unused
      exact ⟨by omega, new, Or.inr ⟨later, Nat.le_refl _⟩, fun _ => Or.inr taken, between⟩
    · simp only [taken, not_false_eq_true, ↓reduceIte, Option.some.injEq, Prod.mk.injEq] at fixed
      obtain ⟨rfl, rfl⟩ := fixed
      refine ⟨Nat.le_refl _, taken, Or.inl ⟨rfl, zero⟩, fun _ => Or.inl rfl, ?_⟩
      intro other passed
      have low := passed.1
      have high := passed.2
      omega

/-- After the repair the IDs differ, and they are the former ones and what the counter has
passed. -/
theorem fix_spec {current late : ListID} {flts fixed : List FilterYAML}
    (repaired : fix set current flts = some (fixed, late)) :
    current.toNat ≤ late.toNat ∧ (fixed.map (·.id)).Nodup ∧ (∀ id ∈ set, id ∉ fixed.map (·.id)) ∧
      ∀ id, (id ∈ fixed.map (·.id) ∨ id ∈ set) ↔
        (id ∈ flts.map (·.id) ∧ id ≠ 0) ∨ Passed current late id ∨ id ∈ set := by
  induction flts generalizing set current fixed with
  | nil =>
    simp only [fix, Option.some.injEq, Prod.mk.injEq] at repaired
    obtain ⟨rfl, rfl⟩ := repaired
    refine ⟨Nat.le_refl _, List.nodup_nil, by simp, ?_⟩
    intro id
    have nothing : ¬ Passed current current id := fun passed => by
      have low := passed.1
      have high := passed.2
      omega
    simp [nothing]
  | cons f rest ih =>
    simp only [fix] at repaired
    cases first : fixID set current f with
    | none => simp [first] at repaired
    | some result =>
      obtain ⟨id, middle⟩ := result
      simp only [first] at repaired
      cases others : fix (id :: set) middle rest with
      | none => simp [others] at repaired
      | some result =>
        obtain ⟨tail, last⟩ := result
        simp only [others, Option.some.injEq, Prod.mk.injEq] at repaired
        obtain ⟨rfl, rfl⟩ := repaired
        obtain ⟨low, new, origin, kept, between⟩ := fixID_spec first
        obtain ⟨high, nodup, apart, members⟩ := ih others
        refine ⟨Nat.le_trans low high, ?_, ?_, ?_⟩
        · exact List.nodup_cons.mpr ⟨apart id List.mem_cons_self, nodup⟩
        · intro old member
          simp only [List.map_cons, List.mem_cons, not_or]
          refine ⟨?_, apart old (List.mem_cons_of_mem _ member)⟩
          rintro rfl
          exact new member
        · intro other
          have tailMembers := members other
          have passed : Passed current last other ↔
            Passed current middle other ∨ Passed middle last other := Passed.trans low high
          have fromFirst : other = id → (other = f.id ∧ other ≠ 0) ∨ Passed current middle other := by
            rintro rfl
            rcases origin with ⟨own, nonzero⟩ | counted
            · exact Or.inl ⟨own, own ▸ nonzero⟩
            · exact Or.inr counted
          have toFirst : other = f.id → other ≠ 0 → other = id ∨ other ∈ set := by
            rintro rfl
            exact kept
          have here := between other
          simp only [List.map_cons, List.mem_cons] at tailMembers ⊢
          grind

end IDGenerator

open IDGenerator RuleList Strings Transition

/-- What opening and reading the file of a list gives: its contents and modification time. -/
abbrev Stored := ListID → Option (Bytes × Int)

/-- `DNSFilter.load`. A list whose file is missing or cannot be parsed stays as it is. -/
def load (stored : Stored) (flt : FilterYAML) : FilterYAML :=
  match stored flt.id with
  | none => flt
  | some (file, modTime) =>
    match parse file with
    | .error _ => flt
    | .ok res => { flt.ensureName res.title with
        rulesCount := res.rulesCount, checksum := res.checksum, lastUpdated := modTime }

/-- `DNSFilter.loadFilters`. -/
def loadFilters (stored : Stored) : ListID → List FilterYAML → Option (List FilterYAML × ListID)
  | current, [] => some ([], current)
  | current, f :: rest =>
    match ownID current f with
    | none => none
    | some (id, current) =>
      let filter := if f.enabled then load stored { f with id } else { f with id }
      match loadFilters stored current rest with
      | none => none
      | some (loaded, current) => some (filter :: loaded, current)

/-- `deduplicateFilters`, from the set of the URLs before. -/
def deduplicateFilters : List Bytes → List FilterYAML → List FilterYAML
  | _, [] => []
  | urls, f :: rest =>
    if f.url ∈ urls then deduplicateFilters urls rest
    else f :: deduplicateFilters (f.url :: urls) rest

def ids (filters : List FilterYAML) : List ListID := filters.map (·.id)

structure ListServer where
  lists : Lists
  current : ListID

/-- The end of `New`: both arrays as loaded and deduplicated, the counter then and after
the repair of the block lists, and what the repair of both leaves. -/
structure Startup where
  block : List FilterYAML
  allow : List FilterYAML
  loaded : ListID
  middle : ListID
  server : ListServer

/-- `New`, from the seed of the counter on, with `none` for its panic. -/
def new (stored : Stored) (disk : Disk) (seed : ListID) (filters whitelistFilters : List FilterYAML) :
    Option Startup :=
  match loadFilters stored seed filters with
  | none => none
  | some (block, current) =>
    match loadFilters stored current whitelistFilters with
    | none => none
    | some (allow, loaded) =>
      let block := deduplicateFilters [] block
      let allow := deduplicateFilters [] allow
      match fix [] loaded block with
      | none => none
      | some (filters, middle) =>
        match fix [] middle allow with
        | none => none
        | some (whitelistFilters, current) =>
          some ⟨block, allow, loaded, middle, ⟨⟨filters, whitelistFilters, disk⟩, current⟩⟩

/-- The requests about lists. -/
inductive ListEvent where
  | addURL (url name : Bytes) (white : Bool) (d : Download)
  | removeURL (url : Bytes) (white renamed : Bool)
  | setURL (listURL : Bytes) (newList : FilterYAML) (white : Bool) (d : Download)

namespace ListServer

def ids (s : ListServer) : List ListID := (s.lists.filters ++ s.lists.whitelistFilters).map (·.id)

/-- `handleFilteringAddURL`. A counter that wraps around panics, and the request is dropped. -/
def addURL (s : ListServer) (url name : Bytes) (white : Bool) (d : Download) : ListServer :=
  if s.lists.filterExists url then s
  else
    match next s.current with
    | none => { s with current := 0 }
    | some id => ⟨s.lists.addURL url name white id d, id⟩

def step (s : ListServer) : ListEvent → ListServer × PUnit.{1}
  | .addURL url name white d => (s.addURL url name white d, ⟨⟩)
  | .removeURL url white renamed => ({ s with lists := s.lists.removeURL url white renamed }, ⟨⟩)
  | .setURL listURL newList white d =>
    ({ s with lists := (s.lists.filterSetProperties listURL newList white d).1 }, ⟨⟩)

def machine : Machine ListServer ListEvent PUnit.{1} := ⟨step⟩

def Unique (s : ListServer) : Prop := s.ids.Nodup

instance (s : ListServer) : Decidable s.Unique := inferInstanceAs (Decidable (List.Nodup _))

def addedID (s : ListServer) : ListEvent → Option ListID
  | .addURL url name white d =>
    if s.lists.filterExists url then none
    else
      match next s.current with
      | none => none
      | some id =>
        let u := update s.lists.disk (Lists.newFilter url name white id) d
        if u.err.isNone && u.updated then some id else none
  | _ => none

/-- The list that a request with this URL is about. -/
def find (s : ListServer) (url : Bytes) (white : Bool) : Option FilterYAML :=
  (s.lists.array white).find? (·.url == url)

/-- All IDs differ, so that removing, refreshing or editing a list leaves every other list
and its file as they are. -/
structure Separate (s : ListServer) : Prop where
  unique : s.Unique
  removed : ∀ url white renamed, ∀ f ∈ s.lists.all, s.find url white ≠ some f →
    let after := s.lists.removeURL url white renamed
    f ∈ after.all ∧ after.disk.get f.id = s.lists.disk.get f.id
  refreshed : ∀ uf ∈ s.lists.all, ∀ d, ∀ f ∈ s.lists.all, f ≠ uf →
    (update s.lists.disk uf d).disk.get f.id = s.lists.disk.get f.id
  edited : ∀ listURL newList white d, ∀ f ∈ s.lists.all, s.find listURL white ≠ some f →
    let after := (s.lists.filterSetProperties listURL newList white d).1
    f ∈ after.all ∧ after.disk.get f.id = s.lists.disk.get f.id

def wraps (s : ListServer) : ListEvent → Bool
  | .addURL url _ _ _ => !s.lists.filterExists url && (next s.current).isNone
  | _ => false

end ListServer

/-- The lists with the IDs that are left from `New` or from when the counter last wrapped
around. -/
structure CountedServer where
  server : ListServer
  left : List ListID

namespace CountedServer

def step (c : CountedServer) (event : ListEvent) : CountedServer × PUnit.{1} :=
  let server := ListServer.machine.next c.server event
  let left := if c.server.wraps event then server.ids else c.left.filter (· ∈ server.ids)
  (⟨server, left⟩, ⟨⟩)

def machine : Machine CountedServer ListEvent PUnit.{1} := ⟨step⟩

/-- A list that is added does not get one of these IDs. -/
def Clear (c : CountedServer) (event : ListEvent) : Prop :=
  ∀ id, c.server.addedID event = some id → id ∉ c.left

instance (c : CountedServer) (event : ListEvent) : Decidable (c.Clear event) :=
  decidableForallSome (c.server.addedID event)

/-- The counter has given or passed all other IDs. -/
structure Drawn (c : CountedServer) : Prop where
  present : ∀ id ∈ c.left, id ∈ c.server.ids
  passed : ∀ id ∈ c.server.ids, id ∈ c.left ∨ id.toNat ≤ c.server.current.toNat

end CountedServer

/-- The loaded arrays have no ID in common, and repairing either does not take the counter
through an ID of the other. -/
def Startup.Apart (n : Startup) : Prop :=
  (∀ f ∈ n.block, f.id ∉ ids n.allow) ∧
    (∀ f ∈ n.allow, ¬ Passed n.loaded n.middle f.id) ∧
    ∀ f ∈ n.block, ¬ Passed n.middle n.server.current f.id

instance (n : Startup) : Decidable n.Apart := inferInstanceAs (Decidable (_ ∧ _ ∧ _))

section Startup

theorem load_id (stored : Stored) (flt : FilterYAML) : (load stored flt).id = flt.id := by
  unfold load
  cases stored flt.id with
  | none => rfl
  | some file =>
    simp only
    cases parse file.1 with
    | error err => rfl
    | ok res =>
      simp only [FilterYAML.ensureName]
      split
      · rfl
      split <;> rfl

theorem loadFilters_nonzero {stored : Stored} {current late : ListID}
    {flts loaded : List FilterYAML} (result : loadFilters stored current flts = some (loaded, late)) :
    ∀ id ∈ ids loaded, id ≠ 0 := by
  induction flts generalizing current loaded with
  | nil =>
    simp only [loadFilters, Option.some.injEq, Prod.mk.injEq] at result
    obtain ⟨rfl, rfl⟩ := result
    simp [ids]
  | cons f rest ih =>
    simp only [loadFilters] at result
    cases own : ownID current f with
    | none => simp [own] at result
    | some pair =>
      obtain ⟨id, middle⟩ := pair
      simp only [own] at result
      cases others : loadFilters stored middle rest with
      | none => simp [others] at result
      | some pair =>
        obtain ⟨tail, last⟩ := pair
        simp only [others, Option.some.injEq, Prod.mk.injEq] at result
        obtain ⟨rfl, rfl⟩ := result
        have nonzero : id ≠ 0 := by
          unfold ownID at own
          split at own
          · obtain ⟨drawn, value, same⟩ := Option.map_eq_some_iff.mp own
            simp only [Prod.mk.injEq] at same
            obtain ⟨rfl, rfl⟩ := same
            intro zero
            have positive := next_toNat value
            simp [zero] at positive
          · rename_i some
            simp only [Option.some.injEq, Prod.mk.injEq] at own
            obtain ⟨rfl, rfl⟩ := own
            exact some
        intro other member
        rcases List.mem_cons.mp member with same | later
        · rw [same]
          split
          · exact fun zero => nonzero ((load_id stored _).symm.trans zero)
          · exact nonzero
        · exact ih others other later

theorem mem_deduplicateFilters {urls : List Bytes} {flts : List FilterYAML} {f : FilterYAML}
    (member : f ∈ deduplicateFilters urls flts) : f ∈ flts := by
  induction flts generalizing urls with
  | nil => cases member
  | cons head rest ih =>
    unfold deduplicateFilters at member
    split at member
    · exact List.mem_cons_of_mem _ (ih member)
    · rcases List.mem_cons.mp member with rfl | later
      · exact List.mem_cons_self
      · exact List.mem_cons_of_mem _ (ih later)

/-- A repaired array has its own IDs and what the counter has passed. -/
theorem mem_fix {current late : ListID} {flts fixed : List FilterYAML}
    (repaired : fix [] current flts = some (fixed, late)) (nonzero : ∀ id ∈ ids flts, id ≠ 0)
    (id : ListID) : id ∈ ids fixed ↔ id ∈ ids flts ∨ Passed current late id := by
  have members := (fix_spec repaired).2.2.2 id
  simp only [List.not_mem_nil, or_false] at members
  rw [ids, members]
  constructor
  · intro either
    exact either.imp And.left (fun passed => passed)
  · intro either
    exact either.imp (fun here => ⟨here, nonzero id here⟩) (fun passed => passed)

/-- After `New` the IDs differ exactly when the arrays are apart. -/
theorem new_unique_iff {stored : Stored} {disk : Disk} {seed : ListID}
    {filters whitelistFilters : List FilterYAML} {n : Startup}
    (started : new stored disk seed filters whitelistFilters = some n) :
    n.server.Unique ↔ n.Apart := by
  simp only [new] at started
  cases loadBlock : loadFilters stored seed filters with
  | none => simp [loadBlock] at started
  | some pair =>
    obtain ⟨block, current⟩ := pair
    simp only [loadBlock] at started
    cases loadAllow : loadFilters stored current whitelistFilters with
    | none => simp [loadAllow] at started
    | some pair =>
      obtain ⟨allow, loaded⟩ := pair
      simp only [loadAllow] at started
      cases fixBlock : fix [] loaded (deduplicateFilters [] block) with
      | none => simp [fixBlock] at started
      | some pair =>
        obtain ⟨fixedBlock, middle⟩ := pair
        simp only [fixBlock] at started
        cases fixAllow : fix [] middle (deduplicateFilters [] allow) with
        | none => simp [fixAllow] at started
        | some pair =>
          obtain ⟨fixedAllow, last⟩ := pair
          simp only [fixAllow, Option.some.injEq] at started
          subst started
          have blockNonzero : ∀ id ∈ ids (deduplicateFilters [] block), id ≠ 0 := by
            intro id member
            obtain ⟨f, inside, rfl⟩ := List.mem_map.mp member
            exact loadFilters_nonzero loadBlock _ (List.mem_map_of_mem (mem_deduplicateFilters inside))
          have allowNonzero : ∀ id ∈ ids (deduplicateFilters [] allow), id ≠ 0 := by
            intro id member
            obtain ⟨f, inside, rfl⟩ := List.mem_map.mp member
            exact loadFilters_nonzero loadAllow _ (List.mem_map_of_mem (mem_deduplicateFilters inside))
          have blockMembers := mem_fix fixBlock blockNonzero
          have allowMembers := mem_fix fixAllow allowNonzero
          have blockNodup := (fix_spec fixBlock).2.1
          have allowNodup := (fix_spec fixAllow).2.1
          simp only [ListServer.Unique, ListServer.ids, List.map_append, List.nodup_append,
            blockNodup, allowNodup, true_and, Startup.Apart]
          constructor
          · intro apart
            refine ⟨?_, ?_, ?_⟩
            · intro f inBlock inAllow
              exact apart f.id ((blockMembers f.id).mpr (Or.inl (List.mem_map_of_mem inBlock))) f.id
                ((allowMembers f.id).mpr (Or.inl inAllow)) rfl
            · intro f inAllow passed
              exact apart f.id ((blockMembers f.id).mpr (Or.inr passed)) f.id
                ((allowMembers f.id).mpr (Or.inl (List.mem_map_of_mem inAllow))) rfl
            · intro f inBlock passed
              exact apart f.id ((blockMembers f.id).mpr (Or.inl (List.mem_map_of_mem inBlock))) f.id
                ((allowMembers f.id).mpr (Or.inr passed)) rfl
          · rintro ⟨apart, blockCounter, allowCounter⟩ id inBlock _ inAllow rfl
            rcases (blockMembers id).mp inBlock with ownBlock | passedBlock
            · obtain ⟨f, kept, rfl⟩ := List.mem_map.mp ownBlock
              rcases (allowMembers f.id).mp inAllow with ownAllow | passedAllow
              · exact apart f kept ownAllow
              · exact allowCounter f kept passedAllow
            · rcases (allowMembers id).mp inAllow with ownAllow | passedAllow
              · obtain ⟨f, kept, rfl⟩ := List.mem_map.mp ownAllow
                exact blockCounter f kept passedBlock
              · have high := passedBlock.2
                have low := passedAllow.1
                omega

end Startup

section Requests

variable {s : ListServer}

theorem addURL_ids (url name : Bytes) (white : Bool) (d : Download) :
    (s.addURL url name white d).ids.Perm
      ((s.addedID (.addURL url name white d)).toList ++ s.ids) := by
  unfold ListServer.addURL ListServer.addedID
  by_cases known : s.lists.filterExists url = true
  · simp [known]
  · simp only [known, Bool.false_eq_true, ↓reduceIte]
    cases next s.current with
    | none => exact List.Perm.refl _
    | some id =>
      have sameId := update_id s.lists.disk (Lists.newFilter url name white id) d
      have sameUrl := update_url s.lists.disk (Lists.newFilter url name white id) d
      have sameWhite := update_white s.lists.disk (Lists.newFilter url name white id) d
      simp only [Lists.addURL, known, Bool.false_eq_true, ↓reduceIte]
      generalize update s.lists.disk (Lists.newFilter url name white id) d = u at *
      cases failed : u.err with
      | some err => exact List.Perm.refl _
      | none =>
        cases updated : u.updated with
        | false => exact List.Perm.refl _
        | true =>
          have unknown : (Lists.filterExists { s.lists with disk := u.disk } u.flt.url) = false := by
            rw [sameUrl]
            simpa [Lists.filterExists, Lists.newFilter] using known
          simp only [Option.isSome_none, Bool.false_eq_true, ↓reduceIte, Bool.not_true, Lists.filterAdd,
            unknown, Option.isNone_none, Bool.and_self, Option.toList_some]
          cases white with
          | false =>
            simp [ListServer.ids, Lists.setArray, Lists.array, sameId, sameWhite, Lists.newFilter]
          | true =>
            have last : (s.lists.filters ++ (s.lists.whitelistFilters ++ [u.flt])).Perm
                (u.flt :: (s.lists.filters ++ s.lists.whitelistFilters)) := by
              rw [← List.append_assoc]
              exact List.perm_append_singleton u.flt _
            simpa [ListServer.ids, Lists.setArray, Lists.array, sameId, sameWhite, Lists.newFilter]
              using last.map (·.id)

theorem next_unique_iff (s : ListServer) (event : ListEvent) (unique : s.Unique) :
    (ListServer.machine.next s event).Unique ↔ ∀ id, s.addedID event = some id → id ∉ s.ids := by
  cases event with
  | addURL url name white d =>
    have perm := addURL_ids (s := s) url name white d
    show (s.addURL url name white d).ids.Nodup ↔ _
    rw [perm.nodup_iff]
    cases added : s.addedID (.addURL url name white d) with
    | none => exact ⟨fun _ => nofun, fun _ => unique⟩
    | some id =>
      simp only [Option.toList_some, List.singleton_append, List.nodup_cons]
      constructor
      · intro ⟨unused, _⟩ other same
        obtain rfl : id = other := Option.some.inj same
        exact unused
      · intro unused
        exact ⟨unused id rfl, unique⟩
  | removeURL url white renamed =>
    refine ⟨fun _ _ added => (nomatch added), fun _ => ?_⟩
    exact unique.sublist (removeURL_ids s.lists url white renamed)
  | setURL listURL newList white d =>
    refine ⟨fun _ _ added => (nomatch added), fun _ => ?_⟩
    have same : (ListServer.machine.next s (.setURL listURL newList white d)).ids = s.ids :=
      filterSetProperties_ids s.lists listURL newList white d
    show (ListServer.machine.next s (.setURL listURL newList white d)).ids.Nodup
    rw [same]
    exact unique

end Requests

section Files

variable {s : ListServer}

theorem id_inj (unique : s.Unique) {f g : FilterYAML} (first : f ∈ s.lists.all)
    (second : g ∈ s.lists.all) (same : f.id = g.id) : f = g :=
  List.inj_on_of_nodup_map unique first second same

/-- Writing an array back keeps the lists that it still has and those of the other array. -/
theorem mem_setArray (lists : Lists) {white : Bool} {filters : List FilterYAML} {f : FilterYAML}
    (member : f ∈ lists.all) (kept : f ∈ lists.array white → f ∈ filters) (disk : Disk) :
    f ∈ Lists.all { lists.setArray white filters with disk } := by
  obtain ⟨other, inArray⟩ := Lists.mem_all.mp member
  have after : f ∈ (lists.setArray white filters).array other := by
    rw [Lists.array_setArray]
    split
    next same => exact kept (same ▸ inArray)
    next => exact inArray
  have both := Lists.mem_all_of_array after
  cases white <;> exact both

/-- Where the IDs differ, no request about a list touches another list or its file. -/
theorem separate_iff (s : ListServer) : s.Separate ↔ s.Unique := by
  refine ⟨ListServer.Separate.unique, fun unique => ⟨unique, ?_, ?_, ?_⟩⟩
  · intro url white renamed f member other
    rcases removeURL_eq s.lists url white renamed with ⟨same, _⟩ | ⟨i, deleted, here, _, found, same⟩
    · simp only [same]
      exact ⟨member, trivial⟩
    · have differs : f ≠ deleted := fun equal => other (equal ▸ found)
      have deletedMember := Lists.mem_all_of_array (List.mem_of_getElem? here)
      simp only [same]
      refine ⟨mem_setArray s.lists member ?_ _, ?_⟩
      · intro inArray
        have either := (KeyedList.perm_eraseIdx here).mem_iff.mp inArray
        exact (List.mem_cons.mp either).resolve_left differs
      · rw [FiniteMap.get_delete, if_neg fun ids => differs (id_inj unique member deletedMember ids)]
  · intro uf updated d f member differs
    exact update_other _ _ _ fun ids => differs (id_inj unique member updated ids)
  · intro listURL newList white d f member other
    rcases filterSetProperties_eq s.lists listURL newList white d with
      ⟨_, same⟩ | ⟨i, old, here, found, same⟩
    · simp only [same]
      exact ⟨member, trivial⟩
    · have differs : f ≠ old := fun equal => other (equal ▸ found)
      have oldMember := Lists.mem_all_of_array (List.mem_of_getElem? here)
      simp only [same]
      refine ⟨mem_setArray s.lists member ?_ _, ?_⟩
      · intro inArray
        have either := (KeyedList.perm_eraseIdx here).mem_iff.mp inArray
        have others := (List.mem_cons.mp either).resolve_left differs
        exact (KeyedList.perm_set here).mem_iff.mpr (List.mem_cons_of_mem _ others)
      · exact setProperties_other _ _ _ _ _ fun ids => differs (id_inj unique member oldMember ids)

end Files

namespace CountedServer

theorem run_server (c : CountedServer) (events : List ListEvent) :
    (machine.run c events).server = ListServer.machine.run c.server events := by
  induction events generalizing c with
  | nil => rfl
  | cons event rest ih => exact ih _

theorem current_le (s : ListServer) (event : ListEvent) (goesOn : s.wraps event = false) :
    s.current.toNat ≤ (ListServer.machine.next s event).current.toNat ∧
      ∀ id, s.addedID event = some id →
        s.current.toNat < id.toNat ∧ id.toNat ≤ (ListServer.machine.next s event).current.toNat := by
  cases event with
  | removeURL | setURL => exact ⟨le_rfl, fun _ added => (nomatch added)⟩
  | addURL url name white d =>
    show _ ≤ (s.addURL url name white d).current.toNat ∧ ∀ id : ListID, _ → _ ∧
      id.toNat ≤ (s.addURL url name white d).current.toNat
    simp only [ListServer.wraps, ListServer.addURL, ListServer.addedID] at goesOn ⊢
    cases known : s.lists.filterExists url with
    | true => simp
    | false =>
      simp only [known, Bool.not_false, Bool.true_and, Option.isNone_eq_false_iff] at goesOn
      obtain ⟨id, drawn⟩ := Option.isSome_iff_exists.mp goesOn
      have value := next_toNat drawn
      simp only [drawn, Bool.false_eq_true, ↓reduceIte]
      refine ⟨by omega, ?_⟩
      intro other added
      split at added
      · obtain rfl := Option.some.inj added
        omega
      · nomatch added

theorem ids_next (s : ListServer) (event : ListEvent) {id : ListID}
    (member : id ∈ (ListServer.machine.next s event).ids) :
    id ∈ s.ids ∨ s.addedID event = some id := by
  cases event with
  | addURL url name white d =>
    have either := (addURL_ids (s := s) url name white d).mem_iff.mp member
    rcases List.mem_append.mp either with added | former
    · exact Or.inr (Option.mem_toList.mp added)
    · exact Or.inl former
  | removeURL url white renamed =>
    exact Or.inl ((removeURL_ids s.lists url white renamed).subset member)
  | setURL listURL newList white d =>
    have same : (ListServer.machine.next s (.setURL listURL newList white d)).ids = s.ids :=
      filterSetProperties_ids s.lists listURL newList white d
    exact Or.inl (same ▸ member)

theorem Drawn.next {c : CountedServer} (drawn : c.Drawn) (event : ListEvent) :
    (machine.next c event).Drawn := by
  show Drawn ⟨ListServer.machine.next c.server event, _⟩
  cases wraps : c.server.wraps event with
  | true => exact ⟨fun _ member => by simpa using member, fun _ member => Or.inl (by simpa using member)⟩
  | false =>
    obtain ⟨grown, added⟩ := current_le c.server event wraps
    refine ⟨fun id member => by simpa using (List.mem_filter.mp member).2, ?_⟩
    intro id member
    rcases ids_next c.server event member with former | new
    · rcases drawn.passed id former with left | low
      · exact Or.inl (List.mem_filter.mpr ⟨left, by simpa using member⟩)
      · exact Or.inr (low.trans grown)
    · exact Or.inr (added id new).2

/-- What is added has an ID that no list has, unless it is one of those that are left. -/
theorem Drawn.clear_iff {c : CountedServer} (drawn : c.Drawn) (event : ListEvent) :
    (∀ id, c.server.addedID event = some id → id ∉ c.server.ids) ↔ c.Clear event := by
  constructor
  · intro unused id added left
    exact unused id added (drawn.present id left)
  · intro clear id added member
    have goesOn : c.server.wraps event = false := by
      cases event with
      | addURL url name white d =>
        simp only [ListServer.addedID] at added
        split at added
        · nomatch added
        next known =>
          split at added
          · nomatch added
          next value => simp [ListServer.wraps, value]
      | removeURL | setURL => nomatch added
    rcases drawn.passed id member with left | low
    · exact clear id added left
    · have high := ((current_le c.server event goesOn).2 id added).1
      omega

end CountedServer

/-- From `New` on, the IDs of both arrays differ in every state, and no list's file changes with
another list, exactly when the loaded arrays are apart and the counter never gives a list that is
added one of the IDs that are left from `New`. -/
theorem ids_unique_iff {stored : Stored} {disk : Disk} {seed : ListID}
    {filters whitelistFilters : List FilterYAML} {n : Startup}
    (started : new stored disk seed filters whitelistFilters = some n) (events : List ListEvent) :
    (∀ steps, (ListServer.machine.run n.server (events.take steps)).Separate) ↔
      n.Apart ∧ CountedServer.machine.Allowed CountedServer.Clear ⟨n.server, n.server.ids⟩ events := by
  have drawn : CountedServer.Drawn ⟨n.server, n.server.ids⟩ :=
    ⟨fun _ member => member, fun _ member => Or.inl member⟩
  have counted := @Transition.Machine.run_invariant_iff _ _ _ CountedServer.machine
    CountedServer.Clear (fun c => c.Drawn ∧ c.server.Unique)
    (fun c event good => by
      rw [and_iff_right (good.1.next event), ← good.1.clear_iff event]
      exact next_unique_iff c.server event good.2)
    ⟨n.server, n.server.ids⟩ events
  rw [← new_unique_iff started]
  constructor
  · intro separate
    have unique := fun steps => (separate_iff _).mp (separate steps)
    have allowed := counted.mp fun steps => by
      refine ⟨CountedServer.machine.reachable_invariant _ (fun _ event drawn => drawn.next event)
        drawn ⟨_, rfl⟩, ?_⟩
      rw [CountedServer.run_server]
      exact unique steps
    exact ⟨unique 0, allowed.2⟩
  · rintro ⟨unique, clear⟩ steps
    have after := (counted.mpr ⟨⟨drawn, unique⟩, clear⟩ steps).2
    rw [CountedServer.run_server] at after
    exact (separate_iff _).mpr after

section Examples

private def listConf (url : String) (id : ListID) (white : Bool) : FilterYAML :=
  ⟨false, lit url, lit "List", 0, zeroTime, 0, white, id⟩

private def someDownload : Download := ⟨true, some (lit "||ads.example^\n"), true, true, 0⟩

private def requests : List ListEvent :=
  [.addURL (lit "http://new.example/") [] false someDownload,
    .removeURL (lit "http://a.example/") false true]

/-- A block list without an ID gets the first one after the seed. -/
private def started : Startup where
  block := [listConf "http://a.example/" 1 false, listConf "http://c.example/" 1001 false]
  allow := [listConf "http://b.example/" 2 true]
  loaded := 1001
  middle := 1001
  server := ⟨⟨[listConf "http://a.example/" 1 false, listConf "http://c.example/" 1001 false],
    [listConf "http://b.example/" 2 true], ∅⟩, 1001⟩

private theorem new_started :
    new (fun _ => none) ∅ 1000
      [listConf "http://a.example/" 1 false, listConf "http://c.example/" 0 false]
      [listConf "http://b.example/" 2 true] = some started := rfl

theorem ids_unique_started :
    (ListServer.machine.run started.server (requests.take 2)).Separate :=
  (ids_unique_iff new_started requests).mpr (by decide +kernel) 2

private def bothFirst : Startup where
  block := [listConf "http://a.example/" 1 false]
  allow := [listConf "http://b.example/" 1 true]
  loaded := 1000
  middle := 1000
  server := ⟨⟨[listConf "http://a.example/" 1 false], [listConf "http://b.example/" 1 true], ∅⟩,
    1000⟩

/-- The repair sees one array at a time: the same ID in both of them stays. -/
theorem same_id_in_both_arrays :
    ¬ ∀ (filters whitelistFilters : List FilterYAML) (n : Startup),
      new (fun _ => none) ∅ 1000 filters whitelistFilters = some n → n.server.Unique := by
  intro unique
  have same : bothFirst.server.Unique := unique _ _ bothFirst
    (rfl : new (fun _ => none) ∅ 1000 [listConf "http://a.example/" 1 false]
      [listConf "http://b.example/" 1 true] = some bothFirst)
  revert same
  decide +kernel

end Examples

end AdGuardHome.Filtering
