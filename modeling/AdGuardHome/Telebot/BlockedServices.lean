import AdGuardHome.Lib.Pages
import AdGuardHome.Querylog.Search

/-! Package `telebot`: the pages of the services menu, and the callback that blocks or unblocks a
page of them. -/
namespace AdGuardHome.Telebot
open Lib.Pages

/-- `BlockedServiceItem`, without its icon. -/
structure BlockedServiceItem where
  id : String
  name : String
  groupID : String
deriving DecidableEq

/-- What `GetAllAvailableServicesFunc` returns. An item of four strings takes 64 bytes of memory,
so that a slice holds less than this many. -/
abbrev Catalogue := { services : List BlockedServiceItem // services.length < 2 ^ 57 }

/-- `DefaultPopularBlockedServices`. -/
def defaultPopularBlockedServices : List BlockedServiceItem :=
  [⟨"tiktok", "TikTok", "social_network"⟩,
    ⟨"youtube", "YouTube", "streaming"⟩,
    ⟨"instagram", "Instagram", "social_network"⟩,
    ⟨"facebook", "Facebook", "social_network"⟩,
    ⟨"twitter", "Twitter / X", "social_network"⟩,
    ⟨"telegram", "Telegram", "messenger"⟩,
    ⟨"whatsapp", "WhatsApp", "messenger"⟩,
    ⟨"snapchat", "Snapchat", "social_network"⟩,
    ⟨"netflix", "Netflix", "streaming"⟩,
    ⟨"spotify", "Spotify", "streaming"⟩,
    ⟨"disneyplus", "Disney+", "streaming"⟩,
    ⟨"twitch", "Twitch", "streaming"⟩,
    ⟨"discord", "Discord", "messenger"⟩,
    ⟨"reddit", "Reddit", "social_network"⟩,
    ⟨"pinterest", "Pinterest", "social_network"⟩,
    ⟨"threads", "Threads", "social_network"⟩,
    ⟨"roblox", "Roblox", "gaming"⟩,
    ⟨"steam", "Steam", "gaming"⟩,
    ⟨"epic_games", "Epic Games", "gaming"⟩,
    ⟨"riot_games", "Riot Games", "gaming"⟩,
    ⟨"blizzard", "Battle.net", "gaming"⟩,
    ⟨"pubg", "PUBG", "gaming"⟩,
    ⟨"9gag", "9GAG", "social_network"⟩,
    ⟨"4chan", "4chan", "social_network"⟩,
    ⟨"pornhub", "Pornhub", "dating"⟩,
    ⟨"onlyfans", "OnlyFans", "dating"⟩,
    ⟨"tinder", "Tinder", "dating"⟩,
    ⟨"badoo", "Badoo", "dating"⟩,
    ⟨"shopee", "Shopee", "shopping"⟩,
    ⟨"lazada", "Lazada", "shopping"⟩,
    ⟨"amazon", "Amazon", "shopping"⟩,
    ⟨"ebay", "eBay", "shopping"⟩]

def Catalogue.allServices (catalogue : Catalogue) : List BlockedServiceItem :=
  if catalogue.val.length = 0 then defaultPopularBlockedServices else catalogue.val

variable (catalogue : Catalogue)

theorem Catalogue.allServices_short :
    catalogue.allServices.length < 2 ^ 57 := by
  unfold allServices
  split
  · decide
  · exact catalogue.property

/-- The test of a category, which the menu and the bulk handler both spell out. -/
def BlockedServiceItem.inCategory (category : String) (s : BlockedServiceItem) : Bool :=
  if category ≠ "all" then
    if category = "dating" then s.groupID = "dating" || s.groupID = "gambling"
    else s.groupID = category
  else true

def pageSize : Nat := 8

/-- `filtered[startIdx:endIdx]`; `none` is a panic. No slice of the source goes past the length. -/
def slice {α : Type} (filtered : List α) (startIdx endIdx : Int) : Option (List α) :=
  if 0 ≤ startIdx ∧ startIdx ≤ endIdx ∧ endIdx ≤ filtered.length then
    some ((filtered.take endIdx.toNat).drop startIdx.toNat)
  else none

/-- What `BuildBlockedServicesMenu` lists: the page after it is brought into range, their number,
and the services on it with their marks. -/
structure ServicesMenu where
  page : Int
  totalPages : Int
  currentItems : List (BlockedServiceItem × Bool)

def menuCategory (category : String) : String := if category = "" then "all" else category

/-- The services that the menu filters out of the catalogue; `found` is the test of a search, which
everything passes if it is empty. -/
def filterServices (catalogue : Catalogue) (category : String)
    (found : BlockedServiceItem → Bool) : List BlockedServiceItem :=
  catalogue.allServices.filter fun s => s.inCategory (menuCategory category) && found s

/-- `BuildBlockedServicesMenu`; `none` is a panic. -/
def buildBlockedServicesMenu (catalogue : Catalogue) (blocked : List String) (category : String)
    (page : Int) (found : BlockedServiceItem → Bool) : Option ServicesMenu :=
  let filtered := filterServices catalogue category found
  let totalFiltered : Int := filtered.length
  let totalPages := (totalFiltered + pageSize - 1) / pageSize
  let totalPages := if totalPages < 1 then 1 else totalPages
  let page := if page < 1 then 1 else page
  let page := if page > totalPages then totalPages else page
  let startIdx := (page - 1) * pageSize
  let endIdx := startIdx + pageSize
  let endIdx := if endIdx > totalFiltered then totalFiltered else endIdx
  let currentItems := if totalFiltered > 0 then slice filtered startIdx endIdx else some []
  currentItems.map fun currentItems =>
    { page, totalPages, currentItems := currentItems.map fun s => (s, decide (s.id ∈ blocked)) }

/-- The parts of a `cb:bsvc_blk:` callback. -/
structure BulkRequest where
  action : String
  category : String
  page : Int
deriving DecidableEq

def BulkRequest.blockState (request : BulkRequest) : Bool := request.action = "block"

/-- The request in the data of a callback; a page that is not a number is the first one. -/
def bulkRequest (data : String) : Option BulkRequest :=
  if "cb:bsvc_blk:".toList.isPrefixOf data.toList then
    match (data.toList.splitOn ':').map String.ofList with
    | _ :: _ :: action :: category :: page :: _ =>
      some ⟨action, category, ((Querylog.parseInt page).map BitVec.toInt).getD 1⟩
    | _ => none
  else none

example : bulkRequest "cb:bsvc_blk:block:ai:-3" = some ⟨"block", "ai", -3⟩ := by decide

/-- An `int` of the machine. -/
def wrap (n : Int) : Int := n.bmod (2 ^ 64)

/-- The bulk handler, by its calls of `SetBlockedServiceFunc`; `none` is a panic. -/
def handleBulk (catalogue : Catalogue) (request : BulkRequest) : Option (List (String × Bool)) :=
  let filtered := catalogue.allServices.filter (·.inCategory request.category)
  let startIdx := wrap ((request.page - 1) * pageSize)
  let endIdx := wrap (startIdx + pageSize)
  let endIdx := if endIdx > filtered.length then (filtered.length : Int) else endIdx
  if startIdx < filtered.length then
    (slice filtered startIdx endIdx).map fun items =>
      items.map fun s => (s.id, request.blockState)
  else some []

/-- `DNSFilter.SetBlockedService` on the identifiers of `BlockedServices`, which may not be there
yet. Only the first of equal identifiers is deleted. -/
def setBlockedService (ids : Option (List String)) (id : String) (block : Bool) :
    Option (List String) :=
  let ids := ids.getD []
  some (if block then if id ∈ ids then ids else ids ++ [id] else ids.erase id)

def setBlockedServices (ids : Option (List String)) (calls : List (String × Bool)) :
    Option (List String) :=
  calls.foldl (fun ids call => setBlockedService ids call.1 call.2) ids

theorem slice_eq {α : Type} {filtered : List α} {startIdx endIdx : Nat} (order : startIdx ≤ endIdx)
    (inside : endIdx ≤ filtered.length) :
    slice filtered startIdx endIdx = some ((filtered.drop startIdx).take (endIdx - startIdx)) := by
  rw [slice, if_pos (by omega), Int.toNat_natCast, Int.toNat_natCast, List.drop_take]

/-- A page of a list, which is cut at its end. -/
theorem slice_page {α : Type} {filtered : List α} {startIdx : Nat}
    (inside : startIdx < filtered.length) :
    slice filtered startIdx (if (startIdx : Int) + pageSize > filtered.length then
      (filtered.length : Int) else startIdx + pageSize) =
      some ((filtered.drop startIdx).take pageSize) := by
  split
  · rw [slice_eq (by omega) (Nat.le_refl _), List.take_of_length_le (by simp),
      List.take_of_length_le (by simp; omega)]
  · have whole := slice_eq (Nat.le_add_right startIdx pageSize)
      (show startIdx + pageSize ≤ filtered.length by omega)
    rw [Nat.add_sub_cancel_left] at whole
    exact_mod_cast whole

def categoryServices (catalogue : Catalogue) (category : String) : List BlockedServiceItem :=
  filterServices catalogue category fun _ => true

/-- The number that the menu brings a page to, counted from zero. -/
def menuPage (filtered : List BlockedServiceItem) (page : Int) : Nat :=
  (min (max page 1) (max (pageCount pageSize filtered) 1) - 1).toNat

theorem menuPage_lt {filtered : List BlockedServiceItem} (nonempty : filtered ≠ []) (page : Int) :
    menuPage filtered page < pageCount pageSize filtered := by
  have some_items := List.length_pos_iff.mpr nonempty
  have some_pages : 0 < pageCount pageSize filtered := Nat.div_pos (by omega) (by decide)
  unfold menuPage
  omega

theorem menuPage_inside {filtered : List BlockedServiceItem} (nonempty : filtered ≠ [])
    (page : Int) : menuPage filtered page * pageSize < filtered.length :=
  mul_lt_length (by decide) (menuPage_lt nonempty page)

theorem buildBlockedServicesMenu_eq (blocked : List String)
    (category : String) (page : Int) (found : BlockedServiceItem → Bool) :
    let filtered := filterServices catalogue category found
    buildBlockedServicesMenu catalogue blocked category page found = some
      { page := menuPage filtered page + 1
        totalPages := max (pageCount pageSize filtered) 1
        currentItems := (pageAt pageSize filtered (menuPage filtered page)).map
          fun s => (s, decide (s.id ∈ blocked)) } := by
  simp only [buildBlockedServicesMenu]
  generalize filterServices catalogue category found = filtered
  have pages : ((filtered.length : Int) + pageSize - 1) / pageSize =
      (pageCount pageSize filtered : Nat) := by
    simp only [pageCount, pageSize]
    omega
  have total : (if ((pageCount pageSize filtered : Nat) : Int) < 1 then 1
      else ((pageCount pageSize filtered : Nat) : Int)) = max (pageCount pageSize filtered : Int) 1 := by
    split <;> omega
  have number : (if (if page < 1 then 1 else page) > max (pageCount pageSize filtered : Int) 1 then
      max (pageCount pageSize filtered : Int) 1 else if page < 1 then 1 else page) =
      (menuPage filtered page : Int) + 1 := by
    unfold menuPage
    split <;> split <;> omega
  have start : ((menuPage filtered page : Int) + 1 - 1) * pageSize =
      ((menuPage filtered page * pageSize : Nat) : Int) := by
    rw [Int.add_sub_cancel, Nat.cast_mul]
  rw [pages, total, number, start]
  by_cases empty : filtered = []
  · simp [empty, pageAt]
  · have some_items := List.length_pos_iff.mpr empty
    rw [if_pos (by omega), slice_page (menuPage_inside empty page)]
    rfl

def shown (catalogue : Catalogue) (category : String) (page : Int) : List BlockedServiceItem :=
  (buildBlockedServicesMenu catalogue [] category page fun _ => true).elim []
    fun menu => menu.currentItems.map Prod.fst

theorem shown_eq (category : String) (page : Int) :
    shown catalogue category page = pageAt pageSize (categoryServices catalogue category)
      (menuPage (categoryServices catalogue category) page) := by
  rw [shown, buildBlockedServicesMenu_eq]
  simp [categoryServices, Function.comp_def]

/-- The services on all pages of a category, from the first to the last. -/
def shownOnPages (catalogue : Catalogue) (category : String) : List BlockedServiceItem :=
  (buildBlockedServicesMenu catalogue [] category 1 fun _ => true).elim [] fun menu =>
    (List.range menu.totalPages.toNat).flatMap fun number : Nat => shown catalogue category (number + 1)

theorem shownOnPages_eq (category : String) :
    shownOnPages catalogue category = categoryServices catalogue category := by
  rw [shownOnPages, buildBlockedServicesMenu_eq]
  set filtered := categoryServices catalogue category with filtered_eq
  have total : (max (pageCount pageSize filtered : Int) 1).toNat =
      max (pageCount pageSize filtered) 1 := by omega
  have page : ∀ number ∈ List.range (max (pageCount pageSize filtered) 1),
      shown catalogue category ((number : Int) + 1) = pageAt pageSize filtered number := by
    intro number member
    have below := List.mem_range.mp member
    rw [shown_eq, ← filtered_eq, menuPage]
    congr 1
    omega
  change (List.range (max (pageCount pageSize filtered : Int) 1).toNat).flatMap _ = _
  rw [total, List.flatMap_congr page]
  apply flatMap_pageAt_eq
  exact (length_le_pageCount (by decide) filtered).trans
    (Nat.mul_le_mul_right _ (Nat.le_max_left _ _))

theorem filter_inCategory (category : String) :
    catalogue.allServices.filter (·.inCategory category) =
      (categoryServices catalogue category).filter (·.inCategory category) := by
  rw [categoryServices, filterServices, List.filter_filter]
  apply List.filter_congr
  intro s _
  by_cases empty : category = ""
  · simp [menuCategory, empty, BlockedServiceItem.inCategory]
  · simp [menuCategory, empty]

/-- The handler's place of a page: neither end of the slice is brought into range, and a place
before the list is a panic, an empty list included. -/
theorem handleBulk_eq (request : BulkRequest) :
    handleBulk catalogue request =
      if wrap (8 * (request.page - 1)) < 0 then none
      else some (((((categoryServices catalogue request.category).filter
        (·.inCategory request.category)).drop (wrap (8 * (request.page - 1))).toNat).take
          pageSize).map fun s => (s.id, request.blockState)) := by
  have short : (catalogue.allServices.filter (·.inCategory request.category)).length < 2 ^ 57 :=
    Nat.lt_of_le_of_lt (List.length_filter_le _ _) catalogue.allServices_short
  have times : (request.page - 1) * pageSize = 8 * (request.page - 1) := Int.mul_comm _ _
  simp only [handleBulk, times]
  rw [← filter_inCategory]
  generalize catalogue.allServices.filter (·.inCategory request.category) = filtered at short ⊢
  generalize wrap (8 * (request.page - 1)) = startIdx
  by_cases negative : startIdx < 0
  · rw [if_pos (by omega), if_pos negative, slice, if_neg (by omega)]
    rfl
  · obtain ⟨start, rfl⟩ := Int.eq_ofNat_of_zero_le (Int.not_lt.mp negative)
    rw [if_neg negative, Int.toNat_natCast]
    split
    · have inside : start < filtered.length := by omega
      have ends : wrap ((start : Int) + pageSize) = start + pageSize := by
        apply Int.bmod_eq_of_le <;> simp only [pageSize] <;> omega
      rw [ends, slice_page inside]
      rfl
    · rw [List.drop_eq_nil_of_le (by omega)]
      rfl

theorem count_setBlockedService (ids : Option (List String)) (id name : String) :
    ((setBlockedService ids id false).getD []).count name =
      (ids.getD []).count name - if id = name then 1 else 0 := by
  simp [setBlockedService, List.count_erase]

theorem mem_setBlockedService (ids : Option (List String)) (id name : String) :
    name ∈ (setBlockedService ids id true).getD [] ↔ name ∈ ids.getD [] ∨ name = id := by
  by_cases there : id ∈ ids.getD []
  · simp only [setBlockedService, there, if_true, Option.getD_some]
    constructor
    · exact .inl
    · rintro (old | rfl)
      · exact old
      · exact there
  · simp [setBlockedService, there]

theorem mem_setBlockedServices (ids : Option (List String)) (named : List String) (name : String) :
    name ∈ (setBlockedServices ids (named.map (·, true))).getD [] ↔
      name ∈ ids.getD [] ∨ name ∈ named := by
  induction named generalizing ids with
  | nil => simp [setBlockedServices]
  | cons id rest ih =>
    have step := ih (setBlockedService ids id true)
    rw [mem_setBlockedService, or_assoc] at step
    simpa [setBlockedServices] using step

/-- Every call of an unblock takes one of the equal identifiers off. -/
theorem count_setBlockedServices (ids : Option (List String)) (named : List String)
    (name : String) :
    ((setBlockedServices ids (named.map (·, false))).getD []).count name =
      (ids.getD []).count name - named.count name := by
  induction named generalizing ids with
  | nil => simp [setBlockedServices]
  | cons id rest ih =>
    have step := ih (setBlockedService ids id false)
    rw [count_setBlockedService] at step
    rw [List.count_cons, Nat.add_comm, ← Nat.sub_sub]
    simpa [setBlockedServices] using step

/-- The state of a service after calls that each name another one. -/
theorem blocked_after_iff {ids : Option (List String)} {named : List String} (block : Bool)
    (distinct : named.Nodup) {name : String} (member : name ∈ named) :
    (name ∈ (setBlockedServices ids (named.map (·, block))).getD [] ↔ block = true) ↔
      (block = true ∨ (ids.getD []).count name ≤ 1) := by
  cases block with
  | true => simp [mem_setBlockedServices, member]
  | false =>
    have once : named.count name = 1 := List.count_eq_one_of_mem distinct member
    rw [← List.count_pos_iff, count_setBlockedServices, once]
    simp only [Bool.false_eq_true, iff_false, false_or]
    omega

structure ActsOnPage (catalogue : Catalogue) (request : BulkRequest) (ids : Option (List String)) :
    Prop where
  /-- It does not panic, and calls `SetBlockedServiceFunc` for the services shown. -/
  calls : handleBulk catalogue request =
    some ((shown catalogue request.category request.page).map fun s => (s.id, request.blockState))
  once : ((shown catalogue request.category request.page).map (·.id)).Nodup
  blocked : ∀ calls, handleBulk catalogue request = some calls →
    ∀ s ∈ shown catalogue request.category request.page,
      (s.id ∈ (setBlockedServices ids calls).getD [] ↔ request.blockState = true)
  pages : ∀ s ∈ categoryServices catalogue request.category,
    ((shownOnPages catalogue request.category).map (·.id)).count s.id = 1

/-- The services of the category in front of the page that the menu brings a number to. -/
def servicesBefore (catalogue : Catalogue) (request : BulkRequest) : List BlockedServiceItem :=
  let services := categoryServices catalogue request.category
  services.take (menuPage services request.page * pageSize)

/-- The request names the page that the menu shows for it, and the lists have no service twice. -/
structure Aimed (catalogue : Catalogue) (request : BulkRequest) (ids : Option (List String)) :
    Prop where
  distinct : ((categoryServices catalogue request.category).map (·.id)).Nodup
  /-- The number is a page number as far as the machine multiplies it. -/
  numbered : 8 * (request.page - 1) % 2 ^ 64 < 2 ^ 63
  inRange : categoryServices catalogue request.category ≠ [] →
    2 ^ 64 ∣ 8 * (request.page - 1) -
      (((servicesBefore catalogue request).filter (·.inCategory request.category)).length : Int)
  sameCategory : ∀ s ∈ shown catalogue request.category request.page,
    s.inCategory request.category
  single : request.blockState = true ∨
    ∀ s ∈ shown catalogue request.category request.page, (ids.getD []).count s.id ≤ 1

theorem wrap_neg_iff (n : Int) : wrap n < 0 ↔ ¬ n % 2 ^ 64 < 2 ^ 63 := by
  rw [wrap, Int.bmod_def]
  split <;> omega

theorem wrap_eq_iff {n : Int} {place : Nat} (short : place < 2 ^ 57) :
    wrap n = place ↔ (2 ^ 64 : Int) ∣ n - place := by
  rw [wrap, Int.bmod_def]
  split <;> omega

theorem map_calls_inj {left right : List BlockedServiceItem} (block : Bool) :
    (left.map fun s => (s.id, block)) = (right.map fun s => (s.id, block)) ↔
      left.map (·.id) = right.map (·.id) := by
  have pairs : ∀ services : List BlockedServiceItem,
      (services.map fun s => (s.id, block)) = (services.map (·.id)).map (·, block) := by
    intro services
    rw [List.map_map]
    rfl
  rw [pairs, pairs]
  exact (List.map_injective_iff.mpr fun a b h => (Prod.mk.inj h).1).eq_iff

theorem servicesBefore_short (request : BulkRequest) :
    ((servicesBefore catalogue request).filter (·.inCategory request.category)).length <
      2 ^ 57 := by
  apply Nat.lt_of_le_of_lt _ catalogue.allServices_short
  apply (List.length_filter_le _ _).trans
  exact (List.length_take_le' _ _).trans (List.length_filter_le _ _)

/-- The calls are those for the page shown exactly when the number leads to it in what the handler
has filtered. -/
theorem calls_iff {catalogue : Catalogue} {request : BulkRequest}
    (distinct : ((categoryServices catalogue request.category).map (·.id)).Nodup) :
    handleBulk catalogue request = some ((shown catalogue request.category request.page).map
        fun s => (s.id, request.blockState)) ↔
      8 * (request.page - 1) % 2 ^ 64 < 2 ^ 63 ∧
      (categoryServices catalogue request.category ≠ [] →
        2 ^ 64 ∣ 8 * (request.page - 1) -
          (((servicesBefore catalogue request).filter (·.inCategory request.category)).length :
            Int)) ∧
      ∀ s ∈ shown catalogue request.category request.page, s.inCategory request.category := by
  have short := servicesBefore_short catalogue request
  rw [handleBulk_eq]
  by_cases negative : wrap (8 * (request.page - 1)) < 0
  · rw [if_pos negative]
    constructor
    · intro impossible
      cases impossible
    · rintro ⟨numbered, -⟩
      exact absurd numbered ((wrap_neg_iff _).mp negative)
  · have numbered : 8 * (request.page - 1) % 2 ^ 64 < 2 ^ 63 := by
      by_contra outside
      exact negative ((wrap_neg_iff _).mpr outside)
    rw [if_neg negative, Option.some_inj, map_calls_inj, shown_eq]
    by_cases empty : categoryServices catalogue request.category = []
    · simpa [empty, pageAt] using numbered
    · have place : (wrap (8 * (request.page - 1))).toNat =
          ((servicesBefore catalogue request).filter (·.inCategory request.category)).length ↔
          (2 ^ 64 : Int) ∣ 8 * (request.page - 1) - (((servicesBefore catalogue request).filter
            (·.inCategory request.category)).length : Int) := by
        rw [← wrap_eq_iff short]
        omega
      rw [pageAt, window_filter_iff _ distinct (menuPage_inside empty _) (by decide)]
      constructor
      · rintro ⟨kept, there⟩
        exact ⟨numbered, fun _ => place.mp there, kept⟩
      · rintro ⟨-, inRange, kept⟩
        exact ⟨kept, place.mpr (inRange empty)⟩

theorem shown_sublist (category : String) (page : Int) :
    (shown catalogue category page).Sublist (categoryServices catalogue category) := by
  rw [shown_eq]
  exact (List.take_sublist _ _).trans (List.drop_sublist _ _)

/-- The pages show every service of a category once exactly when its identifiers differ. -/
theorem pages_iff (category : String) :
    (∀ s ∈ categoryServices catalogue category,
        ((shownOnPages catalogue category).map (·.id)).count s.id = 1) ↔
      ((categoryServices catalogue category).map (·.id)).Nodup := by
  rw [shownOnPages_eq]
  constructor
  · intro once
    apply List.nodup_iff_count_le_one.mpr
    intro id
    by_cases member : id ∈ (categoryServices catalogue category).map (·.id)
    · obtain ⟨s, found, rfl⟩ := List.mem_map.mp member
      exact Nat.le_of_eq (once s found)
    · rw [List.count_eq_zero_of_not_mem member]
      exact Nat.zero_le 1
  · intro distinct s member
    exact List.count_eq_one_of_mem distinct (List.mem_map_of_mem member)

/-- What the calls for the page shown leave of the list. -/
theorem after_calls_iff {catalogue : Catalogue} {request : BulkRequest} {ids : Option (List String)}
    (distinct : ((shown catalogue request.category request.page).map (·.id)).Nodup) :
    (∀ s ∈ shown catalogue request.category request.page,
        (s.id ∈ (setBlockedServices ids ((shown catalogue request.category request.page).map
          fun s => (s.id, request.blockState))).getD [] ↔ request.blockState = true)) ↔
      (request.blockState = true ∨
        ∀ s ∈ shown catalogue request.category request.page, (ids.getD []).count s.id ≤ 1) := by
  have pairs : ((shown catalogue request.category request.page).map
      fun s => (s.id, request.blockState)) =
      ((shown catalogue request.category request.page).map (·.id)).map (·, request.blockState) := by
    rw [List.map_map]
    rfl
  rw [pairs, or_iff_not_imp_left]
  constructor
  · intro after unblock s member
    exact ((blocked_after_iff _ distinct (List.mem_map_of_mem member)).mp
      (after s member)).resolve_left unblock
  · intro single s member
    apply (blocked_after_iff _ distinct (List.mem_map_of_mem member)).mpr
    exact or_iff_not_imp_left.mpr fun unblock => single unblock s member

/-- The bulk handler acts on the page shown exactly when the request names that page and neither
the category nor, for an unblock, the list of the blocked services has one of its services twice. -/
theorem bulk_iff (catalogue : Catalogue) (request : BulkRequest) (ids : Option (List String)) :
    ActsOnPage catalogue request ids ↔ Aimed catalogue request ids := by
  constructor
  · rintro ⟨calls, once, blocked, pages⟩
    have distinct := (pages_iff _ _).mp pages
    obtain ⟨numbered, inRange, sameCategory⟩ := (calls_iff distinct).mp calls
    exact ⟨distinct, numbered, inRange, sameCategory, (after_calls_iff once).mp (blocked _ calls)⟩
  · rintro ⟨distinct, numbered, inRange, sameCategory, single⟩
    have once := distinct.sublist ((shown_sublist catalogue request.category request.page).map _)
    have calls := (calls_iff distinct).mpr ⟨numbered, inRange, sameCategory⟩
    refine ⟨calls, once, ?_, (pages_iff _ _).mpr distinct⟩
    intro others same
    obtain rfl := Option.some_inj.mp (calls.symm.trans same)
    exact (after_calls_iff once).mpr single

/-- A page past the last one of the fallback catalogue, which the menu brings back to the last one,
is left as it is by the handler, page zero is a panic, and an unblock leaves the second of two equal
identifiers. -/
theorem bulk_other_page :
    ¬ ActsOnPage ⟨[], by decide⟩ ⟨"block", "all", 5⟩ none ∧
    handleBulk ⟨[], by decide⟩ ⟨"block", "all", 5⟩ = some [] ∧
    (shown ⟨[], by decide⟩ "all" 5).length = 8 ∧
    handleBulk ⟨[], by decide⟩ ⟨"block", "all", 0⟩ = none ∧
    ¬ ActsOnPage ⟨[], by decide⟩ ⟨"unblock", "messenger", 1⟩ (some ["discord", "discord"]) := by
  have past : handleBulk ⟨[], by decide⟩ ⟨"block", "all", 5⟩ = some [] := by decide
  have last : (shown ⟨[], by decide⟩ "all" 5).length = 8 := by decide
  refine ⟨?_, past, last, by decide, ?_⟩
  · intro acts
    have calls := acts.calls
    rw [past] at calls
    have none_shown := congrArg List.length (Option.some_inj.mp calls)
    rw [List.length_map, last] at none_shown
    cases none_shown
  · intro acts
    have after := acts.blocked
    revert after
    decide

end AdGuardHome.Telebot
