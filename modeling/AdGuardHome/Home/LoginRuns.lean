import AdGuardHome.Home.LoginLimits

namespace AdGuardHome.Home

open Strings Transition

/-- The failure of a request that it has not recorded yet, unless a block came in between. -/
def View.pending (addr : Bytes) : Attempt × View → Option Int
  | (⟨remoteIP, .verified outcome time⟩, view) =>
    if remoteIP = addr ∧ outcome ≠ .correct ∧ view.since = [] then some time else none
  | _ => none

def pending (addr : Bytes) (requests : List (Attempt × View)) : List Int :=
  requests.filterMap (View.pending addr)

section Requests

variable {α β : Type}

theorem filterMap_set (f : α → Option β) {entries : List α} {i : Nat} {old : α}
    (found : entries[i]? = some old) (new : α) :
    ((f old).toList ++ (entries.set i new).filterMap f).Perm
      ((f new).toList ++ entries.filterMap f) := by
  obtain ⟨bounded, same⟩ := List.getElem?_eq_some_iff.mp found
  have before : entries = entries.take i ++ old :: entries.drop (i + 1) := by simp [← same]
  have after : entries.set i new = entries.take i ++ new :: entries.drop (i + 1) := by
    rw [List.set_eq_take_append_cons_drop, if_pos bounded]
  have split : ∀ entry : α, (entries.take i ++ entry :: entries.drop (i + 1)).filterMap f =
      (entries.take i).filterMap f ++ ((f entry).toList ++ (entries.drop (i + 1)).filterMap f) := by
    intro entry
    rw [List.filterMap_append, List.filterMap_cons]
    cases f entry <;> rfl
  have swapped : entries.filterMap f = _ := (congrArg (List.filterMap f) before).trans (split old)
  rw [after, split, swapped]
  refine (List.perm_append_comm_assoc _ _ _).trans ?_
  refine List.Perm.trans ?_ (List.perm_append_comm_assoc _ _ _)
  exact List.Perm.append_left _ (List.perm_append_comm_assoc _ _ _)

theorem zip_set {first : List α} {second : List β} {i : Nat} {b : β} (here : second[i]? = some b)
    (a : α) : (first.set i a).zip second = (first.zip second).set i (a, b) := by
  induction first generalizing second i with
  | nil => rfl
  | cons head rest ih =>
    cases second with
    | nil => nomatch here
    | cons other tail =>
      cases i with
      | zero =>
        obtain rfl : other = b := Option.some.inj here
        rfl
      | succ i => exact congrArg ((head, other) :: ·) (ih here)

theorem getElem?_zip {first : List α} {second : List β} {i : Nat} {a : α} {b : β}
    (left : first[i]? = some a) (right : second[i]? = some b) :
    (first.zip second)[i]? = some (a, b) := by
  rw [List.getElem?_zip_eq_some]
  exact ⟨left, right⟩

end Requests

/-- What the view of a request tells of the blocks. -/
structure View.Seen (maxAttempts : BitVec 64) (blockDur now : Int) (entry : Option FailedAuth)
    (log : List Entry) (view : View) : Prop where
  early : view.time ≤ now
  known : ∀ block, .blocked block ∈ log → block ∈ view.before ∨ block ∈ view.since
  kept : ∀ a, entry = some a → maxAttempts ≤ a.num → ∃ block, a.until_ = block + blockDur ∧
    (block ∈ view.since ∨ block ∈ view.before ∧ view.time ≤ a.until_)

/-- What the check of a request has made sure of. -/
structure View.Passed (maxAttempts : BitVec 64) (blockDur : Int) (view : View) : Prop where
  free : ∀ block ∈ view.before, block + blockDur ≤ view.time
  few : view.counted.length < maxAttempts.toNat

section Runs

variable {isAddr : Bytes → Bool} {addr : Bytes} {w : Watched} {event : Event}

structure Watched.Tracks (addr : Bytes) (w : Watched) : Prop where
  parallel : w.views.length = w.web.attempts.length
  tracked : Tracked w.web.rateLimiter.maxAttempts w.web.rateLimiter.blockDur w.web.now
    (w.web.rateLimiter.failedAuths.get addr) (pending addr (w.web.attempts.zip w.views)) w.log
    w.counted w.openedAt
  seen : ∀ view ∈ w.views, view.Seen w.web.rateLimiter.maxAttempts w.web.rateLimiter.blockDur
    w.web.now (w.web.rateLimiter.failedAuths.get addr) w.log
  passed : ∀ request ∈ w.web.attempts.zip w.views, request.1.remoteIP = addr →
    request.1.phase ≠ .done →
    request.2.Passed w.web.rateLimiter.maxAttempts w.web.rateLimiter.blockDur

variable {entry : Option FailedAuth} {maxAttempts : BitVec 64} {blockDur now : Int}

theorem View.Seen.tick {log : List Entry} {view : View}
    (seen : view.Seen maxAttempts blockDur now entry log)
    (elapsed : Nat) : view.Seen maxAttempts blockDur (now + elapsed) entry log where
  __ := seen
  early := Int.le_trans seen.early (by omega)

/-- All blocks are over if those since the check are. -/
theorem View.Seen.free {log : List Entry} {view : View}
    (seen : view.Seen maxAttempts blockDur now entry log)
    (passed : view.Passed maxAttempts blockDur)
    (since : ∀ block ∈ view.since, block + blockDur ≤ now) {block : Int}
    (member : .blocked block ∈ log) : block + blockDur ≤ now := by
  rcases seen.known block member with before | later
  · exact Int.le_trans (passed.free block before) seen.early
  · exact since block later

theorem View.Seen.log {log : List Entry} {view : View}
    (seen : view.Seen maxAttempts blockDur now entry log) {new : Entry}
    (noBlock : ∀ block, new ≠ .blocked block) :
    view.Seen maxAttempts blockDur now entry (new :: log) where
  __ := seen
  known block member :=
    seen.known block ((List.mem_cons.mp member).resolve_left fun same => noBlock block same.symm)

theorem Watched.Tracks.checked (tracks : w.Tracks addr) (positive : 0 < w.web.rateLimiter.maxAttempts)
    (handler : Handler) (remoteIP : Bytes) :
    Watched.Tracks addr
      (Watched.check w.web.now { w with web := (w.web.check isAddr handler remoteIP).1 }) := by
  have cleaned := tracks.tracked.cleanup remoteIP
  have entry : ∀ a, (w.web.rateLimiter.check remoteIP w.web.now).1.failedAuths.get addr = some a →
      w.web.rateLimiter.failedAuths.get addr = some a ∧ w.web.now ≤ a.until_ := by
    intro a present
    rw [AuthRateLimiter.get_check] at present
    split at present
    · nomatch present
    next lasts =>
      refine ⟨present, ?_⟩
      simpa [AuthRateLimiter.expired, present] using lasts
  generalize counted : (if w.openedAt + failedAuthTTL < w.web.now then [] else w.counted) = kept
    at cleaned
  generalize starts : (if 0 < (w.web.rateLimiter.check remoteIP w.web.now).2 ∨
    (handler = .login ∧ !isAddr remoteIP) then Phase.done else .checked) = phase
  have after : Watched.check w.web.now { w with web := (w.web.check isAddr handler remoteIP).1 } =
      ⟨⟨(w.web.rateLimiter.check remoteIP w.web.now).1, w.web.attempts ++ [⟨remoteIP, phase⟩],
        w.web.now⟩, w.log, kept, w.openedAt,
        w.views ++ [⟨w.web.now, blocks w.log, kept, []⟩]⟩ := by
    simp only [Watched.check, Web.check, counted, starts]
  have requests : (w.web.attempts ++ [Attempt.mk remoteIP phase]).zip
      (w.views ++ [View.mk w.web.now (blocks w.log) kept []]) =
      w.web.attempts.zip w.views ++ [(⟨remoteIP, phase⟩, ⟨w.web.now, blocks w.log, kept, []⟩)] :=
    List.zip_append tracks.parallel.symm
  rw [after]
  refine ⟨by simp [tracks.parallel], ?_, ?_, ?_⟩
  · have same : pending addr ((w.web.attempts ++ [Attempt.mk remoteIP phase]).zip
        (w.views ++ [View.mk w.web.now (blocks w.log) kept []])) =
        pending addr (w.web.attempts.zip w.views) := by
      rw [requests, pending, List.filterMap_append]
      have nothing : View.pending addr
          (⟨remoteIP, phase⟩, ⟨w.web.now, blocks w.log, kept, []⟩) = none := by
        rw [← starts]
        split <;> rfl
      simp [nothing, pending]
    show Tracked _ _ _ _ (pending addr ((w.web.attempts ++ [Attempt.mk remoteIP phase]).zip
      (w.views ++ [View.mk w.web.now (blocks w.log) kept []]))) _ _ _
    rw [same]
    exact cleaned
  · intro view member
    rcases List.mem_append.mp member with former | new
    · have seen := tracks.seen view former
      exact ⟨seen.early, seen.known, fun a present => seen.kept a (entry a present).1⟩
    · obtain rfl := List.mem_singleton.mp new
      refine ⟨Int.le_refl _, fun block member => Or.inl (mem_blocks.mpr member), ?_⟩
      intro a present reached
      obtain ⟨_, block, member, same⟩ := cleaned.blocking a present reached
      exact ⟨block, same, Or.inr ⟨mem_blocks.mpr member, (entry a present).2⟩⟩
  · intro request member here active
    have member : request ∈ (w.web.attempts ++ [Attempt.mk remoteIP phase]).zip
      (w.views ++ [View.mk w.web.now (blocks w.log) kept []]) := member
    rw [requests] at member
    rcases List.mem_append.mp member with former | new
    · exact tracks.passed request former here active
    · obtain rfl := List.mem_singleton.mp new
      obtain rfl : remoteIP = addr := here
      have passes : ¬ 0 < (w.web.rateLimiter.check remoteIP w.web.now).2 := by
        intro left
        exact active (starts ▸ if_pos (Or.inl left))
      refine ⟨?_, ?_⟩
      · intro block member
        rcases cleaned.over_ block (mem_blocks.mp member) with done | ⟨a, present, reached, later⟩
        · exact done
        · exact Int.le_trans later (AuthRateLimiter.check_left_nonpos passes present reached)
      · show kept.length < w.web.rateLimiter.maxAttempts.toNat
        cases present : (w.web.rateLimiter.check remoteIP w.web.now).1.failedAuths.get remoteIP with
        | none =>
          rw [cleaned.absent present]
          exact positive
        | some a =>
          by_cases below : a.num < w.web.rateLimiter.maxAttempts
          · rw [← (cleaned.counting a present below).2.1]
            exact below
          · rw [(cleaned.blocking a present (BitVec.not_lt.mp below)).1]
            exact positive

theorem Watched.Tracks.check (tracks : w.Tracks addr) (positive : 0 < w.web.rateLimiter.maxAttempts)
    (handler : Handler) (remoteIP : Bytes) :
    Watched.Tracks addr (Watched.observe addr w.web.now
      { w with web := (w.web.check isAddr handler remoteIP).1 }
      (w.web.check isAddr handler remoteIP).2) := by
  have checked : Watched.Tracks addr
      (Watched.check w.web.now { w with web := (w.web.check isAddr handler remoteIP).1 }) :=
    tracks.checked positive handler remoteIP
  by_cases left : 0 < (w.web.rateLimiter.check remoteIP w.web.now).2
  · have answer : (w.web.check isAddr handler remoteIP).2 = .rejected remoteIP := by
      simp [Web.check, left]
    rw [answer]
    by_cases here : remoteIP = addr
    · subst here
      obtain ⟨a, present, reached, later⟩ := AuthRateLimiter.check_left_pos left
      simp only [Watched.observe, ↓reduceIte]
      exact {
        checked with
        tracked := checked.tracked.reject present reached later
        seen := fun view member => (checked.seen view member).log nofun }
    · simpa only [Watched.observe, if_neg here] using checked
  · have answer : (w.web.check isAddr handler remoteIP).2 = .passed := by
      simp [Web.check, left]
    rw [answer]
    exact checked

theorem Watched.Tracks.view (tracks : w.Tracks addr) {i : Nat} {attempt : Attempt}
    (found : w.web.attempts[i]? = some attempt) : ∃ view, w.views[i]? = some view := by
  obtain ⟨inside, _⟩ := List.getElem?_eq_some_iff.mp found
  exact ⟨_, List.getElem?_eq_getElem (tracks.parallel ▸ inside)⟩

/-- A request that moves on has still passed its check. -/
theorem Watched.Tracks.passed_set (tracks : w.Tracks addr) {i : Nat} {old new : Attempt} {view : View}
    (pair : (w.web.attempts.zip w.views)[i]? = some (old, view)) (same : new.remoteIP = old.remoteIP)
    (active : old.phase ≠ .done) :
    ∀ request ∈ (w.web.attempts.zip w.views).set i (new, view), request.1.remoteIP = addr →
      request.1.phase ≠ .done →
      request.2.Passed w.web.rateLimiter.maxAttempts w.web.rateLimiter.blockDur := by
  intro request member here moving
  rcases List.mem_or_eq_of_mem_set member with former | rfl
  · exact tracks.passed request former here moving
  · exact tracks.passed (old, view) (List.mem_of_getElem? pair) (same.symm.trans here) active

theorem Watched.Tracks.authenticate (tracks : w.Tracks addr) {i : Nat} {outcome : Outcome}
    (moves : ∀ attempt ∈ w.web.attempts[i]?, ∀ view ∈ w.views[i]?, attempt.remoteIP = addr →
      w.Moves view attempt (.authenticate i outcome)) :
    Watched.Tracks addr (Watched.observe addr w.web.now
      { w with web := (w.web.authenticate i outcome).1 } (w.web.authenticate i outcome).2) := by
  unfold Web.authenticate
  split
  next remoteIP found =>
    obtain ⟨view, seesIt⟩ := tracks.view found
    have pair := getElem?_zip found seesIt
    have moved := filterMap_set (View.pending addr) pair
      (⟨remoteIP, .verified outcome w.web.now⟩, view)
    have passed := @Watched.Tracks.passed_set _ _ tracks _ _
      ⟨remoteIP, .verified outcome w.web.now⟩ _ pair rfl nofun
    rw [← zip_set seesIt] at moved passed
    have parallel : w.views.length = (w.web.attempts.set i
        ⟨remoteIP, .verified outcome w.web.now⟩).length := by
      rw [List.length_set]
      exact tracks.parallel
    generalize w.web.attempts.set i ⟨remoteIP, .verified outcome w.web.now⟩ = next at *
    by_cases here : remoteIP = addr
    · subst here
      have checked := tracks.passed _ (List.mem_of_getElem? pair) rfl nofun
      have seen := tracks.seen view (List.mem_of_getElem? seesIt)
      obtain ⟨since, few⟩ := moves _ found view seesIt rfl
      have free : ∀ block, .blocked block ∈ w.log →
          block + w.web.rateLimiter.blockDur ≤ w.web.now :=
        fun block member => seen.free checked since member
      by_cases right : outcome = .correct
      · have same : (pending remoteIP (next.zip w.views)).Perm
            (pending remoteIP (w.web.attempts.zip w.views)) := by
          simpa [View.pending, right, pending] using moved
        simp only [Watched.observe, right, ↓reduceIte]
        exact ⟨parallel, (tracks.tracked.succeed free).pending_perm same,
          fun view member => (tracks.seen view member).log nofun, passed⟩
      · have room : (recent w.web.now (failures w.log)).length <
            w.web.rateLimiter.maxAttempts.toNat := by
          rcases few right with known | few
          · have all : (recent w.web.now (failures w.log)).Subperm view.counted :=
              List.subperm_ext_iff.mpr known
            exact Nat.lt_of_le_of_lt all.length_le checked.few
          · exact few
        have unrecorded : ∀ time, (pending remoteIP (next.zip w.views)).count time ≤
            (w.web.now :: pending remoteIP (w.web.attempts.zip w.views)).count time := by
          intro time
          have counts := moved.count_eq time
          by_cases alone : view.since = []
          · simp only [View.pending, right, alone, ne_eq, not_false_eq_true, and_self, ↓reduceIte,
              Option.toList_none, Option.toList_some, List.nil_append, List.singleton_append] at counts
            exact Nat.le_of_eq counts
          · simp only [View.pending, alone, and_false, ↓reduceIte, Option.toList_none,
              List.nil_append] at counts
            rw [List.count_cons]
            exact Nat.le_trans (Nat.le_of_eq counts) (Nat.le_add_right _ _)
        simp only [Watched.observe, right, ↓reduceIte]
        exact ⟨parallel, tracks.tracked.fail free room unrecorded,
          fun view member => (tracks.seen view member).log nofun, passed⟩
    · have same : (pending addr (next.zip w.views)).Perm
          (pending addr (w.web.attempts.zip w.views)) := by
        simpa [View.pending, here, pending] using moved
      simp only [Watched.observe, if_neg here]
      exact ⟨parallel, tracks.tracked.pending_perm same, tracks.seen, passed⟩
  next => exact tracks

/-- A block makes every request one with a block since its check. -/
theorem pending_block (now : Int) (attempts : List Attempt) (views : List View) :
    pending addr (attempts.zip (views.map fun view => { view with since := now :: view.since })) =
      [] := by
  rw [pending, List.filterMap_eq_nil_iff]
  rintro ⟨attempt, view⟩ member
  obtain ⟨former, _, rfl⟩ := List.mem_map.mp (List.of_mem_zip member).2
  obtain ⟨remoteIP, phase⟩ := attempt
  cases phase with
  | checked | done => rfl
  | verified => simp [View.pending]

/-- The requests after one of them is done, with the failure that it no longer keeps. -/
structure Watched.Moved (addr : Bytes) (w : Watched) (next : List Attempt) (left : Option Int) :
    Prop where
  parallel : w.views.length = next.length
  unrecorded : (left.toList ++ pending addr (next.zip w.views)).Perm
    (pending addr (w.web.attempts.zip w.views))
  passed : ∀ request ∈ next.zip w.views, request.1.remoteIP = addr → request.1.phase ≠ .done →
    request.2.Passed w.web.rateLimiter.maxAttempts w.web.rateLimiter.blockDur

section Settle

variable {next : List Attempt}

theorem Watched.Tracks.moved (tracks : w.Tracks addr) {i : Nat} {remoteIP : Bytes}
    {outcome : Outcome} {time : Int} {view : View}
    (found : w.web.attempts[i]? = some ⟨remoteIP, .verified outcome time⟩)
    (seesIt : w.views[i]? = some view) :
    w.Moved addr (w.web.attempts.set i ⟨remoteIP, .done⟩)
      (View.pending addr (⟨remoteIP, .verified outcome time⟩, view)) := by
  have pair := getElem?_zip found seesIt
  refine ⟨by rw [List.length_set]; exact tracks.parallel, ?_, ?_⟩
  · rw [zip_set seesIt]
    exact filterMap_set (View.pending addr) pair (⟨remoteIP, .done⟩, view)
  · rw [zip_set seesIt]
    exact tracks.passed_set pair rfl nofun

/-- Another entry than that of the address is written. -/
theorem Watched.Moved.other (moved : w.Moved addr next none) (tracks : w.Tracks addr)
    {rateLimiter : AuthRateLimiter} (most : rateLimiter.maxAttempts = w.web.rateLimiter.maxAttempts)
    (long : rateLimiter.blockDur = w.web.rateLimiter.blockDur)
    (entry : rateLimiter.failedAuths.get addr = w.web.rateLimiter.failedAuths.get addr) :
    Watched.Tracks addr { w with web := { w.web with rateLimiter, attempts := next } } where
  parallel := moved.parallel
  tracked := most ▸ long ▸ entry ▸ tracks.tracked.pending_perm moved.unrecorded
  seen := most ▸ long ▸ entry ▸ tracks.seen
  passed := most ▸ long ▸ moved.passed

theorem Watched.Moved.removed (moved : w.Moved addr next none) (tracks : w.Tracks addr)
    (ended : ∀ a, w.web.rateLimiter.failedAuths.get addr = some a →
      w.web.rateLimiter.maxAttempts ≤ a.num → a.until_ ≤ w.web.now) :
    Watched.Tracks addr
      { w with
        web := { w.web with rateLimiter := w.web.rateLimiter.remove addr, attempts := next }
        counted := [] } := by
  have entry : (w.web.rateLimiter.remove addr).failedAuths.get addr = none := by
    rw [AuthRateLimiter.get_remove, if_pos rfl]
  refine ⟨moved.parallel, ?_, ?_, moved.passed⟩
  · show Tracked _ _ _ ((w.web.rateLimiter.remove addr).failedAuths.get addr) _ _ _ _
    rw [entry]
    exact (tracks.tracked.drop ended).pending_perm moved.unrecorded
  · intro view member
    have seen := tracks.seen view member
    refine ⟨seen.early, seen.known, ?_⟩
    intro a present
    exact nomatch entry.symm.trans present

variable {time : Int}

theorem Watched.Moved.blocks (moved : w.Moved addr next (some time)) (tracks : w.Tracks addr)
    (reached : w.web.rateLimiter.maxAttempts ≤ (w.web.rateLimiter.incremented addr w.web.now).num)
    (recorded : Tracked w.web.rateLimiter.maxAttempts w.web.rateLimiter.blockDur w.web.now
      (some (w.web.rateLimiter.incremented addr w.web.now)) [] (.blocked w.web.now :: w.log) []
      w.openedAt) :
    Watched.Tracks addr (Watched.block w.web.now
      { w with
        web := { w.web with
          rateLimiter := w.web.rateLimiter.inc addr w.web.now
          attempts := next } }) := by
  have entry : (w.web.rateLimiter.inc addr w.web.now).failedAuths.get addr =
      some (w.web.rateLimiter.incremented addr w.web.now) := by
    rw [AuthRateLimiter.get_inc, if_pos rfl]
  refine ⟨by simpa [Watched.block] using moved.parallel, ?_, ?_, ?_⟩
  · show Tracked _ _ _ ((w.web.rateLimiter.inc addr w.web.now).failedAuths.get addr)
      (pending addr (next.zip (w.views.map fun view =>
        { view with since := w.web.now :: view.since }))) _ _ _
    rw [entry, pending_block]
    exact recorded
  · intro later member
    obtain ⟨former, listed, rfl⟩ := List.mem_map.mp member
    have seen := tracks.seen former listed
    refine ⟨seen.early, ?_, ?_⟩
    · intro block blocked
      rcases List.mem_cons.mp blocked with same | earlier
      · obtain rfl := Entry.blocked.inj same
        exact Or.inr List.mem_cons_self
      · exact (seen.known block earlier).imp_right (List.mem_cons_of_mem _)
    · intro a present _
      obtain rfl := Option.some.inj (entry.symm.trans present)
      refine ⟨w.web.now, ?_, Or.inl List.mem_cons_self⟩
      simp only [AuthRateLimiter.incremented] at reached ⊢
      exact if_pos reached
  · intro request member here moving
    have member : request ∈ next.zip (w.views.map fun view =>
      { view with since := w.web.now :: view.since }) := member
    rw [List.zip_map_right] at member
    obtain ⟨former, listed, rfl⟩ := List.mem_map.mp member
    have kept := moved.passed former listed here moving
    exact ⟨kept.free, kept.few⟩

theorem Watched.Moved.counts (moved : w.Moved addr next (some time)) (tracks : w.Tracks addr)
    (below : ¬ w.web.rateLimiter.maxAttempts ≤ (w.web.rateLimiter.incremented addr w.web.now).num)
    (recorded : Tracked w.web.rateLimiter.maxAttempts w.web.rateLimiter.blockDur w.web.now
      (some (w.web.rateLimiter.incremented addr w.web.now)) (pending addr (next.zip w.views)) w.log
      (time :: w.counted) (if w.counted = [] then w.web.now else w.openedAt)) :
    Watched.Tracks addr (Watched.count w.web.now time
      { w with
        web := { w.web with
          rateLimiter := w.web.rateLimiter.inc addr w.web.now
          attempts := next } }) := by
  have entry : (w.web.rateLimiter.inc addr w.web.now).failedAuths.get addr =
      some (w.web.rateLimiter.incremented addr w.web.now) := by
    rw [AuthRateLimiter.get_inc, if_pos rfl]
  refine ⟨moved.parallel, ?_, ?_, moved.passed⟩
  · show Tracked _ _ _ ((w.web.rateLimiter.inc addr w.web.now).failedAuths.get addr) _ _ _ _
    rw [entry]
    exact recorded
  · intro view member
    have seen := tracks.seen view member
    refine ⟨seen.early, seen.known, ?_⟩
    intro a present reached
    obtain rfl := Option.some.inj (entry.symm.trans present)
    exact absurd reached below

/-- A failure of a request that no block has come before is recorded. -/
theorem Watched.Moved.failed (moved : w.Moved addr next (some time)) (tracks : w.Tracks addr)
    {view : View} (seen : view.Seen w.web.rateLimiter.maxAttempts w.web.rateLimiter.blockDur
      w.web.now (w.web.rateLimiter.failedAuths.get addr) w.log) {outcome : Outcome}
    (wrong : outcome ≠ .correct) (settles : w.Settles view outcome time) :
    Watched.Tracks addr (Watched.observe addr w.web.now
      { w with
        web := { w.web with
          rateLimiter := w.web.rateLimiter.inc addr w.web.now
          attempts := next } }
      (.counted addr time
        (decide (w.web.rateLimiter.maxAttempts ≤
          (w.web.rateLimiter.incremented addr w.web.now).num)))) := by
  rw [Watched.Settles, if_neg wrong] at settles
  obtain ⟨alone, ended, close⟩ := settles
  have counts : ∀ a, w.web.rateLimiter.failedAuths.get addr = some a →
      a.num < w.web.rateLimiter.maxAttempts := by
    intro a present
    rw [← BitVec.not_le]
    intro reached
    obtain ⟨block, ends, since | ⟨before, kept⟩⟩ := seen.kept a present reached
    · exact absurd since (alone ▸ List.not_mem_nil)
    · have over_ := ended block before
      omega
  have recorded := (tracks.tracked.pending_perm moved.unrecorded).inc counts close
  by_cases reached : w.web.rateLimiter.maxAttempts ≤
      (w.web.rateLimiter.incremented addr w.web.now).num
  · rw [if_pos reached] at recorded
    simp only [Watched.observe, reached, decide_true, ↓reduceIte]
    exact moved.blocks tracks reached recorded
  · rw [if_neg reached] at recorded
    simp only [Watched.observe, reached, decide_false, Bool.false_eq_true, ↓reduceIte]
    exact moved.counts tracks reached recorded

theorem Watched.Tracks.settle (tracks : w.Tracks addr) {i : Nat}
    (moves : ∀ attempt ∈ w.web.attempts[i]?, ∀ view ∈ w.views[i]?, attempt.remoteIP = addr →
      w.Moves view attempt (.settle i)) :
    Watched.Tracks addr (Watched.observe addr w.web.now
      { w with web := (w.web.settle i).1 } (w.web.settle i).2) := by
  unfold Web.settle
  split
  next remoteIP outcome time found =>
    obtain ⟨view, seesIt⟩ := tracks.view found
    have moved := tracks.moved found seesIt
    by_cases here : remoteIP = addr
    · subst here
      have checked := tracks.passed _ (List.mem_of_getElem? (getElem?_zip found seesIt)) rfl nofun
      have seen := tracks.seen view (List.mem_of_getElem? seesIt)
      have settles : w.Settles view outcome time := moves _ found view seesIt rfl
      by_cases right : outcome = .correct
      · rw [Watched.Settles, if_pos right] at settles
        simp only [View.pending, right, ne_eq, not_true_eq_false, false_and, and_false,
          ↓reduceIte] at moved
        simp only [Watched.observe, right, ↓reduceIte]
        refine moved.removed tracks ?_
        intro a present reached
        obtain ⟨_, block, member, ends⟩ := tracks.tracked.blocking a present reached
        exact ends ▸ seen.free checked settles member
      · have alone : view.since = [] := by
          rw [Watched.Settles, if_neg right] at settles
          exact settles.1
        simp only [View.pending, right, alone, ne_eq, not_false_eq_true, and_self,
          ↓reduceIte] at moved
        simp only [right, ↓reduceIte]
        exact moved.failed tracks seen right settles
    · simp only [View.pending, here, false_and, ↓reduceIte] at moved
      by_cases right : outcome = .correct
      · simp only [Watched.observe, right, if_neg here, ↓reduceIte]
        exact moved.other tracks rfl rfl (by rw [AuthRateLimiter.get_remove, if_neg (Ne.symm here)])
      · simp only [Watched.observe, right, if_neg here, ↓reduceIte]
        exact moved.other tracks rfl rfl (by rw [AuthRateLimiter.get_inc, if_neg (Ne.symm here)])
  next => exact tracks

end Settle

theorem Watched.Tracks.wait (tracks : w.Tracks addr) (elapsed : Nat) :
    (w.wait elapsed).Tracks addr where
  parallel := tracks.parallel
  tracked := tracks.tracked.tick elapsed
  seen view member := (tracks.seen view member).tick elapsed
  passed := tracks.passed

theorem Watched.Tracks.next (tracks : w.Tracks addr) (positive : 0 < w.web.rateLimiter.maxAttempts)
    (undisturbed : Undisturbed addr w event) :
    Watched.Tracks addr ((machine isAddr addr).next w event) := by
  have later := tracks.wait event.elapsed
  obtain ⟨elapsed, action⟩ := event
  cases action with
  | check handler remoteIP => exact later.check positive handler remoteIP
  | authenticate i outcome => exact later.authenticate (undisturbed i rfl)
  | settle i => exact later.settle (undisturbed i rfl)

theorem tracks_fresh (blockDur : Int) (maxAttempts : BitVec 64) (now : Int) :
    (fresh blockDur maxAttempts now).Tracks addr where
  parallel := rfl
  tracked :=
    { limited := trivial
      absent := fun _ => rfl
      counting := by simp [fresh]
      blocking := by simp [fresh]
      known := fun _ => Nat.le_refl _
      over_ := nofun }
  seen := nofun
  passed := nofun

/-- The limits are never changed. -/
theorem next_limits (isAddr : Bytes → Bool) (addr : Bytes) (w : Watched) (event : Event) :
    ((machine isAddr addr).next w event).web.rateLimiter.maxAttempts =
        w.web.rateLimiter.maxAttempts ∧
      ((machine isAddr addr).next w event).web.rateLimiter.blockDur =
        w.web.rateLimiter.blockDur := by
  have seen : ∀ (web : Web) (answer : Answer) (now : Int),
      (Watched.observe addr now { w with web } answer).web = web := by
    intro web answer now
    unfold Watched.observe
    split <;> (try split) <;> (try split) <;> rfl
  unfold Machine.next machine
  dsimp only
  rw [seen]
  obtain ⟨elapsed, action⟩ := event
  cases action with
  | check handler remoteIP => exact ⟨rfl, rfl⟩
  | authenticate i outcome =>
    simp only [Web.step, Web.authenticate]
    split <;> exact ⟨rfl, rfl⟩
  | settle i =>
    simp only [Web.step, Web.settle]
    split
    · split <;> exact ⟨rfl, rfl⟩
    · exact ⟨rfl, rfl⟩

/-- However the requests are scheduled, the attempts of an address are limited in a run in which
no request of the address is disturbed between its check and what it records. -/
theorem rateLimited_run (isAddr : Bytes → Bool) (addr : Bytes) (blockDur : Int)
    (maxAttempts : BitVec 64) (positive : 0 < maxAttempts) (now : Int) (events : List Event)
    (undisturbed : (machine isAddr addr).Allowed (Undisturbed addr)
      (fresh blockDur maxAttempts now) events) :
    RateLimited maxAttempts blockDur
      ((machine isAddr addr).run (fresh blockDur maxAttempts now) events).log := by
  have kept := (machine isAddr addr).run_invariant
    (fun w => w.Tracks addr ∧ w.web.rateLimiter.maxAttempts = maxAttempts ∧
      w.web.rateLimiter.blockDur = blockDur) (by
      intro w event inv undisturbed
      obtain ⟨tracks, most, long⟩ := inv
      obtain ⟨most', long'⟩ := next_limits isAddr addr w event
      exact ⟨tracks.next (most ▸ positive) undisturbed, most'.trans most, long'.trans long⟩)
    ⟨tracks_fresh blockDur maxAttempts now, rfl, rfl⟩ undisturbed
  obtain ⟨tracks, most, long⟩ := kept
  have limited := tracks.tracked.limited
  rw [most, long] at limited
  exact limited

/-- A typo before the right password; then two wrong passwords that are verified side by side, the
block that they bring, and a login after it. -/
@[irreducible] private def typos : List Event :=
  [⟨0, .check .login (lit "192.0.2.1")⟩, ⟨1, .authenticate 0 .wrongPassword⟩, ⟨0, .settle 0⟩,
    ⟨5, .check .basicAuth (lit "192.0.2.1")⟩, ⟨1, .authenticate 1 .correct⟩, ⟨0, .settle 1⟩,
    ⟨120 * 10 ^ 9, .check .login (lit "192.0.2.1")⟩, ⟨1, .check .basicAuth (lit "192.0.2.1")⟩,
    ⟨1, .authenticate 2 .wrongPassword⟩, ⟨1, .authenticate 3 .unknownUser⟩, ⟨1, .settle 2⟩,
    ⟨1, .settle 3⟩, ⟨9, .check .login (lit "192.0.2.1")⟩,
    ⟨900 * 10 ^ 9, .check .login (lit "192.0.2.1")⟩, ⟨1, .authenticate 5 .correct⟩, ⟨0, .settle 5⟩]

@[irreducible] private def overlapping : List Event :=
  [⟨0, .check .login (lit "192.0.2.1")⟩, ⟨0, .check .basicAuth (lit "192.0.2.1")⟩,
    ⟨1, .authenticate 0 .wrongPassword⟩, ⟨0, .settle 0⟩, ⟨1, .authenticate 1 .wrongPassword⟩]

private theorem undisturbed_typos : (machine (fun _ => true) (lit "192.0.2.1")).Allowed
    (Undisturbed (lit "192.0.2.1")) (fresh (15 * failedAuthTTL) 2 0) typos := by
  decide +kernel

theorem rateLimited_typos :
    RateLimited 2 (15 * failedAuthTTL) ((machine (fun _ => true) (lit "192.0.2.1")).run
      (fresh (15 * failedAuthTTL) 2 0) typos).log :=
  rateLimited_run (fun _ => true) (lit "192.0.2.1") (15 * failedAuthTTL) 2 (by decide) 0 typos
    undisturbed_typos

private theorem log_overlapping : ((machine (fun _ => true) (lit "192.0.2.1")).run
    (fresh (15 * failedAuthTTL) 1 0) overlapping).log = [.failed 2, .blocked 1, .failed 1] := by
  decide +kernel

/-- The second password is verified while the address is blocked. -/
theorem rateLimited_overlapping :
    ¬ RateLimited 1 (15 * failedAuthTTL) ((machine (fun _ => true) (lit "192.0.2.1")).run
      (fresh (15 * failedAuthTTL) 1 0) overlapping).log := by
  rw [log_overlapping]
  intro limited
  have over_ : (1 : Int) + 15 * failedAuthTTL ≤ 2 := limited.1.1 1 (by decide)
  exact absurd over_ (by decide +kernel)

end Runs

end AdGuardHome.Home
