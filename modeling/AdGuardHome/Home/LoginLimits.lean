import AdGuardHome.Home.LoginAttempts

namespace AdGuardHome.Home

open Strings

/-- What stands of the limiter's entry of an address, by what has happened to it. -/
structure Tracked (maxAttempts : BitVec 64) (blockDur now : Int) (entry : Option FailedAuth)
    (pending : List Int) (log : List Entry) (counted : List Int) (openedAt : Int) : Prop where
  limited : RateLimited maxAttempts blockDur log
  absent : entry = none → counted = []
  counting : ∀ a, entry = some a → a.num < maxAttempts →
    counted ≠ [] ∧ a.num.toNat = counted.length ∧ a.until_ = openedAt + failedAuthTTL
  blocking : ∀ a, entry = some a → maxAttempts ≤ a.num →
    counted = [] ∧ ∃ block, .blocked block ∈ log ∧ a.until_ = block + blockDur
  known : ∀ time, counted.count time + pending.count time ≤ (failures log).count time
  over_ : ∀ block, .blocked block ∈ log → block + blockDur ≤ now ∨
    ∃ a, entry = some a ∧ maxAttempts ≤ a.num ∧ block + blockDur ≤ a.until_

namespace Tracked

variable {maxAttempts : BitVec 64} {blockDur now : Int} {entry : Option FailedAuth}
  {pending : List Int} {log : List Entry} {counted : List Int} {openedAt time : Int}

theorem tick (tracked : Tracked maxAttempts blockDur now entry pending log counted openedAt)
    (elapsed : Nat) :
    Tracked maxAttempts blockDur (now + elapsed) entry pending log counted openedAt where
  __ := tracked
  over_ block member := (tracked.over_ block member).imp_left fun done => by omega

theorem pending_perm (tracked : Tracked maxAttempts blockDur now entry pending log counted openedAt)
    {other : List Int} (perm : other.Perm pending) :
    Tracked maxAttempts blockDur now entry other log counted openedAt where
  __ := tracked
  known time := perm.count_eq time ▸ tracked.known time

/-- What is counted goes with the entry, which is no block that goes on. -/
theorem drop (tracked : Tracked maxAttempts blockDur now entry pending log counted openedAt)
    (ended : ∀ a, entry = some a → maxAttempts ≤ a.num → a.until_ ≤ now) :
    Tracked maxAttempts blockDur now none pending log [] openedAt where
  limited := tracked.limited
  absent _ := rfl
  counting := nofun
  blocking := nofun
  known time := by
    have known := tracked.known time
    simp only [List.count_nil]
    omega
  over_ block member := by
    rcases tracked.over_ block member with done | ⟨a, present, reached, later⟩
    · exact Or.inl done
    · exact Or.inl (Int.le_trans later (ended a present reached))

/-- `cleanupLocked` deletes the entry just when what it counts is forgotten. -/
theorem cleanup {ab : AuthRateLimiter} {addr : Bytes}
    (tracked : Tracked ab.maxAttempts ab.blockDur now (ab.failedAuths.get addr) pending log counted
      openedAt) (usrID : Bytes) :
    Tracked ab.maxAttempts ab.blockDur now ((ab.check usrID now).1.failedAuths.get addr) pending log
      (if openedAt + failedAuthTTL < now then [] else counted) openedAt := by
  rw [AuthRateLimiter.get_check]
  unfold AuthRateLimiter.expired
  cases present : ab.failedAuths.get addr with
  | none =>
    have none_ := tracked.absent present
    rw [present, none_] at tracked
    simpa [none_] using tracked
  | some a =>
    have same : (if openedAt + failedAuthTTL < now then [] else counted) =
        if a.until_ < now then [] else counted := by
      by_cases below : a.num < ab.maxAttempts
      · rw [(tracked.counting a present below).2.2]
      · have none_ := (tracked.blocking a present (BitVec.not_lt.mp below)).1
        simp [none_]
    rw [same]
    by_cases old : a.until_ < now
    · rw [if_pos old, if_pos (decide_eq_true old)]
      refine tracked.drop ?_
      intro other present' _
      obtain rfl := Option.some.inj (present.symm.trans present')
      exact Int.le_of_lt old
    · rw [if_neg old, if_neg (by simpa using old), ← present]
      exact tracked

theorem reject (tracked : Tracked maxAttempts blockDur now entry pending log counted openedAt)
    {a : FailedAuth} (present : entry = some a) (reached : maxAttempts ≤ a.num)
    (later : now < a.until_) :
    Tracked maxAttempts blockDur now entry pending (.rejected now :: log) counted openedAt := by
  obtain ⟨none_, block, member, same⟩ := tracked.blocking a present reached
  exact {
    tracked with
    limited := ⟨⟨block, member, same ▸ later⟩, tracked.limited⟩
    blocking := by
      intro other present' reached'
      obtain ⟨none_, block, member, same⟩ := tracked.blocking other present' reached'
      exact ⟨none_, block, List.mem_cons_of_mem _ member, same⟩
    over_ := by
      intro block member
      exact tracked.over_ block ((List.mem_cons.mp member).resolve_left nofun) }

theorem succeed (tracked : Tracked maxAttempts blockDur now entry pending log counted openedAt)
    (free : ∀ block, .blocked block ∈ log → block + blockDur ≤ now) :
    Tracked maxAttempts blockDur now entry pending (.succeeded now :: log) counted openedAt where
  __ := tracked
  limited := ⟨free, tracked.limited⟩
  blocking other present reached := by
    obtain ⟨none_, block, member, same⟩ := tracked.blocking other present reached
    exact ⟨none_, block, List.mem_cons_of_mem _ member, same⟩
  over_ block member := tracked.over_ block ((List.mem_cons.mp member).resolve_left nofun)

/-- A failure is one too many in no window if the recent ones are few. -/
theorem fail (tracked : Tracked maxAttempts blockDur now entry pending log counted openedAt)
    (free : ∀ block, .blocked block ∈ log → block + blockDur ≤ now)
    (few : (recent now (failures log)).length < maxAttempts.toNat) {later : List Int}
    (unrecorded : ∀ time, later.count time ≤ (now :: pending).count time) :
    Tracked maxAttempts blockDur now entry later (.failed now :: log) counted openedAt where
  limited := by
    refine ⟨⟨free, ?_⟩, tracked.limited⟩
    intro start
    rw [countFrom, List.countP_cons]
    by_cases inside : start ≤ now ∧ now ≤ start + failedAuthTTL
    · have more : (failures log).countP (fun time =>
          decide (start ≤ time ∧ time ≤ start + failedAuthTTL)) ≤
          (failures log).countP fun time => decide (now ≤ time + failedAuthTTL) := by
        apply List.countP_mono_left
        intro time _ within_
        have window := of_decide_eq_true within_
        exact decide_eq_true (by omega)
      rw [List.countP_eq_length_filter (p := fun time => decide (now ≤ time + failedAuthTTL))] at more
      unfold recent at few
      rw [if_pos (decide_eq_true inside)]
      omega
    · rw [if_neg (by simpa using inside)]
      exact tracked.limited.bounded start
  absent := tracked.absent
  counting := tracked.counting
  blocking other present reached := by
    obtain ⟨none_, block, member, same⟩ := tracked.blocking other present reached
    exact ⟨none_, block, List.mem_cons_of_mem _ member, same⟩
  known time := by
    have known := tracked.known time
    have unrecorded := unrecorded time
    simp only [failures, List.count_cons] at unrecorded ⊢
    omega
  over_ block member := tracked.over_ block ((List.mem_cons.mp member).resolve_left nofun)

theorem known_subperm
    (tracked : Tracked maxAttempts blockDur now entry (time :: pending) log counted openedAt) :
    (time :: counted).Subperm (failures log) := by
  rw [List.subperm_iff_count]
  intro other
  have known := tracked.known other
  simp only [List.count_cons] at known ⊢
  omega

theorem quiet_of_open
    (tracked : Tracked maxAttempts blockDur now entry pending log counted openedAt)
    (counts : ∀ a, entry = some a → a.num < maxAttempts) {block : Int}
    (member : .blocked block ∈ log) : block + blockDur ≤ now := by
  rcases tracked.over_ block member with done | ⟨a, present, reached, _⟩
  · exact done
  · exact absurd (counts a present) (BitVec.not_lt.mpr reached)

/-- A failure is counted by an entry that may count it. -/
theorem count (tracked : Tracked maxAttempts blockDur now entry (time :: pending) log counted openedAt)
    (counts : ∀ a, entry = some a → a.num < maxAttempts) {num : BitVec 64}
    (below : num < maxAttempts) (total : num.toNat = counted.length + 1) (opened : Int) :
    Tracked maxAttempts blockDur now (some ⟨opened + failedAuthTTL, num⟩) pending log
      (time :: counted) opened where
  limited := tracked.limited
  absent := nofun
  counting a present _ := by
    obtain rfl := Option.some.inj present
    exact ⟨List.cons_ne_nil _ _, total, rfl⟩
  blocking a present reached := by
    obtain rfl := Option.some.inj present
    exact absurd below (BitVec.not_lt.mpr reached)
  known other := by
    have known := tracked.known other
    simp only [List.count_cons] at known ⊢
    omega
  over_ _ member := Or.inl (tracked.quiet_of_open counts member)

/-- The earliest of some times begins a window that has them all. -/
theorem window {times : List Int} (nonempty : times ≠ [])
    (close : ∀ first ∈ times, ∀ last ∈ times, last ≤ first + failedAuthTTL) :
    ∃ start, ∀ time ∈ times, start ≤ time ∧ time ≤ start + failedAuthTTL := by
  obtain ⟨start, member, least⟩ : ∃ start ∈ times, ∀ time ∈ times, start ≤ time := by
    clear close
    induction times with
    | nil => exact absurd rfl nonempty
    | cons head rest ih =>
      cases rest with
      | nil => exact ⟨head, List.mem_cons_self, by simp⟩
      | cons second others =>
        obtain ⟨start, member, least⟩ := ih (List.cons_ne_nil _ _)
        rcases Int.le_total head start with low | low
        · refine ⟨head, List.mem_cons_self, List.forall_mem_cons.mpr ⟨Int.le_refl _, ?_⟩⟩
          exact fun time later => Int.le_trans low (least time later)
        · exact ⟨start, List.mem_cons_of_mem _ member, List.forall_mem_cons.mpr ⟨low, least⟩⟩
  exact ⟨start, fun time here => ⟨least time here, close start member time here⟩⟩

/-- A failure is counted by an entry that may count it, and reaches the limit. -/
theorem block (tracked : Tracked maxAttempts blockDur now entry (time :: pending) log counted openedAt)
    (counts : ∀ a, entry = some a → a.num < maxAttempts) {num : BitVec 64}
    (reached : maxAttempts ≤ num) (total : num.toNat = counted.length + 1)
    (close : ∀ first ∈ time :: counted, ∀ last ∈ time :: counted, last ≤ first + failedAuthTTL)
    (opened : Int) :
    Tracked maxAttempts blockDur now (some ⟨now + blockDur, num⟩) [] (.blocked now :: log) []
      opened where
  limited := by
    obtain ⟨start, inside⟩ := window (List.cons_ne_nil _ _) close
    refine ⟨⟨start, ?_⟩, tracked.limited⟩
    have all : countFrom start (time :: counted) = counted.length + 1 := by
      rw [← List.length_cons, countFrom, List.countP_eq_length]
      intro other member
      exact decide_eq_true (inside other member)
    calc maxAttempts.toNat ≤ num.toNat := reached
      _ = countFrom start (time :: counted) := by rw [total, all]
      _ ≤ countFrom start (failures log) := tracked.known_subperm.countP_le _
  absent := nofun
  counting a present below := by
    obtain rfl := Option.some.inj present
    exact absurd below (BitVec.not_lt.mpr reached)
  blocking a present _ := by
    obtain rfl := Option.some.inj present
    exact ⟨rfl, now, List.mem_cons_self, rfl⟩
  known _ := Nat.zero_le _
  over_ block member := by
    rcases List.mem_cons.mp member with same | earlier
    · obtain rfl := Entry.blocked.inj same
      exact Or.inr ⟨_, rfl, reached, Int.le_refl _⟩
    · exact Or.inl (tracked.quiet_of_open counts earlier)

/-- What `inc` makes of a failure, where the entry is no block. -/
theorem inc {ab : AuthRateLimiter} {addr : Bytes}
    (tracked : Tracked ab.maxAttempts ab.blockDur now (ab.failedAuths.get addr) (time :: pending)
      log counted openedAt)
    (counts : ∀ a, ab.failedAuths.get addr = some a → a.num < ab.maxAttempts)
    (close : ab.maxAttempts.toNat ≤ counted.length + 1 →
      ∀ first ∈ time :: counted, ∀ last ∈ time :: counted, last ≤ first + failedAuthTTL) :
    if ab.maxAttempts ≤ (ab.incremented addr now).num then
      Tracked ab.maxAttempts ab.blockDur now (some (ab.incremented addr now)) []
        (.blocked now :: log) [] openedAt
    else
      Tracked ab.maxAttempts ab.blockDur now (some (ab.incremented addr now)) pending log
        (time :: counted) (if counted = [] then now else openedAt) := by
  unfold AuthRateLimiter.incremented
  cases present : ab.failedAuths.get addr with
  | none =>
    have none_ := tracked.absent present
    have total : (1 : BitVec 64).toNat = counted.length + 1 := by rw [none_]; rfl
    dsimp only
    split
    next reached => exact tracked.block counts reached total (close (total ▸ reached)) openedAt
    next below => exact tracked.count counts (BitVec.not_le.mp below) total now
  | some a =>
    have below := counts a present
    obtain ⟨some_, many, deadline⟩ := tracked.counting a present below
    have total : (a.num + 1).toNat = counted.length + 1 := by
      have few : a.num.toNat < ab.maxAttempts.toNat := below
      have fits := ab.maxAttempts.isLt
      rw [BitVec.toNat_add, ← many]
      exact Nat.mod_eq_of_lt (by simp; omega)
    dsimp only
    split
    next reached => exact tracked.block counts reached total (close (total ▸ reached)) openedAt
    next below =>
      rw [deadline]
      exact tracked.count counts (BitVec.not_le.mp below) total openedAt

end Tracked

end AdGuardHome.Home
