import AdGuardHome.Dhcpd.V4Run
import AdGuardHome.Lib.Sweep

namespace AdGuardHome.Dhcpd

open Netip Heap
open Dhcpsvc (Lease Time Duration)

namespace V4Server

/-- The lease of an element whose hostname is gone if it was looked into and had the given
one. -/
def cleared (s : V4Server) (host : String) (checked : List Ref) (x : Ref) : Lease :=
  if x ∈ checked ∧ (s.lease x).hostname = host then { s.lease x with hostname := "" }
  else s.lease x

theorem cleared_nil (s : V4Server) (host : String) (x : Ref) : s.cleared host [] x = s.lease x := by
  simp [cleared]

variable {s : V4Server} {x : Ref} {result : Except Error Unit}

theorem cleared_settled {host : String} {checked : List Ref}
    (settled : ∀ y ∈ checked, (s.lease y).hostname = host → host = "") (x : Ref) :
    s.cleared host checked x = s.lease x := by
  unfold cleared
  split
  · rename_i here
    obtain ⟨member, named⟩ := here
    rw [← settled x member named, ← named]
  · rfl

theorem cleared_append {s t : V4Server} {host : String} {first : List Ref}
    (here : ∀ x, t.lease x = s.cleared host first x) (second : List Ref) (x : Ref) :
    t.cleared host second x = s.cleared host (first ++ second) x := by
  rw [cleared, here]
  unfold cleared
  by_cases same : (s.lease x).hostname = host
  · by_cases early : x ∈ first
    · simp only [early, same, and_self, ↓reduceIte, List.mem_append, true_or]
      split <;> rfl
    · simp [early, same]
  · simp [same]

/-- An element that was looked into only has the given hostname if that is empty. -/
theorem cleared_hostname {host : String} {checked : List Ref}
    (settled : x ∈ checked ∨ ((s.lease x).hostname = host → host = ""))
    (named : (s.cleared host checked x).hostname = host) : host = "" := by
  unfold cleared at named
  split at named
  · exact named.symm
  · rename_i other
    rcases settled with member | settled
    · exact absurd ⟨member, named⟩ other
    · exact settled named

theorem emptyHostname_cleared (known : x < s.heap.size) (isStatic : Bool) (lease y : Ref) :
    (s.emptyHostname isStatic x lease).lease y =
      s.cleared (s.lease lease).hostname (if isStatic then [] else [x]) y := by
  unfold emptyHostname cleared
  cases isStatic with
  | true => simp
  | false =>
    by_cases same : (s.lease x).hostname = (s.lease lease).hostname
    · simp only [same, Bool.not_false, beq_self_eq_true, Bool.and_self, ↓reduceIte,
        Bool.false_eq_true, List.mem_singleton]
      rw [lease_setLease known]
      by_cases here : y = x
      · simp [here, same]
      · simp [here]
    · have other : ¬ (y = x ∧ (s.lease y).hostname = (s.lease lease).hostname) := by
        rintro ⟨rfl, clash⟩
        exact same clash
      simp [same, other]

theorem emptyHostname_indexes (s : V4Server) (isStatic : Bool) (l lease : Ref) :
    (s.emptyHostname isStatic l lease).hostsIndex = s.hostsIndex ∧
      (s.emptyHostname isStatic l lease).ipIndex = s.ipIndex ∧
      (s.emptyHostname isStatic l lease).leasedOffsets = s.leasedOffsets := by
  unfold emptyHostname
  split
  · exact ⟨rfl, rfl, rfl⟩
  · exact ⟨rfl, rfl, rfl⟩

theorem hostname_emptyHostname {x y lease : Ref} (isStatic : Bool) (different : y ≠ x) :
    ((s.emptyHostname isStatic x lease).lease y).hostname = (s.lease y).hostname := by
  unfold emptyHostname
  split
  · rw [V4Server.lease, setLease, read_modify_ne different]
    rfl
  · rfl

theorem rmLeaseByIndex_append {front rest : List Ref} (split : s.leases = front ++ x :: rest) :
    (s.rmLeaseByIndex front.length).leases = front ++ rest := by
  rw [rmLeaseByIndex_leases, split, List.eraseIdx_append_of_length_le (Nat.le_refl _),
    Nat.sub_self, List.eraseIdx_cons_zero]

/-- What the loop for a lease makes of the table behind `front`, as the sweep says. -/
structure Outcome (hit : Ref → Bool) (host : String) (front : List Ref) (s t : V4Server)
    (swept : Swept Ref) : Prop where
  leases : t.leases = front ++ swept.kept
  objects : ∀ x, t.lease x = s.cleared host swept.checked x
  untouched : swept.removed = [] →
    t.hostsIndex = s.hostsIndex ∧ t.ipIndex = s.ipIndex ∧ t.leasedOffsets = s.leasedOffsets
  hosts : (∀ x ∈ swept.checked, x ∈ swept.removed → (s.lease x).hostname = host → host = "") →
    ∀ name, t.hostsIndex.get name =
      if ∃ x ∈ swept.removed, (s.lease x).hostname = name then none else s.hostsIndex.get name

namespace Outcome

variable {hit : Ref → Bool} {host : String} {front : List Ref} {s t u : V4Server}
  {swept : Swept Ref}

theorem stop {rest : List Ref} (split : s.leases = front ++ rest) (refused : Bool) :
    Outcome hit host front s s ⟨rest, [], [], refused⟩ where
  leases := split
  objects := fun x => (cleared_nil s host x).symm
  untouched := fun _ => ⟨rfl, rfl, rfl⟩
  hosts := by simp

/-- The loop passed an element. -/
theorem pass {x lease : Ref} {isStatic : Bool} (known : x < s.heap.size)
    (named : (s.lease lease).hostname = host) (different : hit x = false)
    (removed : ∀ y ∈ swept.removed, hit y = true)
    (next : Outcome hit host (front ++ [x]) (s.emptyHostname isStatic x lease) t swept) :
    Outcome hit host front s t ⟨x :: swept.kept, swept.removed,
      if isStatic then swept.checked else x :: swept.checked, swept.refused⟩ := by
  have looked : ∀ y, (s.emptyHostname isStatic x lease).lease y =
      s.cleared host (if isStatic then [] else [x]) y := by
    intro y
    rw [emptyHostname_cleared known, named]
  obtain ⟨hosts, ips, offsets⟩ := emptyHostname_indexes s isStatic x lease
  refine ⟨?_, ?_, ?_, ?_⟩
  · rw [next.leases, List.append_assoc, List.singleton_append]
  · intro y
    rw [next.objects, cleared_append looked]
    cases isStatic <;> rfl
  · intro untouched
    obtain ⟨first, second, third⟩ := next.untouched untouched
    exact ⟨first.trans hosts, second.trans ips, third.trans offsets⟩
  · intro apart name
    have later : ∀ y ∈ swept.checked, y ∈ swept.removed →
        ((s.emptyHostname isStatic x lease).lease y).hostname = host → host = "" := by
      intro y member gone
      rw [looked]
      refine cleared_hostname (.inr (apart y ?_ gone))
      cases isStatic with
      | true => exact member
      | false => exact List.mem_cons_of_mem x member
    have names : ∀ y ∈ swept.removed,
        ((s.emptyHostname isStatic x lease).lease y).hostname = (s.lease y).hostname := by
      intro y member
      apply hostname_emptyHostname
      rintro rfl
      rw [removed y member] at different
      cases different
    rw [next.hosts later, hosts]
    refine if_congr (exists_congr fun y => and_congr_right fun member => ?_) rfl rfl
    rw [names y member]

/-- The loop removed an element and looked into the one behind it. -/
theorem remove {x b lease : Ref} {rest : List Ref} (split : s.leases = front ++ x :: b :: rest)
    (known : b < s.heap.size) (named : (s.lease lease).hostname = host)
    (next : Outcome hit host (front ++ [b])
      ((s.rmLeaseByIndex front.length).emptyHostname false b lease) t swept) :
    Outcome hit host front s t
      ⟨b :: swept.kept, x :: swept.removed, b :: swept.checked, swept.refused⟩ := by
  have frame := rmLeaseByIndex_frame s front.length
  have looked : ∀ y, ((s.rmLeaseByIndex front.length).emptyHostname false b lease).lease y =
      s.cleared host [b] y := by
    intro y
    rw [emptyHostname_cleared (by rwa [frame.2])]
    simp [cleared, named]
  have hosts : ((s.rmLeaseByIndex front.length).emptyHostname false b lease).hostsIndex =
      s.hostsIndex.delete (s.lease x).hostname := by
    rw [(emptyHostname_indexes _ _ _ _).1]
    simp [rmLeaseByIndex, split]
  refine ⟨?_, ?_, ?_, ?_⟩
  · rw [next.leases, List.append_assoc, List.singleton_append]
  · intro y
    rw [next.objects, cleared_append looked]
    rfl
  · intro impossible
    cases impossible
  · intro apart name
    have later : ∀ y ∈ swept.checked, y ∈ swept.removed →
        (((s.rmLeaseByIndex front.length).emptyHostname false b lease).lease y).hostname = host →
          host = "" := by
      intro y member gone
      rw [looked]
      exact cleared_hostname (.inr (apart y (.tail b member) (.tail x gone)))
    have names : ∀ y ∈ swept.removed,
        (((s.rmLeaseByIndex front.length).emptyHostname false b lease).lease y).hostname =
          (s.lease y).hostname := by
      intro y member
      by_cases here : y = b
      · subst here
        rw [looked, cleared_settled]
        intro z listed
        rw [List.mem_singleton.mp listed]
        exact apart y (.head _) (.tail x member)
      · rw [hostname_emptyHostname _ here, rmLeaseByIndex_lease]
    have same : (∃ y ∈ swept.removed,
        (((s.rmLeaseByIndex front.length).emptyHostname false b lease).lease y).hostname =
          name) ↔ ∃ y ∈ swept.removed, (s.lease y).hostname = name :=
      exists_congr fun y => and_congr_right fun member => by rw [names y member]
    rw [next.hosts later, hosts, FiniteMap.get_delete]
    by_cases here : name = (s.lease x).hostname
    · simp [here]
    · simp [here, Ne.symm here, same]

theorem last {x : Ref} (split : s.leases = front ++ [x]) :
    Outcome hit host front s (s.rmLeaseByIndex front.length) ⟨[], [x], [], false⟩ where
  leases := rmLeaseByIndex_append split
  objects := by
    intro y
    rw [rmLeaseByIndex_lease, cleared_nil]
  untouched := by
    intro impossible
    cases impossible
  hosts := by
    intro _ name
    have hosts : (s.rmLeaseByIndex front.length).hostsIndex =
        s.hostsIndex.delete (s.lease x).hostname := by simp [rmLeaseByIndex, split]
    rw [hosts, FiniteMap.get_delete]
    simp [eq_comm]

end Outcome

/-- What holds when the loop reaches an index: its array shows the table, and behind the
table the last lease, which it has then compared already. -/
structure Standing (lease : Ref) (hit fixed : Ref → Bool) (host : String) (s : V4Server)
    (slots : List Ref) (i count : Nat) : Prop where
  mirrors : Mirrors slots s
  length : slots.length = i + count
  stale : ∀ j, s.leases.length ≤ j → ∀ b, slots[j]? = some b → s.leases.getLast? = some b
  past : s.leases.length ≤ i → ∀ b, s.leases.getLast? = some b →
    hit b = false ∧ (fixed b = true ∨ ((s.lease b).hostname = host → host = ""))
  known : ∀ x ∈ s.leases, x < s.heap.size
  hits : ∀ x ∈ s.leases, sameAs (s.lease x) (s.lease lease) = hit x
  fixes : ∀ x ∈ s.leases, (s.lease x).isStatic = fixed x
  named : (s.lease lease).hostname = host

namespace Standing

variable {lease : Ref} {hit fixed : Ref → Bool} {host : String} {s : V4Server}
  {slots : List Ref} {i count : Nat}

theorem covers (standing : Standing lease hit fixed host s slots i count) :
    s.leases.length ≤ i + count := by
  rw [← standing.length]
  by_contra short
  have inside : slots.length < s.leases.length := Nat.lt_of_not_le short
  have shown := standing.mirrors slots.length inside
  rw [List.getElem?_eq_none (Nat.le_refl _), List.getElem?_eq_getElem inside] at shown
  cases shown

variable {front rest : List Ref}

/-- What the loop finds in its array. -/
theorem meets (standing : Standing lease hit fixed host s slots i count) {x : Ref}
    (split : s.leases = front ++ x :: rest) (here : front.length = i) :
    ∃ rounds, count = rounds + 1 ∧ slots.getD i 0 = x ∧
      sameAs (s.lease x) (s.lease lease) = hit x ∧ (s.lease x).isStatic = fixed x := by
  have member : x ∈ s.leases := by simp [split]
  have covers := standing.covers
  rw [split, List.length_append, List.length_cons] at covers
  obtain ⟨rounds, more⟩ := Nat.exists_eq_succ_of_ne_zero (n := count) (by omega)
  refine ⟨rounds, more, standing.mirrors.getD ?_, standing.hits x member, standing.fixes x member⟩
  simp [split, ← here]

theorem other (standing : Standing lease hit fixed host s slots i count) {x : Ref}
    (member : x ∈ s.leases) (different : hit x = false) (here : lease = x) : host = "" := by
  have same := standing.hits x member
  simp [here, sameAs, different] at same

/-- Looking into a lease of the table, which is not the given one if that has a hostname to
lose. -/
theorem look (standing : Standing lease hit fixed host s slots i count) {x : Ref}
    (member : x ∈ s.leases) (isStatic : Bool) (other : lease = x → host = "") :
    Standing lease hit fixed host (s.emptyHostname isStatic x lease) slots i count := by
  obtain ⟨_, leases, size⟩ := emptyHostname_frame s isStatic x lease
  have trimmed : Trimmed lease s (s.emptyHostname isStatic x lease) :=
    .emptyHostname s isStatic x lease
  refine ⟨standing.mirrors.emptyHostname isStatic x lease, standing.length, ?_, ?_, ?_, ?_, ?_,
    ?_⟩
  · rw [leases]
    exact standing.stale
  · rw [leases]
    intro beyond b last
    obtain ⟨different, settled⟩ := standing.past beyond b last
    refine ⟨different, settled.imp id fun settled => ?_⟩
    rw [emptyHostname_cleared (standing.known x member), standing.named]
    exact cleared_hostname (.inr settled)
  · rw [leases, size]
    exact standing.known
  · intro y listed
    rw [leases] at listed
    rw [trimmed.sameAs, standing.hits y listed]
  · intro y listed
    rw [leases] at listed
    rw [trimmed.isStatic, standing.fixes y listed]
  · by_cases here : lease = x
    · rw [emptyHostname_cleared (standing.known x member), cleared_settled, standing.named]
      intro y _ _
      rw [standing.named, other here]
    · rw [hostname_emptyHostname _ here, standing.named]

/-- The loop goes on to the next index. -/
theorem advance (standing : Standing lease hit fixed host s slots i (count + 1))
    (past : s.leases.length = i + 1 → ∀ b, s.leases.getLast? = some b →
      hit b = false ∧ (fixed b = true ∨ ((s.lease b).hostname = host → host = ""))) :
    Standing lease hit fixed host s slots (i + 1) count where
  mirrors := standing.mirrors
  length := by
    have length := standing.length
    omega
  stale := standing.stale
  past := by
    intro beyond
    rcases Nat.lt_or_eq_of_le beyond with behind | here
    · exact standing.past (Nat.le_of_lt_succ behind)
    · exact past here
  known := standing.known
  hits := standing.hits
  fixes := standing.fixes
  named := standing.named

/-- Behind the table the loop only meets the last lease again. -/
theorem idle (standing : Standing lease hit fixed host s slots i count)
    (beyond : s.leases.length ≤ i) :
    Outcome hit host s.leases s (rmDynamicLoop lease count i slots s).1 ⟨[], [], [], false⟩ ∧
      (rmDynamicLoop lease count i slots s).2.2 = .ok () := by
  induction count generalizing i s with
  | zero => exact ⟨.stop (by simp) false, rfl⟩
  | succ count ih =>
    have length := standing.length
    have here : slots[i]? = some (slots.getD i 0) := by
      rw [List.getD_eq_getElem?_getD, List.getElem?_eq_getElem (by omega)]
      rfl
    generalize shown : slots.getD i 0 = b at here
    have last := standing.stale i beyond b here
    have member := List.mem_of_getLast? last
    obtain ⟨different, settled⟩ := standing.past beyond b last
    have compared : sameAs (s.lease b) (s.lease lease) = false :=
      (standing.hits b member).trans different
    rw [← shown] at compared
    obtain ⟨_, leases, _⟩ := emptyHostname_frame s (fixed b) b lease
    have same : ∀ x, (s.emptyHostname (fixed b) b lease).lease x = s.lease x := by
      intro x
      rw [emptyHostname_cleared (standing.known b member), standing.named]
      apply cleared_settled
      intro y looked
      rcases settled with static | settled
      · simp [static] at looked
      · split at looked
        · cases looked
        · rwa [List.mem_singleton.mp looked]
    rw [rmDynamicLoop_pass compared, shown, standing.fixes b member]
    have next := (standing.look member (fixed b) (standing.other member different)).advance (by
      rw [leases]
      omega)
    obtain ⟨hosts, ips, offsets⟩ := emptyHostname_indexes s (fixed b) b lease
    obtain ⟨outcome, ends⟩ := ih next (by rw [leases]; omega)
    refine ⟨⟨?_, ?_, ?_, ?_⟩, ends⟩
    · rw [outcome.leases, leases]
    · intro x
      rw [outcome.objects, cleared_nil, cleared_nil, same]
    · intro untouched
      rw [← hosts, ← ips, ← offsets]
      exact outcome.untouched untouched
    · intro _ name
      rw [outcome.hosts (fun _ looked => by cases looked) name, hosts]
      simp

/-- The round of an element that does not match. -/
theorem pass (standing : Standing lease hit fixed host s slots i (count + 1))
    {x : Ref} (split : s.leases = front ++ x :: rest)
    (here : front.length = i) (different : hit x = false) :
    Standing lease hit fixed host (s.emptyHostname (fixed x) x lease) slots (i + 1) count := by
  have member : x ∈ s.leases := by simp [split]
  obtain ⟨_, leases, _⟩ := emptyHostname_frame s (fixed x) x lease
  refine (standing.look member (fixed x) (standing.other member different)).advance ?_
  rw [leases, split, List.length_append, List.length_cons]
  intro ends b last
  obtain rfl : rest = [] := List.eq_nil_of_length_eq_zero (by omega)
  obtain rfl : x = b := by simpa using last
  refine ⟨different, ?_⟩
  rw [emptyHostname_cleared (standing.known x member), standing.named]
  cases static : fixed x with
  | true => exact .inl rfl
  | false => exact .inr (cleared_hostname (.inl (by simp)))

/-- The array after a removal shows the shorter table. -/
theorem erase (standing : Standing lease hit fixed host s slots i (count + 1))
    {x b : Ref} (split : s.leases = front ++ x :: b :: rest)
    (here : front.length = i) :
    Standing lease hit fixed host (s.rmLeaseByIndex i) (shift slots s.leases.length i) i
      (count + 1) := by
  have total : s.leases.length = i + (rest.length + 2) := by
    rw [split, List.length_append, here]
    rfl
  have length := standing.length
  have covers := standing.covers
  have leases : (s.rmLeaseByIndex i).leases = front ++ b :: rest := by
    rw [← here, rmLeaseByIndex_append split]
  have frame := rmLeaseByIndex_frame s i
  have sub : ∀ y ∈ (s.rmLeaseByIndex i).leases, y ∈ s.leases := by
    rw [rmLeaseByIndex_leases]
    exact fun y member => (List.eraseIdx_sublist _ _).subset member
  have sameLast : (s.rmLeaseByIndex i).leases.getLast? = s.leases.getLast? := by
    rw [leases, split]
    simp
  refine ⟨standing.mirrors.shift (by omega), ?_, ?_, ?_, ?_, ?_, ?_, ?_⟩
  · simp only [shift, List.length_append, List.length_take, List.length_drop]
    omega
  · rw [sameLast, leases, List.length_append, List.length_cons]
    intro j beyond c shown
    have behind : (shift slots s.leases.length i)[j]? = slots[j]? := by
      have front : (slots.take i ++ (slots.take s.leases.length).drop (i + 1)).length =
          s.leases.length - 1 := by
        simp only [List.length_append, List.length_take, List.length_drop]
        omega
      rw [shift, List.getElem?_append_right (by omega), front, List.getElem?_drop]
      congr 1
      omega
    rw [behind] at shown
    by_cases end_ : j = s.leases.length - 1
    · rw [standing.mirrors j (by omega)] at shown
      rw [List.getLast?_eq_getElem?, ← end_, shown]
    · exact standing.stale j (by omega) c shown
  · rw [leases, List.length_append, List.length_cons]
    intro beyond
    omega
  · intro y member
    rw [frame.2]
    exact standing.known y (sub y member)
  · intro y member
    rw [rmLeaseByIndex_lease, rmLeaseByIndex_lease, standing.hits y (sub y member)]
  · intro y member
    rw [rmLeaseByIndex_lease, standing.fixes y (sub y member)]
  · rw [rmLeaseByIndex_lease, standing.named]

/-- The round that removes an element and passes over the one behind it. -/
theorem remove (standing : Standing lease hit fixed host s slots i (count + 1))
    {x b : Ref} (split : s.leases = front ++ x :: b :: rest)
    (here : front.length = i) (other : lease = b → host = "") (seen : rest = [] → hit b = false) :
    Standing lease hit fixed host ((s.rmLeaseByIndex i).emptyHostname false b lease)
      (shift slots s.leases.length i) (i + 1) count := by
  have leases : (s.rmLeaseByIndex i).leases = front ++ b :: rest := by
    rw [← here, rmLeaseByIndex_append split]
  have member : b ∈ (s.rmLeaseByIndex i).leases := by
    rw [leases]
    simp
  have erased := standing.erase split here
  obtain ⟨_, same, _⟩ := emptyHostname_frame (s.rmLeaseByIndex i) false b lease
  refine (erased.look member false other).advance ?_
  rw [same, leases, List.length_append, List.length_cons]
  intro ends c last
  obtain rfl : rest = [] := List.eq_nil_of_length_eq_zero (by omega)
  obtain rfl : b = c := by simpa using last
  refine ⟨seen rfl, .inr ?_⟩
  rw [emptyHostname_cleared (erased.known b member), erased.named]
  exact cleared_hostname (.inl (by simp))

/-- Right behind the table the loop meets the last lease, which it may have passed over. -/
theorem again (standing : Standing lease hit fixed host s slots i (count + 1))
    {front : List Ref} {b : Ref} (split : s.leases = front ++ [b]) (here : front.length = i)
    (more : count ≠ 0) (same : hit b = true) :
    (rmDynamicLoop lease count (i + 1) slots s).1 = s ∧
      (rmDynamicLoop lease count (i + 1) slots s).2.2 =
        if fixed b then .error .staticLeaseExists else .ok () := by
  obtain ⟨rounds, rfl⟩ := Nat.exists_eq_succ_of_ne_zero more
  have member : b ∈ s.leases := by simp [split]
  have total : s.leases.length = i + 1 := by simp [split, here]
  have length := standing.length
  have shown : slots[i + 1]? = some (slots.getD (i + 1) 0) := by
    rw [List.getD_eq_getElem?_getD, List.getElem?_eq_getElem (by omega)]
    rfl
  have last := standing.stale (i + 1) (Nat.le_of_eq total) _ shown
  have slot : b = slots.getD (i + 1) 0 := by simpa [split] using last
  have compared : sameAs (s.lease (slots.getD (i + 1) 0)) (s.lease lease) = true := by
    rw [← slot, standing.hits b member, same]
  have static : (s.lease (slots.getD (i + 1) 0)).isStatic = fixed b := by
    rw [← slot, standing.fixes b member]
  cases stays : fixed b with
  | true =>
    rw [rmDynamicLoop_refuse compared (static.trans stays)]
    exact ⟨rfl, rfl⟩
  | false =>
    have unchanged : s.rmLeaseByIndex (i + 1) = s := by
      rw [rmLeaseByIndex, List.getElem?_eq_none (Nat.le_of_eq total)]
    rw [rmDynamicLoop_last compared (static.trans stays) (by rw [unchanged, total]), unchanged]
    exact ⟨rfl, rfl⟩

/-- The last lease moves up when the one before it is removed, and the loop meets it only
right behind the table, where it does not remove it. -/
theorem beforeLast (standing : Standing lease hit fixed host s slots i count) {front : List Ref}
    {x b : Ref} (split : s.leases = front ++ [x, b]) (here : front.length = i)
    (same : hit x = true) (loose : fixed x = false) (other : lease = b → host = "") :
    Outcome hit host front s (rmDynamicLoop lease count i slots s).1 (sweep hit fixed [x, b]) ∧
      (rmDynamicLoop lease count i slots s).2.2 =
        if (sweep hit fixed [x, b]).refused then .error .staticLeaseExists else .ok () := by
  obtain ⟨rounds, rfl, slot, compared, static⟩ := standing.meets split here
  have covers := standing.covers
  have total : s.leases.length = i + 2 := by simp [split, here]
  have next : (s.rmLeaseByIndex i).leases = front ++ [b] := by
    rw [← here, rmLeaseByIndex_append split]
  rw [sweep_beforeLast same loose, rmDynamicLoop_remove (by rw [slot, compared, same])
    (by rw [slot, static, loose]) (b := b) (by rw [next, ← here]; simp), if_pos (by omega)]
  obtain ⟨_, leases, _⟩ := emptyHostname_frame (s.rmLeaseByIndex i) false b lease
  have outcome : ∀ refused t,
      Outcome hit host (front ++ [b]) ((s.rmLeaseByIndex i).emptyHostname false b lease) t
        ⟨[], [], [], refused⟩ →
      Outcome hit host front s t ⟨[b], [x], [b], refused⟩ := by
    intro refused t ended
    subst here
    exact .remove split (standing.known b (by simp [split])) standing.named ended
  have member : b ∈ (s.rmLeaseByIndex i).leases := by
    rw [next]
    simp
  cases twice : hit b with
  | false =>
    obtain ⟨idle, ends⟩ := (standing.remove split here other fun _ => twice).idle
      (by rw [leases, next]; simp [here])
    rw [leases, next] at idle
    exact ⟨outcome _ _ idle, ends⟩
  | true =>
    obtain ⟨same, ends⟩ := ((standing.erase split here).look member false other).again
      (leases.trans next) here (by omega) twice
    rw [ends, same]
    refine ⟨outcome _ _ (.stop ?_ _), by simp⟩
    rw [leases, next, List.append_nil]

/-- The loop sweeps the leases from its index on, as long as it empties no hostname of the
given one. -/
theorem loop (standing : Standing lease hit fixed host s slots i count)
    (split : s.leases = front ++ rest) (here : front.length = i)
    (other : lease ∈ (sweep hit fixed rest).checked → host = "") :
    Outcome hit host front s (rmDynamicLoop lease count i slots s).1 (sweep hit fixed rest) ∧
      (rmDynamicLoop lease count i slots s).2.2 =
        if (sweep hit fixed rest).refused then .error .staticLeaseExists else .ok () := by
  induction rest using sweep_rounds hit fixed generalizing s slots i count front with
  | done =>
    rw [List.append_nil] at split
    subst split
    exact standing.idle (Nat.le_of_eq here)
  | pass x rest different ih =>
    obtain ⟨rounds, rfl, slot, compared, static⟩ := standing.meets split here
    rw [sweep_pass different, rmDynamicLoop_pass (by rw [slot, compared, different]), slot, static]
    obtain ⟨_, leases, _⟩ := emptyHostname_frame s (fixed x) x lease
    have grown : (s.emptyHostname (fixed x) x lease).leases = (front ++ [x]) ++ rest := by
      rw [leases, split]
      simp
    rw [sweep_pass different] at other
    obtain ⟨outcome, ends⟩ := ih (standing.pass split here different) grown (by simp [here])
      fun looked => other (by
        split
        · exact looked
        · exact .tail x looked)
    exact ⟨.pass (standing.known x (by simp [split])) standing.named different
      (fun y member => (sweep_removed rest y member).1) outcome, ends⟩
  | refuse x rest same stays =>
    obtain ⟨rounds, rfl, slot, compared, static⟩ := standing.meets split here
    rw [sweep_refuse same stays,
      rmDynamicLoop_refuse (by rw [slot, compared, same]) (by rw [slot, static, stays])]
    exact ⟨.stop split true, rfl⟩
  | last x same loose =>
    obtain ⟨rounds, rfl, slot, compared, static⟩ := standing.meets split here
    rw [sweep_last same loose, rmDynamicLoop_last (by rw [slot, compared, same])
      (by rw [slot, static, loose])
      (by rw [← here, rmLeaseByIndex_append split, List.append_nil])]
    subst here
    exact ⟨.last split, rfl⟩
  | beforeLast x b same loose =>
    rw [sweep_beforeLast same loose, List.mem_singleton] at other
    exact standing.beforeLast split here same loose other
  | remove x b c rest same loose ih =>
    obtain ⟨rounds, rfl, slot, compared, static⟩ := standing.meets split here
    have inside : i < s.leases.length := by simp [split, ← here]
    have next : (s.rmLeaseByIndex i).leases = front ++ b :: c :: rest := by
      rw [← here, rmLeaseByIndex_append split]
    rw [sweep_remove same loose, rmDynamicLoop_remove (by rw [slot, compared, same])
      (by rw [slot, static, loose]) (b := b) (by rw [next, ← here]; simp), if_pos inside]
    obtain ⟨_, leases, _⟩ := emptyHostname_frame (s.rmLeaseByIndex i) false b lease
    have grown : ((s.rmLeaseByIndex i).emptyHostname false b lease).leases =
        (front ++ [b]) ++ c :: rest := by
      rw [leases, next]
      simp
    rw [sweep_remove same loose, List.mem_cons] at other
    obtain ⟨outcome, ends⟩ := ih
      (standing.remove split here (fun here => other (.inl here)) fun impossible => by
        cases impossible)
      grown (by simp [here]) fun looked => other (.inr looked)
    subst here
    exact ⟨.remove split (standing.known b (by simp [split])) standing.named outcome, ends⟩

/-- The loop starts at the first lease of the table. -/
theorem start (known : ∀ x ∈ s.leases, x < s.heap.size)
    (hits : ∀ x ∈ s.leases, sameAs (s.lease x) (s.lease lease) = hit x)
    (fixes : ∀ x ∈ s.leases, (s.lease x).isStatic = fixed x) :
    Standing lease hit fixed (s.lease lease).hostname s s.leases 0 s.leases.length := by
  refine ⟨fun _ _ => rfl, (Nat.zero_add _).symm, ?_, ?_, known, hits, fixes, rfl⟩
  · intro j beyond b shown
    exact absurd beyond (Nat.not_le_of_lt (List.getElem?_eq_some_iff.mp shown).1)
  · intro beyond b last
    have empty : s.leases = [] := List.eq_nil_of_length_eq_zero (Nat.le_zero.mp beyond)
    simp [empty] at last

end Standing

/-- The element has the IP or the hardware address of the lease. -/
def sharesAddress (s : V4Server) (lease : Lease) (x : Ref) : Bool := sameAs (s.lease x) lease

def sharesHostname (s : V4Server) (lease : Lease) (x : Ref) : Bool :=
  lease.hostname ≠ "" && (s.lease x).hostname == lease.hostname

def shares (s : V4Server) (lease : Lease) (x : Ref) : Bool :=
  s.sharesAddress lease x || s.sharesHostname lease x

def static (s : V4Server) (x : Ref) : Bool := (s.lease x).isStatic

def swept (s : V4Server) (lease : Lease) : Swept Ref :=
  sweep (s.sharesAddress lease) s.static s.leases

structure Unchanged (s t : V4Server) : Prop where
  leases : t.leases = s.leases
  objects : ∀ x ∈ s.leases, t.lease x = s.lease x
  hostsIndex : t.hostsIndex = s.hostsIndex
  ipIndex : t.ipIndex = s.ipIndex
  leasedOffsets : t.leasedOffsets = s.leasedOffsets

structure AddsStatic (s : V4Server) (lease : Lease) (t : V4Server) (result : Except Error Unit) :
    Prop where
  added : result = .ok () → ∃ kept x, t.leases = kept ++ [x] ∧ x ∉ s.leases ∧ t.lease x = lease ∧
    (∀ y ∈ kept, t.shares lease y = false) ∧
    ∀ y ∈ s.leases, s.static y = false → s.shares lease y = false →
      y ∈ t.leases ∧ t.lease y = s.lease y
  succeeds : (∀ y ∈ s.leases, s.static y = true → s.shares lease y = false) →
    result = .ok () ∧
    ∀ y ∈ s.leases, s.static y = false → s.sharesAddress lease y = false →
      s.sharesHostname lease y = true →
        y ∈ t.leases ∧ t.lease y = { s.lease y with hostname := "" }
  failed : result ≠ .ok () → Unchanged s t

/-- `addLease` rejects the lease after the loop: it is not in the subnet, or the index of
hostnames has its hostname and loses it with no removed lease. -/
def Rejects (s : V4Server) (lease : Lease) : Prop :=
  s.conf.subnet.contains lease.ip = false ∨
    lease.hostname ≠ "" ∧ (s.hostsIndex.get lease.hostname).isSome = true ∧
      ∀ x ∈ s.leases, s.sharesAddress lease x = true → (s.lease x).hostname ≠ lease.hostname

/-- When adding a static lease keeps its promises. -/
inductive Addable (s : V4Server) (lease : Lease) : Prop where
  /-- The leases that share an address are dynamic and no neighbours, and each static lease
  with the hostname directly follows one of them. -/
  | accepted (spread : Spread (s.sharesAddress lease) s.static s.leases)
      (admitted : ¬ s.Rejects lease)
      (followed : ∀ x ∈ s.leases, s.static x = true → s.sharesHostname lease x = true →
        Behind (s.sharesAddress lease) s.leases x)
  /-- Nothing shares an address, and the hostname is that of static leases only. -/
  | rejected (clean : ∀ x ∈ s.leases, s.sharesAddress lease x = false)
      (rejects : s.Rejects lease)
      (named : ∃ x ∈ s.leases, s.static x = true ∧ s.sharesHostname lease x = true)
      (settled : ∀ x ∈ s.leases, s.static x = false → s.sharesHostname lease x = false)
  /-- The first lease that shares an address is static, and no dynamic lease before it has
  the hostname. -/
  | refused (front back : List Ref) (x : Ref) (split : s.leases = front ++ x :: back)
      (same : s.sharesAddress lease x = true) (stays : s.static x = true)
      (before : ∀ y ∈ front, s.sharesAddress lease y = false)
      (settled : ∀ y ∈ front, s.static y = false → s.sharesHostname lease y = false)

structure Processed (s t : V4Server) (lease : Lease) : Prop where
  conf : t.conf = s.conf
  new : t.lease s.heap.size = lease
  leases : t.leases = (s.swept lease).kept
  objects : ∀ x ∈ s.leases, t.lease x = s.cleared lease.hostname (s.swept lease).checked x
  untouched : (s.swept lease).removed = [] →
    t.hostsIndex = s.hostsIndex ∧ t.ipIndex = s.ipIndex ∧ t.leasedOffsets = s.leasedOffsets
  hosts : (∀ x ∈ (s.swept lease).checked, s.sharesAddress lease x = false) → ∀ name,
    (t.hostsIndex.get name).isSome = true ↔
      (s.hostsIndex.get name).isSome = true ∧
        ∀ x ∈ (s.swept lease).removed, (s.lease x).hostname ≠ name

variable {env : Env} {s t : V4Server} {l lease : Lease}

theorem rmDynamicLease_processed (known : ∀ x ∈ s.leases, x < s.heap.size) (lease : Lease) :
    Processed s ((s.withObject lease).rmDynamicLease s.heap.size).1 lease ∧
      ((s.withObject lease).rmDynamicLease s.heap.size).2.2 =
        if (s.swept lease).refused then .error .staticLeaseExists else .ok () := by
  have old : ∀ x ∈ s.leases, (s.withObject lease).lease x = s.lease x := by
    intro x member
    rw [withObject, lease_alloc, if_neg (Nat.ne_of_lt (known x member))]
  have unlisted : s.heap.size ∉ s.leases := fun member => Nat.lt_irrefl _ (known _ member)
  have standing : Standing s.heap.size (s.sharesAddress lease) s.static lease.hostname
      (s.withObject lease) s.leases 0 s.leases.length := by
    have start : Standing s.heap.size (s.sharesAddress lease) s.static
        ((s.withObject lease).lease s.heap.size).hostname (s.withObject lease)
        (s.withObject lease).leases 0 (s.withObject lease).leases.length := by
      refine .start ?_ ?_ ?_
      · intro x member
        rw [withObject_size]
        exact Nat.lt_succ_of_lt (known x member)
      · intro x member
        rw [old x member, withObject_new]
        rfl
      · intro x member
        rw [old x member]
        rfl
    rwa [withObject_new] at start
  have whole : (s.withObject lease).leases = [] ++ s.leases := rfl
  obtain ⟨removed, checked⟩ := sweep_members (s.sharesAddress lease) s.static s.leases
  have unseen : s.heap.size ∉ (s.swept lease).checked := fun looked =>
    unlisted (checked s.heap.size looked)
  obtain ⟨outcome, ends⟩ := standing.loop whole rfl fun looked => absurd looked unseen
  refine ⟨⟨(Trimmed.rmDynamicLease _ _).conf, ?_, outcome.leases, ?_, outcome.untouched, ?_⟩, ends⟩
  · refine (outcome.objects s.heap.size).trans ?_
    rw [← swept, cleared, withObject_new, if_neg fun looked => unseen looked.1]
  · intro x member
    refine (outcome.objects x).trans ?_
    rw [← swept, cleared, cleared, old x member]
  · intro apart name
    have hosts : ((s.withObject lease).rmDynamicLease s.heap.size).1.hostsIndex.get name =
        if ∃ x ∈ (s.swept lease).removed, (s.lease x).hostname = name then none
        else s.hostsIndex.get name := by
      refine (outcome.hosts (fun x looked member _ => ?_) name).trans ?_
      · have same := (sweep_removed s.leases x member).1
        rw [apart x looked] at same
        cases same
      · refine if_congr (exists_congr fun x => and_congr_right fun member => ?_) rfl rfl
        rw [old x (removed x member)]
    rw [hosts]
    split
    · rename_i named
      obtain ⟨x, member, named⟩ := named
      constructor
      · intro found
        cases found
      · rintro ⟨_, others⟩
        exact absurd named (others x member)
    · rename_i unnamed
      simp only [not_exists, not_and] at unnamed
      exact ⟨fun found => ⟨found, unnamed⟩, And.left⟩

theorem Processed.sharesAddress (processed : Processed s t lease) (member : x ∈ s.leases) :
    t.sharesAddress lease x = s.sharesAddress lease x := by
  rw [V4Server.sharesAddress, processed.objects x member, cleared]
  split
  · rfl
  · rfl

theorem Processed.unchanged_iff (processed : Processed s t lease) :
    Unchanged s t ↔ (s.swept lease).removed = [] ∧
      ∀ x ∈ (s.swept lease).checked, s.sharesHostname lease x = false := by
  have members := (sweep_members (s.sharesAddress lease) s.static s.leases).2
  constructor
  · intro unchanged
    refine ⟨?_, ?_⟩
    · have total := sweep_length (s.sharesAddress lease) s.static s.leases
      rw [← swept, ← processed.leases, unchanged.leases] at total
      exact List.eq_nil_of_length_eq_zero (by omega)
    · intro x checked
      have same := unchanged.objects x (members x checked)
      rw [processed.objects x (members x checked), cleared] at same
      by_cases named : (s.lease x).hostname = lease.hostname
      · rw [if_pos ⟨checked, named⟩] at same
        have empty : "" = (s.lease x).hostname := congrArg (·.hostname) same
        simp [sharesHostname, ← named, ← empty]
      · simp [sharesHostname, named]
  · rintro ⟨untouched, settled⟩
    obtain ⟨hosts, ips, offsets⟩ := processed.untouched untouched
    refine ⟨?_, ?_, hosts, ips, offsets⟩
    · rw [processed.leases]
      exact sweep_kept_all untouched
    · intro x member
      rw [processed.objects x member]
      apply cleared_settled
      intro y checked named
      simpa [sharesHostname, named] using settled y checked

/-- After the loop `addLease` takes the static lease in unless it rejects it. -/
theorem addLease_static (isStatic : (t.lease x).isStatic = true) :
    (t.addLease x).2 = .ok () ↔ t.conf.subnet.contains (t.lease x).ip = true ∧
      ((t.lease x).hostname = "" ∨ (t.hostsIndex.get (t.lease x).hostname).isSome = false) := by
  unfold addLease
  dsimp only
  split
  · rename_i outside
    simp only [isStatic, Bool.true_and, Bool.not_eq_true'] at outside
    simp [outside]
  rename_i inside
  split
  · rename_i dynamic
    simp [isStatic] at dynamic
  split
  · rename_i duplicated
    simp [duplicated]
  · rename_i unique
    simp only [isStatic, Bool.true_and, Bool.not_eq_true', Bool.not_eq_false] at inside
    simp only [inside, true_and, true_iff]
    by_cases empty : (t.lease x).hostname = ""
    · exact .inl empty
    · exact .inr (by simpa [empty] using unique)

def Accepts (t : V4Server) (lease : Lease) : Prop :=
  t.conf.subnet.contains lease.ip = true ∧
    (lease.hostname = "" ∨ (t.hostsIndex.get lease.hostname).isSome = false)

/-- How `AddStaticLease` ends when the loop left `t`. -/
inductive Ends (s t : V4Server) (lease : Lease) : V4Server → Except Error Unit → Prop
  | refused (stopped : (s.swept lease).refused = true) :
      Ends s t lease t (.error .staticLeaseExists)
  | rejected {error : Error} (finished : (s.swept lease).refused = false)
      (rejects : ¬ t.Accepts lease) : Ends s t lease t (.error error)
  | added {u : V4Server} (finished : (s.swept lease).refused = false) (accepts : t.Accepts lease)
      (leases : u.leases = t.leases ++ [s.heap.size]) (objects : ∀ x, u.lease x = t.lease x) :
      Ends s t lease u (.ok ())

theorem addStaticLease_ends (known : ∀ x ∈ s.leases, x < s.heap.size)
    (valid : s.checkStaticLease env l = .ok lease) :
    ∃ t, Processed s t lease ∧
      Ends s t lease (s.addStaticLease env l).1 (s.addStaticLease env l).2 := by
  obtain ⟨processed, ends⟩ := rmDynamicLease_processed known lease
  refine ⟨_, processed, ?_⟩
  have isStatic := (checkStaticLease_spec valid).2
  unfold addStaticLease
  rw [valid]
  dsimp only [alloc_ref]
  rw [← withObject]
  unfold updateStaticLease
  cases loop : (s.withObject lease).rmDynamicLease s.heap.size with
  | mk t rest =>
    obtain ⟨slots, result⟩ := rest
    rw [loop] at processed ends
    dsimp only at processed ends ⊢
    cases refused : (s.swept lease).refused with
    | true =>
      simp only [refused, ↓reduceIte] at ends
      subst ends
      exact .refused refused
    | false =>
      simp only [refused, Bool.false_eq_true, ↓reduceIte] at ends
      subst ends
      have taken := addLease_static (t := t) (x := s.heap.size) (by rw [processed.new, isStatic])
      rw [processed.new] at taken
      have objects := addLease_lease t s.heap.size
      rcases addLease_cases t s.heap.size with ⟨unchanged, failed⟩ | ⟨leases, result, _⟩
      · rw [unchanged]
        cases outcome : (t.addLease s.heap.size).2 with
        | error error => exact .rejected refused fun accepts => failed (taken.mpr accepts)
        | ok done => exact absurd outcome failed
      · rw [result]
        exact .added refused (taken.mp result) leases objects

theorem Processed.accepts_iff (processed : Processed s t lease)
    (spread : Spread (s.sharesAddress lease) s.static s.leases) :
    t.Accepts lease ↔ ¬ s.Rejects lease := by
  have hosts := processed.hosts (fun x checked => ((spread.checked x).mp checked).2.1)
    lease.hostname
  have removed : (∀ x ∈ (s.swept lease).removed, (s.lease x).hostname ≠ lease.hostname) ↔
      ∀ x ∈ s.leases, s.sharesAddress lease x = true → (s.lease x).hostname ≠ lease.hostname := by
    rw [swept, spread.kept.2.2]
    simp only [List.mem_filter, and_imp]
  rw [removed] at hosts
  rw [Accepts, Rejects, processed.conf, not_or, ← hosts]
  simp only [Bool.not_eq_false, ne_eq, not_and, Bool.not_eq_true]
  rw [Decidable.or_iff_not_imp_left]

theorem Processed.unchanged_of_refused (processed : Processed s t lease)
    (stopped : (s.swept lease).refused = true) (unchanged : Unchanged s t) : s.Addable lease := by
  obtain ⟨untouched, settled⟩ := processed.unchanged_iff.mp unchanged
  rcases sweep_untouched untouched with ⟨ends, _⟩ | ⟨front, x, back, split, before, same, stays⟩
  · rw [swept, ends] at stopped
    cases stopped
  · refine .refused front back x split same stays before ?_
    rw [swept, split, sweep_append s.static before, sweep_refuse same stays] at settled
    intro y member dynamic
    exact settled y (by simp [member, dynamic])

/-- The table that a loop without a match leaves and `addLease` rejects. -/
theorem Processed.unchanged_of_rejected (processed : Processed s t lease)
    (finished : (s.swept lease).refused = false) (rejects : ¬ t.Accepts lease)
    (named : ∃ x ∈ s.leases, s.static x = true ∧ s.shares lease x = true)
    (unchanged : Unchanged s t) : s.Addable lease := by
  obtain ⟨untouched, settled⟩ := processed.unchanged_iff.mp unchanged
  rcases sweep_untouched untouched with ⟨_, clean⟩ | ⟨front, x, back, split, before, same, stays⟩
  · rw [processed.accepts_iff (spread_of_clean clean), not_not] at rejects
    rw [swept, sweep_clean clean] at settled
    refine .rejected clean rejects ?_ ?_
    · obtain ⟨x, member, static, shared⟩ := named
      rw [shares, clean x member, Bool.false_or] at shared
      exact ⟨x, member, static, shared⟩
    · intro y member dynamic
      exact settled y (by simp [member, dynamic])
  · rw [swept, split, sweep_append s.static before, sweep_refuse same stays] at finished
    cases finished

/-- What the elements that stay share with the lease in the end. -/
theorem Processed.shares_false (processed : Processed s t lease) (member : x ∈ s.leases)
    (different : s.sharesAddress lease x = false)
    (settled : s.sharesHostname lease x = true → x ∈ (s.swept lease).checked) :
    t.shares lease x = false := by
  rw [shares, processed.sharesAddress member, different, Bool.false_or]
  by_contra shared
  rw [Bool.not_eq_false, sharesHostname, Bool.and_eq_true, decide_eq_true_eq, beq_iff_eq,
    processed.objects x member] at shared
  obtain ⟨nonempty, named⟩ := shared
  refine nonempty (cleared_hostname ?_ named)
  by_cases before : (s.lease x).hostname = lease.hostname
  · exact .inl (settled (by simp [sharesHostname, nonempty, before]))
  · exact .inr fun here => absurd here before

theorem Processed.addable_of_added (processed : Processed s t lease)
    (finished : (s.swept lease).refused = false) (accepts : t.Accepts lease)
    (apart : ∀ y ∈ t.leases, t.shares lease y = false) : s.Addable lease := by
  have kept : ∀ x ∈ (s.swept lease).kept, x ∈ s.leases ∧ t.shares lease x = false := by
    intro x member
    refine ⟨(sweep_kept s.leases).subset member, apart x ?_⟩
    rwa [processed.leases]
  have spread : Spread (s.sharesAddress lease) s.static s.leases := by
    refine spread_of_sweep finished ?_
    intro x member
    obtain ⟨inside, different⟩ := kept x member
    rw [shares, Bool.or_eq_false_iff, processed.sharesAddress inside] at different
    exact different.1
  refine .accepted spread ((processed.accepts_iff spread).mp accepts) ?_
  intro x member static named
  have different : s.sharesAddress lease x = false := by
    by_contra same
    have loose := spread.1 x member (by simpa using same)
    rw [static] at loose
    cases loose
  have stays : x ∈ (s.swept lease).kept := by
    rw [swept, spread.kept.2.1]
    simp [member, different]
  have looked : x ∈ (s.swept lease).checked := by
    by_contra unseen
    have settled := (kept x stays).2
    rw [shares, Bool.or_eq_false_iff, V4Server.sharesHostname, processed.objects x member, cleared,
      if_neg fun both => unseen both.1] at settled
    rw [V4Server.sharesHostname, settled.2] at named
    cases named
  rcases ((spread.checked x).mp looked).2.2 with loose | follows
  · rw [static] at loose
    cases loose
  · exact follows

theorem Processed.stays (processed : Processed s t lease)
    (spread : Spread (s.sharesAddress lease) s.static s.leases) :
    x ∈ t.leases ↔ x ∈ s.leases ∧ s.sharesAddress lease x = false := by
  rw [processed.leases, swept, spread.kept.2.1]
  simp

/-- A dynamic lease with other addresses only loses the hostname of the new lease. -/
theorem Processed.dynamic (processed : Processed s t lease)
    (spread : Spread (s.sharesAddress lease) s.static s.leases) (member : x ∈ s.leases)
    (dynamic : s.static x = false) (different : s.sharesAddress lease x = false) :
    t.lease x = if (s.lease x).hostname = lease.hostname then { s.lease x with hostname := "" }
      else s.lease x := by
  have looked : x ∈ (s.swept lease).checked :=
    (spread.checked x).mpr ⟨member, different, .inl dynamic⟩
  rw [processed.objects x member, cleared]
  simp only [looked, true_and]

theorem Addable.of_addsStatic {t u : V4Server} (processed : Processed s t lease)
    (ends : Ends s t lease u result) (adds : AddsStatic s lease u result) : s.Addable lease := by
  cases ends with
  | refused stopped => exact processed.unchanged_of_refused stopped (adds.failed (by simp))
  | rejected finished rejects =>
    refine processed.unchanged_of_rejected finished rejects ?_ (adds.failed (by simp))
    by_contra none
    push Not at none
    have accepted := (adds.succeeds fun y member static => by simpa using none y member static).1
    cases accepted
  | added finished accepts leases objects =>
    obtain ⟨kept, x, appended, _, _, apart, _⟩ := adds.added rfl
    rw [leases] at appended
    obtain ⟨rfl, _⟩ := List.append_inj' appended rfl
    refine processed.addable_of_added finished accepts ?_
    intro y member
    have different := apart y member
    simp only [shares, sharesAddress, sharesHostname, objects] at different ⊢
    exact different

/-- An error leaves nothing to promise when a static lease shares something. -/
theorem AddsStatic.of_unchanged (failed : result ≠ .ok ()) (unchanged : Unchanged s t)
    (barred : ∃ x ∈ s.leases, s.static x = true ∧ s.shares lease x = true) :
    AddsStatic s lease t result where
  added := fun success => absurd success failed
  succeeds := by
    obtain ⟨x, member, static, shared⟩ := barred
    intro apart
    rw [apart x member static] at shared
    cases shared
  failed := fun _ => unchanged

theorem AddsStatic.of_accepted {u : V4Server} (known : ∀ x ∈ s.leases, x < s.heap.size)
    (processed : Processed s t lease) (ends : Ends s t lease u result)
    (spread : Spread (s.sharesAddress lease) s.static s.leases) (admitted : ¬ s.Rejects lease)
    (followed : ∀ x ∈ s.leases, s.static x = true → s.sharesHostname lease x = true →
      Behind (s.sharesAddress lease) s.leases x) : AddsStatic s lease u result := by
  have accepts := (processed.accepts_iff spread).mpr admitted
  cases ends with
  | refused stopped =>
    rw [swept, spread.kept.1] at stopped
    cases stopped
  | rejected finished rejects => exact absurd accepts rejects
  | added finished _ leases objects =>
    have stays : ∀ y ∈ s.leases, s.sharesAddress lease y = false → y ∈ u.leases := by
      intro y member different
      rw [leases]
      exact List.mem_append_left _ ((processed.stays spread).mpr ⟨member, different⟩)
    refine ⟨fun _ => ⟨t.leases, s.heap.size, leases, ?_, ?_, ?_, ?_⟩, fun _ => ⟨rfl, ?_⟩, ?_⟩
    · exact fun member => Nat.lt_irrefl _ (known _ member)
    · rw [objects, processed.new]
    · intro y member
      obtain ⟨inside, different⟩ := (processed.stays spread).mp member
      have apart : t.shares lease y = false := by
        refine processed.shares_false inside different fun named => ?_
        refine (spread.checked y).mpr ⟨inside, different, ?_⟩
        cases static : s.static y with
        | false => exact .inl rfl
        | true => exact .inr (followed y inside static named)
      simp only [shares, sharesAddress, sharesHostname, objects] at apart ⊢
      exact apart
    · intro y member dynamic apart
      rw [shares, Bool.or_eq_false_iff] at apart
      refine ⟨stays y member apart.1, ?_⟩
      rw [objects, processed.dynamic spread member dynamic apart.1]
      split
      · rename_i named
        have empty : lease.hostname = "" := by simpa [sharesHostname, named] using apart.2
        rw [← empty, ← named]
      · rfl
    · intro y member dynamic different named
      refine ⟨stays y member different, ?_⟩
      rw [objects, processed.dynamic spread member dynamic different, if_pos]
      simp only [sharesHostname, Bool.and_eq_true, beq_iff_eq] at named
      exact named.2
    · exact fun failed => absurd rfl failed

theorem AddsStatic.of_rejected {u : V4Server} (processed : Processed s t lease)
    (ends : Ends s t lease u result) (clean : ∀ x ∈ s.leases, s.sharesAddress lease x = false)
    (rejects : s.Rejects lease)
    (named : ∃ x ∈ s.leases, s.static x = true ∧ s.sharesHostname lease x = true)
    (settled : ∀ x ∈ s.leases, s.static x = false → s.sharesHostname lease x = false) :
    AddsStatic s lease u result := by
  have sweep : sweep (s.sharesAddress lease) s.static s.leases = _ := sweep_clean clean
  cases ends with
  | refused stopped =>
    rw [swept, sweep] at stopped
    cases stopped
  | rejected finished refuses =>
    obtain ⟨x, member, static, shared⟩ := named
    refine .of_unchanged (by simp) ?_ ⟨x, member, static, by simp [shares, shared]⟩
    rw [processed.unchanged_iff, swept, sweep]
    refine ⟨rfl, ?_⟩
    intro y checked
    obtain ⟨inside, dynamic⟩ := List.mem_filter.mp checked
    exact settled y inside (by simpa using dynamic)
  | added finished accepts =>
    exact absurd rejects ((processed.accepts_iff (spread_of_clean clean)).mp accepts)

theorem AddsStatic.of_refused {u : V4Server} (processed : Processed s t lease)
    (ends : Ends s t lease u result) {front back : List Ref} (split : s.leases = front ++ x :: back)
    (same : s.sharesAddress lease x = true) (stays : s.static x = true)
    (before : ∀ y ∈ front, s.sharesAddress lease y = false)
    (settled : ∀ y ∈ front, s.static y = false → s.sharesHostname lease y = false) :
    AddsStatic s lease u result := by
  have swept : s.swept lease =
      ⟨front ++ x :: back, [], front.filter (fun y => !s.static y), true⟩ := by
    rw [V4Server.swept, split, sweep_append s.static before, sweep_refuse same stays]
    simp
  cases ends with
  | refused stopped =>
    refine .of_unchanged (by simp) ?_ ⟨x, by simp [split], stays, by simp [shares, same]⟩
    rw [processed.unchanged_iff, swept]
    refine ⟨rfl, ?_⟩
    intro y checked
    obtain ⟨inside, dynamic⟩ := List.mem_filter.mp checked
    exact settled y inside (by simpa using dynamic)
  | rejected finished =>
    rw [swept] at finished
    cases finished
  | added finished =>
    rw [swept] at finished
    cases finished

/-- Adding a valid static lease keeps its promises exactly for the tables that allow it. -/
theorem addStaticLease_addable_iff (known : ∀ x ∈ s.leases, x < s.heap.size)
    (valid : s.checkStaticLease env l = .ok lease) :
    AddsStatic s lease (s.addStaticLease env l).1 (s.addStaticLease env l).2 ↔
      s.Addable lease := by
  obtain ⟨t, processed, ends⟩ := addStaticLease_ends known valid
  refine ⟨.of_addsStatic processed ends, ?_⟩
  intro addable
  cases addable with
  | accepted spread admitted followed =>
    exact .of_accepted known processed ends spread admitted followed
  | rejected clean rejects named settled =>
    exact .of_rejected processed ends clean rejects named settled
  | refused front back x split same stays before settled =>
    exact .of_refused processed ends split same stays before settled

section Examples

private def permissiveEnv : Env :=
  ⟨id, fun _ => true, fun _ => true, fun mac => mac.length == 6⟩

private theorem home_zoneless : (Addr.v4 0xc0a80101).zone = "" := rfl

private theorem home_is4 : (⟨.v4 0xc0a80101, 24, home_zoneless⟩ : Prefix).addr.is4 = true := rfl

private theorem home_ordered : (0xc0a80164 : BitVec 32) < 0xc0a80165 := by decide

private def homeSubnet : V4ServerConf where
  gatewayIP := .v4 0xc0a80101
  subnet := ⟨.v4 0xc0a80101, 24, home_zoneless⟩
  subnet4 := home_is4
  ipRange := ⟨0xc0a80164, 0xc0a80165, home_ordered⟩
  leaseTime := 3600
  dnsIPAddr := 0xc0a80101

private def onePC : V4Server :=
  (new homeSubnet).resetLeases permissiveEnv
    [⟨.v4 0xc0a80164, 3600, "pc", [2, 0, 0, 0, 0, 1], false⟩]

private def otherPC (hostname : String) : Lease :=
  ⟨.v4 0xc0a80165, 0, hostname, [2, 0, 0, 0, 0, 2], true⟩

/-- A static lease takes the address of a dynamic one. -/
theorem addStaticLease_addable_other :
    AddsStatic onePC { otherPC "nas" with ip := .v4 0xc0a80164 }
        (onePC.addStaticLease permissiveEnv { otherPC "nas" with ip := .v4 0xc0a80164 }).1
        (onePC.addStaticLease permissiveEnv { otherPC "nas" with ip := .v4 0xc0a80164 }).2 ∧
      (onePC.addStaticLease permissiveEnv { otherPC "nas" with ip := .v4 0xc0a80164 }).2 = .ok () := by
  refine ⟨(addStaticLease_addable_iff (by decide) (by decide)).mpr (.accepted ?_ ?_ ?_), by decide⟩
  · exact ⟨by decide, .singleton _⟩
  · rintro (outside | ⟨_, known, _⟩)
    · exact absurd outside (by decide)
    · exact absurd known (by decide)
  · intro x member fixed
    exact absurd fixed (by revert x; decide)

/-- A dynamic lease loses its hostname and still keeps a static lease from having it. -/
theorem emptied_hostname_stays_indexed :
    ¬ AddsStatic onePC (otherPC "pc")
      (onePC.addStaticLease permissiveEnv (otherPC "pc")).1
      (onePC.addStaticLease permissiveEnv (otherPC "pc")).2 := by
  intro adds
  have succeeds := (adds.succeeds (by decide)).1
  revert succeeds
  decide

end Examples

end V4Server

end AdGuardHome.Dhcpd
