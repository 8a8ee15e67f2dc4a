import AdGuardHome.Dhcpd.V4Consistent

namespace AdGuardHome.Dhcpd

open Heap
open Dhcpsvc (Lease Time Duration)

namespace V4Server

theorem emptyHostname_lease (s : V4Server) (isStatic : Bool) (l lease other : Ref) :
    ∃ hostname, (s.emptyHostname isStatic l lease).lease other =
      { s.lease other with hostname } := by
  unfold emptyHostname
  split
  · by_cases known : l < s.heap.size
    · rw [lease_setLease known]
      split
      · rename_i here
        exact ⟨"", by rw [here]⟩
      · exact ⟨_, rfl⟩
    · rw [setLease_unknown (Nat.le_of_not_lt known)]
      exact ⟨_, rfl⟩
  · exact ⟨_, rfl⟩

theorem emptyHostname_frame (s : V4Server) (isStatic : Bool) (l lease : Ref) :
    (s.emptyHostname isStatic l lease).conf = s.conf ∧
      (s.emptyHostname isStatic l lease).leases = s.leases ∧
      (s.emptyHostname isStatic l lease).heap.size = s.heap.size := by
  unfold emptyHostname
  split
  · exact ⟨rfl, rfl, by simp [setLease]⟩
  · exact ⟨rfl, rfl, rfl⟩

theorem Consistent.emptyHostname {s : V4Server} (consistent : s.Consistent) (isStatic : Bool)
    (l lease : Ref) : (s.emptyHostname isStatic l lease).Consistent := by
  unfold V4Server.emptyHostname
  split
  · exact consistent.setLease l fun _ => ⟨rfl, rfl⟩
  · exact consistent

@[simp] theorem rmLeaseByIndex_leases (s : V4Server) (i : Nat) :
    (s.rmLeaseByIndex i).leases = s.leases.eraseIdx i := by
  unfold rmLeaseByIndex
  split
  · rename_i outside
    rw [List.eraseIdx_of_length_le (List.getElem?_eq_none_iff.mp outside)]
  · rfl

theorem rmLeaseByIndex_frame (s : V4Server) (i : Nat) :
    (s.rmLeaseByIndex i).conf = s.conf ∧ (s.rmLeaseByIndex i).heap = s.heap := by
  unfold rmLeaseByIndex
  split
  · exact ⟨rfl, rfl⟩
  · exact ⟨rfl, rfl⟩

@[simp] theorem rmLeaseByIndex_lease (s : V4Server) (i : Nat) (l : Ref) :
    (s.rmLeaseByIndex i).lease l = s.lease l := by
  rw [lease, lease, (rmLeaseByIndex_frame s i).2]

section Rounds

variable {lease : Ref} {count i : Nat} {slots : List Ref} {s : V4Server}

/-- The round of a static lease that shares an address ends the loop. -/
theorem rmDynamicLoop_refuse (same : sameAs (s.lease (slots.getD i 0)) (s.lease lease) = true)
    (static : (s.lease (slots.getD i 0)).isStatic = true) :
    rmDynamicLoop lease (count + 1) i slots s = (s, slots, .error .staticLeaseExists) := by
  simp only [rmDynamicLoop, same, static, ↓reduceIte]

/-- The round of a lease with other addresses. -/
theorem rmDynamicLoop_pass (different : sameAs (s.lease (slots.getD i 0)) (s.lease lease) = false) :
    rmDynamicLoop lease (count + 1) i slots s =
      rmDynamicLoop lease count (i + 1) slots
        (s.emptyHostname (s.lease (slots.getD i 0)).isStatic (slots.getD i 0) lease) := by
  simp only [rmDynamicLoop, different, Bool.false_eq_true, ↓reduceIte]

/-- The round that removes the last lease, or finds nothing to remove right behind it. -/
theorem rmDynamicLoop_last (same : sameAs (s.lease (slots.getD i 0)) (s.lease lease) = true)
    (dynamic : (s.lease (slots.getD i 0)).isStatic = false)
    (last : i = (s.rmLeaseByIndex i).leases.length) :
    rmDynamicLoop lease (count + 1) i slots s =
      (s.rmLeaseByIndex i,
        if i < s.leases.length then shift slots s.leases.length i else slots, .ok ()) := by
  simp only [rmDynamicLoop, same, dynamic, Bool.false_eq_true, ↓reduceIte, if_pos last]

/-- The round that removes a lease and goes on with the one that moved up. -/
theorem rmDynamicLoop_remove {b : Ref}
    (same : sameAs (s.lease (slots.getD i 0)) (s.lease lease) = true)
    (dynamic : (s.lease (slots.getD i 0)).isStatic = false)
    (next : (s.rmLeaseByIndex i).leases[i]? = some b) :
    rmDynamicLoop lease (count + 1) i slots s =
      rmDynamicLoop lease count (i + 1)
        (if i < s.leases.length then shift slots s.leases.length i else slots)
        ((s.rmLeaseByIndex i).emptyHostname false b lease) := by
  have more : i ≠ (s.rmLeaseByIndex i).leases.length :=
    Nat.ne_of_lt (List.getElem?_eq_some_iff.mp next).1
  simp only [rmDynamicLoop, same, dynamic, Bool.false_eq_true, ↓reduceIte, if_neg more, next]

end Rounds

/-- The rounds of the loop, up to what it returns. -/
inductive Rounds (lease : Ref) : Nat → Nat → List Ref → V4Server →
    V4Server × List Ref × Except Error Unit → Prop
  | done {i slots s} : Rounds lease 0 i slots s (s, slots, .ok ())
  | refuse {count i slots s} (same : sameAs (s.lease (slots.getD i 0)) (s.lease lease) = true)
    (static : (s.lease (slots.getD i 0)).isStatic = true) :
    Rounds lease (count + 1) i slots s (s, slots, .error .staticLeaseExists)
  | last {count i slots s} (same : sameAs (s.lease (slots.getD i 0)) (s.lease lease) = true)
    (dynamic : (s.lease (slots.getD i 0)).isStatic = false)
    (last : i = (s.rmLeaseByIndex i).leases.length) :
    Rounds lease (count + 1) i slots s (s.rmLeaseByIndex i,
      if i < s.leases.length then shift slots s.leases.length i else slots, .ok ())
  | beyond {count i slots s} (same : sameAs (s.lease (slots.getD i 0)) (s.lease lease) = true)
    (dynamic : (s.lease (slots.getD i 0)).isStatic = false)
    (none : (s.rmLeaseByIndex i).leases[i]? = none) :
    Rounds lease (count + 1) i slots s (s.rmLeaseByIndex i,
      if i < s.leases.length then shift slots s.leases.length i else slots, .error .indexPanic)
  | remove {count i slots s b result}
    (same : sameAs (s.lease (slots.getD i 0)) (s.lease lease) = true)
    (dynamic : (s.lease (slots.getD i 0)).isStatic = false)
    (next : (s.rmLeaseByIndex i).leases[i]? = some b)
    (rest : Rounds lease count (i + 1)
      (if i < s.leases.length then shift slots s.leases.length i else slots)
      ((s.rmLeaseByIndex i).emptyHostname false b lease) result) :
    Rounds lease (count + 1) i slots s result
  | pass {count i slots s result}
    (different : sameAs (s.lease (slots.getD i 0)) (s.lease lease) = false)
    (rest : Rounds lease count (i + 1) slots
      (s.emptyHostname (s.lease (slots.getD i 0)).isStatic (slots.getD i 0) lease) result) :
    Rounds lease (count + 1) i slots s result

theorem rounds_rmDynamicLoop (lease : Ref) (count i : Nat) (slots : List Ref) (s : V4Server) :
    Rounds lease count i slots s (rmDynamicLoop lease count i slots s) := by
  induction count generalizing i slots s with
  | zero => exact .done
  | succ count ih =>
    cases same : sameAs (s.lease (slots.getD i 0)) (s.lease lease) with
    | false =>
      rw [rmDynamicLoop_pass same]
      exact .pass same (ih _ _ _)
    | true =>
      cases static : (s.lease (slots.getD i 0)).isStatic with
      | true =>
        rw [rmDynamicLoop_refuse same static]
        exact .refuse same static
      | false =>
        by_cases last : i = (s.rmLeaseByIndex i).leases.length
        · rw [rmDynamicLoop_last same static last]
          exact .last same static last
        · cases next : (s.rmLeaseByIndex i).leases[i]? with
          | none =>
            simp only [rmDynamicLoop, same, static, Bool.false_eq_true, ↓reduceIte, if_neg last, next]
            exact .beyond same static next
          | some b =>
            rw [rmDynamicLoop_remove same static next]
            exact .remove same static next (ih _ _ _)

/-- `t` is `s` without some of the dynamic leases that share an address with the given
one; hostnames may be gone. -/
structure Trimmed (lease : Ref) (s t : V4Server) : Prop where
  conf : t.conf = s.conf
  size : t.heap.size = s.heap.size
  objects : ∀ l, ∃ hostname, t.lease l = { s.lease l with hostname }
  fewer : t.leases.Sublist s.leases
  kept : ∀ l ∈ s.leases,
    sameAs (s.lease l) (s.lease lease) = false ∨ (s.lease l).isStatic = true → l ∈ t.leases

namespace Trimmed

theorem refl (lease : Ref) (s : V4Server) : Trimmed lease s s :=
  ⟨rfl, rfl, fun _ => ⟨_, rfl⟩, .refl _, fun _ member _ => member⟩

variable {lease : Ref} {s t : V4Server}

theorem ip (trimmed : Trimmed lease s t) (l : Ref) : (t.lease l).ip = (s.lease l).ip := by
  obtain ⟨hostname, same⟩ := trimmed.objects l
  rw [same]

theorem hwAddr (trimmed : Trimmed lease s t) (l : Ref) :
    (t.lease l).hwAddr = (s.lease l).hwAddr := by
  obtain ⟨hostname, same⟩ := trimmed.objects l
  rw [same]

theorem isStatic (trimmed : Trimmed lease s t) (l : Ref) :
    (t.lease l).isStatic = (s.lease l).isStatic := by
  obtain ⟨hostname, same⟩ := trimmed.objects l
  rw [same]

theorem sameAs (trimmed : Trimmed lease s t) (l : Ref) :
    V4Server.sameAs (t.lease l) (t.lease lease) =
      V4Server.sameAs (s.lease l) (s.lease lease) := by
  simp only [V4Server.sameAs, trimmed.ip, trimmed.hwAddr]

theorem trans {u : V4Server} (first : Trimmed lease s t) (second : Trimmed lease t u) :
    Trimmed lease s u where
  conf := second.conf.trans first.conf
  size := second.size.trans first.size
  objects := by
    intro l
    obtain ⟨one, before⟩ := first.objects l
    obtain ⟨two, after⟩ := second.objects l
    exact ⟨two, by rw [after, before]⟩
  fewer := second.fewer.trans first.fewer
  kept := by
    intro l member stays
    refine second.kept l (first.kept l member stays) ?_
    rwa [first.sameAs, first.isStatic]

theorem emptyHostname (s : V4Server) (isStatic : Bool) (l lease : Ref) :
    Trimmed lease s (s.emptyHostname isStatic l lease) := by
  obtain ⟨conf, leases, size⟩ := emptyHostname_frame s isStatic l lease
  refine ⟨conf, size, emptyHostname_lease s isStatic l lease, ?_, ?_⟩
  · rw [leases]
  · intro other member _
    rwa [leases]

theorem rmLeaseByIndex {i : Nat} (gone : ∀ l, s.leases[i]? = some l →
    V4Server.sameAs (s.lease l) (s.lease lease) = true ∧ (s.lease l).isStatic = false) :
    Trimmed lease s (s.rmLeaseByIndex i) := by
  refine ⟨(rmLeaseByIndex_frame s i).1, by rw [(rmLeaseByIndex_frame s i).2], ?_, ?_, ?_⟩
  · intro other
    exact ⟨_, by rw [rmLeaseByIndex_lease]⟩
  · rw [rmLeaseByIndex_leases]
    exact List.eraseIdx_sublist _ _
  · intro l member stays
    rw [rmLeaseByIndex_leases, List.mem_eraseIdx_iff_getElem?]
    obtain ⟨j, here⟩ := List.mem_iff_getElem?.mp member
    refine ⟨j, ?_, here⟩
    rintro rfl
    obtain ⟨same, dynamic⟩ := gone l here
    rw [same, dynamic] at stays
    simp at stays

end Trimmed

variable {lease : Ref} {count i : Nat} {slots : List Ref} {s t : V4Server}

theorem Consistent.rmDynamicLoop
    (consistent : s.Consistent) : (rmDynamicLoop lease count i slots s).1.Consistent := by
  have rounds := rounds_rmDynamicLoop lease count i slots s
  generalize V4Server.rmDynamicLoop lease count i slots s = result at rounds ⊢
  induction rounds with
  | done => exact consistent
  | refuse same static => exact consistent
  | last same dynamic last => exact consistent.rmLeaseByIndex _
  | beyond same dynamic none => exact consistent.rmLeaseByIndex _
  | remove same dynamic next rest ih =>
    exact ih ((consistent.rmLeaseByIndex _).emptyHostname _ _ lease)
  | pass different rest ih => exact ih (consistent.emptyHostname _ _ lease)

theorem Consistent.rmDynamicLease (consistent : s.Consistent) (lease : Ref) :
    (s.rmDynamicLease lease).1.Consistent :=
  consistent.rmDynamicLoop

/-- `slots` still shows the leases of the table at the indexes the table has. -/
def Mirrors (slots : List Ref) (s : V4Server) : Prop :=
  ∀ i < s.leases.length, slots[i]? = s.leases[i]?

theorem Mirrors.shift (mirrors : Mirrors slots s) (inside : i < s.leases.length) :
    Mirrors (shift slots s.leases.length i) (s.rmLeaseByIndex i) := by
  have whole : slots.take s.leases.length = s.leases := by
    apply List.ext_getElem?
    intro j
    by_cases live : j < s.leases.length
    · rw [List.getElem?_take_of_lt live, mirrors j live]
    · rw [List.getElem?_eq_none_iff.mpr (by rw [List.length_take]; omega),
        List.getElem?_eq_none_iff.mpr (Nat.le_of_not_lt live)]
  have front : slots.take i ++ (slots.take s.leases.length).drop (i + 1) =
      s.leases.eraseIdx i := by
    rw [List.eraseIdx_eq_take_drop_succ]
    congr 1
    · rw [← whole, List.take_take, Nat.min_eq_left (Nat.le_of_lt inside)]
    · rw [whole]
  intro j live
  rw [rmLeaseByIndex_leases] at live ⊢
  rw [V4Server.shift, front, List.getElem?_append_left live]

theorem Mirrors.emptyHostname (mirrors : Mirrors slots s) (isStatic : Bool)
    (l lease : Ref) : Mirrors slots (s.emptyHostname isStatic l lease) := by
  intro i live
  rw [(emptyHostname_frame s isStatic l lease).2.1] at live ⊢
  exact mirrors i live

theorem Mirrors.removed (mirrors : Mirrors slots s) (i : Nat) :
    Mirrors (if i < s.leases.length then V4Server.shift slots s.leases.length i else slots)
      (s.rmLeaseByIndex i) := by
  split
  · rename_i inside
    exact mirrors.shift inside
  · rename_i outside
    intro j live
    rw [rmLeaseByIndex_leases, List.eraseIdx_of_length_le (Nat.le_of_not_lt outside)] at live ⊢
    exact mirrors j live

theorem Mirrors.getD (mirrors : Mirrors slots s) {l : Ref}
    (here : s.leases[i]? = some l) : slots.getD i 0 = l := by
  obtain ⟨live, _⟩ := List.getElem?_eq_some_iff.mp here
  rw [List.getD_eq_getElem?_getD, mirrors i live, here]
  rfl

theorem Trimmed.rmDynamicLoop
    (mirrors : Mirrors slots s) : Trimmed lease s (rmDynamicLoop lease count i slots s).1 := by
  have removed : ∀ {i slots} {s : V4Server}, Mirrors slots s →
      V4Server.sameAs (s.lease (slots.getD i 0)) (s.lease lease) = true →
      (s.lease (slots.getD i 0)).isStatic = false → Trimmed lease s (s.rmLeaseByIndex i) := by
    intro i slots s mirrors same dynamic
    apply Trimmed.rmLeaseByIndex
    intro l here
    rw [← mirrors.getD here]
    exact ⟨same, dynamic⟩
  have rounds := rounds_rmDynamicLoop lease count i slots s
  generalize V4Server.rmDynamicLoop lease count i slots s = result at rounds ⊢
  induction rounds with
  | done => exact .refl lease _
  | refuse same static => exact .refl lease _
  | last same dynamic last => exact removed mirrors same dynamic
  | beyond same dynamic none => exact removed mirrors same dynamic
  | remove same dynamic next rest ih =>
    exact ((removed mirrors same dynamic).trans (.emptyHostname _ _ _ lease)).trans
      (ih ((mirrors.removed _).emptyHostname _ _ lease))
  | pass different rest ih =>
    exact Trimmed.trans (.emptyHostname _ _ _ lease) (ih (mirrors.emptyHostname _ _ lease))

theorem Trimmed.rmDynamicLease (s : V4Server) (lease : Ref) :
    Trimmed lease s (s.rmDynamicLease lease).1 :=
  Trimmed.rmDynamicLoop fun _ _ => rfl

/-- A lease that must not stay in the table when the given one is added. -/
def Clashes (lease l : Lease) : Prop :=
  l.ip = lease.ip ∨ l.hwAddr = lease.hwAddr ∧ isBlocklisted l = false

/-- From the index on, no clash directly follows a dynamic lease that shares an address
with the given one. -/
def NothingHidden (s : V4Server) (lease : Lease) (i : Nat) : Prop :=
  ∀ j ≥ i, ∀ a b, s.leases[j]? = some a → s.leases[j + 1]? = some b →
    (s.lease a).isStatic = false → sameAs (s.lease a) lease = true → ¬ Clashes lease (s.lease b)

theorem not_clashes {lease l : Lease} (different : sameAs l lease = false) :
    ¬ Clashes lease l := by
  simp only [sameAs, Bool.or_eq_false_iff, beq_eq_false_iff_ne] at different
  rintro (ip | ⟨mac, _⟩)
  · exact different.2 ip
  · exact different.1 mac

theorem Trimmed.clashes (trimmed : Trimmed lease s t) (l : Ref) :
    Clashes (t.lease lease) (t.lease l) ↔ Clashes (s.lease lease) (s.lease l) := by
  simp only [Clashes, isBlocklisted, trimmed.ip, trimmed.hwAddr]

/-- What holds when the loop reaches an index: its array shows the table, no lease before the
index clashes with the given one, and nothing is hidden from the index on. -/
structure Sweeping (s : V4Server) (lease : Ref) (slots : List Ref) (i : Nat) : Prop where
  mirrors : Mirrors slots s
  passed : ∀ j < i, ∀ l, s.leases[j]? = some l → ¬ Clashes (s.lease lease) (s.lease l)
  shown : s.NothingHidden (s.lease lease) i

theorem Sweeping.start (shown : s.NothingHidden (s.lease lease) 0) :
    Sweeping s lease s.leases 0 where
  mirrors := fun _ _ => rfl
  passed := fun _ below => absurd below (Nat.not_lt_zero _)
  shown := shown

/-- A table whose neighbours were neighbours before hides nothing that was not hidden. -/
theorem NothingHidden.trimmed {i k : Nat} (shown : s.NothingHidden (s.lease lease) i)
    (trimmed : Trimmed lease s t)
    (behind : ∀ j ≥ k, ∃ m ≥ i, t.leases[j]? = s.leases[m]? ∧
      t.leases[j + 1]? = s.leases[m + 1]?) :
    t.NothingHidden (t.lease lease) k := by
  intro j above a b first second dynamic same
  obtain ⟨j', inside, atFirst, atSecond⟩ := behind j above
  rw [trimmed.clashes]
  rw [trimmed.isStatic] at dynamic
  rw [trimmed.sameAs] at same
  exact shown j' inside a b (atFirst.symm.trans first) (atSecond.symm.trans second) dynamic same

/-- The round that keeps a lease with another address. -/
theorem Sweeping.kept (sweeping : Sweeping s lease slots i) (isStatic : Bool) (l : Ref)
    (different : sameAs (s.lease (slots.getD i 0)) (s.lease lease) = false) :
    Sweeping (s.emptyHostname isStatic l lease) lease slots (i + 1) := by
  have frame := emptyHostname_frame s isStatic l lease
  have trimmed : Trimmed lease s (s.emptyHostname isStatic l lease) :=
    .emptyHostname s isStatic l lease
  refine ⟨sweeping.mirrors.emptyHostname _ _ lease, ?_, ?_⟩
  · intro j below k here
    rw [trimmed.clashes]
    rw [frame.2.1] at here
    rcases Nat.lt_or_eq_of_le (Nat.le_of_lt_succ below) with before | rfl
    · exact sweeping.passed j before k here
    · rw [sweeping.mirrors.getD here] at different
      exact not_clashes different
  · refine sweeping.shown.trimmed trimmed fun j above => ⟨j, Nat.le_of_succ_le above, ?_, ?_⟩
    · rw [frame.2.1]
    · rw [frame.2.1]

/-- A removal leaves the leases before the index where they are. -/
theorem Sweeping.before (sweeping : Sweeping s lease slots i) :
    ∀ j < i, ∀ l, (s.rmLeaseByIndex i).leases[j]? = some l →
      ¬ Clashes (s.lease lease) (s.lease l) := by
  intro j below l here
  rw [rmLeaseByIndex_leases, List.getElem?_eraseIdx_of_lt below] at here
  exact sweeping.passed j below l here

/-- The round that removes a dynamic lease and passes over the one that moves up. -/
theorem Sweeping.removed (sweeping : Sweeping s lease slots i) (isStatic : Bool) {b : Ref}
    (same : sameAs (s.lease (slots.getD i 0)) (s.lease lease) = true)
    (dynamic : (s.lease (slots.getD i 0)).isStatic = false)
    (next : (s.rmLeaseByIndex i).leases[i]? = some b) :
    Sweeping ((s.rmLeaseByIndex i).emptyHostname isStatic b lease) lease
      (if i < s.leases.length then V4Server.shift slots s.leases.length i else slots)
      (i + 1) := by
  have gone : ∀ l, s.leases[i]? = some l →
      sameAs (s.lease l) (s.lease lease) = true ∧ (s.lease l).isStatic = false := by
    intro l here
    rw [← sweeping.mirrors.getD here]
    exact ⟨same, dynamic⟩
  have frame := emptyHostname_frame (s.rmLeaseByIndex i) isStatic b lease
  have trimmed : Trimmed lease s ((s.rmLeaseByIndex i).emptyHostname isStatic b lease) :=
    (Trimmed.rmLeaseByIndex gone).trans (.emptyHostname _ _ _ lease)
  have behind : s.leases[i + 1]? = some b := by
    rwa [rmLeaseByIndex_leases, List.getElem?_eraseIdx_of_ge (Nat.le_refl i)] at next
  refine ⟨(sweeping.mirrors.removed i).emptyHostname _ _ lease, ?_, ?_⟩
  · intro j below l here
    rw [trimmed.clashes]
    rw [frame.2.1] at here
    rcases Nat.lt_or_eq_of_le (Nat.le_of_lt_succ below) with before | rfl
    · exact sweeping.before j before l here
    · -- The element that moved up was never compared, but nothing is hidden.
      obtain rfl : b = l := Option.some.inj (next.symm.trans here)
      have bound := (List.getElem?_eq_some_iff.mp behind).1
      have front : s.leases[j]? = some s.leases[j] :=
        List.getElem?_eq_getElem (by omega)
      obtain ⟨shares, dynamic⟩ := gone _ front
      exact sweeping.shown j (Nat.le_refl j) _ _ front behind dynamic shares
  · refine sweeping.shown.trimmed trimmed fun j above => ⟨j + 1, by omega, ?_, ?_⟩
    · rw [frame.2.1, rmLeaseByIndex_leases, List.getElem?_eraseIdx_of_ge (by omega)]
    · rw [frame.2.1, rmLeaseByIndex_leases, List.getElem?_eraseIdx_of_ge (by omega)]

/-- If nothing is hidden from the loop, then it leaves no clash. -/
theorem rmDynamicLoop_clean (sweeping : Sweeping s lease slots i)
    (enough : s.leases.length ≤ i + count)
    (succeeds : (rmDynamicLoop lease count i slots s).2.2 = .ok ()) :
    let t := (rmDynamicLoop lease count i slots s).1
    ∀ l ∈ t.leases, ¬ Clashes (t.lease lease) (t.lease l) := by
  have rounds := rounds_rmDynamicLoop lease count i slots s
  generalize V4Server.rmDynamicLoop lease count i slots s = result at rounds succeeds ⊢
  induction rounds with
  | done =>
    intro t l member
    obtain ⟨j, here⟩ := List.mem_iff_getElem?.mp member
    obtain ⟨live, _⟩ := List.getElem?_eq_some_iff.mp here
    exact sweeping.passed j (Nat.lt_of_lt_of_le live enough) l here
  | refuse same static => cases succeeds
  | beyond same dynamic none => cases succeeds
  | @last count i slots s same dynamic last =>
    intro t l member
    obtain ⟨j, here⟩ := List.mem_iff_getElem?.mp member
    have live : j < (s.rmLeaseByIndex i).leases.length := (List.getElem?_eq_some_iff.mp here).1
    change ¬ Clashes ((s.rmLeaseByIndex i).lease lease) ((s.rmLeaseByIndex i).lease l)
    rw [rmLeaseByIndex_lease, rmLeaseByIndex_lease]
    exact sweeping.before j (by omega) l here
  | @remove count i slots s b result same dynamic next rest ih =>
    have shorter : (s.rmLeaseByIndex i).leases.length ≤ s.leases.length := by
      rw [rmLeaseByIndex_leases]
      exact List.length_eraseIdx_le _ _
    refine ih (sweeping.removed _ same dynamic next) ?_ succeeds
    rw [(emptyHostname_frame _ _ _ _).2.1]
    omega
  | pass different rest ih =>
    refine ih (sweeping.kept _ _ different) ?_ succeeds
    rw [(emptyHostname_frame _ _ _ _).2.1]
    omega

theorem rmDynamicLease_clean (shown : s.NothingHidden (s.lease lease) 0)
    (succeeds : s.rmDynamicLease lease = (t, slots, .ok ())) :
    ∀ l ∈ t.leases, ¬ Clashes (t.lease lease) (t.lease l) := by
  have clean := rmDynamicLoop_clean (.start shown) (by simp) (congrArg (·.2.2) succeeds)
  have result : (rmDynamicLoop lease s.leases.length 0 s.leases s).1 = t :=
    congrArg (·.1) succeeds
  rwa [result] at clean

end V4Server

end AdGuardHome.Dhcpd
