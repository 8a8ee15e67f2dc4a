import Mathlib.Data.List.Dedup

/-! A list shown in pages of one size, and the window that a page is of it. -/
namespace AdGuardHome.Lib.Pages

variable {α β : Type*}

/-- The page with a number, counted from zero. -/
def pageAt (size : Nat) (items : List α) (number : Nat) : List α :=
  (items.drop (number * size)).take size

/-- The pages that have something to show. -/
def pageCount (size : Nat) (items : List α) : Nat := (items.length + size - 1) / size

theorem flatMap_pageAt (size : Nat) (items : List α) (count : Nat) :
    (List.range count).flatMap (pageAt size items) = items.take (count * size) := by
  induction count with
  | zero => simp
  | succ count ih =>
    simp only [List.range_succ, List.flatMap_append, ih, Nat.succ_mul, List.take_add]
    simp [pageAt]

theorem length_le_pageCount {size : Nat} (some_size : 0 < size) (items : List α) :
    items.length ≤ pageCount size items * size := by
  have split := Nat.div_add_mod (items.length + size - 1) size
  have rest := Nat.mod_lt (items.length + size - 1) some_size
  have swap := Nat.mul_comm size ((items.length + size - 1) / size)
  unfold pageCount
  omega

theorem flatMap_pageAt_eq {size count : Nat} {items : List α}
    (enough : items.length ≤ count * size) :
    (List.range count).flatMap (pageAt size items) = items := by
  rw [flatMap_pageAt, List.take_of_length_le enough]

theorem mul_lt_length {size number : Nat} {items : List α} (some_size : 0 < size)
    (below : number < pageCount size items) : number * size < items.length := by
  have reaches : (number + 1) * size ≤ items.length + size - 1 :=
    Nat.le_trans (Nat.mul_le_mul_right size below) (Nat.div_mul_le_self _ _)
  rw [Nat.succ_mul] at reaches
  omega

section Window

variable {items : List α} {start width : Nat}

theorem window_cons (inside : start < items.length) (wide : 0 < width) :
    ∃ rest, (items.drop start).take width = items[start] :: rest := by
  rw [List.drop_eq_getElem_cons inside]
  cases width with
  | zero => omega
  | succ width => exact ⟨_, List.take_succ_cons⟩

theorem filter_window (keep : α → Bool) (items : List α) (start width : Nat) :
    items.filter keep = (items.take start).filter keep ++
      (((items.drop start).take width).filter keep ++ (items.drop (start + width)).filter keep) := by
  rw [← List.filter_append, ← List.filter_append, ← List.drop_drop, List.take_append_drop,
    List.take_append_drop]

theorem window_of_kept {keep : α → Bool} (kept : ∀ item ∈ (items.drop start).take width, keep item) :
    ((items.filter keep).drop ((items.take start).filter keep).length).take width =
      (items.drop start).take width := by
  rw [filter_window keep items start width, List.filter_eq_self.mpr kept, List.drop_left]
  by_cases full : width ≤ items.length - start
  · rw [List.take_append_of_le_length (by simp; omega), List.take_take, Nat.min_self]
  · have ends : items.drop (start + width) = [] := List.drop_eq_nil_of_le (by omega)
    rw [ends, List.filter_nil, List.append_nil, List.take_take, Nat.min_self]

/-- A window of a list with distinct keys is a window of what a filter leaves of it exactly when
the filter leaves all of the window, at the place where it then is. -/
theorem window_filter_iff {key : α → β} (keep : α → Bool) (distinct : (items.map key).Nodup)
    {place : Nat} (inside : start < items.length) (wide : 0 < width) :
    (((items.filter keep).drop place).take width).map key =
        ((items.drop start).take width).map key ↔
      (∀ item ∈ (items.drop start).take width, keep item) ∧
        place = ((items.take start).filter keep).length := by
  have same : ∀ {x y}, x ∈ items → y ∈ items → key x = key y → x = y :=
    fun hx hy h => List.inj_on_of_nodup_map distinct hx hy h
  constructor
  · intro agree
    have kept : ∀ item ∈ (items.drop start).take width, keep item := by
      intro item member
      have named : key item ∈ (((items.filter keep).drop place).take width).map key :=
        agree ▸ List.mem_map_of_mem member
      obtain ⟨other, found, names⟩ := List.mem_map.mp named
      have whole := List.mem_filter.mp (List.mem_of_mem_drop (List.mem_of_mem_take found))
      have item_in : item ∈ items := List.mem_of_mem_drop (List.mem_of_mem_take member)
      exact same whole.1 item_in names ▸ whole.2
    refine ⟨kept, ?_⟩
    -- The first item of the window has one place in the filtered list.
    obtain ⟨rest, opened⟩ := window_cons inside wide
    have there : (items.filter keep)[((items.take start).filter keep).length]? =
        some items[start] := by
      rw [filter_window keep items start width, List.filter_eq_self.mpr kept,
        List.getElem?_append_right (Nat.le_refl _), opened]
      simp
    have bound : place < (items.filter keep).length := by
      by_contra beyond
      rw [List.drop_eq_nil_of_le (by omega), opened] at agree
      simp at agree
    obtain ⟨others, found⟩ := window_cons bound wide
    have head : key (items.filter keep)[place] = key items[start] := by
      rw [found, opened] at agree
      exact (List.cons.inj agree).1
    have here : (items.filter keep)[place]? = some items[start] := by
      have member := (List.mem_filter.mp (List.getElem_mem bound)).1
      rw [List.getElem?_eq_getElem bound, same member (List.getElem_mem inside) head]
    have nodup : (items.filter keep).Nodup := (List.Nodup.of_map key distinct).filter keep
    exact List.getElem?_inj bound nodup |>.mp (here.trans there.symm)
  · rintro ⟨kept, rfl⟩
    rw [window_of_kept kept]

end Window

end AdGuardHome.Lib.Pages
