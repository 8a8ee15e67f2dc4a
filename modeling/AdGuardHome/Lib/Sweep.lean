import Mathlib.Data.List.Chain
import Mathlib.Data.List.Infix
import Mathlib.Data.List.Perm.Basic

/-! A loop that removes matching elements from the list it ranges over. What moves up into a
free place is passed over, and the loop sees the last element once more when it passed over
that one. A match that is fixed stops the loop. -/

universe u

/-- What a sweep leaves of a list: the elements it keeps and removes, those it looked into
and whether it stopped at a fixed match. -/
structure Swept (α : Type u) where
  kept : List α
  removed : List α
  checked : List α
  refused : Bool

variable {α : Type u} (hit fixed : α → Bool)

/-- The sweep over a list. Elements that do not match are looked into unless they are fixed,
and those that move up always. -/
def sweep : List α → Swept α
  | [] => ⟨[], [], [], false⟩
  | x :: rest =>
    if hit x then
      if fixed x then ⟨x :: rest, [], [], true⟩
      else match rest with
        | [] => ⟨[], [x], [], false⟩
        | [b] => ⟨[b], [x], [b], hit b && fixed b⟩
        | b :: c :: rest =>
          let next := sweep (c :: rest)
          ⟨b :: next.kept, x :: next.removed, b :: next.checked, next.refused⟩
    else
      let next := sweep rest
      ⟨x :: next.kept, next.removed, if fixed x then next.checked else x :: next.checked,
        next.refused⟩

/-- No match is fixed, and none directly follows another. -/
def Spread (list : List α) : Prop :=
  (∀ x ∈ list, hit x = true → fixed x = false) ∧
    list.IsChain fun a b => hit a = true → hit b = false

/-- The element directly follows a match. -/
def Behind (list : List α) (x : α) : Prop := ∃ a, hit a = true ∧ [a, x] <:+: list

variable {hit fixed} {x : α} {list : List α}

theorem sweep_pass (different : hit x = false) (rest : List α) :
    sweep hit fixed (x :: rest) =
      ⟨x :: (sweep hit fixed rest).kept, (sweep hit fixed rest).removed,
        if fixed x then (sweep hit fixed rest).checked else x :: (sweep hit fixed rest).checked,
        (sweep hit fixed rest).refused⟩ := by
  rw [sweep.eq_def]
  simp [different]

theorem sweep_refuse (same : hit x = true) (stays : fixed x = true) (rest : List α) :
    sweep hit fixed (x :: rest) = ⟨x :: rest, [], [], true⟩ := by
  rw [sweep.eq_def]
  simp [same, stays]

theorem sweep_last (same : hit x = true) (loose : fixed x = false) :
    sweep hit fixed [x] = ⟨[], [x], [], false⟩ := by
  simp [sweep, same, loose]

theorem sweep_beforeLast (same : hit x = true) (loose : fixed x = false) (b : α) :
    sweep hit fixed [x, b] = ⟨[b], [x], [b], hit b && fixed b⟩ := by
  simp [sweep, same, loose]

theorem sweep_remove (same : hit x = true) (loose : fixed x = false) (b c : α) (rest : List α) :
    sweep hit fixed (x :: b :: c :: rest) =
      ⟨b :: (sweep hit fixed (c :: rest)).kept, x :: (sweep hit fixed (c :: rest)).removed,
        b :: (sweep hit fixed (c :: rest)).checked, (sweep hit fixed (c :: rest)).refused⟩ := by
  rw [sweep.eq_def]
  simp [same, loose]

/-- The five rounds of a sweep as an induction principle. -/
theorem sweep_rounds (hit fixed : α → Bool) {motive : List α → Prop} (list : List α)
    (done : motive [])
    (pass : ∀ x rest, hit x = false → motive rest → motive (x :: rest))
    (refuse : ∀ x rest, hit x = true → fixed x = true → motive (x :: rest))
    (last : ∀ x, hit x = true → fixed x = false → motive [x])
    (beforeLast : ∀ x b, hit x = true → fixed x = false → motive [x, b])
    (remove : ∀ x b c rest, hit x = true → fixed x = false → motive (c :: rest) →
      motive (x :: b :: c :: rest)) : motive list := by
  fun_induction sweep hit fixed list with
  | case1 => exact done
  | case2 x rest same stays => exact refuse x rest same stays
  | case3 x same loose => exact last x same (by simpa using loose)
  | case4 x same loose b => exact beforeLast x b same (by simpa using loose)
  | case5 x same loose b c rest next ih => exact remove x b c rest same (by simpa using loose) ih
  | case6 x rest different next ih => exact pass x rest (by simpa using different) ih

theorem sweep_congr {other loose : α → Bool}
    (same : ∀ x ∈ list, hit x = other x ∧ fixed x = loose x) :
    sweep hit fixed list = sweep other loose list := by
  induction list using sweep_rounds hit fixed with
  | done => rfl
  | pass x rest different ih =>
    obtain ⟨first, second⟩ := same x List.mem_cons_self
    rw [sweep_pass different, sweep_pass (first.symm.trans different), second,
      ih fun y member => same y (.tail x member)]
  | refuse x rest hits stays =>
    obtain ⟨first, second⟩ := same x List.mem_cons_self
    rw [sweep_refuse hits stays, sweep_refuse (first.symm.trans hits) (second.symm.trans stays)]
  | last x hits free =>
    obtain ⟨first, second⟩ := same x List.mem_cons_self
    rw [sweep_last hits free, sweep_last (first.symm.trans hits) (second.symm.trans free)]
  | beforeLast x b hits free =>
    obtain ⟨first, second⟩ := same x List.mem_cons_self
    obtain ⟨third, fourth⟩ := same b (by simp)
    rw [sweep_beforeLast hits free,
      sweep_beforeLast (first.symm.trans hits) (second.symm.trans free), third, fourth]
  | remove x b c rest hits free ih =>
    obtain ⟨first, second⟩ := same x List.mem_cons_self
    rw [sweep_remove hits free, sweep_remove (first.symm.trans hits) (second.symm.trans free),
      ih fun y member => same y (.tail x (.tail b member))]

theorem sweep_perm (hit fixed : α → Bool) (list : List α) :
    ((sweep hit fixed list).kept ++ (sweep hit fixed list).removed).Perm list := by
  induction list using sweep_rounds hit fixed with
  | done => exact .refl []
  | pass x rest different ih =>
    rw [sweep_pass different]
    exact ih.cons x
  | refuse x rest same stays =>
    rw [sweep_refuse same stays, List.append_nil]
  | last x same loose =>
    rw [sweep_last same loose]
    exact .refl [x]
  | beforeLast x b same loose =>
    rw [sweep_beforeLast same loose]
    exact .swap x b []
  | remove x b c rest same loose ih =>
    rw [sweep_remove same loose]
    exact (List.perm_middle.trans (.cons x (ih.cons b)))

theorem sweep_length (hit fixed : α → Bool) (list : List α) :
    (sweep hit fixed list).kept.length + (sweep hit fixed list).removed.length =
      list.length := by
  rw [← List.length_append, (sweep_perm hit fixed list).length_eq]

theorem sweep_removed (list : List α) :
    ∀ x ∈ (sweep hit fixed list).removed, hit x = true ∧ fixed x = false := by
  induction list using sweep_rounds hit fixed with
  | done => simp [sweep]
  | pass x rest different ih => rwa [sweep_pass different]
  | refuse x rest same stays => simp [sweep_refuse same stays]
  | last x same loose => simp [sweep_last same loose, same, loose]
  | beforeLast x b same loose => simp [sweep_beforeLast same loose, same, loose]
  | remove x b c rest same loose ih =>
    rw [sweep_remove same loose]
    intro y member
    rcases List.mem_cons.mp member with rfl | later
    · exact ⟨same, loose⟩
    · exact ih y later

theorem sweep_kept (list : List α) : (sweep hit fixed list).kept.Sublist list := by
  induction list using sweep_rounds hit fixed with
  | done => exact .refl []
  | pass x rest different ih =>
    rw [sweep_pass different]
    exact ih.cons_cons x
  | refuse x rest same stays =>
    rw [sweep_refuse same stays]
  | last x same loose =>
    rw [sweep_last same loose]
    exact List.nil_sublist [x]
  | beforeLast x b same loose =>
    rw [sweep_beforeLast same loose]
    exact List.sublist_cons_self x [b]
  | remove x b c rest same loose ih =>
    rw [sweep_remove same loose]
    exact (ih.cons_cons b).cons x

theorem sweep_kept_hit (ends : (sweep hit fixed list).refused = false)
    (member : x ∈ (sweep hit fixed list).kept) (same : hit x = true) :
    x ∈ (sweep hit fixed list).checked := by
  induction list using sweep_rounds hit fixed with
  | done => simp [sweep] at member
  | pass y rest different ih =>
    rw [sweep_pass different] at ends member ⊢
    rcases List.mem_cons.mp member with rfl | later
    · simp [different] at same
    · have looked := ih ends later
      split
      · exact looked
      · exact .tail y looked
  | refuse y rest hits stays => simp [sweep_refuse hits stays] at ends
  | last y hits loose => simp [sweep_last hits loose] at member
  | beforeLast y b hits loose =>
    rw [sweep_beforeLast hits loose] at member ⊢
    exact member
  | remove y b c rest hits loose ih =>
    rw [sweep_remove hits loose] at ends member ⊢
    rcases List.mem_cons.mp member with rfl | later
    · exact .head _
    · exact .tail b (ih ends later)

theorem sweep_kept_all (untouched : (sweep hit fixed list).removed = []) :
    (sweep hit fixed list).kept = list := by
  apply (sweep_kept list).eq_of_length
  rw [← sweep_length hit fixed list, untouched]
  rfl

theorem sweep_members (hit fixed : α → Bool) (list : List α) :
    (∀ x ∈ (sweep hit fixed list).removed, x ∈ list) ∧
      ∀ x ∈ (sweep hit fixed list).checked, x ∈ list := by
  induction list using sweep_rounds hit fixed with
  | done => simp [sweep]
  | pass x rest different ih =>
    rw [sweep_pass different]
    refine ⟨fun y member => .tail x (ih.1 y member), ?_⟩
    intro y member
    split at member
    · exact .tail x (ih.2 y member)
    · rcases List.mem_cons.mp member with rfl | later
      · exact .head rest
      · exact .tail x (ih.2 y later)
  | refuse x rest same stays => simp [sweep_refuse same stays]
  | last x same loose => simp [sweep_last same loose]
  | beforeLast x b same loose => simp [sweep_beforeLast same loose]
  | remove x b c rest same loose ih =>
    rw [sweep_remove same loose]
    simp only [List.forall_mem_cons]
    refine ⟨⟨.head _, ?_⟩, .tail x (.head _), ?_⟩
    · exact fun y member => .tail x (.tail b (ih.1 y member))
    · exact fun y member => .tail x (.tail b (ih.2 y member))

theorem spread_of_sweep (ends : (sweep hit fixed list).refused = false)
    (clean : ∀ x ∈ (sweep hit fixed list).kept, hit x = false) : Spread hit fixed list := by
  induction list using sweep_rounds hit fixed with
  | done => exact ⟨by simp, .nil⟩
  | pass x rest different ih =>
    rw [sweep_pass different] at ends clean
    obtain ⟨loose, apart⟩ := ih ends fun y member => clean y (List.mem_cons_of_mem x member)
    refine ⟨?_, List.isChain_cons.mpr ⟨?_, apart⟩⟩
    · intro y member
      rcases List.mem_cons.mp member with rfl | later
      · simp [different]
      · exact loose y later
    · intro y _ same
      simp [different] at same
  | refuse x rest same stays => simp [sweep_refuse same stays] at ends
  | last x same loose => exact ⟨by simp [loose], .singleton x⟩
  | beforeLast x b same loose =>
    rw [sweep_beforeLast same loose] at clean
    have different := clean b (List.mem_singleton_self b)
    exact ⟨by simp [loose, different], by simp [different]⟩
  | remove x b c rest same loose ih =>
    rw [sweep_remove same loose] at ends clean
    obtain ⟨others, apart⟩ := ih ends fun y member => clean y (List.mem_cons_of_mem b member)
    have different := clean b List.mem_cons_self
    refine ⟨?_, ?_⟩
    · intro y member
      rcases List.mem_cons.mp member with rfl | later
      · exact fun _ => loose
      rcases List.mem_cons.mp later with rfl | behind
      · simp [different]
      · exact others y behind
    · exact .cons_cons (fun _ => different) (.cons_cons (by simp [different]) apart)

theorem Behind.cons (behind : Behind hit list x) (a : α) :
    Behind hit (a :: list) x := by
  obtain ⟨front, same, inside⟩ := behind
  exact ⟨front, same, inside.trans (List.suffix_cons a list).isInfix⟩

theorem behind_cons {a x : α} :
    Behind hit (a :: list) x ↔ hit a = true ∧ list.head? = some x ∨ Behind hit list x := by
  constructor
  · rintro ⟨front, same, inside⟩
    rcases List.infix_cons_iff.mp inside with ⟨back, here⟩ | later
    · obtain ⟨rfl, rfl⟩ : front = a ∧ x :: back = list := by simpa using here
      exact .inl ⟨same, rfl⟩
    · exact .inr ⟨front, same, later⟩
  · rintro (⟨same, head⟩ | behind)
    · obtain ⟨rest, rfl⟩ := List.head?_eq_some_iff.mp head
      exact ⟨a, same, (List.prefix_append [a, x] rest).isInfix⟩
    · exact behind.cons a

theorem Behind.mem (behind : Behind hit list x) : x ∈ list := by
  obtain ⟨front, _, inside⟩ := behind
  exact inside.subset (by simp)

theorem Spread.tail {rest : List α} (spread : Spread hit fixed (x :: rest)) :
    Spread hit fixed rest :=
  ⟨fun y member => spread.1 y (List.mem_cons_of_mem x member), spread.2.tail⟩

/-- A sweep over spread matches removes exactly these. -/
theorem Spread.kept (spread : Spread hit fixed list) :
    (sweep hit fixed list).refused = false ∧
      (sweep hit fixed list).kept = list.filter (fun x => !hit x) ∧
      (sweep hit fixed list).removed = list.filter hit := by
  induction list using sweep_rounds hit fixed with
  | done => exact ⟨rfl, rfl, rfl⟩
  | pass x rest different ih =>
    obtain ⟨ends, kept, removed⟩ := ih spread.tail
    rw [sweep_pass different]
    exact ⟨ends, by simp [kept, different], by simp [removed, different]⟩
  | refuse x rest same stays =>
    have loose := spread.1 x List.mem_cons_self same
    rw [stays] at loose
    cases loose
  | last x same loose => simp [sweep_last same loose, same]
  | beforeLast x b same loose =>
    have different : hit b = false := by simpa [same] using spread.2
    simp [sweep_beforeLast same loose, same, different]
  | remove x b c rest same loose ih =>
    have different : hit b = false := (List.isChain_cons_cons.mp spread.2).1 same
    obtain ⟨ends, kept, removed⟩ := ih spread.tail.tail
    rw [sweep_remove same loose]
    exact ⟨ends, by simp [kept, same, different], by simp [removed, same, different]⟩

theorem Spread.checked (spread : Spread hit fixed list) (y : α) :
    y ∈ (sweep hit fixed list).checked ↔
      y ∈ list ∧ hit y = false ∧ (fixed y = false ∨ Behind hit list y) := by
  induction list using sweep_rounds hit fixed with
  | done => simp [sweep]
  | pass x rest different ih =>
    rw [sweep_pass different]
    have later := ih spread.tail
    have behind : Behind hit (x :: rest) y ↔ Behind hit rest y := by
      simp [behind_cons, different]
    cases stays : fixed x with
    | true =>
      simp only [↓reduceIte, behind, later, List.mem_cons]
      constructor
      · rintro ⟨member, rest⟩
        exact ⟨.inr member, rest⟩
      · rintro ⟨rfl | member, here, reason⟩
        · rcases reason with loose | follows
          · simp [stays] at loose
          · exact ⟨follows.mem, here, .inr follows⟩
        · exact ⟨member, here, reason⟩
    | false =>
      simp only [Bool.false_eq_true, ↓reduceIte, behind, later, List.mem_cons]
      constructor
      · rintro (rfl | ⟨member, rest⟩)
        · exact ⟨.inl rfl, different, .inl stays⟩
        · exact ⟨.inr member, rest⟩
      · rintro ⟨rfl | member, rest⟩
        · exact .inl rfl
        · exact .inr ⟨member, rest⟩
  | refuse x rest same stays =>
    have loose := spread.1 x List.mem_cons_self same
    rw [stays] at loose
    cases loose
  | last x same loose =>
    rw [sweep_last same loose]
    constructor
    · intro member
      cases member
    · rintro ⟨member, different, _⟩
      rw [List.mem_singleton.mp member, same] at different
      cases different
  | beforeLast x b same loose =>
    have different : hit b = false := by simpa [same] using spread.2
    rw [sweep_beforeLast same loose, List.mem_singleton]
    constructor
    · rintro rfl
      exact ⟨by simp, different, .inr (behind_cons.mpr (.inl ⟨same, rfl⟩))⟩
    · rintro ⟨member, here, _⟩
      rcases List.mem_pair.mp member with rfl | rfl
      · simp [same] at here
      · rfl
  | remove x b c rest same loose ih =>
    have different : hit b = false := (List.isChain_cons_cons.mp spread.2).1 same
    have later := ih spread.tail.tail
    have behind : Behind hit (x :: b :: c :: rest) y ↔ b = y ∨ Behind hit (c :: rest) y := by
      rw [behind_cons, behind_cons]
      simp [same, different]
    rw [sweep_remove same loose, List.mem_cons, later, behind]
    constructor
    · rintro (rfl | ⟨member, here, reason⟩)
      · exact ⟨by simp, different, .inr (.inl rfl)⟩
      · exact ⟨.tail x (.tail b member), here, reason.imp id .inr⟩
    · rintro ⟨member, here, reason⟩
      rcases List.mem_cons.mp member with rfl | member
      · simp [same] at here
      rcases List.mem_cons.mp member with rfl | member
      · exact .inl rfl
      rcases reason with loose | rfl | follows
      · exact .inr ⟨member, here, .inl loose⟩
      · exact .inl rfl
      · exact .inr ⟨member, here, .inr follows⟩

/-- Elements that do not match are kept and looked into as they come. -/
theorem sweep_append (fixed : α → Bool) {front : List α} (different : ∀ x ∈ front, hit x = false)
    (back : List α) :
    sweep hit fixed (front ++ back) =
      ⟨front ++ (sweep hit fixed back).kept, (sweep hit fixed back).removed,
        front.filter (fun x => !fixed x) ++ (sweep hit fixed back).checked,
        (sweep hit fixed back).refused⟩ := by
  induction front with
  | nil => rfl
  | cons x rest ih =>
    rw [List.cons_append, sweep_pass (different x List.mem_cons_self),
      ih fun y member => different y (List.mem_cons_of_mem x member)]
    cases stays : fixed x with
    | true => simp [stays]
    | false => simp [stays]

theorem sweep_clean (clean : ∀ x ∈ list, hit x = false) :
    sweep hit fixed list = ⟨list, [], list.filter (fun x => !fixed x), false⟩ := by
  have whole := sweep_append fixed clean []
  simpa [sweep] using whole

theorem spread_of_clean (clean : ∀ x ∈ list, hit x = false) :
    Spread hit fixed list := by
  apply spread_of_sweep
  · rw [sweep_clean clean]
  · rw [sweep_clean clean]
    exact clean

/-- A sweep that removes nothing met no match, or a fixed one first. -/
theorem sweep_untouched (untouched : (sweep hit fixed list).removed = []) :
    ((sweep hit fixed list).refused = false ∧ ∀ x ∈ list, hit x = false) ∨
      ∃ front x back, list = front ++ x :: back ∧ (∀ y ∈ front, hit y = false) ∧
        hit x = true ∧ fixed x = true := by
  induction list using sweep_rounds hit fixed with
  | done => exact .inl ⟨rfl, by simp⟩
  | pass x rest different ih =>
    rw [sweep_pass different] at untouched ⊢
    rcases ih untouched with ⟨ends, clean⟩ | ⟨front, y, back, rfl, before, stops⟩
    · refine .inl ⟨ends, ?_⟩
      intro y member
      rcases List.mem_cons.mp member with rfl | later
      · exact different
      · exact clean y later
    · refine .inr ⟨x :: front, y, back, rfl, ?_, stops⟩
      intro z member
      rcases List.mem_cons.mp member with rfl | later
      · exact different
      · exact before z later
  | refuse x rest same stays => exact .inr ⟨[], x, rest, rfl, by simp, same, stays⟩
  | last x same loose => simp [sweep_last same loose] at untouched
  | beforeLast x b same loose => simp [sweep_beforeLast same loose] at untouched
  | remove x b c rest same loose ih => simp [sweep_remove same loose] at untouched
