import Ipvshttpd.CLib.Split
import Ipvshttpd.CLib.Proofs.CStringProofs

/-!
# Proofs: splitting at a delimiter

A leftmost split is built from the right, one piece at a time (`IsSplit.singleton`, `IsSplit.cons`),
and taken apart from the left (`IsSplit.uncons`), so that a text has only one (`IsSplit.unique`).
-/

namespace CLib

variable {delim needle s t x y : Str} {limit : Int} {xs ys : List Str} {i : Nat}

/-! ## First occurrences -/

theorem find_some (needle : Str) (h : find needle s = some i) :
    s = s.take i ++ (needle ++ s.drop (i + needle.length)) := by
  induction s generalizing i with
  | nil =>
    rw [find] at h
    split at h
    · rename_i hneedle
      cases h
      rw [hneedle]
      rfl
    · cases h
  | cons c s ih =>
    rw [find] at h
    split at h
    · rename_i hstart
      cases h
      obtain ⟨t, ht⟩ := List.isPrefixOf_iff_prefix.1 hstart
      rw [← ht]
      simp
    · obtain ⟨j, hj, rfl⟩ := Option.map_eq_some_iff.1 h
      have hlen : j + 1 + needle.length = (j + needle.length) + 1 := by omega
      rw [List.take_succ_cons, hlen, List.drop_succ_cons, List.cons_append, ← ih hj]

theorem find_nil (s : Str) : find [] s = some 0 := by
  cases s with
  | nil => rfl
  | cons c s => rfl

/-- Where an occurrence ends does not depend on what follows it. -/
theorem find_left (s t : Str) :
    find needle (s ++ (needle ++ t)) = some s.length ↔ find needle (s ++ needle) = some s.length := by
  induction s with
  | nil =>
    have hzero : ∀ u, find needle (needle ++ u) = some 0 := by
      intro u
      cases needle with
      | nil => exact find_nil u
      | cons c needle =>
        have hstart : (c :: needle).isPrefixOf (c :: (needle ++ u)) = true :=
          List.isPrefixOf_iff_prefix.2 (List.prefix_append (c :: needle) u)
        rw [List.cons_append, find, if_pos hstart]
    have hself := hzero []
    rw [List.append_nil] at hself
    exact iff_of_true (hzero t) hself
  | cons c s ih =>
    rw [List.cons_append, List.cons_append, List.length_cons, find, find]
    have hstart : needle.isPrefixOf (c :: (s ++ (needle ++ t))) =
        needle.isPrefixOf (c :: (s ++ needle)) := by
      rw [Bool.eq_iff_iff, List.isPrefixOf_iff_prefix, List.isPrefixOf_iff_prefix]
      constructor
      · intro h
        refine List.prefix_of_prefix_length_le h ⟨t, by simp⟩ ?_
        rw [List.length_cons, List.length_append]
        omega
      · intro h
        exact h.trans ⟨t, by simp⟩
    rw [hstart]
    split
    · simp
    · simp [ih]

theorem find_le (h : find needle s = some i) : i ≤ s.length := by
  induction s generalizing i with
  | nil =>
    rw [find] at h
    split at h
    · cases h
      exact Nat.le_refl _
    · cases h
  | cons c s ih =>
    rw [find] at h
    split at h
    · cases h
      exact Nat.zero_le _
    · obtain ⟨j, hj, rfl⟩ := Option.map_eq_some_iff.1 h
      exact Nat.succ_le_succ (ih hj)

/-- A text in which the needle is found: what precedes it, the needle and the rest. -/
theorem find_cut (h : find needle s = some i) :
    ∃ t u, s = t ++ (needle ++ u) ∧ t.length = i ∧ find needle (t ++ needle) = some t.length := by
  have hs := find_some needle h
  have hlen : (s.take i).length = i := by
    rw [List.length_take]
    exact Nat.min_eq_left (find_le h)
  refine ⟨s.take i, s.drop (i + needle.length), hs, hlen, ?_⟩
  rw [← find_left _ (s.drop (i + needle.length)), ← hs, hlen]
  exact h

/-! ## Building a split -/

theorem IsSplit.singleton (h : find delim s = none ∨ limit = 1) : IsSplit delim s limit [s] where
  join := by simp [List.intercalate]
  leftmost := by simp
  last := ⟨s, rfl, h.imp_right fun hone => by subst hone; exact ⟨by omega, rfl⟩⟩
  bounded := by
    intro hpos
    rw [List.length_singleton]
    omega

theorem IsSplit.ne_nil (h : IsSplit delim s limit xs) : xs ≠ [] := by
  rintro rfl
  obtain ⟨_, hlast, -⟩ := h.last
  cases hlast

theorem intercalate_cons (x : Str) (h : xs ≠ []) :
    delim.intercalate (x :: xs) = x ++ (delim ++ delim.intercalate xs) := by
  cases xs with
  | nil => exact absurd rfl h
  | cons y xs => simp [List.intercalate]

theorem IsSplit.cons (h : IsSplit delim s (limit - 1) xs) (hlimit : limit ≤ 0 ∨ 2 ≤ limit)
    (hx : find delim (x ++ delim) = some x.length) :
    IsSplit delim (x ++ (delim ++ s)) limit (x :: xs) where
  join := by rw [intercalate_cons x h.ne_nil, h.join]
  leftmost := by
    intro e he
    rw [List.dropLast_cons_of_ne_nil h.ne_nil, List.mem_cons] at he
    rcases he with rfl | he
    · exact hx
    · exact h.leftmost e he
  last := by
    obtain ⟨e, he, hend⟩ := h.last
    refine ⟨e, ?_, hend.imp_right ?_⟩
    · rw [List.getLast?_cons, he]
      rfl
    · rintro ⟨hpos, hlen⟩
      rw [List.length_cons]
      omega
  bounded := by
    intro hpos
    have hlen := h.bounded
    rw [List.length_cons]
    omega

/-! ## Taking a split apart -/

/-- The first of several pieces ends at the first delimiter, and the others split the rest. -/
theorem IsSplit.uncons (h : IsSplit delim s limit (x :: y :: ys)) :
    ∃ t, s = x ++ (delim ++ t) ∧ find delim s = some x.length ∧ limit ≠ 1 ∧
      IsSplit delim t (limit - 1) (y :: ys) := by
  have hne : y :: ys ≠ [] := List.cons_ne_nil _ _
  have hjoin := h.join
  rw [intercalate_cons x hne] at hjoin
  refine ⟨delim.intercalate (y :: ys), hjoin.symm, ?_, ?_, ?_⟩
  · rw [← hjoin, find_left]
    exact h.leftmost x (by simp)
  · intro hone
    have hlen := h.bounded
    rw [List.length_cons, List.length_cons] at hlen
    omega
  · refine ⟨rfl, fun e he => ?_, ?_, ?_⟩
    · refine h.leftmost e ?_
      rw [List.dropLast_cons_of_ne_nil hne]
      exact List.mem_cons_of_mem _ he
    · obtain ⟨e, he, hend⟩ := h.last
      refine ⟨e, ?_, hend.imp_right ?_⟩
      · rw [List.getLast?_cons_cons] at he
        exact he
      · rintro ⟨hpos, hlen⟩
        rw [List.length_cons, List.length_cons] at hlen
        rw [List.length_cons]
        omega
    · intro hpos
      have hlen := h.bounded
      rw [List.length_cons] at hlen
      omega

/-- A single piece is the whole text. -/
theorem IsSplit.eq_of_singleton (h : IsSplit delim s limit [x]) :
    x = s ∧ (find delim s = none ∨ limit = 1) := by
  have hjoin := h.join
  have hx : x = s := by simpa [List.intercalate] using hjoin
  obtain ⟨e, he, hend⟩ := h.last
  cases he
  refine ⟨hx, ?_⟩
  rw [← hx]
  rcases hend with hnone | ⟨-, hlen⟩
  · exact Or.inl hnone
  · rw [List.length_singleton] at hlen
    exact Or.inr (by omega)

/-- One piece and several are told apart by the first delimiter and the limit. -/
theorem IsSplit.not_singleton (h : IsSplit delim s limit (x :: y :: ys)) (t : Str) :
    ¬ IsSplit delim s limit [t] := by
  intro hone
  obtain ⟨_, -, hfind, hlimit, -⟩ := h.uncons
  rcases hone.eq_of_singleton.2 with hnone | hone
  · rw [hnone] at hfind
    cases hfind
  · exact hlimit hone

/-- A text has one leftmost split. -/
theorem IsSplit.unique (hxs : IsSplit delim s limit xs) (hys : IsSplit delim s limit ys) :
    xs = ys := by
  induction xs generalizing s limit ys with
  | nil => exact absurd rfl hxs.ne_nil
  | cons x xs ih =>
    cases ys with
    | nil => exact absurd rfl hys.ne_nil
    | cons x' ys =>
      cases xs with
      | nil =>
        cases ys with
        | nil => rw [hxs.eq_of_singleton.1, hys.eq_of_singleton.1]
        | cons y' ys => exact absurd hxs (hys.not_singleton x)
      | cons y xs =>
        cases ys with
        | nil => exact absurd hys (hxs.not_singleton x')
        | cons y' ys =>
          obtain ⟨t, hs, hfind, -, hxs'⟩ := hxs.uncons
          obtain ⟨t', hs', hfind', -, hys'⟩ := hys.uncons
          have hlen : x.length = x'.length := by
            rw [hfind] at hfind'
            exact Option.some.inj hfind'
          rw [hs'] at hs
          obtain ⟨hx, hrest⟩ := List.append_inj hs hlen.symm
          have ht : t' = t := List.append_cancel_left hrest
          rw [ht] at hys'
          rw [hx, ih hxs' hys']

end CLib
