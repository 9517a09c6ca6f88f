import Ipvshttpd.StringTools
import Ipvshttpd.CLib.Proofs.SplitProofs

/-!
# Proofs: splitting strings

When the loop of `strSplit` ends, its elements are a leftmost split (`strSplitLoop_isSplit`). It ends
because the rest gets shorter, or because the elements are counted; without either it does not
(`strSplitLoop_endless`).
-/

namespace Ipvshttpd

open CLib

variable {s delim : Str} {maxElem tokens : Int} {fuel pos : Nat} {xs : List Str}

/-! ## One pass -/

theorem strSplitLoop_cut (hfind : find delim s = some pos) (hgo : maxElem < 0 ∨ tokens ≠ maxElem)
    (fuel : Nat) : strSplitLoop delim maxElem (fuel + 1) s tokens =
      (strSplitLoop delim maxElem fuel (s.drop (pos + delim.length)) (tokens + 1)).map
        (s.take pos :: ·) := by
  rw [strSplitLoop, hfind]
  exact if_pos hgo

theorem strSplitLoop_stop (h : find delim s = none ∨ ¬ (maxElem < 0 ∨ tokens ≠ maxElem))
    (fuel : Nat) : strSplitLoop delim maxElem (fuel + 1) s tokens =
      some (if maxElem ≠ 0 then [s] else []) := by
  rw [strSplitLoop]
  cases hfind : find delim s with
  | none => rfl
  | some pos =>
    rcases h with hnone | hstop
    · rw [hfind] at hnone
      cases hnone
    · exact if_neg hstop

/-- A pass cuts off a piece or ends the loop. -/
theorem strSplitLoop_pass (delim : Str) (maxElem : Int) (s : Str) (tokens : Int) :
    (∃ pos, find delim s = some pos ∧ (maxElem < 0 ∨ tokens ≠ maxElem)) ∨
      (find delim s = none ∨ ¬ (maxElem < 0 ∨ tokens ≠ maxElem)) := by
  by_cases hgo : maxElem < 0 ∨ tokens ≠ maxElem
  · cases hfind : find delim s with
    | none => exact Or.inr (Or.inl rfl)
    | some pos => exact Or.inl ⟨pos, rfl, hgo⟩
  · exact Or.inr (Or.inr hgo)

/-! ## The elements -/

theorem strSplitLoop_isSplit (h : strSplitLoop delim maxElem fuel s tokens = some xs)
    (hfirst : 1 ≤ tokens) (hlimit : maxElem < 0 ∨ tokens ≤ maxElem) :
    IsSplit delim s (maxElem - tokens + 1) xs := by
  induction fuel generalizing s tokens xs with
  | zero => cases h
  | succ fuel ih =>
    rcases strSplitLoop_pass delim maxElem s tokens with ⟨pos, hfind, hgo⟩ | hstop
    · rw [strSplitLoop_cut hfind hgo, Option.map_eq_some_iff] at h
      obtain ⟨rest, hrest, rfl⟩ := h
      have hsplit := ih hrest (by omega) (by omega)
      have hcount : maxElem - (tokens + 1) + 1 = maxElem - tokens + 1 - 1 := by omega
      rw [hcount] at hsplit
      obtain ⟨t, u, rfl, rfl, hleft⟩ := find_cut hfind
      have hdrop : (t ++ (delim ++ u)).drop (t.length + delim.length) = u := by
        rw [← List.append_assoc, ← List.length_append, List.drop_left]
      rw [hdrop] at hsplit
      rw [List.take_left]
      exact hsplit.cons (by omega) hleft
    · rw [strSplitLoop_stop hstop, if_pos (by omega), Option.some.injEq] at h
      rw [← h]
      refine IsSplit.singleton ?_
      rcases hstop with hnone | hcount
      · exact Or.inl hnone
      · right
        omega

/-- The loop ends if every pass that cuts off a piece lowers a measure. -/
theorem strSplitLoop_ends (Inv : Str → Int → Prop) (measure : Str → Int → Nat)
    (hpass : ∀ s tokens pos, Inv s tokens → find delim s = some pos →
      maxElem < 0 ∨ tokens ≠ maxElem → Inv (s.drop (pos + delim.length)) (tokens + 1) ∧
        measure (s.drop (pos + delim.length)) (tokens + 1) < measure s tokens)
    (hinv : Inv s tokens) (hfuel : measure s tokens < fuel) :
    ∃ xs, strSplitLoop delim maxElem fuel s tokens = some xs := by
  induction fuel generalizing s tokens with
  | zero => omega
  | succ fuel ih =>
    rcases strSplitLoop_pass delim maxElem s tokens with ⟨pos, hfind, hgo⟩ | hstop
    · obtain ⟨hnext, hless⟩ := hpass s tokens pos hinv hfind hgo
      obtain ⟨rest, hrest⟩ := ih hnext (by omega)
      rw [strSplitLoop_cut hfind hgo, hrest]
      exact ⟨_, rfl⟩
    · rw [strSplitLoop_stop hstop]
      exact ⟨_, rfl⟩

/-- A non-empty delimiter makes every pass but the last one shorten the rest. -/
theorem strSplitLoop_shrinks (hdelim : delim ≠ []) (hfuel : s.length < fuel) :
    ∃ xs, strSplitLoop delim maxElem fuel s tokens = some xs := by
  refine strSplitLoop_ends (fun _ _ => True) (fun s _ => s.length) ?_ trivial hfuel
  intro s tokens pos _ hfind _
  have hpos := List.length_pos_iff.2 hdelim
  obtain ⟨t, u, rfl, rfl, -⟩ := find_cut hfind
  refine ⟨trivial, ?_⟩
  rw [List.length_drop, List.length_append, List.length_append]
  omega

/-- With a limit the elements are counted, whatever the delimiter. -/
theorem strSplitLoop_counts (hlimit : tokens ≤ maxElem) (hpos : 0 ≤ maxElem)
    (hfuel : (maxElem - tokens).toNat < fuel) :
    ∃ xs, strSplitLoop delim maxElem fuel s tokens = some xs := by
  refine strSplitLoop_ends (fun _ tokens => tokens ≤ maxElem)
    (fun _ tokens => (maxElem - tokens).toNat) ?_ hlimit hfuel
  intro s tokens pos hle _ hgo
  refine ⟨?_, ?_⟩
  · omega
  · omega

/-- An empty delimiter is found again and again. -/
theorem strSplitLoop_endless (hlimit : maxElem ≤ 0) (hfirst : 1 ≤ tokens) (fuel : Nat) :
    strSplitLoop [] maxElem fuel s tokens = none := by
  induction fuel generalizing s tokens with
  | zero => rfl
  | succ fuel ih =>
    rw [strSplitLoop_cut (find_nil s) (by omega), ih (by omega)]
    rfl

/-- The fuel decides whether there is a result, not which one. -/
theorem strSplitLoop_unique {fuel' : Nat} {ys : List Str}
    (hxs : strSplitLoop delim maxElem fuel s tokens = some xs)
    (hys : strSplitLoop delim maxElem fuel' s tokens = some ys) : xs = ys := by
  induction fuel generalizing fuel' s tokens xs ys with
  | zero => cases hxs
  | succ fuel ih =>
    cases fuel' with
    | zero => cases hys
    | succ fuel' =>
      rcases strSplitLoop_pass delim maxElem s tokens with ⟨pos, hfind, hgo⟩ | hstop
      · rw [strSplitLoop_cut hfind hgo, Option.map_eq_some_iff] at hxs hys
        obtain ⟨rest, hrest, rfl⟩ := hxs
        obtain ⟨rest', hrest', rfl⟩ := hys
        rw [ih hrest hrest']
      · rw [strSplitLoop_stop hstop, Option.some.injEq] at hxs hys
        rw [← hxs, ← hys]

/-! ## All of `strSplit` -/

theorem strSplit_isSome (str delim : Str) (maxElem : Int) (h : delim ≠ [] ∨ 0 < maxElem) :
    ∃ xs, strSplit str delim maxElem = some xs := by
  rcases h with hdelim | hpos
  · exact strSplitLoop_shrinks hdelim (by omega)
  · exact strSplitLoop_counts (by omega) (by omega) (by omega)

/-- `strSplit` has no result only if the loop never ends. -/
theorem strSplit_eq_some_iff (str : Str) : strSplit str delim maxElem = some xs ↔
    ∃ fuel, strSplitLoop delim maxElem fuel str 1 = some xs := by
  refine ⟨fun h => ⟨_, h⟩, ?_⟩
  rintro ⟨fuel, h⟩
  have hends : delim ≠ [] ∨ 0 < maxElem := by
    by_contra hnever
    rw [not_or, not_not] at hnever
    rw [hnever.1, strSplitLoop_endless (by omega) (Int.le_refl 1)] at h
    cases h
  obtain ⟨ys, hys⟩ := strSplit_isSome str delim maxElem hends
  rw [hys, strSplitLoop_unique hys h]

/-- A string is split at its leftmost delimiters, and in no other way are all of them but those in
    the last of a limited number of elements taken out. -/
theorem strSplit_leftmost (str delim : Str) (maxElem : Int) (hdelim : delim ≠ [])
    (hmax : maxElem ≠ 0) : ∃ xs, strSplit str delim maxElem = some xs ∧
      IsSplit delim str maxElem xs ∧ ∀ ys, IsSplit delim str maxElem ys → ys = xs := by
  obtain ⟨xs, hxs⟩ := strSplit_isSome str delim maxElem (Or.inl hdelim)
  have hsplit := strSplitLoop_isSplit hxs (Int.le_refl 1) (by omega)
  rw [Int.sub_add_cancel] at hsplit
  exact ⟨xs, hxs, hsplit, fun ys hys => hys.unique hsplit⟩

/-- A delimiter that overlaps itself, and a limit. -/
theorem strSplit_leftmost_sample : ∃ xs, strSplit (lit "aaaaa") (lit "aa") 2 = some xs ∧
    IsSplit (lit "aa") (lit "aaaaa") 2 xs ∧
    ∀ ys, IsSplit (lit "aa") (lit "aaaaa") 2 ys → ys = xs :=
  strSplit_leftmost (lit "aaaaa") (lit "aa") 2 (by decide) (by decide)

/-! ## Limits -/

/-- With the limit 0, what precedes the first delimiter is an element nevertheless. -/
theorem strSplitLoop_zero (hfind : find delim s = some pos)
    (h : strSplitLoop delim 0 fuel s 1 = some xs) : xs ≠ [] := by
  cases fuel with
  | zero => cases h
  | succ fuel =>
    rw [strSplitLoop_cut hfind (by omega), Option.map_eq_some_iff] at h
    obtain ⟨rest, -, rfl⟩ := h
    exact List.cons_ne_nil _ _

/-- `strSplit` ends within its limit unless the limit is 0 and there is something to split, or there
    is no limit and the delimiter is empty. -/
theorem endsWithinLimit_iff (str delim : Str) (maxElem : Int) :
    EndsWithinLimit str delim maxElem ↔
      (maxElem < 0 → delim ≠ []) ∧ (maxElem = 0 → find delim str = none) := by
  rcases Int.lt_trichotomy maxElem 0 with hneg | hzero | hpos
  · have hcond : ((maxElem < 0 → delim ≠ []) ∧ (maxElem = 0 → find delim str = none)) ↔
        delim ≠ [] := ⟨fun h => h.1 hneg, fun h => ⟨fun _ => h, by omega⟩⟩
    rw [hcond]
    constructor
    · rintro ⟨fuel, xs, h, -⟩ rfl
      rw [strSplitLoop_endless (by omega) (Int.le_refl 1)] at h
      cases h
    · intro hdelim
      obtain ⟨xs, hxs⟩ := strSplit_isSome str delim maxElem (Or.inl hdelim)
      exact ⟨_, xs, hxs, by omega⟩
  · subst hzero
    have hcond : (((0 : Int) < 0 → delim ≠ []) ∧ ((0 : Int) = 0 → find delim str = none)) ↔
        find delim str = none := ⟨fun h => h.2 rfl, fun h => ⟨by omega, fun _ => h⟩⟩
    rw [hcond]
    constructor
    · rintro ⟨fuel, xs, h, hlimit⟩
      cases hfind : find delim str with
      | none => rfl
      | some pos =>
        have hne := List.length_pos_iff.2 (strSplitLoop_zero hfind h)
        have hnil := hlimit (Int.le_refl 0)
        omega
    · intro hnone
      exact ⟨1, [], strSplitLoop_stop (Or.inl hnone) 0, fun _ => Int.le_refl 0⟩
  · have hcond : (maxElem < 0 → delim ≠ []) ∧ (maxElem = 0 → find delim str = none) :=
      ⟨by omega, by omega⟩
    obtain ⟨xs, hxs⟩ := strSplit_isSome str delim maxElem (Or.inr hpos)
    have hbounded := (strSplitLoop_isSplit hxs (Int.le_refl 1) (by omega)).bounded
    exact iff_of_true ⟨_, xs, hxs, by omega⟩ hcond

/-- A limit of 0 does not keep a text with a delimiter from giving an element, and an empty delimiter
    without a limit keeps the loop going. -/
theorem limit_is_missed : strSplit (lit "a,b") (lit ",") 0 = some [lit "a"] ∧
    ¬ EndsWithinLimit (lit "a,b") (lit ",") 0 ∧ ¬ EndsWithinLimit (lit "a,b") [] (-1) := by
  refine ⟨rfl, ?_, ?_⟩
  · rintro ⟨fuel, xs, h, hlimit⟩
    have hfind : find (lit ",") (lit "a,b") = some 1 := rfl
    have hne := List.length_pos_iff.2 (strSplitLoop_zero hfind h)
    omega
  · rintro ⟨fuel, xs, h, -⟩
    rw [strSplitLoop_endless (by omega) (Int.le_refl 1)] at h
    cases h

end Ipvshttpd
