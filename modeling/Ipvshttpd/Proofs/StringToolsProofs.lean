import Mathlib.Data.List.TakeWhile
import Ipvshttpd.CLib.Proofs.CStringProofs
import Ipvshttpd.Settings

/-!
# Proofs: string tools

Trimming takes white space away and nothing else, and a text is split at its first colon.
-/

namespace Ipvshttpd

open CLib

variable {s t : Str} {c : UInt8}

/-! ## Trimming -/

theorem strLtrim_blank (hs : Blank s) (t : Str) : strLtrim (s ++ t) = strLtrim t := by
  unfold strLtrim
  rw [List.dropWhile_append, List.dropWhile_eq_nil_iff.2 hs]
  rfl

theorem strLtrim_of_head (hc : isspace c = false) (t : Str) : strLtrim (c :: t) = c :: t := by
  unfold strLtrim
  rw [List.dropWhile_cons, if_neg (by rw [hc]; exact Bool.false_ne_true)]

theorem strRtrim_of_blank (hs : Blank s) : strRtrim s = [] := List.rdropWhile_eq_nil_iff.2 hs

theorem strRtrim_append (hc : isspace c = false) (s t : Str) :
    strRtrim (s ++ c :: t) = s ++ c :: strRtrim t := by
  induction t using List.reverseRecOn with
  | nil =>
    have hsingle : s ++ [c] = s ++ c :: [] := rfl
    unfold strRtrim
    rw [← hsingle, List.rdropWhile_concat_neg _ _ _ (by rw [hc]; exact Bool.false_ne_true)]
    rfl
  | append_singleton t d ih =>
    have hassoc : s ++ c :: (t ++ [d]) = (s ++ c :: t) ++ [d] := by simp
    rw [hassoc]
    unfold strRtrim at ih ⊢
    by_cases hd : isspace d = true
    · rw [List.rdropWhile_concat_pos _ _ _ hd, List.rdropWhile_concat_pos _ _ _ hd, ih]
    · rw [List.rdropWhile_concat_neg _ _ _ hd, List.rdropWhile_concat_neg _ _ _ hd]
      simp

theorem strTrim_strRtrim (s : Str) : strTrim (strRtrim s) = strTrim s := by
  unfold strTrim strRtrim
  rw [List.rdropWhile_idempotent]

theorem strTrim_of_blank (hs : Blank s) : strTrim s = [] := by
  unfold strTrim
  rw [strRtrim_of_blank hs]
  rfl

theorem strRtrim_blank (ht : Blank t) (s : Str) : strRtrim (s ++ t) = strRtrim s := by
  induction t using List.reverseRecOn with
  | nil => rw [List.append_nil]
  | append_singleton t d ih =>
    have hd : isspace d = true := ht d (by simp)
    have hinit : Blank t := fun c hc => ht c (List.mem_append_left _ hc)
    rw [← ih hinit, ← List.append_assoc]
    exact List.rdropWhile_concat_pos _ _ _ hd

theorem strTrim_blank_append {lead : Str} (hlead : Blank lead) (s : Str) :
    strTrim (lead ++ s) = strTrim s := by
  by_cases hs : Blank s
  · have hall : Blank (lead ++ s) := by
      intro c hc
      rcases List.mem_append.1 hc with hc | hc
      · exact hlead c hc
      · exact hs c hc
    rw [strTrim_of_blank hall, strTrim_of_blank hs]
  · unfold Blank at hs
    push Not at hs
    obtain ⟨c, hmem, hc⟩ := hs
    have hspace : isspace c = false := by simpa using hc
    obtain ⟨u, w, rfl⟩ := List.append_of_mem hmem
    unfold strTrim
    rw [← List.append_assoc, strRtrim_append hspace, strRtrim_append hspace, List.append_assoc,
      strLtrim_blank hlead]

/-- White space around a text is trimmed as if it were not there. -/
theorem strTrim_pads {lead trail : Str} (hlead : Blank lead) (htrail : Blank trail) (s : Str) :
    strTrim (lead ++ (s ++ trail)) = strTrim s := by
  rw [strTrim_blank_append hlead]
  unfold strTrim
  rw [strRtrim_blank htrail]

theorem strTrim_of_trimmed (hs : Trimmed s) : strTrim s = s := by
  cases s using List.reverseRecOn with
  | nil => rfl
  | append_singleton s d =>
    have hd : isspace d = false := hs.last d (by simp)
    unfold strTrim
    rw [strRtrim_append hd]
    cases s with
    | nil => exact strLtrim_of_head hd []
    | cons b s => exact strLtrim_of_head (hs.head b (by simp)) _

/-- White space around a text is taken away. -/
theorem strTrim_padded {lead trail : Str} (hlead : Blank lead) (htrail : Blank trail)
    (hs : Trimmed s) : strTrim (lead ++ (s ++ trail)) = s := by
  rw [strTrim_pads hlead htrail, strTrim_of_trimmed hs]

/-- The text of a line that begins with a byte that is no white space. -/
theorem strTrim_line {lead : Str} (hlead : Blank lead) (hc : isspace c = false) (t : Str) :
    strTrim (lead ++ c :: t) = c :: strRtrim t := by
  unfold strTrim
  rw [strRtrim_append hc, strLtrim_blank hlead, strLtrim_of_head hc]

theorem strLtrim_colon (s t : Str) : strLtrim (s ++ 58 :: t) = strLtrim s ++ 58 :: t := by
  have hcolon : isspace 58 = false := rfl
  unfold strLtrim
  rw [List.dropWhile_append]
  cases hs : s.dropWhile isspace with
  | nil => exact strLtrim_of_head hcolon t
  | cons c s => rfl

theorem not_mem_strLtrim (h : c ∉ s) : c ∉ strLtrim s :=
  fun hmem => h ((List.dropWhile_sublist isspace).subset hmem)

/-! ## Splitting -/

/-- The last element takes the whole rest, delimiters included. -/
theorem strSplitLoop_last (delim : Str) (fuel : Nat) (t : Str) :
    strSplitLoop delim 2 (fuel + 1) t 2 = some [t] := by
  unfold strSplitLoop
  split <;> simp

/-- A text is split at its first colon, even if there are more. -/
theorem strSplit_colon (h : 58 ∉ s) (t : Str) :
    strSplit (s ++ 58 :: t) (lit ":") 2 = some [s, t] := by
  have hfind : find (lit ":") (s ++ 58 :: t) = some s.length := find_singleton h t
  have hlen : (lit ":").length = 1 := rfl
  have hdrop : (s ++ 58 :: t).drop (s.length + 1) = t := by
    rw [List.drop_append]
    simp
  have hfuel : (s ++ 58 :: t).length + (2 : Int).toNat + 1 =
      ((s ++ 58 :: t).length + 1 + 1) + 1 := rfl
  unfold strSplit
  rw [hfuel]
  unfold strSplitLoop
  rw [hfind]
  simp only [hlen, hdrop]
  rw [if_pos (Or.inr (by decide)), show (1 : Int) + 1 = 2 from rfl, strSplitLoop_last,
    List.take_left]
  rfl

/-- Without a limit a text is split at every occurrence of a delimiter of one byte. -/
theorem strSplitLoop_byte (c : UInt8) (fuel : Nat) (s : Str) (tokens : Int) (h : s.length < fuel) :
    strSplitLoop [c] (-1) fuel s tokens = some (s.splitOn c) := by
  induction fuel generalizing s tokens with
  | zero => omega
  | succ fuel ih =>
    unfold strSplitLoop
    by_cases hc : c ∈ s
    · obtain ⟨a, b, rfl, ha⟩ := List.eq_append_cons_of_mem hc
      have hdrop : (a ++ c :: b).drop (a.length + [c].length) = b := by
        rw [List.drop_append]
        simp
      have hlen : b.length < fuel := by
        rw [List.length_append, List.length_cons] at h
        omega
      rw [find_singleton ha]
      simp only [hdrop]
      rw [if_pos (Or.inl (by decide)), ih b _ hlen, List.take_left,
        List.splitOn_append_cons_self_of_not_mem ha]
      rfl
    · rw [find_singleton_eq_none hc, List.splitOn_eq_singleton hc]
      rfl

theorem strSplit_byte (s : Str) (c : UInt8) : strSplit s [c] (-1) = some (s.splitOn c) := by
  unfold strSplit
  exact strSplitLoop_byte c _ s 1 (by omega)

/-! ## Letter case -/

theorem tolower_of_isspace (h : isspace c = true) : tolower c = c := by
  have hrange : c.toNat = 32 ∨ (9 ≤ c.toNat ∧ c.toNat ≤ 13) := by
    simpa [isspace, UInt8.le_iff_toNat_le, ← UInt8.toNat_inj] using h
  unfold tolower
  rw [if_neg]
  simp only [Bool.and_eq_true, decide_eq_true_eq, UInt8.le_iff_toNat_le, UInt8.reduceToNat]
  omega

/-- A byte that is no letter is in a text only if it is in its lower case. -/
theorem not_mem_of_strToLower {d : UInt8} (hd : tolower d = d) (h : d ∉ strToLower s) : d ∉ s := by
  intro hmem
  exact h (List.mem_map.2 ⟨d, hmem, hd⟩)

end Ipvshttpd
