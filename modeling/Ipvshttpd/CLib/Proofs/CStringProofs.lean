import Mathlib.Data.List.TakeWhile
import Mathlib.Data.Nat.Digits.Lemmas
import Ipvshttpd.CLib.CString

/-!
# Proofs: strings of the C and C++ libraries

Decimal numerals are read back as the numbers they print (`atoi_decimal`), and the lines of a file
are those it was written from (`getLines_lines`).
-/

namespace CLib

variable {s t : Str} {c : UInt8} {n : Nat} {k : Int}

/-! ## Texts -/

theorem cStr_of_not_mem (h : 0 ∉ s) : cStr s = s := by
  unfold cStr
  rw [List.takeWhile_eq_self_iff]
  intro c hc
  have hne : c ≠ 0 := fun hz => h (hz ▸ hc)
  simpa using hne

/-- A NUL ends a text, as the end of the buffer does. -/
theorem cStr_append (h : 0 ∉ s) (ht : t.headD 0 = 0) : cStr (s ++ t) = s := by
  induction s with
  | nil =>
    cases t with
    | nil => rfl
    | cons c t =>
      rw [List.headD_cons] at ht
      rw [ht]
      rfl
  | cons c s ih =>
    rw [List.mem_cons, not_or] at h
    have hc : c ≠ 0 := Ne.symm h.1
    have hrest := ih h.2
    unfold cStr at hrest ⊢
    rw [List.cons_append, List.takeWhile_cons, if_pos (by simpa using hc), hrest]

/-- A buffer is the text at its start and what follows that, which is a NUL if there is anything. -/
theorem exists_cStr_append (s : Str) : ∃ suf, s = cStr s ++ suf ∧ suf.headD 0 = 0 ∧ 0 ∉ cStr s := by
  by_cases hzero : 0 ∈ s
  · obtain ⟨a, b, rfl, ha⟩ := List.eq_append_cons_of_mem hzero
    have hrest : (0 :: b : Str).headD 0 = 0 := rfl
    rw [cStr_append ha hrest]
    exact ⟨0 :: b, rfl, hrest, ha⟩
  · rw [cStr_of_not_mem hzero]
    exact ⟨[], (List.append_nil s).symm, rfl, hzero⟩

theorem headD_append (ht : t.headD 0 = 0) : (s ++ t).headD 0 = s.headD 0 := by
  cases s with
  | nil => exact ht
  | cons c s => rfl

theorem findIdx?_append (h : c ∉ s) (t : Str) :
    (s ++ c :: t).findIdx? (· = c) = some s.length := by
  induction s with
  | nil => simp [List.findIdx?_cons]
  | cons d s ih =>
    rw [List.mem_cons, not_or] at h
    have hd : d ≠ c := Ne.symm h.1
    rw [List.cons_append, List.findIdx?_cons, if_neg (by simpa using hd), ih h.2]
    rfl

theorem lastIdx?_eq_none (h : c ∉ s) : lastIdx? c s = none := by
  induction s with
  | nil => rfl
  | cons d s ih =>
    rw [List.mem_cons, not_or] at h
    have hd : d ≠ c := Ne.symm h.1
    simp [lastIdx?, ih h.2, hd]

/-- The last occurrence of a byte is followed by a text without it. -/
theorem lastIdx?_append (s : Str) (h : c ∉ t) : lastIdx? c (s ++ c :: t) = some s.length := by
  induction s with
  | nil => simp [lastIdx?, lastIdx?_eq_none h]
  | cons d s ih => simp [lastIdx?, ih]

theorem first_unique {s' t' : Str} (h : c ∉ s) (h' : c ∉ s') (heq : s ++ c :: t = s' ++ c :: t') :
    s = s' ∧ t = t' := by
  have hlen : some s.length = some s'.length := by
    rw [← findIdx?_append h t, heq, findIdx?_append h' t']
  obtain ⟨hs, ht⟩ := List.append_inj heq (Option.some.inj hlen)
  exact ⟨hs, (List.cons.inj ht).2⟩

theorem last_unique {s' t' : Str} (h : c ∉ t) (h' : c ∉ t') (heq : s ++ c :: t = s' ++ c :: t') :
    s = s' ∧ t = t' := by
  have hlen : some s.length = some s'.length := by
    rw [← lastIdx?_append s h, heq, lastIdx?_append s' h']
  obtain ⟨hs, ht⟩ := List.append_inj heq (Option.some.inj hlen)
  exact ⟨hs, (List.cons.inj ht).2⟩

theorem exists_last (h : c ∈ s) : ∃ a b, s = a ++ c :: b ∧ c ∉ b := by
  obtain ⟨b, a, hsplit, hb⟩ := List.eq_append_cons_of_mem (List.mem_reverse.2 h)
  refine ⟨a.reverse, b.reverse, ?_, by simpa using hb⟩
  rw [← List.reverse_reverse s, hsplit]
  simp

theorem set_length (s : Str) (c d : UInt8) (t : Str) :
    (s ++ c :: t).set s.length d = s ++ d :: t := by
  rw [List.set_append_right _ _ (Nat.le_refl _), Nat.sub_self]
  rfl

theorem drop_length_succ (s : Str) (c : UInt8) (t : Str) : (s ++ c :: t).drop (s.length + 1) = t := by
  rw [List.drop_append]
  simp

/-- The first occurrence of a byte is at the end of a text without it. -/
theorem find_singleton (h : c ∉ s) (t : Str) : find [c] (s ++ c :: t) = some s.length := by
  induction s with
  | nil => simp [find]
  | cons d s ih =>
    rw [List.mem_cons, not_or] at h
    rw [List.cons_append, find]
    simp [h.1, ih h.2]

theorem find_singleton_eq_none (h : c ∉ s) : find [c] s = none := by
  induction s with
  | nil => simp [find]
  | cons d s ih =>
    rw [List.mem_cons, not_or] at h
    rw [find]
    simp [h.1, ih h.2]

/-! ## Numbers -/

theorem digitsVal_snoc (ds : Str) (c : UInt8) :
    digitsVal (ds ++ [c]) = digitsVal ds * 10 + (c.toNat - 48) := by
  simp [digitsVal, List.foldl_append]

theorem digit_facts : ∀ d < 10, isdigit (UInt8.ofNat (48 + d)) = true ∧
    (UInt8.ofNat (48 + d)).toNat - 48 = d := by
  decide

theorem digitsVal_digits (ds : List Nat) (h : ∀ d ∈ ds, d < 10) :
    digitsVal (ds.reverse.map fun d => UInt8.ofNat (48 + d)) = Nat.ofDigits 10 ds := by
  induction ds with
  | nil => rfl
  | cons d ds ih =>
    have hd := (digit_facts d (h d (List.mem_cons_self ..))).2
    rw [List.reverse_cons, List.map_append, List.map_singleton, digitsVal_snoc,
      ih fun d' hd' => h d' (List.mem_cons_of_mem _ hd'), hd, Nat.ofDigits_cons]
    omega

theorem digitsVal_decimalNat (n : Nat) : digitsVal (decimalNat n) = n := by
  unfold decimalNat
  split
  · rename_i hn
    rw [hn]
    rfl
  · rw [digitsVal_digits _ fun d hd => Nat.digits_lt_base (by omega) hd, Nat.ofDigits_digits]

theorem isdigit_of_mem_decimalNat (h : c ∈ decimalNat n) : isdigit c = true := by
  unfold decimalNat at h
  split at h
  · rw [List.mem_singleton] at h
    rw [h]
    rfl
  · obtain ⟨d, hd, rfl⟩ := List.mem_map.1 h
    exact (digit_facts d (Nat.digits_lt_base (by omega) (List.mem_reverse.1 hd))).1

theorem decimalNat_ne_nil (n : Nat) : decimalNat n ≠ [] := by
  unfold decimalNat
  split
  · exact List.cons_ne_nil _ _
  · rename_i hn
    simpa [Nat.digits_eq_nil_iff_eq_zero] using hn

theorem isdigit_facts (h : isdigit c = true) : isspace c = false ∧ c ≠ 45 ∧ c ≠ 43 ∧ c ≠ 0 := by
  have hall : ∀ c : UInt8, isdigit c = true →
      isspace c = false ∧ c ≠ 45 ∧ c ≠ 43 ∧ c ≠ 0 := by
    intro c hc
    have hrange : 48 ≤ c.toNat ∧ c.toNat ≤ 57 := by
      simpa [isdigit, UInt8.le_iff_toNat_le] using hc
    have hne : ∀ d : UInt8, d.toNat < 48 → c ≠ d := by
      rintro d hd rfl
      omega
    refine ⟨?_, hne 45 (by decide), hne 43 (by decide), hne 0 (by decide)⟩
    have h32 : c ≠ 32 := hne 32 (by decide)
    simp only [isspace, h32, decide_false, Bool.false_or, Bool.and_eq_false_iff,
      decide_eq_false_iff_not, UInt8.le_iff_toNat_le]
    right
    simp only [UInt8.reduceToNat]
    omega
  exact hall c h

theorem takeWhile_isdigit (n : Nat) : (decimalNat n).takeWhile isdigit = decimalNat n :=
  List.takeWhile_eq_self_iff.2 fun _ hc => isdigit_of_mem_decimalNat hc

/-- A text that begins with a digit has no white space and no sign to skip. -/
theorem splitSign_of_isdigit (h : isdigit c = true) (t : Str) :
    splitSign ((c :: t).dropWhile isspace) = (false, c :: t) := by
  obtain ⟨hspace, hminus, hplus, -⟩ := isdigit_facts h
  rw [List.dropWhile_cons, if_neg (by rw [hspace]; exact Bool.false_ne_true)]
  unfold splitSign
  split
  · rename_i hc
    exact absurd (List.cons.inj hc).1 hminus
  · rename_i hc
    exact absurd (List.cons.inj hc).1 hplus
  · rfl

theorem splitSign_decimal (k : Int) :
    splitSign ((decimal k).dropWhile isspace) = (decide (k < 0), decimalNat k.natAbs) := by
  unfold decimal
  by_cases hk : k < 0
  · rw [if_pos hk]
    simp [List.dropWhile, isspace, splitSign, hk]
  · rw [if_neg hk]
    cases hds : decimalNat k.natAbs with
    | nil => exact absurd hds (decimalNat_ne_nil _)
    | cons d ds =>
      have hd : isdigit d = true := by
        refine isdigit_of_mem_decimalNat (n := k.natAbs) ?_
        rw [hds]
        exact List.mem_cons_self ..
      rw [splitSign_of_isdigit hd]
      simp [hk]

/-- The numeral of a number in the range of `long` is read back in full. -/
theorem strtol_decimal (hmin : longMin ≤ k) (hmax : k ≤ longMax) :
    strtol (decimal k) = ⟨k, [], false⟩ := by
  have hdrop : (decimalNat k.natAbs).dropWhile isdigit = [] :=
    List.dropWhile_eq_nil_iff.2 fun _ hc => isdigit_of_mem_decimalNat hc
  have hvalue : (if decide (k < 0) = true then -(k.natAbs : Int) else (k.natAbs : Int)) = k := by
    by_cases hk : k < 0
    · simp only [hk, decide_true, if_true]
      omega
    · simp only [hk, decide_false, Bool.false_eq_true, if_false]
      omega
  unfold strtol
  simp only [splitSign_decimal, takeWhile_isdigit, decimalNat_ne_nil, if_false, digitsVal_decimalNat,
    hvalue, hdrop]
  rw [if_neg (by omega), if_neg (by omega)]

/-- An `int` in decimal is read back by `atoi`. -/
theorem atoi_decimal (hmin : -2 ^ 31 ≤ k) (hmax : k < 2 ^ 31) : atoi (decimal k) = k := by
  unfold atoi toInt32
  rw [strtol_decimal (by unfold longMin; omega) (by unfold longMax; omega)]
  show (BitVec.ofInt 32 k).toInt = k
  rw [BitVec.toInt_ofInt]
  refine Int.bmod_eq_of_le ?_ ?_
  · omega
  · omega

theorem isNumeral_decimalNat (n : Nat) : IsNumeral (decimalNat n) n := by
  refine ⟨decimalNat_ne_nil n, ?_, digitsVal_decimalNat n⟩
  rw [List.all_eq_true]
  intro c hc
  exact isdigit_of_mem_decimalNat hc

theorem IsNumeral.isdigit (h : IsNumeral s n) (hc : c ∈ s) : CLib.isdigit c = true :=
  List.all_eq_true.1 h.2.1 c hc

theorem IsNumeral.zero_not_mem (h : IsNumeral s n) : 0 ∉ s :=
  fun hzero => (isdigit_facts (h.isdigit hzero)).2.2.2 rfl

/-- A numeral is read up to the largest `long`. -/
theorem strtol_numeral (h : IsNumeral s n) :
    strtol s = if longMax < n then ⟨longMax, [], true⟩ else ⟨n, [], false⟩ := by
  have htake : s.takeWhile CLib.isdigit = s :=
    List.takeWhile_eq_self_iff.2 fun _ hc => h.isdigit hc
  have hdrop : s.dropWhile CLib.isdigit = [] :=
    List.dropWhile_eq_nil_iff.2 fun _ hc => h.isdigit hc
  have hsigned : splitSign (s.dropWhile isspace) = (false, s) := by
    cases s with
    | nil => exact absurd rfl h.1
    | cons c t => exact splitSign_of_isdigit (h.isdigit (List.mem_cons_self ..)) t
  unfold strtol
  simp only [hsigned, htake, hdrop, h.1, h.2.2, if_false, Bool.false_eq_true]
  have hmin : ¬ ((n : Int) < longMin) := by
    unfold longMin
    omega
  rw [if_neg hmin]

/-- The digits after a minus sign are read down to the least `long`. -/
theorem strtol_minus (t : Str) :
    (strtol (45 :: t)).value = max longMin (-(digitsVal (t.takeWhile CLib.isdigit) : Int)) := by
  have hsigned : splitSign ((45 :: t).dropWhile isspace) = (true, t) := rfl
  unfold strtol
  simp only [hsigned, if_true]
  by_cases hds : t.takeWhile CLib.isdigit = []
  · rw [if_pos hds, hds]
    rfl
  · rw [if_neg hds, if_neg (by unfold longMax; omega)]
    by_cases hmin : -(digitsVal (t.takeWhile CLib.isdigit) : Int) < longMin
    · rw [if_pos hmin, max_eq_left hmin.le]
    · rw [if_neg hmin, max_eq_right (not_lt.1 hmin)]

/-- An `int` that is converted to 64 bits is a number below 2^63 exactly if it is not negative. -/
theorem ofInt_toInt32_eq_ofNat (hn : n < 2 ^ 63) :
    BitVec.ofInt 64 (toInt32 n) = BitVec.ofNat 64 n ↔ n < 2 ^ 31 := by
  unfold toInt32
  rw [← BitVec.toNat_inj, BitVec.toNat_ofInt, BitVec.toInt_ofInt, BitVec.toNat_ofNat, Int.bmod_def]
  omega

theorem ofInt_toInt32_eq_zero : BitVec.ofInt 64 (toInt32 k) = 0 ↔ 2 ^ 32 ∣ k := by
  unfold toInt32
  rw [← BitVec.toNat_inj, BitVec.toNat_ofInt, BitVec.toInt_ofInt, Int.bmod_def]
  simp only [BitVec.ofNat_eq_ofNat, BitVec.toNat_ofNat]
  omega

theorem zero_not_mem_decimal (k : Int) : 0 ∉ decimal k := by
  have hdigits : 0 ∉ decimalNat k.natAbs :=
    fun h => (isdigit_facts (isdigit_of_mem_decimalNat h)).2.2.2 rfl
  unfold decimal
  split
  · simpa using hdigits
  · exact hdigits

/-! ## Formats -/

/-- A format prints no more bytes than it has. -/
theorem printf_length (h : printf s = some t) : t.length ≤ s.length := by
  induction s using printf.induct generalizing t with
  | case1 =>
    cases h
    exact Nat.le_refl _
  | case2 cs ih =>
    rw [printf, Option.map_eq_some_iff] at h
    obtain ⟨u, hu, rfl⟩ := h
    have hle := ih hu
    rw [List.length_cons, List.length_cons, List.length_cons]
    omega
  | case3 cs hcs =>
    rw [printf.eq_3 _ hcs] at h
    cases h
  | case4 c cs hpair hc ih =>
    rw [printf.eq_4 _ _ hpair hc, Option.map_eq_some_iff] at h
    obtain ⟨u, hu, rfl⟩ := h
    exact Nat.succ_le_succ (ih hu)

/-- A format prints itself exactly if it has no percent sign. -/
theorem printf_eq_self_iff : printf s = some s ↔ 37 ∉ s := by
  induction s using printf.induct with
  | case1 => simp [printf]
  | case2 cs ih =>
    refine iff_of_false (fun h => ?_) (by simp)
    rw [printf, Option.map_eq_some_iff] at h
    obtain ⟨u, hu, heq⟩ := h
    have hle := printf_length hu
    have hlen := congrArg List.length heq
    rw [List.length_cons, List.length_cons, List.length_cons] at hlen
    omega
  | case3 cs hcs =>
    refine iff_of_false (fun h => ?_) (by simp)
    rw [printf.eq_3 _ hcs] at h
    cases h
  | case4 c cs hpair hc ih =>
    have hne : 37 ≠ c := fun h => hc h.symm
    rw [printf.eq_4 _ _ hpair hc, List.mem_cons, not_or, ← ih, and_iff_right hne]
    simp

/-! ## Lines -/

theorem getLinesFrom_line (cur : Str) (h : 10 ∉ s) (rest : Str) :
    getLinesFrom cur (s ++ 10 :: rest) = (cur ++ s) :: getLinesFrom [] rest := by
  induction s generalizing cur with
  | nil => simp [getLinesFrom]
  | cons c s ih =>
    rw [List.mem_cons, not_or] at h
    have hc : c ≠ 10 := Ne.symm h.1
    rw [List.cons_append, getLinesFrom, if_neg hc, ih _ h.2]
    simp

theorem getLinesFrom_last (cur : Str) (h : 10 ∉ s) :
    getLinesFrom cur s = if cur ++ s = [] then [] else [cur ++ s] := by
  induction s generalizing cur with
  | nil => simp [getLinesFrom]
  | cons c s ih =>
    rw [List.mem_cons, not_or] at h
    have hc : c ≠ 10 := Ne.symm h.1
    rw [getLinesFrom, if_neg hc, ih _ h.2]
    simp

/-- The lines of a file that consists of lines with their newlines and an unfinished last line, which
    counts if it is not empty. -/
theorem getLines_lines (ls : List Str) (last : Str) (h : ∀ l ∈ ls, 10 ∉ l) (hlast : 10 ∉ last) :
    getLines ((ls.flatMap fun l => l ++ [10]) ++ last) = ls ++ if last = [] then [] else [last] := by
  induction ls with
  | nil =>
    unfold getLines
    rw [List.flatMap_nil, List.nil_append, getLinesFrom_last [] hlast]
    rfl
  | cons l ls ih =>
    have hrest := ih fun l' hl' => h l' (List.mem_cons_of_mem _ hl')
    unfold getLines at hrest ⊢
    rw [List.flatMap_cons, List.append_assoc, List.append_assoc, List.singleton_append,
      getLinesFrom_line [] (h l (List.mem_cons_self ..)), hrest]
    rfl

theorem rawLines_ne_nil (contents : Str) : rawLines contents ≠ [] := List.splitOn_ne_nil 10 contents

theorem rawLines_joinLines {ls : List Str} (h : ∀ l ∈ ls, 10 ∉ l) (hne : ls ≠ []) :
    rawLines (joinLines ls) = ls :=
  List.splitOn_intercalate 10 h hne

theorem not_mem_of_mem_splitOn {l : Str} (h : l ∈ s.splitOn c) : c ∉ l := by
  induction s generalizing l with
  | nil =>
    rw [List.splitOn_nil, List.mem_singleton] at h
    simp [h]
  | cons d s ih =>
    rw [List.splitOn_cons_eq_if_modifyHead] at h
    by_cases hd : d = c
    · rw [if_pos (by simpa using hd), List.mem_cons] at h
      rcases h with rfl | h
      · simp
      · exact ih h
    · rw [if_neg (by simpa using hd)] at h
      obtain ⟨first, rest, hsplit⟩ := List.exists_cons_of_ne_nil (List.splitOn_ne_nil c s)
      rw [hsplit, List.modifyHead_cons, List.mem_cons] at h
      rcases h with rfl | h
      · have hfirst : c ∉ first := ih (by rw [hsplit]; exact List.mem_cons_self ..)
        simp [hfirst, Ne.symm hd]
      · exact ih (by rw [hsplit]; exact List.mem_cons_of_mem _ h)

theorem not_mem_of_mem_rawLines {l contents : Str} (h : l ∈ rawLines contents) : 10 ∉ l :=
  not_mem_of_mem_splitOn h

/-- `std::getline` does not count an empty text after the last newline. -/
theorem rawLines_eq (contents : Str) :
    rawLines contents = getLines contents ∨ rawLines contents = getLines contents ++ [[]] := by
  have hfrom : ∀ cs cur : Str, (cs.splitOn 10).modifyHead (cur ++ ·) = getLinesFrom cur cs ∨
      (cs.splitOn 10).modifyHead (cur ++ ·) = getLinesFrom cur cs ++ [[]] := by
    intro cs
    induction cs with
    | nil =>
      intro cur
      by_cases hcur : cur = []
      · right
        simp [getLinesFrom, hcur]
      · left
        simp [getLinesFrom, hcur]
    | cons c cs ih =>
      intro cur
      rw [List.splitOn_cons_eq_if_modifyHead]
      by_cases hc : c = 10
      · have hrest := ih []
        rw [show ((fun x : Str => [] ++ x)) = id from rfl, List.modifyHead_id, id_eq] at hrest
        rw [if_pos (by simpa using hc), List.modifyHead_cons, List.append_nil, getLinesFrom,
          if_pos hc, List.cons_append, List.cons_inj_right, List.cons_inj_right]
        exact hrest
      · have hcomp : ((cur ++ ·) ∘ List.cons c : Str → Str) = (cur ++ [c] ++ ·) := by
          funext x
          simp
        rw [if_neg (by simpa using hc), List.modifyHead_modifyHead, hcomp, getLinesFrom, if_neg hc]
        exact ih (cur ++ [c])
  have hall := hfrom contents []
  rw [show ((fun x : Str => [] ++ x)) = id from rfl, List.modifyHead_id, id_eq] at hall
  exact hall

end CLib
