import Ipvshttpd.CLib.Proofs.CStringProofs
import Ipvshttpd.ReadLoop

/-!
# Proofs: the content length

The length that the first read is issued for is the value of the header after three conversions: to
`long` by saturation, to `int` by truncation, to `size_t` by sign extension.
-/

namespace Ipvshttpd

open CLib ConnectionHandler

variable {headers : List RequestHeader} {h : RequestHeader}

/-- The loop over the headers stops at the first header for the content length. -/
theorem contentLength_eq (headers : List RequestHeader) :
    contentLength headers = (contentLengthHeader headers).elim 0 fun h => atoi (cStr h.value) := by
  induction headers with
  | nil => rfl
  | cons it rest ih =>
    unfold contentLength contentLengthHeader
    by_cases hname : strToLower it.name = lit "content-length"
    · simp [hname]
    · simp only [hname, if_false, List.find?_cons, decide_false]
      exact ih

theorem start_reads_of_none (h : contentLengthHeader headers = none) :
    (start headers).reads = [0] := by
  have hlen : contentLength headers = 0 := by rw [contentLength_eq, h, Option.elim_none]
  unfold start
  rw [hlen]
  rfl

theorem start_reads_of_some (hh : contentLengthHeader headers = some h) :
    (start headers).reads = [BitVec.ofInt 64 (toInt32 (strtol (cStr h.value)).value)] := by
  have hlen : contentLength headers = atoi (cStr h.value) := by
    rw [contentLength_eq, hh, Option.elim_some]
  unfold start
  rw [hlen]
  rfl

/-- A numeral below 2^63 is the length exactly if it fits an `int`. -/
theorem start_reads_numeral {n : Nat} (hh : contentLengthHeader headers = some h)
    (hnum : IsNumeral h.value n) (hn : n < 2 ^ 63) :
    (start headers).reads = [BitVec.ofNat 64 n] ↔ n < 2 ^ 31 := by
  have hlong : ¬ longMax < (n : Int) := by
    unfold longMax
    omega
  rw [start_reads_of_some hh, cStr_of_not_mem hnum.zero_not_mem, strtol_numeral hnum, if_neg hlong,
    List.singleton_inj]
  exact ofInt_toInt32_eq_ofNat hn

/-- A NUL ends the digits of a text as it ends the text. -/
theorem takeWhile_isdigit_cStr (t : Str) :
    (cStr t).takeWhile isdigit = t.takeWhile isdigit := by
  unfold cStr
  rw [List.takeWhile_takeWhile]
  congr 1
  funext c
  cases hc : isdigit c with
  | false => simp
  | true => simpa using (isdigit_facts hc).2.2.2

/-- After a minus sign the length is nothing exactly if there are too many digits for a `long` or the
    truncation takes all that they say. -/
theorem start_reads_minus {t : Str} (hh : contentLengthHeader headers = some h)
    (hvalue : h.value = 45 :: t) :
    (start headers).reads = [0] ↔
      2 ^ 63 ≤ digitsVal (t.takeWhile isdigit) ∨ 2 ^ 32 ∣ digitsVal (t.takeWhile isdigit) := by
  have htext : cStr h.value = 45 :: cStr t := by
    rw [hvalue]
    rfl
  rw [start_reads_of_some hh, htext, strtol_minus, takeWhile_isdigit_cStr, List.singleton_inj,
    ofInt_toInt32_eq_zero]
  unfold longMin
  omega

/-- The content length is taken exactly if the value of its header survives the `int`. -/
theorem takenExactly_iff_fitsInt (headers : List RequestHeader) :
    TakenExactly headers ↔ ∀ h, contentLengthHeader headers = some h → FitsInt h := by
  constructor
  · rintro ⟨-, htaken⟩ h hh
    refine ⟨fun n hnum hn => ?_, fun t hvalue => ?_⟩
    · exact (start_reads_numeral hh hnum hn).1 ((htaken h hh).1 n hnum hn)
    · exact (start_reads_minus hh hvalue).1 ((htaken h hh).2 t hvalue)
  · intro hfits
    refine ⟨start_reads_of_none, fun h hh => ⟨fun n hnum hn => ?_, fun t hvalue => ?_⟩⟩
    · exact (start_reads_numeral hh hnum hn).2 ((hfits h hh).1 n hnum hn)
    · exact (start_reads_minus hh hvalue).2 ((hfits h hh).2 t hvalue)

/-- A body of 4 GiB is announced, and the first read is issued for nothing. -/
theorem not_takenExactly_sample :
    ¬ TakenExactly [⟨lit "Content-Length", lit "4294967296"⟩] := by
  intro htaken
  have hread := (htaken.2 ⟨lit "Content-Length", lit "4294967296"⟩ rfl).1 4294967296
    (by decide) (by decide)
  exact absurd hread (by decide)

end Ipvshttpd
