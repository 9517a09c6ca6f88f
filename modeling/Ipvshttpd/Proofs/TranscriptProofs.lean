import Ipvshttpd.Transcript
import Ipvshttpd.CLib.Proofs.CStringProofs

/-!
# Proofs: transcripts

The three log functions write the same entries but for one: an error has none in syslog
(`output_eq`).
-/

namespace Ipvshttpd

open CLib

variable {g : LogSettings} {c : LogCall} {calls : List LogCall}

/-! ## The entries of one call -/

theorem and_mask_iff (x : BitVec 32) (i : Nat) (hi : i < 32) :
    x &&& BitVec.twoPow 32 i = BitVec.twoPow 32 i ↔ x.getLsbD i = true := by
  rw [BitVec.and_twoPow]
  constructor
  · intro h
    by_contra hbit
    rw [if_neg hbit] at h
    have hget := congrArg (fun y : BitVec 32 => y.getLsbD i) h
    simp [hi] at hget
  · intro hbit
    exact if_pos hbit

theorem active_std : Active g .std ↔ g.activeLogSinks &&& logSinkStd = logSinkStd :=
  (and_mask_iff g.activeLogSinks 0 (by omega)).symm

theorem active_syslog : Active g .syslog ↔ g.activeLogSinks &&& logSinkSyslog = logSinkSyslog :=
  (and_mask_iff g.activeLogSinks 1 (by omega)).symm

namespace LogCall

/-- The entry of a call on the standard sink. -/
def line : LogCall → LogOutput
  | error m => .stderr m
  | message m => .stdout m
  | debug m => .stdout m

/-- The entry of a call in syslog. -/
def record : LogCall → LogOutput
  | error m => .syslog .logWarning (cStr m)
  | message m => .syslog .logInfo (cStr m)
  | debug m => .syslog .logDebug (cStr m)

/-- The body that the three functions share, with their test `p` for syslog. The test for no sink at
    all is redundant. -/
theorem guarded_eq {level : Int} (entry entry' : LogOutput) {p q : Prop} [Decidable p] [Decidable q]
    (hnone : g.activeLogSinks = logSinkNone → ¬ p) (hp : p ↔ q) :
    (if g.loggingLevel < level then [] else if g.activeLogSinks = logSinkNone then [] else
      (if g.activeLogSinks &&& logSinkStd = logSinkStd then [entry] else []) ++
      (if p then [entry'] else [])) =
    if level ≤ g.loggingLevel then
      (if Active g .std then [entry] else []) ++ (if q then [entry'] else [])
    else [] := by
  by_cases hlevel : level ≤ g.loggingLevel
  · rw [if_neg (Int.not_lt.2 hlevel), if_pos hlevel, ← if_congr hp rfl rfl,
      if_congr active_std rfl rfl]
    by_cases hmask : g.activeLogSinks = logSinkNone
    · rw [if_pos hmask, if_neg (hnone hmask), hmask]
      rfl
    · rw [if_neg hmask]
  · rw [if_pos (Int.not_le.1 hlevel), if_neg hlevel]

/-- An admitted call has an entry on every active sink, but for an error, whose test for syslog always
    fails. -/
theorem output_eq (g : LogSettings) (c : LogCall) : c.output g =
    if c.Admitted g then
      (if Active g .std then [c.line] else []) ++
      (if Active g .syslog ∧ c.isError = false then [c.record] else [])
    else [] := by
  have hnone : g.activeLogSinks = logSinkNone →
      ¬ g.activeLogSinks &&& logSinkSyslog = logSinkSyslog := by
    intro hmask
    rw [hmask]
    decide
  cases c with
  | error m =>
    have htruth : (if g.activeLogSinks ≠ 0 ∧ logSinkSyslog ≠ 0 then 1 else 0) ≠ logSinkSyslog := by
      split <;> decide
    have hrecord : ¬ (Active g .syslog ∧ (error m).isError = false) := by
      rintro ⟨-, herror⟩
      cases herror
    exact guarded_eq _ _ (fun _ => htruth) (iff_of_false htruth hrecord)
  | message m =>
    exact guarded_eq _ _ hnone (active_syslog.symm.trans (and_iff_left rfl).symm)
  | debug m =>
    exact guarded_eq _ _ hnone (active_syslog.symm.trans (and_iff_left rfl).symm)

/-- A call has an entry on a sink if it is admitted and the sink active, but for errors in syslog. -/
def Reaches (g : LogSettings) (sink : Sink) (c : LogCall) : Prop :=
  c.Admitted g ∧ Active g sink ∧ (sink = .syslog → c.isError = false)

instance (g : LogSettings) (sink : Sink) (c : LogCall) : Decidable (Reaches g sink c) :=
  inferInstanceAs (Decidable (_ ∧ _ ∧ _))

theorem line_sink (c : LogCall) : c.line.sink = .std := by
  cases c <;> rfl

theorem record_sink (c : LogCall) : c.record.sink = .syslog := by
  cases c <;> rfl

theorem entries_eq (g : LogSettings) (sink : Sink) (c : LogCall) :
    (((c.output g).filter fun entry => entry.sink = sink).map fun _ => c) =
      if c.Reaches g sink then [c] else [] := by
  have hline : ((if Active g .std then [c.line] else []).filter fun entry => entry.sink = sink) =
      if Active g .std ∧ sink = .std then [c.line] else [] := by
    by_cases hstd : Active g .std
    · simp [hstd, List.filter_cons, line_sink, eq_comm]
    · simp [hstd]
  have hrecord : ((if Active g .syslog ∧ c.isError = false then [c.record] else []).filter
      fun entry => entry.sink = sink) =
      if Active g .syslog ∧ c.isError = false ∧ sink = .syslog then [c.record] else [] := by
    by_cases hsyslog : Active g .syslog ∧ c.isError = false
    · simp [hsyslog, List.filter_cons, record_sink, eq_comm]
    · simp only [← and_assoc, if_neg hsyslog, if_neg fun h => hsyslog (And.left h)]
      rfl
  rw [output_eq]
  unfold Reaches
  by_cases hlevel : c.Admitted g
  · rw [if_pos hlevel, List.filter_append, hline, hrecord]
    cases sink with
    | std => by_cases hstd : Active g .std <;> simp [hstd, hlevel]
    | syslog => by_cases hsyslog : Active g .syslog ∧ c.isError = false <;> simp [hsyslog, hlevel]
  · simp [hlevel]

end LogCall

/-! ## The entries of a sequence of calls -/

/-- The transcript of a sink is the filter of the calls that reach it. -/
theorem transcript_eq_filter (g : LogSettings) (sink : Sink) (calls : List LogCall) :
    transcript g sink calls = calls.filter fun c => c.Reaches g sink := by
  induction calls with
  | nil => rfl
  | cons c calls ih =>
    have hcons : transcript g sink (c :: calls) =
        (((c.output g).filter fun entry => entry.sink = sink).map fun _ => c) ++
          transcript g sink calls := List.flatMap_cons
    rw [hcons, LogCall.entries_eq, ih, List.filter_cons]
    by_cases hreach : c.Reaches g sink
    · simp [hreach]
    · simp [hreach]

theorem transcript_monotone (g : LogSettings) (calls : List LogCall) {level : Int}
    (h : g.loggingLevel ≤ level) (sink : Sink) :
    (transcript g sink calls).Sublist (transcript { g with loggingLevel := level } sink calls) := by
  rw [transcript_eq_filter, transcript_eq_filter]
  refine List.monotone_filter_right calls fun c hc => ?_
  have hreach := of_decide_eq_true hc
  exact decide_eq_true ⟨Int.le_trans hreach.1 h, hreach.2⟩

/-- A sink has an entry for exactly the admitted calls if it is active, unless it is syslog and one of
    them is an error. -/
theorem transcript_entries (g : LogSettings) (sink : Sink) (calls : List LogCall) :
    transcript g sink calls = (if Active g sink then calls.filter fun c => c.Admitted g else []) ↔
      ¬ (sink = .syslog ∧ Active g sink ∧ ∃ c ∈ calls, c.Admitted g ∧ c.isError = true) := by
  rw [transcript_eq_filter]
  by_cases hactive : Active g sink
  · rw [if_pos hactive]
    constructor
    · rintro hsame ⟨rfl, -, c, hc, hlevel, herror⟩
      have hmem : c ∈ calls.filter fun c => c.Admitted g :=
        List.mem_filter.2 ⟨hc, decide_eq_true hlevel⟩
      rw [← hsame, List.mem_filter, decide_eq_true_eq] at hmem
      have hnone := hmem.2.2.2 rfl
      rw [herror] at hnone
      cases hnone
    · intro hkept
      refine List.filter_congr fun c hc => ?_
      rw [decide_eq_decide]
      refine ⟨And.left, fun hlevel => ⟨hlevel, hactive, fun hsyslog => ?_⟩⟩
      rw [← Bool.not_eq_true]
      exact fun herror => hkept ⟨hsyslog, hactive, c, hc, hlevel, herror⟩
  · rw [if_neg hactive]
    refine iff_of_true ?_ fun h => hactive h.2.1
    rw [List.filter_eq_nil_iff]
    intro c _ hreach
    exact hactive (of_decide_eq_true hreach).2.1

/-- Both sinks have an entry for every call they should, unless syslog misses an error. -/
theorem fullTranscripts_iff (g : LogSettings) (calls : List LogCall) : FullTranscripts g calls ↔
    ¬ (Active g .syslog ∧ logLevelError ≤ g.loggingLevel ∧ ∃ m, LogCall.error m ∈ calls) := by
  have hmissed : (∃ c ∈ calls, c.Admitted g ∧ c.isError = true) ↔
      logLevelError ≤ g.loggingLevel ∧ ∃ m, LogCall.error m ∈ calls := by
    constructor
    · rintro ⟨c, hc, hlevel, herror⟩
      cases c with
      | error m => exact ⟨hlevel, m, hc⟩
      | message m => cases herror
      | debug m => cases herror
    · rintro ⟨hlevel, m, hm⟩
      exact ⟨.error m, hm, hlevel, rfl⟩
  rw [← hmissed]
  constructor
  · intro hfull hlost
    exact (transcript_entries g .syslog calls).1 (hfull.entries .syslog) ⟨rfl, hlost⟩
  · intro hkept
    have hentries : ∀ sink, transcript g sink calls =
        if Active g sink then calls.filter fun c => c.Admitted g else [] := by
      intro sink
      rw [transcript_entries]
      rintro ⟨rfl, hlost⟩
      exact hkept hlost
    refine ⟨hentries, fun hstd hsyslog => ?_, fun level hlevel sink => ?_⟩
    · rw [hentries, hentries, if_pos hstd, if_pos hsyslog]
    · exact transcript_monotone g calls hlevel sink

/-- An error is on the standard sink only, although both sinks are active. -/
theorem error_is_not_in_syslog :
    let g : LogSettings := ⟨logLevelError, logSinkStd ||| logSinkSyslog⟩
    let calls := [LogCall.error (lit "Could not load configuration file.")]
    transcript g .std calls = calls ∧ transcript g .syslog calls = [] ∧ ¬ FullTranscripts g calls := by
  refine ⟨by decide, by decide, fun hfull => ?_⟩
  exact absurd (hfull.agree rfl rfl) (by decide)

/-! ## The text of an entry -/

namespace LogCall

theorem line_text (c : LogCall) : c.line.text = some c.text := by
  cases c <;> rfl

theorem record_text (h : 0 ∉ c.text) : c.record.text = printf c.text := by
  cases c with
  | error m => exact congrArg printf (cStr_of_not_mem h)
  | message m => exact congrArg printf (cStr_of_not_mem h)
  | debug m => exact congrArg printf (cStr_of_not_mem h)

/-- An entry has the text of the message unless it goes through a format with a percent sign. -/
theorem verbatim_iff (g : LogSettings) (c : LogCall) (h : 0 ∉ c.text) : c.Verbatim g ↔
    ¬ (37 ∈ c.text ∧ Active g .syslog ∧ c.Admitted g ∧ ∀ m, c ≠ error m) := by
  have hkind : c.isError = false ↔ ∀ m, c ≠ error m := by
    cases c with
    | error m => exact iff_of_false (fun herror => by cases herror) fun hne => hne m rfl
    | message m => exact iff_of_true rfl fun _ hc => by cases hc
    | debug m => exact iff_of_true rfl fun _ hc => by cases hc
  rw [← hkind]
  unfold Verbatim
  rw [output_eq]
  constructor
  · rintro hverbatim ⟨hformat, hsyslog, hlevel, hnoerror⟩
    have hsent : Active g .syslog ∧ c.isError = false := ⟨hsyslog, hnoerror⟩
    rw [if_pos hlevel, if_pos hsent] at hverbatim
    have hrecord := hverbatim c.record (List.mem_append_right _ (List.mem_singleton_self _))
    rw [record_text h, printf_eq_self_iff] at hrecord
    exact hrecord hformat
  · intro hplain entry hentry
    by_cases hlevel : c.Admitted g
    · rw [if_pos hlevel, List.mem_append] at hentry
      rcases hentry with hline | hrecord
      · rw [List.mem_ite_nil_right, List.mem_singleton] at hline
        rw [hline.2, line_text]
      · rw [List.mem_ite_nil_right, List.mem_singleton] at hrecord
        obtain ⟨⟨hsyslog, hnoerror⟩, rfl⟩ := hrecord
        rw [record_text h, printf_eq_self_iff]
        exact fun hformat => hplain ⟨hformat, hsyslog, hlevel, hnoerror⟩
    · rw [if_neg hlevel] at hentry
      cases hentry

/-- A virtual address that is logged on both sinks. -/
theorem verbatim_iff_sample :
    let g : LogSettings := ⟨logLevelInfo, logSinkStd ||| logSinkSyslog⟩
    let c := message (lit "vip : 10.0.0.1")
    c.Verbatim g ↔ ¬ (37 ∈ c.text ∧ Active g .syslog ∧ c.Admitted g ∧ ∀ m, c ≠ error m) :=
  verbatim_iff ⟨logLevelInfo, logSinkStd ||| logSinkSyslog⟩ (message (lit "vip : 10.0.0.1")) (by decide)

/-- Of an api key with two percent signs, syslog gets one. -/
theorem api_key_is_a_format :
    let g : LogSettings := ⟨logLevelInfo, logSinkStd ||| logSinkSyslog⟩
    let c := message (lit "api key : 100%%")
    0 ∉ c.text ∧ (c.output g).map LogOutput.text =
      [some (lit "api key : 100%%"), some (lit "api key : 100%")] ∧ ¬ c.Verbatim g := by
  refine ⟨by decide, by decide, fun hverbatim => ?_⟩
  have htext := hverbatim (.syslog .logInfo (lit "api key : 100%%")) (by decide)
  exact absurd htext (by decide)

end LogCall

end Ipvshttpd
