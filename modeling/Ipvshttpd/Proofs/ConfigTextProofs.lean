import Ipvshttpd.ConfigText
import Ipvshttpd.Proofs.ConfigurationProofs

/-!
# Proofs: lines of configuration files

The line loop of `open` accepts a file if it accepts every line (`openFile_valid`), and the setting
of a key is then what the values for the key make of the one before (`openFile_get`). From this it
follows which files keep their meaning without their earlier lines, and that no value is ever checked.
-/

namespace Ipvshttpd

open CLib

variable {m m' : ConfigurationManager} {key : Key} {line filename contents value : Str}
variable {lines : List Str} {lineNr : Int}

/-! ## One line -/

theorem Key.name_injective : Function.Injective Key.name := by
  intro a b h
  cases a <;> cases b <;> first | rfl | exact absurd h (by decide)

theorem setOption_update (h : m.setOption key.name value = some m') :
    m'.get key = key.update (m.get key) value := by
  cases key with
  | useSsl =>
    have hset : m.setOption Key.useSsl.name value =
        if SwitchesOn value then some { m with mUseSsl := true } else some m := rfl
    rw [hset] at h
    unfold Key.update
    by_cases hon : SwitchesOn value
    · rw [if_pos hon, Option.some.injEq] at h
      rw [← h]
      exact (if_pos hon).symm
    · rw [if_neg hon, Option.some.injEq] at h
      rw [← h]
      exact (if_neg hon).symm
  | _ =>
    cases h
    rfl

theorem settingOf_eq_some : settingOf key line = some value ↔ parseLine line = .setting key.name value := by
  unfold settingOf
  cases hline : parseLine line with
  | skip => simp
  | malformed => simp
  | setting name v =>
    by_cases hname : name = key.name
    · simp [hname]
    · simp [hname]

/-- A line assigns to one key at most. -/
theorem settingOf_eq_none {k : Key} (h : settingOf key line = some value) (hk : k ≠ key) :
    settingOf k line = none := by
  rw [Option.eq_none_iff_forall_ne_some]
  intro v hv
  rw [settingOf_eq_some] at h hv
  rw [h, ConfigLine.setting.injEq] at hv
  exact hk (Key.name_injective hv.1).symm

theorem applyLine_accepted (m : ConfigurationManager) (line : Str) :
    Accepted line ↔ ∃ m', applyLine m line = some m' := by
  unfold Accepted applyLine
  cases hline : parseLine line with
  | skip => simp
  | malformed => simp
  | setting name v =>
    constructor
    · rintro (hskip | ⟨key, value, hset⟩)
      · cases hskip
      · obtain ⟨rfl, rfl⟩ := ConfigLine.setting.inj hset
        obtain ⟨m', hm', -⟩ := setOption_name m key v
        exact ⟨m', hm'⟩
    · rintro ⟨m', hm'⟩
      obtain ⟨key, rfl, -⟩ := setOption_frame hm'
      exact Or.inr ⟨key, v, rfl⟩

theorem applyLine_get (h : applyLine m line = some m') (key : Key) :
    m'.get key = (settingOf key line).elim (m.get key) (key.update (m.get key)) := by
  unfold applyLine at h
  cases hline : parseLine line with
  | skip =>
    rw [hline, Option.some.injEq] at h
    rw [h]
    simp [settingOf, hline]
  | malformed =>
    rw [hline] at h
    cases h
  | setting name v =>
    rw [hline] at h
    obtain ⟨k, rfl, hothers⟩ := setOption_frame h
    have hk : settingOf k line = some v := settingOf_eq_some.2 hline
    by_cases hkey : key = k
    · rw [hkey, hk]
      exact setOption_update h
    · rw [settingOf_eq_none hk hkey]
      exact hothers key hkey

/-! ## The line loop -/

theorem openLoop_cons_some (h : applyLine m line = some m') :
    openLoop filename (line :: lines) lineNr m = openLoop filename lines (lineNr + 1) m' := by
  unfold applyLine at h
  rw [openLoop]
  cases hline : parseLine line with
  | skip =>
    rw [hline, Option.some.injEq] at h
    rw [h]
  | malformed =>
    rw [hline] at h
    cases h
  | setting name v =>
    rw [hline] at h
    simp only [h]

theorem openLoop_cons_none (h : applyLine m line = none) :
    openLoop filename (line :: lines) lineNr m =
      ⟨false, m, [invalidLine filename (lineNr + 1)]⟩ := by
  unfold applyLine at h
  rw [openLoop]
  cases hline : parseLine line with
  | skip =>
    rw [hline] at h
    cases h
  | malformed => rfl
  | setting name v =>
    rw [hline] at h
    simp only [h]

theorem openLoop_valid (filename : Str) (lines : List Str) (lineNr : Int)
    (m : ConfigurationManager) :
    (openLoop filename lines lineNr m).valid = true ↔ ∀ line ∈ lines, Accepted line := by
  induction lines generalizing lineNr m with
  | nil => simp [openLoop]
  | cons line lines ih =>
    rw [List.forall_mem_cons, applyLine_accepted m line]
    cases hline : applyLine m line with
    | none => simp [openLoop_cons_none hline]
    | some m' => simp [openLoop_cons_some hline, ih]

theorem isSome_applyLine (line : Str) : (applyLine .new line).isSome = true ↔ Accepted line := by
  rw [applyLine_accepted .new line, Option.isSome_iff_exists]

theorem linesRead_accepted (h : ∀ line ∈ lines, Accepted line) (rest : List Str) :
    linesRead (lines ++ rest) = lines ++ linesRead rest :=
  List.takeWhile_append_of_pos fun line hline => (isSome_applyLine line).2 (h line hline)

theorem linesRead_cons (h : Accepted line) (lines : List Str) :
    linesRead (line :: lines) = line :: linesRead lines := by
  unfold linesRead
  rw [List.takeWhile_cons, if_pos]
  rw [isSome_applyLine]
  exact h

theorem linesRead_rejected (h : ¬ Accepted line) : linesRead (line :: lines) = [] := by
  unfold linesRead
  rw [List.takeWhile_cons, if_neg]
  rw [isSome_applyLine]
  exact h

/-- After the line that ends the reading, nothing is read. -/
theorem linesRead_append (h : ∃ line ∈ lines, ¬ Accepted line) (rest : List Str) :
    linesRead (lines ++ rest) = linesRead lines := by
  induction lines with
  | nil =>
    obtain ⟨line, hline, -⟩ := h
    cases hline
  | cons first lines ih =>
    by_cases hfirst : Accepted first
    · obtain ⟨line, hline, hbad⟩ := h
      have hrest : ∃ line ∈ lines, ¬ Accepted line := by
        rcases List.mem_cons.1 hline with rfl | hline
        · exact absurd hfirst hbad
        · exact ⟨line, hline, hbad⟩
      rw [List.cons_append, linesRead_cons hfirst, linesRead_cons hfirst, ih hrest]
    · rw [List.cons_append, linesRead_rejected hfirst, linesRead_rejected hfirst]

/-- Every setting is what the lines that are read make of it. -/
theorem openLoop_get (filename : Str) (lines : List Str) (lineNr : Int) (m : ConfigurationManager)
    (key : Key) : (openLoop filename lines lineNr m).manager.get key =
      afterLines key (m.get key) (linesRead lines) := by
  induction lines generalizing lineNr m with
  | nil => rfl
  | cons line lines ih =>
    cases hline : applyLine m line with
    | none =>
      have hbad : ¬ Accepted line := by
        rw [applyLine_accepted m line, hline]
        simp
      rw [openLoop_cons_none hline, linesRead_rejected hbad]
      rfl
    | some m' =>
      have hgood : Accepted line := (applyLine_accepted m line).2 ⟨m', hline⟩
      rw [openLoop_cons_some hline, linesRead_cons hgood, ih, applyLine_get hline]
      unfold afterLines
      cases hset : settingOf key line with
      | none => rw [List.filterMap_cons_none hset, Option.elim_none]
      | some value => rw [List.filterMap_cons_some hset, Option.elim_some, List.foldl_cons]

theorem linesRead_of_valid {filename : Str} {lineNr : Int} {m : ConfigurationManager}
    (h : (openLoop filename lines lineNr m).valid = true) : linesRead lines = lines := by
  rw [openLoop_valid] at h
  have hall := linesRead_accepted h []
  rw [List.append_nil] at hall
  exact hall.trans (List.append_nil _)

/-- An empty line at the end changes nothing. -/
theorem openLoop_snoc_nil (filename : Str) (lines : List Str) (lineNr : Int)
    (m : ConfigurationManager) :
    openLoop filename (lines ++ [[]]) lineNr m = openLoop filename lines lineNr m := by
  induction lines generalizing lineNr m with
  | nil => exact openLoop_cons_some rfl
  | cons line lines ih =>
    rw [List.cons_append]
    cases hline : applyLine m line with
    | none => rw [openLoop_cons_none hline, openLoop_cons_none hline]
    | some m' => rw [openLoop_cons_some hline, openLoop_cons_some hline, ih]

/-! ## Files -/

theorem openLoop_rawLines (filename contents : Str) (lineNr : Int) (m : ConfigurationManager) :
    openLoop filename (getLines contents) lineNr m =
      openLoop filename (rawLines contents) lineNr m := by
  rcases rawLines_eq contents with hlines | hlines
  · rw [hlines]
  · rw [hlines, openLoop_snoc_nil]

/-- `open` accepts a file whose lines are all accepted, whatever was set before. -/
theorem openFile_valid (m : ConfigurationManager) (filename contents : Str) :
    (m.openFile filename (some contents)).valid = true ↔
      ∀ line ∈ rawLines contents, Accepted line := by
  have hloop := openLoop_valid filename (rawLines contents) 0 m
  rw [← openLoop_rawLines] at hloop
  exact hloop

/-- After a file, every setting is what the lines that are read make of it. -/
theorem openFile_read (m : ConfigurationManager) (filename contents : Str) (key : Key) :
    (m.openFile filename (some contents)).manager.get key =
      afterLines key (m.get key) (linesRead (rawLines contents)) := by
  have hloop := openLoop_get filename (rawLines contents) 0 m key
  rw [← openLoop_rawLines] at hloop
  exact hloop

/-- After an accepted file, every setting is what the values for its key make of it. -/
theorem openFile_get (h : (m.openFile filename (some contents)).valid = true) (key : Key) :
    (m.openFile filename (some contents)).manager.get key =
      (settings key contents).foldl key.update (m.get key) := by
  have hvalid : (openLoop filename (rawLines contents) 0 m).valid = true := by
    rw [← openLoop_rawLines]
    exact h
  rw [openFile_read, linesRead_of_valid hvalid]
  rfl

/-! ## Earlier lines -/

theorem dropEarlier_sublist (key : Key) (lines : List Str) :
    List.Sublist (dropEarlier key lines) lines := by
  induction lines with
  | nil => exact List.Sublist.refl _
  | cons line lines ih =>
    unfold dropEarlier
    split
    · exact ih.cons line
    · exact ih.cons_cons line

theorem dropEarlier_ne_nil (h : lines ≠ []) : dropEarlier key lines ≠ [] := by
  induction lines with
  | nil => exact absurd rfl h
  | cons line lines ih =>
    unfold dropEarlier
    split
    · rename_i hdrop
      refine ih ?_
      rintro rfl
      simp at hdrop
    · exact List.cons_ne_nil _ _

/-- The lines that stay assign the last value to the key. -/
theorem dropEarlier_settings (key : Key) (lines : List Str) :
    (dropEarlier key lines).filterMap (settingOf key) =
      (lines.filterMap (settingOf key)).getLast?.toList := by
  induction lines with
  | nil => rfl
  | cons line lines ih =>
    unfold dropEarlier
    cases hset : settingOf key line with
    | none =>
      rw [if_neg (by simp), List.filterMap_cons_none hset, List.filterMap_cons_none hset, ih]
    | some value =>
      rw [List.filterMap_cons_some hset]
      by_cases hlater : lines.any (fun l => (settingOf key l).isSome) = true
      · obtain ⟨l, hl, hsome⟩ := List.any_eq_true.1 hlater
        obtain ⟨v, hv⟩ := Option.isSome_iff_exists.1 hsome
        have hmem : v ∈ lines.filterMap (settingOf key) := List.mem_filterMap.2 ⟨l, hl, hv⟩
        rw [if_pos ⟨rfl, hlater⟩, ih, List.getLast?_cons, List.getLast?_eq_some_getLast
          (List.ne_nil_of_mem hmem)]
        rfl
      · have hnone : lines.filterMap (settingOf key) = [] := by
          rw [List.filterMap_eq_nil_iff]
          intro l hl
          rw [← Option.not_isSome_iff_eq_none]
          intro hsome
          exact hlater (List.any_eq_true.2 ⟨l, hl, hsome⟩)
        rw [if_neg fun hdrop => hlater hdrop.2, List.filterMap_cons_some hset, ih, hnone]
        rfl

theorem dropEarlier_others {k : Key} (hk : k ≠ key) (lines : List Str) :
    (dropEarlier key lines).filterMap (settingOf k) = lines.filterMap (settingOf k) := by
  induction lines with
  | nil => rfl
  | cons line lines ih =>
    unfold dropEarlier
    split
    · rename_i hdrop
      obtain ⟨v, hv⟩ := Option.isSome_iff_exists.1 hdrop.1
      rw [List.filterMap_cons_none (settingOf_eq_none hv hk), ih]
    · cases hset : settingOf k line with
      | none => rw [List.filterMap_cons_none hset, List.filterMap_cons_none hset, ih]
      | some v => rw [List.filterMap_cons_some hset, List.filterMap_cons_some hset, ih]

theorem rawLines_withoutEarlier (key : Key) (contents : Str) :
    rawLines (withoutEarlier key contents) = dropEarlier key (rawLines contents) := by
  refine rawLines_joinLines (fun l hl => ?_) (dropEarlier_ne_nil (rawLines_ne_nil contents))
  exact not_mem_of_mem_rawLines ((dropEarlier_sublist key _).subset hl)

theorem settings_withoutEarlier (k key : Key) (contents : Str) :
    settings k (withoutEarlier key contents) =
      if k = key then (settings k contents).getLast?.toList else settings k contents := by
  unfold settings
  rw [rawLines_withoutEarlier]
  by_cases hk : k = key
  · rw [if_pos hk, hk, dropEarlier_settings]
  · rw [if_neg hk, dropEarlier_others hk]

theorem withoutEarlier_valid (h : (m.openFile filename (some contents)).valid = true) (key : Key) :
    (m.openFile filename (some (withoutEarlier key contents))).valid = true := by
  rw [openFile_valid] at h ⊢
  rw [rawLines_withoutEarlier]
  intro line hline
  exact h line ((dropEarlier_sublist key _).subset hline)

/-! ## The last value -/

/-- Of all keys but `use_ssl` the last value is in force. -/
theorem foldl_update_last (hkey : key ≠ .useSsl) (old : Setting) (values : List Str) :
    values.foldl key.update old = values.getLast?.toList.foldl key.update old := by
  have hforget : ∀ old' value, key.update old' value = key.update old value := by
    intro old' value
    cases key with
    | useSsl => exact absurd rfl hkey
    | _ => rfl
  rcases List.eq_nil_or_concat values with rfl | ⟨before, value, rfl⟩
  · rfl
  · rw [List.concat_eq_append, List.foldl_append, List.getLast?_concat]
    exact hforget _ value

/-- SSL is on from the first value on that switches it on. -/
theorem foldl_update_useSsl (b : Bool) (values : List Str) :
    values.foldl Key.useSsl.update (.flag b) = .flag (b || values.any fun v => SwitchesOn v) := by
  induction values generalizing b with
  | nil => simp
  | cons value values ih =>
    rw [List.foldl_cons, List.any_cons]
    by_cases hon : SwitchesOn value
    · have hstep : Key.useSsl.update (.flag b) value = .flag true := if_pos hon
      rw [hstep, ih]
      simp [hon]
    · have hstep : Key.useSsl.update (.flag b) value = .flag b := if_neg hon
      rw [hstep, ih]
      simp [hon]

theorem useSsl_last_iff (m : ConfigurationManager) (contents : Str) :
    (settings .useSsl contents).foldl Key.useSsl.update (m.get .useSsl) =
      (settings .useSsl contents).getLast?.toList.foldl Key.useSsl.update (m.get .useSsl) ↔
    ¬ SwitchesOff m contents := by
  have hget : m.get .useSsl = .flag m.getSsl := rfl
  rw [hget, foldl_update_useSsl, foldl_update_useSsl, Setting.flag.injEq]
  unfold SwitchesOff
  cases hssl : m.getSsl with
  | true => simp
  | false =>
    rcases List.eq_nil_or_concat (settings .useSsl contents) with hnil | ⟨before, value, hsnoc⟩
    · simp [hnil]
    · rw [hsnoc]
      by_cases hon : SwitchesOn value
      · simp [hon]
      · simp [hon]

/-- Removing the earlier lines for a key changes nothing, unless the key is `use_ssl` and the last
    line for it does not repeat that an earlier one switched SSL on. -/
theorem sameOpen_withoutEarlier_iff (m : ConfigurationManager) (filename contents : Str) (key : Key)
    (h : (m.openFile filename (some contents)).valid = true) :
    SameOpen m filename contents (withoutEarlier key contents) ↔
      ¬ (key = .useSsl ∧ SwitchesOff m contents) := by
  have hvalid := withoutEarlier_valid h key
  have hget : ∀ k, (m.openFile filename (some (withoutEarlier key contents))).manager.get k =
      (if k = key then (settings k contents).getLast?.toList else settings k contents).foldl
        k.update (m.get k) := by
    intro k
    rw [openFile_get hvalid, settings_withoutEarlier]
  unfold SameOpen
  constructor
  · rintro ⟨-, hsame⟩ ⟨rfl, hoff⟩
    have hssl := hsame .useSsl
    rw [openFile_get h, hget, if_pos rfl] at hssl
    exact (useSsl_last_iff m contents).1 hssl hoff
  · intro hnot
    refine ⟨h.trans hvalid.symm, fun k => ?_⟩
    rw [openFile_get h, hget]
    by_cases hk : k = key
    · rw [if_pos hk]
      by_cases hssl : k = .useSsl
      · have hon : ¬ SwitchesOff m contents := fun hoff => hnot ⟨hk.symm.trans hssl, hoff⟩
        rw [hssl]
        exact (useSsl_last_iff m contents).2 hon
      · exact foldl_update_last hssl _ _
    · rw [if_neg hk]

theorem sameOpen_withoutEarlier_iff_sample :
    SameOpen .new (lit "f") (lit "port: 80\nport: 443") (withoutEarlier .port (lit "port: 80\nport: 443")) ↔
      ¬ (Key.port = .useSsl ∧ SwitchesOff .new (lit "port: 80\nport: 443")) :=
  sameOpen_withoutEarlier_iff .new (lit "f") (lit "port: 80\nport: 443") .port (by decide)

/-- SSL stays on although the last line switches it off. -/
theorem use_ssl_is_not_overwritten :
    (ConfigurationManager.new.openFile (lit "f") (some (lit "use_ssl: yes\nuse_ssl: no"))).valid = true ∧
      ¬ SameOpen .new (lit "f") (lit "use_ssl: yes\nuse_ssl: no")
        (withoutEarlier .useSsl (lit "use_ssl: yes\nuse_ssl: no")) := by
  refine ⟨by decide, fun hsame => ?_⟩
  exact absurd (hsame.2 .useSsl) (by decide)

/-! ## Mistyped values -/

/-- Whether a line with a colon is accepted is decided before the colon. -/
theorem accepted_colon {before : Str} (h : 58 ∉ before) (value : Str) :
    Accepted (before ++ 58 :: value) ↔
      (strLtrim before).headD 0 = 35 ∨ ∃ key : Key, strToLower (strLtrim before) = key.name := by
  unfold Accepted
  rw [parseLine_colon h]
  by_cases hcomment : (strLtrim before).headD 0 = 35
  · rw [if_pos hcomment]
    exact iff_of_true (Or.inl rfl) (Or.inl hcomment)
  · rw [if_neg hcomment]
    constructor
    · rintro (hskip | ⟨key, v, hset⟩)
      · cases hskip
      · exact Or.inr ⟨key, (ConfigLine.setting.inj hset).1⟩
    · rintro (hhash | ⟨key, hkey⟩)
      · exact absurd hhash hcomment
      · exact Or.inr ⟨key, strTrim value, by rw [hkey]⟩

/-- `open` returns the same for a file with another value on one of its lines. -/
theorem openFile_value (m : ConfigurationManager) (filename : Str) {before value' : Str}
    {pre post : List Str} (hlines : rawLines contents = pre ++ (before ++ 58 :: value) :: post)
    (hbefore : 58 ∉ before) (hvalue : 10 ∉ value') :
    (m.openFile filename (some (joinLines (pre ++ (before ++ 58 :: value') :: post)))).valid =
      (m.openFile filename (some contents)).valid := by
  have hold : ∀ line ∈ pre ++ (before ++ 58 :: value) :: post, 10 ∉ line := by
    intro line hline
    rw [← hlines] at hline
    exact not_mem_of_mem_rawLines hline
  have hnew : rawLines (joinLines (pre ++ (before ++ 58 :: value') :: post)) =
      pre ++ (before ++ 58 :: value') :: post := by
    refine rawLines_joinLines (fun line hline => ?_) (by simp)
    rw [List.mem_append, List.mem_cons] at hline
    rcases hline with hline | rfl | hline
    · exact hold line (by simp [hline])
    · have hthis := hold (before ++ 58 :: value) (by simp)
      simp only [List.mem_append, List.mem_cons, not_or] at hthis ⊢
      exact ⟨hthis.1, hthis.2.1, hvalue⟩
    · exact hold line (by simp [hline])
  rw [Bool.eq_iff_iff, openFile_valid, openFile_valid, hnew, hlines]
  simp only [List.forall_mem_append, List.forall_mem_cons, accepted_colon hbefore]

theorem KnownKey.accepted (h : KnownKey line) : Accepted line := by
  rcases h with hblank | hcomment | ⟨key, before, value, rfl, hbefore, hkey⟩
  · left
    unfold parseLine
    rw [if_pos hblank]
  · left
    unfold parseLine
    cases htrim : strTrim line with
    | nil => rw [if_pos rfl]
    | cons c t =>
      rw [htrim] at hcomment
      have hc : c = 35 := hcomment
      rw [if_neg (List.cons_ne_nil c t), strStartsWith_hash, if_pos (decide_eq_true hc)]
  · exact (accepted_colon hbefore value).2 (Or.inr ⟨key, hkey⟩)

/-- No value is ever rejected: another value on a line does not change what `open` returns, and a file
    with mistyped values is accepted, if only all its keys are known. -/
theorem mistyped_never_rejected (m : ConfigurationManager) (filename contents : Str) :
    (∀ (pre post : List Str) (before value value' : Str),
        rawLines contents = pre ++ (before ++ 58 :: value) :: post → 58 ∉ before → 10 ∉ value' →
        (m.openFile filename (some (joinLines (pre ++ (before ++ 58 :: value') :: post)))).valid =
          (m.openFile filename (some contents)).valid) ∧
      (¬ WellTyped contents → (∀ line ∈ rawLines contents, KnownKey line) →
        ¬ ((m.openFile filename (some contents)).valid = true → WellTyped contents)) := by
  constructor
  · intro pre post before value value' hlines hbefore hvalue
    exact openFile_value m filename hlines hbefore hvalue
  · intro htyped hkeys hvalid
    refine htyped (hvalid ?_)
    rw [openFile_valid]
    exact fun line hline => (hkeys line hline).accepted

theorem mistyped_never_rejected_sample :
    (ConfigurationManager.new.openFile (lit "f") (some (lit "threads: two\nuse_ssl: ture"))).valid =
        (ConfigurationManager.new.openFile (lit "f") (some (lit "threads: two\nuse_ssl: yes"))).valid ∧
      ¬ ((ConfigurationManager.new.openFile (lit "f") (some (lit "threads: two\nuse_ssl: yes"))).valid =
        true → WellTyped (lit "threads: two\nuse_ssl: yes")) := by
  obtain ⟨hsame, hbad⟩ :=
    mistyped_never_rejected .new (lit "f") (lit "threads: two\nuse_ssl: yes")
  constructor
  · exact hsame [lit "threads: two"] [] (lit "use_ssl") (lit " yes") (lit " ture") (by decide)
      (by decide) (by decide)
  · refine hbad (fun htyped => ?_) fun line hline => ?_
    · obtain ⟨n, hn, -⟩ := htyped .threads (lit "two") (by decide)
      exact absurd hn.2.1 (by decide)
    · have hlines : rawLines (lit "threads: two\nuse_ssl: yes") =
          [lit "threads: two", lit "use_ssl: yes"] := by decide
      rw [hlines, List.mem_cons, List.mem_singleton] at hline
      rcases hline with rfl | rfl
      · exact Or.inr (Or.inr ⟨.threads, lit "threads", lit " two", by decide⟩)
      · exact Or.inr (Or.inr ⟨.useSsl, lit "use_ssl", lit " yes", by decide⟩)

/-- A port that is no number and a misspelt switch are accepted. -/
theorem mistyped_values_are_accepted :
    (ConfigurationManager.new.openFile (lit "f") (some (lit "port: abc\nuse_ssl: ture"))).valid = true ∧
      ¬ WellTyped (lit "port: abc\nuse_ssl: ture") := by
  refine ⟨by decide, fun htyped => ?_⟩
  have hssl : Key.useSsl.Typed (lit "ture") := htyped .useSsl (lit "ture") (by decide)
  exact absurd hssl (by unfold Key.Typed; decide)

end Ipvshttpd
