import Ipvshttpd.Proofs.ConfigTextProofs

/-!
# Proofs: white space in configuration files

A line is trimmed before it is split and the value is trimmed after it, but the key is not. So white
space at the ends of a line and after the colon has no meaning, and white space before the colon
belongs to the key.
-/

namespace Ipvshttpd

open CLib

variable {m : ConfigurationManager} {filename s t k v : Str} {l l' : Str}

/-! ## Spaces and tabs -/

theorem Blanks.isBlank (b : Blanks) : Blank b.text := by
  intro c hc
  rcases b.blank c hc with rfl | rfl
  · rfl
  · rfl

theorem Blanks.noLine (b : Blanks) : 10 ∉ b.text := by
  intro hmem
  rcases b.blank 10 hmem with h | h
  · exact absurd h (by decide)
  · exact absurd h (by decide)

/-! ## Lines that are read alike -/

theorem applyLine_of_parseLine (h : parseLine l = parseLine l') (m : ConfigurationManager) :
    applyLine m l = applyLine m l' := by
  unfold applyLine
  rw [h]

/-- Files whose lines have the same effects have the same result. -/
theorem openLoop_replace (h : ∀ m, applyLine m l = applyLine m l') (filename : Str)
    (pre post : List Str) (lineNr : Int) (m : ConfigurationManager) :
    openLoop filename (pre ++ l :: post) lineNr m = openLoop filename (pre ++ l' :: post) lineNr m := by
  induction pre generalizing lineNr m with
  | nil =>
    rw [List.nil_append, List.nil_append]
    cases hl : applyLine m l with
    | none => rw [openLoop_cons_none hl, openLoop_cons_none ((h m).symm.trans hl)]
    | some m' => rw [openLoop_cons_some hl, openLoop_cons_some ((h m).symm.trans hl)]
  | cons line pre ih =>
    rw [List.cons_append, List.cons_append]
    cases hline : applyLine m line with
    | none => rw [openLoop_cons_none hline, openLoop_cons_none hline]
    | some m' => rw [openLoop_cons_some hline, openLoop_cons_some hline, ih]

theorem sameOpen_of_openLoop {contents contents' : Str}
    (h : openLoop filename (rawLines contents) 0 m = openLoop filename (rawLines contents') 0 m) :
    SameOpen m filename contents contents' := by
  have hsame : openLoop filename (getLines contents) 0 m = openLoop filename (getLines contents') 0 m := by
    rw [openLoop_rawLines, openLoop_rawLines, h]
  unfold SameOpen ConfigurationManager.openFile
  simp only [hsame]
  exact ⟨trivial, fun _ => trivial⟩

/-! ## Spaces before the colon -/

theorem Blanks.strToLower (b : Blanks) : strToLower b.text = b.text := by
  have hlower : ∀ c ∈ b.text, tolower c = id c := fun c hc => tolower_of_isspace (b.isBlank c hc)
  unfold Ipvshttpd.strToLower
  rw [List.map_congr_left hlower, List.map_id]

theorem Blanks.not_mem_colon (b : Blanks) (h : 58 ∉ k) : 58 ∉ k ++ b.text := by
  rw [List.mem_append, not_or]
  refine ⟨h, fun hmem => ?_⟩
  rcases b.blank 58 hmem with hc | hc
  · exact absurd hc (by decide)
  · exact absurd hc (by decide)

/-- No key has a name with white space in it. -/
theorem setOption_spaced (name : Str) {b : Blanks} (hb : b.text ≠ []) (v : Str) :
    m.setOption (name ++ b.text) v = none := by
  refine setOption_unknown (fun key hname => ?_) v
  obtain ⟨c, t, htext⟩ := List.exists_cons_of_ne_nil hb
  have hmem : c ∈ b.text := by
    rw [htext]
    exact List.mem_cons_self ..
  have hspace := b.isBlank c hmem
  have hnone := (key.name_bytes c (by rw [← hname]; exact List.mem_append_right _ hmem)).1
  rw [hspace] at hnone
  cases hnone

/-- What a line does whose key is followed by white space. -/
theorem parseLine_spaced (h : 58 ∉ k) (hk : strLtrim k ≠ []) (b : Blanks) (v : Str) :
    parseLine ((k ++ b.text) ++ 58 :: v) =
      if (strLtrim k).headD 0 = 35 then .skip
      else .setting (strToLower (strLtrim k) ++ b.text) (strTrim v) := by
  have htrim : strLtrim (k ++ b.text) = strLtrim k ++ b.text := by
    unfold strLtrim at hk ⊢
    rw [List.dropWhile_append, if_neg (by simpa using hk)]
  have hlower : strToLower (strLtrim k ++ b.text) = strToLower (strLtrim k) ++ b.text := by
    have happend : strToLower (strLtrim k ++ b.text) =
        strToLower (strLtrim k) ++ strToLower b.text := List.map_append
    rw [happend, b.strToLower]
  obtain ⟨c, t, hcons⟩ := List.exists_cons_of_ne_nil hk
  rw [parseLine_colon (b.not_mem_colon h), htrim, hlower, hcons, List.cons_append]
  rfl

/-- White space after the name of a key makes the line one that is rejected. -/
theorem accepted_spaced (h : 58 ∉ k) {key : Key} (hkey : strToLower (strLtrim k) = key.name)
    (b : Blanks) (v : Str) : Accepted ((k ++ b.text) ++ 58 :: v) ↔ b.text = [] := by
  have hne : strLtrim k ≠ [] := by
    intro hnil
    rw [hnil] at hkey
    exact key.name_ne_nil hkey.symm
  have hhash : (strLtrim k).headD 0 ≠ 35 := by
    intro hhead
    obtain ⟨c, t, hcons⟩ := List.exists_cons_of_ne_nil hne
    rw [hcons, List.headD_cons] at hhead
    have hmem : (35 : UInt8) ∈ key.name := by
      rw [← hkey, hcons, hhead]
      exact List.mem_cons_self ..
    exact (key.name_bytes 35 hmem).2.2 rfl
  have hparse := parseLine_spaced h hne b v
  rw [if_neg hhash, hkey] at hparse
  rw [applyLine_accepted .new]
  unfold applyLine
  rw [hparse]
  constructor
  · rintro ⟨m', hm'⟩
    by_contra hb
    have hnone : ConfigurationManager.new.setOption (key.name ++ b.text) (strTrim v) = none :=
      setOption_spaced key.name hb _
    cases hnone.symm.trans hm'
  · intro hb
    obtain ⟨m', hm', -⟩ := setOption_name .new key (strTrim v)
    refine ⟨m', ?_⟩
    rw [hb, List.append_nil]
    exact hm'

/-! ## Lines that are rejected -/

/-- Two files are opened alike if both or none is accepted and the lines that are read make the same
    settings. -/
theorem sameOpen_rawLines {contents contents' : Str} {ls ls' : List Str}
    (h : rawLines contents = ls) (h' : rawLines contents' = ls') (m : ConfigurationManager)
    (filename : Str) : SameOpen m filename contents contents' ↔
      ((∀ l ∈ ls, Accepted l) ↔ ∀ l ∈ ls', Accepted l) ∧
      ∀ key : Key, afterLines key (m.get key) (linesRead ls) =
        afterLines key (m.get key) (linesRead ls') := by
  unfold SameOpen
  rw [Bool.eq_iff_iff, openFile_valid, openFile_valid, h, h']
  simp only [openFile_read, h, h']

theorem settingOf_rejected (h : ¬ Accepted l) (key : Key) : settingOf key l = none := by
  rw [Option.eq_none_iff_forall_not_mem]
  intro value hvalue
  exact h (Or.inr ⟨key, value, settingOf_eq_some.1 hvalue⟩)

theorem accepted_insert {pre post : List Str} (hpre : ∀ l ∈ pre, Accepted l) :
    (∀ l' ∈ pre ++ l :: post, Accepted l') ↔ Accepted l ∧ ∀ l' ∈ post, Accepted l' := by
  rw [List.forall_mem_append, List.forall_mem_cons]
  exact and_iff_right hpre

/-- A line is accepted in one file and rejected in the other: the files are opened alike if a later
    line is rejected as well, and nothing that is read from this line on makes a difference. -/
theorem sameOpen_rejected {contents contents' good bad : Str} {pre post : List Str}
    (h : rawLines contents = pre ++ good :: post) (h' : rawLines contents' = pre ++ bad :: post)
    (hpre : ∀ l ∈ pre, Accepted l) (hgood : Accepted good) (hbad : ¬ Accepted bad)
    (m : ConfigurationManager) (filename : Str) : SameOpen m filename contents contents' ↔
      (∃ l ∈ post, ¬ Accepted l) ∧ ∀ key : Key,
        afterLines key (m.get key) (pre ++ good :: linesRead post) =
          afterLines key (m.get key) pre := by
  have hread : linesRead (pre ++ good :: post) = pre ++ good :: linesRead post := by
    rw [linesRead_accepted hpre, linesRead_cons hgood]
  have hread' : linesRead (pre ++ bad :: post) = pre := by
    rw [linesRead_accepted hpre, linesRead_rejected hbad, List.append_nil]
  rw [sameOpen_rawLines h h', accepted_insert hpre, accepted_insert hpre, hread, hread']
  simp only [hgood, hbad, true_and, false_and, iff_false, not_forall, exists_prop]

/-! ## Edits -/

namespace PaddingEdit

variable {e : PaddingEdit}

theorem old_noLine (e : PaddingEdit) : 10 ∉ e.old := by
  cases e with
  | ends lead lead' text trail trail' line => simp [old, lead.noLine, trail.noLine, line]
  | colon key before before' after after' rest first line =>
    simp [old, before.noLine, after.noLine, line.1, line.2]

theorem new_noLine (e : PaddingEdit) : 10 ∉ e.new := by
  cases e with
  | ends lead lead' text trail trail' line => simp [new, lead'.noLine, trail'.noLine, line]
  | colon key before before' after after' rest first line =>
    simp [new, before'.noLine, after'.noLine, line.1, line.2]

/-- A line is read by what is left of it after trimming. -/
theorem parseLine_of_strTrim (h : strTrim l = strTrim l') : parseLine l = parseLine l' := by
  unfold parseLine
  rw [h]

/-- An edit that does not space a key does not change what the line does. -/
theorem applyLine_eq (h : ¬ e.SpacesKey) (m : ConfigurationManager) :
    applyLine m e.old = applyLine m e.new := by
  cases e with
  | ends lead lead' text trail trail' line =>
    refine applyLine_of_parseLine (parseLine_of_strTrim ?_) m
    unfold old new
    rw [strTrim_pads lead.isBlank trail.isBlank, strTrim_pads lead'.isBlank trail'.isBlank]
  | colon k before before' after after' rest first line =>
    have hvalue : strTrim (after.text ++ rest) = strTrim (after'.text ++ rest) := by
      rw [strTrim_blank_append after.isBlank, strTrim_blank_append after'.isBlank]
    unfold old new
    by_cases hk : strLtrim k = []
    · -- nothing but white space before the colon
      have hblank : Blank k := List.dropWhile_eq_nil_iff.1 hk
      have htrim : ∀ b : Blanks, strLtrim (k ++ b.text) = [] := by
        intro b
        rw [strLtrim_blank hblank]
        exact List.dropWhile_eq_nil_iff.2 b.isBlank
      refine applyLine_of_parseLine ?_ m
      rw [parseLine_colon (before.not_mem_colon first), parseLine_colon (before'.not_mem_colon first),
        htrim, htrim, hvalue]
    · unfold applyLine
      rw [parseLine_spaced first hk, parseLine_spaced first hk, hvalue]
      by_cases hhash : (strLtrim k).headD 0 = 35
      · rw [if_pos hhash, if_pos hhash]
      · rw [if_neg hhash, if_neg hhash]
        by_cases hempty : before.text = [] ↔ before'.text = []
        · by_cases hb : before.text = []
          · rw [hb, hempty.1 hb]
          · have hb' : before'.text ≠ [] := fun hnil => hb (hempty.2 hnil)
            exact (setOption_spaced _ hb _).trans (setOption_spaced _ hb' _).symm
        · -- the key is unknown, with white space after it or without
          have hunknown : ∀ key : Key, strToLower (strLtrim k) ≠ key.name :=
            fun key hname => h ⟨⟨key, hname⟩, hempty⟩
          have hnone : ∀ b : Blanks,
              m.setOption (strToLower (strLtrim k) ++ b.text) (strTrim (after'.text ++ rest)) = none := by
            intro b
            by_cases hb : b.text = []
            · rw [hb, List.append_nil]
              exact setOption_unknown hunknown _
            · exact setOption_spaced _ hb _
          exact (hnone before).trans (hnone before').symm

/-- An edit that spaces a key makes an accepted line of a rejected one or the other way round. -/
theorem accepted_iff_not (h : e.SpacesKey) : Accepted e.old ↔ ¬ Accepted e.new := by
  cases e with
  | ends lead lead' text trail trail' line => exact absurd h id
  | colon k before before' after after' rest first line =>
    obtain ⟨⟨key, hkey⟩, hempty⟩ := h
    unfold old new
    rw [accepted_spaced first hkey, accepted_spaced first hkey]
    by_cases hb : before.text = []
    · have hb' : before'.text ≠ [] := fun hnil => hempty ⟨fun _ => hnil, fun _ => hb⟩
      exact ⟨fun _ => hb', fun _ => hb⟩
    · have hb' : before'.text = [] := by
        by_contra hne
        exact hempty ⟨fun hnil => absurd hnil hb, fun hnil => absurd hnil hne⟩
      exact ⟨fun hnil => absurd hnil hb, fun hne => absurd hb' hne⟩

theorem rawLines_new {contents : Str} {pre post : List Str}
    (h : rawLines contents = pre ++ e.old :: post) :
    rawLines (joinLines (pre ++ e.new :: post)) = pre ++ e.new :: post := by
  refine rawLines_joinLines (fun l hl => ?_) (by simp)
  have hold : ∀ l ∈ pre ++ e.old :: post, 10 ∉ l := by
    rw [← h]
    exact fun l => not_mem_of_mem_rawLines
  rw [List.mem_append, List.mem_cons] at hl
  rcases hl with hl | rfl | hl
  · exact hold l (List.mem_append_left _ hl)
  · exact e.new_noLine
  · exact hold l (List.mem_append_right _ (List.mem_cons_of_mem _ hl))

/-- An edit that spaces a key changes nothing if no setting depends on the line. -/
theorem sameOpen_spaced (h : e.SpacesKey) {contents : Str} {pre post : List Str}
    (hlines : rawLines contents = pre ++ e.old :: post) (hpre : ∀ l ∈ pre, Accepted l)
    (m : ConfigurationManager) (filename : Str) :
    SameOpen m filename contents (joinLines (pre ++ e.new :: post)) ↔ e.Masked m pre post := by
  have hnew := rawLines_new hlines
  have hnot := accepted_iff_not h
  unfold Masked
  by_cases hold : Accepted e.old
  · have hbad : ¬ Accepted e.new := hnot.1 hold
    have hdrop : ∀ key : Key, afterLines key (m.get key) (pre ++ e.old :: e.new :: linesRead post) =
        afterLines key (m.get key) (pre ++ e.old :: linesRead post) := by
      intro key
      unfold afterLines
      simp only [List.filterMap_append, List.filterMap_cons, settingOf_rejected hbad key]
    rw [sameOpen_rejected hlines hnew hpre hold hbad]
    simp only [hdrop]
  · have hgood : Accepted e.new := by
      by_contra hbad
      exact hold (hnot.2 hbad)
    have hdrop : ∀ key : Key, afterLines key (m.get key) (pre ++ e.old :: e.new :: linesRead post) =
        afterLines key (m.get key) (pre ++ e.new :: linesRead post) := by
      intro key
      unfold afterLines
      simp only [List.filterMap_append, List.filterMap_cons, settingOf_rejected hold key]
    have hsymm : SameOpen m filename contents (joinLines (pre ++ e.new :: post)) ↔
        SameOpen m filename (joinLines (pre ++ e.new :: post)) contents :=
      ⟨fun hs => ⟨hs.1.symm, fun key => (hs.2 key).symm⟩,
        fun hs => ⟨hs.1.symm, fun key => (hs.2 key).symm⟩⟩
    rw [hsymm, sameOpen_rejected hnew hlines hpre hgood hold]
    simp only [hdrop]

theorem sameOpen_of_not_spaced (h : ¬ e.SpacesKey) {contents : Str} {pre post : List Str}
    (hlines : rawLines contents = pre ++ e.old :: post) (m : ConfigurationManager) (filename : Str) :
    SameOpen m filename contents (joinLines (pre ++ e.new :: post)) := by
  refine sameOpen_of_openLoop ?_
  rw [hlines, rawLines_new hlines]
  exact openLoop_replace (applyLine_eq h) filename pre post 0 m

/-- Changing the spaces and tabs of a line is insignificant in every file, exactly if it does not put
    the first of them between the name of a key and the colon or take the last of them away. -/
theorem insignificant_iff (e : PaddingEdit) : e.Insignificant ↔ ¬ e.SpacesKey := by
  constructor
  · intro hall hspaces
    have hlines : rawLines (joinLines [e.old]) = [] ++ e.old :: [] :=
      rawLines_joinLines (by simpa using e.old_noLine) (by simp)
    obtain ⟨⟨line, hline, -⟩, -⟩ :=
      (sameOpen_spaced hspaces hlines (by simp) .new []).1 (hall .new [] _ _ _ hlines)
    cases hline
  · intro hspaces m filename contents pre post hlines
    exact sameOpen_of_not_spaced hspaces hlines m filename

/-- In a given file, changing the spaces and tabs of a line changes nothing, exactly if it does not
    space a key, or the line is not read, or no setting depends on it in a file that is rejected
    anyway. -/
theorem sameOpen_iff (e : PaddingEdit) (m : ConfigurationManager) (filename contents : Str)
    (pre post : List Str) (hlines : rawLines contents = pre ++ e.old :: post) :
    SameOpen m filename contents (joinLines (pre ++ e.new :: post)) ↔
      ¬ e.SpacesKey ∨ (∃ line ∈ pre, ¬ Accepted line) ∨ e.Masked m pre post := by
  by_cases hspaces : e.SpacesKey
  · rw [or_iff_right (not_not.2 hspaces)]
    by_cases hpre : ∀ line ∈ pre, Accepted line
    · have hall : ¬ ∃ line ∈ pre, ¬ Accepted line := by
        rintro ⟨line, hline, hbad⟩
        exact hbad (hpre line hline)
      rw [or_iff_right hall]
      exact sameOpen_spaced hspaces hlines hpre m filename
    · push Not at hpre
      refine iff_of_true ?_ (Or.inl hpre)
      have hrejected : ∀ rest, ¬ ∀ l ∈ pre ++ rest, Accepted l := by
        intro rest hall
        obtain ⟨line, hline, hbad⟩ := hpre
        exact hbad (hall line (List.mem_append_left _ hline))
      rw [sameOpen_rawLines hlines (rawLines_new hlines), linesRead_append hpre,
        linesRead_append hpre]
      exact ⟨iff_of_false (hrejected _) (hrejected _), fun _ => rfl⟩
  · exact iff_of_true (sameOpen_of_not_spaced hspaces hlines m filename) (Or.inl hspaces)

/-- More spaces after the colon. -/
theorem sameOpen_iff_sample :
    let e : PaddingEdit := colon (lit "port") ⟨[], by simp⟩ ⟨[], by simp⟩ ⟨[32], by simp⟩
      ⟨[32, 32], by simp⟩ (lit "80") (by decide) (by decide)
    SameOpen .new (lit "f") (lit "threads: 4\nport: 80") (joinLines ([lit "threads: 4"] ++ e.new :: [])) ↔
      ¬ e.SpacesKey ∨ (∃ line ∈ [lit "threads: 4"], ¬ Accepted line) ∨
        e.Masked .new [lit "threads: 4"] [] := by
  intro e
  exact sameOpen_iff e .new (lit "f") (lit "threads: 4\nport: 80") [lit "threads: 4"] [] (by decide)

/-- A space before the colon makes the file invalid. -/
theorem space_before_colon_is_significant :
    (ConfigurationManager.new.openFile (lit "f") (some (lit "port: 80"))).valid = true ∧
    (ConfigurationManager.new.openFile (lit "f") (some (lit "port : 80"))).valid = false ∧
    ¬ (colon (lit "port") ⟨[], by simp⟩ ⟨[32], by simp⟩ ⟨[32], by simp⟩ ⟨[32], by simp⟩ (lit "80")
      (by decide) (by decide)).Insignificant := by
  refine ⟨by decide, by decide, fun hall => ?_⟩
  have hsame := hall .new (lit "f") (lit "port: 80") [] [] (by decide)
  exact absurd hsame.1 (by decide)

end PaddingEdit

end Ipvshttpd
