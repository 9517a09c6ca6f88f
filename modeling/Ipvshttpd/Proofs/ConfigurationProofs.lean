import Ipvshttpd.Proofs.StringToolsProofs

/-!
# Proofs: configuration

The line loop of `open` undoes the printing of settings: a line is parsed to what it was made from
(`parseLine_assignment`), and the dispatch on its key sets the getter of that key and no other one
(`setOption_prints`).
-/

namespace Ipvshttpd

open CLib

variable {m : ConfigurationManager} {key : Key} {value : Setting} {s : Str}

/-! ## Texts without white space -/

theorem trimmed_of_noSpace (h : ∀ c ∈ s, isspace c = false) : Trimmed s where
  head c hc := h c (List.mem_of_mem_head? hc)
  last c hc := h c (List.mem_of_mem_getLast? hc)

theorem noLine_of_noSpace (h : ∀ c ∈ s, isspace c = false) : 10 ∉ s := by
  intro hmem
  have hspace := h 10 hmem
  cases hspace

/-- Letter case does not make white space. -/
theorem noSpace_of_strToLower (h : ∀ c ∈ strToLower s, isspace c = false) :
    ∀ c ∈ s, isspace c = false := by
  intro c hc
  by_contra hspace
  have hspace' : isspace c = true := by simpa using hspace
  have hlower : c ∈ strToLower s := List.mem_map.2 ⟨c, hc, tolower_of_isspace hspace'⟩
  rw [h c hlower] at hspace'
  cases hspace'

theorem noSpace_of_any (h : s.any isspace = false) : ∀ c ∈ s, isspace c = false := by
  intro c hc
  simpa using List.any_eq_false.1 h c hc

theorem noSpace_decimal (n : Int) : ∀ c ∈ decimal n, isspace c = false := by
  intro c hc
  unfold decimal at hc
  split at hc
  · rcases List.mem_cons.1 hc with rfl | hc
    · rfl
    · exact (isdigit_facts (isdigit_of_mem_decimalNat hc)).1
  · exact (isdigit_facts (isdigit_of_mem_decimalNat hc)).1

/-! ## Keys and values -/

theorem Key.name_ne_nil (key : Key) : key.name ≠ [] := by
  cases key <;> decide

theorem Key.name_bytes (key : Key) : ∀ c ∈ key.name, isspace c = false ∧ c ≠ 58 ∧ c ≠ 35 := by
  have hall : key.name.all (fun c => !isspace c && c != 58 && c != 35) = true := by
    cases key <;> rfl
  intro c hc
  simpa [and_assoc] using List.all_eq_true.1 hall c hc

/-- A printed value survives trimming and does not break its line. -/
theorem Key.Prints.trimmed (h : key.Prints value s) : Trimmed s ∧ 10 ∉ s := by
  have hclean : (∀ c ∈ s, isspace c = false) → Trimmed s ∧ 10 ∉ s :=
    fun hspace => ⟨trimmed_of_noSpace hspace, noLine_of_noSpace hspace⟩
  cases h with
  | number hkey hmin hmax => exact hclean (noSpace_decimal _)
  | on hs =>
    refine hclean (noSpace_of_strToLower (noSpace_of_any ?_))
    rcases hs with hs | hs
    · rw [hs]
      rfl
    · rw [hs]
      rfl
  | off => exact hclean (noSpace_of_any rfl)
  | text hkey hline htrim => exact ⟨htrim, hline⟩

/-- The names of the keys are known, and setting a key changes the getter of that key only. -/
theorem setOption_name (m : ConfigurationManager) (key : Key) (value : Str) :
    ∃ m', m.setOption key.name value = some m' ∧ ∀ k, k ≠ key → m'.get k = m.get k := by
  cases key with
  | useSsl =>
    by_cases hon : strToLower value = lit "yes" ∨ strToLower value = lit "true"
    · refine ⟨{ m with mUseSsl := true }, if_pos hon, ?_⟩
      intro k hk
      cases k <;> first | rfl | exact absurd rfl hk
    · exact ⟨m, if_neg hon, fun _ _ => rfl⟩
  | _ =>
    refine ⟨_, rfl, ?_⟩
    intro k hk
    cases k <;> first | rfl | exact absurd rfl hk

theorem setOption_unknown {name : Str} (h : ∀ key : Key, name ≠ key.name) (value : Str) :
    m.setOption name value = none := by
  unfold ConfigurationManager.setOption
  -- none of the branches is taken
  refine (if_neg (h .port)).trans ?_
  refine (if_neg (h .listenAddress)).trans ?_
  refine (if_neg (h .logVerbosity)).trans ?_
  refine (if_neg (h .logSinks)).trans ?_
  refine (if_neg (h .threads)).trans ?_
  refine (if_neg (h .apiKey)).trans ?_
  refine (if_neg (h .vip)).trans ?_
  refine (if_neg (h .useSsl)).trans ?_
  refine (if_neg (h .sslKeyFile)).trans ?_
  refine (if_neg (h .sslCertChainFile)).trans ?_
  exact if_neg (h .sslDhFile)

/-- The dispatch accepts the names of the keys only. -/
theorem setOption_frame {name value : Str} {m' : ConfigurationManager}
    (h : m.setOption name value = some m') :
    ∃ key : Key, name = key.name ∧ ∀ k, k ≠ key → m'.get k = m.get k := by
  by_cases hname : ∃ key : Key, name = key.name
  · obtain ⟨key, rfl⟩ := hname
    obtain ⟨m₁, hset, hothers⟩ := setOption_name m key value
    rw [hset, Option.some.injEq] at h
    subst h
    exact ⟨key, rfl, hothers⟩
  · have hnone := setOption_unknown (m := m) (fun key hkey => hname ⟨key, hkey⟩) value
    rw [hnone] at h
    cases h

/-- Setting a key to a printed value sets its getter to the value, or leaves SSL off, and no other
    getter changes. -/
theorem setOption_prints (m : ConfigurationManager) (h : key.Prints value s) :
    ∃ m', m.setOption key.name s = some m' ∧ (∀ k, k ≠ key → m'.get k = m.get k) ∧
      (m'.get key = value ∨ (key = .useSsl ∧ value = .flag false ∧ m' = m)) := by
  obtain ⟨m', hset, hothers⟩ := setOption_name m key s
  refine ⟨m', hset, hothers, ?_⟩
  cases h with
  | @number _ hkey n hmin hmax =>
    have hatoi : atoi (cStr (decimal n)) = n := by
      rw [cStr_of_not_mem (zero_not_mem_decimal n), atoi_decimal hmin hmax]
    left
    rcases hkey with rfl | rfl
    · have hm : { m with mPort := atoi (cStr (decimal n)) } = m' := Option.some.inj hset
      rw [← hm, hatoi]
      rfl
    · have hm : { m with mServerThreads := atoi (cStr (decimal n)) } = m' := Option.some.inj hset
      rw [← hm, hatoi]
      rfl
  | on hs =>
    have hon : m.setOption Key.useSsl.name s = some { m with mUseSsl := true } := if_pos hs
    rw [hon, Option.some.injEq] at hset
    rw [← hset]
    exact Or.inl rfl
  | off => exact Or.inr ⟨rfl, rfl, (Option.some.inj hset).symm⟩
  | text hkey hline htrim =>
    obtain ⟨hport, hthreads, hssl⟩ := hkey
    left
    cases key with
    | port => exact absurd rfl hport
    | threads => exact absurd rfl hthreads
    | useSsl => exact absurd rfl hssl
    | _ =>
      cases hset
      rfl

/-! ## Lines -/

theorem parseLine_blank (p : Padding) : parseLine p.text = .skip := by
  unfold parseLine
  rw [strTrim_of_blank p.blank, if_pos rfl]

theorem strStartsWith_hash (c : UInt8) (t : Str) :
    strStartsWith (lit "#") (c :: t) = decide (c = 35) := by
  show strncmpEq (c :: t) [35] 1 = decide (c = 35)
  simp [strncmpEq]

theorem parseLine_comment (lead : Padding) (rest : Str) :
    parseLine (lead.text ++ 35 :: rest) = .skip := by
  unfold parseLine
  rw [strTrim_line lead.blank rfl, if_neg (List.cons_ne_nil _ _), strStartsWith_hash, if_pos (by decide)]

/-- A line with a colon is a comment, or its key is the text before the first colon, trimmed on the
    left only. -/
theorem parseLine_colon {k : Str} (h : 58 ∉ k) (v : Str) :
    parseLine (k ++ 58 :: v) =
      if (strLtrim k).headD 0 = 35 then .skip else .setting (strToLower (strLtrim k)) (strTrim v) := by
  have hcolon : isspace 58 = false := rfl
  have htrim : strTrim (k ++ 58 :: v) = strLtrim k ++ 58 :: strRtrim v := by
    unfold strTrim
    rw [strRtrim_append hcolon, strLtrim_colon]
  have hhash : strStartsWith (lit "#") (strLtrim k ++ 58 :: strRtrim v) =
      decide ((strLtrim k).headD 0 = 35) := by
    cases strLtrim k with
    | nil => rfl
    | cons c t => exact strStartsWith_hash c _
  unfold parseLine
  rw [htrim, if_neg (by simp), hhash, strSplit_colon (not_mem_strLtrim h)]
  simp only [decide_eq_true_eq, strTrim_strRtrim]

/-- A byte that is no letter is in the text of a key only if it is in the name of the key. -/
theorem Assignment.not_mem_keyText (a : Assignment) {d : UInt8} (hd : tolower d = d)
    (h : d ∉ a.key.name) : d ∉ a.keyText := by
  rw [← a.spells] at h
  exact not_mem_of_strToLower hd h

theorem Assignment.keyText_ne_nil (a : Assignment) : a.keyText ≠ [] := by
  intro hnil
  have hname := a.spells
  rw [hnil] at hname
  exact a.key.name_ne_nil hname.symm

/-- A line is parsed to its key in lower case and its value. -/
theorem parseLine_assignment (a : Assignment) :
    parseLine (FileLine.assignment a).text = .setting a.key.name a.valueText := by
  have hbytes : ∀ c ∈ a.keyText, isspace c = false := by
    refine noSpace_of_strToLower fun c hc => ?_
    rw [a.spells] at hc
    exact (a.key.name_bytes c hc).1
  have hhash : 35 ∉ a.keyText :=
    a.not_mem_keyText rfl fun hmem => (a.key.name_bytes 35 hmem).2.2 rfl
  have hcolon : 58 ∉ a.lead.text ++ a.keyText := by
    rw [List.mem_append, not_or]
    constructor
    · intro hmem
      cases a.lead.blank 58 hmem
    · exact a.not_mem_keyText rfl fun hmem => (a.key.name_bytes 58 hmem).2.1 rfl
  obtain ⟨c, k, hkey⟩ := List.exists_cons_of_ne_nil a.keyText_ne_nil
  have hmem : c ∈ a.keyText := by
    rw [hkey]
    exact List.mem_cons_self ..
  have hltrim : strLtrim (a.lead.text ++ a.keyText) = a.keyText := by
    rw [strLtrim_blank a.lead.blank, hkey]
    exact strLtrim_of_head (hbytes c hmem) k
  have hhead : a.keyText.headD 0 ≠ 35 := by
    rw [hkey]
    rintro rfl
    exact hhash hmem
  have hsplit : (FileLine.assignment a).text = (a.lead.text ++ a.keyText) ++
      58 :: (a.gap.text ++ (a.valueText ++ a.trail.text)) := (List.append_assoc ..).symm
  rw [hsplit, parseLine_colon hcolon, hltrim, if_neg hhead, a.spells,
    strTrim_padded a.gap.blank a.trail.blank a.prints.trimmed.1]

theorem text_noLine (l : FileLine) : 10 ∉ l.text := by
  cases l with
  | blank p => exact p.line
  | comment lead rest line => simp [FileLine.text, lead.line, line]
  | assignment a =>
    have hkey : 10 ∉ a.keyText := by
      refine a.not_mem_keyText rfl fun hmem => ?_
      have hspace := (a.key.name_bytes 10 hmem).1
      cases hspace
    simp [FileLine.text, a.lead.line, a.gap.line, a.trail.line, hkey, a.prints.trimmed.2]

/-! ## Files -/

/-- The line loop accepts the lines of settings and sets the getters of their keys. -/
theorem openLoop_lines (filename : Str) (ls : List FileLine) (lineNr : Int)
    (m : ConfigurationManager) (hdistinct : ((assignments ls).map Assignment.key).Nodup)
    (hssl : ∀ a ∈ assignments ls, a.key = .useSsl → m.getSsl = false) :
    (openLoop filename (ls.map FileLine.text) lineNr m).valid = true ∧
      ∀ key, (openLoop filename (ls.map FileLine.text) lineNr m).manager.get key =
        (((assignments ls).find? fun a => a.key = key).map Assignment.value).getD (m.get key) := by
  induction ls generalizing lineNr m with
  | nil => exact ⟨rfl, fun _ => rfl⟩
  | cons l ls ih =>
    rw [List.map_cons]
    cases l with
    | blank p =>
      rw [openLoop, show (FileLine.blank p).text = p.text from rfl, parseLine_blank]
      exact ih (lineNr + 1) m hdistinct hssl
    | comment lead rest line =>
      rw [openLoop, show (FileLine.comment lead rest line).text = lead.text ++ 35 :: rest from rfl,
        parseLine_comment]
      exact ih (lineNr + 1) m hdistinct hssl
    | assignment a =>
      have hcons : assignments (.assignment a :: ls) = a :: assignments ls := rfl
      rw [hcons] at hdistinct hssl ⊢
      rw [List.map_cons, List.nodup_cons] at hdistinct
      obtain ⟨m', hset, hothers, hself⟩ := setOption_prints m a.prints
      have hrest := ih (lineNr + 1) m' hdistinct.2 ?_
      · rw [openLoop, parseLine_assignment]
        simp only [hset]
        refine ⟨hrest.1, fun key => ?_⟩
        rw [hrest.2 key]
        by_cases hkey : a.key = key
        · -- no later line assigns this key
          have hnone : (assignments ls).find? (fun a => a.key = key) = none := by
            rw [List.find?_eq_none]
            intro b hb hbkey
            have hb' : b.key = key := by simpa using hbkey
            exact hdistinct.1 (List.mem_map.2 ⟨b, hb, hb'.trans hkey.symm⟩)
          rw [hnone, List.find?_cons_of_pos (by simpa using hkey)]
          subst hkey
          rcases hself with hvalue | ⟨hkey, hoff, rfl⟩
          · exact hvalue
          · have hfalse : m'.getSsl = false := hssl a (List.mem_cons_self ..) hkey
            show m'.get a.key = a.value
            rw [hkey, hoff]
            exact congrArg Setting.flag hfalse
        · rw [List.find?_cons_of_neg (by simpa using hkey), hothers key (Ne.symm hkey)]
      · intro b hb hbkey
        have hne : Key.useSsl ≠ a.key := by
          intro hkey
          exact hdistinct.1 (List.mem_map.2 ⟨b, hb, hbkey.trans hkey⟩)
        have hsame : Setting.flag m'.getSsl = Setting.flag m.getSsl := hothers .useSsl hne
        rw [Setting.flag.inj hsame]
        exact hssl b (List.mem_cons_of_mem _ hb) hbkey

theorem assignments_of_text_nil {l : FileLine} (h : l.text = []) : assignments [l] = [] := by
  cases l with
  | blank p => rfl
  | comment lead rest line => rfl
  | assignment a => simp [FileLine.text] at h

/-- The lines that `open` reads from a file: all of them, but for a last line without text. -/
theorem getLines_contents (f : ConfigFile) :
    ∃ ls : List FileLine, getLines f.contents = ls.map FileLine.text ∧
      assignments ls = assignments (f.lines ++ f.last.toList) := by
  have hflat : (f.lines.flatMap fun l => l.text ++ [10]) =
      (f.lines.map FileLine.text).flatMap fun l => l ++ [10] := by
    rw [List.flatMap_map]
  have hlines : ∀ l ∈ f.lines.map FileLine.text, 10 ∉ l := by
    intro l hl
    obtain ⟨l', -, rfl⟩ := List.mem_map.1 hl
    exact text_noLine l'
  unfold ConfigFile.contents
  rw [hflat]
  cases hlast : f.last with
  | none =>
    refine ⟨f.lines, ?_, by simp⟩
    rw [getLines_lines _ _ hlines (by simp)]
    simp
  | some l =>
    have hget := getLines_lines _ l.text hlines (text_noLine l)
    by_cases hnil : l.text = []
    · refine ⟨f.lines, ?_, ?_⟩
      · rw [if_pos hnil, List.append_nil] at hget
        exact hget
      · have hsplit : assignments (f.lines ++ [l]) = assignments f.lines ++ assignments [l] :=
          List.filterMap_append
        rw [Option.toList_some, hsplit, assignments_of_text_nil hnil, List.append_nil]
    · refine ⟨f.lines ++ [l], ?_, rfl⟩
      rw [if_neg hnil] at hget
      rw [List.map_append]
      exact hget

/-- A configuration file is read back: `open` accepts it, the getter of every key that it assigns
    returns the assigned value, and every other getter keeps its default. -/
theorem openFile_roundtrip (f : ConfigFile) (filename : Str) :
    (ConfigurationManager.new.openFile filename (some f.contents)).valid = true ∧
      ∀ key, (ConfigurationManager.new.openFile filename (some f.contents)).manager.get key =
        (f.value key).getD (ConfigurationManager.new.get key) := by
  obtain ⟨ls, hlines, hassign⟩ := getLines_contents f
  have hdistinct := f.distinct
  rw [← hassign] at hdistinct
  have hloop := openLoop_lines filename ls 0 .new hdistinct fun _ _ _ => rfl
  rw [hassign] at hloop
  unfold ConfigurationManager.openFile ConfigFile.value
  simp only [hlines]
  exact hloop

/-- No white space. -/
def Padding.none : Padding := ⟨[], by decide +kernel, by decide⟩

/-- A space. -/
def Padding.space : Padding := ⟨lit " ", by decide +kernel, by decide⟩

/-- A file with a comment, a blank line and three assignments, the last one without a line break. -/
def sampleFile : ConfigFile where
  lines := [
    .comment .none (lit " balancer") (by decide),
    .assignment {
      key := .port
      value := .number 443
      lead := ⟨lit "\t", by decide +kernel, by decide⟩
      gap := ⟨lit "  ", by decide +kernel, by decide⟩
      trail := .space
      keyText := lit "PORT"
      valueText := decimal 443
      spells := by decide
      prints := .number (Or.inl rfl) (by decide) (by decide) },
    .blank .space,
    .assignment {
      key := .apiKey
      value := .text (lit "secret key")
      lead := .none
      gap := .space
      trail := .none
      keyText := lit "Api_Key"
      valueText := lit "secret key"
      spells := by decide
      prints := .text (by decide) (by decide) ⟨by decide +kernel, by decide +kernel⟩ }]
  last := some (.assignment {
    key := .useSsl
    value := .flag true
    lead := .none
    gap := .space
    trail := .none
    keyText := lit "use_ssl"
    valueText := lit "Yes"
    spells := by decide
    prints := .on (Or.inl (by decide)) })
  distinct := by decide

theorem openFile_roundtrip_sample :
    let result := ConfigurationManager.new.openFile (lit "f") (some sampleFile.contents)
    sampleFile.contents = lit "# balancer\n\tPORT:  443 \n \nApi_Key: secret key\nuse_ssl: Yes" ∧
      result.valid = true ∧ result.manager.get .port = .number 443 ∧
      result.manager.get .apiKey = .text (lit "secret key") ∧
      result.manager.get .useSsl = .flag true ∧ result.manager.get .threads = .number 2 := by
  obtain ⟨hvalid, hget⟩ := openFile_roundtrip sampleFile (lit "f")
  exact ⟨by decide, hvalid, hget .port, hget .apiKey, hget .useSsl, hget .threads⟩

end Ipvshttpd
