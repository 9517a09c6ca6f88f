import Ipvshttpd.CLib.Inet
import Ipvshttpd.CLib.Proofs.CStringProofs
import Ipvshttpd.CLib.Proofs.SplitProofs

/-!
# Proofs: internet addresses

A dotted quad is read back. An accepted IPv6 address consists of hexadecimal digits, dots and colons,
of which there are at least two.
-/

namespace CLib

variable {α β : Type} {s t l : Str} {c d : UInt8} {n i : Nat}

/-! ## IPv4 -/

theorem octet_decimalNat (h : n ≤ 255) : octet (decimalNat n) = some n := by
  obtain ⟨-, hdigits, hvalue⟩ := isNumeral_decimalNat n
  unfold octet
  rw [hvalue, if_pos ⟨hdigits, rfl, h⟩]

theorem not_mem_decimalNat (h : isdigit c = false) (n : Nat) : c ∉ decimalNat n := by
  intro hmem
  rw [isdigit_of_mem_decimalNat hmem] at h
  cases h

theorem quadBytes_dottedQuad (ip : BitVec 32) :
    quadBytes (dottedQuad ip) = some [ip.toNat % 256, ip.toNat / 256 % 256, ip.toNat / 65536 % 256,
      ip.toNat / 16777216] := by
  have hdot : ∀ n, 46 ∉ decimalNat n := not_mem_decimalNat rfl
  have hip := ip.isLt
  have hsplit : (dottedQuad ip).splitOn 46 = [decimalNat (ip.toNat % 256),
      decimalNat (ip.toNat / 256 % 256), decimalNat (ip.toNat / 65536 % 256),
      decimalNat (ip.toNat / 16777216)] := by
    unfold dottedQuad
    rw [List.splitOn_append_cons_self_of_not_mem (hdot _),
      List.splitOn_append_cons_self_of_not_mem (hdot _),
      List.splitOn_append_cons_self_of_not_mem (hdot _), List.splitOn_eq_singleton (hdot _)]
  have h0 : ip.toNat % 256 ≤ 255 := by omega
  have h1 : ip.toNat / 256 % 256 ≤ 255 := by omega
  have h2 : ip.toNat / 65536 % 256 ≤ 255 := by omega
  have h3 : ip.toNat / 16777216 ≤ 255 := by omega
  unfold quadBytes
  rw [hsplit]
  simp [octet_decimalNat h0, octet_decimalNat h1, octet_decimalNat h2, octet_decimalNat h3]

theorem leWord_bytes (w : BitVec 32) :
    leWord [w.toNat % 256, w.toNat / 256 % 256, w.toNat / 65536 % 256, w.toNat / 16777216] = w := by
  have hw := w.isLt
  refine BitVec.eq_of_toNat_eq ?_
  unfold leWord
  rw [BitVec.toNat_ofNat]
  simp only [List.foldr_cons, List.foldr_nil]
  omega

theorem quadAddress_dottedQuad (ip : BitVec 32) : quadAddress (dottedQuad ip) = some ip := by
  unfold quadAddress
  rw [quadBytes_dottedQuad, Option.map_some, leWord_bytes]

/-- A dotted quad consists of digits and dots. -/
theorem dottedQuad_chars (ip : BitVec 32) (h : c ∈ dottedQuad ip) : isdigit c = true ∨ c = 46 := by
  unfold dottedQuad at h
  simp only [List.mem_append, List.mem_cons] at h
  rcases h with h | rfl | h | rfl | h | rfl | h
  · exact Or.inl (isdigit_of_mem_decimalNat h)
  · exact Or.inr rfl
  · exact Or.inl (isdigit_of_mem_decimalNat h)
  · exact Or.inr rfl
  · exact Or.inl (isdigit_of_mem_decimalNat h)
  · exact Or.inr rfl
  · exact Or.inl (isdigit_of_mem_decimalNat h)

theorem not_mem_dottedQuad (hdigit : isdigit c = false) (hdot : c ≠ 46) (ip : BitVec 32) :
    c ∉ dottedQuad ip := by
  intro h
  rcases dottedQuad_chars ip h with h | h
  · rw [h] at hdigit
    cases hdigit
  · exact hdot h

theorem dottedQuad_not_digits (ip : BitVec 32) : (dottedQuad ip).all isdigit = false := by
  have hdot : 46 ∈ dottedQuad ip := by
    unfold dottedQuad
    simp
  rw [List.all_eq_false]
  exact ⟨46, hdot, Bool.false_ne_true⟩

/-! ## Pieces -/

/-- What is in the list that `mapM` gives comes from the list it is given. -/
theorem mapM_some {f : α → Option β} {xs : List α} {ys : List β} (h : xs.mapM f = some ys) :
    (∀ x ∈ xs, ∃ y, f x = some y) ∧ ys.length = xs.length := by
  induction xs generalizing ys with
  | nil =>
    rw [List.mapM_nil] at h
    cases h
    exact ⟨fun x hx => absurd hx List.not_mem_nil, rfl⟩
  | cons x xs ih =>
    rw [List.mapM_cons] at h
    obtain ⟨y, hy, h⟩ := Option.bind_eq_some_iff.1 h
    obtain ⟨ys', hys', h⟩ := Option.bind_eq_some_iff.1 h
    cases h
    obtain ⟨hmem, hlen⟩ := ih hys'
    refine ⟨?_, by rw [List.length_cons, List.length_cons, hlen]⟩
    intro x' hx'
    rcases List.mem_cons.1 hx' with rfl | hx'
    · exact ⟨y, hy⟩
    · exact hmem x' hx'

theorem length_splitOn (s : Str) (d : UInt8) : (s.splitOn d).length = s.count d + 1 := by
  induction s with
  | nil => rfl
  | cons c s ih =>
    rw [List.splitOn_cons_eq_if_modifyHead]
    by_cases hc : c = d
    · rw [if_pos (by simpa using hc), List.length_cons, ih, hc, List.count_cons_self]
    · rw [if_neg (by simpa using hc), List.length_modifyHead, ih, List.count_cons_of_ne hc]

/-- A byte of a text is the separator or in a piece. -/
theorem mem_splitOn (d : UInt8) (h : c ∈ s) : c = d ∨ ∃ l ∈ s.splitOn d, c ∈ l := by
  induction s with
  | nil => exact absurd h List.not_mem_nil
  | cons e s ih =>
    have hcons : c = e ∨ c = d ∨ ∃ l ∈ s.splitOn d, c ∈ l := by
      rcases List.mem_cons.1 h with h | h
      · exact Or.inl h
      · exact Or.inr (ih h)
    obtain ⟨first, rest, hsplit⟩ := List.exists_cons_of_ne_nil (List.splitOn_ne_nil d s)
    rw [hsplit] at hcons
    rw [List.splitOn_cons_eq_if_modifyHead, hsplit]
    by_cases he : e = d
    · rw [if_pos (by simpa using he)]
      rcases hcons with rfl | hc | ⟨l, hl, hmem⟩
      · exact Or.inl he
      · exact Or.inl hc
      · exact Or.inr ⟨l, List.mem_cons_of_mem _ hl, hmem⟩
    · rw [if_neg (by simpa using he), List.modifyHead_cons]
      rcases hcons with rfl | hc | ⟨l, hl, hmem⟩
      · exact Or.inr ⟨_, List.mem_cons_self .., List.mem_cons_self ..⟩
      · exact Or.inl hc
      · rcases List.mem_cons.1 hl with rfl | hl
        · exact Or.inr ⟨_, List.mem_cons_self .., List.mem_cons_of_mem _ hmem⟩
        · exact Or.inr ⟨l, List.mem_cons_of_mem _ hl, hmem⟩

/-! ## IPv6 -/

theorem hexGroup_chars (h : hexGroup s = some n) (hc : c ∈ s) : hexVal c ≠ none := by
  have hfold : ∀ (s : Str) (k : Nat), (s.foldlM (fun n c => (hexVal c).map (n * 16 + ·)) k).isSome →
      ∀ c ∈ s, hexVal c ≠ none := by
    intro s
    induction s with
    | nil => exact fun _ _ c hc => absurd hc List.not_mem_nil
    | cons d s ih =>
      intro k hsome c hc
      rw [List.foldlM_cons] at hsome
      cases hd : hexVal d with
      | none =>
        rw [hd] at hsome
        cases hsome
      | some v =>
        rw [hd] at hsome
        rcases List.mem_cons.1 hc with rfl | hc
        · rw [hd]
          exact Option.some_ne_none v
        · exact ih _ hsome c hc
  unfold hexGroup at h
  split at h
  · exact hfold s 0 (by rw [h]; rfl) c hc
  · cases h

theorem hexVal_of_isdigit (h : isdigit c = true) : hexVal c ≠ none := by
  unfold hexVal
  rw [if_pos h]
  exact Option.some_ne_none _

theorem quadGroups_chars {gs : List Nat} (h : quadGroups s = some gs) (hc : c ∈ s) :
    hexVal c ≠ none ∨ c = 46 := by
  obtain ⟨bytes, hbytes, -⟩ := Option.map_eq_some_iff.1 h
  unfold quadBytes at hbytes
  split at hbytes
  · rename_i bytes' hoctets
    rcases mem_splitOn 46 hc with hdot | ⟨l, hl, hmem⟩
    · exact Or.inr hdot
    · left
      obtain ⟨n, hn⟩ := (mapM_some hoctets).1 l hl
      unfold octet at hn
      split at hn
      · rename_i hoctet
        exact hexVal_of_isdigit (List.all_eq_true.1 hoctet.1 c hmem)
      · cases hn
  · cases hbytes

theorem quadGroups_length {gs : List Nat} (h : quadGroups s = some gs) : gs.length = 2 := by
  obtain ⟨bytes, -, rfl⟩ := Option.map_eq_some_iff.1 h
  rfl

/-- The last piece may give two groups, every other one gives one. -/
theorem groups_some {ps : List Str} {gs : List Nat} (h : groups ps = some gs) :
    (∀ l ∈ ps, ∀ c ∈ l, hexVal c ≠ none ∨ c = 46) ∧ gs.length ≤ ps.length + 1 := by
  fun_induction groups ps generalizing gs with
  | case1 =>
    cases h
    exact ⟨fun l hl => absurd hl List.not_mem_nil, by simp⟩
  | case2 last g hg =>
    cases h
    refine ⟨?_, by simp⟩
    intro l hl c hc
    rw [List.mem_singleton.1 hl] at hc
    exact Or.inl (hexGroup_chars hg hc)
  | case3 last hnone =>
    refine ⟨?_, by rw [quadGroups_length h]; simp⟩
    intro l hl c hc
    rw [List.mem_singleton.1 hl] at hc
    exact quadGroups_chars h hc
  | case4 piece pieces hlast ih =>
    obtain ⟨g, hg, h⟩ := Option.bind_eq_some_iff.1 h
    obtain ⟨gs', hgs', rfl⟩ := Option.map_eq_some_iff.1 h
    obtain ⟨hchars, hlen⟩ := ih hgs'
    refine ⟨?_, by rw [List.length_cons, List.length_cons]; omega⟩
    intro l hl c hc
    rcases List.mem_cons.1 hl with rfl | hl
    · exact Or.inl (hexGroup_chars hg hc)
    · exact hchars l hl c hc

theorem mem_pieces (h : c ∈ s) : c = 58 ∨ ∃ l ∈ pieces s, c ∈ l := by
  unfold pieces
  rw [if_neg (List.ne_nil_of_mem h)]
  exact mem_splitOn 58 h

theorem length_pieces_le (s : Str) : (pieces s).length ≤ s.count 58 + 1 := by
  unfold pieces
  split
  · simp
  · rw [length_splitOn]

theorem inet6Groups_some {gs : List Nat} (h : inet6Groups s = some gs) :
    (∀ c ∈ s, hexVal c ≠ none ∨ c = 46 ∨ c = 58) ∧ 2 ≤ s.count 58 := by
  -- every byte is in a piece or a colon
  have hmem : ∀ {t : Str}, (∀ l ∈ pieces t, ∀ c ∈ l, hexVal c ≠ none ∨ c = 46) →
      ∀ c ∈ t, hexVal c ≠ none ∨ c = 46 ∨ c = 58 := by
    intro t ht c hc
    rcases mem_pieces hc with hcolon | ⟨l, hl, hcl⟩
    · exact Or.inr (Or.inr hcolon)
    · rcases ht l hl c hcl with hhex | hdot
      · exact Or.inl hhex
      · exact Or.inr (Or.inl hdot)
  unfold inet6Groups at h
  split at h
  · obtain ⟨gs', hgs', h⟩ := Option.bind_eq_some_iff.1 h
    obtain ⟨hchars, hlen⟩ := groups_some hgs'
    have hpieces := length_pieces_le s
    split at h
    · exact ⟨hmem hchars, by omega⟩
    · cases h
  · rename_i i hfind
    have hsplit : s = s.take i ++ 58 :: 58 :: s.drop (i + 2) := find_some [58, 58] hfind
    obtain ⟨left, hleft, h⟩ := Option.bind_eq_some_iff.1 h
    obtain ⟨right, hright, -⟩ := Option.bind_eq_some_iff.1 h
    have hleft' : ∀ l ∈ pieces (s.take i), ∀ c ∈ l, hexVal c ≠ none ∨ c = 46 := by
      intro l hl c hc
      obtain ⟨g, hg⟩ := (mapM_some hleft).1 l hl
      exact Or.inl (hexGroup_chars hg hc)
    constructor
    · intro c hc
      rw [hsplit, List.mem_append, List.mem_cons, List.mem_cons] at hc
      rcases hc with hc | hc | hc | hc
      · exact hmem hleft' c hc
      · exact Or.inr (Or.inr hc)
      · exact Or.inr (Or.inr hc)
      · exact hmem (groups_some hright).1 c hc
    · rw [hsplit, List.count_append, List.count_cons_self, List.count_cons_self]
      omega

/-- A byte that no address contains. -/
theorem not_mem_of_inet6Groups {gs : List Nat} (h : inet6Groups s = some gs) (hhex : hexVal c = none)
    (hdot : c ≠ 46) (hcolon : c ≠ 58) : c ∉ s := by
  intro hc
  rcases (inet6Groups_some h).1 c hc with hc | hc | hc
  · exact hc hhex
  · exact hdot hc
  · exact hcolon hc

theorem inet6Groups_eq_none (h : s.count 58 < 2) : inet6Groups s = none := by
  rw [Option.eq_none_iff_forall_not_mem]
  intro gs hgs
  have hcount := (inet6Groups_some hgs).2
  omega

/-! ## The full form -/

theorem hexDigit_facts : ∀ d < 16, hexVal (hexDigit d) = some d ∧ hexDigit d ≠ 58 := by
  decide

theorem hexGroup_hexText (h : n < 65536) : hexGroup (hexText n) = some n := by
  have h0 := (hexDigit_facts (n / 4096) (by omega)).1
  have h1 := (hexDigit_facts (n / 256 % 16) (by omega)).1
  have h2 := (hexDigit_facts (n / 16 % 16) (by omega)).1
  have h3 := (hexDigit_facts (n % 16) (by omega)).1
  unfold hexGroup hexText
  rw [if_pos ⟨List.cons_ne_nil _ _, by simp⟩]
  simp only [List.foldlM_cons, List.foldlM_nil, h0, h1, h2, h3, Option.map_some, Option.bind_eq_bind,
    Option.bind_some, Option.pure_def, Option.some.injEq]
  omega

theorem colon_not_mem_hexText (h : n < 65536) : 58 ∉ hexText n := by
  have h0 := (hexDigit_facts (n / 4096) (by omega)).2
  have h1 := (hexDigit_facts (n / 256 % 16) (by omega)).2
  have h2 := (hexDigit_facts (n / 16 % 16) (by omega)).2
  have h3 := (hexDigit_facts (n % 16) (by omega)).2
  unfold hexText
  simp [h0.symm, h1.symm, h2.symm, h3.symm]

theorem groups_hexText {gs : List Nat} (h : ∀ g ∈ gs, g < 65536) :
    groups (gs.map hexText) = some gs := by
  induction gs with
  | nil => rfl
  | cons g gs ih =>
    have hg := hexGroup_hexText (h g (List.mem_cons_self ..))
    have hrest := ih fun g' hg' => h g' (List.mem_cons_of_mem _ hg')
    cases gs with
    | nil =>
      rw [List.map_singleton, groups, hg]
    | cons g' gs =>
      rw [List.map_cons] at hrest
      rw [List.map_cons, List.map_cons, groups, hg, hrest]
      · rfl
      · exact List.cons_ne_nil _ _

/-- The full form of eight groups stands for them. -/
theorem inet6Groups_groupsText {gs : List Nat} (h : ∀ g ∈ gs, g < 65536) (hlen : gs.length = 8) :
    inet6Groups (groupsText gs) = some gs := by
  have hpiece : ∀ l ∈ gs.map hexText, 58 ∉ l ∧ l ≠ [] := by
    intro l hl
    obtain ⟨g, hg, rfl⟩ := List.mem_map.1 hl
    exact ⟨colon_not_mem_hexText (h g hg), List.cons_ne_nil _ _⟩
  have hsplit : (groupsText gs).splitOn 58 = gs.map hexText := by
    refine List.splitOn_intercalate 58 (fun l hl => (hpiece l hl).1) ?_
    intro hnil
    rw [List.map_eq_nil_iff] at hnil
    rw [hnil] at hlen
    cases hlen
  -- a double colon would leave an empty piece
  have hfind : find [58, 58] (groupsText gs) = none := by
    rw [Option.eq_none_iff_forall_not_mem]
    intro i hi
    have hpieces := hsplit
    have htext : groupsText gs =
        (groupsText gs).take i ++ 58 :: ([] ++ 58 :: (groupsText gs).drop (i + 2)) := find_some _ hi
    rw [htext, List.splitOn_append_cons_self, List.splitOn_append_cons_self] at hpieces
    refine (hpiece [] ?_).2 rfl
    rw [← hpieces]
    simp
  have hne : groupsText gs ≠ [] := by
    intro hnil
    rw [hnil, List.splitOn_nil] at hsplit
    refine (hpiece [] ?_).2 rfl
    rw [← hsplit]
    exact List.mem_singleton_self _
  unfold inet6Groups pieces
  rw [hfind, if_neg hne, hsplit, groups_hexText h]
  exact if_pos hlen

end CLib
