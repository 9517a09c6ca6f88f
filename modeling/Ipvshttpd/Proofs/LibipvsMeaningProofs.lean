import Ipvshttpd.LibipvsMeaning
import Ipvshttpd.CLib.Proofs.CStringProofs
import Ipvshttpd.Netlink.Proofs.AttributeProofs

/-!
# Proofs: what the commands of libipvs mean

The attributes of a service and of a destination pass the policies and are read back as they were
written, so that the message of a command makes the request that the caller has asked for.
-/

namespace Ipvshttpd.Libipvs

open CLib Netlink Resumption

variable {nl : Libnl}

/-! ## Attributes that are read back -/

theorem readU16_le (x : BitVec 16) : readU16 (some (leBytes 2 x.toNat)) = some x := by
  have htake : (leBytes 2 x.toNat).take 2 = leBytes 2 x.toNat :=
    List.take_of_length_le (by rw [length_leBytes])
  have hx := x.isLt
  simp only [readU16, Option.map_some, htake, ofLeBytes_leBytes, Option.some.injEq]
  apply BitVec.eq_of_toNat_eq
  rw [BitVec.toNat_ofNat]
  omega

theorem readU32_le (x : BitVec 32) : readU32 (some (leBytes 4 x.toNat)) = some x := by
  have htake : (leBytes 4 x.toNat).take 4 = leBytes 4 x.toNat :=
    List.take_of_length_le (by rw [length_leBytes])
  have hx := x.isLt
  simp only [readU32, Option.map_some, htake, ofLeBytes_leBytes, Option.some.injEq]
  apply BitVec.eq_of_toNat_eq
  rw [BitVec.toNat_ofNat]
  omega

/-- A word behind `i` other words. -/
theorem wordAt_append (before : Bytes) (i : Nat) (hlen : before.length = 4 * i) (x : BitVec 32)
    (after : Bytes) : wordAt (before ++ (leBytes 4 x.toNat ++ after)) i = x := by
  have hdrop : (before ++ (leBytes 4 x.toNat ++ after)).drop (4 * i) =
      leBytes 4 x.toNat ++ after := by
    rw [← hlen, List.drop_left]
  have htake : (leBytes 4 x.toNat ++ after).take 4 = leBytes 4 x.toNat := by
    rw [List.take_append_of_le_length (by rw [length_leBytes]),
      List.take_of_length_le (by rw [length_leBytes])]
  have hx := x.isLt
  rw [wordAt, hdrop, htake, ofLeBytes_leBytes]
  apply BitVec.eq_of_toNat_eq
  rw [BitVec.toNat_ofNat]
  omega

theorem readAddr_addrBytes (addr : NfInetAddr) : readAddr (some (addrBytes addr)) = some addr := by
  have h0 := wordAt_append [] 0 rfl addr.w0
    (leBytes 4 addr.w1.toNat ++ (leBytes 4 addr.w2.toNat ++ leBytes 4 addr.w3.toNat))
  have h1 := wordAt_append (leBytes 4 addr.w0.toNat) 1 (by simp) addr.w1
    (leBytes 4 addr.w2.toNat ++ leBytes 4 addr.w3.toNat)
  have h2 := wordAt_append (leBytes 4 addr.w0.toNat ++ leBytes 4 addr.w1.toNat) 2
    (by simp) addr.w2 (leBytes 4 addr.w3.toNat)
  have h3 := wordAt_append (leBytes 4 addr.w0.toNat ++ leBytes 4 addr.w1.toNat ++
    leBytes 4 addr.w2.toNat) 3 (by simp) addr.w3 []
  simp only [List.append_assoc, List.nil_append, List.append_nil] at h0 h1 h2 h3
  simp only [readAddr, addrBytes, Option.map_some, List.append_assoc, h0, h1, h2, h3]

@[simp] theorem length_addrBytes (addr : NfInetAddr) : (addrBytes addr).length = 16 := by
  simp [addrBytes]

theorem flags_read (flags mask : BitVec 32) :
    wordAt (flagsBytes flags mask) 0 = flags ∧ wordAt (flagsBytes flags mask) 1 = mask := by
  have h0 := wordAt_append [] 0 rfl flags (leBytes 4 mask.toNat)
  have h1 := wordAt_append (leBytes 4 flags.toNat) 1 (by simp) mask []
  simp only [List.nil_append, List.append_nil] at h0 h1
  exact ⟨h0, h1⟩

theorem readU8_le (x : BitVec 16) :
    (readU8 (some (leBytes 1 x.toNat))).getD 0 = x.setWidth 8 := by
  apply BitVec.eq_of_toNat_eq
  simp [readU8, leBytes, ofLeBytes]

/-- A name is read up to the NUL that ends it. -/
theorem cStr_snoc {s : Str} (h : 0 ∉ s) : cStr (s ++ [0]) = s := cStr_append h rfl

/-! ## The attributes of a service -/

/-- The attributes of a service by their types. -/
structure ServiceTable (svc : ServiceUser) (attrs : Attrs) : Prop where
  af : attrs ipvsSvcAttrAf = some (leBytes 2 svc.af.toNat)
  fwmark : attrs ipvsSvcAttrFwmark =
    if svc.fwmark ≠ 0 then some (leBytes 4 svc.fwmark.toNat) else none
  protocol : attrs ipvsSvcAttrProtocol =
    if svc.fwmark ≠ 0 then none else some (leBytes 2 svc.protocol.toNat)
  addr : attrs ipvsSvcAttrAddr = if svc.fwmark ≠ 0 then none else some (addrBytes svc.addr)
  port : attrs ipvsSvcAttrPort =
    if svc.fwmark ≠ 0 then none else some (leBytes 2 svc.port.toNat)
  schedName : attrs ipvsSvcAttrSchedName = some (svc.schedName ++ [0])
  peName : attrs ipvsSvcAttrPeName = if svc.peName ≠ [] then some (svc.peName ++ [0]) else none
  flags : attrs ipvsSvcAttrFlags = some (flagsBytes svc.flags flagsMask)
  timeout : attrs ipvsSvcAttrTimeout = some (leBytes 4 svc.timeout.toNat)
  netmask : attrs ipvsSvcAttrNetmask = some (leBytes 4 svc.netmask.toNat)

theorem serviceTable (svc : ServiceUser) :
    ServiceTable svc (attrTable ipvsSvcAttrMax (serviceAttrs svc)) := by
  constructor <;>
    simp [attrTable, serviceAttrs, serviceKeyAttrs, Attr.ofU16, Attr.ofU32, Attr.ofString]

/-- What holds of the attributes of a service, those that may be left out included. -/
theorem forall_mem_serviceAttrs {P : Attr → Prop} {svc : ServiceUser}
    (haf : P (.ofU16 ipvsSvcAttrAf svc.af)) (hmark : P (.ofU32 ipvsSvcAttrFwmark svc.fwmark))
    (hprotocol : P (.ofU16 ipvsSvcAttrProtocol svc.protocol))
    (haddr : P ⟨ipvsSvcAttrAddr, addrBytes svc.addr⟩)
    (hport : P (.ofU16 ipvsSvcAttrPort svc.port))
    (hsched : P (.ofString ipvsSvcAttrSchedName svc.schedName))
    (hpe : P (.ofString ipvsSvcAttrPeName svc.peName))
    (hflags : P ⟨ipvsSvcAttrFlags, flagsBytes svc.flags flagsMask⟩)
    (htimeout : P (.ofU32 ipvsSvcAttrTimeout svc.timeout))
    (hnetmask : P (.ofU32 ipvsSvcAttrNetmask svc.netmask)) : ∀ a ∈ serviceAttrs svc, P a := by
  have hkey : ∀ a ∈ serviceKeyAttrs svc.fwmark svc.af svc.protocol svc.addr svc.port, P a :=
    List.forall_mem_cons.2 ⟨haf, forall_mem_ite (by simpa using hmark)
      (by simpa using ⟨hprotocol, haddr, hport⟩)⟩
  simp only [serviceAttrs, List.forall_mem_append]
  exact ⟨⟨⟨hkey, by simpa using hsched⟩, forall_mem_ite (by simpa using hpe) (by simp)⟩,
    by simpa using ⟨hflags, htimeout, hnetmask⟩⟩

theorem serviceAttrs_passes (svc : ServiceUser) :
    ∀ a ∈ serviceAttrs svc, Passes ipvsSvcAttrMax ipvsServicePolicy a := by
  have hsched := svc.schedFits.1
  simp only [nameMaxlen] at hsched
  refine forall_mem_serviceAttrs ?_ ?_ ?_ ?_ ?_ ?_ ?_ ?_ ?_ ?_ <;>
    simp [Passes, ipvsServicePolicy, policyOf, NlaPolicy.Accepts, NlaPolicy.shortest,
      NlaPolicy.ofType, NlaPolicy.unset, NlaType.minlen, Attr.ofU16, Attr.ofU32, Attr.ofString,
      nameMaxlen, flagsBytes]
  omega

theorem serviceAttrs_short (svc : ServiceUser) :
    ∀ a ∈ serviceAttrs svc, a.type < 2 ^ 14 ∧ a.payload.length ≤ 16 := by
  have hsched := svc.schedFits.1
  have hpe := svc.peFits.1
  simp only [nameMaxlen] at hsched hpe
  refine forall_mem_serviceAttrs ?_ ?_ ?_ ?_ ?_ ?_ ?_ ?_ ?_ ?_ <;>
    simp [Attr.ofU16, Attr.ofU32, Attr.ofString, flagsBytes] <;> omega

theorem fits_of_short {attrs : List Attr}
    (h : ∀ a ∈ attrs, a.type < 2 ^ 14 ∧ a.payload.length ≤ 16) : ∀ a ∈ attrs, a.Fits := by
  intro a ha
  obtain ⟨htype, hlen⟩ := h a ha
  exact ⟨htype, by omega⟩

theorem length_serviceAttrs (svc : ServiceUser) : (serviceAttrs svc).length ≤ 9 := by
  have hpe := @length_ite_le (svc.peName ≠ []) _ [.ofString ipvsSvcAttrPeName svc.peName] [] 1
    (Nat.le_refl _) (Nat.zero_le _)
  have hkey := @length_ite_le (svc.fwmark ≠ 0) _ [.ofU32 ipvsSvcAttrFwmark svc.fwmark]
    [.ofU16 ipvsSvcAttrProtocol svc.protocol, ⟨ipvsSvcAttrAddr, addrBytes svc.addr⟩,
      .ofU16 ipvsSvcAttrPort svc.port] 3 (by simp) (Nat.le_refl _)
  simp only [serviceAttrs, serviceKeyAttrs, List.length_append, List.length_cons, List.length_nil]
  omega

theorem serviceAttrs_length (svc : ServiceUser) :
    (nl.stream (serviceAttrs svc)).length + 4 < 2 ^ 16 := by
  have hle := stream_length_le nl (length_serviceAttrs svc) fun a ha => (serviceAttrs_short svc a ha).2
  omega

theorem parse_serviceAttrs (svc : ServiceUser) :
    nl.nlaParse ipvsSvcAttrMax ipvsServicePolicy (nl.stream (serviceAttrs svc)) =
      some (attrTable ipvsSvcAttrMax (serviceAttrs svc)) :=
  nl.parse_stream _ _ _ (fits_of_short (serviceAttrs_short svc)) (serviceAttrs_passes svc)

theorem readServiceKey_eq {svc : ServiceUser} {attrs : Attrs} (h : ServiceTable svc attrs) :
    readServiceKey attrs = some (Ipvshttpd.ipvsNlFillServiceAttr svc.toService) := by
  by_cases hmark : svc.fwmark = 0
  · have hnone : readU32 (attrs ipvsSvcAttrFwmark) = none := by
      rw [h.fwmark]
      simp [hmark, readU32]
    have hprotocol := h.protocol
    have haddr := h.addr
    have hport := h.port
    rw [if_neg (not_not.2 hmark)] at hprotocol haddr hport
    simp [readServiceKey, hnone, h.af, hprotocol, haddr, hport, readU16_le, readAddr_addrBytes,
      Ipvshttpd.ipvsNlFillServiceAttr, hmark, -ipvsSvcAttrAf, -ipvsSvcAttrProtocol,
      -ipvsSvcAttrAddr, -ipvsSvcAttrPort, -ipvsSvcAttrFwmark]
  · have hsome : readU32 (attrs ipvsSvcAttrFwmark) = some svc.fwmark := by
      rw [h.fwmark, if_pos hmark]
      exact readU32_le svc.fwmark
    have hkey : Ipvshttpd.ipvsNlFillServiceAttr svc.toService = .fwmark svc.af svc.fwmark :=
      if_pos hmark
    simp [readServiceKey, hsome, h.af, readU16_le, hkey, -ipvsSvcAttrAf, -ipvsSvcAttrFwmark]

theorem readSettings_eq {svc : ServiceUser} {attrs : Attrs} (h : ServiceTable svc attrs) :
    readSettings attrs = some (Command.settings svc) := by
  have hflags := flags_read svc.flags flagsMask
  have hmask : svc.flags &&& flagsMask = svc.flags := BitVec.and_allOnes
  have hpe : cStr ((attrs ipvsSvcAttrPeName).getD []) = svc.peName := by
    rw [h.peName]
    by_cases hpe : svc.peName = []
    · rw [if_neg (not_not.2 hpe), hpe]
      rfl
    · rw [if_pos hpe]
      exact cStr_snoc svc.peFits.2
  simp [readSettings, h.schedName, h.flags, h.timeout, h.netmask, hpe, readU32_le, hflags, hmask,
    cStr_snoc svc.schedFits.2, Command.settings, -ipvsSvcAttrSchedName, -ipvsSvcAttrFlags,
    -ipvsSvcAttrTimeout, -ipvsSvcAttrNetmask, -ipvsSvcAttrPeName]

/-! ## The attributes of a destination -/

theorem destAttrs_passes (dest : Dest) :
    ∀ a ∈ destAttrs dest, Passes ipvsDestAttrMax ipvsDestPolicy a := by
  simp [destAttrs, Passes, ipvsDestPolicy, policyOf, NlaPolicy.Accepts, NlaPolicy.shortest,
    NlaPolicy.ofType, NlaPolicy.unset, NlaType.minlen, Attr.ofU16, Attr.ofU32]

theorem destAttrs_fits (dest : Dest) : ∀ a ∈ destAttrs dest, a.Fits := by
  simp [destAttrs, Attr.Fits, Attr.ofU16, Attr.ofU32]

theorem destAttrs_length (dest : Dest) : (nl.stream (destAttrs dest)).length + 4 < 2 ^ 16 := by
  rw [nl.stream_length]
  simp [destAttrs, Attr.ofU16, Attr.ofU32, nlaTotalSize]

theorem parse_destAttrs (dest : Dest) :
    nl.nlaParse ipvsDestAttrMax ipvsDestPolicy (nl.stream (destAttrs dest)) =
      some (attrTable ipvsDestAttrMax (destAttrs dest)) :=
  nl.parse_stream _ _ _ (destAttrs_fits dest) (destAttrs_passes dest)

/-- The attributes of a destination by their types. -/
structure DestTable (dest : Dest) (attrs : Attrs) : Prop where
  af : attrs ipvsDestAttrAddrFamily = some (leBytes 2 dest.af.toNat)
  addr : attrs ipvsDestAttrAddr = some (addrBytes dest.addr)
  port : attrs ipvsDestAttrPort = some (leBytes 2 dest.port.toNat)
  fwdMethod : attrs ipvsDestAttrFwdMethod =
    some (leBytes 4 (dest.connFlags &&& ipVsConnFFwdMask).toNat)
  weight : attrs ipvsDestAttrWeight = some (leBytes 4 (BitVec.ofInt 32 dest.weight).toNat)
  uThreshold : attrs ipvsDestAttrUThresh = some (leBytes 4 dest.uThreshold.toNat)
  lThreshold : attrs ipvsDestAttrLThresh = some (leBytes 4 dest.lThreshold.toNat)

theorem destTable (dest : Dest) : DestTable dest (attrTable ipvsDestAttrMax (destAttrs dest)) := by
  constructor <;> simp [attrTable, destAttrs, Attr.ofU16, Attr.ofU32]

theorem readDestKey_eq {dest : Dest} {attrs : Attrs} (h : DestTable dest attrs) :
    readDestKey attrs = some (Ipvshttpd.ipvsNlFillDestAttr dest).1 := by
  simp only [readDestKey, h.af, h.addr, h.port, readU16_le, readAddr_addrBytes]
  rfl

theorem readRecord_eq {dest : Dest} {attrs : Attrs} (h : DestTable dest attrs) :
    readRecord attrs = some (Ipvshttpd.ipvsNlFillDestAttr dest).2 := by
  simp only [readRecord, h.fwdMethod, h.weight, h.uThreshold, h.lThreshold, readU32_le]
  rfl

/-! ## The attributes of a daemon -/

/-- The attributes of a daemon by their types. -/
structure DaemonTable (dm : DaemonUser) (attrs : Attrs) : Prop where
  state : attrs ipvsDaemonAttrState = some (leBytes 4 dm.state.toNat)
  mcastIfn : attrs ipvsDaemonAttrMcastIfn = some (cStr dm.mcastIfn ++ [0])
  syncid : attrs ipvsDaemonAttrSyncId = some (leBytes 4 dm.syncid.toNat)
  syncMaxlen : attrs ipvsDaemonAttrSyncMaxlen =
    if dm.syncMaxlen ≠ 0 then some (leBytes 2 (dm.syncMaxlen.setWidth 16).toNat) else none
  mcastPort : attrs ipvsDaemonAttrMcastPort =
    if dm.mcastPort ≠ 0 then some (leBytes 2 dm.mcastPort.toNat) else none
  mcastTtl : attrs ipvsDaemonAttrMcastTtl =
    if dm.mcastTtl ≠ 0 then some (leBytes 1 dm.mcastTtl.toNat) else none
  group : attrs ipvsDaemonAttrMcastGroup =
    if dm.mcastAf = afInet then some (leBytes 4 dm.mcastGroup.w0.toNat) else none
  group6 : attrs ipvsDaemonAttrMcastGroup6 =
    if dm.mcastAf = afInet6 then some (addrBytes dm.mcastGroup) else none

theorem daemonTable (dm : DaemonUser) :
    DaemonTable dm (attrTable ipvsDaemonAttrMax (daemonAttrs dm)) := by
  have hgroup : dm.mcastAf = afInet6 → ¬ dm.mcastAf = afInet := by
    intro h
    rw [h]
    decide
  constructor
  case group =>
    simpa [attrTable, daemonAttrs, daemonKeyAttrs, Attr.ofU16, Attr.ofU32, Attr.ofString] using
      hgroup
  all_goals simp [attrTable, daemonAttrs, daemonKeyAttrs, Attr.ofU16, Attr.ofU32, Attr.ofString]

/-- What holds of the attributes of a daemon, those that may be left out included. -/
theorem forall_mem_daemonAttrs {P : Attr → Prop} {dm : DaemonUser}
    (hkey : ∀ a ∈ daemonKeyAttrs dm, P a)
    (hmaxlen : P (.ofU16 ipvsDaemonAttrSyncMaxlen (dm.syncMaxlen.setWidth 16)))
    (hport : P (.ofU16 ipvsDaemonAttrMcastPort dm.mcastPort))
    (httl : P ⟨ipvsDaemonAttrMcastTtl, leBytes 1 dm.mcastTtl.toNat⟩)
    (hgroup6 : P ⟨ipvsDaemonAttrMcastGroup6, addrBytes dm.mcastGroup⟩)
    (hgroup : P (.ofU32 ipvsDaemonAttrMcastGroup dm.mcastGroup.w0)) :
    ∀ a ∈ daemonAttrs dm, P a := by
  have hopt : ∀ {c : Prop} [Decidable c] {x : Attr}, P x → ∀ a ∈ (if c then [x] else []), P a :=
    fun hx => forall_mem_ite (by simpa using hx) (by simp)
  simp only [daemonAttrs, List.forall_mem_append]
  exact ⟨⟨⟨⟨hkey, hopt hmaxlen⟩, hopt hport⟩, hopt httl⟩,
    forall_mem_ite (by simpa using hgroup6) (hopt hgroup)⟩

theorem daemonKeyAttrs_passes (dm : DaemonArg) :
    ∀ a ∈ daemonKeyAttrs dm.toDaemonUser, Passes ipvsDaemonAttrMax ipvsDaemonPolicy a := by
  have hifn := dm.ifnFits.1
  have hstr := cStr_of_not_mem dm.ifnFits.2
  simp only [nameMaxlen] at hifn
  simp [daemonKeyAttrs, hstr, Passes, ipvsDaemonPolicy, policyOf, NlaPolicy.Accepts,
    NlaPolicy.shortest, NlaPolicy.ofType, NlaType.minlen, Attr.ofU32, Attr.ofString, nameMaxlen]
  omega

theorem daemonAttrs_passes (dm : DaemonArg) :
    ∀ a ∈ daemonAttrs dm.toDaemonUser, Passes ipvsDaemonAttrMax ipvsDaemonPolicy a := by
  refine forall_mem_daemonAttrs (daemonKeyAttrs_passes dm) ?_ ?_ ?_ ?_ ?_ <;>
    simp [Passes, ipvsDaemonPolicy, policyOf, NlaPolicy.Accepts, NlaPolicy.shortest,
      NlaPolicy.ofType, NlaType.minlen, Attr.ofU16, Attr.ofU32]

theorem daemonKeyAttrs_short (dm : DaemonArg) :
    ∀ a ∈ daemonKeyAttrs dm.toDaemonUser, a.type < 2 ^ 14 ∧ a.payload.length ≤ 16 := by
  have hifn := dm.ifnFits.1
  have hstr := cStr_of_not_mem dm.ifnFits.2
  simp only [nameMaxlen] at hifn
  simp [daemonKeyAttrs, hstr, Attr.ofU32, Attr.ofString]
  omega

theorem daemonAttrs_short (dm : DaemonArg) :
    ∀ a ∈ daemonAttrs dm.toDaemonUser, a.type < 2 ^ 14 ∧ a.payload.length ≤ 16 := by
  refine forall_mem_daemonAttrs (daemonKeyAttrs_short dm) ?_ ?_ ?_ ?_ ?_ <;>
    simp [Attr.ofU16, Attr.ofU32]

theorem daemonAttrs_length (dm : DaemonArg) :
    (nl.stream (daemonAttrs dm.toDaemonUser)).length + 4 < 2 ^ 16 ∧
      (nl.stream (daemonKeyAttrs dm.toDaemonUser)).length + 4 < 2 ^ 16 := by
  have hopt : ∀ {c : Prop} [Decidable c] {x : Attr}, (if c then [x] else []).length ≤ 1 :=
    length_ite_le (Nat.le_refl _) (Nat.zero_le _)
  have hkey : (daemonKeyAttrs dm.toDaemonUser).length ≤ 3 := Nat.le_refl _
  have hlen : (daemonAttrs dm.toDaemonUser).length ≤ 3 + 1 + 1 + 1 + 1 := by
    simp only [daemonAttrs, List.length_append]
    exact Nat.add_le_add (Nat.add_le_add (Nat.add_le_add (Nat.add_le_add hkey hopt) hopt) hopt)
      (length_ite_le (Nat.le_refl _) hopt)
  have hle := stream_length_le nl hlen fun a ha => (daemonAttrs_short dm a ha).2
  have hle' := stream_length_le nl hkey fun a ha => (daemonKeyAttrs_short dm a ha).2
  omega

theorem parse_daemonAttrs (dm : DaemonArg) :
    nl.nlaParse ipvsDaemonAttrMax ipvsDaemonPolicy (nl.stream (daemonAttrs dm.toDaemonUser)) =
      some (attrTable ipvsDaemonAttrMax (daemonAttrs dm.toDaemonUser)) :=
  nl.parse_stream _ _ _ (fits_of_short (daemonAttrs_short dm)) (daemonAttrs_passes dm)

theorem parse_daemonKeyAttrs (dm : DaemonArg) :
    nl.nlaParse ipvsDaemonAttrMax ipvsDaemonPolicy (nl.stream (daemonKeyAttrs dm.toDaemonUser)) =
      some (attrTable ipvsDaemonAttrMax (daemonKeyAttrs dm.toDaemonUser)) :=
  nl.parse_stream _ _ _ (fits_of_short (daemonKeyAttrs_short dm)) (daemonKeyAttrs_passes dm)

/-- A member that has been left out because it is 0 is read as 0. -/
theorem readU16_unless_zero (x : BitVec 32) :
    (readU16 (if x ≠ 0 then some (leBytes 2 (x.setWidth 16).toNat) else none)).getD 0 =
      x.setWidth 16 := by
  by_cases hx : x = 0
  · subst hx
    rfl
  · rw [if_pos hx, readU16_le]
    rfl

theorem readGroup_eq {dm : DaemonUser} {attrs : Attrs} (h : DaemonTable dm attrs) :
    readGroup attrs = if dm.mcastAf = afInet6 then some (.v6 dm.mcastGroup)
      else if dm.mcastAf = afInet then some (.v4 dm.mcastGroup.w0) else none := by
  have hne : ¬ afInet6 = afInet := by decide
  rw [readGroup, h.group, h.group6]
  by_cases h6 : dm.mcastAf = afInet6
  · have h4 : ¬ dm.mcastAf = afInet := by rw [h6]; exact hne
    rw [if_pos h6, if_neg h4, if_pos h6, readAddr_addrBytes]
    rfl
  · rw [if_neg h6, if_neg h6]
    by_cases h4 : dm.mcastAf = afInet
    · rw [if_pos h4, if_pos h4, readU32_le]
      rfl
    · rw [if_neg h4, if_neg h4]
      rfl

theorem readDaemon_eq {dm : DaemonArg} {attrs : Attrs} (h : DaemonTable dm.toDaemonUser attrs) :
    readDaemon attrs = some (Command.daemonSpec true dm) := by
  have hstr := cStr_of_not_mem dm.ifnFits.2
  have hmaxlen := readU16_unless_zero dm.syncMaxlen
  have hport : (readU16 (attrs ipvsDaemonAttrMcastPort)).getD 0 = dm.mcastPort := by
    rw [h.mcastPort]
    by_cases hzero : dm.mcastPort = 0
    · rw [if_neg (not_not.2 hzero), hzero]
      rfl
    · rw [if_pos hzero, readU16_le]
      rfl
  have httl : (readU8 (attrs ipvsDaemonAttrMcastTtl)).getD 0 = dm.mcastTtl.setWidth 8 := by
    rw [h.mcastTtl]
    by_cases hzero : dm.mcastTtl = 0
    · rw [if_neg (not_not.2 hzero), hzero]
      rfl
    · rw [if_pos hzero]
      exact readU8_le dm.mcastTtl
  rw [← h.syncMaxlen] at hmaxlen
  have hname : cStr (cStr dm.mcastIfn ++ [0]) = dm.mcastIfn := by rw [hstr, cStr_snoc dm.ifnFits.2]
  simp only [readDaemon, h.state, h.mcastIfn, h.syncid, readU32_le, hmaxlen, hport, httl,
    readGroup_eq h, Option.bind_eq_bind, Option.bind_some, hname, Command.daemonSpec, if_true]

/-! ## Messages -/

theorem cmdAttr_passes (type : Nat) (payload : Bytes)
    (h : type = ipvsCmdAttrService ∨ type = ipvsCmdAttrDest ∨ type = ipvsCmdAttrDaemon) :
    Passes ipvsCmdAttrMax ipvsCmdPolicy ⟨type, payload⟩ := by
  intro _
  rcases h with rfl | rfl | rfl <;>
    simp [ipvsCmdPolicy, policyOf, NlaPolicy.Accepts, NlaPolicy.shortest, NlaPolicy.ofType,
      NlaType.minlen]

theorem request_netlink {cmd flags : Nat} {family : Int} {attrs : List Attr}
    (hfit : ∀ a ∈ attrs, a.Fits) (hpass : ∀ a ∈ attrs, Passes ipvsCmdAttrMax ipvsCmdPolicy a) :
    (Sent.netlink ⟨family, flags, cmd, attrs, none⟩).request nl =
      readRequest nl cmd (attrTable ipvsCmdAttrMax attrs) := by
  simp only [Sent.request, nl.parse_stream _ _ _ hfit hpass, Option.bind_some]

/-- The service in a message is the one that has been put into it. -/
theorem nested_service (svc : ServiceUser) :
    nested nl ipvsSvcAttrMax ipvsServicePolicy (some (nl.stream (serviceAttrs svc))) =
      some (attrTable ipvsSvcAttrMax (serviceAttrs svc)) := parse_serviceAttrs svc

theorem nested_dest (dest : Dest) :
    nested nl ipvsDestAttrMax ipvsDestPolicy (some (nl.stream (destAttrs dest))) =
      some (attrTable ipvsDestAttrMax (destAttrs dest)) := parse_destAttrs dest

theorem message_wellFormed (c : Command) :
    ∀ a ∈ (c.message nl).2, a.Fits ∧ Passes ipvsCmdAttrMax ipvsCmdPolicy a := by
  have hsvc : ∀ svc, (Command.message.service nl svc).Fits ∧
      Passes ipvsCmdAttrMax ipvsCmdPolicy (Command.message.service nl svc) := fun svc =>
    ⟨⟨by simp [Command.message.service], serviceAttrs_length svc⟩,
      cmdAttr_passes _ _ (Or.inl rfl)⟩
  have hdest : ∀ dst, (Command.message.dest nl dst).Fits ∧
      Passes ipvsCmdAttrMax ipvsCmdPolicy (Command.message.dest nl dst) := fun dst =>
    ⟨⟨by simp [Command.message.dest], destAttrs_length dst⟩,
      cmdAttr_passes _ _ (Or.inr (Or.inl rfl))⟩
  intro a ha
  cases c with
  | flush => simp [Command.message] at ha
  | addService svc => cases List.mem_singleton.1 ha; exact hsvc svc
  | updateService svc => cases List.mem_singleton.1 ha; exact hsvc svc
  | delService svc => cases List.mem_singleton.1 ha; exact hsvc svc
  | zeroService svc =>
    simp only [Command.message] at ha
    split_ifs at ha
    · cases List.mem_singleton.1 ha; exact hsvc svc
    · cases ha
  | addDest svc dst =>
    rcases List.mem_cons.1 ha with rfl | ha
    · exact hsvc svc
    · cases List.mem_singleton.1 ha; exact hdest dst
  | updateDest svc dst =>
    rcases List.mem_cons.1 ha with rfl | ha
    · exact hsvc svc
    · cases List.mem_singleton.1 ha; exact hdest dst
  | delDest svc dst =>
    rcases List.mem_cons.1 ha with rfl | ha
    · exact hsvc svc
    · cases List.mem_singleton.1 ha; exact hdest dst
  | setTimeout timeouts =>
    revert a ha
    simp [Command.message, timeoutAttrs, Attr.Fits, Attr.ofU32, Passes, ipvsCmdPolicy, policyOf,
      NlaPolicy.Accepts, NlaPolicy.shortest, NlaPolicy.ofType, NlaType.minlen]
  | startDaemon dm =>
    cases List.mem_singleton.1 ha
    exact ⟨⟨by simp [Command.message.daemon], (daemonAttrs_length dm).1⟩,
      cmdAttr_passes _ _ (Or.inr (Or.inr rfl))⟩
  | stopDaemon dm =>
    cases List.mem_singleton.1 ha
    exact ⟨⟨by simp [Command.message.daemon], (daemonAttrs_length dm).2⟩,
      cmdAttr_passes _ _ (Or.inr (Or.inr rfl))⟩

theorem table_service (payload : Bytes) :
    attrTable ipvsCmdAttrMax [⟨ipvsCmdAttrService, payload⟩] ipvsCmdAttrService = some payload := by
  simp [attrTable]

theorem table_both (payload payload' : Bytes) :
    attrTable ipvsCmdAttrMax [⟨ipvsCmdAttrService, payload⟩, ⟨ipvsCmdAttrDest, payload'⟩]
      ipvsCmdAttrService = some payload ∧
    attrTable ipvsCmdAttrMax [⟨ipvsCmdAttrService, payload⟩, ⟨ipvsCmdAttrDest, payload'⟩]
      ipvsCmdAttrDest = some payload' := by
  simp [attrTable]

theorem table_daemon (payload : Bytes) :
    attrTable ipvsCmdAttrMax [⟨ipvsCmdAttrDaemon, payload⟩] ipvsCmdAttrDaemon = some payload := by
  simp [attrTable]

theorem nested_daemon (dm : DaemonArg) :
    nested nl ipvsDaemonAttrMax ipvsDaemonPolicy
        (some (nl.stream (daemonAttrs dm.toDaemonUser))) =
      some (attrTable ipvsDaemonAttrMax (daemonAttrs dm.toDaemonUser)) ∧
    nested nl ipvsDaemonAttrMax ipvsDaemonPolicy
        (some (nl.stream (daemonKeyAttrs dm.toDaemonUser))) =
      some (attrTable ipvsDaemonAttrMax (daemonKeyAttrs dm.toDaemonUser)) :=
  ⟨parse_daemonAttrs dm, parse_daemonKeyAttrs dm⟩

theorem readSetDest_eq (svc : ServiceUser) (dst : Dest) :
    readSetDest nl (attrTable ipvsCmdAttrMax
      [Command.message.service nl svc, Command.message.dest nl dst]) =
      Ipvshttpd.ipvsUpdateDest true svc.toService dst := by
  simp only [readSetDest, Command.message.service, Command.message.dest, (table_both _ _).1,
    (table_both _ _).2, nested_service, nested_dest, Option.bind_eq_bind, Option.bind_some,
    readServiceKey_eq (serviceTable svc), readDestKey_eq (destTable dst),
    readRecord_eq (destTable dst)]
  rfl

/-- A message makes the request that the caller has asked for. -/
theorem netlink_request (nl : Libnl) (family : Int) (c : Command) :
    (Sent.netlink ⟨family, 0, (c.message nl).1, (c.message nl).2, none⟩).request nl =
      c.meaning true := by
  have hkey : ∀ svc, Command.serviceKey true svc =
      Ipvshttpd.ipvsNlFillServiceAttr svc.toService := fun svc => rfl
  rw [request_netlink (fun a ha => (message_wellFormed c a ha).1)
    fun a ha => (message_wellFormed c a ha).2]
  cases c with
  | flush => rfl
  | addService svc =>
    show readRequest nl ipvsCmdNewService (attrTable ipvsCmdAttrMax [_]) = _
    simp [readRequest, Command.message.service, table_service, nested_service,
      readServiceKey_eq (serviceTable svc), readSettings_eq (serviceTable svc), ipvsCmdNewService,
      ipvsCmdFlush, Command.meaning, hkey, -ipvsCmdAttrMax, -ipvsCmdAttrService, -ipvsSvcAttrMax]
  | updateService svc =>
    show readRequest nl ipvsCmdSetService (attrTable ipvsCmdAttrMax [_]) = _
    simp [readRequest, Command.message.service, table_service, nested_service,
      readServiceKey_eq (serviceTable svc), readSettings_eq (serviceTable svc), ipvsCmdNewService,
      ipvsCmdSetService, ipvsCmdFlush, Command.meaning, hkey, -ipvsCmdAttrMax,
      -ipvsCmdAttrService, -ipvsSvcAttrMax]
  | delService svc =>
    show readRequest nl ipvsCmdDelService (attrTable ipvsCmdAttrMax [_]) = _
    simp [readRequest, Command.message.service, table_service, nested_service,
      readServiceKey_eq (serviceTable svc), ipvsCmdNewService, ipvsCmdSetService,
      ipvsCmdDelService, ipvsCmdFlush, Command.meaning, hkey, -ipvsCmdAttrMax,
      -ipvsCmdAttrService, -ipvsSvcAttrMax]
  | zeroService svc =>
    by_cases hgiven : svc.IsGiven
    · have hmessage : (Command.zeroService svc).message nl =
          (ipvsCmdZero, [Command.message.service nl svc]) := by simp [Command.message, hgiven]
      rw [hmessage]
      simp [readRequest, Command.message.service, table_service, nested_service,
        readServiceKey_eq (serviceTable svc), ipvsCmdNewService, ipvsCmdSetService,
        ipvsCmdDelService, ipvsCmdZero, ipvsCmdFlush, Command.meaning, hkey, hgiven,
        -ipvsCmdAttrMax, -ipvsCmdAttrService, -ipvsSvcAttrMax]
    · have hmessage : (Command.zeroService svc).message nl = (ipvsCmdZero, []) := by
        simp [Command.message, hgiven]
      rw [hmessage]
      simp [readRequest, attrTable, ipvsCmdNewService, ipvsCmdSetService, ipvsCmdDelService,
        ipvsCmdZero, ipvsCmdFlush, Command.meaning, hgiven]
  | addDest svc dst =>
    show (readSetDest nl (attrTable ipvsCmdAttrMax [_, _])).map _ = _
    rw [readSetDest_eq]
    rfl
  | updateDest svc dst =>
    show (readSetDest nl (attrTable ipvsCmdAttrMax [_, _])).map _ = _
    rw [readSetDest_eq]
    rfl
  | delDest svc dst =>
    show (readSetDest nl (attrTable ipvsCmdAttrMax [_, _])).map _ = _
    rw [readSetDest_eq]
    rfl
  | setTimeout timeouts =>
    have htcp := readU32_le timeouts.tcpTimeout
    have hfin := readU32_le timeouts.tcpFinTimeout
    have hudp := readU32_le timeouts.udpTimeout
    simp [readRequest, Command.message, timeoutAttrs, Attr.ofU32, attrTable, ipvsCmdNewService,
      ipvsCmdSetService, ipvsCmdDelService, ipvsCmdZero, ipvsCmdFlush, ipvsCmdNewDest,
      ipvsCmdSetDest, ipvsCmdDelDest, ipvsCmdSetTimeout, htcp, hfin, hudp, Command.meaning]
  | startDaemon dm =>
    show readRequest nl ipvsCmdNewDaemon (attrTable ipvsCmdAttrMax [_]) = _
    simp [readRequest, Command.message.daemon, table_daemon, nested_daemon,
      readDaemon_eq (daemonTable dm.toDaemonUser), ipvsCmdNewService, ipvsCmdSetService,
      ipvsCmdDelService, ipvsCmdZero, ipvsCmdFlush, ipvsCmdNewDest, ipvsCmdSetDest, ipvsCmdDelDest,
      ipvsCmdSetTimeout, ipvsCmdNewDaemon, Command.meaning, -ipvsCmdAttrMax, -ipvsCmdAttrDaemon,
      -ipvsDaemonAttrMax]
  | stopDaemon dm =>
    have hstate : attrTable ipvsDaemonAttrMax (daemonKeyAttrs dm.toDaemonUser)
        ipvsDaemonAttrState = some (leBytes 4 dm.state.toNat) := by
      simp [attrTable, daemonKeyAttrs, Attr.ofU32, Attr.ofString]
    show readRequest nl ipvsCmdDelDaemon (attrTable ipvsCmdAttrMax [_]) = _
    simp [readRequest, Command.message.daemon, table_daemon, nested_daemon, hstate, readU32_le,
      ipvsCmdNewService, ipvsCmdSetService, ipvsCmdDelService, ipvsCmdZero, ipvsCmdFlush,
      ipvsCmdNewDest, ipvsCmdSetDest, ipvsCmdDelDest, ipvsCmdSetTimeout, ipvsCmdNewDaemon,
      ipvsCmdDelDaemon, Command.meaning, -ipvsCmdAttrMax, -ipvsCmdAttrDaemon, -ipvsDaemonAttrMax,
      -ipvsDaemonAttrState]

/-- So does the argument of a `setsockopt`. -/
theorem sockopt_request (c : Command) : c.sockopt.bind SetOpt.request = c.meaning false := by
  have hkey : ∀ svc, Command.serviceKey false svc = svc.kern.key := fun svc => rfl
  have hsettings : ∀ svc, checkCompatSvc svc = true →
      Command.settings svc = svc.kern.settings := by
    intro svc h
    have hpe : svc.peName = [] := by simpa using (Bool.and_eq_true_iff.1 h).2
    simp [Command.settings, ServiceKern.settings, ServiceUser.kern, hpe]
  have hdest : ∀ svc dst, Ipvshttpd.ipvsUpdateDest false svc.toService dst =
      if checkCompatBoth svc dst then some (setDestKern svc.kern (destKern dst)) else none := by
    intro svc dst
    have hboth : checkCompatBoth svc dst = true ↔
        checkIpv4 svc.af = true ∧ svc.peName = [] ∧ checkIpv4 dst.af = true := by
      simp [checkCompatBoth, checkCompatSvc, and_assoc]
    by_cases hall : checkIpv4 svc.af = true ∧ svc.peName = [] ∧ checkIpv4 dst.af = true
    · rw [if_pos (hboth.2 hall)]
      exact if_pos hall
    · rw [if_neg (mt hboth.1 hall)]
      exact if_neg hall
  cases c with
  | flush => rfl
  | addService svc =>
    by_cases h : checkCompatSvc svc = true
    · simp [Command.sockopt, Command.meaning, h, SetOpt.request, hkey, hsettings svc h]
    · simp [Command.sockopt, Command.meaning, h]
  | updateService svc =>
    by_cases h : checkCompatSvc svc = true
    · simp [Command.sockopt, Command.meaning, h, SetOpt.request, hkey, hsettings svc h]
    · simp [Command.sockopt, Command.meaning, h]
  | delService svc =>
    by_cases h : checkCompatSvc svc = true
    · simp [Command.sockopt, Command.meaning, h, SetOpt.request, hkey]
    · simp [Command.sockopt, Command.meaning, h]
  | zeroService svc =>
    by_cases h : checkCompatSvc svc = true
    · simp [Command.sockopt, Command.meaning, h, SetOpt.request, hkey, ServiceUser.kern]
    · simp [Command.sockopt, Command.meaning, h]
  | addDest svc dst =>
    simp only [Command.sockopt, Command.meaning, hdest]
    split_ifs <;> rfl
  | updateDest svc dst =>
    simp only [Command.sockopt, Command.meaning, hdest]
    split_ifs <;> rfl
  | delDest svc dst =>
    simp only [Command.sockopt, Command.meaning, hdest]
    split_ifs <;> rfl
  | setTimeout timeouts => rfl
  | startDaemon dm =>
    simp [Command.sockopt, Command.meaning, SetOpt.request, Command.daemonSpec,
      cStr_of_not_mem dm.ifnFits.2]
  | stopDaemon dm => rfl

/-- What a command sends makes the request that the caller has asked for; nothing is sent if
    `setsockopt` cannot express it. -/
theorem sent_request (v : Statics) (c : Command) :
    (c.sent nl v).map (Sent.request nl) = (c.meaning v.tryNl).toList.map some := by
  cases hnl : v.tryNl with
  | true =>
    have hmeaning := netlink_request nl v.family c
    have hsome : ∃ r, c.meaning true = some r := by
      cases c <;> simp [Command.meaning, Ipvshttpd.ipvsUpdateDest]
    obtain ⟨r, hr⟩ := hsome
    simp [Command.sent, hnl, hmeaning, hr]
  | false =>
    have hmeaning := sockopt_request c
    cases hopt : c.sockopt with
    | none =>
      rw [hopt] at hmeaning
      simp [Command.sent, hnl, hopt, ← hmeaning]
    | some opt =>
      rw [hopt, Option.bind_some] at hmeaning
      have hsome : ∃ r, opt.request = some r := by
        cases c <;> simp only [Command.sockopt] at hopt <;> (try split_ifs at hopt) <;>
          cases hopt <;> exact ⟨_, rfl⟩
      obtain ⟨r, hr⟩ := hsome
      simp [Command.sent, hnl, hopt, ← hmeaning, Sent.request, hr]

end Ipvshttpd.Libipvs
