import AgentBridge.Proxy.ClientHello

/-!
# The grammar is all the parser accepts

`Proxy.ClientHello` shows that an accepted record is one ClientHello with one server name. Here is
the converse: every such record is accepted, if it is small enough, if its version is one of the
four that the guard knows, and if its name is a public DNS name.

The guard checks the name after it has put it into lower case, which makes no difference: every
check on the text is the same for both, and what `ip_address` accepts is no such name (`IpForms`).

* `parseTlsClientHelloSni_iff` : **the parser returns a host exactly on the records that name it**.
-/

namespace AgentBridge.Proxy

open Bytes List Except

/-! ### Names in lower case -/

/-- A property of all bytes, checked on their numbers. -/
theorem forall_byte {P : UInt8 → Prop} (h : ∀ n < 256, P (UInt8.ofNat n)) (b : UInt8) : P b := by
  have hb := h b.toNat b.toNat_lt
  rwa [UInt8.ofNat_toNat] at hb

theorem lowerByte_checks (b : UInt8) :
    (lowerByte b < 128 ↔ b < 128) ∧ isDigit (lowerByte b) = isDigit b ∧
      isAlnum (lowerByte b) = isAlnum b ∧ lowerByte (lowerByte b) = lowerByte b ∧
      (lowerByte b = 45 ↔ b = 45) ∧ (lowerByte b = 46 ↔ b = 46) := by
  revert b
  exact forall_byte (by decide +kernel)

theorem splitOn_lower (host : Bytes) : (lower host).splitOn 46 = (host.splitOn 46).map lower := by
  unfold List.splitOn
  induction host with
  | nil => rfl
  | cons b host ih =>
    have hdot : (lowerByte b == 46) = (b == 46) := by
      rw [Bool.eq_iff_iff, beq_iff_eq, beq_iff_eq]
      exact (lowerByte_checks b).2.2.2.2.2
    rw [lower_cons, splitOnP_cons_eq_if_modifyHead, splitOnP_cons_eq_if_modifyHead, ih,
      hdot]
    split
    · rfl
    · cases List.splitOnP (fun x => x == 46) host <;> rfl

variable {host : Bytes}

/-- Every byte of a name is a dot or in a label. -/
theorem mem_label {b : UInt8} (h : b ∈ host) (hdot : b ≠ 46) :
    ∃ label ∈ host.splitOn 46, b ∈ label := by
  unfold List.splitOn
  induction host with
  | nil => cases h
  | cons c host ih =>
    rw [splitOnP_cons_eq_if_modifyHead]
    obtain ⟨first, rest, hsplit⟩ := exists_cons_of_ne_nil
      (splitOnP_ne_nil (fun x => x == 46) host)
    rcases mem_cons.mp h with rfl | h
    · rw [if_neg (by simpa using hdot), hsplit]
      exact ⟨b :: first, mem_cons_self, mem_cons_self⟩
    · obtain ⟨label, hlabel, hb⟩ := ih h
      split
      · exact ⟨label, mem_cons_of_mem _ hlabel, hb⟩
      · rw [hsplit] at hlabel ⊢
        rcases mem_cons.mp hlabel with rfl | hlabel
        · exact ⟨c :: label, mem_cons_self, mem_cons_of_mem _ hb⟩
        · exact ⟨label, mem_cons_of_mem _ hlabel, hb⟩

/-- The checks of `_valid_dns_name` on the text alone. -/
def dnsShape (host : Bytes) : Bool := validDnsName (fun _ => none) host

theorem validDnsName_eq (ipAddress : Bytes → Option Ip) (host : Bytes) :
    validDnsName ipAddress host = (dnsShape host && (ipAddress host).isNone) := by
  simp [dnsShape, validDnsName]

theorem isAscii_lower (s : Bytes) : isAscii (lower s) = isAscii s := by
  unfold isAscii lower
  rw [all_map]
  congr 1
  funext b
  exact decide_eq_decide.mpr (lowerByte_checks b).1

theorem all_isDigit_lower (s : Bytes) : (lower s).all isDigit = s.all isDigit := by
  unfold lower
  rw [all_map]
  congr 1
  funext b
  exact (lowerByte_checks b).2.1

theorem map_eq_some_iff_of_iff {f : UInt8 → UInt8} {c : UInt8} (hf : ∀ b, f b = c ↔ b = c)
    (o : Option UInt8) : o.map f = some c ↔ o = some c := by
  cases o with
  | none => simp
  | some b => simpa using hf b

theorem validLabel_lower (label : Bytes) : validLabel (lower label) = validLabel label := by
  have hhyphen : ∀ b, lowerByte b = 45 ↔ b = 45 := fun b => (lowerByte_checks b).2.2.2.2.1
  have hall : (lower label).all (fun b => isAlnum b || b = 45) =
      label.all fun b => isAlnum b || b = 45 := by
    unfold lower
    rw [all_map]
    congr 1
    funext b
    show (isAlnum (lowerByte b) || decide (lowerByte b = 45)) = _
    rw [(lowerByte_checks b).2.2.1, decide_eq_decide.mpr (hhyphen b)]
  unfold validLabel
  rw [hall]
  simp only [lower, length_map, head?_map, getLast?_map, ne_eq,
    map_eq_some_iff_of_iff hhyphen]

theorem dots_lower (host : Bytes) :
    ((lower host).tails.any fun rest => (ascii "..").isPrefixOf rest) =
      host.tails.any fun rest => (ascii "..").isPrefixOf rest := by
  have hprefix : ∀ s : Bytes, (ascii "..").isPrefixOf (lower s) = (ascii "..").isPrefixOf s := by
    have hdot : ∀ b, (46 == lowerByte b) = ((46 : UInt8) == b) := by
      intro b
      rw [Bool.eq_iff_iff, beq_iff_eq, beq_iff_eq, eq_comm, (lowerByte_checks b).2.2.2.2.2, eq_comm]
    intro s
    have hdots : ascii ".." = [46, 46] := by decide
    rw [hdots]
    match s with
    | [] => rfl
    | [b] => simp only [lower_cons, List.isPrefixOf, hdot]; rfl
    | b :: c :: s => simp only [lower_cons, List.isPrefixOf, hdot]
  induction host with
  | nil => rfl
  | cons b host ih =>
    rw [lower_cons, List.tails, List.tails, any_cons, any_cons, ih, ← lower_cons, hprefix]

theorem dnsShape_lower (host : Bytes) : dnsShape (lower host) = dnsShape host := by
  have hdot : ∀ b, lowerByte b = 46 ↔ b = 46 := fun b => (lowerByte_checks b).2.2.2.2.2
  have hlast : ((lower host).splitOn 46).getLastD [] = lower ((host.splitOn 46).getLastD []) := by
    rw [splitOn_lower, getLastD_eq_getLast?, getLastD_eq_getLast?, getLast?_map]
    cases (host.splitOn 46).getLast? <;> rfl
  have hlower : ∀ s, lower (lower s) = lower s := by
    intro s
    unfold lower
    rw [map_map]
    exact map_congr_left fun b _ => (lowerByte_checks b).2.2.2.1
  have hlabels : ((lower host).splitOn 46).all validLabel = (host.splitOn 46).all validLabel := by
    rw [splitOn_lower, all_map]
    congr 1
    funext label
    exact validLabel_lower label
  have hlength : ((lower host).splitOn 46).length = (host.splitOn 46).length := by
    rw [splitOn_lower, length_map]
  have hhead : ((lower host).head? = some 46) = (host.head? = some 46) := by
    rw [lower, head?_map, map_eq_some_iff_of_iff hdot]
  have hend : ((lower host).getLast? = some 46) = (host.getLast? = some 46) := by
    rw [lower, getLast?_map, map_eq_some_iff_of_iff hdot]
  unfold dnsShape validDnsName
  simp only [hlast, hlower, hlabels, hlength, isAscii_lower, dots_lower, all_isDigit_lower, hhead,
    hend]
  rw [lower, length_map]

/-- What `ip_address` accepts: an IPv6 address has a colon, and an IPv4 address ends in digits. -/
def IpForms (ipAddress : Bytes → Option Ip) : Prop :=
  ∀ host, (ipAddress host).isSome = true →
    58 ∈ host ∨ ((host.splitOn 46).getLastD []).all isDigit = true

variable {ipAddress : Bytes → Option Ip} {name : Bytes} {e : Extension} {scan : Scan}

theorem validDnsName_eq_dnsShape (hip : IpForms ipAddress) (host : Bytes) :
    validDnsName ipAddress host = dnsShape host := by
  rw [validDnsName_eq]
  cases hshape : dnsShape host with
  | false => rfl
  | true =>
    rw [Bool.true_and, Option.isNone_iff_eq_none, ← Option.not_isSome_iff_eq_none]
    intro hsome
    unfold dnsShape validDnsName at hshape
    simp only [Bool.and_eq_true, Bool.not_eq_true'] at hshape
    rcases hip host hsome with hcolon | hdigits
    · obtain ⟨label, hlabel, hmem⟩ := mem_label hcolon (by decide)
      have hvalid := all_eq_true.mp hshape.1.1.2 label hlabel
      unfold validLabel at hvalid
      rw [Bool.and_eq_true] at hvalid
      exact absurd (all_eq_true.mp hvalid.2 58 hmem) (by decide)
    · rw [hdigits] at hshape
      exact Bool.noConfusion hshape.1.2

theorem validDnsName_lower (hip : IpForms ipAddress) (host : Bytes) :
    validDnsName ipAddress (lower host) = validDnsName ipAddress host := by
  rw [validDnsName_eq_dnsShape hip, validDnsName_eq_dnsShape hip, dnsShape_lower]

/-! ### Reading what the grammar writes -/

theorem length_serverName (name : Bytes) : (serverName name).length = name.length + 5 := by
  simp only [serverName, length_append, length_ofNat, length_singleton]
  omega

theorem parseServerName_serverName (hlength : (serverName name).length < 256 ^ 2)
    (hascii : isAscii name = true) : parseServerName (serverName name) = .ok (lower name) := by
  have hsize := length_serverName name
  rw [hsize] at hlength
  have hlist : (serverName name).take 2 = ofNat 2 (name.length + 3) := by
    unfold serverName
    rw [append_assoc, append_assoc, take_left' (length_ofNat _ _)]
  have hkind : (serverName name).drop 2 = 0 :: (ofNat 2 name.length ++ name) := by
    unfold serverName
    rw [append_assoc, append_assoc, drop_left' (length_ofNat _ _)]
    rfl
  have hthree : (serverName name).drop 3 = ofNat 2 name.length ++ name := by
    have hdrop : ((serverName name).drop 2).drop 1 = (serverName name).drop 3 := drop_drop
    rw [← hdrop, hkind]
    rfl
  have hfive : (serverName name).drop 5 = name := by
    have hdrop : ((serverName name).drop 3).drop 2 = (serverName name).drop 5 := drop_drop
    rw [← hdrop, hthree, drop_left' (length_ofNat _ _)]
  have hthird : ((serverName name).drop 3).take 2 = ofNat 2 name.length := by
    rw [hthree, take_left' (length_ofNat _ _)]
  have hfirst : toNat (ofNat 2 (name.length + 3)) = name.length + 3 := toNat_ofNat (by omega)
  have hsecond : toNat (ofNat 2 name.length) = name.length := toNat_ofNat (by omega)
  refine bind_eq_ok.mpr ⟨(), require_eq_ok.mpr ?_, ?_⟩
  · rw [hlist, hfirst, hsize]
    simp
  refine bind_eq_ok.mpr ⟨(), require_eq_ok.mpr ?_, ?_⟩
  · rw [hkind]
    rfl
  refine bind_eq_ok.mpr ⟨(), require_eq_ok.mpr ?_, ?_⟩
  · rw [hthird, hsecond, hsize]
    simp
  rw [hfive]
  exact bind_eq_ok.mpr ⟨(), require_eq_ok.mpr hascii, rfl⟩

/-- A program goes on after a segment. -/
theorem nextSegment_append_bind {α : Type} {value : Bytes} {width : ℕ} (h : value.length = width)
    (rest : Bytes) (f : Bytes × Bytes → Except Denied α) :
    (nextSegment (value ++ rest) width >>= f) = f (value, rest) := by
  rw [nextSegment, segment_append _ h]
  rfl

/-- The extension may be read: it is new, and its name is the given one. -/
structure Extension.Readable (e : Extension) (scan : Scan) (name : Bytes) : Prop where
  fresh : e.type ∉ scan.seen
  notEncrypted : e.type ≠ encryptedClientHello
  named : e.type = 0 → e.value = serverName name

theorem parseExtension_encode (h : e.Readable scan name) (hascii : isAscii name = true)
    (rest : Bytes) :
    parseExtension (e.encode ++ rest) scan =
      .ok (rest, { seen := e.type :: scan.seen
                   found := if e.type = 0 then some (lower name) else scan.found }) := by
  have hheader : (ofNat 2 e.type ++ ofNat 2 e.value.length).length = 4 := by
    rw [length_append, length_ofNat, length_ofNat]
  have htype : toNat ((ofNat 2 e.type ++ ofNat 2 e.value.length).take 2) = e.type := by
    rw [take_left' (length_ofNat _ _), toNat_ofNat e.type_lt]
  have hsize : toNat ((ofNat 2 e.type ++ ofNat 2 e.value.length).drop 2) = e.value.length := by
    rw [drop_left' (length_ofNat _ _), toNat_ofNat e.length_lt]
  have hnew : (!scan.seen.contains e.type) = true := by simpa using h.fresh
  unfold parseExtension Extension.encode
  rw [append_assoc, nextSegment_append_bind hheader]
  simp only [htype, hsize]
  rw [nextSegment_append_bind rfl]
  refine bind_eq_ok.mpr ⟨(), require_eq_ok.mpr hnew, ?_⟩
  refine bind_eq_ok.mpr ⟨(), require_eq_ok.mpr (decide_eq_true h.notEncrypted), ?_⟩
  split
  case isTrue hzero =>
    have hvalue := h.named hzero
    have hparse := parseServerName_serverName (by rw [← hvalue]; exact e.length_lt) hascii
    rw [hvalue]
    exact bind_eq_ok.mpr ⟨_, hparse, rfl⟩
  case isFalse => rfl

/-- Every extension may be read, one after the other. -/
structure Readables (extensions : List Extension) (scan : Scan) (name : Bytes) : Prop where
  nodup : (extensions.map Extension.type).Nodup
  fresh : ∀ e ∈ extensions, e.type ∉ scan.seen
  notEncrypted : ∀ e ∈ extensions, e.type ≠ encryptedClientHello
  named : ∀ e ∈ extensions, e.type = 0 → e.value = serverName name

variable {extensions : List Extension}

theorem Readables.tail (h : Readables (e :: extensions) scan name) (found : Option Bytes) :
    Readables extensions { seen := e.type :: scan.seen, found } name where
  nodup := (nodup_cons.mp h.nodup).2
  fresh e' he' := by
    intro hmem
    rcases mem_cons.mp hmem with heq | hmem
    · exact (nodup_cons.mp h.nodup).1 (heq ▸ mem_map_of_mem he')
    · exact h.fresh e' (mem_cons_of_mem _ he') hmem
  notEncrypted e' he' := h.notEncrypted e' (mem_cons_of_mem _ he')
  named e' he' := h.named e' (mem_cons_of_mem _ he')

/-- One round of the loop. -/
theorem parseExtensions_step {rest : Bytes} (hne : rest ≠ []) (scan : Scan) :
    parseExtensions rest scan = parseExtension rest scan >>= fun r => parseExtensions r.1 r.2 := by
  rw [parseExtensions, if_neg hne]
  split
  case h_1 e herror => rw [herror]; rfl
  case h_2 rest' scan' hok => rw [hok]; rfl

/-- The loop reads all extensions and keeps the name, if there is one. -/
theorem parseExtensions_encodeExtensions (h : Readables extensions scan name)
    (hascii : isAscii name = true) :
    ∃ scan', parseExtensions (ClientHello.encodeExtensions extensions) scan = .ok scan' ∧
      scan'.found =
        if 0 ∈ extensions.map Extension.type then some (lower name) else scan.found := by
  induction extensions generalizing scan with
  | nil =>
    have hnil : ClientHello.encodeExtensions [] = [] := rfl
    refine ⟨scan, ?_, rfl⟩
    rw [parseExtensions, if_pos hnil]
  | cons e extensions ih =>
    have hread : e.Readable scan name :=
      ⟨h.fresh e mem_cons_self, h.notEncrypted e mem_cons_self,
        h.named e mem_cons_self⟩
    have hparse := parseExtension_encode hread hascii (ClientHello.encodeExtensions extensions)
    obtain ⟨scan', hscan', hfound⟩ := ih (h.tail (if e.type = 0 then some (lower name) else scan.found))
    have hcons : ClientHello.encodeExtensions (e :: extensions) =
        e.encode ++ ClientHello.encodeExtensions extensions := rfl
    have hne : e.encode ++ ClientHello.encodeExtensions extensions ≠ [] := by
      intro hnil
      have := congrArg List.length hnil
      rw [length_append, e.length_encode] at this
      simp at this
    refine ⟨scan', ?_, ?_⟩
    · rw [hcons, parseExtensions_step hne, hparse]
      exact hscan'
    · rw [hfound, map_cons]
      by_cases hzero : e.type = 0
      · simp [hzero]
      · have hne' : ¬(0 = e.type) := fun h => hzero h.symm
        simp [hzero, hne']

theorem Extension.length_le_encodeExtensions (he : e ∈ extensions) :
    4 + e.value.length ≤ (ClientHello.encodeExtensions extensions).length := by
  induction extensions with
  | nil => cases he
  | cons e' extensions ih =>
    have hcons : (ClientHello.encodeExtensions (e' :: extensions)).length =
        4 + e'.value.length + (ClientHello.encodeExtensions extensions).length := by
      show (e'.encode ++ ClientHello.encodeExtensions extensions).length = _
      rw [length_append, e'.length_encode]
    rcases mem_cons.mp he with rfl | he
    · omega
    · have := ih he
      omega

theorem parseHello_encode {ch : ClientHello} (h : ch.Names name) (hascii : isAscii name = true)
    (hsize : (ClientHello.encodeExtensions ch.extensions).length < 256 ^ 2) :
    parseHello ch.encode = .ok (some (lower name)) := by
  obtain ⟨e, he, hzero, hvalue⟩ := h.named
  -- the types are distinct, so there is only one server name
  have hunique : ∀ e' ∈ ch.extensions, e'.type = 0 → e'.value = serverName name := by
    intro e' he' hzero'
    rw [inj_on_of_nodup_map h.nodup he' he (hzero'.trans hzero.symm), hvalue]
  have hreadable : Readables ch.extensions {} name :=
    ⟨h.nodup, fun e' _ hmem => (not_mem_nil hmem).elim, h.notEncrypted, hunique⟩
  obtain ⟨scan, hscan, hfound⟩ := parseExtensions_encodeExtensions hreadable hascii
  rw [if_pos (mem_map.mpr ⟨e, he, hzero⟩)] at hfound
  have hpositive : (ClientHello.encodeExtensions ch.extensions).length ≠ 0 := by
    have := Extension.length_le_encodeExtensions he
    omega
  have hsession : toNat (ofNat 1 ch.session.length) = ch.session.length :=
    toNat_ofNat (by simpa using ch.session_length)
  have hciphers : toNat (ofNat 2 ch.ciphers.length) = ch.ciphers.length :=
    toNat_ofNat ch.ciphers_length.1
  have hcompression : toNat (ofNat 1 ch.compression.length) = ch.compression.length :=
    toNat_ofNat (by simpa using ch.compression_length.1)
  have hextensions : toNat (ofNat 2 (ClientHello.encodeExtensions ch.extensions).length) =
      (ClientHello.encodeExtensions ch.extensions).length := toNat_ofNat hsize
  unfold parseHello ClientHello.encode
  simp only [append_assoc]
  rw [nextSegment_append_bind ch.prologue_length, nextSegment_append_bind (length_ofNat _ _)]
  simp only [hsession]
  rw [nextSegment_append_bind rfl, nextSegment_append_bind (length_ofNat _ _)]
  simp only [hciphers]
  refine bind_eq_ok.mpr ⟨(), require_eq_ok.mpr ?_, ?_⟩
  · simpa using ch.ciphers_length.2
  rw [nextSegment_append_bind rfl, nextSegment_append_bind (length_ofNat _ _)]
  simp only [hcompression]
  refine bind_eq_ok.mpr ⟨(), require_eq_ok.mpr ?_, ?_⟩
  · simpa using ch.compression_length.2
  rw [nextSegment_append_bind rfl, nextSegment_append_bind (length_ofNat _ _)]
  simp only [hextensions]
  refine bind_eq_ok.mpr ⟨(), require_eq_ok.mpr ?_, ?_⟩
  · simpa using hpositive
  refine bind_eq_ok.mpr ⟨scan, hscan, ?_⟩
  rw [hfound]
  rfl

/-! ### The record -/

/-- The record is one ClientHello of a known version and size that names the host. -/
structure Accepted (ipAddress : Bytes → Option Ip) (record host : Bytes) (ch : ClientHello)
    (minor : UInt8) (name : Bytes) : Prop where
  record_eq : record = ch.record minor
  version : 1 ≤ minor ∧ minor ≤ 4
  size : ch.encode.length + 4 ≤ 16384
  names : ch.Names name
  valid : validDnsName ipAddress name = true
  lower_eq : lower name = host

theorem isAscii_of_validDnsName (h : validDnsName ipAddress name = true) : isAscii name = true := by
  unfold validDnsName at h
  simp only [Bool.and_eq_true] at h
  exact h.1.1.1.1.1.1.2

theorem ne_nil_of_validDnsName (h : validDnsName ipAddress name = true) : name ≠ [] := by
  rintro rfl
  rw [validDnsName_eq, show dnsShape [] = false from by decide] at h
  cases h

theorem length_body (ch : ClientHello) :
    ([1] ++ ofNat 3 ch.encode.length ++ ch.encode).length = ch.encode.length + 4 := by
  rw [length_append, length_append, length_ofNat, length_singleton]
  omega

theorem length_record (ch : ClientHello) (minor : UInt8) :
    (ch.record minor).length = ch.encode.length + 9 := by
  unfold ClientHello.record
  rw [length_append, length_append, length_body, length_ofNat]
  simp only [length_cons, length_nil]
  omega

variable {record : Bytes}

theorem parseTlsClientHelloSni_record (hip : IpForms ipAddress) {ch : ClientHello} {minor : UInt8}
    (h : Accepted ipAddress record host ch minor name) :
    parseTlsClientHelloSni ipAddress record = .ok host := by
  obtain ⟨rfl, ⟨hmin, hmax⟩, hsize, hnames, hvalid, rfl⟩ := h
  have hbody := length_body ch
  have hlength := length_record ch minor
  have hdrop₃ : (ch.record minor).drop 3 =
      ofNat 2 (ch.encode.length + 4) ++ ([1] ++ ofNat 3 ch.encode.length ++ ch.encode) := by
    unfold ClientHello.record
    rw [append_assoc]
    rfl
  have hdrop₅ : (ch.record minor).drop 5 = [1] ++ ofNat 3 ch.encode.length ++ ch.encode := by
    have hdrop : ((ch.record minor).drop 3).drop 2 = (ch.record minor).drop 5 := drop_drop
    rw [← hdrop, hdrop₃, drop_left' (length_ofNat _ _)]
  have hhello : parseHello (([1] ++ ofNat 3 ch.encode.length ++ ch.encode).drop 4) =
      .ok (some (lower name)) := by
    rw [drop_left' (by rw [length_append, length_ofNat, length_singleton])]
    refine parseHello_encode hnames (isAscii_of_validDnsName hvalid) ?_
    have hlen : (ClientHello.encodeExtensions ch.extensions).length ≤ ch.encode.length := by
      unfold ClientHello.encode
      rw [length_append]
      omega
    omega
  refine bind_eq_ok.mpr ⟨(), require_eq_ok.mpr ?_, ?_⟩
  · rw [hlength]
    simp only [Bool.and_eq_true, decide_eq_true_eq]
    omega
  refine bind_eq_ok.mpr ⟨(), require_eq_ok.mpr ?_, ?_⟩
  · have hhead : ((ch.record minor).drop 2).head? = some minor := rfl
    have htake : (ch.record minor).take 2 = [22, 3] := rfl
    rw [hhead, htake]
    simp [hmin, hmax]
  refine bind_eq_ok.mpr ⟨(), require_eq_ok.mpr ?_, ?_⟩
  · rw [hdrop₃, take_left' (length_ofNat _ _), toNat_ofNat (by omega), hlength]
    simp only [Bool.and_eq_true, decide_eq_true_eq]
    omega
  rw [hdrop₅]
  refine bind_eq_ok.mpr ⟨(), require_eq_ok.mpr ?_, ?_⟩
  · have hhead : ([1] ++ ofNat 3 ch.encode.length ++ ch.encode).head? = some 1 := rfl
    have htake : (([1] ++ ofNat 3 ch.encode.length ++ ch.encode).drop 1).take 3 =
        ofNat 3 ch.encode.length := by
      rw [append_assoc]
      exact take_left' (length_ofNat _ _)
    rw [hhead, htake, hbody, toNat_ofNat (by omega)]
    simp
  refine bind_eq_ok.mpr ⟨_, hhello, ?_⟩
  have hvalid' : validDnsName ipAddress (lower name) = true := by
    rw [validDnsName_lower hip, hvalid]
  refine bind_eq_ok.mpr ⟨(), require_eq_ok.mpr ?_, ?_⟩
  · simpa using ne_nil_of_validDnsName hvalid'
  exact bind_eq_ok.mpr ⟨(), require_eq_ok.mpr hvalid', rfl⟩

/-- The checks that an accepted record has passed. -/
theorem parseTlsClientHelloSni_checks (h : parseTlsClientHelloSni ipAddress record = .ok host) :
    record.length ≤ 16389 ∧ (∃ minor, (record.drop 2).head? = some minor ∧ 1 ≤ minor ∧ minor ≤ 4) ∧
      validDnsName ipAddress host = true := by
  obtain ⟨_, hbounds, h⟩ := bind_eq_ok.mp h
  obtain ⟨_, hstart, h⟩ := bind_eq_ok.mp h
  obtain ⟨_, -, h⟩ := bind_eq_ok.mp h
  obtain ⟨_, -, h⟩ := bind_eq_ok.mp h
  obtain ⟨result, -, h⟩ := bind_eq_ok.mp h
  rw [require_eq_ok] at hbounds hstart
  simp only [Bool.and_eq_true, decide_eq_true_eq] at hbounds hstart
  cases result with
  | none => cases h
  | some found =>
    obtain ⟨_, -, h⟩ := bind_eq_ok.mp h
    obtain ⟨_, hvalid, h⟩ := bind_eq_ok.mp h
    cases h
    refine ⟨hbounds.2, ?_, require_eq_ok.mp hvalid⟩
    obtain ⟨minor, hminor, hversion⟩ := (Option.any_eq_true _ _).mp hstart.2
    simp only [Bool.and_eq_true, decide_eq_true_eq] at hversion
    exact ⟨minor, hminor, hversion⟩

/-- **The parser returns a host exactly on the records that name it.** -/
theorem parseTlsClientHelloSni_iff (hip : IpForms ipAddress) :
    parseTlsClientHelloSni ipAddress record = .ok host ↔
      ∃ ch minor name, Accepted ipAddress record host ch minor name := by
  constructor
  · intro h
    obtain ⟨hlength, ⟨minor', hminor', hversion⟩, hvalid⟩ := parseTlsClientHelloSni_checks h
    obtain ⟨ch, minor, name, rfl, hnames, rfl⟩ := parseTlsClientHelloSni_eq_ok h
    have hminor : ((ch.record minor).drop 2).head? = some minor := rfl
    rw [hminor, Option.some.injEq] at hminor'
    rw [length_record] at hlength
    rw [validDnsName_lower hip] at hvalid
    exact ⟨ch, minor, name, rfl, hminor' ▸ hversion, by omega, hnames, hvalid, rfl⟩
  · rintro ⟨ch, minor, name, h⟩
    exact parseTlsClientHelloSni_record hip h

/-! ### All other records -/

/-- The only exception is `InvalidClientHello`. -/
def OnlyInvalid {α : Type} (x : Except Denied α) : Prop :=
  ∀ e, x = .error e → ∃ message, e = .invalidClientHello message

namespace OnlyInvalid

variable {α β : Type}

theorem ok (a : α) : OnlyInvalid (.ok a : Except Denied α) := fun _ h => by cases h

theorem error (message : String) :
    OnlyInvalid (.error (.invalidClientHello message) : Except Denied α) := by
  intro e h
  cases h
  exact ⟨message, rfl⟩

theorem bind {x : Except Denied α} {f : α → Except Denied β} (hx : OnlyInvalid x)
    (hf : ∀ a, OnlyInvalid (f a)) : OnlyInvalid (x >>= f) := by
  intro e h
  rcases bind_eq_error.mp h with h | ⟨a, -, h⟩
  · exact hx e h
  · exact hf a e h

theorem of_require (b : Bool) (message : String) :
    OnlyInvalid (require b (.invalidClientHello message)) := by
  intro e h
  exact ⟨message, (require_eq_error.mp h).2.symm⟩

theorem nextSegment (data : Bytes) (width : ℕ) : OnlyInvalid (nextSegment data width) :=
  (of_require _ _).bind fun _ => .ok _

theorem parseServerName (value : Bytes) : OnlyInvalid (parseServerName value) :=
  (of_require _ _).bind fun _ => (of_require _ _).bind fun _ => (of_require _ _).bind fun _ =>
    (of_require _ _).bind fun _ => .ok _

theorem parseExtension (rest : Bytes) (scan : Scan) : OnlyInvalid (parseExtension rest scan) := by
  refine (nextSegment _ _).bind fun r₁ => (of_require _ _).bind fun _ =>
    (nextSegment _ _).bind fun r₂ => (of_require _ _).bind fun _ => ?_
  dsimp only
  split
  · exact (parseServerName _).bind fun _ => .ok _
  · exact .ok _

theorem parseExtensions (rest : Bytes) (scan : Scan) : OnlyInvalid (parseExtensions rest scan) := by
  fun_induction Proxy.parseExtensions rest scan with
  | case1 scan => exact .ok scan
  | case2 rest scan hne e herror =>
    intro e' h
    cases h
    exact parseExtension rest scan _ herror
  | case3 rest scan hne rest₁ scan₁ hstep ih => exact ih

theorem parseHello (hello : Bytes) : OnlyInvalid (parseHello hello) := by
  refine (nextSegment _ _).bind fun r₁ => (nextSegment _ _).bind fun r₂ =>
    (nextSegment _ _).bind fun r₃ => (nextSegment _ _).bind fun r₄ => (of_require _ _).bind fun _ =>
    (nextSegment _ _).bind fun r₅ => (nextSegment _ _).bind fun r₆ => (of_require _ _).bind fun _ =>
    (nextSegment _ _).bind fun r₇ => (nextSegment _ _).bind fun r₈ => (of_require _ _).bind fun _ =>
    (parseExtensions _ _).bind fun scan => .ok _

theorem parseTlsClientHelloSni (ipAddress : Bytes → Option Ip) (record : Bytes) :
    OnlyInvalid (parseTlsClientHelloSni ipAddress record) := by
  refine (of_require _ _).bind fun _ => (of_require _ _).bind fun _ => (of_require _ _).bind fun _ =>
    (of_require _ _).bind fun _ => (parseHello _).bind fun found => ?_
  cases found with
  | none => exact .error _
  | some found => exact (of_require _ _).bind fun _ => (of_require _ _).bind fun _ => .ok _

end OnlyInvalid

end AgentBridge.Proxy
