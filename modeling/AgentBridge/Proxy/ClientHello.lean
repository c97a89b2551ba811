import AgentBridge.Proxy.Egress

/-!
# The TLS ClientHello

The guard of the relay parses the first record of the client. The grammar of a record is stated on
its own, by what its bytes are; the parser is shown to accept nothing else.

* `parseTlsClientHelloSni_eq_ok` : **an accepted record is one ClientHello with one server name** and
  no encrypted ClientHello.
-/

namespace AgentBridge.Proxy

open Bytes List
open Except (bind_eq_ok)

/-! ### The grammar -/

structure Extension where
  type : ℕ
  value : Bytes
  type_lt : type < 256 ^ 2
  length_lt : value.length < 256 ^ 2

def Extension.encode (e : Extension) : Bytes :=
  ofNat 2 e.type ++ ofNat 2 e.value.length ++ e.value

/-- A ClientHello. Lengths fit into their fields. -/
structure ClientHello where
  /-- Legacy version and random. -/
  prologue : Bytes
  session : Bytes
  ciphers : Bytes
  compression : Bytes
  extensions : List Extension
  prologue_length : prologue.length = 34
  session_length : session.length < 256
  ciphers_length : ciphers.length < 256 ^ 2 ∧ ciphers.length ≠ 0 ∧ ciphers.length % 2 = 0
  compression_length : compression.length < 256 ∧ compression.length ≠ 0

namespace ClientHello

def encodeExtensions (extensions : List Extension) : Bytes := extensions.flatMap Extension.encode

/-- The message without its header. -/
def encode (h : ClientHello) : Bytes :=
  h.prologue ++ ofNat 1 h.session.length ++ h.session ++ ofNat 2 h.ciphers.length ++ h.ciphers ++
    ofNat 1 h.compression.length ++ h.compression ++
    ofNat 2 (encodeExtensions h.extensions).length ++ encodeExtensions h.extensions

/-- The record: a handshake record of version 3.`minor` with the message and nothing else. -/
def record (h : ClientHello) (minor : UInt8) : Bytes :=
  [22, 3, minor] ++ ofNat 2 (h.encode.length + 4) ++ ([1] ++ ofNat 3 h.encode.length ++ h.encode)

end ClientHello

/-- The value of a server name extension with one name, which is a DNS name. -/
def serverName (name : Bytes) : Bytes :=
  ofNat 2 (name.length + 3) ++ [0] ++ ofNat 2 name.length ++ name

/-- `encrypted_client_hello`. -/
def encryptedClientHello : ℕ := 0xfe0d

/-! ### The parser -/

/-- `_segment`, on the bytes from the position on. -/
def nextSegment (data : Bytes) (width : ℕ) : Except Denied (Bytes × Bytes) :=
  segment (.invalidClientHello "truncated TLS structure") data width

/-- The variables of the loop over the extensions. -/
structure Scan where
  seen : List ℕ := []
  found : Option Bytes := none

/-- The name of a server name extension. -/
def parseServerName (value : Bytes) : Except Denied Bytes := do
  require (5 ≤ value.length && toNat (value.take 2) = value.length - 2)
    (.invalidClientHello "invalid SNI list")
  require ((value.drop 2).head? = some 0) (.invalidClientHello "SNI entry must be DNS hostname")
  require (toNat ((value.drop 3).take 2) = value.length - 5)
    (.invalidClientHello "multiple or invalid SNI identities")
  let name := value.drop 5
  require (isAscii name) (.invalidClientHello "non-ASCII TLS SNI")
  return lower name

def parseExtension (rest : Bytes) (scan : Scan) : Except Denied (Bytes × Scan) := do
  let (header, rest) ← nextSegment rest 4
  let type := toNat (header.take 2)
  let n := toNat (header.drop 2)
  require (!scan.seen.contains type) (.invalidClientHello "duplicate TLS extension")
  let (value, rest) ← nextSegment rest n
  require (type ≠ encryptedClientHello)
    (.invalidClientHello "ECH cannot be inspected by this proxy")
  let seen := type :: scan.seen
  if type = 0 then
    let name ← parseServerName value
    return (rest, { seen, found := some name })
  else
    return (rest, { scan with seen })

/-- A program that goes on after a segment. -/
theorem nextSegment_bind_eq_ok {α : Type} {data : Bytes} {width : ℕ}
    {f : Bytes × Bytes → Except Denied α} {a : α} (h : nextSegment data width >>= f = .ok a) :
    ∃ value rest, data = value ++ rest ∧ value.length = width ∧ f (value, rest) = .ok a := by
  obtain ⟨⟨value, rest⟩, hsegment, h⟩ := bind_eq_ok.mp h
  obtain ⟨hdata, hlength⟩ := segment_eq_ok hsegment
  exact ⟨value, rest, hdata, hlength, h⟩

variable {found rest : Bytes} {scan scan' : Scan}

theorem parseServerName_eq_ok {value : Bytes} (h : parseServerName value = .ok found) :
    ∃ name, value = serverName name ∧ lower name = found := by
  obtain ⟨_, hlist, h⟩ := bind_eq_ok.mp h
  obtain ⟨_, hdns, h⟩ := bind_eq_ok.mp h
  obtain ⟨_, hsize, h⟩ := bind_eq_ok.mp h
  obtain ⟨_, -, h⟩ := bind_eq_ok.mp h
  cases h
  rw [require_eq_ok] at hlist hdns hsize
  simp only [Bool.and_eq_true, decide_eq_true_eq] at hlist hdns hsize
  obtain ⟨hfive, hlist⟩ := hlist
  refine ⟨value.drop 5, ?_, rfl⟩
  -- the fields of the extension, one after the other
  have hfirst : ofNat 2 ((value.drop 5).length + 3) = value.take 2 := by
    have hlength : (value.drop 5).length + 3 = toNat (value.take 2) := by
      rw [hlist, length_drop]
      omega
    rw [hlength]
    exact ofNat_toNat_of_length (length_take_of_le (by omega))
  have hkind : [0] = (value.drop 2).take 1 := by
    obtain ⟨tail, htail⟩ := head?_eq_some_iff.mp hdns
    rw [htail]
    rfl
  have hname : ofNat 2 (value.drop 5).length = (value.drop 3).take 2 := by
    have hlength : (value.drop 5).length = toNat ((value.drop 3).take 2) := by
      rw [hsize, length_drop]
    rw [hlength]
    refine ofNat_toNat_of_length (length_take_of_le ?_)
    rw [length_drop]
    omega
  rw [serverName, hfirst, hkind, hname]
  have h₃ := take_append_drop_add value 3 2
  have h₂ := take_append_drop_add value 2 1
  rw [append_assoc, append_assoc, h₃, h₂, take_append_drop]

/-- What is known of an extension that has been read. -/
structure Extension.Read (e : Extension) (scan scan' : Scan) : Prop where
  fresh : e.type ∉ scan.seen
  notEncrypted : e.type ≠ encryptedClientHello
  seen : scan'.seen = e.type :: scan.seen
  found : e.type = 0 ∧ (∃ name, e.value = serverName name ∧ scan'.found = some (lower name)) ∨
    e.type ≠ 0 ∧ scan'.found = scan.found

theorem parseExtension_eq_ok {rest' : Bytes} (h : parseExtension rest scan = .ok (rest', scan')) :
    ∃ e : Extension, rest = e.encode ++ rest' ∧ e.Read scan scan' := by
  obtain ⟨header, r₁, rfl, hfour, h⟩ := nextSegment_bind_eq_ok h
  obtain ⟨_, hseen, h⟩ := bind_eq_ok.mp h
  obtain ⟨value, r₂, rfl, hlength, h⟩ := nextSegment_bind_eq_ok h
  obtain ⟨_, hencrypted, h⟩ := bind_eq_ok.mp h
  rw [require_eq_ok] at hseen hencrypted
  have htype : (header.take 2).length = 2 := length_take_of_le (by omega)
  have hsize : (header.drop 2).length = 2 := by rw [length_drop, hfour]
  let e : Extension :=
    { type := toNat (header.take 2)
      value
      type_lt := toNat_lt_of_length htype
      length_lt := by
        rw [hlength]
        exact toNat_lt_of_length hsize }
  have hencode : e.encode = header ++ value := by
    show ofNat 2 (toNat (header.take 2)) ++ ofNat 2 value.length ++ value = header ++ value
    rw [hlength, ofNat_toNat_of_length htype, ofNat_toNat_of_length hsize, take_append_drop]
  have hnot : e.type ∉ scan.seen := by simpa using hseen
  have hech : e.type ≠ encryptedClientHello := of_decide_eq_true hencrypted
  split at h
  case isTrue hzero =>
    obtain ⟨name, hname, h⟩ := bind_eq_ok.mp h
    cases h
    obtain ⟨name', hvalue', rfl⟩ := parseServerName_eq_ok hname
    refine ⟨e, by rw [hencode, append_assoc], hnot, hech, rfl, .inl ⟨hzero, name', hvalue', rfl⟩⟩
  case isFalse hzero =>
    cases h
    exact ⟨e, by rw [hencode, append_assoc], hnot, hech, rfl, .inr ⟨hzero, rfl⟩⟩

theorem Extension.length_encode (e : Extension) : e.encode.length = 4 + e.value.length := by
  simp only [Extension.encode, length_append, length_ofNat]

theorem parseExtension_length {rest' : Bytes} (h : parseExtension rest scan = .ok (rest', scan')) :
    rest'.length < rest.length := by
  obtain ⟨e, rfl, -⟩ := parseExtension_eq_ok h
  rw [length_append, e.length_encode]
  omega

/-- The loop over the extensions. -/
def parseExtensions (rest : Bytes) (scan : Scan) : Except Denied Scan :=
  if rest = [] then .ok scan
  else
    match _h : parseExtension rest scan with
    | .error e => .error e
    | .ok (rest', scan') => parseExtensions rest' scan'
termination_by rest.length
decreasing_by exact parseExtension_length ‹_›

/-- The message, from the legacy version on. -/
def parseHello (hello : Bytes) : Except Denied (Option Bytes) := do
  let (_, rest) ← nextSegment hello (2 + 32)
  let (sessionSize, rest) ← nextSegment rest 1
  let (_, rest) ← nextSegment rest (toNat sessionSize)
  let (cipherBytes, rest) ← nextSegment rest 2
  let cipherSize := toNat cipherBytes
  require (cipherSize ≠ 0 && cipherSize % 2 = 0) (.invalidClientHello "invalid cipher suite block")
  let (_, rest) ← nextSegment rest cipherSize
  let (compressionBytes, rest) ← nextSegment rest 1
  require (toNat compressionBytes ≠ 0) (.invalidClientHello "no compression method")
  let (_, rest) ← nextSegment rest (toNat compressionBytes)
  let (extensionsLen, rest) ← nextSegment rest 2
  require (toNat extensionsLen ≠ 0 && toNat extensionsLen = rest.length)
    (.invalidClientHello "extension structure invalid")
  let scan ← parseExtensions rest {}
  return scan.found

/-- `parse_tls_client_hello_sni`. -/
def parseTlsClientHelloSni (ipAddress : Bytes → Option Ip) (record : Bytes) :
    Except Denied Bytes := do
  require (9 ≤ record.length && record.length ≤ 16389)
    (.invalidClientHello "bounded TLS ClientHello record required")
  require (record.take 2 = [22, 3] && ((record.drop 2).head?.any fun b => 1 ≤ b && b ≤ 4))
    (.invalidClientHello "CONNECT payload must begin with TLS handshake")
  let length := toNat ((record.drop 3).take 2)
  require (length = record.length - 5 && length ≤ 16384)
    (.invalidClientHello "TLS record length invalid")
  let body := record.drop 5
  require (body.head? = some 1 && toNat ((body.drop 1).take 3) = body.length - 4)
    (.invalidClientHello "expected one complete ClientHello")
  match ← parseHello (body.drop 4) with
  | none => .error (.invalidClientHello "one unencrypted DNS SNI is required")
  | some found => do
    require (!found.isEmpty) (.invalidClientHello "one unencrypted DNS SNI is required")
    require (validDnsName ipAddress found)
      (.invalidClientHello "TLS SNI is not a valid DNS hostname")
    return found

/-! ### What is accepted -/

/-- What is known of the extensions that have been read. -/
structure ReadAll (extensions : List Extension) (scan scan' : Scan) : Prop where
  nodup : (extensions.map Extension.type).Nodup
  fresh : ∀ e ∈ extensions, e.type ∉ scan.seen
  notEncrypted : ∀ e ∈ extensions, e.type ≠ encryptedClientHello
  found : (∃ e ∈ extensions, e.type = 0 ∧
      ∃ name, e.value = serverName name ∧ scan'.found = some (lower name)) ∨
    (∀ e ∈ extensions, e.type ≠ 0) ∧ scan'.found = scan.found

theorem parseExtensions_eq_ok (h : parseExtensions rest scan = .ok scan') :
    ∃ extensions, rest = ClientHello.encodeExtensions extensions ∧ ReadAll extensions scan scan' := by
  fun_induction parseExtensions rest scan with
  | case1 scan =>
    cases h
    exact ⟨[], rfl, nodup_nil, nofun, nofun, .inr ⟨nofun, rfl⟩⟩
  | case2 rest scan hne e herror => cases h
  | case3 rest scan hne rest₁ scan₁ hstep ih =>
    obtain ⟨extensions, hrest, hall⟩ := ih h
    obtain ⟨e, heq, hread⟩ := parseExtension_eq_ok hstep
    refine ⟨e :: extensions, by rw [heq, hrest]; rfl, ?_, ?_, ?_, ?_⟩
    · rw [map_cons, nodup_cons]
      refine ⟨fun hmem => ?_, hall.nodup⟩
      obtain ⟨e', he', htype⟩ := mem_map.mp hmem
      refine hall.fresh e' he' ?_
      rw [hread.seen, htype]
      exact mem_cons_self
    · intro e' he'
      rcases mem_cons.mp he' with rfl | he'
      · exact hread.fresh
      · intro hmem
        refine hall.fresh e' he' ?_
        rw [hread.seen]
        exact mem_cons_of_mem _ hmem
    · intro e' he'
      rcases mem_cons.mp he' with rfl | he'
      · exact hread.notEncrypted
      · exact hall.notEncrypted e' he'
    · -- the name is that of this extension, or of a later one, or there is none
      rcases hall.found with ⟨e', he', hname⟩ | ⟨hnone, hfound⟩
      · exact .inl ⟨e', mem_cons_of_mem _ he', hname⟩
      · rcases hread.found with ⟨hzero, name, hvalue, hname⟩ | ⟨hzero, hname⟩
        · exact .inl ⟨e, mem_cons_self, hzero, name, hvalue, hfound.trans hname⟩
        · refine .inr ⟨fun e' he' => ?_, hfound.trans hname⟩
          rcases mem_cons.mp he' with rfl | he'
          · exact hzero
          · exact hnone e' he'

/-- The ClientHello carries exactly one DNS server name and no encrypted ClientHello. -/
structure ClientHello.Names (h : ClientHello) (name : Bytes) : Prop where
  nodup : (h.extensions.map Extension.type).Nodup
  notEncrypted : ∀ e ∈ h.extensions, e.type ≠ encryptedClientHello
  named : ∃ e ∈ h.extensions, e.type = 0 ∧ e.value = serverName name

theorem parseHello_eq_ok {hello : Bytes} (h : parseHello hello = .ok (some found)) :
    ∃ (ch : ClientHello) (name : Bytes), hello = ch.encode ∧ ch.Names name ∧
      lower name = found := by
  obtain ⟨prologue, r₁, rfl, hprologue, h⟩ := nextSegment_bind_eq_ok h
  obtain ⟨sessionSize, r₂, rfl, hsessionSize, h⟩ := nextSegment_bind_eq_ok h
  obtain ⟨session, r₃, rfl, hsession, h⟩ := nextSegment_bind_eq_ok h
  obtain ⟨cipherBytes, r₄, rfl, hcipherBytes, h⟩ := nextSegment_bind_eq_ok h
  obtain ⟨_, hcipherSize, h⟩ := bind_eq_ok.mp h
  obtain ⟨ciphers, r₅, rfl, hciphers, h⟩ := nextSegment_bind_eq_ok h
  obtain ⟨compressionBytes, r₆, rfl, hcompressionBytes, h⟩ := nextSegment_bind_eq_ok h
  obtain ⟨_, hcompressionSize, h⟩ := bind_eq_ok.mp h
  obtain ⟨compression, r₇, rfl, hcompression, h⟩ := nextSegment_bind_eq_ok h
  obtain ⟨extensionsLen, r₈, rfl, hextensionsLen, h⟩ := nextSegment_bind_eq_ok h
  obtain ⟨_, hextensionsSize, h⟩ := bind_eq_ok.mp h
  obtain ⟨scan, hscan, h⟩ := bind_eq_ok.mp h
  have hfound : scan.found = some found := Except.ok.inj h
  rw [require_eq_ok] at hcipherSize hcompressionSize hextensionsSize
  simp only [Bool.and_eq_true, decide_eq_true_eq] at hcipherSize hcompressionSize hextensionsSize
  obtain ⟨extensions, hrest, hall⟩ := parseExtensions_eq_ok hscan
  let ch : ClientHello :=
    { prologue, session, ciphers, compression, extensions
      prologue_length := hprologue
      session_length := by
        rw [hsession]
        exact toNat_lt_of_length hsessionSize
      ciphers_length := by
        rw [hciphers]
        exact ⟨toNat_lt_of_length hcipherBytes, hcipherSize⟩
      compression_length := by
        rw [hcompression]
        exact ⟨toNat_lt_of_length hcompressionBytes, hcompressionSize⟩ }
  rcases hall.found with ⟨e, he, hzero, name, hvalue, hname⟩ | ⟨-, hnone⟩
  · have hlower : lower name = found := by
      rw [hfound] at hname
      exact (Option.some.inj hname).symm
    refine ⟨ch, name, ?_, ⟨hall.nodup, hall.notEncrypted, e, he, hzero, hvalue⟩, hlower⟩
    -- every length field is the number that was read
    show _ = prologue ++ ofNat 1 session.length ++ session ++ ofNat 2 ciphers.length ++ ciphers ++
      ofNat 1 compression.length ++ compression ++
      ofNat 2 (ClientHello.encodeExtensions extensions).length ++
      ClientHello.encodeExtensions extensions
    rw [← hrest, hsession, hciphers, hcompression, ← hextensionsSize.2,
      ofNat_toNat_of_length hsessionSize, ofNat_toNat_of_length hcipherBytes,
      ofNat_toNat_of_length hcompressionBytes, ofNat_toNat_of_length hextensionsLen]
    simp only [append_assoc]
  · rw [hfound] at hnone
    cases hnone

/-- **An accepted record is one ClientHello with one server name**, and nothing else. -/
theorem parseTlsClientHelloSni_eq_ok {ipAddress : Bytes → Option Ip} {record : Bytes}
    (h : parseTlsClientHelloSni ipAddress record = .ok found) :
    ∃ (ch : ClientHello) (minor : UInt8) (name : Bytes), record = ch.record minor ∧
      ch.Names name ∧ lower name = found := by
  obtain ⟨_, hbounds, h⟩ := bind_eq_ok.mp h
  obtain ⟨_, hstart, h⟩ := bind_eq_ok.mp h
  obtain ⟨_, hlength, h⟩ := bind_eq_ok.mp h
  obtain ⟨_, hbody, h⟩ := bind_eq_ok.mp h
  obtain ⟨result, hresult, h⟩ := bind_eq_ok.mp h
  rw [require_eq_ok] at hbounds hstart hlength hbody
  simp only [Bool.and_eq_true, decide_eq_true_eq] at hbounds hstart hlength hbody
  cases result with
  | none => cases h
  | some found' =>
    obtain ⟨_, -, h⟩ := bind_eq_ok.mp h
    obtain ⟨_, -, h⟩ := bind_eq_ok.mp h
    cases h
    obtain ⟨ch, name, hencode, hnames, hlower⟩ := parseHello_eq_ok hresult
    obtain ⟨minor, hminor⟩ : ∃ minor, (record.drop 2).take 1 = [minor] := by
      obtain ⟨minor, tail, htail⟩ := exists_cons_of_ne_nil
        (l := record.drop 2) (by simpa using by omega)
      exact ⟨minor, by rw [htail]; rfl⟩
    refine ⟨ch, minor, name, ?_, hnames, hlower⟩
    have hbodyLength : (record.drop 5).length = ch.encode.length + 4 := by
      have := congrArg List.length hencode
      simp only [length_drop] at this ⊢
      omega
    have hfirst : ofNat 2 (ch.encode.length + 4) = (record.drop 3).take 2 := by
      rw [← hbodyLength, length_drop, ← hlength.1]
      refine ofNat_toNat_of_length (length_take_of_le ?_)
      rw [length_drop]
      omega
    have hkind : [1] = (record.drop 5).take 1 := by
      obtain ⟨tail, htail⟩ := head?_eq_some_iff.mp hbody.1
      rw [htail]
      rfl
    have hsecond : ofNat 3 ch.encode.length = ((record.drop 5).drop 1).take 3 := by
      have hsize : ch.encode.length = toNat (((record.drop 5).drop 1).take 3) := by omega
      rw [hsize]
      refine ofNat_toNat_of_length (length_take_of_le ?_)
      simp only [length_drop]
      omega
    have hstart' : [22, 3, minor] = record.take 2 ++ (record.drop 2).take 1 := by
      rw [hstart.1, hminor]
      rfl
    rw [ClientHello.record, hfirst, hkind, hsecond, ← hencode, hstart']
    have h₆ := take_append_drop_add (record.drop 5) 1 3
    have h₃ := take_append_drop_add record 3 2
    have h₂ := take_append_drop_add record 2 1
    simp only [append_assoc]
    rw [h₆, take_append_drop, h₃, h₂, take_append_drop]

end AgentBridge.Proxy
