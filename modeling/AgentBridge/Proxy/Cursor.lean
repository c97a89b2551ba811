import AgentBridge.Proxy.Grammar

/-!
# The parser with its cursor

`parse_tls_client_hello_sni` moves a position through the bytes of the message. Here every index
and every slice of the source is checked against the bytes it reads: one that is not inside them is
a failure of its own, `outside`, which Python would raise as an `IndexError` or hide by a shorter
slice.

The parser of `Proxy.ClientHello` has no position: it takes the bytes from the position on. The two
compute the same (`Same`), so that the parser with its cursor never reads outside the bytes, and
everything known of the other one holds for it.

* `client_hello_exact` : **the parser accepts the grammar and nothing else, raises
  `InvalidClientHello` on everything else, and never reads outside its input**.
-/

namespace AgentBridge.Proxy.Cursor

open Bytes List Except

/-! ### Checked reads -/

inductive ParseFault
  | invalidClientHello (message : String)
  /-- A read that is not inside the bytes. -/
  | outside
  deriving DecidableEq

/-- `data[i]`. -/
def byteAt (data : Bytes) (i : ℕ) : Except ParseFault UInt8 :=
  match data[i]? with
  | some b => .ok b
  | none => .error .outside

/-- `data[start:stop]`. -/
def slice (data : Bytes) (start stop : ℕ) : Except ParseFault Bytes :=
  if start ≤ stop ∧ stop ≤ data.length then .ok ((data.drop start).take (stop - start))
  else .error .outside

/-- `_segment`. -/
def segment (data : Bytes) (start width : ℕ) : Except ParseFault (Bytes × ℕ) := do
  let stop := start + width
  require (stop ≤ data.length) (.invalidClientHello "truncated TLS structure")
  let value ← slice data start stop
  return (value, stop)

/-! ### The parser -/

/-- The branch of the loop for the server name. -/
def parseServerName (value : Bytes) : Except ParseFault Bytes := do
  require (5 ≤ value.length) (.invalidClientHello "invalid SNI list")
  let listSize ← slice value 0 2
  require (toNat listSize = value.length - 2) (.invalidClientHello "invalid SNI list")
  let kind ← byteAt value 2
  require (kind = 0) (.invalidClientHello "SNI entry must be DNS hostname")
  let hostnameSize ← slice value 3 5
  require (toNat hostnameSize = value.length - 5)
    (.invalidClientHello "multiple or invalid SNI identities")
  let name ← slice value 5 value.length
  require (isAscii name) (.invalidClientHello "non-ASCII TLS SNI")
  return lower name

/-- One round of the loop over the extensions. -/
def parseExtension (body : Bytes) (p : ℕ) (scan : Scan) : Except ParseFault (ℕ × Scan) := do
  let (header, p) ← segment body p 4
  let typeBytes ← slice header 0 2
  let sizeBytes ← slice header 2 header.length
  let type := toNat typeBytes
  let n := toNat sizeBytes
  require (!scan.seen.contains type) (.invalidClientHello "duplicate TLS extension")
  let (value, p) ← segment body p n
  require (type ≠ encryptedClientHello)
    (.invalidClientHello "ECH cannot be inspected by this proxy")
  let seen := type :: scan.seen
  if type = 0 then
    let name ← parseServerName value
    return (p, { seen, found := some name })
  else
    return (p, { scan with seen })

variable {α : Type} {data body : Bytes} {start p : ℕ}

theorem segment_bind_eq_ok {width : ℕ} {f : Bytes × ℕ → Except ParseFault α} {a : α}
    (h : segment data start width >>= f = .ok a) : ∃ value, f (value, start + width) = .ok a := by
  obtain ⟨r, hsegment, h⟩ := bind_eq_ok.mp h
  obtain ⟨_, -, hsegment⟩ := bind_eq_ok.mp hsegment
  obtain ⟨value, -, hsegment⟩ := bind_eq_ok.mp hsegment
  cases hsegment
  exact ⟨value, h⟩

/-- Every round moves the cursor. -/
theorem parseExtension_lt {p' : ℕ} {scan scan' : Scan}
    (h : parseExtension body p scan = .ok (p', scan')) : p < p' := by
  obtain ⟨header, h⟩ := segment_bind_eq_ok h
  obtain ⟨typeBytes, -, h⟩ := bind_eq_ok.mp h
  obtain ⟨sizeBytes, -, h⟩ := bind_eq_ok.mp h
  obtain ⟨_, -, h⟩ := bind_eq_ok.mp h
  obtain ⟨value, h⟩ := segment_bind_eq_ok h
  obtain ⟨_, -, h⟩ := bind_eq_ok.mp h
  split at h
  · obtain ⟨name, -, h⟩ := bind_eq_ok.mp h
    cases h
    omega
  · cases h
    omega

/-- The loop `while p < end`. -/
def parseExtensions (body : Bytes) (p : ℕ) (scan : Scan) : Except ParseFault (ℕ × Scan) :=
  if p < body.length then
    match _h : parseExtension body p scan with
    | .error e => .error e
    | .ok (p', scan') => parseExtensions body p' scan'
  else .ok (p, scan)
termination_by body.length - p
decreasing_by
  have := parseExtension_lt ‹_›
  omega

/-- The fields of the message, and the extensions. -/
def parseHello (body : Bytes) : Except ParseFault (ℕ × Option Bytes) := do
  let (_, p) ← segment body 4 (2 + 32)
  let (sessionSize, p) ← segment body p 1
  let session ← byteAt sessionSize 0
  let (_, p) ← segment body p session.toNat
  let (cipherBytes, p) ← segment body p 2
  let cipherSize := toNat cipherBytes
  require (cipherSize ≠ 0 && cipherSize % 2 = 0) (.invalidClientHello "invalid cipher suite block")
  let (_, p) ← segment body p cipherSize
  let (compressionBytes, p) ← segment body p 1
  let compression ← byteAt compressionBytes 0
  require (compression.toNat ≠ 0) (.invalidClientHello "no compression method")
  let (_, p) ← segment body p compression.toNat
  let (extensionsLen, p) ← segment body p 2
  let extSize := toNat extensionsLen
  require (extSize ≠ 0 && p + extSize = body.length)
    (.invalidClientHello "extension structure invalid")
  let (p, scan) ← parseExtensions body p {}
  return (p, scan.found)

/-- `parse_tls_client_hello_sni`. -/
def parseTlsClientHelloSni (ipAddress : Bytes → Option Ip) (record : Bytes) :
    Except ParseFault Bytes := do
  require (9 ≤ record.length && record.length ≤ 16389)
    (.invalidClientHello "bounded TLS ClientHello record required")
  let type ← byteAt record 0
  require (type = 22) (.invalidClientHello "CONNECT payload must begin with TLS handshake")
  let major ← byteAt record 1
  require (major = 3) (.invalidClientHello "CONNECT payload must begin with TLS handshake")
  let minor ← byteAt record 2
  require (1 ≤ minor && minor ≤ 4)
    (.invalidClientHello "CONNECT payload must begin with TLS handshake")
  let lengthBytes ← slice record 3 5
  let length := toNat lengthBytes
  require (length = record.length - 5 && length ≤ 16384)
    (.invalidClientHello "TLS record length invalid")
  let body ← slice record 5 record.length
  let kind ← byteAt body 0
  require (kind = 1) (.invalidClientHello "expected one complete ClientHello")
  let sizeBytes ← slice body 1 4
  require (toNat sizeBytes = body.length - 4)
    (.invalidClientHello "expected one complete ClientHello")
  let (p, found) ← parseHello body
  match found with
  | none => .error (.invalidClientHello "one unencrypted DNS SNI is required")
  | some found => do
    require (!found.isEmpty && p = body.length)
      (.invalidClientHello "one unencrypted DNS SNI is required")
    require (validDnsName ipAddress found)
      (.invalidClientHello "TLS SNI is not a valid DNS hostname")
    return found

/-! ### The cursor is the position of the remaining bytes -/

/-- The exceptions of the other parser. -/
def fault : Denied → ParseFault
  | .invalidClientHello message => .invalidClientHello message
  | _ => .outside

/-- `x` does what `y` does: with the result through `f`, or with the same exception. -/
def Same {α β : Type} (f : β → α) (x : Except ParseFault α) (y : Except Denied β) : Prop :=
  x = (y.map f).mapError fault

namespace Same

variable {α β γ δ : Type} {f : β → α}

theorem ok (b : β) : Same f (.ok (f b)) (.ok b) := rfl

theorem error (message : String) :
    Same f (.error (.invalidClientHello message)) (.error (.invalidClientHello message)) := rfl

theorem bind {x : Except ParseFault α} {y : Except Denied β} {g : δ → γ}
    {k : α → Except ParseFault γ} {k' : β → Except Denied δ} (h : Same f x y)
    (hk : ∀ b, y = .ok b → Same g (k (f b)) (k' b)) : Same g (x >>= k) (y >>= k') := by
  subst h
  cases y with
  | error e => rfl
  | ok b => exact hk b rfl

theorem of_require {b b' : Bool} (hb : b = b') (message : String) :
    Same id (require b (.invalidClientHello message)) (require b' (.invalidClientHello message)) := by
  subst hb
  cases b <;> rfl

end Same

/-- Two checks with the same message are one. -/
theorem require_and_bind {b₁ b₂ : Bool} {e : ParseFault} {k : Unit → Except ParseFault α} :
    (require b₁ e >>= fun _ => require b₂ e >>= k) = (require (b₁ && b₂) e >>= k) := by
  cases b₁ <;> rfl

theorem byteAt_eq {i : ℕ} {b : UInt8} (h : data[i]? = some b) : byteAt data i = .ok b := by
  simp only [byteAt, h]

theorem slice_eq {stop : ℕ} (h : start ≤ stop) (h' : stop ≤ data.length) :
    slice data start stop = .ok ((data.drop start).take (stop - start)) := if_pos ⟨h, h'⟩

theorem slice_to_end (h : start ≤ data.length) :
    slice data start data.length = .ok (data.drop start) := by
  rw [slice_eq h le_rfl, take_of_length_le]
  rw [length_drop]

/-- The next bytes from the cursor on are the first of the remaining bytes. -/
theorem Same.segment (hp : p ≤ data.length) (width : ℕ) :
    Same (fun r => (r.1, p + width)) (segment data p width) (nextSegment (data.drop p) width) := by
  unfold Cursor.segment nextSegment Bytes.segment
  refine Same.bind (f := id) (.of_require ?_ _) fun _ hok => ?_
  · rw [length_drop, decide_eq_decide]
    omega
  · have hwidth := require_eq_ok.mp hok
    rw [length_drop, decide_eq_true_eq] at hwidth
    rw [slice_eq (by omega) (by omega), ok_bind, Nat.add_sub_cancel_left]
    exact Same.ok _

/-- A program goes on with the cursor after the segment. -/
theorem Same.segment_bind {β : Type} {f : β → α} (hp : p ≤ data.length) {width : ℕ}
    {k : Bytes × ℕ → Except ParseFault α} {k' : Bytes × Bytes → Except Denied β}
    (hk : ∀ value, value.length = width → p + width ≤ data.length → Same f (k (value, p + width))
      (k' (value, data.drop (p + width)))) :
    Same f (Cursor.segment data p width >>= k) (nextSegment (data.drop p) width >>= k') := by
  refine (Same.segment hp width).bind fun r hr => ?_
  obtain ⟨value, rest⟩ := r
  obtain ⟨hdrop, hlength⟩ := segment_eq_ok hr
  have hle : p + width ≤ data.length := by
    have := congrArg List.length hdrop
    rw [length_drop, length_append, hlength] at this
    omega
  have hrest : rest = data.drop (p + width) := by
    rw [← drop_drop, hdrop, drop_left' hlength]
  rw [hrest]
  exact hk value hlength hle

theorem same_parseServerName (value : Bytes) :
    Same id (parseServerName value) (Proxy.parseServerName value) := by
  unfold parseServerName Proxy.parseServerName
  by_cases hfive : 5 ≤ value.length
  swap
  · -- neither reads a value that is too short
    rw [decide_eq_false hfive]
    rfl
  obtain ⟨kind, tail, hkind⟩ : ∃ kind tail, value.drop 2 = kind :: tail := by
    refine exists_cons_of_ne_nil fun hnil => ?_
    rw [drop_eq_nil_iff] at hnil
    omega
  have hbyte : value[2]? = some kind := by
    rw [← head?_drop, hkind]
    rfl
  have hhead : decide (kind = 0) = decide ((value.drop 2).head? = some 0) := by
    rw [hkind, head?_cons, decide_eq_decide, Option.some.injEq]
  rw [decide_eq_true hfive, Bool.true_and, slice_eq (by omega) (by omega), byteAt_eq hbyte,
    slice_eq (by omega) (by omega), slice_to_end hfive]
  have htrue : require true (ParseFault.invalidClientHello "invalid SNI list") = .ok () := rfl
  simp only [htrue, ok_bind, drop_zero, Nat.sub_zero]
  refine Same.bind (f := id) (.of_require rfl _) fun _ _ => ?_
  refine Same.bind (f := id) (.of_require hhead _) fun _ _ => ?_
  refine Same.bind (f := id) (.of_require rfl _) fun _ _ => ?_
  exact Same.bind (f := id) (.of_require rfl _) fun _ _ => .ok _

theorem same_parseExtension (hp : p ≤ body.length) (scan : Scan) :
    Same (fun r => (body.length - r.1.length, r.2)) (parseExtension body p scan)
      (Proxy.parseExtension (body.drop p) scan) := by
  refine Same.segment_bind hp fun header hfour hp₁ => ?_
  dsimp only
  rw [slice_eq (by omega) (by omega), slice_to_end (by omega), ok_bind, ok_bind,
    drop_zero, Nat.sub_zero]
  refine Same.bind (f := id) (.of_require rfl _) fun _ _ => ?_
  refine Same.segment_bind hp₁ fun value _ hp₂ => ?_
  refine Same.bind (f := id) (.of_require rfl _) fun _ _ => ?_
  have hposition : ∀ q, q ≤ body.length → q = body.length - (body.drop q).length := by
    intro q hq
    rw [length_drop]
    omega
  by_cases hzero : toNat (header.take 2) = 0
  · rw [if_pos hzero, if_pos hzero]
    refine (same_parseServerName value).bind fun name _ => ?_
    exact congrArg (fun q => Except.ok (q, _)) (hposition _ hp₂)
  · rw [if_neg hzero, if_neg hzero]
    exact congrArg (fun q => Except.ok (q, _)) (hposition _ hp₂)

/-- The loops leave the cursor at the end. -/
theorem same_parseExtensions (hp : p ≤ body.length) (scan : Scan) :
    Same (fun scan => (body.length, scan)) (parseExtensions body p scan)
      (Proxy.parseExtensions (body.drop p) scan) := by
  -- what is left is a part of the body, so that its length gives the cursor
  have hne : ∀ {q}, q < body.length → body.drop q ≠ [] := by
    intro q hq hnil
    rw [drop_eq_nil_iff] at hnil
    omega
  fun_induction parseExtensions body p scan with
  | case1 p scan hlt e herror =>
    have hstep := same_parseExtension hp scan
    rw [herror] at hstep
    rw [parseExtensions_step (hne hlt)]
    cases hy : Proxy.parseExtension (body.drop p) scan with
    | error e' =>
      rw [hy] at hstep
      exact congrArg Except.error (Except.error.inj hstep)
    | ok r =>
      rw [hy] at hstep
      cases hstep
  | case2 p scan hlt p' scan' hok ih =>
    have hstep := same_parseExtension hp scan
    rw [hok] at hstep
    rw [parseExtensions_step (hne hlt)]
    cases hy : Proxy.parseExtension (body.drop p) scan with
    | error e' =>
      rw [hy] at hstep
      cases hstep
    | ok r =>
      rw [hy] at hstep
      obtain ⟨rfl, rfl⟩ := Prod.mk.inj (Except.ok.inj hstep)
      obtain ⟨e, hdrop, -⟩ := parseExtension_eq_ok hy
      have hsuffix : r.1 <:+ body := by
        refine List.IsSuffix.trans ?_ (drop_suffix p body)
        rw [hdrop]
        exact suffix_append _ _
      have hrest := ih (Nat.sub_le _ _)
      rw [← suffix_iff_eq_drop.mp hsuffix] at hrest
      exact hrest
  | case3 p scan hend =>
    have hnil : body.drop p = [] := by
      rw [drop_eq_nil_iff]
      omega
    have heq : p = body.length := by omega
    rw [hnil, Proxy.parseExtensions, if_pos rfl, heq]
    rfl

theorem byteAt_single {s : Bytes} (h : s.length = 1) :
    ∃ b, byteAt s 0 = .ok b ∧ toNat s = b.toNat := by
  obtain ⟨b, rfl⟩ := length_eq_one_iff.mp h
  refine ⟨b, rfl, ?_⟩
  show 0 * 256 + b.toNat = b.toNat
  omega

theorem same_parseHello (hp : 4 ≤ body.length) :
    Same (fun found => (body.length, found)) (parseHello body)
      (Proxy.parseHello (body.drop 4)) := by
  refine Same.segment_bind hp fun prologue _ hp₁ => ?_
  refine Same.segment_bind hp₁ fun sessionSize hsession hp₂ => ?_
  obtain ⟨session, hbyte, hnumber⟩ := byteAt_single hsession
  dsimp only
  rw [hbyte, ok_bind, hnumber]
  refine Same.segment_bind hp₂ fun _ _ hp₃ => ?_
  refine Same.segment_bind hp₃ fun cipherBytes _ hp₄ => ?_
  dsimp only
  refine Same.bind (f := id) (.of_require rfl _) fun _ _ => ?_
  refine Same.segment_bind hp₄ fun _ _ hp₅ => ?_
  refine Same.segment_bind hp₅ fun compressionBytes hcompression hp₆ => ?_
  obtain ⟨compression, hbyte', hnumber'⟩ := byteAt_single hcompression
  dsimp only
  rw [hbyte', ok_bind, hnumber']
  refine Same.bind (f := id) (.of_require rfl _) fun _ _ => ?_
  refine Same.segment_bind hp₆ fun _ _ hp₇ => ?_
  refine Same.segment_bind hp₇ fun extensionsLen _ hp₈ => ?_
  refine Same.bind (f := id) (.of_require ?_ _) fun _ _ => ?_
  · dsimp only
    rw [length_drop]
    congr 1
    rw [decide_eq_decide]
    omega
  exact (same_parseExtensions hp₈ {}).bind fun scan _ => .ok scan.found

/-- **The cursor is the position of the remaining bytes.** -/
theorem same_parseTlsClientHelloSni (ipAddress : Bytes → Option Ip) (record : Bytes) :
    Same id (parseTlsClientHelloSni ipAddress record)
      (Proxy.parseTlsClientHelloSni ipAddress record) := by
  unfold parseTlsClientHelloSni Proxy.parseTlsClientHelloSni
  refine Same.bind (f := id) (.of_require rfl _) fun _ hbounds => ?_
  have hnine : 9 ≤ record.length := by
    have hand := require_eq_ok.mp hbounds
    rw [Bool.and_eq_true, decide_eq_true_eq] at hand
    exact hand.1
  -- the first three bytes of the record, and the first of its body
  obtain ⟨b₀, b₁, b₂, rest, rfl⟩ : ∃ b₀ b₁ b₂ rest, record = b₀ :: b₁ :: b₂ :: rest := by
    match record, hnine with
    | b₀ :: b₁ :: b₂ :: rest, _ => exact ⟨b₀, b₁, b₂, rest, rfl⟩
  generalize hrecord : b₀ :: b₁ :: b₂ :: rest = record at hnine ⊢
  obtain ⟨kind, tail, hbody⟩ : ∃ kind tail, record.drop 5 = kind :: tail := by
    refine exists_cons_of_ne_nil fun hnil => ?_
    rw [drop_eq_nil_iff] at hnil
    omega
  have hbytes : byteAt record 0 = .ok b₀ ∧ byteAt record 1 = .ok b₁ ∧ byteAt record 2 = .ok b₂ := by
    rw [← hrecord]
    exact ⟨rfl, rfl, rfl⟩
  have hkind : byteAt (record.drop 5) 0 = .ok kind := by
    rw [hbody]
    rfl
  have hlength : (record.drop 5).length = record.length - 5 := length_drop
  have hfirst : slice record 3 5 = .ok ((record.drop 3).take 2) :=
    slice_eq (by omega) (by omega)
  have hrest : slice record 5 record.length = .ok (record.drop 5) := slice_to_end (by omega)
  have hsecond : slice (record.drop 5) 1 4 = .ok (((record.drop 5).drop 1).take 3) :=
    slice_eq (by omega) (by omega)
  simp only [hbytes.1, hbytes.2.1, hbytes.2.2, ok_bind, require_and_bind, hfirst, hrest,
    hkind, hsecond]
  refine Same.bind (f := id) (.of_require ?_ _) fun _ _ => ?_
  · rw [← hrecord]
    simp [Bool.and_assoc]
  refine Same.bind (f := id) (.of_require rfl _) fun _ _ => ?_
  refine Same.bind (f := id) (.of_require ?_ _) fun _ _ => ?_
  · rw [hbody]
    simp
  refine (same_parseHello (by omega)).bind fun found _ => ?_
  cases found with
  | none => exact .error _
  | some found =>
    refine Same.bind (f := id) (.of_require ?_ _) fun _ _ => ?_
    · simp
    exact Same.bind (f := id) (.of_require rfl _) fun _ _ => .ok found

/-! ### Exactness -/

/-- **The parser is exact.** It returns a host exactly when the bytes are one record of a known
version and size with one ClientHello in it, whose fields fill it, whose extension types are
distinct and none of them the encrypted ClientHello, and whose one server name is a public DNS name
that is the host in lower case. On all other bytes it raises `InvalidClientHello`; it never reads
outside of them. -/
theorem client_hello_exact {ipAddress : Bytes → Option Ip} (hip : IpForms ipAddress)
    (record : Bytes) :
    (∀ host, parseTlsClientHelloSni ipAddress record = .ok host ↔
      ∃ ch minor name, Accepted ipAddress record host ch minor name) ∧
    ((∀ host, parseTlsClientHelloSni ipAddress record ≠ .ok host) →
      ∃ message, parseTlsClientHelloSni ipAddress record = .error (.invalidClientHello message)) ∧
    parseTlsClientHelloSni ipAddress record ≠ .error .outside := by
  have hsame := same_parseTlsClientHelloSni ipAddress record
  have hiff : ∀ host, parseTlsClientHelloSni ipAddress record = .ok host ↔
      Proxy.parseTlsClientHelloSni ipAddress record = .ok host := by
    intro host
    rw [hsame]
    cases Proxy.parseTlsClientHelloSni ipAddress record <;> simp [Except.map, Except.mapError]
  cases hy : Proxy.parseTlsClientHelloSni ipAddress record with
  | error e =>
    obtain ⟨message, rfl⟩ := OnlyInvalid.parseTlsClientHelloSni ipAddress record e hy
    have hx : parseTlsClientHelloSni ipAddress record = .error (.invalidClientHello message) := by
      rw [hsame, hy]
      rfl
    refine ⟨fun host => (hiff host).trans (parseTlsClientHelloSni_iff hip), fun _ => ⟨message, hx⟩, ?_⟩
    rw [hx]
    simp
  | ok host =>
    have hx := (hiff host).mpr hy
    refine ⟨fun host => (hiff host).trans (parseTlsClientHelloSni_iff hip), fun hnone => ?_, ?_⟩
    · exact absurd hx (hnone host)
    · rw [hx]
      simp

/-- Only texts with a colon are addresses. -/
def sampleIpAddress (s : Bytes) : Option Ip := if 58 ∈ s then some ⟨s, true⟩ else none

/-- The number of the extension `server_name` fits its field. -/
theorem serverName_type_lt : 0 < 256 ^ 2 := by decide

/-- A ClientHello with two extensions. -/
def sampleClientHello : ClientHello where
  prologue := List.replicate 34 0
  session := [7]
  ciphers := [0x13, 0x01, 0x13, 0x02]
  compression := [0]
  extensions := [⟨43, [2, 3, 4], by decide, by decide⟩,
    ⟨0, serverName (ascii "Example.COM"), serverName_type_lt, by decide⟩]
  prologue_length := length_replicate
  session_length := by decide
  ciphers_length := by decide
  compression_length := (by decide : 1 < 256 ∧ 1 ≠ 0)

theorem client_hello_exact_sample :
    parseTlsClientHelloSni sampleIpAddress (sampleClientHello.record 3) =
      .ok (ascii "example.com") := by
  have hip : IpForms sampleIpAddress := by
    intro host hsome
    unfold sampleIpAddress at hsome
    split at hsome
    case isTrue hcolon => exact .inl hcolon
    case isFalse => cases hsome
  refine ((client_hello_exact hip _).1 _).mpr ⟨sampleClientHello, 3, ascii "Example.COM", ?_⟩
  refine ⟨rfl, by decide, by decide, ⟨by decide, by decide, ?_⟩, by decide +kernel, by decide⟩
  exact ⟨_, mem_cons_of_mem _ mem_cons_self, rfl, rfl⟩

end AgentBridge.Proxy.Cursor
