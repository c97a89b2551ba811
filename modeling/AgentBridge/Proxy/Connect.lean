import AgentBridge.Hoare.Basic
import AgentBridge.Proxy.ClientHello

/-!
# The CONNECT relay

`serve_client` reads a CONNECT request, resolves its host once, connects to one of the addresses,
and reads the first TLS record before it forwards anything.

* `checkRequest_eq_ok` : **an accepted header is an allowed request**.
* `relay_forwards_verified` : **a relay that writes to an upstream connection has verified all of
  it**.
-/

namespace AgentBridge.Proxy

open Bytes List
open Except (bind_eq_ok)

/-! ### The request header -/

/-- A header field. -/
structure Field where
  name : Bytes
  value : Bytes

/-- `line.split(b":", 1)`. -/
def Field.ofLine (line : Bytes) : Field :=
  ⟨line.takeWhile (· ≠ 58), (line.dropWhile (· ≠ 58)).drop 1⟩

def framingHeaders : List Bytes :=
  [ascii "transfer-encoding", ascii "content-length", ascii "proxy-connection", ascii "upgrade",
    ascii "connection"]

def checkField (line : Bytes) : Except Denied Unit := do
  require (!line.contains 0) (.egressDenied "NUL in HTTP header")
  require (line.contains 58) (.egressDenied "malformed header field")
  let name := (Field.ofLine line).name
  require (name ≠ [] && name.all fun b => isAlnum b || b = 45) (.egressDenied "invalid header name")
  require (!framingHeaders.contains (lower name))
    (.egressDenied "framing or connection headers forbidden on CONNECT")

def headerValues (name : String) (lines : List Bytes) : List Bytes :=
  (lines.filter fun line => (ascii name ++ [58]).isPrefixOf (lower line)).map fun line =>
    strip (Field.ofLine line).value

/-- The configuration, and what comes from outside. -/
structure Env where
  hosts : List Bytes
  authToken : Option Bytes
  /-- The outcome of `validate_workload`, if workloads are restricted. -/
  workload : Option Bool
  /-- The limit of the stream reader. -/
  limit : ℕ
  ipAddress : Bytes → Option Ip
  /-- The answers to the lookups of the connection, in order. -/
  getaddrinfo : ℕ → Bytes → Option (List Answer)
  /-- The address accepts a connection in time. -/
  connects : Bytes → Bool
  /-- The await ends in time and without an error. -/
  inTime : ℕ → Bool
  /-- Sizes of what the relay reads from the client. -/
  reads : List ℕ
  /-- What the relay reads from the upstream connection. -/
  replies : List Bytes
  isClosing : Bool

/-- The checks of the request header: the host to connect to. -/
def checkRequest (env : Env) (header : Bytes) : Except Denied Bytes := do
  require (header.length ≤ 8192) (.egressDenied "oversized headers")
  let lines := Bytes.lines header
  require (3 ≤ lines.length && lines.length ≤ 32) (.egressDenied "malformed request headers")
  let request := lines.headD []
  require (isAscii request) (.egressDenied "non-ASCII request")
  let words := request.splitOn 32
  let authority := words.getD 1 []
  require (words = [ascii "CONNECT", authority, ascii "HTTP/1.1"])
    (.egressDenied "CONNECT is the only supported method")
  let fields := (lines.drop 1).dropLast.dropLast
  require (!fields.any fun line =>
      line ≠ [] && (line.head? = some 32 || line.head? = some 9 || !line.contains 58))
    (.egressDenied "malformed HTTP headers")
  fields.foldlM (fun _ line => checkField line) ()
  require (env.authToken.all fun token =>
      headerValues "proxy-authorization" fields = [ascii "Bearer " ++ token])
    (.egressDenied "proxy caller not authenticated")
  let host ← parseConnectTarget env.ipAddress authority env.hosts
  require ((headerValues "host" fields).map lower = [lower authority])
    (.egressDenied "Host header must match CONNECT authority")
  return host

/-! ### The relay -/

/-- What a connection has read and written. -/
structure Conn where
  unread : Bytes
  /-- The hosts that were looked up. -/
  lookups : List Bytes := []
  attempts : List Bytes := []
  /-- What was written to the client. -/
  client : List Bytes := []
  /-- What was written to upstream connections, with their addresses. -/
  upstream : List (Bytes × Bytes) := []

abbrev Relay := Prog Conn Denied

/-- The bytes up to the first empty line, and the rest. -/
def splitHeader : Bytes → Option (Bytes × Bytes)
  | [] => none
  | b :: rest =>
    if (crlf ++ crlf).isPrefixOf (b :: rest) then some (crlf ++ crlf, (b :: rest).drop 4)
    else (splitHeader rest).map fun r => (b :: r.1, r.2)

section Serve

variable (env : Env)

def await (point : ℕ) : Relay Unit := .check (require (env.inTime point) .timeoutError)

/-- `reader.readuntil(b"\r\n\r\n")`. -/
def readUntil : Relay Bytes := .step fun c =>
  match splitHeader c.unread with
  | none => .error .incompleteReadError
  | some (header, rest) => do
    require (header.length - 4 ≤ env.limit) .limitOverrunError
    return (header, { c with unread := rest })

/-- `reader.readexactly(n)`. -/
def readExactly (n : ℕ) : Relay Bytes := .step fun c => do
  let (data, rest) ← segment .incompleteReadError c.unread n
  return (data, { c with unread := rest })

def writeClient (data : Bytes) : Relay Unit :=
  .step fun c => .ok ((), { c with client := c.client ++ [data] })

def writeUpstream (address data : Bytes) : Relay Unit :=
  .step fun c => .ok ((), { c with upstream := c.upstream ++ [(address, data)] })

/-- `socket.getaddrinfo`. -/
def getaddrinfo (host : Bytes) : Relay (Option (List Answer)) :=
  .step fun c => .ok (env.getaddrinfo c.lookups.length host, { c with lookups := c.lookups ++ [host] })

/-- Connect to the first address that accepts. -/
def openConnection : List Bytes → Relay Bytes
  | [] => .check (.error (.egressDenied "destination unavailable"))
  | ip :: addresses => do
    Prog.step fun c => .ok ((), { c with attempts := c.attempts ++ [ip] })
    if env.connects ip then return ip else openConnection addresses

/-- Read the first TLS record. -/
def readRecord : Relay Bytes := do
  await env 3
  let head ← readExactly 5
  let size := toNat ((head.drop 3).take 2)
  Prog.check (require (4 ≤ size && size ≤ 16384) (.egressDenied "invalid bounded TLS record"))
  await env 4
  let body ← readExactly size
  return head ++ body

/-- Forward what the client sends, until it ends or the connection does. -/
def relay (address : Bytes) : List ℕ → Relay Unit
  | [] => return ()
  | n :: reads => do
    let data ← Prog.step fun c =>
      .ok (c.unread.take (min n 16384), { c with unread := c.unread.drop (min n 16384) })
    if data = [] then return () else do
      writeUpstream address data
      relay address reads

def established : Bytes := ascii "HTTP/1.1 200 Connection Established\r\n\r\n"

def forbidden : Bytes :=
  ascii "HTTP/1.1 403 Forbidden\r\nContent-Length: 0\r\nConnection: close\r\n\r\n"

/-- `serve_client`, without the handling of its exceptions. -/
def serve : Relay Unit := do
  Prog.check (require (env.workload ≠ some false) .workloadDenied)
  await env 0
  let header ← readUntil env
  let host ← Prog.check (checkRequest env header)
  let results ← getaddrinfo env host
  await env 1
  let addresses ← Prog.check (resolveGlobalAddresses env.ipAddress results)
  let address ← openConnection env addresses
  writeClient established
  await env 2
  let record ← readRecord env
  let name ← Prog.check (parseTlsClientHelloSni env.ipAddress record)
  Prog.check (require (name = host) (.egressDenied "CONNECT authority and TLS SNI mismatch"))
  writeUpstream address record
  await env 5
  env.replies.forM writeClient
  relay address env.reads

/-- `serve_client`, for the bytes that the client sends. -/
def serveClient (stream : Bytes) : Conn :=
  match Prog.exec (serve env) { unread := stream } with
  | (.ok _, c) => c
  | (.error _, c) => if env.isClosing then c else { c with client := c.client ++ [forbidden] }

end Serve

/-! ### Requests -/

def Field.text (f : Field) : Bytes := f.name ++ 58 :: f.value

/-- A CONNECT request. -/
structure Request where
  authority : Bytes
  fields : List Field

def Request.text (r : Request) : Bytes :=
  ascii "CONNECT " ++ r.authority ++ ascii " HTTP/1.1" ++ crlf ++
    (r.fields.flatMap fun f => f.text ++ crlf) ++ crlf

/-- The values of a header, without surrounding whitespace. -/
def Request.values (r : Request) (name : String) : List Bytes :=
  (r.fields.filter fun f => lower f.name = ascii name).map fun f => strip f.value

/-- The request may be relayed to the host. -/
structure Request.Allowed (env : Env) (r : Request) (host : Bytes) : Prop where
  authority : ∃ name, r.authority = name ++ ascii ":443" ∧ lower name = host
  allowlisted : host ∈ env.hosts
  /-- A field is one line, and its name ends at the first colon. -/
  fields : ∀ f ∈ r.fields, ¬crlf <:+: f.text ∧ 58 ∉ f.name
  hostHeader : (r.values "host").map lower = [lower r.authority]
  notFramed : ∀ f ∈ r.fields, lower f.name ∉ framingHeaders
  token : ∀ token, env.authToken = some token →
    r.values "proxy-authorization" = [ascii "Bearer " ++ token]

theorem foldlM_checkField {lines : List Bytes}
    (h : lines.foldlM (fun _ line => checkField line) () = .ok ()) :
    ∀ line ∈ lines, checkField line = .ok () := by
  induction lines with
  | nil => exact nofun
  | cons line lines ih =>
    rw [foldlM_cons] at h
    obtain ⟨_, hline, h⟩ := bind_eq_ok.mp h
    intro line' hmem
    rcases mem_cons.mp hmem with rfl | hmem
    · exact hline
    · exact ih h line' hmem

theorem checkField_eq_ok {line : Bytes} (h : checkField line = .ok ()) :
    (Field.ofLine line).text = line ∧ 58 ∉ (Field.ofLine line).name ∧
      lower (Field.ofLine line).name ∉ framingHeaders := by
  obtain ⟨_, -, h⟩ := bind_eq_ok.mp h
  obtain ⟨_, hcolon, h⟩ := bind_eq_ok.mp h
  obtain ⟨_, -, h⟩ := bind_eq_ok.mp h
  rw [require_eq_ok] at hcolon h
  exact ⟨(eq_append_of_mem (contains_iff_mem.mp hcolon)).symm, notMem_takeWhile, by simpa using h⟩

/-- The lines that start with a name and a colon are the fields of that name. -/
theorem isPrefixOf_lower {line : Bytes} (h : checkField line = .ok ()) {name : Bytes}
    (hname : 58 ∉ name) :
    (name ++ [58]).isPrefixOf (lower line) = decide (lower (Field.ofLine line).name = name) := by
  obtain ⟨htext, hcolon, -⟩ := checkField_eq_ok h
  have hlower : lower line = lower (Field.ofLine line).name ++ 58 :: lower (Field.ofLine line).value := by
    conv_lhs => rw [← htext, Field.text, lower_append, lower_cons]
    rfl
  have hcolon' : (58 : UInt8) ∉ lower (Field.ofLine line).name := by
    rwa [mem_lower (by decide)]
  rw [Bool.eq_iff_iff, isPrefixOf_iff_prefix, decide_eq_true_eq, hlower]
  constructor
  · rintro ⟨rest, hrest⟩
    rw [append_assoc, singleton_append] at hrest
    exact (append_cons_left_inj hname hcolon' hrest).symm
  · rintro rfl
    exact ⟨_, by rw [append_assoc, singleton_append]⟩

theorem headerValues_eq {authority : Bytes} {lines : List Bytes}
    (h : ∀ line ∈ lines, checkField line = .ok ()) {name : String} (hname : 58 ∉ ascii name) :
    headerValues name lines = Request.values ⟨authority, lines.map Field.ofLine⟩ name := by
  rw [headerValues, Request.values, filter_map, map_map]
  congr 1
  refine filter_congr fun line hline => ?_
  exact isPrefixOf_lower (h line hline) hname

/-- **An accepted header is an allowed request.** -/
theorem checkRequest_eq_ok {env : Env} {text host : Bytes}
    (h : checkRequest env (text ++ (crlf ++ crlf)) = .ok host) :
    ∃ r : Request, text ++ (crlf ++ crlf) = r.text ∧ r.Allowed env host := by
  obtain ⟨first, rest, hlines⟩ := exists_cons_of_ne_nil (lines_ne_nil text)
  have hheader : lines (text ++ (crlf ++ crlf)) = first :: rest ++ [[], []] := by
    rw [← hlines]
    exact lines_append text crlf
  have hfields : ((first :: rest ++ [[], []]).drop 1).dropLast.dropLast = rest := by
    simp
  obtain ⟨_, -, h⟩ := bind_eq_ok.mp h
  dsimp only at h
  rw [hheader, hfields] at h
  obtain ⟨_, -, h⟩ := bind_eq_ok.mp h
  obtain ⟨_, -, h⟩ := bind_eq_ok.mp h
  obtain ⟨_, hwords, h⟩ := bind_eq_ok.mp h
  obtain ⟨_, -, h⟩ := bind_eq_ok.mp h
  obtain ⟨_, hchecked, h⟩ := bind_eq_ok.mp h
  obtain ⟨_, htoken, h⟩ := bind_eq_ok.mp h
  obtain ⟨host', htarget, h⟩ := bind_eq_ok.mp h
  obtain ⟨_, hhost, h⟩ := bind_eq_ok.mp h
  cases h
  rw [require_eq_ok] at hwords htoken hhost
  have hchecked := foldlM_checkField hchecked
  obtain ⟨name, hauthority, hlower, hallowed, -⟩ := parseConnectTarget_eq_ok htarget
  generalize hwords' : (List.splitOn 32 ((first :: rest ++ [[], []]).headD [])).getD 1 [] =
    authority at *
  have hfirst : first = ascii "CONNECT " ++ authority ++ ascii " HTTP/1.1" := by
    have hsplit : [(32 : UInt8)].intercalate (first.splitOn 32) = first :=
      intercalate_splitOn 32
    rw [show List.splitOn 32 first = _ from of_decide_eq_true hwords] at hsplit
    rw [← hsplit]
    rfl
  have hfields' : ∀ {p : Field → Prop}, (∀ line ∈ rest, p (Field.ofLine line)) →
      ∀ f ∈ rest.map Field.ofLine, p f := by
    intro p hp f hf
    obtain ⟨line, hline, rfl⟩ := mem_map.mp hf
    exact hp line hline
  refine ⟨⟨authority, rest.map Field.ofLine⟩, ?_, ⟨name, hauthority, hlower⟩, hallowed, hfields' ?_, ?_,
    hfields' fun line hline => (checkField_eq_ok (hchecked line hline)).2.2, ?_⟩
  · -- the text is its lines
    have htext : text ++ crlf = first ++ crlf ++ rest.flatMap fun line => line ++ crlf := by
      rw [← intercalate_append_crlf, ← hlines, intercalate_lines]
    have hflat : ((rest.map Field.ofLine).flatMap fun f => f.text ++ crlf) =
        rest.flatMap fun line => line ++ crlf := by
      rw [flatMap_map]
      refine flatMap_congr fun line hline => ?_
      rw [(checkField_eq_ok (hchecked line hline)).1]
    rw [← append_assoc, htext, Request.text, hflat, hfirst]
  · intro line hline
    obtain ⟨htext, hcolon, -⟩ := checkField_eq_ok (hchecked line hline)
    have hmem : line ∈ lines text := by
      rw [hlines]
      exact mem_cons_of_mem _ hline
    rw [htext]
    exact ⟨not_infix_of_mem_lines hmem, hcolon⟩
  · rw [← headerValues_eq hchecked (by decide)]
    exact of_decide_eq_true hhost
  · intro token htoken'
    rw [htoken', Option.all_some, decide_eq_true_eq] at htoken
    rw [← headerValues_eq hchecked (by decide)]
    exact htoken

/-! ### What is forwarded -/

theorem splitHeader_eq_some {s header rest : Bytes} (h : splitHeader s = some (header, rest)) :
    s = header ++ rest ∧ ∃ text, header = text ++ (crlf ++ crlf) := by
  induction s generalizing header with
  | nil => cases h
  | cons b s ih =>
    unfold splitHeader at h
    split at h
    case isTrue hprefix =>
      cases h
      obtain ⟨tail, htail⟩ := isPrefixOf_iff_prefix.mp hprefix
      refine ⟨?_, [], rfl⟩
      rw [← htail]
      rfl
    case isFalse =>
      obtain ⟨⟨header', rest'⟩, hsplit, heq⟩ := Option.map_eq_some_iff.mp h
      cases heq
      obtain ⟨hs, text, htext⟩ := ih hsplit
      exact ⟨congrArg (b :: ·) hs, b :: text, congrArg (b :: ·) htext⟩

/-- Everything about a connection that forwards. -/
structure Verified (env : Env) (stream : Bytes) (c : Conn) (r : Request) (host address : Bytes)
    (answers : List Answer) (hello : ClientHello) (minor : UInt8) (name : Bytes) : Prop where
  /-- The client has sent the request and what was forwarded. -/
  stream_eq : stream = r.text ++ (c.upstream.map Prod.snd).flatten ++ c.unread
  allowed : r.Allowed env host
  workload : env.workload ≠ some false
  /-- The host was looked up once. -/
  lookups : c.lookups = [host]
  answers_eq : env.getaddrinfo 0 host = some answers
  resolved : Resolved env.ipAddress answers address
  /-- The first bytes are the record. -/
  upstream : ∃ more, c.upstream = (address, hello.record minor) :: more ∧ ∀ w ∈ more, w.1 = address
  names : hello.Names name
  host_eq : lower name = host

/-- Nothing was forwarded, or everything was verified. -/
def Safe (env : Env) (stream : Bytes) (c : Conn) : Prop :=
  c.upstream = [] ∨ ∃ r host address answers hello minor name,
    Verified env stream c r host address answers hello minor name

/-- Nothing was forwarded, and the client has sent an allowed request and what was read since. -/
structure Asked (env : Env) (stream host : Bytes) (read : Bytes) (c : Conn) : Prop where
  upstream : c.upstream = []
  workload : env.workload ≠ some false
  request : ∃ r : Request, stream = r.text ++ read ++ c.unread ∧ r.Allowed env host

/-- The host was looked up, and the address is one of the answers. -/
structure Dialed (env : Env) (host address : Bytes) (c : Conn) : Prop where
  lookups : c.lookups = [host]
  resolved : ∃ answers, env.getaddrinfo 0 host = some answers ∧
    Resolved env.ipAddress answers address

section Triples

open Prog

variable {env : Env} {stream host address : Bytes}

variable {P : Conn → Prop}

/-- An await changes nothing. -/
theorem await_triple (point : ℕ) (h : ∀ c, P c → Safe env stream c) :
    Triple P (await env point) (fun _ => P) (Safe env stream) :=
  .check (fun _ _ hc _ => hc) h

theorem readExactly_triple {D : Conn → Prop} (hD : ∀ c unread, D c → D { c with unread }) (n : ℕ)
    (read : Bytes) :
    Triple (fun c => Asked env stream host read c ∧ D c) (readExactly n)
      (fun data c => data.length = n ∧ Asked env stream host (read ++ data) c ∧ D c)
      (Safe env stream) := by
  refine .step (fun c data c' hc h => ?_) fun c _ hc _ => .inl hc.1.upstream
  obtain ⟨⟨data', rest⟩, hsegment, h⟩ := bind_eq_ok.mp h
  cases h
  obtain ⟨hunread, hlength⟩ := segment_eq_ok hsegment
  obtain ⟨⟨hupstream, hworkload, r, hstream, hallowed⟩, hd⟩ := hc
  refine ⟨hlength, ⟨hupstream, hworkload, r, ?_, hallowed⟩, hD _ _ hd⟩
  rw [hstream, hunread]
  simp only [append_assoc]

theorem openConnection_triple (addresses : List Bytes)
    (hP : ∀ c attempts, P c → P { c with attempts }) (hsafe : ∀ c, P c → Safe env stream c) :
    Triple P (openConnection env addresses) (fun address c => address ∈ addresses ∧ P c)
      (Safe env stream) := by
  induction addresses with
  | nil => exact .check (fun _ _ _ h => nomatch h) hsafe
  | cons ip addresses ih =>
    refine .bind (Q := fun _ => P) (.step (fun c _ c' hc h => ?_) nofun) fun _ => ?_
    · cases h
      exact hP c _ hc
    · split
      · exact .pure fun c hc => ⟨mem_cons_self, hc⟩
      · exact ih.mono fun address c hc => ⟨mem_cons_of_mem _ hc.1, hc.2⟩

theorem readRecord_triple {D : Conn → Prop} (hD : ∀ c unread, D c → D { c with unread }) :
    Triple (fun c => Asked env stream host [] c ∧ D c) (readRecord env)
      (fun record c => Asked env stream host record c ∧ D c) (Safe env stream) := by
  have hsafe : ∀ read c, Asked env stream host read c ∧ D c → Safe env stream c :=
    fun _ c hc => .inl hc.1.upstream
  refine (await_triple 3 (hsafe [])).bind fun _ => ?_
  refine (readExactly_triple hD 5 []).bind fun head => ?_
  refine .bind (Q := fun _ c => Asked env stream host head c ∧ D c)
    (.check (fun _ c hc _ => hc.2) fun c hc => hsafe head c hc.2) fun _ => ?_
  refine (await_triple 4 (hsafe head)).bind fun _ => ?_
  refine (readExactly_triple hD _ head).bind fun body => ?_
  exact .pure fun c hc => hc.2

theorem writeClient_triple (hP : ∀ c client, P c → P { c with client }) (data : Bytes) :
    Triple P (writeClient data) (fun _ => P) (Safe env stream) := by
  refine .step (fun c _ c' hc h => ?_) nofun
  cases h
  exact hP c _ hc

theorem writeUpstream_triple {r : Request} {answers : List Answer} {hello : ClientHello}
    {minor : UInt8} {name : Bytes} (data : Bytes) :
    Triple (fun c => Verified env stream { c with unread := data ++ c.unread } r host address answers
        hello minor name) (writeUpstream address data)
      (fun _ c => Verified env stream c r host address answers hello minor name)
      (Safe env stream) := by
  refine .step (fun c _ c' hc h => ?_) nofun
  cases h
  obtain ⟨more, hmore, haddress⟩ := hc.upstream
  refine { hc with stream_eq := ?_, upstream := ⟨more ++ [(address, data)], ?_, fun w hw => ?_⟩ }
  · rw [hc.stream_eq]
    simp
  · show c.upstream ++ [(address, data)] = _
    rw [show c.upstream = _ from hmore]
    rfl
  · rcases mem_append.mp hw with hw | hw
    · exact haddress w hw
    · rw [mem_singleton.mp hw]

theorem relay_triple {r : Request} {answers : List Answer} {hello : ClientHello} {minor : UInt8}
    {name : Bytes} (reads : List ℕ) :
    Triple (fun c => Verified env stream c r host address answers hello minor name)
      (relay address reads)
      (fun _ c => Verified env stream c r host address answers hello minor name)
      (Safe env stream) := by
  induction reads with
  | nil => exact .pure fun c hc => hc
  | cons n reads ih =>
    refine .bind (Q := fun data c =>
      Verified env stream { c with unread := data ++ c.unread } r host address answers hello minor
        name) (.step (fun c data c' hc h => ?_) nofun) fun data => ?_
    · cases h
      dsimp only
      rwa [take_append_drop]
    · split
      case isTrue hnil =>
        rw [hnil]
        exact .pure fun c hc => hc
      case isFalse => exact (writeUpstream_triple data).bind fun _ => ih

/-- The whole connection. -/
theorem serve_triple (env : Env) (stream : Bytes) :
    Triple (fun c => c = { unread := stream }) (serve env) (fun _ => Safe env stream)
      (Safe env stream) := by
  refine .bind (Q := fun _ c => c = { unread := stream } ∧ env.workload ≠ some false)
    (.check (fun _ c hc h => ⟨hc, ?_⟩) fun c hc => .inl (by rw [hc])) fun _ => ?_
  · rw [require_eq_ok] at h
    exact of_decide_eq_true h
  refine (await_triple 0 fun c hc => .inl (by rw [hc.1])).bind fun _ => ?_
  -- the request
  refine .bind (Q := fun header c => c.upstream = [] ∧ c.lookups = [] ∧ env.workload ≠ some false ∧
      stream = header ++ c.unread ∧ ∃ text, header = text ++ (crlf ++ crlf))
    (.step (fun c header c' hc h => ?_) fun c _ hc _ => .inl (by rw [hc.1])) fun header => ?_
  · obtain ⟨rfl, hworkload⟩ := hc
    split at h
    case h_1 => cases h
    case h_2 header' rest hsplit =>
      obtain ⟨_, -, h⟩ := bind_eq_ok.mp h
      cases h
      obtain ⟨hstream, htext⟩ := splitHeader_eq_some hsplit
      exact ⟨rfl, rfl, hworkload, hstream, htext⟩
  refine .bind (Q := fun host c => Asked env stream host [] c ∧ c.lookups = [])
    (.check (fun host c hc h => ?_) fun c hc => .inl hc.1) fun host => ?_
  · obtain ⟨hupstream, hlookups, hworkload, hstream, text, rfl⟩ := hc
    obtain ⟨r, htext, hallowed⟩ := checkRequest_eq_ok h
    refine ⟨⟨hupstream, hworkload, r, ?_, hallowed⟩, hlookups⟩
    rw [hstream, htext, append_nil]
  -- the lookup
  refine .bind (Q := fun results c => Asked env stream host [] c ∧ c.lookups = [host] ∧
      results = env.getaddrinfo 0 host)
    (.step (fun c results c' hc h => ?_) nofun) fun results => ?_
  · cases h
    obtain ⟨hasked, hlookups⟩ := hc
    refine ⟨⟨hasked.upstream, hasked.workload, hasked.request⟩, ?_, ?_⟩
    · show c.lookups ++ [host] = [host]
      rw [hlookups]
      rfl
    · rw [hlookups]
      rfl
  refine (await_triple 1 fun c hc => .inl hc.1.upstream).bind fun _ => ?_
  refine .bind (Q := fun addresses c => Asked env stream host [] c ∧
      ∀ address ∈ addresses, Dialed env host address c)
    (.check (fun addresses c hc h => ?_) fun c hc => .inl hc.1.upstream) fun addresses => ?_
  · obtain ⟨hasked, hlookups, rfl⟩ := hc
    obtain ⟨answers, hanswers, hresolved⟩ := resolveGlobalAddresses_eq_ok h
    exact ⟨hasked, fun address haddress => ⟨hlookups, answers, hanswers, hresolved address haddress⟩⟩
  refine .bind (Q := fun address c => Asked env stream host [] c ∧ Dialed env host address c)
    ((openConnection_triple addresses ?_ ?_).mono fun address c hc => ⟨hc.2.1, hc.2.2 address hc.1⟩)
    fun address => ?_
  · intro c attempts hc
    exact ⟨⟨hc.1.upstream, hc.1.workload, hc.1.request⟩, fun address haddress =>
      ⟨(hc.2 address haddress).lookups, (hc.2 address haddress).resolved⟩⟩
  · exact fun c hc => .inl hc.1.upstream
  refine (writeClient_triple (fun c client hc => ⟨⟨hc.1.upstream, hc.1.workload, hc.1.request⟩,
    hc.2.lookups, hc.2.resolved⟩) _).bind fun _ => ?_
  refine (await_triple 2 fun c hc => .inl hc.1.upstream).bind fun _ => ?_
  -- the first record
  refine (readRecord_triple fun c unread hc => ⟨hc.lookups, hc.resolved⟩).bind fun record => ?_
  refine .bind (Q := fun name c => (Asked env stream host record c ∧ Dialed env host address c) ∧
      ∃ (hello : ClientHello) (minor : UInt8) (name' : Bytes), record = hello.record minor ∧
        hello.Names name' ∧ lower name' = name)
    (.check (fun name c hc h => ⟨hc, parseTlsClientHelloSni_eq_ok h⟩) fun c hc => .inl hc.1.upstream)
    fun name => ?_
  refine .bind (Q := fun _ c => (Asked env stream host record c ∧ Dialed env host address c) ∧
      ∃ (hello : ClientHello) (minor : UInt8) (name' : Bytes), record = hello.record minor ∧
        hello.Names name' ∧ lower name' = host)
    (.check (fun _ c hc h => ⟨hc.1, ?_⟩) fun c hc => .inl hc.1.1.upstream) fun _ => ?_
  · rw [require_eq_ok, decide_eq_true_eq] at h
    rw [← h]
    exact hc.2
  refine .bind (Q := fun _ c => ∃ r answers hello minor name,
    Verified env stream c r host address answers hello minor name)
    (.step (fun c _ c' hc h => ?_) nofun) fun _ => ?_
  · cases h
    obtain ⟨⟨⟨hupstream, hworkload, r, hstream, hallowed⟩, hlookups, answers, hanswers, hresolved⟩,
      hello, minor, name', rfl, hnames, hname⟩ := hc
    refine ⟨r, answers, hello, minor, name', ?_, hallowed, hworkload, hlookups, hanswers, hresolved,
      ⟨[], ?_, nofun⟩, hnames, hname⟩
    · rw [hstream, hupstream]
      simp
    · show c.upstream ++ [(address, hello.record minor)] = _
      rw [hupstream]
      rfl
  -- the rest of the connection
  refine .exists_pre fun r => .exists_pre fun answers => .exists_pre fun hello =>
    .exists_pre fun minor => .exists_pre fun name' => ?_
  have hsafe : ∀ c, Verified env stream c r host address answers hello minor name' →
      Safe env stream c := fun c hc => .inr ⟨r, host, address, answers, hello, minor, name', hc⟩
  refine (await_triple 5 hsafe).bind fun _ => ?_
  refine (Triple.forM (writeClient_triple fun c client hc => { hc with }) _).bind fun _ => ?_
  exact (relay_triple _).mono fun _ => hsafe

end Triples

/-- **A relay forwards nothing unverified**: for every client byte stream, configuration and resolver,
a connection that writes to an upstream connection has read one CONNECT request to port 443 of an
allowed host, with one `Host` header equal to its authority, no framing header and the token if there
is one; has looked up the host once, with global answers only, and writes to one of them; and has
written first one TLS record with a ClientHello that names the host and nothing else. -/
theorem relay_forwards_verified (env : Env) (stream : Bytes)
    (h : (serveClient env stream).upstream ≠ []) :
    ∃ r host address answers hello minor name,
      Verified env stream (serveClient env stream) r host address answers hello minor name := by
  have hsafe : Safe env stream (serveClient env stream) := by
    have hend := (serve_triple env stream).end_state rfl
    unfold serveClient
    split
    case h_1 c hexec =>
      rw [hexec] at hend
      exact hend
    case h_2 e c hexec =>
      rw [hexec] at hend
      split
      · exact hend
      · rcases hend with hnil | ⟨r, host, address, answers, hello, minor, name, hverified⟩
        · exact .inl hnil
        · exact .inr ⟨r, host, address, answers, hello, minor, name, { hverified with }⟩
  exact hsafe.resolve_left h

/-! ### A sample connection -/

def sampleRequest : Request where
  authority := ascii "Example.com:443"
  fields := [⟨ascii "Host", ascii " example.com:443"⟩,
    ⟨ascii "Proxy-Authorization", ascii " Bearer secret"⟩]

def sampleHello : ClientHello where
  prologue := List.replicate 34 0
  session := []
  ciphers := [0x13, 0x01]
  compression := [0]
  extensions := [⟨0, serverName (ascii "example.com"), by decide, by decide⟩]
  prologue_length := rfl
  session_length := by decide
  ciphers_length := by decide
  compression_length := by decide

/-- The host has two addresses, of which the first one does not answer. -/
def sampleEnv : Env where
  hosts := [ascii "example.com"]
  authToken := some (ascii "secret")
  workload := none
  limit := 8192
  ipAddress s := if s = ascii "8.8.4.4" ∨ s = ascii "8.8.8.8" then some ⟨s, true⟩ else none
  getaddrinfo _ _ := some [⟨.inet, true, ascii "8.8.4.4"⟩, ⟨.inet, true, ascii "8.8.8.8"⟩]
  connects address := address = ascii "8.8.8.8"
  inTime _ := true
  reads := [2, 2]
  replies := []
  isClosing := false

def sampleStream : Bytes := sampleRequest.text ++ sampleHello.record 1 ++ [23, 3, 3]

theorem sample_relay_forwards_verified :
    (serveClient sampleEnv sampleStream).upstream.length = 3 ∧
    ∃ r host address answers hello minor name,
      Verified sampleEnv sampleStream (serveClient sampleEnv sampleStream) r host address answers
        hello minor name := by
  have hlength : (serveClient sampleEnv sampleStream).upstream.length = 3 := by decide +kernel
  refine ⟨hlength, relay_forwards_verified sampleEnv sampleStream fun hnil => ?_⟩
  rw [hnil] at hlength
  cases hlength

end AgentBridge.Proxy
