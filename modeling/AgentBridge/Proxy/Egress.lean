import AgentBridge.Bytes.Basic

/-!
# Egress policy

Which CONNECT authorities are allowed, and which answers of the resolver. Host names are ASCII, so
that a text is its bytes.
-/

namespace AgentBridge.Proxy

open Bytes Except List

/-- Exceptions that end a connection. -/
inductive Denied
  | egressDenied (message : String)
  | invalidClientHello (message : String)
  | workloadDenied
  | incompleteReadError
  | limitOverrunError
  | timeoutError
  | osError
  deriving DecidableEq

/-- The result of `ipaddress.ip_address`: its text, and `is_global`. -/
structure Ip where
  text : Bytes
  isGlobal : Bool
  deriving DecidableEq

inductive Family
  | inet
  | inet6
  | other
  deriving DecidableEq

/-- An answer of `getaddrinfo`. -/
structure Answer where
  family : Family
  isStream : Bool
  /-- `sockaddr[0]`. -/
  address : Bytes

section

-- `ipaddress.ip_address`, without a value where it raises
variable (ipAddress : Bytes → Option Ip)

def isDigit (b : UInt8) : Bool := 48 ≤ b && b ≤ 57

def isAlnum (b : UInt8) : Bool := isDigit b || (65 ≤ b && b ≤ 90) || (97 ≤ b && b ≤ 122)

/-- One label of a name. -/
def validLabel (label : Bytes) : Bool :=
  1 ≤ label.length && label.length ≤ 63 && label.head? ≠ some 45 && label.getLast? ≠ some 45 &&
    label.all fun b => isAlnum b || b = 45

/-- `_valid_dns_name`. -/
def validDnsName (host : Bytes) : Bool :=
  let labels := host.splitOn 46
  let last := labels.getLastD []
  4 ≤ host.length && host.length ≤ 253 && isAscii host &&
    !(host.getLast? = some 46 || host.head? = some 46 ||
      host.tails.any fun rest => (ascii "..").isPrefixOf rest) &&
    2 ≤ labels.length &&
    !([ascii "local", ascii "internal", ascii "test", ascii "localhost"].contains (lower last)) &&
    labels.all validLabel && !last.all isDigit && (ipAddress host).isNone

/-- `parse_connect_target`. -/
def parseConnectTarget (authority : Bytes) (allowedHosts : List Bytes) : Except Denied Bytes := do
  require (isAscii authority && authority.count 58 = 1 &&
      !(authority.any fun b => (ascii "/\\@%?# \t\r\n").contains b))
    (.egressDenied "invalid CONNECT authority")
  let host := authority.takeWhile (· ≠ 58)
  let rawPort := (authority.dropWhile (· ≠ 58)).drop 1
  require (validDnsName ipAddress host && rawPort = ascii "443")
    (.egressDenied "CONNECT requires a public DNS name and TLS port 443")
  require (allowedHosts.contains (lower host)) (.egressDenied "CONNECT host is not allowlisted")
  return lower host

/-- One answer: the addresses so far, without repetition. -/
def checkAnswer (addresses : List Bytes) (answer : Answer) : Except Denied (List Bytes) := do
  require (answer.family ≠ .other && answer.isStream)
    (.egressDenied "unsupported DNS answer family or socket type")
  match ipAddress answer.address with
  | none => .error (.egressDenied "unrecognized destination address")
  | some parsed => do
    require parsed.isGlobal (.egressDenied "DNS answer includes nonpublic or reserved address")
    return if addresses.contains parsed.text then addresses else addresses ++ [parsed.text]

/-- `resolve_global_addresses`, for the answer of the lookup. -/
def resolveGlobalAddresses (results : Option (List Answer)) : Except Denied (List Bytes) :=
  match results with
  | none => .error (.egressDenied "destination DNS lookup failed")
  | some results => do
    require (!results.isEmpty) (.egressDenied "destination has no DNS results")
    results.foldlM (checkAnswer ipAddress) []

end

section Lemmas

variable {ipAddress : Bytes → Option Ip}

theorem parseConnectTarget_eq_ok {authority host : Bytes} {allowedHosts : List Bytes}
    (h : parseConnectTarget ipAddress authority allowedHosts = .ok host) :
    ∃ name, authority = name ++ ascii ":443" ∧ lower name = host ∧ host ∈ allowedHosts ∧
      validDnsName ipAddress name = true := by
  obtain ⟨_, hauthority, h⟩ := bind_eq_ok.mp h
  obtain ⟨_, hname, h⟩ := bind_eq_ok.mp h
  obtain ⟨_, hallowed, h⟩ := bind_eq_ok.mp h
  cases h
  rw [require_eq_ok] at hauthority hname hallowed
  simp only [Bool.and_eq_true, decide_eq_true_eq] at hauthority hname
  have hmem : (58 : UInt8) ∈ authority := by
    refine count_pos_iff.mp ?_
    omega
  have hsplit := eq_append_of_mem hmem
  rw [hname.2] at hsplit
  exact ⟨_, hsplit, rfl, contains_iff_mem.mp hallowed, hname.1⟩

/-- What is known of a resolved address. -/
structure Resolved (ipAddress : Bytes → Option Ip) (answers : List Answer) (address : Bytes) :
    Prop where
  /-- Every answer is a global address. -/
  allGlobal : ∀ a ∈ answers, ∃ ip, ipAddress a.address = some ip ∧ ip.isGlobal = true
  /-- The address is one of them. -/
  answered : ∃ a ∈ answers, ∃ ip, ipAddress a.address = some ip ∧ ip.text = address

variable {addresses : List Bytes}

theorem checkAnswer_eq_ok {addresses' : List Bytes} {answer : Answer}
    (h : checkAnswer ipAddress addresses answer = .ok addresses') :
    ∃ ip, ipAddress answer.address = some ip ∧ ip.isGlobal = true ∧
      ∀ x ∈ addresses', x ∈ addresses ∨ x = ip.text := by
  obtain ⟨_, -, h⟩ := bind_eq_ok.mp h
  split at h
  case h_1 => cases h
  case h_2 ip hip =>
    obtain ⟨_, hglobal, h⟩ := bind_eq_ok.mp h
    cases h
    rw [require_eq_ok] at hglobal
    refine ⟨ip, hip, hglobal, fun x hx => ?_⟩
    split at hx
    · exact .inl hx
    · rcases mem_append.mp hx with hx | hx
      · exact .inl hx
      · exact .inr (mem_singleton.mp hx)

/-- A fold over the answers: all of them are global, and every address is from one of them. -/
theorem foldlM_checkAnswer {answers : List Answer} {addresses' : List Bytes}
    (h : answers.foldlM (checkAnswer ipAddress) addresses = .ok addresses') :
    (∀ a ∈ answers, ∃ ip, ipAddress a.address = some ip ∧ ip.isGlobal = true) ∧
      ∀ x ∈ addresses', x ∈ addresses ∨
        ∃ a ∈ answers, ∃ ip, ipAddress a.address = some ip ∧ ip.text = x := by
  induction answers generalizing addresses with
  | nil =>
    cases h
    exact ⟨nofun, fun x hx => .inl hx⟩
  | cons a answers ih =>
    rw [foldlM_cons] at h
    obtain ⟨next, hnext, h⟩ := bind_eq_ok.mp h
    obtain ⟨ip, hip, hglobal, hmem⟩ := checkAnswer_eq_ok hnext
    obtain ⟨hall, hfrom⟩ := ih h
    constructor
    · intro a' ha'
      rcases mem_cons.mp ha' with rfl | ha'
      · exact ⟨ip, hip, hglobal⟩
      · exact hall a' ha'
    · intro x hx
      rcases hfrom x hx with hx | ⟨a', ha', hx⟩
      · rcases hmem x hx with hx | rfl
        · exact .inl hx
        · exact .inr ⟨a, mem_cons_self, ip, hip, rfl⟩
      · exact .inr ⟨a', mem_cons_of_mem _ ha', hx⟩

theorem resolveGlobalAddresses_eq_ok {results : Option (List Answer)}
    (h : resolveGlobalAddresses ipAddress results = .ok addresses) :
    ∃ answers, results = some answers ∧ ∀ x ∈ addresses, Resolved ipAddress answers x := by
  unfold resolveGlobalAddresses at h
  split at h
  case h_1 => cases h
  case h_2 answers =>
    obtain ⟨_, -, h⟩ := bind_eq_ok.mp h
    obtain ⟨hall, hfrom⟩ := foldlM_checkAnswer h
    refine ⟨answers, rfl, fun x hx => ⟨hall, ?_⟩⟩
    rcases hfrom x hx with hnil | hanswer
    · cases hnil
    · exact hanswer

end Lemmas

end AgentBridge.Proxy
