import AgentBridge.Protocols.Adapters

/-!
# Chains of translations

What a call does is its capability and its arguments: this is what is authorized. Every adapter
reads back what it has written, so that they survive any chain of translations. The text does not:
the A2A adapter invents one, and four adapters drop it.

* `chain_keeps_action` : **a chain of translations does not fail and keeps the action**.
-/

namespace AgentBridge.Protocols

open Value

def CanonicalCall.action (call : CanonicalCall) : PyString × List (PyString × Value) :=
  (call.capability, call.arguments)

/-- The text of a call, where there is one: every reader takes an empty text for none. -/
def CanonicalCall.prose (call : CanonicalCall) : Option PyString :=
  call.text.filter fun text => !text.codes.isEmpty

/-! ### The identifier of a call -/

section Fresh

variable {R : Runtime} {ε α β : Type} {wire : Value}

theorem map_bind (x : Except ε α) {f f' : α → Except ε β} {γ : Type} {g : β → γ}
    (h : ∀ a, (f a).map g = (f' a).map g) : (x >>= f).map g = (x >>= f').map g := by
  cases x with
  | error e => rfl
  | ok a => exact h a

theorem canonicalCall_action (capability arguments text : Value) (callId callId' : PyString)
    (source : Protocol) :
    (canonicalCall capability arguments text callId source).map CanonicalCall.action =
      (canonicalCall capability arguments text callId' source).map CanonicalCall.action := by
  unfold canonicalCall
  split <;> rfl

/-- The action does not depend on what is generated while the request is read. -/
theorem toCanonicalCall_action (p : Protocol) (fresh fresh' : Fresh) (wire : Value) :
    (p.toCanonicalCall R fresh wire).map CanonicalCall.action =
      (p.toCanonicalCall R fresh' wire).map CanonicalCall.action := by
  cases p with
  | mcp | acp | openai | agntcy =>
    refine map_bind _ fun _ => map_bind _ fun _ => map_bind _ fun _ => ?_
    exact canonicalCall_action _ _ _ _ _ _
  | a2a =>
    refine map_bind _ fun _ => map_bind _ fun _ => map_bind _ fun _ => map_bind _ fun _ =>
      map_bind _ fun _ => map_bind _ fun _ => map_bind _ fun _ => map_bind _ fun _ => ?_
    exact canonicalCall_action _ _ _ _ _ _
  | gemini =>
    refine map_bind _ fun _ => ?_
    exact canonicalCall_action _ _ _ _ _ _

end Fresh

/-! ### Every adapter reads back what it has written -/

/-- `json.loads` inverts `json.dumps` on the values that a call is written with. -/
structure Runtime.Inverts (R : Runtime) (call : CanonicalCall) : Prop where
  arguments : R.loads (R.dumps (.dict call.arguments)) = some (.dict call.arguments)
  envelope : R.loads (R.dumps call.envelope) = some call.envelope

section RoundTrip

variable {R : Runtime} {fresh fresh' : Fresh} {call : CanonicalCall}

/-- An empty name is read back as it is, too: it is the default. -/
theorem or_or_text_nil (s : PyString) : ((Value.str s).or .null).or (.text "") = .str s := by
  by_cases hempty : s.codes = []
  · have hs : s = .ofString "" := PyString.ext hempty
    subst hs
    rfl
  · have htruthy : (Value.str s).isTruthy = true := by simp [isTruthy, hempty]
    rw [or_of_isTruthy htruthy, or_of_isTruthy htruthy]

theorem Mcp.toCanonicalCall_fromCanonicalCall :
    Mcp.toCanonicalCall R fresh (Mcp.fromCanonicalCall call) =
      .ok ⟨call.capability, call.arguments, none, R.str (.str call.callId), .mcp⟩ := by
  simp [Mcp.toCanonicalCall, Mcp.fromCanonicalCall, requireMapping, find_object_cons,
    or_or_text_nil, canonicalCall, require, bind, Except.bind]

theorem A2a.scanPart_text (s : PyString) :
    A2a.scanPart {} (.object [("kind", .text "text"), ("text", .str s)]) =
      .ok { text := .str s } := by
  simp [A2a.scanPart, requireMapping, find_object_cons, require, bind, Except.bind, pure,
    Except.pure]

theorem A2a.scanPart_data (h : call.capability.codes ≠ []) (text : Value) :
    A2a.scanPart { text } (.object [("kind", .text "data"), ("data", call.envelope)]) =
      .ok ⟨.str call.capability, .dict call.arguments, text⟩ := by
  simp [A2a.scanPart, A2a.scanData, CanonicalCall.envelope, requireMapping, find_object_cons,
    or_of_isTruthy (a := .str call.capability) (by simp [isTruthy, h]), require, bind,
    Except.bind, pure, Except.pure]

theorem A2a.scanMessage_fromCanonicalCall (fresh : Fresh) (h : call.capability.codes ≠ [])
    (s : PyString) :
    A2a.scanMessage {} (.object [("kind", .text "message"), ("messageId", .str fresh.messageId),
      ("role", .text "agent"), ("parts", .list [
        .object [("kind", .text "text"), ("text", .str s)],
        .object [("kind", .text "data"), ("data", call.envelope)]])]) =
      .ok ⟨.str call.capability, .dict call.arguments, .str s⟩ := by
  simp [A2a.scanMessage, A2a.scanPart_text, A2a.scanPart_data h, requireMapping, find_object_cons,
    require, bind, Except.bind, pure, Except.pure]

theorem A2a.toCanonicalCall_fromCanonicalCall (h : call.capability.codes ≠ []) :
    A2a.toCanonicalCall R fresh' (A2a.fromCanonicalCall fresh call) =
      .ok ⟨call.capability, call.arguments, some (A2a.textOf call), R.str (.str call.callId),
        .a2a⟩ := by
  have hmessage := A2a.scanMessage_fromCanonicalCall fresh h (A2a.textOf call)
  simp only [CanonicalCall.envelope] at hmessage
  simp [A2a.toCanonicalCall, A2a.fromCanonicalCall, A2a.messages, A2a.taskOf, requireMapping,
    find_object_cons, h, hmessage, canonicalCall, require, bind, Except.bind, pure,
    Except.pure]

theorem Acp.scanPart_json (hinverts : R.Inverts call) (scan : Scan) :
    Acp.scanPart R scan (.object [("content_type", .text "application/json"),
      ("content", .str (R.dumps call.envelope))]) =
      .ok { scan with capability := .str call.capability, arguments := .dict call.arguments } := by
  have hdict : call.envelope.isDict = true := rfl
  have hread : scan.read call.envelope =
      { scan with capability := .str call.capability, arguments := .dict call.arguments } := by
    simp [Scan.read, CanonicalCall.envelope, find_object_cons]
  simp [Acp.scanPart, get_object, find_object_cons, Runtime.loadsValue, hinverts.envelope, hdict,
    hread, bind, Except.bind, pure, Except.pure]

theorem Acp.scanPart_prose (capability arguments : Value) (s : PyString) :
    Acp.scanPart R ⟨capability, arguments, .null⟩ (.object [("content_type", .text "text/plain"),
      ("content", .str s)]) = .ok ⟨capability, arguments, .str s⟩ := by
  have hprose : Acp.startsWithText (.text "text/plain") = .ok true := rfl
  simp [Acp.scanPart, get_object, find_object_cons, hprose, bind, Except.bind, pure, Except.pure]

theorem Acp.toCanonicalCall_run (name : Value) (parts : List Value) :
    Acp.toCanonicalCall R fresh (.object [("agent_name", name),
      ("input", .list [.object [("role", .text "user"), ("parts", .list parts)]])]) =
      parts.foldlM (Acp.scanPart R) { capability := name } >>= fun scan =>
        canonicalCall scan.capability scan.arguments scan.text fresh.callId .acp := by
  have hmessage : ∀ scan : Scan, Acp.scanMessage R scan
      (.object [("role", .text "user"), ("parts", .list parts)]) =
        parts.foldlM (Acp.scanPart R) scan := by
    intro scan
    simp [Acp.scanMessage, Acp.iterParts, iterate, find_object_cons, bind, Except.bind]
  simp [Acp.toCanonicalCall, Acp.messagesOf, iterate, requireMapping, find_object_cons, hmessage,
    require, Except.ok_bind]

theorem Acp.toCanonicalCall_fromCanonicalCall (fresh : Fresh) (hinverts : R.Inverts call) :
    Acp.toCanonicalCall R fresh (Acp.fromCanonicalCall R call) =
      .ok ⟨call.capability, call.arguments, call.prose, fresh.callId, .acp⟩ := by
  simp only [Acp.fromCanonicalCall, Acp.toCanonicalCall_run, List.foldlM_cons,
    Acp.scanPart_json hinverts, CanonicalCall.prose]
  cases call.text with
  | none => rfl
  | some text =>
    by_cases hempty : text.codes.isEmpty
    · simp [hempty, Option.filter_some, canonicalCall, bind, Except.bind, pure, Except.pure]
    · simp [hempty, Option.filter_some, Acp.scanPart_prose, canonicalCall, bind, Except.bind, pure,
        Except.pure]

theorem Openai.toCanonicalCall_fromCanonicalCall (hinverts : R.Inverts call) :
    Openai.toCanonicalCall R fresh (Openai.fromCanonicalCall R call) =
      .ok ⟨call.capability, call.arguments, none,
        if (Value.str call.callId).isTruthy then R.str (.str call.callId) else fresh.callId,
        .openai⟩ := by
  have hfn : ∀ items : List (String × Value), items ≠ [] →
      (Value.object items).or .empty = .object items := by
    intro items hitems
    refine or_of_isTruthy ?_
    simpa [isTruthy, Value.object] using hitems
  simp [Openai.toCanonicalCall, Openai.fromCanonicalCall, Openai.argumentsOf, requireMapping,
    find_object_cons, get_object, hfn, hinverts.arguments, canonicalCall, require, bind, Except.bind]

theorem Gemini.toCanonicalCall_fromCanonicalCall :
    Gemini.toCanonicalCall R fresh (Gemini.fromCanonicalCall call) =
      .ok ⟨call.capability, call.arguments, none, fresh.callId, .gemini⟩ := by
  have harguments : (Value.dict call.arguments).or .empty = .dict call.arguments := by
    cases hargs : call.arguments with
    | nil => rfl
    | cons item items => rfl
  simp [Gemini.toCanonicalCall, Gemini.fromCanonicalCall, requireMapping, find_object_cons,
    isTruthy, harguments, canonicalCall, require, bind, Except.bind]

theorem Agntcy.toCanonicalCall_fromCanonicalCall (hinverts : R.Inverts call) :
    Agntcy.toCanonicalCall R fresh (Agntcy.fromCanonicalCall R call) =
      .ok ⟨call.capability, call.arguments, none, fresh.callId, .agntcy⟩ := by
  have hname : (call.envelope.find "name").isSome = true := by
    simp [CanonicalCall.envelope, find_object_cons]
  have hread : ∀ scan : Scan, scan.read call.envelope =
      { scan with capability := .str call.capability, arguments := .dict call.arguments } := by
    intro scan
    simp [Scan.read, CanonicalCall.envelope, find_object_cons]
  have htext : ∀ items, Agntcy.textOf (.object items) =
      ((Value.object items).find "text").getD (.text "") := fun _ => rfl
  simp [Agntcy.toCanonicalCall, Agntcy.fromCanonicalCall, Agntcy.messages, Agntcy.scanMessage,
    htext, iterate, requireMapping, find_object_cons, get_object, Runtime.loadsValue,
    hinverts.envelope, hname, hread, canonicalCall, require, bind, Except.bind, pure, Except.pure]

/-- Every adapter reads back the action that it has written. -/
theorem toCanonicalCall_fromCanonicalCall (p : Protocol) (fresh fresh' : Fresh)
    (h : call.capability.codes ≠ []) (hinverts : R.Inverts call) :
    ∃ call', p.toCanonicalCall R fresh' (p.fromCanonicalCall R fresh call) = .ok call' ∧
      call'.action = call.action := by
  cases p with
  | mcp => exact ⟨_, Mcp.toCanonicalCall_fromCanonicalCall, rfl⟩
  | a2a => exact ⟨_, A2a.toCanonicalCall_fromCanonicalCall h, rfl⟩
  | acp => exact ⟨_, Acp.toCanonicalCall_fromCanonicalCall fresh' hinverts, rfl⟩
  | openai => exact ⟨_, Openai.toCanonicalCall_fromCanonicalCall hinverts, rfl⟩
  | gemini => exact ⟨_, Gemini.toCanonicalCall_fromCanonicalCall, rfl⟩
  | agntcy => exact ⟨_, Agntcy.toCanonicalCall_fromCanonicalCall hinverts, rfl⟩

end RoundTrip

/-! ### Chains -/

/-- A translation of a chain. -/
structure Hop where
  dst : Protocol
  fresh : Fresh

section Chain

variable {R : Runtime}

/-- Translate along a chain of protocols. The result comes with its protocol. -/
def translateChain (R : Runtime) (src : Protocol) (wire : Value) :
    List Hop → Except Raised (Protocol × Value)
  | [] => .ok (src, wire)
  | hop :: hops => do
    let wire ← translateCall R hop.fresh wire src hop.dst
    translateChain R hop.dst wire hops

/-- The request has this action, whenever it is read. -/
def Reads (R : Runtime) (p : Protocol) (wire : Value) (call : CanonicalCall) : Prop :=
  ∀ fresh, ∃ call', p.toCanonicalCall R fresh wire = .ok call' ∧ call'.action = call.action

variable {call : CanonicalCall}

theorem Reads.of_eq_ok {p : Protocol} {wire : Value} {fresh : Fresh}
    (h : p.toCanonicalCall R fresh wire = .ok call) : Reads R p wire call := by
  intro fresh'
  have haction := toCanonicalCall_action (R := R) p fresh fresh' wire
  rw [h] at haction
  cases h' : p.toCanonicalCall R fresh' wire with
  | error e =>
    rw [h'] at haction
    cases haction
  | ok call' =>
    rw [h'] at haction
    exact ⟨call', rfl, (Except.ok.inj haction).symm⟩

/-- Calls of one action are written with the same values. -/
theorem Runtime.Inverts.congr {call' : CanonicalCall} (h : R.Inverts call)
    (haction : call'.action = call.action) : R.Inverts call' := by
  obtain ⟨hcapability, harguments⟩ := Prod.ext_iff.mp haction
  have hcapability : call'.capability = call.capability := hcapability
  have harguments : call'.arguments = call.arguments := harguments
  constructor
  · rw [harguments]
    exact h.arguments
  · rw [CanonicalCall.envelope, hcapability, harguments]
    exact h.envelope

/-- One translation. -/
theorem Reads.translateCall {src : Protocol} {wire : Value} (h : Reads R src wire call)
    (hcapability : call.capability.codes ≠ []) (hinverts : R.Inverts call) (fresh : Fresh)
    (dst : Protocol) :
    ∃ wire', Protocols.translateCall R fresh wire src dst = .ok wire' ∧ Reads R dst wire' call := by
  obtain ⟨call', hread, haction⟩ := h fresh
  have hcapability' : call'.capability.codes ≠ [] := by
    have : call'.capability = call.capability := congrArg Prod.fst haction
    rwa [this]
  refine ⟨dst.fromCanonicalCall R fresh call', ?_, fun fresh' => ?_⟩
  · rw [Protocols.translateCall, hread, Except.ok_bind]
    simp [CanonicalCall.isRoutable, hcapability', require, Except.ok_bind, pure, Except.pure]
  · obtain ⟨call'', hread', haction'⟩ := toCanonicalCall_fromCanonicalCall dst fresh fresh'
      hcapability' (hinverts.congr haction)
    exact ⟨call'', hread', haction'.trans haction⟩

/-- **A chain of translations does not fail and keeps the action**: for every source protocol, every
request with a capability and every chain, the last request has the capability and the arguments of
the first one, if `json.loads` inverts `json.dumps` on them. -/
theorem chain_keeps_action (R : Runtime) (src : Protocol) (wire : Value) (fresh : Fresh)
    (call : CanonicalCall) (h : src.toCanonicalCall R fresh wire = .ok call)
    (hcapability : call.capability ≠ .ofString "") (hinverts : R.Inverts call) (hops : List Hop) :
    ∃ last final, translateChain R src wire hops = .ok (last, final) ∧
      last = (hops.map Hop.dst).getLastD src ∧
      ∀ fresh', ∃ call', last.toCanonicalCall R fresh' final = .ok call' ∧
        call'.capability = call.capability ∧ call'.arguments = call.arguments := by
  have hcodes : call.capability.codes ≠ [] := fun hnil => hcapability (PyString.ext hnil)
  suffices hchain : ∀ src wire, Reads R src wire call → ∃ last final,
      translateChain R src wire hops = .ok (last, final) ∧
        last = (hops.map Hop.dst).getLastD src ∧ Reads R last final call by
    obtain ⟨last, final, heq, hlast, hreads⟩ := hchain src wire (.of_eq_ok h)
    refine ⟨last, final, heq, hlast, fun fresh' => ?_⟩
    obtain ⟨call', hread, haction⟩ := hreads fresh'
    exact ⟨call', hread, congrArg Prod.fst haction, congrArg Prod.snd haction⟩
  clear h
  -- the request that is left to translate has the action of the first one
  induction hops with
  | nil =>
    intro src wire hreads
    exact ⟨src, wire, rfl, rfl, hreads⟩
  | cons hop hops ih =>
    intro src wire hreads
    obtain ⟨wire', htranslate, hreads'⟩ := hreads.translateCall hcodes hinverts hop.fresh hop.dst
    obtain ⟨last, final, heq, hlast, hreads''⟩ := ih hop.dst wire' hreads'
    refine ⟨last, final, ?_, ?_, hreads''⟩
    · rw [translateChain, htranslate, Except.ok_bind, heq]
    · rw [hlast, List.map_cons, List.getLastD_cons]

end Chain

/-! ### A sample chain -/

def sampleFresh : Fresh := ⟨.ofString "call_1", .ofString "ctx_1", .ofString "msg_1"⟩

def sampleCall : CanonicalCall where
  capability := .ofString "add"
  arguments := [(.ofString "a", .int 2), (.ofString "b", .int 3)]
  text := none
  callId := .ofString "call_1"
  sourceProtocol := .mcp

/-- `json.dumps` of the arguments of the sample. -/
def argumentsText : String := "\x7b\"a\": 2, \"b\": 3\x7d"

/-- `json.dumps` of its envelope. -/
def envelopeText : String :=
  "\x7b\"name\": \"add\", \"arguments\": \x7b\"a\": 2, \"b\": 3\x7d\x7d"

/-- The texts of the values of the sample, as `json.dumps` writes and `json.loads` reads them. -/
def sampleRuntime : Runtime where
  dumps v := .ofString (if (v.find "name").isSome then envelopeText else argumentsText)
  loads s :=
    if s = .ofString envelopeText then some sampleCall.envelope
    else if s = .ofString argumentsText then some (.dict sampleCall.arguments)
    else if s = .ofString "\x7b\x7d" then some .empty
    else none
  str
    | .str s => s
    | _ => .ofString ""

/-- Through every protocol, and back to the first one. -/
theorem sample_chain_keeps_action :
    ∃ last final, translateChain sampleRuntime .mcp (Mcp.fromCanonicalCall sampleCall)
        [⟨.a2a, sampleFresh⟩, ⟨.acp, sampleFresh⟩, ⟨.openai, sampleFresh⟩, ⟨.gemini, sampleFresh⟩,
          ⟨.agntcy, sampleFresh⟩, ⟨.mcp, sampleFresh⟩] = .ok (last, final) ∧
      last = .mcp ∧
      ∀ fresh', ∃ call', last.toCanonicalCall sampleRuntime fresh' final = .ok call' ∧
        call'.capability = .ofString "add" ∧ call'.arguments = sampleCall.arguments := by
  have hread : Protocol.mcp.toCanonicalCall sampleRuntime sampleFresh
      (Mcp.fromCanonicalCall sampleCall) = .ok sampleCall :=
    Mcp.toCanonicalCall_fromCanonicalCall
  exact chain_keeps_action sampleRuntime .mcp _ sampleFresh sampleCall hread (by decide)
    ⟨rfl, rfl⟩ _

end AgentBridge.Protocols
