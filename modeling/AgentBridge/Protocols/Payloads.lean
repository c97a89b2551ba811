import AgentBridge.Protocols.Envelopes

/-!
# Malformed arguments

Arguments arrive as an object or as a JSON text, at a different depth in each protocol. Only the
constructor of a call checks that they are an object, and it sees them after defaults were applied:
a text that is not JSON becomes the empty object in the OpenAI adapter, a value that is false
becomes the empty object in the OpenAI and in the Gemini adapter, and the ACP adapter passes over
a JSON part that it cannot read.

* `isOk_iff_readable` : **when a call is returned, exactly**.
* `malformed_payload_raises` : **malformed arguments raise an error**, unless the adapter is silent
  about them or later ones take their place.
-/

namespace AgentBridge.Protocols

open Value Except List

/-- Arguments in a request: a value, or what `json.loads` is called with. -/
inductive Payload
  | value (v : Value)
  | json (v : Value)

/-- The arguments are there, and are not an object. -/
def Payload.isMalformed (R : Runtime) : Payload → Bool
  | .value v => !(v.isNone || v.isDict)
  | .json v => !(R.loadsValue v).any (·.isDict)

/-- `isinstance(raw_args, str)` tells a JSON text from a value. -/
def Payload.ofRaw : Value → Payload
  | .str s => .json (.str s)
  | raw => .value raw

def Acp.payloadsOf (R : Runtime) (part : Value) : List Payload :=
  (Acp.jsonOf part).toList.map .json ++
    ((Acp.dataOf R part).bind (·.find "arguments")).toList.map .value

/-- The arguments in a request, in the order in which they are taken: a later one takes the place of
an earlier one. -/
def Protocol.payloads (R : Runtime) (p : Protocol) (wire : Value) : List Payload :=
  match p with
  | .mcp =>
    let params := (wire.find "params").getD .empty
    ((params.find "input").toList ++ (params.find "arguments").toList).map .value
  | .openai => (((wire.find "function").getD .empty).find "arguments").toList.map .ofRaw
  | .gemini => (wire.find "args").toList.map .value
  | .acp => (Acp.partsOf wire).flatMap (Acp.payloadsOf R)
  | .a2a | .agntcy => ((p.envelopes R wire).filterMap (·.find "arguments")).map .value

/-- The arguments of a request without any. -/
def Protocol.noArguments (R : Runtime) : Protocol → Value
  | .openai => Openai.argumentsOf R (.text "\x7b\x7d")
  | _ => .empty

/-- What an adapter makes of arguments. -/
def Protocol.heard (R : Runtime) (p : Protocol) : Payload → Option Value
  | .json v =>
    match p with
    | .openai => some ((R.loadsValue v).getD .empty)
    -- the object in the part is read, not the part
    | _ => none
  | .value v =>
    match p with
    | .mcp => some (if v.isNone then .empty else v)
    | .openai | .gemini => some (v.or .empty)
    | .a2a | .acp | .agntcy => some v

/-- The adapter replaces malformed arguments by nothing, or passes over them. -/
def Protocol.isSilent (R : Runtime) (p : Protocol) : Payload → Bool
  | .json v =>
    match p with
    | .openai => (R.loadsValue v).isNone
    | _ => true
  | .value v =>
    match p with
    | .openai | .gemini => !v.isTruthy
    | .mcp | .a2a | .acp | .agntcy => false

section Heard

variable {R : Runtime} {fresh : Fresh} {wire : Value} {call : CanonicalCall} {p : Protocol}
  {payload : Payload}

/-- Malformed arguments that an adapter is not silent about are not taken for an object. -/
theorem heard_of_isMalformed (hmalformed : payload.isMalformed R = true)
    (hloud : p.isSilent R payload = false) :
    ∃ v, p.heard R payload = some v ∧ v.isDict = false := by
  cases payload with
  | json v =>
    cases p with
    | mcp | a2a | acp | gemini | agntcy => cases hloud
    | openai =>
      obtain ⟨data, hdata⟩ := Option.ne_none_iff_exists'.mp (Option.isNone_eq_false_iff.mp hloud |>
        Option.isSome_iff_ne_none.mp)
      refine ⟨data, by rw [Protocol.heard, hdata, Option.getD_some], ?_⟩
      simpa [Payload.isMalformed, hdata] using hmalformed
  | value v =>
    have hvalue : v.isNone = false ∧ v.isDict = false := by
      simpa [Payload.isMalformed] using hmalformed
    cases p with
    | mcp => exact ⟨v, by rw [Protocol.heard, hvalue.1]; rfl, hvalue.2⟩
    | a2a | acp | agntcy => exact ⟨v, rfl, hvalue.2⟩
    | openai | gemini =>
      have htruthy : v.isTruthy = true := by simpa [Protocol.isSilent] using hloud
      exact ⟨v, by rw [Protocol.heard, or_of_isTruthy htruthy], hvalue.2⟩

theorem filterMap_heard_value (hp : p = .a2a ∨ p = .acp ∨ p = .agntcy) (vs : List Value) :
    (vs.map Payload.value).filterMap (p.heard R) = vs := by
  rw [filterMap_map]
  have hheard : p.heard R ∘ Payload.value = some := by
    funext v
    rcases hp with rfl | rfl | rfl <;> rfl
  rw [hheard, filterMap_some]

theorem Acp.filterMap_heard (parts : List Value) :
    (parts.flatMap (Acp.payloadsOf R)).filterMap (Protocol.acp.heard R) =
      parts.filterMap fun part => (Acp.dataOf R part).bind (·.find "arguments") := by
  induction parts with
  | nil => rfl
  | cons part parts ih =>
    rw [flatMap_cons, filterMap_append, ih, Acp.payloadsOf, filterMap_append,
      filterMap_heard_value (.inr (.inl rfl))]
    have hjson : ((Acp.jsonOf part).toList.map Payload.json).filterMap
        (Protocol.acp.heard R) = [] := by
      cases Acp.jsonOf part <;> rfl
    rw [hjson, nil_append]
    rw [filterMap_cons]
    cases (Acp.dataOf R part).bind (·.find "arguments") with
    | none => rfl
    | some arguments => rfl

/-- `value or \x7b\x7d` has the entries of the value. -/
theorem find_or_empty (v : Value) (key : String) : (v.or .empty).find key = v.find key := by
  by_cases htruthy : v.isTruthy = true
  · rw [or_of_isTruthy htruthy]
  · have hempty : v.or .empty = .empty := if_neg htruthy
    rw [hempty]
    cases v with
    | null | bool | int | float | str | list => rfl
    | dict items =>
      have hnil : items = [] := by simpa [isTruthy] using htruthy
      subst hnil
      rfl

/-- The arguments of a call: the last ones that are taken notice of. -/
def Protocol.argumentsIn (R : Runtime) (p : Protocol) (wire : Value) : Value :=
  ((p.payloads R wire).filterMap (p.heard R)).getLastD (p.noArguments R)

/-- The name of a call. -/
def Protocol.nameIn (R : Runtime) (p : Protocol) (wire : Value) : Value :=
  match p with
  | .mcp =>
    let params := (wire.find "params").getD .empty
    (((params.find "name").getD .null).or ((params.find "tool").getD .null)).or (.text "")
  | .openai => (((wire.find "function").getD .empty).find "name").getD (.text "")
  | .gemini => (wire.find "name").getD (.text "")
  | .a2a | .acp | .agntcy => (p.names R wire).getLastD (p.defaultName wire)

/-- The request is well formed, whatever its name, its arguments and its text are. -/
def Protocol.isWellFormed (R : Runtime) (p : Protocol) (wire : Value) : Bool :=
  match p with
  | .mcp => wire.isDict && (wire.find "method").all (·.isText "tools/call") &&
    ((wire.find "params").getD .empty).isDict
  | .openai => wire.isDict && (((wire.find "function").getD .empty).or .empty).isDict
  | .gemini => wire.isDict
  | .a2a => p.isFramed wire && (p.items wire).all p.isItem && (p.names R wire).length ≤ 1
  | .acp | .agntcy => p.isFramed wire && (p.items wire).all p.isItem

/-- A call is returned for the request. -/
structure Readable (R : Runtime) (p : Protocol) (wire : Value) : Prop where
  wellFormed : p.isWellFormed R wire = true
  name : (p.nameIn R wire).isStr = true
  arguments : (p.argumentsIn R wire).isDict = true
  text : (p.textIn R wire).isNone = true ∨ (p.textIn R wire).isStr = true

theorem canonicalCall_isOk {capability arguments text : Value} {callId : PyString} {p : Protocol} :
    (∃ call, canonicalCall capability arguments text callId p = .ok call) ↔
      capability.isStr = true ∧ arguments.isDict = true ∧
        (text.isNone = true ∨ text.isStr = true) := by
  cases capability <;> cases arguments <;> cases text <;>
    simp [canonicalCall, isStr, isDict, isNone]

theorem Mcp.argumentsIn_eq (params : Value) :
    (((params.find "input").toList ++ (params.find "arguments").toList).map
        Payload.value |>.filterMap (Protocol.mcp.heard R)).getLastD .empty =
      if ((params.find "arguments").getD ((params.find "input").getD .empty)).isNone then .empty
      else (params.find "arguments").getD ((params.find "input").getD .empty) := by
  -- `arguments` takes the place of `input`
  cases params.find "arguments" with
  | some arguments => simp [Protocol.heard]
  | none =>
    cases params.find "input" with
    | some input => simp [Protocol.heard]
    | none => rfl

theorem Openai.argumentsIn_eq (raw : Option Value) :
    ((raw.toList.map Payload.ofRaw).filterMap (Protocol.openai.heard R)).getLastD
        (Protocol.openai.noArguments R) = Openai.argumentsOf R (raw.getD (.text "\x7b\x7d")) := by
  cases raw with
  | none => rfl
  | some raw => cases raw <;> rfl

/-- The arguments of the protocols with messages are the last ones in an envelope. -/
theorem argumentsIn_of_isMessaging (hp : p.isMessaging = true) : p.argumentsIn R wire =
    ((p.envelopes R wire).filterMap (·.find "arguments")).getLastD .empty := by
  cases p with
  | mcp | openai | gemini => cases hp
  | a2a => rw [Protocol.argumentsIn, Protocol.payloads, filterMap_heard_value (.inl rfl)]; rfl
  | acp =>
    rw [Protocol.argumentsIn, Protocol.payloads, Acp.filterMap_heard, Protocol.envelopes,
      filterMap_filterMap]
    rfl
  | agntcy =>
    rw [Protocol.argumentsIn, Protocol.payloads, filterMap_heard_value (.inr (.inr rfl))]; rfl

/-- A loop gets through a well-formed request, and then the constructor decides. -/
theorem isOk_of_isMessaging (hp : p.isMessaging = true) :
    (∃ call, p.toCanonicalCall R fresh wire = .ok call) ↔
      (p.isFramed wire = true ∧ (∀ item ∈ p.items wire, p.isItem item = true) ∧
        (p = .a2a → (p.names R wire).length ≤ 1)) ∧
      ∃ call, canonicalCall ((p.names R wire).getLastD (p.defaultName wire)) (p.argumentsIn R wire)
        (p.textIn R wire) (p.callIdOf R fresh wire) p = .ok call := by
  have hloop := foldlM_scanItem_isOk (R := R) hp (p.items wire)
    { capability := p.defaultName wire }
  have hnames : p.names R wire = (p.items wire).filterMap (p.nameOf R) := by
    rw [Protocol.names, Protocol.envelopes, filterMap_filterMap]
    rfl
  simp only [toCanonicalCall_eq_ok hp, argumentsIn_of_isMessaging hp]
  constructor
  · rintro ⟨call, hframed, scan, hscan, hcall⟩
    obtain ⟨hitems, hcount⟩ := hloop.mp ⟨scan, hscan⟩
    rw [foldlM_scanItem_eq_ok hp hscan] at hcall
    refine ⟨⟨hframed, hitems, ?_⟩, call, hcall⟩
    rintro rfl
    rw [hnames]
    exact hcount rfl
  · rintro ⟨⟨hframed, hitems, hcount⟩, call, hcall⟩
    obtain ⟨scan, hscan⟩ := hloop.mpr ⟨hitems, by rintro rfl; exact hnames ▸ hcount rfl⟩
    refine ⟨call, hframed, scan, hscan, ?_⟩
    rw [foldlM_scanItem_eq_ok hp hscan]
    exact hcall

/-- **When a call is returned, exactly**: the request is well formed, the name is a string, the
arguments that are heard last are an object, and the text is a string if there is one. -/
theorem isOk_iff_readable (fresh : Fresh) :
    (∃ call, p.toCanonicalCall R fresh wire = .ok call) ↔ Readable R p wire := by
  have hreadable : Readable R p wire ↔ p.isWellFormed R wire = true ∧
      ∃ call, canonicalCall (p.nameIn R wire) (p.argumentsIn R wire) (p.textIn R wire)
        (p.callIdOf R fresh wire) p = .ok call := by
    rw [canonicalCall_isOk]
    exact ⟨fun h => ⟨h.1, h.2, h.3, h.4⟩, fun h => ⟨h.1, h.2.1, h.2.2.1, h.2.2.2⟩⟩
  rw [hreadable]
  cases p with
  | mcp =>
    simp only [Protocol.toCanonicalCall, Mcp.toCanonicalCall, requireMapping, bind_eq_ok,
      require_eq_ok, exists_const, Protocol.isWellFormed, Bool.and_eq_true, and_assoc,
      exists_and_left, Protocol.argumentsIn, Protocol.payloads, Protocol.noArguments,
      Mcp.argumentsIn_eq]
    rfl
  | openai =>
    simp only [Protocol.toCanonicalCall, Openai.toCanonicalCall, requireMapping, Value.get,
      bind_eq_ok, pure_eq_ok, require_eq_ok, exists_const, Protocol.isWellFormed,
      Bool.and_eq_true, and_assoc, exists_and_left, exists_eq_left', Protocol.argumentsIn,
      Protocol.payloads, Openai.argumentsIn_eq, find_or_empty, and_self_left]
    rfl
  | gemini =>
    simp only [Protocol.toCanonicalCall, Gemini.toCanonicalCall, requireMapping, bind_eq_ok,
      require_eq_ok, exists_const, Protocol.isWellFormed, exists_and_left, Protocol.argumentsIn,
      Protocol.payloads, Protocol.noArguments]
    cases wire.find "args" <;> rfl
  | a2a | acp | agntcy =>
    rw [isOk_of_isMessaging rfl]
    simp [Protocol.isWellFormed, Protocol.nameIn, and_assoc]

end Heard

/-- **Malformed arguments raise an error**, for every adapter and every request, exactly if the
request is not readable for another reason, or the arguments that are heard last are no object.
The latter is so if malformed arguments are in it, the adapter is not silent about them and it takes
no notice of later ones. -/
theorem malformed_payload_raises (R : Runtime) (p : Protocol) (fresh : Fresh) (wire : Value) :
    ((∃ e, p.toCanonicalCall R fresh wire = .error e) ↔ ¬Readable R p wire) ∧
    ∀ before payload after, p.payloads R wire = before ++ payload :: after →
      payload.isMalformed R = true → p.isSilent R payload = false →
      (∀ other ∈ after, p.heard R other = none) →
      ∃ e, p.toCanonicalCall R fresh wire = .error e := by
  have hexact : (∃ e, p.toCanonicalCall R fresh wire = .error e) ↔ ¬Readable R p wire := by
    rw [← isOk_iff_readable fresh]
    cases p.toCanonicalCall R fresh wire with
    | error e => simp
    | ok call => simp
  refine ⟨hexact, fun before payload after hpayloads hmalformed hloud hafter => ?_⟩
  obtain ⟨v, hheard, hdict⟩ := heard_of_isMalformed hmalformed hloud
  have hlast : p.argumentsIn R wire = v := by
    rw [Protocol.argumentsIn, hpayloads, filterMap_append, filterMap_cons_some hheard,
      filterMap_eq_nil_iff.mpr hafter, getLastD_concat]
  refine hexact.mpr fun hreadable => ?_
  -- the arguments of a call are an object
  rw [← hlast, hreadable.arguments] at hdict
  cases hdict

/-- An MCP request with a number for its arguments, and two A2A parts of which the second one is in
order: both are refused. -/
theorem malformed_payload_raises_sample :
    (∃ e, Mcp.toCanonicalCall sampleRuntime sampleFresh
      (.object [("params", .object [("name", .text "add"), ("arguments", .int 5)])]) = .error e) ∧
    ∃ e, A2a.toCanonicalCall sampleRuntime sampleFresh (taskWith
      [.object [("name", .text "a"), ("arguments", .int 5)],
        .object [("name", .text "b"), ("arguments", .empty)]]) = .error e := by
  refine ⟨(malformed_payload_raises sampleRuntime .mcp sampleFresh _).2 [] (.value (.int 5)) [] rfl
    rfl rfl nofun, (malformed_payload_raises sampleRuntime .a2a sampleFresh _).1.mpr fun h => ?_⟩
  exact absurd h.wellFormed (by decide)

/-- A function call whose arguments are not JSON, a JSON part that is not JSON, an empty list for
the arguments, and arguments that are given twice: each one is read as a call. -/
theorem silenced_payloads :
    (Payload.json (.text "bad")).isMalformed sampleRuntime = true ∧
    (∃ call, Openai.toCanonicalCall sampleRuntime sampleFresh (.object [("function",
        .object [("name", .text "add"), ("arguments", .text "bad")])]) = .ok call ∧
      call.capability = .ofString "add" ∧ call.arguments = []) ∧
    (∃ call, Acp.toCanonicalCall sampleRuntime sampleFresh (.object [("agent_name", .text "add"),
        ("parts", .list [.object [("content_type", .text "application/json"),
          ("content", .text "bad")]])]) = .ok call ∧
      call.capability = .ofString "add" ∧ call.arguments = []) ∧
    (∃ call, Gemini.toCanonicalCall sampleRuntime sampleFresh
        (.object [("name", .text "add"), ("args", .list [])]) = .ok call ∧
      call.capability = .ofString "add" ∧ call.arguments = []) ∧
    (∃ call, A2a.toCanonicalCall sampleRuntime sampleFresh (taskWith
        [.object [("name", .text "add"), ("arguments", .int 5)],
          .object [("arguments", .empty)]]) = .ok call ∧
      call.capability = .ofString "add" ∧ call.arguments = []) :=
  ⟨rfl, ⟨_, rfl, rfl, rfl⟩, ⟨_, rfl, rfl, rfl⟩, ⟨_, rfl, rfl, rfl⟩, ⟨_, rfl, rfl, rfl⟩⟩

end AgentBridge.Protocols
