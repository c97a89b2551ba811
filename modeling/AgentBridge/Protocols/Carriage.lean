import AgentBridge.Protocols.Chain

/-!
# What a destination carries

`translate_call` refuses a request without a capability, a text and arguments, so that no empty
call is forwarded. It asks this of the call that it has read; what it forwards is what the
destination's adapter writes. Four of the adapters write no text, and the A2A adapter writes no
arguments where there is no capability: a call that has only a text, or only arguments, can leave
the registry empty.

* `delivered_iff_carries` : **an accepted request is delivered iff the destination carries it**.
-/

namespace AgentBridge.Protocols

open Value Option

/-- What is left of a call in the request that an adapter writes: its capability, its arguments and
its text. -/
def Protocol.kept (dst : Protocol) (call : CanonicalCall) :
    PyString × List (PyString × Value) × Option PyString :=
  match dst with
  | .a2a => (call.capability, if call.capability.codes.isEmpty then [] else call.arguments,
      some (A2a.textOf call))
  | .acp => (call.capability, call.arguments, call.prose)
  | .mcp | .openai | .gemini | .agntcy => (call.capability, call.arguments, none)

/-- What is read back of a call. -/
def CanonicalCall.content (call : CanonicalCall) :
    PyString × List (PyString × Value) × Option PyString :=
  (call.capability, call.arguments, call.text)

section Kept

variable {R : Runtime} {fresh fresh' : Fresh} {call : CanonicalCall}

theorem A2a.toCanonicalCall_fromCanonicalCall_nil (h : call.capability.codes = []) :
    A2a.toCanonicalCall R fresh' (A2a.fromCanonicalCall fresh call) =
      .ok ⟨.ofString "", [], some (A2a.textOf call), R.str (.str call.callId), .a2a⟩ := by
  have hmessage : A2a.scanMessage {} (.object [("kind", .text "message"),
      ("messageId", .str fresh.messageId), ("role", .text "agent"), ("parts", .list [
        .object [("kind", .text "text"), ("text", .str (A2a.textOf call))]])]) =
      .ok { text := .str (A2a.textOf call) } := by
    simp [A2a.scanMessage, A2a.scanPart_text, requireMapping, find_object_cons, require, bind,
      Except.bind, pure, Except.pure]
  have hcall : ∀ callId, canonicalCall (.text "") .empty (.str (A2a.textOf call)) callId .a2a =
      .ok ⟨.ofString "", [], some (A2a.textOf call), callId, .a2a⟩ := fun _ => rfl
  simp [A2a.toCanonicalCall, A2a.fromCanonicalCall, A2a.messages, A2a.taskOf, requireMapping,
    find_object_cons, h, hmessage, hcall, require, bind, Except.bind, pure, Except.pure]

/-- Every adapter reads back `kept` of what it writes. -/
theorem toCanonicalCall_kept (dst : Protocol) (fresh fresh' : Fresh) (hinverts : R.Inverts call) :
    ∃ call', dst.toCanonicalCall R fresh' (dst.fromCanonicalCall R fresh call) = .ok call' ∧
      call'.content = dst.kept call := by
  cases dst with
  | mcp => exact ⟨_, Mcp.toCanonicalCall_fromCanonicalCall, rfl⟩
  | a2a =>
    -- the data part is written for a call with a capability only
    by_cases h : call.capability.codes = []
    · have hcapability : PyString.ofString "" = call.capability := PyString.ext h.symm
      refine ⟨_, A2a.toCanonicalCall_fromCanonicalCall_nil h, ?_⟩
      simp [CanonicalCall.content, Protocol.kept, h, hcapability]
    · refine ⟨_, A2a.toCanonicalCall_fromCanonicalCall h, ?_⟩
      simp [CanonicalCall.content, Protocol.kept, h]
  | acp => exact ⟨_, Acp.toCanonicalCall_fromCanonicalCall fresh' hinverts, rfl⟩
  | openai => exact ⟨_, Openai.toCanonicalCall_fromCanonicalCall hinverts, rfl⟩
  | gemini => exact ⟨_, Gemini.toCanonicalCall_fromCanonicalCall, rfl⟩
  | agntcy => exact ⟨_, Agntcy.toCanonicalCall_fromCanonicalCall hinverts, rfl⟩

end Kept

/-! ### Delivery -/

/-- The call that is read at the destination is not empty, has the arguments of the source and,
where there is no capability, its text. -/
structure Delivered (call call' : CanonicalCall) : Prop where
  routable : call'.isRoutable = true
  arguments : call'.arguments = call.arguments
  text : call.capability.codes = [] → call'.prose = call.prose

/-- The destination has a place for what the call is routed by. -/
def Protocol.carries (dst : Protocol) (call : CanonicalCall) : Bool :=
  !call.capability.codes.isEmpty || match dst with
    | .acp => true
    -- a text part, and no data part
    | .a2a => call.arguments.isEmpty
    -- arguments, and no text
    | .mcp | .openai | .gemini | .agntcy => call.prose.isNone

section Delivery

variable {R : Runtime} {dst : Protocol} {call call' : CanonicalCall}

theorem isRoutable_eq (call : CanonicalCall) : call.isRoutable =
    (!call.capability.codes.isEmpty || call.prose.isSome || !call.arguments.isEmpty) := by
  have hprose : call.prose.isSome = call.text.any fun text => !text.codes.isEmpty := by
    rw [CanonicalCall.prose]
    cases call.text with
    | none => rfl
    | some text =>
      by_cases hempty : text.codes.isEmpty <;> simp [filter_some, hempty]
  rw [hprose, CanonicalCall.isRoutable]

theorem A2a.textOf_of_prose {text : PyString} (h : call.prose = some text) :
    A2a.textOf call = text := by
  rw [CanonicalCall.prose, filter_eq_some_iff] at h
  obtain ⟨htext, hempty⟩ := h
  have hcodes : ¬ text.codes.isEmpty = true := by simpa using hempty
  simp only [A2a.textOf, htext, if_neg hcodes]

theorem prose_eq_of_text_eq (h : call'.text = call.prose) : call'.prose = call.prose := by
  rw [CanonicalCall.prose, h, CanonicalCall.prose, filter_filter]
  simp

/-- With a capability, everything that is asked for is kept. -/
theorem Delivered.of_capability (h : call.capability.codes ≠ [])
    (hkept : call'.content = dst.kept call) : Delivered call call' := by
  have haction : call'.capability = call.capability ∧ call'.arguments = call.arguments := by
    simp only [CanonicalCall.content, Prod.ext_iff] at hkept
    obtain ⟨hcapability, harguments, -⟩ := hkept
    cases dst <;> simp_all [Protocol.kept]
  refine ⟨?_, haction.2, fun hnil => absurd hnil h⟩
  rw [isRoutable_eq, haction.1]
  simp [h]

/-- The four adapters that write no text deliver arguments only. -/
theorem delivered_iff_prose_eq_none (h : call.capability.codes = [])
    (hroutable : call.isRoutable = true) (hcontent : call'.content = (call.capability,
      call.arguments, none)) : Delivered call call' ↔ call.prose = none := by
  simp only [CanonicalCall.content, Prod.mk.injEq] at hcontent
  obtain ⟨hcapability, harguments, htext⟩ := hcontent
  have hprose : call'.prose = none := by rw [CanonicalCall.prose, htext, filter_none]
  constructor
  · intro hdelivered
    rw [← hdelivered.text h, hprose]
  · intro hnone
    refine ⟨?_, harguments, fun _ => by rw [hprose, hnone]⟩
    rw [isRoutable_eq, hcapability, harguments, hprose]
    rwa [isRoutable_eq, hnone] at hroutable

theorem delivered_iff_arguments_eq_nil (h : call.capability.codes = [])
    (hroutable : call.isRoutable = true) (hcontent : call'.content = (call.capability,
      [], some (A2a.textOf call))) : Delivered call call' ↔ call.arguments = [] := by
  simp only [CanonicalCall.content, Prod.mk.injEq] at hcontent
  obtain ⟨hcapability, harguments, htext⟩ := hcontent
  constructor
  · intro hdelivered
    rw [← hdelivered.arguments, harguments]
  · intro hnil
    -- an accepted call with nothing else has a text
    have hsome : call.prose.isSome = true := by
      simpa [isRoutable_eq, h, hnil] using hroutable
    obtain ⟨text, hprose⟩ := isSome_iff_exists.mp hsome
    have hprose' : call'.prose = call.prose := by
      refine prose_eq_of_text_eq ?_
      rw [htext, A2a.textOf_of_prose hprose, hprose]
    refine ⟨?_, by rw [harguments, hnil], fun _ => hprose'⟩
    rw [isRoutable_eq, hprose', hsome]
    simp

/-- ACP delivers both. -/
theorem Delivered.of_eq (hroutable : call.isRoutable = true)
    (hcontent : call'.content = (call.capability, call.arguments, call.prose)) :
    Delivered call call' := by
  simp only [CanonicalCall.content, Prod.mk.injEq] at hcontent
  obtain ⟨hcapability, harguments, htext⟩ := hcontent
  have hprose := prose_eq_of_text_eq htext
  refine ⟨?_, harguments, fun _ => hprose⟩
  rw [isRoutable_eq, hcapability, harguments, hprose]
  rwa [isRoutable_eq] at hroutable

theorem delivered_iff (hroutable : call.isRoutable = true)
    (hkept : call'.content = dst.kept call) :
    Delivered call call' ↔ dst.carries call = true := by
  by_cases h : call.capability.codes = []
  · have hempty : call.capability.codes.isEmpty = true := by simp [h]
    cases dst with
    | acp => exact iff_of_true (.of_eq hroutable hkept) (by simp [Protocol.carries])
    | a2a =>
      simp only [Protocol.kept, if_pos hempty] at hkept
      rw [delivered_iff_arguments_eq_nil h hroutable hkept]
      simp [Protocol.carries, h]
    | mcp | openai | gemini | agntcy =>
      rw [delivered_iff_prose_eq_none h hroutable hkept]
      simp [Protocol.carries, h]
  · refine iff_of_true (.of_capability h hkept) ?_
    simp [Protocol.carries, h]

end Delivery

section Translation

variable {R : Runtime} {fresh : Fresh} {wire wire' : Value} {src dst : Protocol}
  {call : CanonicalCall}

theorem translateCall_eq_ok (hread : src.toCanonicalCall R fresh wire = .ok call) :
    translateCall R fresh wire src dst = .ok wire' ↔
      call.isRoutable = true ∧ wire' = dst.fromCanonicalCall R fresh call := by
  rw [translateCall, hread, Except.ok_bind]
  simp only [Except.bind_eq_ok, require_eq_ok, Except.pure_eq_ok]
  constructor
  · rintro ⟨-, hroutable, rfl⟩
    exact ⟨hroutable, rfl⟩
  · rintro ⟨hroutable, rfl⟩
    exact ⟨(), hroutable, rfl⟩

/-- **An accepted request is delivered iff the destination carries it**: for every pair of protocols
and every request that `translate_call` accepts, what the destination reads is not empty, has the
arguments of the source and, without a capability, its text, exactly if the call has a capability,
or the destination is ACP, or it is A2A and there are no arguments, or it is one of the others and
there is no text. `json.loads` has to invert `json.dumps` on the call. -/
theorem delivered_iff_carries (R : Runtime) (src dst : Protocol) (wire wire' : Value)
    (fresh : Fresh) (call : CanonicalCall)
    (hread : src.toCanonicalCall R fresh wire = .ok call) (hinverts : R.Inverts call)
    (haccepted : translateCall R fresh wire src dst = .ok wire') (fresh' : Fresh) :
    ∃ call', dst.toCanonicalCall R fresh' wire' = .ok call' ∧
      (Delivered call call' ↔ dst.carries call = true) := by
  obtain ⟨hroutable, rfl⟩ := (translateCall_eq_ok hread).mp haccepted
  obtain ⟨call', hread', hkept⟩ := toCanonicalCall_kept dst fresh fresh' hinverts
  exact ⟨call', hread', delivered_iff hroutable hkept⟩

/-- A call with a capability, from MCP to A2A. -/
theorem delivered_iff_carries_sample : Protocol.a2a.carries sampleCall = true ∧
    ∃ call', A2a.toCanonicalCall sampleRuntime sampleFresh
        (A2a.fromCanonicalCall sampleFresh sampleCall) = .ok call' ∧
      (Delivered sampleCall call' ↔ Protocol.a2a.carries sampleCall = true) := by
  have hread : Protocol.mcp.toCanonicalCall sampleRuntime sampleFresh
      (Mcp.fromCanonicalCall sampleCall) = .ok sampleCall :=
    Mcp.toCanonicalCall_fromCanonicalCall
  have haccepted : translateCall sampleRuntime sampleFresh (Mcp.fromCanonicalCall sampleCall)
      .mcp .a2a = .ok (A2a.fromCanonicalCall sampleFresh sampleCall) :=
    (translateCall_eq_ok hread).mpr ⟨rfl, rfl⟩
  exact ⟨rfl, delivered_iff_carries sampleRuntime .mcp .a2a _ _ sampleFresh sampleCall hread
    ⟨rfl, rfl⟩ haccepted sampleFresh⟩

/-- An A2A request with a text and no data part. -/
def proseRequest : Value :=
  .object [("messages", .list [.object [("parts", .list [
    .object [("kind", .text "text"), ("text", .text "hello")]])]])]

/-- A Gemini request with arguments and no name. -/
def namelessRequest : Value := .object [("args", .dict sampleCall.arguments)]

/-- A text is translated to an MCP request with nothing in it, which the registry itself refuses;
and a Gemini request without a name loses its arguments on the way to A2A. -/
theorem emptied_requests :
    (∃ call wire', A2a.toCanonicalCall sampleRuntime sampleFresh proseRequest = .ok call ∧
      translateCall sampleRuntime sampleFresh proseRequest .a2a .mcp = .ok wire' ∧
      ∃ call', Mcp.toCanonicalCall sampleRuntime sampleFresh wire' = .ok call' ∧
        call.text = some (.ofString "hello") ∧ call'.text = none ∧ call'.isRoutable = false) ∧
    (∃ call wire', Gemini.toCanonicalCall sampleRuntime sampleFresh namelessRequest = .ok call ∧
      translateCall sampleRuntime sampleFresh namelessRequest .gemini .a2a = .ok wire' ∧
      ∃ call', A2a.toCanonicalCall sampleRuntime sampleFresh wire' = .ok call' ∧
        call.arguments = sampleCall.arguments ∧ call'.arguments = []) := by
  refine ⟨?_, ?_⟩
  · have hread : Protocol.a2a.toCanonicalCall sampleRuntime sampleFresh proseRequest =
        .ok ⟨.ofString "", [], some (.ofString "hello"), sampleFresh.callId, .a2a⟩ := rfl
    exact ⟨_, _, hread, (translateCall_eq_ok hread).mpr ⟨rfl, rfl⟩, _,
      Mcp.toCanonicalCall_fromCanonicalCall, rfl, rfl, rfl⟩
  · have hread : Protocol.gemini.toCanonicalCall sampleRuntime sampleFresh namelessRequest =
        .ok ⟨.ofString "", sampleCall.arguments, none, sampleFresh.callId, .gemini⟩ := rfl
    exact ⟨_, _, hread, (translateCall_eq_ok hread).mpr ⟨rfl, rfl⟩, _,
      A2a.toCanonicalCall_fromCanonicalCall_nil rfl, rfl, rfl⟩

end Translation

end AgentBridge.Protocols
