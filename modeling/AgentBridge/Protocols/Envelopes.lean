import AgentBridge.Protocols.Carriage

/-!
# Requests with several parts

A2A, ACP and AGNTCY requests are lists of messages, and A2A and ACP messages are lists of parts.
An action is named in an envelope, which is a data part, a JSON part or the text of a message, and
nothing in the three formats says that there is only one. The adapters keep the last name and the
last arguments that they have met, each on its own; only the A2A adapter refuses a second name. So
the name of one part can be authorized together with the arguments of another one.

* `toCanonicalCall_envelopes` : **what a returned call is made of**: the last name and the last
  arguments.
-/

namespace AgentBridge.Protocols

open Value List
open Except (bind_eq_ok pure_eq_ok)

/-! ### Nested loops with running values -/

section Loops

variable {ε σ α β γ : Type} {step : σ → β → Except ε σ}

/-- A loop over messages, with a loop over the parts of each one, is a loop over all parts. -/
theorem foldlM_flatMap_eq_ok {outer : σ → α → Except ε σ} {items : α → List β} {good : α → Prop}
    (houter : ∀ s a s', outer s a = .ok s' ↔ good a ∧ (items a).foldlM step s = .ok s') :
    ∀ {as : List α} {s s' : σ}, as.foldlM outer s = .ok s' ↔
      (∀ a ∈ as, good a) ∧ (as.flatMap items).foldlM step s = .ok s' := by
  intro as
  induction as with
  | nil => simp
  | cons a as ih =>
    intro s s'
    simp only [foldlM_cons, flatMap_cons, foldlM_append, bind_eq_ok, houter, ih, forall_mem_cons]
    constructor
    · rintro ⟨s₁, ⟨hgood, hitems⟩, hrest, htail⟩
      exact ⟨⟨hgood, hrest⟩, s₁, hitems, htail⟩
    · rintro ⟨⟨hgood, hrest⟩, s₁, hitems, htail⟩
      exact ⟨s₁, ⟨hgood, hitems⟩, hrest, htail⟩

/-- A running value that is set once is the first one that was given. -/
theorem findD_of_foldlM (val : σ → Value) (given : β → Option Value)
    (hstep : ∀ s b s', step s b = .ok s' →
      val s' = if (val s).isNone then (given b).getD .null else val s) :
    ∀ {bs : List β} {s s' : σ}, bs.foldlM step s = .ok s' → val s' =
      if (val s).isNone then ((bs.filterMap given).find? (!·.isNone)).getD .null else val s := by
  intro bs
  induction bs with
  | nil =>
    intro s s' h
    cases h
    cases hval : val s <;> rfl
  | cons b bs ih =>
    intro s s' h
    rw [foldlM_cons, bind_eq_ok] at h
    obtain ⟨s₁, hhead, htail⟩ := h
    rw [ih htail, hstep s b s₁ hhead]
    cases hset : (val s).isNone with
    | false => simp [hset]
    | true =>
      cases hgiven : given b with
      | none => simp [hgiven]
      | some v => cases hnone : v.isNone <;> simp [hgiven, hnone]

/-- A running value that every step replaces or keeps is the last one that was given. -/
theorem getLastD_of_foldlM (val : σ → γ) (given : β → Option γ)
    (hstep : ∀ s b s', step s b = .ok s' → val s' = (given b).getD (val s)) :
    ∀ {bs : List β} {s s' : σ}, bs.foldlM step s = .ok s' →
      val s' = (bs.filterMap given).getLastD (val s) := by
  intro bs
  induction bs with
  | nil =>
    intro s s' h
    cases h
    rfl
  | cons b bs ih =>
    intro s s' h
    rw [foldlM_cons, bind_eq_ok] at h
    obtain ⟨s₁, hhead, htail⟩ := h
    rw [ih htail, hstep s b s₁ hhead]
    cases hgiven : given b with
    | none => rw [filterMap_cons_none hgiven, Option.getD_none]
    | some c => rw [filterMap_cons_some hgiven, Option.getD_some, getLastD_cons]

end Loops

/-! ### Envelopes -/

/-- The parts of a message. -/
def A2a.partsIn (msg : Value) : List Value :=
  match (msg.find "parts").getD (.list []) with
  | .list parts => parts
  | _ => []

def A2a.partsOf (wire : Value) : List Value :=
  ((A2a.messages (A2a.taskOf wire)).toOption.getD []).flatMap A2a.partsIn

/-- The object of a data part. -/
def A2a.dataOf (part : Value) : Option Value :=
  if ((part.find "kind").getD .null).isText "data" then some ((part.find "data").getD .empty)
  else none

def Acp.partsOf (wire : Value) : List Value :=
  ((Acp.messagesOf wire).iterate.toOption.getD []).flatMap fun msg =>
    (Acp.iterParts msg).toOption.getD []

def Acp.jsonOf (part : Value) : Option Value :=
  if ((part.find "content_type").getD (.text "")).isText "application/json" then
    some ((part.find "content").getD (.text ""))
  else none

/-- The object of a JSON part. -/
def Acp.dataOf (R : Runtime) (part : Value) : Option Value :=
  ((Acp.jsonOf part).bind R.loadsValue).filter (·.isDict)

/-- The object in the text of a message. -/
def Agntcy.dataOf (R : Runtime) (msg : Value) : Option Value :=
  (R.loadsValue (Agntcy.textOf ((msg.find "content").getD .null))).filter
    fun data => (data.find "name").isSome

def A2a.proseOf (part : Value) : Option Value :=
  if ((part.find "kind").getD .null).isText "text" then some ((part.find "text").getD .null)
  else none

def Acp.proseOf (part : Value) : Option Value :=
  match Acp.startsWithText ((part.find "content_type").getD (.text "")) with
  | .ok true => some ((part.find "content").getD (.text ""))
  | _ => none

/-- The text of a message without an object. -/
def Agntcy.proseOf (R : Runtime) (msg : Value) : Option Value :=
  let raw := Agntcy.textOf ((msg.find "content").getD .null)
  if (Agntcy.dataOf R msg).isNone && raw.isTruthy then some raw else none

/-- The items of the innermost loop: parts, or messages. -/
def Protocol.items (p : Protocol) (wire : Value) : List Value :=
  match p with
  | .a2a => A2a.partsOf wire
  | .acp => Acp.partsOf wire
  | .agntcy => (Agntcy.messages wire).iterate.toOption.getD []
  | .mcp | .openai | .gemini => []

/-- The object in an item. -/
def Protocol.dataOf (R : Runtime) (p : Protocol) (item : Value) : Option Value :=
  match p with
  | .a2a => A2a.dataOf item
  | .acp => Acp.dataOf R item
  | .agntcy => Agntcy.dataOf R item
  | .mcp | .openai | .gemini => none

/-- The objects that an adapter takes names and arguments from. -/
def Protocol.envelopes (R : Runtime) (p : Protocol) (wire : Value) : List Value :=
  (p.items wire).filterMap (p.dataOf R)

/-- The name in an envelope. A2A takes an empty one for none. -/
def Protocol.named (p : Protocol) (data : Value) : Option Value :=
  match p with
  | .a2a =>
    some (((data.find "name").getD .null).or ((data.find "tool_name").getD .null)) |>.filter
      (·.isTruthy)
  | _ => data.find "name"

/-- The capability of a request without an envelope. -/
def Protocol.defaultName (p : Protocol) (wire : Value) : Value :=
  match p with
  | .acp => (wire.find "agent_name").getD (.text "")
  | .agntcy => (wire.find "agent_id").getD (.text "")
  | .mcp | .a2a | .openai | .gemini => .text ""

def Protocol.isMessaging : Protocol → Bool
  | .a2a | .acp | .agntcy => true
  | .mcp | .openai | .gemini => false

/-! ### One step of each loop -/

section Steps

variable {R : Runtime} {fresh : Fresh} {wire item : Value} {call : CanonicalCall}
  {scan scan' : Scan}

def Protocol.nameOf (R : Runtime) (p : Protocol) (item : Value) : Option Value :=
  (p.dataOf R item).bind p.named

/-- The text of an item. -/
def Protocol.proseOf (R : Runtime) (p : Protocol) (item : Value) : Option Value :=
  match p with
  | .a2a => A2a.proseOf item
  | .acp => Acp.proseOf item
  | .agntcy => Agntcy.proseOf R item
  | .mcp | .openai | .gemini => none

/-- An item that no step fails on, but for a second name. -/
def Protocol.isItem (p : Protocol) (item : Value) : Bool :=
  item.isDict && match p with
    | .a2a => (A2a.dataOf item).all (·.isDict)
    | .acp => ((item.find "content_type").getD (.text "")).isStr
    | _ => true

/-- One step of the loop. -/
def Protocol.scanItem (R : Runtime) (p : Protocol) (scan : Scan) (item : Value) :
    Except Raised Scan :=
  match p with
  | .a2a => A2a.scanPart scan item
  | .acp => Acp.scanPart R scan item
  | .agntcy => Agntcy.scanMessage R scan item
  | .mcp | .openai | .gemini => .ok scan

/-- What one step makes of an item. -/
structure Scanned (R : Runtime) (p : Protocol) (scan : Scan) (item : Value) (scan' : Scan) :
    Prop where
  capability : scan'.capability = (p.nameOf R item).getD scan.capability
  arguments : scan'.arguments = ((p.dataOf R item).bind (·.find "arguments")).getD scan.arguments
  text : scan'.text = if scan.text.isNone then (p.proseOf R item).getD .null else scan.text

theorem eq_scan_iff : scan = scan' ↔ scan'.capability = scan.capability ∧
    scan'.arguments = scan.arguments ∧ scan'.text = scan.text := by
  rw [eq_comm, Scan.ext_iff]

theorem scanned_iff {p : Protocol} : Scanned R p scan item scan' ↔
    scan'.capability = (p.nameOf R item).getD scan.capability ∧
      scan'.arguments = ((p.dataOf R item).bind (·.find "arguments")).getD scan.arguments ∧
      scan'.text = if scan.text.isNone then (p.proseOf R item).getD .null else scan.text :=
  ⟨fun h => ⟨h.capability, h.arguments, h.text⟩, fun h => ⟨h.1, h.2.1, h.2.2⟩⟩

theorem text_eq (v : Value) : (if v.isNone then .null else v) = v := by
  cases v <;> rfl

theorem isText_iff {v : Value} {a : String} :
    v.isText a = true ↔ ∃ s, v = .str s ∧ s = .ofString a := by
  cases v <;> simp [isText]

theorem not_isText {v : Value} {a b : String} (h : v.isText a = true) (hne : a ≠ b) :
    ¬v.isText b = true := by
  obtain ⟨s, rfl, rfl⟩ := isText_iff.mp h
  rw [isText, decide_eq_true_eq, PyString.ofString_inj]
  exact hne

/-- One data or text part: a name replaces the capability, and there must not be another one. -/
theorem A2a.scanPart_eq_ok : A2a.scanPart scan item = .ok scan' ↔
    Protocol.a2a.isItem item = true ∧
      ((Protocol.a2a.nameOf R item).isSome = true → scan.capability.isTruthy = false) ∧
      Scanned R .a2a scan item scan' := by
  simp only [A2a.scanPart, requireMapping, bind_eq_ok, require_eq_ok, exists_const, scanned_iff,
    Protocol.isItem, Protocol.nameOf, Protocol.dataOf, Protocol.proseOf, Bool.and_eq_true, and_assoc]
  refine and_congr_right fun _ => ?_
  by_cases hdata : ((item.find "kind").getD .null).isText "data"
  · have hsome : A2a.dataOf item = some ((item.find "data").getD .empty) := if_pos hdata
    have hprose : A2a.proseOf item = none := if_neg (not_isText hdata (by decide))
    rw [if_pos hdata, A2a.scanData, hsome, hprose]
    simp only [requireMapping, bind_eq_ok, require_eq_ok, pure_eq_ok, exists_const, Option.all_some,
      Option.bind_some, Option.getD_none, text_eq, Protocol.named, Option.filter_some]
    refine and_congr_right fun _ => ?_
    -- a name counts if it is not empty
    by_cases htruthy : ((((item.find "data").getD .empty).find "name").getD .null |>.or
        ((((item.find "data").getD .empty).find "tool_name").getD .null)).isTruthy
    · rw [if_pos htruthy, htruthy, or_of_isTruthy htruthy]
      simp [eq_scan_iff]
    · have hor : ∀ v w : Value, ¬v.isTruthy = true → v.or w = w := fun v w h => if_neg h
      simp [htruthy, hor _ _ htruthy, eq_scan_iff]
  · have hnone : A2a.dataOf item = none := if_neg hdata
    rw [if_neg hdata, hnone]
    by_cases hkind : ((item.find "kind").getD .null).isText "text"
    · have hprose : A2a.proseOf item = some ((item.find "text").getD .null) := if_pos hkind
      by_cases hfirst : scan.text.isNone
      · simp [hprose, hkind, hfirst, pure_eq_ok, eq_scan_iff]
      · simp [hkind, hfirst, pure_eq_ok, eq_scan_iff]
    · have hprose : A2a.proseOf item = none := if_neg hkind
      simp [hprose, hkind, text_eq, pure_eq_ok, eq_scan_iff]

theorem Acp.scanPart_eq_ok : Acp.scanPart R scan item = .ok scan' ↔
    Protocol.acp.isItem item = true ∧ Scanned R .acp scan item scan' := by
  simp only [Acp.scanPart, Value.get, bind_eq_ok, pure_eq_ok, require_eq_ok, exists_const,
    scanned_iff, Protocol.isItem, Protocol.nameOf, Protocol.dataOf, Protocol.proseOf, Protocol.named,
    Bool.and_eq_true, and_assoc, exists_and_left, exists_eq_left']
  refine and_congr_right fun hdict => ?_
  rw [and_iff_right hdict, Acp.dataOf, Acp.proseOf]
  by_cases hjson : ((item.find "content_type").getD (.text "")).isText "application/json"
  · have hsome : Acp.jsonOf item = some ((item.find "content").getD (.text "")) := if_pos hjson
    obtain ⟨s, hctype, rfl⟩ : ∃ s, (item.find "content_type").getD (.text "") = .str s ∧
        s = .ofString "application/json" := isText_iff.mp hjson
    have hprose : Acp.startsWithText (.str (.ofString "application/json")) = .ok false := rfl
    rw [if_pos hjson, hsome, Option.bind_some, hctype, hprose]
    cases R.loadsValue ((item.find "content").getD (.text "")) with
    | none => simp [isStr, text_eq, eq_scan_iff, pure_eq_ok]
    | some data =>
      rw [Option.filter_some]
      by_cases hobject : data.isDict = true
      · simp [hobject, isStr, text_eq, eq_scan_iff, pure_eq_ok, Scan.read, Protocol.named]
      · simp [hobject, isStr, text_eq, eq_scan_iff, pure_eq_ok]
  · have hnone : Acp.jsonOf item = none := if_neg hjson
    rw [if_neg hjson, hnone, bind_eq_ok]
    cases (item.find "content_type").getD (.text "") with
    | null | bool | int | float | list | dict => simp [Acp.startsWithText, isStr]
    | str s =>
      cases hprose : (PyString.ofString "text/").codes.isPrefixOf s.codes with
      | false => simp [Acp.startsWithText, hprose, isStr, text_eq, eq_scan_iff, pure_eq_ok]
      | true =>
        by_cases hfirst : scan.text.isNone
        · simp [Acp.startsWithText, hprose, hfirst, isStr, eq_scan_iff, pure_eq_ok]
        · simp [Acp.startsWithText, hprose, hfirst, isStr, eq_scan_iff, pure_eq_ok]

/-- One message: an object with a name replaces what it has. -/
theorem Agntcy.scanMessage_eq_ok : Agntcy.scanMessage R scan item = .ok scan' ↔
    Protocol.agntcy.isItem item = true ∧ Scanned R .agntcy scan item scan' := by
  simp only [Agntcy.scanMessage, Value.get, bind_eq_ok, pure_eq_ok, require_eq_ok, exists_const,
    scanned_iff, Protocol.isItem, Protocol.nameOf, Protocol.dataOf, Protocol.proseOf, Protocol.named,
    Bool.and_eq_true, and_assoc, exists_and_left, exists_eq_left', true_and]
  refine and_congr_right fun _ => ?_
  rw [Agntcy.proseOf, Agntcy.dataOf]
  cases R.loadsValue (Agntcy.textOf ((item.find "content").getD .null)) with
  | none =>
    by_cases htruthy : (Agntcy.textOf ((item.find "content").getD .null)).isTruthy
    · by_cases hfirst : scan.text.isNone
      · simp [htruthy, hfirst, eq_scan_iff, pure_eq_ok]
      · simp [htruthy, hfirst, eq_scan_iff, pure_eq_ok]
    · simp [htruthy, text_eq, eq_scan_iff, pure_eq_ok]
  | some data =>
    rw [Option.filter_some]
    by_cases hname : (data.find "name").isSome
    · simp [hname, text_eq, eq_scan_iff, pure_eq_ok, Scan.read, Protocol.named]
    · by_cases htruthy : (Agntcy.textOf ((item.find "content").getD .null)).isTruthy
      · by_cases hfirst : scan.text.isNone
        · simp [hname, htruthy, hfirst, eq_scan_iff, pure_eq_ok]
        · simp [hname, htruthy, hfirst, eq_scan_iff, pure_eq_ok]
      · simp [hname, htruthy, text_eq, eq_scan_iff, pure_eq_ok]

/-- One step: an item that is well formed, and not a second name for A2A. -/
theorem scanItem_eq_ok {p : Protocol} (hp : p.isMessaging = true) :
    p.scanItem R scan item = .ok scan' ↔ p.isItem item = true ∧
      (p = .a2a → (p.nameOf R item).isSome = true → scan.capability.isTruthy = false) ∧
      Scanned R p scan item scan' := by
  cases p with
  | mcp | openai | gemini => cases hp
  | a2a => simpa [Protocol.scanItem] using A2a.scanPart_eq_ok
  | acp => simpa [Protocol.scanItem] using Acp.scanPart_eq_ok
  | agntcy => simpa [Protocol.scanItem] using Agntcy.scanMessage_eq_ok

theorem isTruthy_of_nameOf {name : Value} (h : Protocol.a2a.nameOf R item = some name) :
    name.isTruthy = true := by
  obtain ⟨data, -, hnamed⟩ := Option.bind_eq_some_iff.mp h
  rw [Protocol.named, Option.filter_eq_some_iff] at hnamed
  exact hnamed.2

theorem Scanned.exists (R : Runtime) (p : Protocol) (scan : Scan) (item : Value) :
    ∃ scan', Scanned R p scan item scan' := ⟨⟨_, _, _⟩, rfl, rfl, rfl⟩

/-- Names of A2A items, one by one: a second one is too many. -/
theorem length_names_cons_le {items : List Value} (h : Scanned R .a2a scan item scan') :
    ((item :: items).filterMap (Protocol.a2a.nameOf R)).length ≤
        (if scan.capability.isTruthy then 0 else 1) ↔
      ((Protocol.a2a.nameOf R item).isSome = true → scan.capability.isTruthy = false) ∧
        (items.filterMap (Protocol.a2a.nameOf R)).length ≤
          if scan'.capability.isTruthy then 0 else 1 := by
  rw [h.capability]
  cases hname : Protocol.a2a.nameOf R item with
  | none => simp [filterMap_cons_none hname]
  | some name =>
    rw [filterMap_cons_some hname, length_cons, Option.getD_some, if_pos (isTruthy_of_nameOf hname)]
    cases scan.capability.isTruthy <;> simp

/-- The loop gets through well-formed items; for A2A only one of them may have a name, and none
after a name was met. -/
theorem foldlM_scanItem_isOk {p : Protocol} (hp : p.isMessaging = true) (items : List Value) :
    ∀ scan : Scan, (∃ scan', items.foldlM (p.scanItem R) scan = .ok scan') ↔
      (∀ item ∈ items, p.isItem item = true) ∧ (p = .a2a →
        (items.filterMap (p.nameOf R)).length ≤ if scan.capability.isTruthy then 0 else 1) := by
  induction items with
  | nil =>
    intro scan
    exact ⟨fun _ => ⟨forall_mem_nil _, fun _ => Nat.zero_le _⟩, fun _ => ⟨scan, rfl⟩⟩
  | cons item items ih =>
    intro scan
    simp only [foldlM_cons, bind_eq_ok, forall_mem_cons]
    constructor
    · rintro ⟨scan', scan₁, hhead, htail⟩
      obtain ⟨hitem, hsecond, hscanned⟩ := (scanItem_eq_ok hp).mp hhead
      obtain ⟨hitems, hnames⟩ := (ih _).mp ⟨scan', htail⟩
      refine ⟨⟨hitem, hitems⟩, ?_⟩
      rintro rfl
      exact (length_names_cons_le hscanned).mpr ⟨hsecond rfl, hnames rfl⟩
    · rintro ⟨⟨hitem, hitems⟩, hnames⟩
      obtain ⟨scan₁, hscanned⟩ := Scanned.exists R p scan item
      have hsplit : p = .a2a → ((p.nameOf R item).isSome = true → scan.capability.isTruthy = false) ∧
          (items.filterMap (p.nameOf R)).length ≤ if scan₁.capability.isTruthy then 0 else 1 := by
        rintro rfl
        exact (length_names_cons_le hscanned).mp (hnames rfl)
      obtain ⟨scan', htail⟩ := (ih _).mpr ⟨hitems, fun ha => (hsplit ha).2⟩
      exact ⟨scan', scan₁, (scanItem_eq_ok hp).mpr ⟨hitem, fun ha => (hsplit ha).1, hscanned⟩, htail⟩

end Steps

/-! ### What a call is made of -/

section Made

variable {R : Runtime} {fresh : Fresh} {wire : Value} {call : CanonicalCall} {p : Protocol}

/-- The names in the envelopes of a request. -/
def Protocol.names (R : Runtime) (p : Protocol) (wire : Value) : List Value :=
  (p.envelopes R wire).filterMap p.named

/-- The text of a request is the first one. -/
def Protocol.textIn (R : Runtime) (p : Protocol) (wire : Value) : Value :=
  (((p.items wire).filterMap (p.proseOf R)).find? (!·.isNone)).getD .null

/-- What the loop has at its end: the last name, the last arguments and the first text. -/
theorem foldlM_scanItem_eq_ok (hp : p.isMessaging = true) {scan : Scan}
    (h : (p.items wire).foldlM (p.scanItem R) { capability := p.defaultName wire } = .ok scan) :
    scan = ⟨(p.names R wire).getLastD (p.defaultName wire),
      ((p.envelopes R wire).filterMap (·.find "arguments")).getLastD .empty, p.textIn R wire⟩ := by
  rw [Protocol.names, Protocol.envelopes, filterMap_filterMap, filterMap_filterMap]
  ext1
  · exact getLastD_of_foldlM Scan.capability (p.nameOf R)
      (fun _ _ _ hstep => ((scanItem_eq_ok hp).mp hstep).2.2.capability) h
  · exact getLastD_of_foldlM Scan.arguments (fun item => (p.dataOf R item).bind (·.find "arguments"))
      (fun _ _ _ hstep => ((scanItem_eq_ok hp).mp hstep).2.2.arguments) h
  · exact findD_of_foldlM Scan.text (p.proseOf R)
      (fun _ _ _ hstep => ((scanItem_eq_ok hp).mp hstep).2.2.text) h

/-- A task that may be read as a new action, with a list of messages. -/
def A2a.isTask (wire : Value) : Bool :=
  let method := (wire.find "method").getD .null
  let task := A2a.taskOf wire
  let state := (((task.find "status").getD .null).find "state").getD .null
  (method.isNone || method.isText "tasks/send") && task.isDict &&
    (task.find "status").all (·.isDict) && (state.isNone || state.isText "submitted") &&
    (A2a.messages task).toOption.any (·.all fun msg =>
      msg.isDict && ((msg.find "parts").getD (.list [])).isList)

/-- What an adapter demands of a request around the items of its loop. -/
def Protocol.isFramed (p : Protocol) (wire : Value) : Bool :=
  wire.isDict && match p with
    | .a2a => A2a.isTask wire
    | .acp => (Acp.messagesOf wire).iterate.toOption.any
      (·.all fun msg => (Acp.iterParts msg).toOption.isSome)
    | .agntcy => (Agntcy.messages wire).iterate.toOption.isSome
    | _ => true

theorem A2a.scanMessage_eq_ok (scan : Scan) (msg : Value) (scan' : Scan) :
    A2a.scanMessage scan msg = .ok scan' ↔
      (msg.isDict && ((msg.find "parts").getD (.list [])).isList) = true ∧
        (A2a.partsIn msg).foldlM A2a.scanPart scan = .ok scan' := by
  simp only [A2a.scanMessage, requireMapping, bind_eq_ok, require_eq_ok, exists_const,
    Bool.and_eq_true, and_assoc]
  refine and_congr_right fun _ => ?_
  rw [A2a.partsIn]
  cases (msg.find "parts").getD (.list []) <;> simp [isList]

theorem Acp.scanMessage_eq_ok (scan : Scan) (msg : Value) (scan' : Scan) :
    Acp.scanMessage R scan msg = .ok scan' ↔ (Acp.iterParts msg).toOption.isSome = true ∧
      ((Acp.iterParts msg).toOption.getD []).foldlM (Acp.scanPart R) scan = .ok scan' := by
  rw [Acp.scanMessage]
  cases Acp.iterParts msg <;> simp [Except.toOption, bind, Except.bind]

/-- A new action is no change of a task. -/
theorem A2a.not_lifecycle {method : Value}
    (h : (method.isNone || method.isText "tasks/send") = true) :
    (!(method.isText "tasks/cancel" || method.isText "tasks/resubscribe" ||
      method.isText "tasks/get")) = true := by
  rcases Bool.or_eq_true_iff.mp h with hnone | hsend
  · cases method with
    | null => rfl
    | bool | int | float | str | list | dict => cases hnone
  · simp [not_isText hsend]

/-- The identifier of a call. -/
def Protocol.callIdOf (R : Runtime) (fresh : Fresh) (p : Protocol) (wire : Value) : PyString :=
  let id := (wire.find "id").getD .null
  match p with
  | .mcp | .a2a => if id.isNone then fresh.callId else R.str id
  | .openai | .gemini => if id.isTruthy then R.str id else fresh.callId
  | .acp | .agntcy => fresh.callId

/-- A call is returned by the constructor, after the loop. -/
theorem toCanonicalCall_eq_ok (hp : p.isMessaging = true) :
    p.toCanonicalCall R fresh wire = .ok call ↔ p.isFramed wire = true ∧
      ∃ scan, (p.items wire).foldlM (p.scanItem R) { capability := p.defaultName wire } = .ok scan ∧
        canonicalCall scan.capability scan.arguments scan.text (p.callIdOf R fresh wire) p =
          .ok call := by
  cases p with
  | mcp | openai | gemini => cases hp
  | a2a =>
    simp only [Protocol.toCanonicalCall, A2a.toCanonicalCall, requireMapping, bind_eq_ok,
      require_eq_ok, exists_const, Protocol.isFramed, A2a.isTask, Bool.and_eq_true, and_assoc]
    refine and_congr_right fun _ => ?_
    rw [Protocol.items, A2a.partsOf, and_iff_right_of_imp fun h => A2a.not_lifecycle h.1]
    refine and_congr_right fun _ => and_congr_right fun _ => and_congr_right fun _ =>
      and_congr_right fun _ => ?_
    cases A2a.messages (A2a.taskOf wire) with
    | error e => simp [Except.toOption]
    | ok msgs =>
      simp only [Except.toOption, Except.ok.injEq, exists_eq_left', Option.any_some, all_eq_true,
        Option.getD_some, foldlM_flatMap_eq_ok A2a.scanMessage_eq_ok, and_assoc, exists_and_left]
      rfl
  | acp =>
    simp only [Protocol.toCanonicalCall, Acp.toCanonicalCall, requireMapping, bind_eq_ok,
      require_eq_ok, exists_const, Protocol.isFramed, Bool.and_eq_true, and_assoc]
    refine and_congr_right fun _ => ?_
    rw [Protocol.items, Acp.partsOf]
    cases (Acp.messagesOf wire).iterate with
    | error e => simp [Except.toOption]
    | ok msgs =>
      simp only [Except.toOption, Except.ok.injEq, exists_eq_left', Option.any_some, all_eq_true,
        Option.getD_some, foldlM_flatMap_eq_ok Acp.scanMessage_eq_ok, and_assoc, exists_and_left]
      rfl
  | agntcy =>
    simp only [Protocol.toCanonicalCall, Agntcy.toCanonicalCall, requireMapping, bind_eq_ok,
      require_eq_ok, exists_const, Protocol.isFramed, Bool.and_eq_true, and_assoc]
    refine and_congr_right fun _ => ?_
    rw [Protocol.items]
    cases (Agntcy.messages wire).iterate with
    | error e => simp [Except.toOption]
    | ok msgs =>
      simp only [Except.toOption, Except.ok.injEq, exists_eq_left', Option.isSome_some, true_and]
      rfl

end Made

/-! ### Single actions -/

def taskWith (envelopes : List Value) : Value :=
  .object [("messages", .list [.object [("parts", .list (envelopes.map fun data =>
    .object [("kind", .text "data"), ("data", data)]))]])]

end AgentBridge.Protocols
