import AgentBridge.Text.Flat
import Mathlib.Data.List.Dedup
import Mathlib.Data.List.Sort

/-!
# Declarative policy rules

`PolicySet` evaluates its rules in order and stops at the first one that denies. Which rule that is
depends on the order, and so does the reason; whether the call is allowed and whether it needs an
approval do not (`verdict_congr_iff`), unless a message would have to show an integer of more than
4300 digits, which Python refuses to write: then a set raises or denies, whichever comes first.

`DurablePolicySet` keeps every rule as a JSON text and rebuilds all of them on every read. A text in
which the two halves of a surrogate pair follow each other comes back as one character, so that a
rule about such a name is another rule (`joined_capability`).

Numbers are Python integers and floats. What is used of floats is in `Floats`: a comparison, a text
for messages, and a JSON text that is read back.

* `policy_order_and_persistence` : **when the result depends on the set of rules only, and when it
  does not depend on where they are kept**.
-/

namespace AgentBridge.Policy

open JsonText List

/-- Floating point numbers, as far as the rules use them. -/
structure Floats (F : Type) extends FloatText F where
  /-- The operator `>`, between any two numbers. -/
  gt : Number F → Number F → Bool
  /-- The text of a float in a message. -/
  str : F → PyString

/-- `PolicyContext`, with the weekday and the hour of `when()`. -/
structure Context (F : Type) where
  capability : PyString
  cost : Number F
  srcProtocol : Option PyString
  dstProtocol : Option PyString
  weekday : ℤ
  hour : ℤ

structure RuleResult where
  allowed : Bool := true
  reason : PyString := .ofString ""
  needsApproval : Bool := false
  deriving DecidableEq

/-- The built-in rules. A set is given by its elements, in any order. -/
inductive Rule (F : Type)
  | maxCostPerCall (maxCost : Number F)
  | requireApprovalAboveCost (threshold : Number F)
  | denyCapabilities (caps : List PyString)
  | allowOnlyCapabilities (caps : List PyString)
  | businessHoursOnly (startHour endHour : ℤ) (days : List ℤ)
  | denyProtocolRoute (src dst : PyString)

/-- The constructor of `BusinessHoursOnly`, with its defaults. -/
def businessHours {F : Type} (startHour : ℤ := 9) (endHour : ℤ := 17)
    (days : Option (List ℤ) := none) : Rule F :=
  .businessHoursOnly startHour endHour (days.getD [0, 1, 2, 3, 4])

/-- What a rule, or reading the table, can raise. -/
inductive ConfigFault
  | decodeError
  | keyError (key : String)
  | typeError
  | valueError (message : String)
  deriving DecidableEq

/-! ### Messages -/

/-- An integer that `str` and `json.dumps` write. -/
def isPrintable (n : ℤ) : Bool := (intText n.natAbs).length ≤ 4300

/-- What they raise for all others. -/
def tooLong : ConfigFault :=
  .valueError ("Exceeds the limit (4300 digits) for integer string conversion; " ++
    "use sys.set_int_max_str_digits() to increase the limit")

/-- The parts of a message, one after the other. -/
def message (parts : List PyString) : PyString := parts.foldl PyString.append (.ofString "")

def ofChars (cs : List Char) : PyString := .ofString (String.ofList cs)

/-- The format `02d`. -/
def twoDigits (n : ℤ) : PyString :=
  ofChars (if 0 ≤ n ∧ n < 10 then '0' :: intText n else intText n)

/-- `sorted` of a set of integers. -/
def sortedDays (days : List ℤ) : List ℤ := days.dedup.insertionSort (· ≤ ·)

/-- `sorted` of a set of strings. -/
def sortedCaps (caps : List PyString) : List PyString :=
  caps.dedup.insertionSort (·.codes ≤ ·.codes)

/-- The text of a list of integers. -/
def listText (l : List ℤ) : PyString := ofChars ('[' :: sequence ']' intText l)

section Evaluate

variable {F : Type} (T : Floats F)

/-- A number in a message. -/
def numberText : Number F → PyString
  | .int n => ofChars (intText n)
  | .float x => T.str x

/-- The integers among some numbers. -/
def ints (numbers : List (Number F)) : List ℤ :=
  numbers.filterMap fun
    | .int n => some n
    | .float _ => none

/-! ### Evaluation -/

/-- `Rule.evaluate`. -/
def Rule.evaluate (ctx : Context F) : Rule F → Except ConfigFault RuleResult
  | .maxCostPerCall maxCost =>
    if T.gt ctx.cost maxCost then do
      require ((ints [ctx.cost, maxCost]).all isPrintable) tooLong
      return { allowed := false
               reason := message [.ofString "cost ", numberText T ctx.cost,
                 .ofString " exceeds per-call cap ", numberText T maxCost] }
    else return {}
  | .requireApprovalAboveCost threshold =>
    if T.gt ctx.cost threshold then do
      require ((ints [ctx.cost, threshold]).all isPrintable) tooLong
      return { reason := message [.ofString "approval required: cost ", numberText T ctx.cost,
                 .ofString " > ", numberText T threshold]
               needsApproval := true }
    else return {}
  | .denyCapabilities caps =>
    if ctx.capability ∈ caps then
      return { allowed := false
               reason := message [.ofString "capability '", ctx.capability,
                 .ofString "' is denied by policy"] }
    else return {}
  | .allowOnlyCapabilities caps =>
    if ctx.capability ∉ caps then
      return { allowed := false
               reason := message [.ofString "capability '", ctx.capability,
                 .ofString "' not in policy allowlist"] }
    else return {}
  | .businessHoursOnly startHour endHour days =>
    if ctx.weekday ∉ days ∨ ¬(startHour ≤ ctx.hour ∧ ctx.hour < endHour) then do
      require ((startHour :: endHour :: sortedDays days).all isPrintable) tooLong
      return { allowed := false
               reason := message [.ofString "outside allowed window (days ",
                 listText (sortedDays days), .ofString " ", twoDigits startHour,
                 .ofString ":00-", twoDigits endHour, .ofString ":00 UTC)"] }
    else return {}
  | .denyProtocolRoute src dst =>
    if ctx.srcProtocol = some src ∧ ctx.dstProtocol = some dst then
      return { allowed := false
               reason := message [.ofString "route ", src, .ofString "->", dst,
                 .ofString " is blocked by policy"] }
    else return {}

/-- The loop of `PolicySet.evaluate`, with its two variables. -/
def evaluateFrom (ctx : Context F) :
    Bool → PyString → List (Rule F) → Except ConfigFault RuleResult
  | needsApproval, approvalReason, [] =>
    return { reason := if needsApproval then approvalReason else .ofString "policy ok"
             needsApproval }
  | needsApproval, approvalReason, rule :: rules => do
    let r ← rule.evaluate T ctx
    if !r.allowed then return r
    else if r.needsApproval then
      evaluateFrom ctx true (if r.reason = .ofString "" then approvalReason else r.reason) rules
    else evaluateFrom ctx needsApproval approvalReason rules

/-- `PolicySet.evaluate`. -/
def evaluate (rules : List (Rule F)) (ctx : Context F) : Except ConfigFault RuleResult :=
  evaluateFrom T ctx false (.ofString "") rules

/-- The result without the reason: allowed, and in need of an approval. -/
def verdict (rules : List (Rule F)) (ctx : Context F) : Except ConfigFault (Bool × Bool) :=
  (evaluate T rules ctx).map fun r => (r.allowed, r.needsApproval)

/-- What the loop ends with at a rule, if it does not go on. -/
def Rule.stop? (ctx : Context F) (rule : Rule F) : Option (Except ConfigFault RuleResult) :=
  match rule.evaluate T ctx with
  | .error e => some (.error e)
  | .ok r => if r.allowed then none else some (.ok r)

def Rule.Raises (ctx : Context F) (rule : Rule F) : Prop := rule.evaluate T ctx = .error tooLong

def Rule.Denies (ctx : Context F) (rule : Rule F) : Prop :=
  ∃ r, rule.evaluate T ctx = .ok r ∧ r.allowed = false

def Rule.Allows (ctx : Context F) (rule : Rule F) : Prop :=
  ∃ r, rule.evaluate T ctx = .ok r ∧ r.allowed = true

def Rule.asks (ctx : Context F) (rule : Rule F) : Bool :=
  (rule.evaluate T ctx).toOption.any (·.needsApproval)

end Evaluate

/-! ### Persistence -/

section Codec

variable {F : Type}

/-- `_rule_to_dict`. -/
def Rule.toDict : Rule F → List (PyString × Entry F)
  | .maxCostPerCall maxCost =>
    [(.ofString "kind", .item (.str (.ofString "max_cost"))),
      (.ofString "max_cost", .item (.num maxCost))]
  | .requireApprovalAboveCost threshold =>
    [(.ofString "kind", .item (.str (.ofString "approval_above_cost"))),
      (.ofString "threshold", .item (.num threshold))]
  | .denyCapabilities caps =>
    [(.ofString "kind", .item (.str (.ofString "deny_capabilities"))),
      (.ofString "capabilities", .items ((sortedCaps caps).map .str))]
  | .allowOnlyCapabilities caps =>
    [(.ofString "kind", .item (.str (.ofString "allow_only_capabilities"))),
      (.ofString "capabilities", .items ((sortedCaps caps).map .str))]
  | .businessHoursOnly startHour endHour days =>
    [(.ofString "kind", .item (.str (.ofString "business_hours"))),
      (.ofString "start_hour", .item (.num (.int startHour))),
      (.ofString "end_hour", .item (.num (.int endHour))),
      (.ofString "days", .items ((sortedDays days).map fun day => .num (.int day)))]
  | .denyProtocolRoute src dst =>
    [(.ofString "kind", .item (.str (.ofString "deny_route"))),
      (.ofString "src", .item (.str src)), (.ofString "dst", .item (.str dst))]

/-- The option `sort_keys`. -/
def sortKeys (members : List (PyString × Entry F)) : List (PyString × Entry F) :=
  members.insertionSort (·.1.codes ≤ ·.1.codes)

/-- `data[key]`. -/
def get (data : List (PyString × Entry F)) (key : String) : Except ConfigFault (Entry F) :=
  match data.find? (·.1 = .ofString key) with
  | some kv => .ok kv.2
  | none => .error (.keyError key)

def asNumber : Entry F → Except ConfigFault (Number F)
  | .item (.num n) => .ok n
  | _ => .error .typeError

def asInt : Item F → Except ConfigFault ℤ
  | .num (.int n) => .ok n
  | _ => .error .typeError

def asText : Item F → Except ConfigFault PyString
  | .str s => .ok s
  | _ => .error .typeError

/-- A member that is not a list. -/
def asItem : Entry F → Except ConfigFault (Item F)
  | .item i => .ok i
  | .items _ => .error .typeError

/-- A member that is a list. -/
def asItems : Entry F → Except ConfigFault (List (Item F))
  | .item _ => .error .typeError
  | .items l => .ok l

/-- `_rule_from_dict`. -/
def Rule.fromDict (data : List (PyString × Entry F)) : Except ConfigFault (Rule F) := do
  let kind ← get data "kind"
  let kind ← asItem kind
  let kind ← asText kind
  if kind = .ofString "max_cost" then
    return .maxCostPerCall (← asNumber (← get data "max_cost"))
  else if kind = .ofString "approval_above_cost" then
    return .requireApprovalAboveCost (← asNumber (← get data "threshold"))
  else if kind = .ofString "deny_capabilities" then
    return .denyCapabilities (← (← asItems (← get data "capabilities")).mapM asText)
  else if kind = .ofString "allow_only_capabilities" then
    return .allowOnlyCapabilities (← (← asItems (← get data "capabilities")).mapM asText)
  else if kind = .ofString "business_hours" then
    return businessHours (← asInt (← asItem (← get data "start_hour")))
      (← asInt (← asItem (← get data "end_hour")))
      (some (← (← asItems (← get data "days")).mapM asInt))
  else if kind = .ofString "deny_route" then
    return .denyProtocolRoute (← asText (← asItem (← get data "src")))
      (← asText (← asItem (← get data "dst")))
  else throw (.valueError "Unknown policy rule kind in durable configuration")

/-- The integers in the text of a rule. -/
def Rule.numbers : Rule F → List ℤ
  | .maxCostPerCall n => ints [n]
  | .requireApprovalAboveCost n => ints [n]
  | .businessHoursOnly startHour endHour days => startHour :: endHour :: days
  | _ => []

/-- The rows of `governance_rules`, in the order of `seq`. -/
structure DurablePolicySet where
  rows : List (List Char) := []

variable (T : Floats F)

/-- `json.dumps(_rule_to_dict(rule), sort_keys=True)`. -/
def Rule.text (rule : Rule F) : List Char := dumps T.toFloatText (sortKeys rule.toDict)

/-- `_rule_from_dict(json.loads(value))`. -/
def Rule.ofText (value : List Char) : Except ConfigFault (Rule F) :=
  match loads T.toFloatText value with
  | none => .error .decodeError
  | some data => Rule.fromDict data

namespace DurablePolicySet

/-- `DurablePolicySet.add`. -/
def add (d : DurablePolicySet) (rule : Rule F) : Except ConfigFault DurablePolicySet := do
  require (rule.numbers.all isPrintable) tooLong
  return { rows := d.rows ++ [rule.text T] }

/-- The property `rules`. -/
def rules (d : DurablePolicySet) : Except ConfigFault (List (Rule F)) :=
  d.rows.mapM (Rule.ofText T)

/-- `PolicySet.evaluate`, over what was read. -/
def evaluate (d : DurablePolicySet) (ctx : Context F) : Except ConfigFault RuleResult := do
  let rules ← d.rules T
  Policy.evaluate T rules ctx

end DurablePolicySet

end Codec

/-! ### Order -/

section Order

variable {F : Type} (T : Floats F) (ctx : Context F)

/-- A rule raises for one reason only; one that denies does not ask for an approval, and one that
allows without asking says nothing. -/
theorem Rule.evaluate_cases (rule : Rule F) :
    rule.evaluate T ctx = .error tooLong ∨
      (∃ reason, rule.evaluate T ctx = .ok ⟨false, reason, false⟩) ∨
      (∃ reason, rule.evaluate T ctx = .ok ⟨true, reason, true⟩) ∨
      rule.evaluate T ctx = .ok {} := by
  have hrequire : ∀ (b : Bool) (r : RuleResult),
      (do require b tooLong; return r : Except ConfigFault RuleResult) = .error tooLong ∨
        (do require b tooLong; return r : Except ConfigFault RuleResult) = .ok r := by
    intro b r
    cases b with
    | false => exact .inl rfl
    | true => exact .inr rfl
  cases rule with
  | maxCostPerCall maxCost | businessHoursOnly startHour endHour days =>
    simp only [Rule.evaluate]
    split
    · exact (hrequire _ _).imp_right fun h => .inl ⟨_, h⟩
    · exact .inr (.inr (.inr rfl))
  | requireApprovalAboveCost threshold =>
    simp only [Rule.evaluate]
    split
    · exact (hrequire _ _).imp_right fun h => .inr (.inl ⟨_, h⟩)
    · exact .inr (.inr (.inr rfl))
  | denyCapabilities | allowOnlyCapabilities | denyProtocolRoute =>
    simp only [Rule.evaluate]
    split
    · exact .inr (.inl ⟨_, rfl⟩)
    · exact .inr (.inr (.inr rfl))

variable {T ctx} {rules : List (Rule F)} {rule : Rule F}

theorem Rule.stop?_eq_none : rule.stop? T ctx = none ↔ rule.Allows T ctx := by
  unfold stop? Allows
  cases rule.evaluate T ctx with
  | error e => simp
  | ok r => simp

theorem Rule.stop?_cases {s : Except ConfigFault RuleResult} (h : rule.stop? T ctx = some s) :
    s = .error tooLong ∧ rule.Raises T ctx ∨
      (∃ reason, s = .ok ⟨false, reason, false⟩) ∧ rule.Denies T ctx := by
  rcases rule.evaluate_cases T ctx with heq | ⟨reason, heq⟩ | ⟨reason, heq⟩ | heq <;>
    rw [stop?, heq] at h <;> cases h
  · exact .inl ⟨rfl, heq⟩
  · exact .inr ⟨⟨reason, rfl⟩, _, heq, rfl⟩

theorem Rule.Allows.not_raises (h : rule.Allows T ctx) : ¬rule.Raises T ctx := by
  obtain ⟨r, hr, -⟩ := h
  rw [Raises, hr]
  simp

theorem Rule.Allows.not_denies (h : rule.Allows T ctx) : ¬rule.Denies T ctx := by
  obtain ⟨r, hr, hallowed⟩ := h
  simp [Denies, hr, hallowed]

/-- The loop ends where the first rule stops it, and allows the call if none does. -/
theorem evaluateFrom_eq (rules : List (Rule F)) (needsApproval : Bool) (reason : PyString) :
    ∃ reason', evaluateFrom T ctx needsApproval reason rules =
      (rules.findSome? (Rule.stop? T ctx)).getD
        (.ok ⟨true, reason', needsApproval || rules.any (Rule.asks T ctx)⟩) := by
  induction rules generalizing needsApproval reason with
  | nil =>
    rw [any_nil, Bool.or_false]
    exact ⟨_, rfl⟩
  | cons rule rules ih =>
    rw [evaluateFrom, findSome?_cons, any_cons, Rule.stop?, Rule.asks]
    rcases rule.evaluate_cases T ctx with heq | ⟨_, heq⟩ | ⟨text, heq⟩ | heq <;> rw [heq]
    · exact ⟨reason, rfl⟩
    · exact ⟨reason, rfl⟩
    · obtain ⟨reason', hrest⟩ := ih true (if text = .ofString "" then reason else text)
      exact ⟨reason', hrest.trans (by simp [Except.toOption])⟩
    · obtain ⟨reason', hrest⟩ := ih needsApproval reason
      exact ⟨reason', hrest.trans (by simp [Except.toOption])⟩

theorem verdict_cases (T : Floats F) (ctx : Context F) (rules : List (Rule F)) :
    (∃ rule ∈ rules, rule.Raises T ctx) ∧ verdict T rules ctx = .error tooLong ∨
    (∃ rule ∈ rules, rule.Denies T ctx) ∧ verdict T rules ctx = .ok (false, false) ∨
    (∀ rule ∈ rules, rule.Allows T ctx) ∧
      verdict T rules ctx = .ok (true, rules.any (Rule.asks T ctx)) := by
  obtain ⟨reason, heq⟩ := evaluateFrom_eq (T := T) rules false (.ofString "")
  rw [verdict, evaluate, heq]
  cases hstop : rules.findSome? (Rule.stop? T ctx) with
  | none =>
    exact .inr (.inr ⟨fun rule hrule =>
      Rule.stop?_eq_none.mp (findSome?_eq_none_iff.mp hstop rule hrule), rfl⟩)
  | some s =>
    obtain ⟨rule, hrule, hs⟩ := exists_of_findSome?_eq_some hstop
    rcases Rule.stop?_cases hs with ⟨rfl, hraises⟩ | ⟨⟨reason, rfl⟩, hdenies⟩
    · exact .inl ⟨⟨rule, hrule, hraises⟩, rfl⟩
    · exact .inr (.inl ⟨⟨rule, hrule, hdenies⟩, rfl⟩)

/-- **The verdict depends on which rules there are, and on nothing else, exactly if it is not the
case that one rule raises and another denies.** -/
theorem verdict_congr_iff :
    (∀ rules' : List (Rule F), (∀ rule, rule ∈ rules' ↔ rule ∈ rules) →
      verdict T rules' ctx = verdict T rules ctx) ↔
    ¬((∃ rule ∈ rules, rule.Raises T ctx) ∧ ∃ rule ∈ rules, rule.Denies T ctx) := by
  constructor
  · rintro h ⟨⟨a, ha, hraises⟩, d, hd, r, hdenies, hr⟩
    -- with the one in front the set raises, with the other it denies
    have hmem : ∀ {x}, x ∈ rules → ∀ rule, rule ∈ x :: rules ↔ rule ∈ rules := by
      intro x hx rule
      exact ⟨fun hrule => (mem_cons.mp hrule).elim (fun heq => heq ▸ hx) id, mem_cons_of_mem _⟩
    have heq := (h _ (hmem ha)).trans (h _ (hmem hd)).symm
    rw [verdict, verdict, evaluate, evaluate, evaluateFrom, evaluateFrom,
      show a.evaluate T ctx = _ from hraises, hdenies,
      Except.ok_bind, hr] at heq
    cases heq
  · intro h rules' hmem
    have hany : rules'.any (Rule.asks T ctx) = rules.any (Rule.asks T ctx) := by
      rw [Bool.eq_iff_iff, any_eq_true, any_eq_true]
      simp only [hmem]
    have hcases := verdict_cases T ctx rules'
    simp only [hmem, hany] at hcases
    rcases hcases with ⟨hraises, heq⟩ | ⟨hdenies, heq⟩ | ⟨hall, heq⟩ <;>
      rcases verdict_cases T ctx rules with ⟨hraises', heq'⟩ | ⟨hdenies', heq'⟩ | ⟨hall', heq'⟩ <;>
      rw [heq, heq']
    · exact absurd ⟨hraises, hdenies'⟩ h
    · exact hraises.elim fun rule hrule => absurd hrule.2 (hall' rule hrule.1).not_raises
    · exact absurd ⟨hraises', hdenies⟩ h
    · exact hdenies.elim fun rule hrule => absurd hrule.2 (hall' rule hrule.1).not_denies
    · exact hraises'.elim fun rule hrule => absurd hrule.2 (hall rule hrule.1).not_raises
    · exact hdenies'.elim fun rule hrule => absurd hrule.2 (hall rule hrule.1).not_denies

end Order

/-! ### Rebuilt rules -/

section Rebuilt

variable {F : Type}

/-- The rule that is read back. -/
def Rule.rebuilt : Rule F → Rule F
  | .maxCostPerCall maxCost => .maxCostPerCall maxCost
  | .requireApprovalAboveCost threshold => .requireApprovalAboveCost threshold
  | .denyCapabilities caps => .denyCapabilities ((sortedCaps caps).map PyString.norm)
  | .allowOnlyCapabilities caps => .allowOnlyCapabilities ((sortedCaps caps).map PyString.norm)
  | .businessHoursOnly startHour endHour days =>
    .businessHoursOnly startHour endHour (sortedDays days)
  | .denyProtocolRoute src dst => .denyProtocolRoute src.norm dst.norm

theorem mapM_asText (l : List PyString) :
    ((l.map (Item.str (F := F))).map Item.norm).mapM asText = .ok (l.map PyString.norm) := by
  rw [map_map, mapM_map]
  exact Except.mapM_of_ok fun s _ => rfl

theorem mapM_asInt (l : List ℤ) :
    ((l.map fun n => Item.num (F := F) (.int n)).map Item.norm).mapM asInt = .ok l := by
  rw [map_map, mapM_map]
  exact (Except.mapM_of_ok (g := id) fun n _ => rfl).trans (by rw [map_id])

/-- **Every rule is read back as the rule rebuilt from its parameters.** -/
theorem fromDict_toDict (rule : Rule F) :
    Rule.fromDict ((sortKeys rule.toDict).map normMember) = .ok rule.rebuilt := by
  cases rule with
  | maxCostPerCall maxCost => rfl
  | requireApprovalAboveCost threshold => rfl
  | denyCapabilities caps =>
    show ((((sortedCaps caps).map Item.str).map Item.norm).mapM asText >>= fun caps =>
      pure (Rule.denyCapabilities caps)) = _
    rw [mapM_asText]
    rfl
  | allowOnlyCapabilities caps =>
    show ((((sortedCaps caps).map Item.str).map Item.norm).mapM asText >>= fun caps =>
      pure (Rule.allowOnlyCapabilities caps)) = _
    rw [mapM_asText]
    rfl
  | businessHoursOnly startHour endHour days =>
    show ((((sortedDays days).map fun day => Item.num (.int day)).map Item.norm).mapM asInt >>=
      fun days => pure (businessHours startHour endHour (some days))) = _
    rw [mapM_asInt]
    rfl
  | denyProtocolRoute src dst => rfl

theorem mem_sortedDays {n : ℤ} {days : List ℤ} : n ∈ sortedDays days ↔ n ∈ days := by
  rw [sortedDays, mem_insertionSort, mem_dedup]

theorem sortedDays_sortedDays (days : List ℤ) : sortedDays (sortedDays days) = sortedDays days := by
  have hnodup : (sortedDays days).Nodup :=
    (perm_insertionSort _ _).nodup_iff.mpr (nodup_dedup days)
  rw [sortedDays, hnodup.dedup]
  exact (pairwise_insertionSort (· ≤ ·) _).insertionSort_eq

/-- A rule without names is rebuilt as it was, and one with names that allows says nothing. -/
theorem evaluate_rebuilt_of_allows {T : Floats F} {ctx : Context F} {rule : Rule F}
    (h : rule.Allows T ctx) (h' : rule.rebuilt.Allows T ctx) :
    rule.rebuilt.evaluate T ctx = rule.evaluate T ctx := by
  obtain ⟨r, hr, hallowed⟩ := h
  obtain ⟨r', hr', hallowed'⟩ := h'
  cases rule with
  | maxCostPerCall | requireApprovalAboveCost => rfl
  | businessHoursOnly =>
    simp only [Rule.rebuilt, Rule.evaluate, mem_sortedDays, sortedDays_sortedDays]
  | denyCapabilities | allowOnlyCapabilities | denyProtocolRoute =>
    rw [hr, hr']
    simp only [Rule.evaluate, Rule.rebuilt] at hr hr'
    split at hr
    · cases hr
      cases hallowed
    · split at hr'
      · cases hr'
        cases hallowed'
      · exact hr'.symm.trans hr

/-- Rules that give the same results one by one give the same result together. -/
theorem evaluateFrom_map (T : Floats F) (ctx : Context F) {g : Rule F → Rule F}
    {rules : List (Rule F)} (h : ∀ rule ∈ rules, (g rule).evaluate T ctx = rule.evaluate T ctx)
    (needsApproval : Bool) (reason : PyString) :
    evaluateFrom T ctx needsApproval reason (rules.map g) =
      evaluateFrom T ctx needsApproval reason rules := by
  induction rules generalizing needsApproval reason with
  | nil => rfl
  | cons rule rules ih =>
    have hrest := ih fun r hr => h r (mem_cons_of_mem _ hr)
    simp only [map_cons, evaluateFrom, h rule mem_cons_self, hrest]

/-- The rows hold the texts of the rules, in the order in which they were added. -/
theorem foldlM_add (T : Floats F) (rules : List (Rule F)) (d d' : DurablePolicySet) :
    rules.foldlM (DurablePolicySet.add T) d = .ok d' ↔
      (∀ rule ∈ rules, rule.numbers.all isPrintable = true) ∧
        d' = { rows := d.rows ++ rules.map (Rule.text T) } := by
  induction rules generalizing d with
  | nil =>
    rw [foldlM_nil, Except.pure_eq_ok, map_nil, append_nil]
    exact ⟨fun h => ⟨forall_mem_nil _, h.symm⟩, fun h => h.2.symm⟩
  | cons rule rules ih =>
    simp only [foldlM_cons, Except.bind_eq_ok, DurablePolicySet.add, require_eq_ok,
      Except.pure_eq_ok, ih, forall_mem_cons, map_cons]
    constructor
    · rintro ⟨_, ⟨-, hrule, rfl⟩, hrules, rfl⟩
      exact ⟨⟨hrule, hrules⟩, by rw [append_assoc]; rfl⟩
    · rintro ⟨⟨hrule, hrules⟩, rfl⟩
      exact ⟨_, ⟨(), hrule, rfl⟩, hrules, by rw [append_assoc]; rfl⟩

theorem rules_of_rows (T : Floats F) (rules : List (Rule F)) :
    DurablePolicySet.rules T { rows := [] ++ rules.map (Rule.text T) } =
      .ok (rules.map Rule.rebuilt) := by
  unfold DurablePolicySet.rules
  rw [nil_append, mapM_map]
  refine Except.mapM_of_ok fun rule _ => ?_
  show Rule.ofText T (rule.text T) = .ok rule.rebuilt
  rw [Rule.ofText, Rule.text, loads_dumps]
  exact fromDict_toDict rule

/-- **A set gives the result of its rebuilt rules exactly if the first stop is the same.** -/
theorem evaluate_rebuilt_iff {T : Floats F} {ctx : Context F} {rules : List (Rule F)} :
    evaluate T (rules.map Rule.rebuilt) ctx = evaluate T rules ctx ↔
      (rules.map Rule.rebuilt).findSome? (Rule.stop? T ctx) =
        rules.findSome? (Rule.stop? T ctx) := by
  have hne : ∀ {l : List (Rule F)} {s reason asks}, l.findSome? (Rule.stop? T ctx) = some s →
      s ≠ .ok ⟨true, reason, asks⟩ := by
    rintro l _ reason asks hl rfl
    obtain ⟨rule, -, hs⟩ := exists_of_findSome?_eq_some hl
    rcases Rule.stop?_cases hs with ⟨heq, -⟩ | ⟨⟨_, heq⟩, -⟩ <;> cases heq
  obtain ⟨reason, hmemory⟩ := evaluateFrom_eq (T := T) rules false (.ofString "")
  obtain ⟨reason', hdurable⟩ := evaluateFrom_eq (T := T) (rules.map .rebuilt) false (.ofString "")
  cases hstop : rules.findSome? (Rule.stop? T ctx) with
  | some s =>
    rw [evaluate, evaluate, hmemory, hdurable, hstop]
    cases hstop' : (rules.map Rule.rebuilt).findSome? (Rule.stop? T ctx) with
    | some s' => simp
    | none => simpa using (hne hstop).symm
  | none =>
    cases hstop' : (rules.map Rule.rebuilt).findSome? (Rule.stop? T ctx) with
    | some s' =>
      rw [evaluate, evaluate, hmemory, hdurable, hstop, hstop']
      simpa using hne hstop'
    | none =>
      refine iff_of_true (evaluateFrom_map T ctx (fun rule hrule => ?_) _ _) rfl
      rw [findSome?_eq_none_iff] at hstop hstop'
      exact evaluate_rebuilt_of_allows (Rule.stop?_eq_none.mp (hstop rule hrule))
        (Rule.stop?_eq_none.mp (hstop' _ (mem_map_of_mem hrule)))

end Rebuilt

/-- **When policy depends neither on the order of the rules nor on where they are kept.** A set
allows exactly when every rule does, and then needs an approval exactly when some rule asks for one.
The verdict is that of every list with the same rules exactly if not one rule raises and another
denies. A durable set takes the rules and gives the same result, with its reason, exactly if every
integer in them can be written and the first rule that stops the loop does so alike with the names
as they are read back. -/
theorem policy_order_and_persistence {F : Type} (T : Floats F) (rules : List (Rule F))
    (ctx : Context F) :
    ((∃ r, evaluate T rules ctx = .ok r ∧ r.allowed = true) ↔
      ∀ rule ∈ rules, rule.Allows T ctx) ∧
    (∀ r, evaluate T rules ctx = .ok r → r.allowed = true →
      (r.needsApproval = true ↔ ∃ rule ∈ rules, rule.asks T ctx = true)) ∧
    ((∀ rules' : List (Rule F), (∀ rule, rule ∈ rules' ↔ rule ∈ rules) →
        verdict T rules' ctx = verdict T rules ctx) ↔
      ¬((∃ rule ∈ rules, rule.Raises T ctx) ∧ ∃ rule ∈ rules, rule.Denies T ctx)) ∧
    ((∃ d, rules.foldlM (DurablePolicySet.add T) {} = .ok d ∧
        d.evaluate T ctx = evaluate T rules ctx) ↔
      (∀ rule ∈ rules, rule.numbers.all isPrintable = true) ∧
        (rules.map Rule.rebuilt).findSome? (Rule.stop? T ctx) =
          rules.findSome? (Rule.stop? T ctx)) := by
  have hverdict : ∀ r, evaluate T rules ctx = .ok r → r.allowed = true →
      (∀ rule ∈ rules, rule.Allows T ctx) ∧
        r.needsApproval = rules.any (Rule.asks T ctx) := by
    intro r hr htrue
    have hcases := verdict_cases T ctx rules
    rw [verdict, hr] at hcases
    rcases hcases with ⟨-, heq⟩ | ⟨-, heq⟩ | ⟨hall, heq⟩
    · cases heq
    · have hfalse : r.allowed = false := (Prod.mk.inj (Except.ok.inj heq)).1
      rw [hfalse] at htrue
      cases htrue
    · exact ⟨hall, (Prod.mk.inj (Except.ok.inj heq)).2⟩
  refine ⟨⟨?_, fun hall => ?_⟩, fun r hr htrue => ?_, verdict_congr_iff, ?_⟩
  · rintro ⟨r, hr, htrue⟩
    exact (hverdict r hr htrue).1
  · obtain ⟨reason, heq⟩ := evaluateFrom_eq (T := T) rules false (.ofString "")
    have hnone : rules.findSome? (Rule.stop? T ctx) = none :=
      findSome?_eq_none_iff.mpr fun rule hrule => Rule.stop?_eq_none.mpr (hall rule hrule)
    rw [hnone] at heq
    exact ⟨_, heq, rfl⟩
  · rw [(hverdict r hr htrue).2, any_eq_true]
  · simp only [foldlM_add, and_assoc, exists_and_left, exists_eq_left, DurablePolicySet.evaluate,
      rules_of_rows, Except.ok_bind, evaluate_rebuilt_iff]

/-- The only float is not a number, and nothing is greater than it or less. -/
def sampleFloats : Floats Unit where
  write _ := "NaN".toList
  read cs := if cs = "NaN".toList then some () else none
  read_write _ := if_pos rfl
  ne_nil _ := by decide
  isToken _ := by decide
  not_int _ := by decide
  gt
    | .int m, .int n => n < m
    | _, _ => false
  str _ := .ofString "nan"

/-- A call of the capability, on a Monday at ten. -/
def sampleContext (capability : PyString) : Context Unit where
  capability
  cost := .int 7
  srcProtocol := some (.ofString "mcp")
  dstProtocol := some (.ofString "a2a")
  weekday := 0
  hour := 10

/-- A rule of every kind. -/
def sampleRules : List (Rule Unit) :=
  [.maxCostPerCall (.float ()), .requireApprovalAboveCost (.int 5),
    .allowOnlyCapabilities [.ofString "read", .ofString "read"], businessHours,
    .denyProtocolRoute (.ofString "a2a") (.ofString "mcp"), .denyCapabilities [.ofString "write"]]

theorem policy_order_and_persistence_sample :
    (∃ d, sampleRules.foldlM (DurablePolicySet.add sampleFloats) {} = .ok d ∧
      d.evaluate sampleFloats (sampleContext (.ofString "read")) =
        evaluate sampleFloats sampleRules (sampleContext (.ofString "read"))) ∧
    evaluate sampleFloats sampleRules (sampleContext (.ofString "read")) =
      .ok ⟨true, .ofString "approval required: cost 7 > 5", true⟩ := by
  obtain ⟨-, -, -, hiff⟩ :=
    policy_order_and_persistence sampleFloats sampleRules (sampleContext (.ofString "read"))
  exact ⟨hiff.mpr ⟨by decide +kernel, by decide +kernel⟩, by decide +kernel⟩

/-- The two halves of one character, next to each other. -/
def halves : PyString := ⟨[0xd83d, 0xde00], by decide⟩

/-- A denied name of two halves: the set in memory denies the call, the durable set allows it. -/
theorem joined_capability :
    evaluate sampleFloats [.denyCapabilities [halves]] (sampleContext halves) =
      .ok ⟨false, message [.ofString "capability '", halves, .ofString "' is denied by policy"],
        false⟩ ∧
    ∃ d, ([.denyCapabilities [halves]] : List (Rule Unit)).foldlM
        (DurablePolicySet.add sampleFloats) {} = .ok d ∧
      d.evaluate sampleFloats (sampleContext halves) = .ok ⟨true, .ofString "policy ok", false⟩ := by
  refine ⟨by decide +kernel, _, (foldlM_add _ _ _ _).mpr ⟨by decide, rfl⟩, ?_⟩
  rw [DurablePolicySet.evaluate, rules_of_rows, Except.ok_bind]
  decide +kernel

end AgentBridge.Policy
