import AgentBridge.Text.PyString

/-!
# JSON values as a program sees them

The values that `json.loads` returns, with the operations of the language that raise on a value of
another type. What raises where decides which requests an adapter accepts.
-/

namespace AgentBridge.Protocols

/-- A JSON value. A float is its binary64 representation. -/
inductive Value
  | null
  | bool (b : Bool)
  | int (n : ℤ)
  | float (bits : BitVec 64)
  | str (s : PyString)
  | list (items : List Value)
  | dict (items : List (PyString × Value))

/-- Exceptions of an adapter. -/
inductive Raised
  | malformedWireError (message : String)
  | valueError (message : String)
  /-- The value has no such method. -/
  | attributeError
  /-- The value is not iterable. -/
  | typeError
  deriving DecidableEq

namespace Value

/-- A string of the source. -/
def text (s : String) : Value := .str (.ofString s)

/-- `{}`. -/
def empty : Value := .dict []

/-- An object with fixed keys. -/
def object (items : List (String × Value)) : Value :=
  .dict (items.map fun item => (.ofString item.1, item.2))

/-- `type(value).__name__`. -/
def typeName : Value → String
  | .null => "NoneType"
  | .bool _ => "bool"
  | .int _ => "int"
  | .float _ => "float"
  | .str _ => "str"
  | .list _ => "list"
  | .dict _ => "dict"

/-- `bool(value)`. -/
def isTruthy : Value → Bool
  | .null => false
  | .bool b => b
  | .int n => n ≠ 0
  -- both zeros are false, whatever the sign bit
  | .float bits => bits.toNat % 2 ^ 63 ≠ 0
  | .str s => !s.codes.isEmpty
  | .list items => !items.isEmpty
  | .dict items => !items.isEmpty

/-- `a or b`. -/
def or (a b : Value) : Value := if a.isTruthy then a else b

/-- `value is None`. -/
def isNone : Value → Bool
  | .null => true
  | _ => false

/-- `value == "..."`. -/
def isText (v : Value) (s : String) : Bool :=
  match v with
  | .str t => t = .ofString s
  | _ => false

def isStr : Value → Bool
  | .str _ => true
  | _ => false

def isList : Value → Bool
  | .list _ => true
  | _ => false

def isDict : Value → Bool
  | .dict _ => true
  | _ => false

/-- The entry of an object, if the value is one and has it. -/
def find (v : Value) (key : String) : Option Value :=
  match v with
  | .dict items => items.lookup (.ofString key)
  | _ => none

/-- `value.get(key, default)`. -/
def get (v : Value) (key : String) (default : Value) : Except Raised Value := do
  require v.isDict .attributeError
  return (v.find key).getD default

/-- `for item in value`: an object yields its keys, and a string its characters. -/
def iterate : Value → Except Raised (List Value)
  | .list items => .ok items
  | .dict items => .ok (items.map fun item => .str item.1)
  | .str s => .ok (s.codes.filterMap fun c => (PyString.ofCodes? [c]).map .str)
  | _ => .error .typeError

/-- `require_mapping`. -/
def requireMapping (v : Value) (proto : String) (what : String) : Except Raised Unit :=
  require v.isDict
    (.malformedWireError s!"{proto}: expected a JSON object for the {what}, got {v.typeName}")

section Lemmas

variable {items : List (String × Value)} {key key' : String} {v default : Value}

theorem find_object_cons : (object ((key, v) :: items)).find key' =
    if key' = key then some v else (object items).find key' := by
  by_cases h : key' = key
  · subst h
    rw [if_pos rfl]
    exact List.lookup_cons_self
  · have hne : (PyString.ofString key' == PyString.ofString key) = false := by
      simp [PyString.ofString_inj, h]
    rw [if_neg h]
    exact List.lookup_cons.trans (by rw [hne]; rfl)

@[simp] theorem find_object_nil : (object []).find key = none := rfl

@[simp] theorem isDict_object : (object items).isDict = true := rfl

theorem get_object : (object items).get key default =
    .ok (((object items).find key).getD default) := rfl

@[simp] theorem isTruthy_text_nil : (text "").isTruthy = false := rfl

@[simp] theorem isNone_null : null.isNone = true := rfl

@[simp] theorem isText_null {s : String} : null.isText s = false := rfl

@[simp] theorem isNone_str {s : PyString} : (str s).isNone = false := rfl

@[simp] theorem isNone_list {items : List Value} : (list items).isNone = false := rfl

@[simp] theorem isNone_dict {items : List (PyString × Value)} : (dict items).isNone = false := rfl

@[simp] theorem isNone_text {s : String} : (text s).isNone = false := rfl

@[simp] theorem isText_text {s s' : String} : (text s).isText s' = decide (s = s') := by
  simp [text, isText, PyString.ofString_inj]

theorem or_of_isTruthy {a b : Value} (h : a.isTruthy = true) : a.or b = a := if_pos h

end Lemmas

end Value

end AgentBridge.Protocols
