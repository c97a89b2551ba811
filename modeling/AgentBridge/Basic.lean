import Mathlib.Data.Rat.Init
import Mathlib.Algebra.Order.Ring.Rat
import Mathlib.Data.List.Sort
import AgentBridge.Table.Basic

/-!
# Shared vocabulary of the governance kernel

Exceptions, clock values and the input checks that several services share.
-/

namespace AgentBridge

/-- A clock reading in seconds. -/
abbrev Time := ℚ

/-- The exceptions raised by the governance services, with their text. -/
inductive Fault
  | admissionRejected (message : String)
  | authorityDenied (message : String)
  | operationConflict (message : String)
  | permissionError (message : String)
  | quotaDenied (message : String)
  | reconciliationError (message : String)
  | runtimeError (message : String)
  | valueError (message : String)
  | integrityError (message : String)
  deriving DecidableEq, Repr

/-- The two SQL backends. -/
inductive Backend
  | sqlite
  | postgres
  deriving DecidableEq, Repr

/-! ### Text checks -/

/-- Whitespace in the sense of `str.strip`. -/
def isSpace (c : Char) : Bool :=
  let n := c.toNat
  (9 ≤ n && n ≤ 13) || (28 ≤ n && n ≤ 32) || n == 0x85 || n == 0xA0 || n == 0x1680 ||
    (0x2000 ≤ n && n ≤ 0x200A) || n == 0x2028 || n == 0x2029 || n == 0x202F || n == 0x205F ||
    n == 0x3000

/-- `value.strip() == value`. -/
def isStripped (value : String) : Bool :=
  value.toList.head?.all (fun c => !isSpace c) && value.toList.getLast?.all (fun c => !isSpace c)

/-- `any(ord(c) < 32 for c in value)`. -/
def hasControl (value : String) : Bool := value.toList.any fun c => c.toNat < 32

/-- `re.fullmatch(r"[A-Za-z0-9][A-Za-z0-9_.:-]{0,127}", value)`. -/
def isIdentifier (value : String) : Bool :=
  match value.toList with
  | [] => false
  | c :: cs =>
    c.isAlphanum && cs.length ≤ 127 &&
      cs.all fun c => c.isAlphanum || c == '_' || c == '.' || c == ':' || c == '-'

/-- `re.fullmatch(r"[a-fA-F0-9]{n}", value)`. -/
def isHex (n : ℕ) (value : String) : Bool :=
  let cs := value.toList
  cs.length == n && cs.all fun c => c.isDigit || ('a' ≤ c && c ≤ 'f') || ('A' ≤ c && c ≤ 'F')

/-- `_identifier`. -/
def identifier (value label : String) : Except Fault Unit :=
  require (isIdentifier value) (.valueError ("invalid bounded " ++ label))

/-- `_subject`. -/
def subject (value : String) : Except Fault Unit :=
  require (1 ≤ value.length && value.length ≤ 256 && isStripped value && !hasControl value)
    (.valueError "invalid bounded subject")

/-- One scope name is bounded, stripped, printable and free of wildcards. -/
def isScope (v : String) : Bool :=
  1 ≤ v.length && v.length ≤ 128 && isStripped v && !v.toList.contains '*' && !hasControl v

/-- `_scopes`: the checked scope names, sorted and without repetition. -/
def scopes (values : List String) : Except Fault (List String) := do
  require (values.length ≤ 128) (.valueError "explicit bounded scopes required")
  require (values.all isScope) (.valueError "invalid scope; wildcards are prohibited")
  return values.dedup.insertionSort (· ≤ ·)

end AgentBridge
