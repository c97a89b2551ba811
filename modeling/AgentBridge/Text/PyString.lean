import AgentBridge.Basic
import AgentBridge.Text.Json

/-!
# Python strings

A Python string is a list of code points. It may contain NUL and halves of surrogate pairs;
`json.dumps` writes both as ASCII escapes. Reading the literal back gives the normal form of the
string, in which adjacent halves of a pair have become one code point. The normal form is written
in the same way.

* `PyString` : a Python `str`.
* `PyString.norm` : what `json.loads` makes of the literal.
* `isEncodable`, `isPgText` : strings that a driver can encode, and that PostgreSQL can hold.
* `escape_norm`, `norm_norm`, `readString_escape` : how writing and reading fit together.
-/

namespace AgentBridge

open JsonText List Bool

/-- A Python `str`: a list of code points, surrogates included. -/
structure PyString where
  codes : List ℕ
  valid : ∀ c ∈ codes, c < 0x110000
  deriving DecidableEq

namespace PyString

variable {s : PyString}

@[ext] theorem ext {t : PyString} (h : s.codes = t.codes) : s = t := by
  cases s
  cases t
  cases h
  rfl

/-- A literal. -/
def ofString (text : String) : PyString where
  codes := text.toList.map Char.toNat
  valid c hc := by
    obtain ⟨ch, -, rfl⟩ := mem_map.mp hc
    have h := ch.valid
    simp only [UInt32.isValidChar, Nat.isValidChar] at h
    show ch.val.toNat < 0x110000
    omega

theorem ofString_inj {s t : String} : ofString s = ofString t ↔ s = t := by
  constructor
  · intro h
    have hcodes : s.toList.map Char.toNat = t.toList.map Char.toNat := congrArg codes h
    have hinjective : Function.Injective Char.toNat := fun c d hcd =>
      Char.ext (UInt32.toNat.inj hcd)
    exact String.toList_injective (map_injective_iff.mpr hinjective hcodes)
  · intro h
    exact congrArg ofString h

def append (s t : PyString) : PyString where
  codes := s.codes ++ t.codes
  valid c hc := (mem_append.mp hc).elim (s.valid c) (t.valid c)

/-- Whitespace in the sense of `str.strip`. -/
def isSpaceCode (n : ℕ) : Bool := isSpace (Char.ofNat n)

/-- `_identifier`. -/
def isIdentifier (s : PyString) : Bool :=
  1 ≤ s.codes.length && s.codes.length ≤ 128 && s.codes.head?.all (fun c => !isSpaceCode c) &&
    s.codes.getLast?.all fun c => !isSpaceCode c

/-- The string that `json.loads` makes of the literal. -/
def norm (s : PyString) : PyString := ⟨join s.codes, join_lt s.valid⟩

/-- The string has no half of a surrogate pair, so that it can be encoded as UTF-8. -/
def isEncodable (s : PyString) : Bool := s.codes.all fun c => !isSurrogate c

/-- The code points of a string, if they are code points. -/
def ofCodes? (codes : List ℕ) : Option PyString :=
  if h : ∀ c ∈ codes, c < 0x110000 then some ⟨codes, h⟩ else none

theorem ofCodes?_codes (s : PyString) : ofCodes? s.codes = some s := dif_pos s.valid

theorem toNat_ofNat_eq (n : ℕ) : (Char.ofNat n).toNat = n ∨ (Char.ofNat n).toNat = 0 := by
  by_cases hvalid : n.isValidChar
  · left
    rw [Char.ofNat, dif_pos hvalid]
    rfl
  · right
    rw [Char.ofNat, dif_neg hvalid]
    rfl

/-- No code point outside the basic plane is whitespace. -/
theorem isSpaceCode_of_le {n : ℕ} (h : 0x10000 ≤ n) : isSpaceCode n = false := by
  rcases toNat_ofNat_eq n with heq | heq
  · simp only [isSpaceCode, isSpace, heq, or_eq_false_iff, and_eq_false_iff,
      decide_eq_false_iff_not, beq_eq_false_iff_ne]
    omega
  · simp only [isSpaceCode, isSpace, heq]
    decide

theorem isIdentifier_norm (h : s.isIdentifier = true) : s.norm.isIdentifier = true := by
  simp only [isIdentifier, and_eq_true, decide_eq_true_eq, Option.all_eq_true,
    not_eq_true'] at h ⊢
  obtain ⟨⟨⟨hpos, hle⟩, hfirst⟩, hlast⟩ := h
  have hne : s.norm.codes ≠ [] := join_ne_nil (ne_nil_of_length_pos hpos)
  refine ⟨⟨⟨length_pos_of_ne_nil hne, (length_join_le _).trans hle⟩, fun c hc => ?_⟩,
    fun c hc => ?_⟩
  · rcases head_join hc with hold | hbig
    · exact hfirst c hold
    · exact isSpaceCode_of_le hbig
  · rcases getLast_join hc with hold | hbig
    · exact hlast c hold
    · exact isSpaceCode_of_le hbig

theorem escape_norm (s : PyString) : escape s.norm.codes = escape s.codes := escape_join s.valid

theorem norm_norm (s : PyString) : s.norm.norm = s.norm := by
  apply ext
  have hunits : ∀ u ∈ s.codes.flatMap units, u < 0x10000 := by
    intro u hu
    obtain ⟨c, hc, hu⟩ := mem_flatMap.mp hu
    exact units_lt (s.valid c hc) u hu
  calc join (join s.codes)
      = join ((join s.codes).flatMap units) := (join_units (join_lt s.valid)).symm
    _ = join ((join (s.codes.flatMap units)).flatMap units) := by rw [join_units s.valid]
    _ = join (s.codes.flatMap units) := by rw [units_join hunits]
    _ = join s.codes := join_units s.valid

theorem norm_of_isEncodable (h : s.isEncodable = true) : s.norm = s := by
  apply ext
  refine join_eq_self fun c hc => ?_
  simpa using all_eq_true.mp h c hc

/-- A high surrogate stands directly before a low one. -/
def hasPair (s : PyString) : Bool := JsonText.hasPair s.codes

/-- Exactly the strings without adjacent halves of a pair are read back as they were. -/
theorem norm_eq_self_iff : s.norm = s ↔ s.hasPair = false := by
  rw [hasPair, ← join_eq_self_iff]
  exact ⟨fun h => congrArg codes h, fun h => ext h⟩

theorem isEncodable_ofString (text : String) : (ofString text).isEncodable = true := by
  refine all_eq_true.mpr fun c hc => ?_
  obtain ⟨ch, -, rfl⟩ := mem_map.mp hc
  have h := ch.valid
  simp only [UInt32.isValidChar, Nat.isValidChar] at h
  have hval : ch.toNat = ch.val.toNat := rfl
  simp only [isSurrogate, hval, not_eq_true', and_eq_false_iff, decide_eq_false_iff_not]
  omega

/-- A string that PostgreSQL can hold: no NUL and no half of a pair. -/
def isPgText (s : PyString) : Bool := s.isEncodable && !s.codes.contains 0

/-- A string literal after its opening quote. -/
def readString (cs : List Char) : Option (PyString × List Char) := do
  let (units, rest) ← scan cs
  let s ← ofCodes? (join units)
  return (s, rest)

theorem readString_escape (s : PyString) (rest : List Char) :
    readString (escape s.codes ++ '"' :: rest) = some (s.norm, rest) := by
  have hcodes : ofCodes? (join (s.codes.flatMap units)) = some s.norm := by
    rw [join_units s.valid]
    exact ofCodes?_codes s.norm
  simp [readString, scan_escape s.valid, hcodes]

end PyString

end AgentBridge
