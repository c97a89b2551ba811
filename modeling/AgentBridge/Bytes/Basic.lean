import AgentBridge.Table.Basic
import Mathlib.Algebra.Order.Group.Nat
import Mathlib.Data.List.Induction

/-!
# Byte strings

Operations on byte strings as text protocols use them, with the lemmas that turn a successful read
into an equation between byte strings.

* `Bytes.lower`, `Bytes.strip` : ASCII case and ASCII whitespace.
* `Bytes.lines` : split at CRLF. No line has a CRLF (`not_infix_of_mem_lines`), and the lines with a
  CRLF between them are the text (`intercalate_lines`).
* `Bytes.toNat`, `Bytes.ofNat` : big-endian numbers.
* `Bytes.segment` : the next bytes, as many as asked for.
-/

/-- A byte string. -/
abbrev Bytes := List UInt8

namespace Bytes

open List

/-- An ASCII literal. -/
def ascii (s : String) : Bytes := s.toList.map fun c => c.toNat.toUInt8

/-! ### Case and whitespace -/

def lowerByte (b : UInt8) : UInt8 := if 65 ≤ b ∧ b ≤ 90 then b + 32 else b

/-- Lower-case letters. -/
def lower (s : Bytes) : Bytes := s.map lowerByte

def isSpace (b : UInt8) : Bool := b = 32 || (9 ≤ b && b ≤ 13)

/-- Without whitespace at both ends. -/
def strip (s : Bytes) : Bytes := ((s.dropWhile isSpace).reverse.dropWhile isSpace).reverse

def isAscii (s : Bytes) : Bool := s.all (· < 128)

@[simp] theorem lower_append (s t : Bytes) : lower (s ++ t) = lower s ++ lower t := map_append

@[simp] theorem lower_cons (b : UInt8) (s : Bytes) : lower (b :: s) = lowerByte b :: lower s := rfl

variable {b : UInt8} {s : Bytes}

/-- Only a byte that is no letter is kept as it is and is not the result for a letter. -/
theorem lowerByte_eq {c : UInt8} (hc : c < 97) : lowerByte b = c ↔ b = c ∧ ¬(65 ≤ b ∧ b ≤ 90) := by
  unfold lowerByte
  split
  case isTrue h =>
    constructor
    · intro heq
      have : b.toNat + 32 = c.toNat := by
        have hadd : (b + 32).toNat = b.toNat + 32 := by
          have := UInt8.le_iff_toNat_le.mp h.2
          rw [UInt8.toNat_add]
          simp at this ⊢
          omega
        rw [← hadd, heq]
      have h65 := UInt8.le_iff_toNat_le.mp h.1
      have h97 := UInt8.lt_iff_toNat_lt.mp hc
      simp at h65 h97
      omega
    · rintro ⟨-, hno⟩
      exact absurd h hno
  case isFalse h => exact ⟨fun heq => ⟨heq, h⟩, fun heq => heq.1⟩

theorem mem_lower {c : UInt8} (hc : c < 65) : c ∈ lower s ↔ c ∈ s := by
  have hc' : c < 97 := UInt8.lt_trans hc (by decide)
  constructor
  · intro h
    obtain ⟨b, hb, heq⟩ := mem_map.mp h
    rwa [((lowerByte_eq hc').mp heq).1] at hb
  · intro h
    refine mem_map.mpr ⟨c, h, (lowerByte_eq hc').mpr ⟨rfl, fun hletter => ?_⟩⟩
    exact absurd hc (UInt8.not_lt.mpr hletter.1)

/-! ### Lines -/

def crlf : Bytes := [13, 10]

/-- Split at CRLF. -/
def lines : Bytes → List Bytes
  | [] => [[]]
  | [b] => [[b]]
  | b :: c :: rest =>
    if b = 13 ∧ c = 10 then [] :: lines rest else (lines (c :: rest)).modifyHead (b :: ·)

theorem lines_ne_nil (s : Bytes) : lines s ≠ [] := by
  fun_induction lines s with
  | case1 | case2 | case3 => simp
  | case4 b c rest h ih =>
    intro hnil
    exact ih (by simpa using congrArg List.length hnil)

/-- The lines with a CRLF between them are the text. -/
theorem intercalate_lines (s : Bytes) : crlf.intercalate (lines s) = s := by
  fun_induction lines s with
  | case1 => rfl
  | case2 b => simp
  | case3 b c rest h ih =>
    obtain ⟨rfl, rfl⟩ := h
    obtain ⟨line, rest', hlines⟩ := exists_cons_of_ne_nil (lines_ne_nil rest)
    rw [hlines] at ih ⊢
    rw [intercalate_cons_cons, ih]
    rfl
  | case4 b c rest h ih =>
    obtain ⟨line, rest', hlines⟩ := exists_cons_of_ne_nil (lines_ne_nil (c :: rest))
    rw [hlines] at ih ⊢
    cases rest' with
    | nil =>
      simp only [intercalate_singleton] at ih
      simp [ih]
    | cons line' rest'' =>
      rw [intercalate_cons_cons] at ih
      simp only [modifyHead_cons]
      rw [intercalate_cons_cons, cons_append, cons_append, ih]

theorem not_infix_of_mem_lines {line : Bytes} (h : line ∈ lines s) : ¬crlf <:+: line := by
  fun_induction lines s generalizing line with
  | case1 =>
    cases mem_singleton.mp h
    simp [crlf]
  | case2 b =>
    cases mem_singleton.mp h
    intro hinfix
    have := hinfix.length_le
    simp [crlf] at this
  | case3 b c rest hcrlf ih =>
    rcases mem_cons.mp h with rfl | hmem
    · simp [crlf]
    · exact ih hmem
  | case4 b c rest hcrlf ih =>
    obtain ⟨first, rest', hlines⟩ := exists_cons_of_ne_nil (lines_ne_nil (c :: rest))
    rw [hlines] at h ih
    rcases mem_cons.mp h with rfl | hmem
    · -- a CRLF in the first line is there after its first byte, or at it
      intro hinfix
      rcases infix_cons_iff.mp hinfix with hprefix | hinfix'
      · obtain ⟨tail, htail⟩ := hprefix
        obtain ⟨rfl, rfl⟩ : b = 13 ∧ first = 10 :: tail := by simpa [crlf] using htail.symm
        have htext := intercalate_lines (c :: rest)
        rw [hlines] at htext
        have hc : c = 10 := by
          cases rest' with
          | nil => simpa using (List.cons.inj htext).1.symm
          | cons line' rest'' =>
            rw [intercalate_cons_cons] at htext
            exact (List.cons.inj htext).1.symm
        exact hcrlf ⟨rfl, hc⟩
      · exact ih (mem_cons_self) hinfix'
    · exact ih (mem_cons_of_mem _ hmem)

/-- The text before a CRLF and the text after it are split on their own. -/
theorem lines_append (s t : Bytes) : lines (s ++ 13 :: 10 :: t) = lines s ++ lines t := by
  fun_induction lines s with
  | case1 => simp [lines]
  | case2 b =>
    simp [lines]
  | case3 b c rest h ih => simp [lines, h, ih]
  | case4 b c rest h ih =>
    obtain ⟨line, rest', hlines⟩ := exists_cons_of_ne_nil (lines_ne_nil (c :: rest))
    simp only [cons_append] at ih ⊢
    rw [lines, if_neg h, ih, hlines]
    rfl

theorem intercalate_append_crlf (line : Bytes) (rest : List Bytes) :
    crlf.intercalate (line :: rest) ++ crlf =
      line ++ crlf ++ rest.flatMap fun line => line ++ crlf := by
  induction rest generalizing line with
  | nil => simp
  | cons line' rest ih =>
    rw [intercalate_cons_cons, append_assoc, ih, flatMap_cons]

/-- At its first byte `b`, a text is split in two. -/
theorem eq_append_of_mem (h : b ∈ s) :
    s = s.takeWhile (· ≠ b) ++ b :: (s.dropWhile (· ≠ b)).drop 1 := by
  induction s with
  | nil => cases h
  | cons c s ih =>
    by_cases hc : c = b
    · simp [hc]
    · have hmem : b ∈ s := by
        rcases mem_cons.mp h with rfl | hmem
        · exact absurd rfl hc
        · exact hmem
      have hne : decide (c ≠ b) = true := decide_eq_true hc
      rw [takeWhile_cons_of_pos (p := fun x => decide (x ≠ b)) hne,
        dropWhile_cons_of_pos (p := fun x => decide (x ≠ b)) hne, cons_append]
      exact congrArg (c :: ·) (ih hmem)

/-- The first `b` of a text is where it is. -/
theorem append_cons_left_inj {s' t t' : Bytes} (h : b ∉ s) (h' : b ∉ s')
    (heq : s ++ b :: t = s' ++ b :: t') : s = s' := by
  have htake : ∀ {u v : Bytes}, b ∉ u → (u ++ b :: v).takeWhile (· ≠ b) = u := by
    intro u v hu
    have hall : ∀ c ∈ u, decide (c ≠ b) = true := by
      intro c hc
      refine decide_eq_true fun hcb => hu ?_
      rwa [← hcb]
    rw [takeWhile_append_of_pos hall]
    simp
  rw [← htake h, heq, htake h']

theorem notMem_takeWhile : b ∉ s.takeWhile (· ≠ b) := by
  intro hmem
  exact of_decide_eq_true (all_eq_true.mp all_takeWhile b hmem) rfl

/-! ### Big-endian numbers -/

/-- `int.from_bytes(s, "big")`. -/
def toNat (s : Bytes) : ℕ := s.foldl (fun n b => n * 256 + b.toNat) 0

/-- The number in so many bytes. -/
def ofNat : ℕ → ℕ → Bytes
  | 0, _ => []
  | width + 1, n => ofNat width (n / 256) ++ [(n % 256).toUInt8]

theorem toNat_concat (s : Bytes) (b : UInt8) : toNat (s ++ [b]) = toNat s * 256 + b.toNat := by
  simp [toNat]

@[simp] theorem length_ofNat (width n : ℕ) : (ofNat width n).length = width := by
  induction width generalizing n with
  | zero => rfl
  | succ width ih => simp [ofNat, ih]

theorem ofNat_toNat (s : Bytes) : ofNat s.length (toNat s) = s := by
  induction s using List.reverseRecOn with
  | nil => rfl
  | append_singleton s b ih =>
    have hb : b.toNat < 256 := b.toNat_lt
    rw [length_append, length_singleton, ofNat, toNat_concat]
    have hdiv : (toNat s * 256 + b.toNat) / 256 = toNat s := by omega
    have hmod : (toNat s * 256 + b.toNat) % 256 = b.toNat := by omega
    rw [hdiv, hmod, ih]
    simp

variable {width : ℕ}

theorem ofNat_toNat_of_length (h : s.length = width) : ofNat width (toNat s) = s := by
  rw [← h]
  exact ofNat_toNat s

theorem toNat_lt (s : Bytes) : toNat s < 256 ^ s.length := by
  induction s using List.reverseRecOn with
  | nil => decide
  | append_singleton s b ih =>
    have hb : b.toNat < 256 := b.toNat_lt
    rw [toNat_concat, length_append, length_singleton, Nat.pow_succ]
    omega

theorem toNat_lt_of_length (h : s.length = width) : toNat s < 256 ^ width := by
  rw [← h]
  exact toNat_lt s

theorem toNat_ofNat {n : ℕ} (h : n < 256 ^ width) : toNat (ofNat width n) = n := by
  induction width generalizing n with
  | zero =>
    have hzero : n = 0 := by simpa using h
    rw [hzero]
    rfl
  | succ width ih =>
    rw [Nat.pow_succ] at h
    have hlow : ((n % 256).toUInt8).toNat = n % 256 := by
      rw [Nat.toUInt8_eq, UInt8.toNat_ofNat']
      omega
    rw [ofNat, toNat_concat, ih (by omega), hlow]
    omega

/-! ### Reading -/

/-- The bytes from a position on: so many of them, and the rest. -/
theorem take_append_drop_add (s : Bytes) (start width : ℕ) :
    (s.drop start).take width ++ s.drop (start + width) = s.drop start := by
  rw [← drop_drop, take_append_drop]

/-- The next bytes, and the rest. -/
def segment {ε : Type*} (e : ε) (data : Bytes) (width : ℕ) : Except ε (Bytes × Bytes) := do
  require (width ≤ data.length) e
  return (data.take width, data.drop width)

theorem segment_eq_ok {ε : Type*} {e : ε} {data value rest : Bytes}
    (h : segment e data width = .ok (value, rest)) :
    data = value ++ rest ∧ value.length = width := by
  obtain ⟨_, hwidth, h⟩ := Except.bind_eq_ok.mp h
  rw [require_eq_ok, decide_eq_true_eq] at hwidth
  cases h
  exact ⟨(take_append_drop width data).symm, length_take_of_le hwidth⟩

theorem segment_append {ε : Type*} (e : ε) {value : Bytes} (h : value.length = width)
    (rest : Bytes) : segment e (value ++ rest) width = .ok (value, rest) := by
  have hwidth : decide (width ≤ (value ++ rest).length) = true := by
    rw [length_append]
    exact decide_eq_true (by omega)
  unfold segment
  rw [hwidth, take_left' h, drop_left' h]
  rfl

end Bytes
