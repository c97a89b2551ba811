import Mathlib.Data.List.Basic
import Mathlib.Data.Nat.Digits.Lemmas
import Mathlib.Tactic.IntervalCases

/-!
# JSON string literals in ASCII

A text is the list of its code points. Unlike a Unicode scalar value a code point may be a
surrogate, so a text may hold half a pair. `escape` writes a text as the inside of a JSON string
literal that has ASCII characters only: a code point above the basic plane becomes a surrogate pair
of two `\u` escapes, a lone surrogate becomes one.

Reading the literal back (`scan`, `join`) puts two adjacent halves together. So a text with a lone
high surrogate followed by a lone low one is not read back as it was; it is read back in the normal
form `join`.

* `join_units` : splitting a text and joining it again is joining it.
* `join_eq_self_iff` : a text without adjacent halves is in normal form, and no other.
* `scan_escape` : **what was written is read back**, up to `join`.
* `escape_join` : the normal form is written in the same way.
* `length_escape_le` : a literal has at most twelve characters for each code point.
-/

namespace JsonText

open List

/-! ### Surrogates -/

def isHigh (n : ℕ) : Bool := 0xd800 ≤ n && n ≤ 0xdbff

def isLow (n : ℕ) : Bool := 0xdc00 ≤ n && n ≤ 0xdfff

def isSurrogate (n : ℕ) : Bool := 0xd800 ≤ n && n ≤ 0xdfff

/-- The code point of a pair. -/
def combine (hi lo : ℕ) : ℕ := 0x10000 + (hi - 0xd800) * 0x400 + (lo - 0xdc00)

/-- The UTF-16 units of a code point. -/
def units (n : ℕ) : List ℕ :=
  if n < 0x10000 then [n]
  else [0xd800 + (n - 0x10000) / 0x400, 0xdc00 + (n - 0x10000) % 0x400]

/-- Put adjacent halves of a pair together, from left to right. -/
def join : List ℕ → List ℕ
  | hi :: lo :: rest =>
    if isHigh hi && isLow lo then combine hi lo :: join rest else hi :: join (lo :: rest)
  | ns => ns

variable {n hi lo : ℕ} {s : List ℕ}

theorem units_of_lt (h : n < 0x10000) : units n = [n] := by
  simp [units, h]

theorem units_combine (h : isHigh hi = true) (h' : isLow lo = true) :
    units (combine hi lo) = [hi, lo] := by
  simp only [isHigh, isLow, Bool.and_eq_true, decide_eq_true_eq] at h h'
  have hnot : ¬combine hi lo < 0x10000 := by unfold combine; omega
  have hhi : 0xd800 + (combine hi lo - 0x10000) / 0x400 = hi := by unfold combine; omega
  have hlo : 0xdc00 + (combine hi lo - 0x10000) % 0x400 = lo := by unfold combine; omega
  rw [units, if_neg hnot, hhi, hlo]

/-- A code point above the basic plane is a pair. -/
theorem exists_pair (h : ¬n < 0x10000) (h' : n < 0x110000) :
    ∃ hi lo, units n = [hi, lo] ∧ isHigh hi = true ∧ isLow lo = true ∧ combine hi lo = n := by
  refine ⟨0xd800 + (n - 0x10000) / 0x400, 0xdc00 + (n - 0x10000) % 0x400, if_neg h, ?_, ?_, ?_⟩
  · simp only [isHigh, Bool.and_eq_true, decide_eq_true_eq]
    omega
  · simp only [isLow, Bool.and_eq_true, decide_eq_true_eq]
    omega
  · unfold combine
    omega

theorem not_isLow_of_isHigh (h : isHigh n = true) : isLow n = false := by
  simp only [isHigh, Bool.and_eq_true, decide_eq_true_eq] at h
  simp only [isLow, Bool.and_eq_false_iff, decide_eq_false_iff_not]
  omega

theorem lt_of_isHigh (h : isHigh n = true) : n < 0x10000 := by
  simp only [isHigh, Bool.and_eq_true, decide_eq_true_eq] at h
  omega

theorem lt_of_isLow (h : isLow n = true) : n < 0x10000 := by
  simp only [isLow, Bool.and_eq_true, decide_eq_true_eq] at h
  omega

theorem isSurrogate_eq (n : ℕ) : isSurrogate n = (isHigh n || isLow n) := by
  rw [Bool.eq_iff_iff]
  simp only [isSurrogate, isHigh, isLow, Bool.and_eq_true, Bool.or_eq_true, decide_eq_true_eq]
  omega

theorem join_pair (rest : List ℕ) (h : isHigh hi = true) (h' : isLow lo = true) :
    join (hi :: lo :: rest) = combine hi lo :: join rest := by
  rw [join, h, h']
  rfl

/-- A unit that is not the first half of a pair stays alone. -/
theorem join_cons {ns : List ℕ} (h : isHigh n = true → ∀ m ∈ ns.head?, isLow m = false) :
    join (n :: ns) = n :: join ns := by
  cases ns with
  | nil => rfl
  | cons m ms =>
    have hnot : ¬(isHigh n && isLow m) = true := by
      intro hpair
      obtain ⟨hn, hm⟩ := Bool.and_eq_true_iff.mp hpair
      rw [h hn m (by simp)] at hm
      cases hm
    rw [join, if_neg hnot]

/-- The first unit of a text is a low surrogate only if the text starts with one. -/
theorem head_units (hs : ∀ c ∈ s, c < 0x110000) (h : ∀ m ∈ s.head?, isLow m = false) :
    ∀ m ∈ (s.flatMap units).head?, isLow m = false := by
  cases s with
  | nil => simp
  | cons c s =>
    intro m hm
    by_cases hc : c < 0x10000
    · rw [flatMap_cons, units_of_lt hc] at hm
      obtain rfl : c = m := by simpa using hm
      exact h c (by simp)
    · obtain ⟨hi, lo, hunits, hhi, -, -⟩ := exists_pair hc (hs c (by simp))
      rw [flatMap_cons, hunits] at hm
      obtain rfl : hi = m := by simpa using hm
      exact not_isLow_of_isHigh hhi

/-- **Splitting a text and joining it again is joining it.** -/
theorem join_units (hs : ∀ c ∈ s, c < 0x110000) : join (s.flatMap units) = join s := by
  induction s using join.induct with
  | case1 hi lo rest hpair ih =>
    obtain ⟨hhi, hlo⟩ := Bool.and_eq_true_iff.mp hpair
    rw [flatMap_cons, flatMap_cons, units_of_lt (lt_of_isHigh hhi),
      units_of_lt (lt_of_isLow hlo)]
    show join (hi :: lo :: rest.flatMap units) = _
    rw [join_pair _ hhi hlo, join_pair _ hhi hlo,
      ih fun c hc => hs c (mem_cons_of_mem _ (mem_cons_of_mem _ hc))]
  | case2 c d rest hpair ih =>
    have hrest : ∀ x ∈ d :: rest, x < 0x110000 := fun x hx => hs x (mem_cons_of_mem _ hx)
    have hhead : isHigh c = true → ∀ m ∈ (d :: rest).head?, isLow m = false := by
      intro hc m hm
      obtain rfl : d = m := by simpa using hm
      by_contra hlow
      exact hpair (by simp [hc, hlow])
    rw [join_cons hhead, flatMap_cons, ← ih hrest]
    by_cases hc : c < 0x10000
    · rw [units_of_lt hc]
      exact join_cons fun hhigh => head_units hrest (hhead hhigh)
    · obtain ⟨hi, lo, hunits, hhi, hlo, heq⟩ := exists_pair hc (hs c (by simp))
      rw [hunits]
      show join (hi :: lo :: (d :: rest).flatMap units) = _
      rw [join_pair _ hhi hlo, heq]
  | case3 s hshort =>
    -- at most one code point
    match s, hshort with
    | [], _ => rfl
    | [c], _ =>
      by_cases hc : c < 0x10000
      · simp [units_of_lt hc]
      · obtain ⟨hi, lo, hunits, hhi, hlo, heq⟩ := exists_pair hc (hs c (by simp))
        show join (units c ++ []) = [c]
        rw [hunits]
        show join (hi :: lo :: []) = [c]
        rw [join_pair _ hhi hlo, heq]
        rfl
    | c :: d :: rest, hshort => exact (hshort c d rest rfl).elim

/-- Splitting the normal form gives the units back. -/
theorem units_join {us : List ℕ} (hus : ∀ u ∈ us, u < 0x10000) : (join us).flatMap units = us := by
  induction us using join.induct with
  | case1 hi lo rest hpair ih =>
    obtain ⟨hhi, hlo⟩ := Bool.and_eq_true_iff.mp hpair
    rw [join_pair _ hhi hlo, flatMap_cons, units_combine hhi hlo,
      ih fun u hu => hus u (mem_cons_of_mem _ (mem_cons_of_mem _ hu))]
    rfl
  | case2 c d rest hpair ih =>
    rw [join, if_neg hpair, flatMap_cons, units_of_lt (hus c (by simp)),
      ih fun u hu => hus u (mem_cons_of_mem _ hu)]
    rfl
  | case3 s hshort =>
    match s, hshort with
    | [], _ => rfl
    | [c], _ =>
      show units c ++ [] = [c]
      rw [units_of_lt (hus c (by simp)), append_nil]
    | c :: d :: rest, hshort => exact (hshort c d rest rfl).elim

theorem units_lt (h : n < 0x110000) : ∀ u ∈ units n, u < 0x10000 := by
  intro u hu
  unfold units at hu
  split at hu
  · simp only [mem_singleton] at hu
    omega
  · simp only [mem_cons, not_mem_nil, or_false] at hu
    omega

theorem combine_lt (h : isHigh hi = true) (h' : isLow lo = true) : combine hi lo < 0x110000 := by
  simp only [isHigh, isLow, Bool.and_eq_true, decide_eq_true_eq] at h h'
  unfold combine
  omega

theorem join_lt (hs : ∀ c ∈ s, c < 0x110000) : ∀ c ∈ join s, c < 0x110000 := by
  induction s using join.induct with
  | case1 hi lo rest hpair ih =>
    obtain ⟨hhi, hlo⟩ := Bool.and_eq_true_iff.mp hpair
    rw [join_pair _ hhi hlo]
    refine forall_mem_cons.mpr ⟨combine_lt hhi hlo, ih fun c hc => ?_⟩
    exact hs c (mem_cons_of_mem _ (mem_cons_of_mem _ hc))
  | case2 c d rest hpair ih =>
    rw [join, if_neg hpair]
    obtain ⟨hc, hrest⟩ := forall_mem_cons.mp hs
    exact forall_mem_cons.mpr ⟨hc, ih hrest⟩
  | case3 s hshort =>
    match s, hshort with
    | [], _ => simp [join]
    | [c], _ => exact hs
    | c :: d :: rest, hshort => exact (hshort c d rest rfl).elim

theorem length_join_le (s : List ℕ) : (join s).length ≤ s.length := by
  induction s using join.induct with
  | case1 hi lo rest hpair ih =>
    rw [join, if_pos hpair, length_cons, length_cons, length_cons]
    omega
  | case2 c d rest hpair ih =>
    rw [join, if_neg hpair]
    simp only [length_cons] at ih ⊢
    omega
  | case3 s hshort =>
    match s, hshort with
    | [], _ => rfl
    | [c], _ => rfl
    | c :: d :: rest, hshort => exact (hshort c d rest rfl).elim

theorem join_ne_nil (h : s ≠ []) : join s ≠ [] := by
  match s, h with
  | [c], _ => simp [join]
  | c :: d :: rest, _ =>
    rw [join]
    split <;> simp

/-- A text without surrogates is in normal form. -/
theorem join_eq_self (h : ∀ c ∈ s, isSurrogate c = false) : join s = s := by
  induction s with
  | nil => rfl
  | cons c s ih =>
    have hc : isHigh c = false := by
      have := h c (by simp)
      rw [isSurrogate_eq, Bool.or_eq_false_iff] at this
      exact this.1
    have hjoin : join (c :: s) = c :: join s :=
      join_cons fun hhigh => by rw [hc] at hhigh; cases hhigh
    rw [hjoin, ih fun x hx => h x (mem_cons_of_mem _ hx)]

/-- A high surrogate stands directly before a low one. -/
def hasPair : List ℕ → Bool
  | hi :: lo :: rest => isHigh hi && isLow lo || hasPair (lo :: rest)
  | _ => false

/-- A text is in normal form exactly when it has no pair to join. -/
theorem join_eq_self_iff : join s = s ↔ hasPair s = false := by
  induction s using join.induct with
  | case1 hi lo rest hpair ih =>
    obtain ⟨hhi, hlo⟩ := Bool.and_eq_true_iff.mp hpair
    -- the code point of a pair is above every surrogate
    have hne : combine hi lo ≠ hi := by
      have := lt_of_isHigh hhi
      unfold combine
      omega
    rw [join_pair _ hhi hlo, hasPair, hpair, Bool.true_or]
    simp [hne]
  | case2 c d rest hpair ih =>
    rw [join, if_neg hpair, hasPair, Bool.not_eq_true _ |>.mp hpair, Bool.false_or,
      List.cons.injEq, and_iff_right rfl]
    exact ih
  | case3 s hshort =>
    match s, hshort with
    | [], _ => simp [join, hasPair]
    | [c], _ => simp [join, hasPair]
    | c :: d :: rest, hshort => exact (hshort c d rest rfl).elim

/-- The first code point of the normal form is the first one, or stands for a pair. -/
theorem head_join {c : ℕ} (h : c ∈ (join s).head?) : c ∈ s.head? ∨ 0x10000 ≤ c := by
  match s, h with
  | [], h => exact .inl h
  | [d], h => exact .inl h
  | d :: e :: rest, h =>
    rw [join] at h
    split at h
    case isTrue =>
      right
      obtain rfl : combine d e = c := by simpa using h
      unfold combine
      omega
    case isFalse => exact .inl (by simpa using h)

theorem getLast_join {c : ℕ} (h : c ∈ (join s).getLast?) : c ∈ s.getLast? ∨ 0x10000 ≤ c := by
  induction s using join.induct with
  | case1 hi lo rest hpair ih =>
    rw [join, if_pos hpair] at h
    by_cases hrest : rest = []
    · subst hrest
      right
      obtain rfl : combine hi lo = c := by simpa [join] using h
      unfold combine
      omega
    · have hjoin := join_ne_nil hrest
      rw [getLast?_cons_of_ne_nil hjoin] at h
      rw [getLast?_cons_of_ne_nil (by simp), getLast?_cons_of_ne_nil hrest]
      exact ih h
  | case2 d e rest hpair ih =>
    rw [join, if_neg hpair, getLast?_cons_of_ne_nil (join_ne_nil (by simp))] at h
    rw [getLast?_cons_of_ne_nil (by simp)]
    exact ih h
  | case3 s hshort =>
    match s, hshort with
    | [], _ => exact .inl h
    | [d], _ => exact .inl h
    | d :: e :: rest, hshort => exact (hshort d e rest rfl).elim

/-! ### Writing and reading -/

def hexDigit (n : ℕ) : Char := Char.ofNat (if n < 10 then 48 + n else 87 + n)

/-- The four digits of a `\u` escape. -/
def hex4 (n : ℕ) : List Char :=
  [hexDigit (n / 0x1000 % 16), hexDigit (n / 0x100 % 16), hexDigit (n / 16 % 16), hexDigit (n % 16)]

def hexValue (c : Char) : Option ℕ :=
  let n := c.toNat
  if 48 ≤ n ∧ n ≤ 57 then some (n - 48)
  else if 97 ≤ n ∧ n ≤ 102 then some (n - 87)
  else if 65 ≤ n ∧ n ≤ 70 then some (n - 55)
  else none

/-- The value of four digits. -/
def readHex (a b c d : Char) : Option ℕ := do
  let a ← hexValue a
  let b ← hexValue b
  let c ← hexValue c
  let d ← hexValue d
  return a * 0x1000 + b * 0x100 + c * 16 + d

/-- One unit inside a literal. -/
def escapeUnit (n : ℕ) : List Char :=
  if n = 0x22 then ['\\', '"']
  else if n = 0x5c then ['\\', '\\']
  else if n = 0x0a then ['\\', 'n']
  else if n = 0x0d then ['\\', 'r']
  else if n = 0x09 then ['\\', 't']
  else if n = 0x08 then ['\\', 'b']
  else if n = 0x0c then ['\\', 'f']
  else if 0x20 ≤ n ∧ n ≤ 0x7e then [Char.ofNat n]
  else '\\' :: 'u' :: hex4 n

/-- The inside of the literal of a text. -/
def escape (s : List ℕ) : List Char := (s.flatMap units).flatMap escapeUnit

/-- The escapes of one letter. -/
def shortEscape : Char → Option ℕ
  | '"' => some 0x22
  | '\\' => some 0x5c
  | '/' => some 0x2f
  | 'n' => some 0x0a
  | 'r' => some 0x0d
  | 't' => some 0x09
  | 'b' => some 0x08
  | 'f' => some 0x0c
  | _ => none

/-- Read up to the closing quote; what follows it is left over. -/
def scan : List Char → Option (List ℕ × List Char)
  | [] => none
  | '"' :: rest => some ([], rest)
  | '\\' :: 'u' :: a :: b :: c :: d :: rest => do
    let n ← readHex a b c d
    let (ns, rest) ← scan rest
    return (n :: ns, rest)
  | '\\' :: e :: rest => do
    let n ← shortEscape e
    let (ns, rest) ← scan rest
    return (n :: ns, rest)
  | ch :: rest =>
    if ch.toNat < 0x20 ∨ ch = '\\' then none
    else do
      let (ns, rest) ← scan rest
      return (ch.toNat :: ns, rest)

theorem hexValue_hexDigit (h : n < 16) : hexValue (hexDigit n) = some n := by
  interval_cases n <;> rfl

theorem readHex_hex4 (h : n < 0x10000) :
    readHex (hexDigit (n / 0x1000 % 16)) (hexDigit (n / 0x100 % 16)) (hexDigit (n / 16 % 16))
      (hexDigit (n % 16)) = some n := by
  have hdigit : ∀ m, hexValue (hexDigit (m % 16)) = some (m % 16) :=
    fun m => hexValue_hexDigit (Nat.mod_lt m (by omega))
  have hn : n / 0x1000 % 16 * 0x1000 + n / 0x100 % 16 * 0x100 + n / 16 % 16 * 16 + n % 16 = n := by
    omega
  simp [readHex, hdigit, hn]

theorem toNat_ofNat (h : n < 0xd800) : (Char.ofNat n).toNat = n := by
  have hvalid : n.isValidChar := .inl h
  rw [Char.ofNat, dif_pos hvalid]
  rfl

/-- A character that needs no escape. -/
theorem scan_plain {ch : Char} (rest : List Char) (hquote : ch ≠ '"') (hslash : ch ≠ '\\')
    (hprint : 0x20 ≤ ch.toNat) :
    scan (ch :: rest) = (scan rest).map fun x => (ch.toNat :: x.1, x.2) := by
  have hnot : ¬(ch.toNat < 0x20 ∨ ch = '\\') := by
    rintro (h | h)
    · omega
    · exact hslash h
  rw [scan, if_neg hnot]
  · cases scan rest <;> rfl
  all_goals simp_all

/-- Reading one written unit. -/
theorem scan_escapeUnit (h : n < 0x10000) (rest : List Char) :
    scan (escapeUnit n ++ rest) = (scan rest).map fun x => (n :: x.1, x.2) := by
  have hshort : ∀ e : Char, e ≠ 'u' → shortEscape e = some n →
      scan ('\\' :: e :: rest) = (scan rest).map fun x => (n :: x.1, x.2) := by
    intro e he hvalue
    rw [scan, hvalue]
    · cases scan rest <;> rfl
    · exact fun _ _ _ _ _ heq => absurd heq he
  unfold escapeUnit
  split_ifs with h1 h2 h3 h4 h5 h6 h7 h8
  · subst h1; exact hshort _ (by decide) rfl
  · subst h2; exact hshort _ (by decide) rfl
  · subst h3; exact hshort _ (by decide) rfl
  · subst h4; exact hshort _ (by decide) rfl
  · subst h5; exact hshort _ (by decide) rfl
  · subst h6; exact hshort _ (by decide) rfl
  · subst h7; exact hshort _ (by decide) rfl
  · have htoNat : (Char.ofNat n).toNat = n := toNat_ofNat (by omega)
    have hplain : scan (Char.ofNat n :: rest) =
        (scan rest).map fun x => ((Char.ofNat n).toNat :: x.1, x.2) := by
      refine scan_plain rest (fun heq => h1 ?_) (fun heq => h2 ?_) ?_
      · rw [← htoNat, heq]; rfl
      · rw [← htoNat, heq]; rfl
      · rw [htoNat]; exact h8.1
    rw [htoNat] at hplain
    exact hplain
  · show scan ('\\' :: 'u' :: hexDigit _ :: hexDigit _ :: hexDigit _ :: hexDigit _ :: rest) = _
    rw [scan, readHex_hex4 h]
    cases scan rest <;> rfl

/-- **What was written is read back**, as units. -/
theorem scan_escape (hs : ∀ c ∈ s, c < 0x110000) (rest : List Char) :
    scan (escape s ++ '"' :: rest) = some (s.flatMap units, rest) := by
  have hunits : ∀ us : List ℕ, (∀ u ∈ us, u < 0x10000) →
      scan (us.flatMap escapeUnit ++ '"' :: rest) = some (us, rest) := by
    intro us hus
    induction us with
    | nil => rfl
    | cons u us ih =>
      rw [flatMap_cons, append_assoc, scan_escapeUnit (hus u (by simp)),
        ih fun v hv => hus v (mem_cons_of_mem _ hv)]
      rfl
  refine hunits _ fun u hu => ?_
  obtain ⟨c, hc, hu⟩ := mem_flatMap.mp hu
  exact units_lt (hs c hc) u hu

/-- The normal form is written in the same way. -/
theorem escape_join (hs : ∀ c ∈ s, c < 0x110000) : escape (join s) = escape s := by
  unfold escape
  rw [← join_units hs, units_join]
  intro u hu
  obtain ⟨c, hc, hu⟩ := mem_flatMap.mp hu
  exact units_lt (hs c hc) u hu

/-! ### Size -/

theorem length_escapeUnit_le (n : ℕ) : (escapeUnit n).length ≤ 6 := by
  unfold escapeUnit
  split_ifs <;> simp [hex4]

theorem length_units_le (n : ℕ) : (units n).length ≤ 2 := by
  unfold units
  split <;> simp

theorem length_flatMap_escapeUnit_le (us : List ℕ) :
    (us.flatMap escapeUnit).length ≤ 6 * us.length := by
  induction us with
  | nil => simp
  | cons u us ih =>
    have := length_escapeUnit_le u
    rw [flatMap_cons, length_append, length_cons]
    omega

/-- **A literal has at most twelve characters for each code point.** -/
theorem length_escape_le (s : List ℕ) : (escape s).length ≤ 12 * s.length := by
  have hunits : (s.flatMap units).length ≤ 2 * s.length := by
    induction s with
    | nil => simp
    | cons c s ih =>
      have := length_units_le c
      rw [flatMap_cons, length_append, length_cons]
      omega
  have := length_flatMap_escapeUnit_le (s.flatMap units)
  unfold escape
  omega

theorem flatMap_units_of_basic (h : ∀ c ∈ s, c < 0x10000) : s.flatMap units = s := by
  induction s with
  | nil => rfl
  | cons c s ih =>
    rw [flatMap_cons, units_of_lt (h c mem_cons_self),
      ih fun d hd => h d (mem_cons_of_mem _ hd)]
    rfl

theorem length_escape_of_plain (h : ∀ c ∈ s, 0x20 ≤ c ∧ c ≤ 0x7e ∧ c ≠ 0x22 ∧ c ≠ 0x5c) :
    (escape s).length = s.length := by
  unfold escape
  rw [flatMap_units_of_basic fun c hc => by have := h c hc; omega]
  induction s with
  | nil => rfl
  | cons c s ih =>
    have hc := h c mem_cons_self
    have hunit : escapeUnit c = [Char.ofNat c] := by
      unfold escapeUnit
      iterate 7 rw [if_neg (by omega)]
      rw [if_pos (by omega)]
    rw [flatMap_cons, hunit, length_append, length_cons, length_cons,
      ih fun d hd => h d (mem_cons_of_mem _ hd)]
    simp only [length_nil]
    omega

/-- Twelve for each code point beyond the basic plane. -/
theorem length_escape_of_supplementary (h : ∀ c ∈ s, 0x10000 ≤ c ∧ c < 0x110000) :
    (escape s).length = 12 * s.length := by
  have hunit : ∀ u, 0xd800 ≤ u → (escapeUnit u).length = 6 := by
    intro u hu
    unfold escapeUnit
    iterate 8 rw [if_neg (by omega)]
    rfl
  unfold escape
  induction s with
  | nil => rfl
  | cons c s ih =>
    have hc := h c mem_cons_self
    have hpair : units c = [0xd800 + (c - 0x10000) / 0x400, 0xdc00 + (c - 0x10000) % 0x400] := by
      unfold units
      rw [if_neg (by omega)]
    rw [flatMap_cons, flatMap_append, length_append, hpair,
      ih fun d hd => h d (mem_cons_of_mem _ hd)]
    have hhigh := hunit (0xd800 + (c - 0x10000) / 0x400) (by omega)
    have hlow := hunit (0xdc00 + (c - 0x10000) % 0x400) (by omega)
    simp only [flatMap_cons, flatMap_nil, length_append, length_nil, hhigh,
      hlow, length_cons]
    omega

/-- The number of bytes of a text in UTF-8. -/
def byteLength (cs : List Char) : ℕ := (cs.map Char.utf8Size).sum

theorem byteLength_of_ascii {cs : List Char} (h : ∀ c ∈ cs, c.toNat < 128) :
    byteLength cs = cs.length := by
  induction cs with
  | nil => rfl
  | cons c cs ih =>
    have hc : c.utf8Size = 1 := by
      have := h c (by simp)
      rw [Char.utf8Size_eq_one_iff]
      exact Nat.lt_succ_iff.mp this
    have ih := ih fun d hd => h d (mem_cons_of_mem _ hd)
    unfold byteLength at ih ⊢
    rw [map_cons, sum_cons, ih, hc, length_cons]
    omega

theorem hexDigit_ascii (n : ℕ) (h : n < 16) : (hexDigit n).toNat < 128 := by
  interval_cases n <;> decide

theorem escape_ascii (s : List ℕ) : ∀ c ∈ escape s, c.toNat < 128 := by
  intro c hc
  obtain ⟨u, -, hc⟩ := mem_flatMap.mp hc
  unfold escapeUnit at hc
  have hhex : ∀ m, (hexDigit (m % 16)).toNat < 128 :=
    fun m => hexDigit_ascii _ (Nat.mod_lt m (by omega))
  have hescaped : ∀ a b : Char, a.toNat < 128 → b.toNat < 128 → c ∈ [a, b] → c.toNat < 128 := by
    intro a b ha hb hmem
    simp only [mem_cons, not_mem_nil, or_false] at hmem
    rcases hmem with rfl | rfl
    · exact ha
    · exact hb
  split_ifs at hc with h1 h2 h3 h4 h5 h6 h7 h8
  iterate 7 exact hescaped _ _ (by decide) (by decide) hc
  · rw [mem_singleton.mp hc, toNat_ofNat (by omega)]
    omega
  · simp only [hex4, mem_cons, not_mem_nil, or_false] at hc
    rcases hc with rfl | rfl | rfl | rfl | rfl | rfl
    · decide
    · decide
    all_goals exact hhex _

/-! ### The other tokens of a flat object -/

/-- Read a fixed text. -/
def expect : List Char → List Char → Option (List Char)
  | [], cs => some cs
  | p :: ps, c :: cs => if p = c then expect ps cs else none
  | _ :: _, [] => none

theorem expect_append (p cs : List Char) : expect p (p ++ cs) = some cs := by
  induction p with
  | nil => rfl
  | cons c p ih =>
    rw [cons_append, expect, if_pos rfl]
    exact ih

/-- Read a number without sign. -/
def readNat (cs : List Char) : Option (ℕ × List Char) :=
  let digits := cs.takeWhile Char.isDigit
  if digits = [] then none else some (Nat.ofDigitChars 10 digits 0, cs.dropWhile Char.isDigit)

theorem readNat_toDigits (n : ℕ) {cs : List Char} (h : ∀ c ∈ cs.head?, c.isDigit = false) :
    readNat (Nat.toDigits 10 n ++ cs) = some (n, cs) := by
  have hdigits : ∀ c ∈ Nat.toDigits 10 n, c.isDigit = true :=
    fun c hc => Nat.isDigit_of_mem_toDigits (by omega) (by omega) hc
  have htake : cs.takeWhile Char.isDigit = [] := by
    cases cs with
    | nil => rfl
    | cons c cs => simp [h c (by simp)]
  have hdrop : cs.dropWhile Char.isDigit = cs := by
    cases cs with
    | nil => rfl
    | cons c cs => simp [h c (by simp)]
  unfold readNat
  rw [takeWhile_append_of_pos hdigits, dropWhile_append_of_pos hdigits, htake, hdrop,
    append_nil, if_neg Nat.toDigits_ne_nil, Nat.ofDigitChars_toDigits (by omega) (by omega)]

end JsonText
