import AgentBridge.Text.Object

/-!
# Flat documents

A flat JSON object: its members are numbers, strings and lists of these. `dumps` writes it the way
`json.dumps` does by default (a blank after every comma and colon), `loads` reads it back.

Integers are written in decimal. How a float is written is a parameter, `FloatText`: all that is
used is that the text is one token, is not that of an integer, and is read back as the same float.

* `readSequence_sequence` : **what reads the items reads the sequence**.
* `loads_dumps` : an object is read back with its strings normalized.
-/

namespace JsonText

open AgentBridge List Option

/-! ### Sequences -/

section Sequence

variable {α β : Type}

/-- Items with separators and a closing character. -/
def sequence (close : Char) (write : α → List Char) : List α → List Char
  | [] => [close]
  | [a] => write a ++ [close]
  | a :: b :: rest => write a ++ ',' :: ' ' :: sequence close write (b :: rest)

/-- Read at least one item. -/
def readItems (close : Char) (read : List Char → Option (β × List Char)) :
    ℕ → List Char → Option (List β × List Char)
  | 0, _ => none
  | fuel + 1, cs => do
    let (b, cs) ← read cs
    match cs with
    | ',' :: ' ' :: cs =>
      let (bs, cs) ← readItems close read fuel cs
      return (b :: bs, cs)
    | c :: cs => if c = close then return ([b], cs) else none
    | [] => none

/-- Read the items up to the closing character. -/
def readSequence (close : Char) (read : List Char → Option (β × List Char)) (fuel : ℕ) :
    List Char → Option (List β × List Char)
  | [] => none
  | c :: cs => if c = close then some ([], cs) else readItems close read fuel (c :: cs)

variable {close : Char} {write : α → List Char} {read : List Char → Option (β × List Char)}
  {g : α → β}

/-- `read` reads what `write` writes, up to a separator or the closing character. -/
def Reads (close : Char) (write : α → List Char) (read : List Char → Option (β × List Char))
    (g : α → β) : Prop :=
  ∀ a c rest, c = close ∨ c = ',' → read (write a ++ c :: rest) = some (g a, c :: rest)

theorem readItems_sequence (hclose : close ≠ ',') (h : Reads close write read g) (a : α)
    (l : List α) (fuel : ℕ) (hfuel : l.length < fuel) (rest : List Char) :
    readItems close read fuel (sequence close write (a :: l) ++ rest) =
      some ((a :: l).map g, rest) := by
  induction l generalizing a fuel with
  | nil =>
    obtain ⟨fuel, rfl⟩ : ∃ n, fuel = n + 1 := ⟨fuel - 1, by simp at hfuel; omega⟩
    have hread := h a close rest (.inl rfl)
    simp only [sequence, append_assoc, singleton_append, readItems, hread,
      bind_eq_bind, bind_some]
    split
    case h_1 heq => exact absurd (List.cons.inj heq).1 hclose
    case h_2 heq =>
      obtain ⟨rfl, rfl⟩ := List.cons.inj heq
      rw [if_pos rfl]
      rfl
    case h_3 heq => cases heq
  | cons b l ih =>
    obtain ⟨fuel, rfl⟩ : ∃ n, fuel = n + 1 := ⟨fuel - 1, by simp at hfuel; omega⟩
    have hread := h a ',' (' ' :: (sequence close write (b :: l) ++ rest)) (.inr rfl)
    have hmore := ih b fuel (by simpa using hfuel)
    simp only [sequence, append_assoc, cons_append, readItems, hread,
      bind_eq_bind, bind_some, hmore]
    rfl

/-- **What reads the items reads the sequence.** -/
theorem readSequence_sequence (hclose : close ≠ ',') (h : Reads close write read g)
    (hstart : ∀ a, ∃ c cs, write a = c :: cs ∧ c ≠ close) (l : List α) (fuel : ℕ)
    (hfuel : l.length ≤ fuel) (rest : List Char) :
    readSequence close read fuel (sequence close write l ++ rest) = some (l.map g, rest) := by
  cases l with
  | nil =>
    rw [sequence, singleton_append, readSequence, if_pos rfl]
    rfl
  | cons a l =>
    have hitems := readItems_sequence hclose h a l fuel hfuel rest
    obtain ⟨c, cs, hwrite, hc⟩ := hstart a
    have hseq : ∃ cs', sequence close write (a :: l) = c :: cs' := by
      cases l with
      | nil => exact ⟨cs ++ [close], by rw [sequence, hwrite, cons_append]⟩
      | cons b l => exact ⟨_, by rw [sequence, hwrite, cons_append]⟩
    obtain ⟨cs', hseq⟩ := hseq
    rw [hseq] at hitems ⊢
    rw [cons_append, readSequence, if_neg hc]
    exact hitems

theorem length_le_length_sequence (close : Char) (write : α → List Char) (l : List α) :
    l.length ≤ (sequence close write l).length := by
  induction l with
  | nil => exact Nat.zero_le _
  | cons a l ih =>
    cases l with
    | nil => simp [sequence]
    | cons b l =>
      simp only [sequence, length_append, length_cons] at ih ⊢
      omega

end Sequence

/-! ### Numbers -/

/-- A character of a number. -/
def isTokenChar (c : Char) : Bool := c.isAlphanum || c = '+' || c = '-' || c = '.'

/-- The value of a nonempty string of digits. -/
def readDigits (cs : List Char) : Option ℕ :=
  if cs ≠ [] ∧ cs.all Char.isDigit then some (Nat.ofDigitChars 10 cs 0) else none

def readInt : List Char → Option ℤ
  | '-' :: cs => (readDigits cs).map fun n => -(n : ℤ)
  | cs => (readDigits cs).map fun n => (n : ℤ)

/-- How floats are written. -/
structure FloatText (F : Type) where
  write : F → List Char
  read : List Char → Option F
  read_write : ∀ x, read (write x) = some x
  ne_nil : ∀ x, write x ≠ []
  isToken : ∀ x, (write x).all isTokenChar = true
  not_int : ∀ x, readInt (write x) = none

/-- A Python number. -/
inductive Number (F : Type)
  | int (n : ℤ)
  | float (x : F)
  deriving DecidableEq

/-- What a list can hold. -/
inductive Item (F : Type)
  | num (n : Number F)
  | str (s : PyString)

/-- What a member can hold. -/
inductive Entry (F : Type)
  | item (i : Item F)
  | items (l : List (Item F))

variable {F : Type} (T : FloatText F)

def writeNumber : Number F → List Char
  | .int n => intText n
  | .float x => T.write x

def writeItem : Item F → List Char
  | .num n => writeNumber T n
  | .str s => quoted s

def writeEntry : Entry F → List Char
  | .item i => writeItem T i
  | .items l => '[' :: sequence ']' (writeItem T) l

def writeMember (kv : PyString × Entry F) : List Char :=
  quoted kv.1 ++ ':' :: ' ' :: writeEntry T kv.2

/-- `json.dumps`. -/
def dumps (members : List (PyString × Entry F)) : List Char :=
  '\x7b' :: sequence '\x7d' (writeMember T) members

def readNumber (cs : List Char) : Option (Number F × List Char) :=
  let token := cs.takeWhile isTokenChar
  let rest := cs.dropWhile isTokenChar
  match readInt token with
  | some n => some (.int n, rest)
  | none => (T.read token).map fun x => (.float x, rest)

def readItem : List Char → Option (Item F × List Char)
  | '"' :: cs => (PyString.readString cs).map fun r => (.str r.1, r.2)
  | cs => (readNumber T cs).map fun r => (.num r.1, r.2)

def readEntry : List Char → Option (Entry F × List Char)
  | '[' :: cs => (readSequence ']' (readItem T) cs.length cs).map fun r => (.items r.1, r.2)
  | cs => (readItem T cs).map fun r => (.item r.1, r.2)

def readMember : List Char → Option ((PyString × Entry F) × List Char)
  | '"' :: cs => do
    let (key, cs) ← PyString.readString cs
    let cs ← expect [':', ' '] cs
    let (entry, cs) ← readEntry T cs
    return ((key, entry), cs)
  | _ => none

/-- `json.loads`, on what `dumps` writes. -/
def loads : List Char → Option (List (PyString × Entry F))
  | '\x7b' :: cs =>
    match readSequence '\x7d' (readMember T) cs.length cs with
    | some (members, []) => some members
    | _ => none
  | _ => none

def Item.norm : Item F → Item F
  | .num n => .num n
  | .str s => .str s.norm

def Entry.norm : Entry F → Entry F
  | .item i => .item i.norm
  | .items l => .items (l.map Item.norm)

/-! ### Reading what was written -/

theorem readDigits_toDigits (n : ℕ) : readDigits (Nat.toDigits 10 n) = some n := by
  have hdigits : (Nat.toDigits 10 n).all Char.isDigit = true :=
    all_eq_true.mpr fun c hc => isDigit_of_mem_toDigits hc
  rw [readDigits, if_pos ⟨Nat.toDigits_ne_nil, hdigits⟩,
    Nat.ofDigitChars_toDigits (by omega) (by omega)]

theorem readInt_intText (n : ℤ) : readInt (intText n) = some n := by
  cases n with
  | ofNat n =>
    have hne : ∀ cs, Nat.toDigits 10 n ≠ '-' :: cs := by
      intro cs heq
      have hmem : '-' ∈ Nat.toDigits 10 n := by rw [heq]; exact mem_cons_self
      exact (digit_ne (isDigit_of_mem_toDigits hmem)).2.2 rfl
    unfold intText readInt
    split
    case h_1 cs heq => exact absurd heq (hne cs)
    case h_2 =>
      rw [readDigits_toDigits]
      rfl
  | negSucc n =>
    rw [intText, readInt, readDigits_toDigits]
    rfl

theorem isTokenChar_intText (n : ℤ) : (intText n).all isTokenChar = true := by
  have hdigit : ∀ m : ℕ, ∀ c ∈ Nat.toDigits 10 m, isTokenChar c = true := by
    intro m c hc
    have hc := isDigit_of_mem_toDigits hc
    simp [isTokenChar, Char.isAlphanum, hc]
  cases n with
  | ofNat n => exact all_eq_true.mpr (hdigit n)
  | negSucc n =>
    rw [intText, all_cons, all_eq_true.mpr (hdigit (n + 1))]
    decide

theorem isTokenChar_writeNumber (n : Number F) :
    (writeNumber T n).all isTokenChar = true := by
  cases n with
  | int n => exact isTokenChar_intText n
  | float x => exact T.isToken x

theorem writeNumber_start (n : Number F) :
    ∃ c cs, writeNumber T n = c :: cs ∧ isTokenChar c = true := by
  have hne : writeNumber T n ≠ [] := by
    cases n with
    | float x => exact T.ne_nil x
    | int n =>
      cases n with
      | ofNat n => exact Nat.toDigits_ne_nil
      | negSucc n => exact cons_ne_nil _ _
  obtain ⟨c, cs, hcs⟩ := exists_cons_of_ne_nil hne
  have hall := isTokenChar_writeNumber T n
  rw [hcs, all_cons, Bool.and_eq_true] at hall
  exact ⟨c, cs, hcs, hall.1⟩

variable {c : Char}

theorem readNumber_writeNumber (n : Number F) (hc : isTokenChar c = false) (rest : List Char) :
    readNumber T (writeNumber T n ++ c :: rest) = some (n, c :: rest) := by
  have hall : ∀ d ∈ writeNumber T n, isTokenChar d = true :=
    all_eq_true.mp (isTokenChar_writeNumber T n)
  have hstop : ¬isTokenChar c = true := by rw [hc]; exact Bool.false_ne_true
  unfold readNumber
  rw [takeWhile_append_of_pos hall, dropWhile_append_of_pos hall,
    takeWhile_cons_of_neg hstop, dropWhile_cons_of_neg hstop, append_nil]
  cases n with
  | int n => simp only [writeNumber, readInt_intText]
  | float x => simp only [writeNumber, T.not_int, T.read_write, map_some]

theorem ne_of_isTokenChar {d : Char} (hc : isTokenChar c = true) (hd : isTokenChar d = false) :
    c ≠ d := by
  rintro rfl
  rw [hc] at hd
  cases hd

theorem readItem_writeItem (i : Item F) (hc : isTokenChar c = false) (rest : List Char) :
    readItem T (writeItem T i ++ c :: rest) = some (i.norm, c :: rest) := by
  cases i with
  | str s =>
    have hread := PyString.readString_escape s (c :: rest)
    simp only [writeItem, quoted, cons_append, append_assoc, nil_append, readItem,
      hread]
    rfl
  | num n =>
    obtain ⟨d, ds, hd, htoken⟩ := writeNumber_start T n
    have hread := readNumber_writeNumber T n hc rest
    rw [writeItem]
    rw [hd, cons_append] at hread ⊢
    rw [readItem, hread]
    · rfl
    · rintro cs heq
      exact ne_of_isTokenChar htoken (by decide) (List.cons.inj heq).1

theorem writeItem_start (i : Item F) :
    ∃ c cs, writeItem T i = c :: cs ∧ c ≠ ']' ∧ c ≠ '[' := by
  cases i with
  | str s => exact ⟨'"', _, rfl, by decide, by decide⟩
  | num n =>
    obtain ⟨c, cs, hcs, hc⟩ := writeNumber_start T n
    exact ⟨c, cs, hcs, ne_of_isTokenChar hc (by decide), ne_of_isTokenChar hc (by decide)⟩

theorem readEntry_writeEntry (f : Entry F) (hc : isTokenChar c = false) (rest : List Char) :
    readEntry T (writeEntry T f ++ c :: rest) = some (f.norm, c :: rest) := by
  cases f with
  | item i =>
    obtain ⟨d, ds, hd, -, hbracket⟩ := writeItem_start T i
    have hread := readItem_writeItem T i hc rest
    rw [writeEntry]
    rw [hd, cons_append] at hread ⊢
    rw [readEntry, hread]
    · rfl
    · rintro cs heq
      exact hbracket (List.cons.inj heq).1
  | items l =>
    have hreads : Reads ']' (writeItem T) (readItem T) Item.norm := by
      rintro i d rest (rfl | rfl) <;> exact readItem_writeItem T i (by decide) rest
    have hstart : ∀ i, ∃ d ds, writeItem T i = d :: ds ∧ d ≠ ']' := by
      intro i
      obtain ⟨d, ds, hd, hne, -⟩ := writeItem_start T i
      exact ⟨d, ds, hd, hne⟩
    have hfuel : l.length ≤ (sequence ']' (writeItem T) l ++ c :: rest).length := by
      rw [length_append]
      exact (length_le_length_sequence _ _ l).trans (Nat.le_add_right _ _)
    rw [writeEntry, cons_append, readEntry,
      readSequence_sequence (by decide) hreads hstart l _ hfuel]
    rfl

/-- What reading makes of a member. -/
def normMember (kv : PyString × Entry F) : PyString × Entry F := (kv.1.norm, kv.2.norm)

theorem readMember_writeMember (kv : PyString × Entry F) (hc : isTokenChar c = false)
    (rest : List Char) :
    readMember T (writeMember T kv ++ c :: rest) = some (normMember kv, c :: rest) := by
  have hkey := PyString.readString_escape kv.1 (':' :: ' ' :: (writeEntry T kv.2 ++ c :: rest))
  have hexpect := expect_append [':', ' '] (writeEntry T kv.2 ++ c :: rest)
  have hentry := readEntry_writeEntry T kv.2 hc rest
  simp only [cons_append, nil_append] at hexpect
  simp only [writeMember, quoted, cons_append, append_assoc, nil_append, readMember,
    hkey, Option.bind_eq_bind, Option.bind_some, hexpect, hentry]
  rfl

/-- **An object is read back with its strings normalized.** -/
theorem loads_dumps (members : List (PyString × Entry F)) :
    loads T (dumps T members) = some (members.map normMember) := by
  have hreads : Reads '\x7d' (writeMember T) (readMember T) normMember := by
    rintro kv c rest (rfl | rfl) <;> exact readMember_writeMember T kv (by decide) rest
  have hstart : ∀ kv : PyString × Entry F, ∃ c cs, writeMember T kv = c :: cs ∧ c ≠ '\x7d' :=
    fun kv => ⟨'"', _, rfl, by decide⟩
  have hread := readSequence_sequence (by decide) hreads hstart members _
    (length_le_length_sequence '\x7d' (writeMember T) members) []
  rw [append_nil] at hread
  rw [dumps, loads, hread]

end JsonText
